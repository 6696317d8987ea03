import Mathlib.Data.List.Rotate

/-!
# A queue in a ring

`Holds buf r w q` says that the elements of `q` lie in the block `buf` from position `r` on, going
round at its end, and that `w` is the position behind them. Elements are appended and removed in
pieces that do not go round (`Holds.put`, `Holds.get`); a position at the end of the block is as
good as one at its beginning (`Holds.wrap`, `Holds.rewind`).
-/

namespace Ring

variable {α : Type*} {buf src q : List α} {off r w k m : ℕ}

/-- `src` put over the elements of the block from `off` on. -/
def blit (buf : List α) (off : ℕ) (src : List α) : List α :=
  buf.take off ++ (src ++ buf.drop (off + src.length))

theorem length_blit (h : off + src.length ≤ buf.length) :
    (blit buf off src).length = buf.length := by
  simp only [blit, List.length_append, List.length_take, List.length_drop]
  omega

@[simp] theorem blit_nil : blit buf off [] = buf := by simp [blit]

theorem rotate_blit (h : off + src.length ≤ buf.length) :
    (blit buf off src).rotate off = src ++ (buf.rotate off).drop src.length := by
  have hoff : (buf.take off).length = off := List.length_take_of_le (by omega)
  rw [List.rotate_eq_drop_append_take (by rw [length_blit h]; omega),
    List.rotate_eq_drop_append_take (show off ≤ buf.length by omega)]
  have hdrop : (blit buf off src).drop off = src ++ buf.drop (off + src.length) := by
    rw [blit, List.drop_left' hoff]
  have htake : (blit buf off src).take off = buf.take off := by
    rw [blit, List.take_left' hoff]
  rw [hdrop, htake, List.append_assoc,
    List.drop_append_of_le_length (by rw [List.length_drop]; omega), List.drop_drop]

/-- The `k` elements from position `r` on, going round at the end. -/
def window (buf : List α) (r k : ℕ) : List α := (buf.rotate r).take k

theorem take_drop_eq_window (h : r + k ≤ buf.length) : (buf.drop r).take k = window buf r k := by
  rw [window, List.rotate_eq_drop_append_take (by omega),
    List.take_append_of_le_length (by rw [List.length_drop]; omega)]

theorem drop_window (hk : k ≤ buf.length) (hm : m ≤ k) :
    (window buf r k).drop m = window buf (r + m) (k - m) := by
  have hlen : (buf.rotate r).length = buf.length := List.length_rotate ..
  rw [window, window, ← List.rotate_rotate, List.drop_take,
    List.rotate_eq_drop_append_take (show m ≤ (buf.rotate r).length by omega),
    List.take_append_of_le_length (by rw [List.length_drop]; omega)]

/-- The position behind `k` elements from `r` on, however often it goes round. -/
theorem rotate_pos {b : List α} (hoff : off = r + k ∨ off + b.length = r + k) :
    b.rotate off = (b.rotate r).rotate k := by
  rw [List.rotate_rotate]
  rcases hoff with h | h
  · rw [h]
  · rw [← h, ← List.rotate_mod b (off + b.length), Nat.add_mod_right, List.rotate_mod]

/-- What is put right behind a window prolongs it, and spoils nothing of it. -/
theorem window_blit (h : off + src.length ≤ buf.length) (hk : k + src.length ≤ buf.length)
    (hoff : off = r + k ∨ off + buf.length = r + k) :
    window (blit buf off src) r (k + src.length) = window buf r k ++ src := by
  have hlen : (buf.rotate r).length = buf.length := List.length_rotate ..
  have hlen' : ((blit buf off src).rotate r).length = buf.length :=
    (List.length_rotate ..).trans (length_blit h)
  have hrot := rotate_blit h
  rw [rotate_pos hoff, rotate_pos (by rwa [length_blit h]),
    List.rotate_eq_drop_append_take (l := (blit buf off src).rotate r) (by omega),
    List.rotate_eq_drop_append_take (l := buf.rotate r) (by omega),
    List.drop_append_of_le_length (by rw [List.length_drop]; omega), ← List.append_assoc] at hrot
  obtain ⟨hdrop, htake⟩ := List.append_inj' hrot (by
    rw [List.length_take, List.length_take, hlen, hlen'])
  rw [window, window, List.take_add, hdrop, htake, List.take_left]

/-- A queue of at most as many elements as the block has lies in it from `r` on, up to `w`. -/
structure Holds (buf : List α) (r w : ℕ) (q : List α) : Prop where
  length : q.length ≤ buf.length
  read : r ≤ buf.length
  write : w ≤ buf.length
  pos : w = r + q.length ∨ w + buf.length = r + q.length
  items : window buf r q.length = q

namespace Holds

theorem nil : Holds buf 0 0 ([] : List α) := ⟨by simp, by simp, by simp, .inl rfl, rfl⟩

/-- A piece that does not go round is appended. -/
theorem put (h : Holds buf r w q) (src : List α) (hw : w + src.length ≤ buf.length)
    (hq : q.length + src.length ≤ buf.length) :
    Holds (blit buf w src) r (w + src.length) (q ++ src) := by
  have hlen := length_blit hw
  have hread := h.read
  have hpos := h.pos
  refine ⟨by rw [hlen, List.length_append]; exact hq, by omega, by omega, ?_, ?_⟩
  · rw [hlen, List.length_append]
    omega
  · rw [List.length_append, window_blit hw hq h.pos, h.items]

/-- A piece that does not go round is removed. -/
theorem get (h : Holds buf r w q) (hm : m ≤ q.length) (hr : r + m ≤ buf.length) :
    (buf.drop r).take m = q.take m ∧ Holds buf (r + m) w (q.drop m) := by
  have hlen := h.length
  have hwrite := h.write
  have hpos := h.pos
  constructor
  · rw [take_drop_eq_window hr]
    conv_rhs => rw [← h.items]
    rw [window, window, List.take_take, min_eq_left hm]
  · refine ⟨by rw [List.length_drop]; omega, hr, hwrite, by rw [List.length_drop]; omega, ?_⟩
    rw [List.length_drop, ← drop_window hlen hm, h.items]

theorem wrap (h : Holds buf r buf.length q) (hr : r < buf.length) : Holds buf r 0 q := by
  have hpos := h.pos
  have hlen := h.length
  exact ⟨hlen, h.read, Nat.zero_le _, by omega, h.items⟩

theorem rewind (h : Holds buf buf.length w q) (hw : w < buf.length) : Holds buf 0 w q := by
  have hpos := h.pos
  have hlen := h.length
  refine ⟨hlen, Nat.zero_le _, h.write, by omega, ?_⟩
  rw [window, List.rotate_zero, ← List.rotate_length buf]
  exact h.items

/-- Elements that go round are appended in two pieces. -/
theorem put_round (h : Holds buf r w q) (src : List α) (m₁ m₂ : ℕ) (hr : r < buf.length)
    (hw : w + m₁ = buf.length) (hsrc : m₁ + m₂ ≤ src.length)
    (hq : q.length + (m₁ + m₂) ≤ buf.length) :
    Holds (blit (blit buf w (src.take m₁)) 0 ((src.drop m₁).take m₂)) r m₂
      (q ++ src.take (m₁ + m₂)) := by
  have h₁ : (src.take m₁).length = m₁ := List.length_take_of_le (by omega)
  have h₂ : ((src.drop m₁).take m₂).length = m₂ :=
    List.length_take_of_le (by rw [List.length_drop]; omega)
  have hfirst := h.put (src.take m₁) (by omega) (by omega)
  have hlen : (blit buf w (src.take m₁)).length = buf.length := length_blit (by omega)
  rw [h₁, hw, ← hlen] at hfirst
  have hsecond := (hfirst.wrap (by omega)).put ((src.drop m₁).take m₂) (by omega)
    (by rw [List.length_append]; omega)
  rwa [h₂, Nat.zero_add, List.append_assoc, ← List.take_add] at hsecond

/-- Elements that go round are removed in two pieces. -/
theorem get_round (h : Holds buf r w q) (m₁ m₂ : ℕ) (hw : w < buf.length)
    (hr : r + m₁ = buf.length) (hm : m₁ + m₂ ≤ q.length) :
    (buf.drop r).take m₁ ++ buf.take m₂ = q.take (m₁ + m₂)
      ∧ Holds buf m₂ w (q.drop (m₁ + m₂)) := by
  have hlen := h.length
  obtain ⟨htake, hfirst⟩ := h.get (m := m₁) (by omega) hr.le
  rw [hr] at hfirst
  obtain ⟨htake', hsecond⟩ := (hfirst.rewind hw).get (m := m₂)
    (by rw [List.length_drop]; omega) (by omega)
  rw [List.drop_zero] at htake'
  rw [Nat.zero_add, List.drop_drop] at hsecond
  exact ⟨by rw [htake, htake', ← List.take_add], hsecond⟩

/-- The positions are equal for the empty queue and for the one that fills the block. -/
theorem pos_eq_iff (h : Holds buf r w q) (hr : r < buf.length) (hw : w < buf.length) :
    r = w ↔ q.length = 0 ∨ q.length = buf.length := by
  have hpos := h.pos
  have hlen := h.length
  omega

end Holds

/-- Two pieces put one behind the other are put as one. -/
theorem blit_blit {dst a b : List α} :
    blit (blit dst 0 a) a.length b = blit dst 0 (a ++ b) := by
  simp only [blit, List.take_zero, List.nil_append, Nat.zero_add, List.append_assoc,
    List.take_left, List.length_append]
  rw [← List.drop_drop, List.drop_left, List.drop_drop]

/-! ## The queue itself -/

/-- A queue of at most `n` elements. -/
structure Fifo (α : Type*) (n : ℕ) where
  items : List α
  le : items.length ≤ n

namespace Fifo

variable {n : ℕ}

def empty : Fifo α n := ⟨[], Nat.zero_le n⟩

/-- As many elements as there is room for are appended. -/
def push (q : Fifo α n) (src : List α) : Fifo α n where
  items := q.items ++ src.take (n - q.items.length)
  le := by
    have hle := q.le
    rw [List.length_append, List.length_take]
    omega

/-- The first `k` elements are removed. -/
def pop (q : Fifo α n) (k : ℕ) : Fifo α n where
  items := q.items.drop k
  le := by
    have hle := q.le
    rw [List.length_drop]
    omega

end Fifo

end Ring
