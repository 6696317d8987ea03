import TestLibuv.CircularBuffer

/-!
# The ring buffer is a bounded queue

Each case of `write` and `read` moves its elements in one piece or in two, and leaves the queue in
the ring as the same operation on a bounded queue leaves it. The flags tell the empty queue from
the full one, for which the positions are equal. So no sequence of calls can tell the buffer from
the queue.
-/

namespace TestLibuv

open Ring

namespace PodCircularBuffer

variable {T : Type} {n : ℕ} {b : PodCircularBuffer T} {q : Fifo T n} {buf : List T} {c : ℕ}

/-- What a call does to a queue of at most `n` elements. -/
def fifoCall (q : Fifo T n) : Call T → ℤ × List T × Fifo T n
  | .write buf count =>
    if count ≤ 0 then (0, buf, q)
    else ((min count.toNat (n - q.items.length) : ℕ), buf, q.push (buf.take count.toNat))
  | .read buf count =>
    if count ≤ 0 then (0, buf, q)
    else
      let k := min count.toNat q.items.length
      (k, blit buf 0 (q.items.take k), q.pop k)
  | .clear => (0, [], .empty)

/-- What is seen of a sequence of calls to the queue. -/
def fifoCalls : Fifo T n → List (Call T) → List (Seen T)
  | _, [] => []
  | q, c :: cs =>
    let (ret, buf, q) := fifoCall q c
    ⟨ret, buf, q.items.length, decide (q.items.length = 0), decide (q.items.length = n)⟩
      :: fifoCalls q cs

/-- The caller's array has the elements that are written, or room for those that are read. -/
def Roomy : Fifo T n → List (Call T) → Prop
  | _, [] => True
  | q, c :: cs =>
    (match c with
    | .write buf count => min count.toNat (n - q.items.length) ≤ buf.length
    | .read buf count => min count.toNat q.items.length ≤ buf.length
    | .clear => True) ∧ Roomy (fifoCall q c).2.2 cs

/-- The buffer holds the queue, and its flags say whether it is empty or full. -/
structure Refines (b : PodCircularBuffer T) (q : Fifo T n) : Prop where
  bufSize : b.nBufSize = n
  block : b.pBuf.length = n
  read : 0 ≤ b.nReadPos ∧ b.nReadPos < n
  write : 0 ≤ b.nWritePos ∧ b.nWritePos < n
  holds : Holds b.pBuf b.nReadPos.toNat b.nWritePos.toNat q.items
  empty : b.bEmpty = decide (q.items.length = 0)
  full : b.bFull = decide (q.items.length = n)

theorem memcpy_ok {dst src : List T} {i j count : ℤ} {x y k : ℕ} (hi : i = x) (hj : j = y)
    (hk : count = k) (hdst : x + k ≤ dst.length) (hsrc : y + k ≤ src.length) :
    memcpy dst i src j count = .ok (blit dst x ((src.drop y).take k)) := by
  subst hi hj hk
  unfold memcpy
  rw [if_pos (by omega)]
  rfl

theorem Refines.size (h : Refines b q) : b.size = q.items.length := by
  have hpos := h.holds.pos
  have hblock := h.block
  have hsize := h.bufSize
  have hread := h.read
  have hwrite := h.write
  have hle := q.le
  unfold PodCircularBuffer.size
  rw [h.empty, h.full]
  simp only [decide_eq_true_eq]
  split_ifs <;> omega

theorem refines_new {contents : List T} (hlen : contents.length = n) (hn : 1 ≤ n) :
    Refines (new contents) (Fifo.empty : Fifo T n) := by
  have hne : ¬ 0 = n := by omega
  refine ⟨congrArg _ hlen, hlen, ⟨Int.le_refl 0, ?_⟩, ⟨Int.le_refl 0, ?_⟩, .nil,
    rfl, ?_⟩
  · exact Int.natCast_pos.2 hn
  · exact Int.natCast_pos.2 hn
  · exact (decide_eq_false hne).symm

theorem Refines.clear (h : Refines b q) : Refines b.clear (Fifo.empty : Fifo T n) := by
  have hread := h.read
  have hne : ¬ 0 = n := by omega
  refine ⟨h.bufSize, h.block, ⟨Int.le_refl 0, ?_⟩, ⟨Int.le_refl 0, ?_⟩, .nil,
    rfl, ?_⟩
  · show (0 : ℤ) < n
    omega
  · show (0 : ℤ) < n
    omega
  · exact (decide_eq_false hne).symm

/-! ## `write` -/

theorem assert_true {x : Bool} (h : x = true) : assert x = .ok () := if_pos h

theorem assertPos_ok (hr : b.nReadPos ≤ b.nBufSize) (hw : b.nWritePos ≤ b.nBufSize) :
    b.assertPos = .ok () := by
  simp only [assertPos, assert_true (decide_eq_true hr), assert_true (decide_eq_true hw), bind,
    Except.bind]

theorem ok_ret {x y : ℤ} {r : PodCircularBuffer T} (h : x = y) :
    (Except.ok (x, r) : Except RingFault _) = .ok (y, r) := by rw [h]

theorem ok_read {x y : ℤ} {a : List T} {r : PodCircularBuffer T} (h : x = y) :
    (Except.ok (x, a, r) : Except RingFault _) = .ok (y, a, r) := by rw [h]

/-- The positions as natural numbers. -/
theorem Refines.positions (h : Refines b q) : ∃ r w : ℕ, b.nReadPos = r ∧ b.nWritePos = w
    ∧ r < n ∧ w < n ∧ Holds b.pBuf r w q.items := by
  have hread := h.read
  have hwrite := h.write
  have hh := h.holds
  lift b.nReadPos to ℕ using hread.1 with r hr
  lift b.nWritePos to ℕ using hwrite.1 with w hw
  exact ⟨r, w, rfl, rfl, by omega, by omega, hh⟩

/-- The buffer once `k` elements are written, so that the next ones go to `w`. -/
theorem refines_wrote {pBuf : List T} {r w k : ℕ} {pos : ℤ} {full : Bool} (hk : 0 < k)
    (hkc : k = min c (n - q.items.length)) (hbuf : k ≤ buf.length) (hr : r < n) (hw : w < n)
    (hpos : pos = w) (hlen : pBuf.length = n) (hh : Holds pBuf r w (q.items ++ buf.take k))
    (hfull : full = true ↔ r = w) :
    Refines ⟨false, full, pBuf, n, r, pos⟩ (q.push (buf.take c)) := by
  subst hpos
  have hle := q.le
  have hitems : (q.push (buf.take c)).items = q.items ++ buf.take k := by
    show q.items ++ (buf.take c).take (n - q.items.length) = _
    rw [List.take_take, min_comm, ← hkc]
  have hcount : (q.push (buf.take c)).items.length = q.items.length + k := by
    rw [hitems, List.length_append, List.length_take_of_le hbuf]
  refine ⟨rfl, hlen, ⟨Int.natCast_nonneg r, Int.ofNat_lt.2 hr⟩,
    ⟨Int.natCast_nonneg w, Int.ofNat_lt.2 hw⟩, ?_, ?_, ?_⟩
  · rw [hitems]
    exact hh
  · rw [hcount]
    exact (decide_eq_false (by omega)).symm
  · have hiff := hh.pos_eq_iff (by omega) (by omega)
    rw [List.length_append, List.length_take_of_le hbuf, hlen] at hiff
    rw [hcount, Bool.eq_iff_iff, decide_eq_true_eq, hfull, hiff]
    omega

theorem refines_wrote_piece {pBuf : List T} {r w k : ℕ} {pos : ℤ} {full : Bool}
    (hh : Holds pBuf r w q.items) (hlen : pBuf.length = n) (hk : 0 < k)
    (hkc : k = min c (n - q.items.length)) (hbuf : k ≤ buf.length) (hr : r < n) (hw : w + k < n)
    (hpos : pos = (w + k : ℕ)) (hfull : full = true ↔ r = w + k) :
    Refines ⟨false, full, blit pBuf w (buf.take k), n, r, pos⟩ (q.push (buf.take c)) := by
  have hle := q.le
  have htake : (buf.take k).length = k := List.length_take_of_le hbuf
  have hput := hh.put (buf.take k) (by omega) (by omega)
  rw [htake] at hput
  exact refines_wrote hk hkc hbuf hr hw hpos ((length_blit (by omega)).trans hlen) hput hfull

theorem refines_wrote_round {pBuf : List T} {r w m₁ m₂ : ℕ} {pos : ℤ} {full : Bool}
    (hh : Holds pBuf r w q.items) (hlen : pBuf.length = n) (hw : w + m₁ = n) (hk : 0 < m₁ + m₂)
    (hkc : m₁ + m₂ = min c (n - q.items.length)) (hbuf : m₁ + m₂ ≤ buf.length) (hr : r < n)
    (hm : m₂ < n) (hpos : pos = m₂) (hfull : full = true ↔ r = m₂) :
    Refines ⟨false, full, blit (blit pBuf w (buf.take m₁)) 0 ((buf.drop m₁).take m₂), n, r, pos⟩
      (q.push (buf.take c)) := by
  have hle := q.le
  have h₁ : (buf.take m₁).length = m₁ := List.length_take_of_le (by omega)
  have h₂ : ((buf.drop m₁).take m₂).length = m₂ :=
    List.length_take_of_le (by rw [List.length_drop]; omega)
  have hlen₁ : (blit pBuf w (buf.take m₁)).length = n :=
    (length_blit (by omega)).trans hlen
  have hput := hh.put_round buf m₁ m₂ (by omega) (by omega) hbuf (by omega)
  exact refines_wrote hk hkc hbuf hr hm hpos ((length_blit (by omega)).trans hlen₁) hput hfull

/-- What goes round is cut in two pieces, `m₁` elements up to the end of the block and `m₂` from its
start, where the second ends at `e` at the latest. -/
theorem round_pieces {x e R : ℕ} {P : Prop} [Decidable P] (hx : x < n)
    (hleft : ¬ (n : ℤ) - x > c) (hroom : R + x = n + e) (hP : P → (c : ℤ) - (n - x) ≤ e)
    (hP' : ¬ P → (e : ℤ) ≤ c - (n - x)) : ∃ m₁ m₂ : ℕ, x + m₁ = n ∧ (n : ℤ) - x = m₁
      ∧ (if P then (c : ℤ) - (n - x) else e) = m₂ ∧ m₁ + m₂ = min c R := by
  obtain ⟨m₁, hm₁⟩ : ∃ m₁ : ℕ, x + m₁ = n := ⟨n - x, by omega⟩
  have hleftm : (n : ℤ) - x = m₁ := by omega
  by_cases h : P
  · have hle := hP h
    exact ⟨m₁, c - m₁, hm₁, hleftm, (if_pos h).trans (by omega), by omega⟩
  · have hle := hP' h
    exact ⟨m₁, e, hm₁, hleftm, if_neg h, by omega⟩

/-- The copies of elements that go round. -/
theorem memcpy_round (buf : List T) (m₂ : ℕ) {pBuf : List T} {w m₁ : ℕ} {left count : ℤ}
    (hlen : pBuf.length = n) (hw : w + m₁ = n) (hm : m₂ ≤ n) (hbuf : m₁ + m₂ ≤ buf.length)
    (hl : left = m₁) (hc : count = m₂) : memcpy pBuf w buf 0 left = .ok (blit pBuf w (buf.take m₁))
      ∧ memcpy (blit pBuf w (buf.take m₁)) 0 buf left count
        = .ok (blit (blit pBuf w (buf.take m₁)) 0 ((buf.drop m₁).take m₂)) := by
  have hlen₁ : (blit pBuf w (buf.take m₁)).length = n :=
    (length_blit (by rw [List.length_take]; omega)).trans hlen
  exact ⟨memcpy_ok (y := 0) rfl rfl hl (by omega) (by omega),
    memcpy_ok (x := 0) rfl hl hc (by omega) (by omega)⟩

theorem Refines.writeEmpty (h : Refines b q) (hc : 0 < c) (hq : q.items.length = 0)
    (hpos : b.nReadPos = b.nWritePos) (hroom : min c (n - q.items.length) ≤ buf.length) :
    ∃ b', PodCircularBuffer.writeEmpty { b with bEmpty := false } buf c
        = .ok ((min c (n - q.items.length) : ℕ), b')
      ∧ Refines b' (q.push (buf.take c)) := by
  obtain ⟨r, w, hr, hw, hrn, hwn, hh⟩ := h.positions
  have hsize := h.bufSize
  have hblock := h.block
  have hfull : b.bFull = false := h.full.trans (decide_eq_false (by omega))
  obtain rfl : r = w := by omega
  unfold PodCircularBuffer.writeEmpty
  simp only [hr, hw, hsize, hfull]
  by_cases hleft : (n : ℤ) - r > c
  · have hcpy : memcpy b.pBuf r buf 0 c = .ok (blit b.pBuf r (buf.take c)) :=
      memcpy_ok (y := 0) rfl rfl rfl (by omega) (by omega)
    simp only [if_pos hleft, hcpy, bind, Except.bind, pure, Except.pure]
    refine ⟨_, ok_ret (by omega), refines_wrote_piece hh hblock hc (by omega) (by omega) hrn
      (by omega) rfl ?_⟩
    simp only [Bool.false_eq_true, false_iff]
    omega
  · obtain ⟨m₁, m₂, hm₁, hleftm, hm₂, hkc⟩ := round_pieces (P := (r : ℤ) > c - (n - r)) (e := r)
      (R := n - q.items.length) hrn hleft (by omega) Int.le_of_lt Int.not_lt.1
    obtain ⟨hcpy₁, hcpy₂⟩ := memcpy_round buf m₂ hblock hm₁ (by omega) (by omega)
      hleftm rfl
    simp only [if_neg hleft, hm₂, hcpy₁, hcpy₂, bind, Except.bind, pure, Except.pure]
    refine ⟨_, ok_ret (by omega), refines_wrote_round hh hblock hm₁ (by omega) hkc (by omega) hrn
      (by omega) rfl ?_⟩
    rw [decide_eq_true_eq]
    omega

theorem Refines.writeAhead (h : Refines b q) (hc : 0 < c)
    (hpos : b.nReadPos < b.nWritePos) (hroom : min c (n - q.items.length) ≤ buf.length) :
    ∃ b', PodCircularBuffer.writeAhead { b with bEmpty := false } buf c
        = .ok ((min c (n - q.items.length) : ℕ), b')
      ∧ Refines b' (q.push (buf.take c)) := by
  obtain ⟨r, w, hr, hw, hrn, hwn, hh⟩ := h.positions
  have hsize := h.bufSize
  have hblock := h.block
  have hlen := hh.pos
  have hle := q.le
  unfold PodCircularBuffer.writeAhead
  simp only [hr, hw, hsize]
  by_cases hleft : (n : ℤ) - w > c
  · have hcpy : memcpy b.pBuf w buf 0 c = .ok (blit b.pBuf w (buf.take c)) :=
      memcpy_ok (y := 0) rfl rfl rfl (by omega) (by omega)
    rw [if_pos hleft, hcpy]
    simp only [bind, Except.bind]
    rw [assertPos_ok (by dsimp only; omega) (by dsimp only; omega)]
    refine ⟨_, ok_ret (by omega), refines_wrote_piece hh hblock hc (by omega) (by omega) hrn
      (by omega) rfl ?_⟩
    rw [decide_eq_true_eq]
    omega
  · obtain ⟨m₁, m₂, hm₁, hleftm, hm₂, hkc⟩ := round_pieces (P := (r : ℤ) ≥ c - (n - w)) (e := r)
      (R := n - q.items.length) hwn hleft (by omega) id fun h => Int.le_of_lt (Int.not_le.1 h)
    obtain ⟨hcpy₁, hcpy₂⟩ := memcpy_round buf m₂ hblock hm₁ (by omega) (by omega)
      hleftm rfl
    rw [if_neg hleft, hcpy₁]
    simp only [hm₂, hcpy₂, bind, Except.bind]
    rw [assertPos_ok (by dsimp only; omega) (by dsimp only; omega)]
    refine ⟨_, ok_ret (by omega), refines_wrote_round hh hblock hm₁ (by omega) hkc (by omega) hrn
      (by omega) rfl ?_⟩
    rw [decide_eq_true_eq]
    omega

theorem Refines.writeBehind (h : Refines b q) (hc : 0 < c)
    (hpos : b.nWritePos < b.nReadPos) (hroom : min c (n - q.items.length) ≤ buf.length) :
    ∃ b', PodCircularBuffer.writeBehind { b with bEmpty := false } buf c
        = .ok ((min c (n - q.items.length) : ℕ), b')
      ∧ Refines b' (q.push (buf.take c)) := by
  obtain ⟨r, w, hr, hw, hrn, hwn, hh⟩ := h.positions
  have hsize := h.bufSize
  have hblock := h.block
  have hlen := hh.pos
  have hle := q.le
  unfold PodCircularBuffer.writeBehind
  simp only [hr, hw, hsize]
  by_cases hleft : (r : ℤ) - w > c
  · have hcpy : memcpy b.pBuf w buf 0 c = .ok (blit b.pBuf w (buf.take c)) :=
      memcpy_ok (y := 0) rfl rfl rfl (by omega) (by omega)
    rw [if_pos hleft, hcpy]
    simp only [bind, Except.bind]
    rw [assertPos_ok (by dsimp only; omega) (by dsimp only; omega)]
    refine ⟨_, ok_ret (by omega), refines_wrote_piece hh hblock hc (by omega) (by omega) hrn
      (by omega) rfl ?_⟩
    rw [decide_eq_true_eq]
    omega
  · obtain ⟨m, hm⟩ : ∃ m : ℕ, w + m = r := ⟨r - w, by omega⟩
    have hcpy : memcpy b.pBuf w buf 0 (r - w) = .ok (blit b.pBuf w (buf.take m)) :=
      memcpy_ok (y := 0) rfl rfl (by omega) (by omega) (by omega)
    rw [if_neg hleft, hcpy]
    simp only [bind, Except.bind]
    rw [assert_true (decide_eq_true (by omega)),
      assertPos_ok (by dsimp only; omega) (by dsimp only; omega)]
    refine ⟨_, ok_ret (by omega), refines_wrote_piece hh hblock (by omega) (by omega) (by omega) hrn
      (by omega) (by omega) ?_⟩
    rw [decide_eq_true_eq]
    omega

/-- `write` appends to the queue what there is room for. -/
theorem Refines.write_pos (h : Refines b q) (hc : 0 < c)
    (hroom : min c (n - q.items.length) ≤ buf.length) :
    ∃ b', b.write buf c = .ok ((min c (n - q.items.length) : ℕ), b')
      ∧ Refines b' (q.push (buf.take c)) := by
  have hread := h.read
  have hwrite := h.write
  have hiff := h.holds.pos_eq_iff (by rw [h.block]; omega) (by rw [h.block]; omega)
  have hle := q.le
  rw [h.block] at hiff
  unfold PodCircularBuffer.write
  rw [if_neg (by omega)]
  by_cases hfull : q.items.length = n
  · rw [if_pos (h.full.trans (decide_eq_true hfull))]
    refine ⟨b, ok_ret (by omega), ?_⟩
    have hsame : q.push (buf.take c) = q := by
      simp [Fifo.push, hfull]
    rwa [hsame]
  · rw [if_neg (by simpa [h.full] using hfull)]
    dsimp only
    split_ifs with heq hlt
    · exact h.writeEmpty hc (by omega) heq hroom
    · exact h.writeAhead hc hlt hroom
    · exact h.writeBehind hc (by omega) hroom

/-! ## `read` -/

/-- The buffer once `k` elements are read, so that the next ones come from `r`. -/
theorem refines_read {pBuf : List T} {r w k : ℕ} {pos : ℤ} {isEmpty : Bool} (hk : 0 < k)
    (hkq : k ≤ q.items.length) (hr : r < n) (hw : w < n) (hpos : pos = r) (hlen : pBuf.length = n)
    (hh : Holds pBuf r w (q.items.drop k)) (hempty : isEmpty = true ↔ r = w) :
    Refines ⟨isEmpty, false, pBuf, n, pos, w⟩ (q.pop k) := by
  subst hpos
  have hle := q.le
  have hcount : (q.pop k).items.length = q.items.length - k := List.length_drop ..
  refine ⟨rfl, hlen, ⟨Int.natCast_nonneg r, Int.ofNat_lt.2 hr⟩,
    ⟨Int.natCast_nonneg w, Int.ofNat_lt.2 hw⟩, hh, ?_, ?_⟩
  · have hiff := hh.pos_eq_iff (by omega) (by omega)
    rw [List.length_drop, hlen] at hiff
    rw [hcount, Bool.eq_iff_iff, decide_eq_true_eq, hempty, hiff]
    omega
  · rw [hcount]
    exact (decide_eq_false (by omega)).symm

/-- What reading one piece puts into the caller's array. -/
theorem memcpy_piece (buf : List T) (k : ℕ) {pBuf : List T} {r w : ℕ} {count : ℤ}
    (hh : Holds pBuf r w q.items) (hk : k ≤ q.items.length) (hr : r + k ≤ pBuf.length)
    (hbuf : k ≤ buf.length) (hc : count = k) :
    memcpy buf 0 pBuf r count = .ok (blit buf 0 (q.items.take k))
      ∧ Holds pBuf (r + k) w (q.items.drop k) := by
  obtain ⟨htake, hget⟩ := hh.get hk hr
  have hcpy : memcpy buf 0 pBuf r count = .ok (blit buf 0 ((pBuf.drop r).take k)) :=
    memcpy_ok (x := 0) rfl rfl hc (by omega) (by omega)
  rw [htake] at hcpy
  exact ⟨hcpy, hget⟩

/-- What reading elements that go round puts there, in two pieces. -/
theorem memcpy_rounds (buf : List T) (m₂ : ℕ) {pBuf : List T} {r w m₁ : ℕ} {left count : ℤ}
    (hh : Holds pBuf r w q.items) (hlen : pBuf.length = n) (hw : w < n) (hr : r + m₁ = n)
    (hm : m₁ + m₂ ≤ q.items.length) (hbuf : m₁ + m₂ ≤ buf.length) (hl : left = m₁)
    (hc : count = m₂) : ∃ buf', memcpy buf 0 pBuf r left = .ok buf'
      ∧ memcpy buf' left pBuf 0 count = .ok (blit buf 0 (q.items.take (m₁ + m₂)))
      ∧ Holds pBuf m₂ w (q.items.drop (m₁ + m₂)) := by
  obtain ⟨htake, hget⟩ := hh.get_round m₁ m₂ (by omega) (by omega) hm
  have hle := q.le
  have hlen₁ : ((pBuf.drop r).take m₁).length = m₁ :=
    List.length_take_of_le (by rw [List.length_drop]; omega)
  have hlen₂ : (blit buf 0 ((pBuf.drop r).take m₁)).length = buf.length :=
    length_blit (by omega)
  refine ⟨_, memcpy_ok (x := 0) (y := r) (k := m₁) rfl rfl hl (by omega) (by omega), ?_, hget⟩
  have hcpy : memcpy (blit buf 0 ((pBuf.drop r).take m₁)) left pBuf 0 count
      = .ok (blit (blit buf 0 ((pBuf.drop r).take m₁)) m₁ (pBuf.take m₂)) :=
    memcpy_ok (y := 0) hl rfl hc (by omega) (by omega)
  rw [hcpy, ← htake, ← blit_blit, hlen₁]

theorem Refines.readFull (h : Refines b q) (hc : 0 < c) (hq : q.items.length = n)
    (hpos : b.nReadPos = b.nWritePos) (hroom : min c q.items.length ≤ buf.length) :
    ∃ b', PodCircularBuffer.readFull { b with bFull := false } buf c
        = .ok ((min c q.items.length : ℕ), blit buf 0 (q.items.take (min c q.items.length)), b')
      ∧ Refines b' (q.pop (min c q.items.length)) := by
  obtain ⟨r, w, hr, hw, hrn, hwn, hh⟩ := h.positions
  have hsize := h.bufSize
  have hblock := h.block
  have hne : b.bEmpty = false := h.empty.trans (decide_eq_false (by omega))
  obtain rfl : r = w := by omega
  unfold PodCircularBuffer.readFull
  simp only [hr, hw, hsize]
  by_cases hleft : (n : ℤ) - r > c
  · have hk : min c q.items.length = c := by omega
    obtain ⟨hcpy, hget⟩ := memcpy_piece buf c hh (by omega) (by omega) (by omega) rfl
    rw [hk]
    simp only [if_pos hleft, hcpy, bind, Except.bind, pure, Except.pure]
    refine ⟨_, rfl, refines_read hc (by omega) (by omega) hwn rfl hblock hget ?_⟩
    rw [decide_eq_true_eq]
    omega
  · obtain ⟨m₁, m₂, hm₁, hleftm, hm₂, hkc⟩ := round_pieces (P := (r : ℤ) > c - (n - r)) (e := r)
      (R := q.items.length) hrn hleft (by omega) Int.le_of_lt Int.not_lt.1
    obtain ⟨buf', hcpy₁, hcpy₂, hget⟩ := memcpy_rounds buf m₂ hh hblock hwn hm₁
      (by omega) (by omega) hleftm rfl
    rw [← hkc]
    simp only [if_neg hleft, hm₂, hcpy₁, hcpy₂, bind, Except.bind, pure, Except.pure]
    refine ⟨_, ok_read (by omega), refines_read (by omega) (by omega) (by omega) hwn rfl hblock
      hget ?_⟩
    rw [decide_eq_true_eq]
    omega

theorem Refines.readAhead (h : Refines b q) (hc : 0 < c) (hpos : b.nReadPos < b.nWritePos)
    (hroom : min c q.items.length ≤ buf.length) :
    ∃ b', PodCircularBuffer.readAhead { b with bFull := false } buf c
        = .ok ((min c q.items.length : ℕ), blit buf 0 (q.items.take (min c q.items.length)), b')
      ∧ Refines b' (q.pop (min c q.items.length)) := by
  obtain ⟨r, w, hr, hw, hrn, hwn, hh⟩ := h.positions
  have hsize := h.bufSize
  have hblock := h.block
  have hlen := hh.pos
  have hle := q.le
  unfold PodCircularBuffer.readAhead
  simp only [hr, hw, hsize]
  have hk : (if (w : ℤ) - r > c then (c : ℤ) else w - r) = (min c q.items.length : ℕ) := by
    split_ifs <;> omega
  obtain ⟨hcpy, hget⟩ := memcpy_piece buf (min c q.items.length) hh (by omega)
    (by omega) (by omega) rfl
  rw [hk, hcpy]
  simp only [bind, Except.bind]
  rw [assertPos_ok (by dsimp only; omega) (by dsimp only; omega)]
  refine ⟨_, rfl, refines_read (by omega) (by omega) (by omega) hwn rfl hblock hget ?_⟩
  rw [decide_eq_true_eq]
  omega

theorem Refines.readBehind (h : Refines b q) (hc : 0 < c) (hpos : b.nWritePos < b.nReadPos)
    (hroom : min c q.items.length ≤ buf.length) :
    ∃ b', PodCircularBuffer.readBehind { b with bFull := false } buf c
        = .ok ((min c q.items.length : ℕ), blit buf 0 (q.items.take (min c q.items.length)), b')
      ∧ Refines b' (q.pop (min c q.items.length)) := by
  obtain ⟨r, w, hr, hw, hrn, hwn, hh⟩ := h.positions
  have hsize := h.bufSize
  have hblock := h.block
  have hlen := hh.pos
  have hle := q.le
  unfold PodCircularBuffer.readBehind
  simp only [hr, hw, hsize]
  by_cases hleft : (n : ℤ) - r > c
  · have hk : min c q.items.length = c := by omega
    obtain ⟨hcpy, hget⟩ := memcpy_piece buf c hh (by omega) (by omega) (by omega) rfl
    rw [if_pos hleft, hk, hcpy]
    simp only [bind, Except.bind]
    rw [assertPos_ok (by dsimp only; omega) (by dsimp only; omega)]
    refine ⟨_, rfl, refines_read hc (by omega) (by omega) hwn rfl hblock hget ?_⟩
    rw [decide_eq_true_eq]
    omega
  · obtain ⟨m₁, m₂, hm₁, hleftm, hm₂, hkc⟩ := round_pieces (P := (w : ℤ) ≥ c - (n - r)) (e := w)
      (R := q.items.length) hrn hleft (by omega) id fun h => Int.le_of_lt (Int.not_le.1 h)
    obtain ⟨buf', hcpy₁, hcpy₂, hget⟩ := memcpy_rounds buf m₂ hh hblock hwn hm₁
      (by omega) (by omega) hleftm rfl
    rw [if_neg hleft, ← hkc, hcpy₁]
    simp only [hm₂, hcpy₂, bind, Except.bind]
    rw [assertPos_ok (by dsimp only; omega) (by dsimp only; omega)]
    refine ⟨_, ok_read (by omega), refines_read (by omega) (by omega) (by omega) hwn rfl hblock
      hget ?_⟩
    rw [decide_eq_true_eq]
    omega

/-- `read` removes from the queue what there is. -/
theorem Refines.read_pos (h : Refines b q) (hc : 0 < c)
    (hroom : min c q.items.length ≤ buf.length) :
    ∃ b', b.read buf c
        = .ok ((min c q.items.length : ℕ), blit buf 0 (q.items.take (min c q.items.length)), b')
      ∧ Refines b' (q.pop (min c q.items.length)) := by
  have hread := h.read
  have hwrite := h.write
  have hiff := h.holds.pos_eq_iff (by rw [h.block]; omega) (by rw [h.block]; omega)
  rw [h.block] at hiff
  unfold PodCircularBuffer.read
  rw [if_neg (by omega)]
  by_cases hempty : q.items.length = 0
  · rw [if_pos (h.empty.trans (decide_eq_true hempty))]
    have hnil : q.items = [] := List.length_eq_zero_iff.1 hempty
    have hsame : q.pop (min c q.items.length) = q := by
      rw [hempty, Nat.min_zero]
      rfl
    rw [hsame]
    refine ⟨b, ?_, h⟩
    simp [hnil]
  · rw [if_neg (by simpa [h.empty] using hempty)]
    dsimp only
    split_ifs with heq hlt
    · exact h.readFull hc (by omega) heq hroom
    · exact h.readAhead hc hlt hroom
    · exact h.readBehind hc (by omega) hroom

/-! ## Sequences of calls -/

/-- A call whose array suffices does to the buffer what it does to the queue. -/
theorem Refines.call (h : Refines b q) {x : Call T} {cs : List (Call T)}
    (hroom : Roomy q (x :: cs)) : ∃ b', b.call x
        = .ok ((fifoCall q x).1, (fifoCall q x).2.1, b') ∧ Refines b' (fifoCall q x).2.2 := by
  cases x with
  | write buf count =>
    unfold PodCircularBuffer.call fifoCall
    by_cases hcount : count ≤ 0
    · exact ⟨b, by simp [PodCircularBuffer.write, hcount, Except.map], by simpa [hcount] using h⟩
    · lift count to ℕ using (by omega) with c
      obtain ⟨b', hw, hb'⟩ := h.write_pos (c := c) (by omega) hroom.1
      refine ⟨b', ?_, by simpa only [if_neg hcount, Int.toNat_natCast] using hb'⟩
      simp only [hw, if_neg hcount]
      rfl
  | read buf count =>
    unfold PodCircularBuffer.call fifoCall
    by_cases hcount : count ≤ 0
    · exact ⟨b, by simp [PodCircularBuffer.read, hcount], by simpa [hcount] using h⟩
    · lift count to ℕ using (by omega) with c
      obtain ⟨b', hr, hb'⟩ := h.read_pos (c := c) (by omega) hroom.1
      refine ⟨b', ?_, by simpa only [if_neg hcount, Int.toNat_natCast] using hb'⟩
      simp only [hr, if_neg hcount]
      rfl
  | clear => exact ⟨b.clear, rfl, h.clear⟩

theorem Refines.calls : ∀ {cs : List (Call T)} {b : PodCircularBuffer T} {q : Fifo T n},
    Refines b q → Roomy q cs → b.calls cs = .ok (fifoCalls q cs)
  | [], _, _, _, _ => rfl
  | x :: cs, b, q, h, hroom => by
    obtain ⟨b', hcall, hb'⟩ := h.call hroom
    have hrest := hb'.calls hroom.2
    unfold PodCircularBuffer.calls fifoCalls
    simp only [hcall, hrest, hb'.size, PodCircularBuffer.empty, PodCircularBuffer.full, hb'.empty,
      hb'.full, bind, Except.bind, pure, Except.pure]

/-- Whatever is in the block at first, all that can be seen of a new buffer, over any sequence of
calls, is what can be seen of an empty queue of at most as many elements. -/
theorem refines_fifo {contents : List T} (hlen : contents.length = n) (hn : 1 ≤ n)
    {cs : List (Call T)} (hroom : Roomy (Fifo.empty : Fifo T n) cs) :
    (new contents).calls cs = .ok (fifoCalls (Fifo.empty : Fifo T n) cs) :=
  (refines_new hlen hn).calls hroom

/-- Of a buffer of three elements, filled, emptied by one, filled across the end, and read out. -/
theorem refines_fifo_three : (new [0, 0, 0]).calls
    [.write [1, 2, 3, 4] 4, .read [0] 1, .write [5] 7, .read [0, 0, 0, 0] 4, .write [6] (-1)]
      = .ok (fifoCalls (Fifo.empty : Fifo ℕ 3) [.write [1, 2, 3, 4] 4, .read [0] 1,
        .write [5] 7, .read [0, 0, 0, 0] 4, .write [6] (-1)]) :=
  refines_fifo rfl (by decide) ⟨by decide, by decide, by decide, by decide, by decide, trivial⟩

example : fifoCalls (Fifo.empty : Fifo ℕ 3)
    [.write [1, 2, 3, 4] 4, .read [0] 1, .write [5] 7, .read [0, 0, 0, 0] 4]
      = [⟨3, [1, 2, 3, 4], 3, false, true⟩, ⟨1, [1], 2, false, false⟩, ⟨1, [5], 3, false, true⟩,
        ⟨3, [2, 3, 5, 0], 0, true, false⟩] := rfl

end PodCircularBuffer

end TestLibuv
