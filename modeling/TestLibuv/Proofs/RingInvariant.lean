import TestLibuv.Lib.CMem
import TestLibuv.Lib.Runs
import TestLibuv.Proofs.RingFifo

/-!
# The representation of the ring buffer

What the queue in the ring says about the positions and the flags, whatever the elements are. How
`write` and `read` branch does not depend on the caller's array, and each copy lies within the
elements that are counted, so a call does the same with an array that has no others.
-/

namespace TestLibuv

open CMem Ring Runs

namespace PodCircularBuffer

variable {T : Type} {n : ℕ} {b b' : PodCircularBuffer T} {buf buf' : List T} {count k : ℤ}

/-- The representation of a buffer of `n` elements. -/
structure Rep (n : ℕ) (b : PodCircularBuffer T) : Prop where
  bufSize : b.nBufSize = n
  block : b.pBuf.length = n
  read : 0 ≤ b.nReadPos ∧ b.nReadPos < n
  write : 0 ≤ b.nWritePos ∧ b.nWritePos < n
  flags : ¬ (b.bEmpty = true ∧ b.bFull = true)
  positions : b.nReadPos = b.nWritePos ↔ b.bEmpty = true ∨ b.bFull = true

theorem Refines.rep {q : Fifo T n} (h : Refines b q) : Rep n b := by
  have hread := h.read
  have hwrite := h.write
  have hblock := h.block
  have hiff := h.holds.pos_eq_iff (by omega) (by omega)
  refine ⟨h.bufSize, hblock, hread, hwrite, ?_, ?_⟩
  · rw [h.empty, h.full, decide_eq_true_eq, decide_eq_true_eq]
    omega
  · rw [h.empty, h.full, decide_eq_true_eq, decide_eq_true_eq]
    omega

/-! ## The copies -/

theorem memcpy_eq_ok {dst src r : List T} {i j : ℤ} (h : memcpy dst i src j count = .ok r) :
    (0 ≤ i ∧ 0 ≤ j ∧ 0 ≤ count ∧ i + count ≤ dst.length ∧ j + count ≤ src.length)
      ∧ r = blit dst i.toNat ((src.drop j.toNat).take count.toNat) := by
  unfold memcpy at h
  split_ifs at h with hb
  exact ⟨hb, (Except.ok.inj h).symm⟩

theorem length_memcpy {dst src r : List T} {i j : ℤ} (h : memcpy dst i src j count = .ok r) :
    r.length = dst.length := by
  obtain ⟨⟨hi, hj, hc, hdst, hsrc⟩, rfl⟩ := memcpy_eq_ok h
  refine length_blit ?_
  rw [List.length_take, List.length_drop]
  omega

/-- A copy from the first `k` elements needs no others. -/
theorem memcpy_take_src {dst src r : List T} {i j : ℤ} (h : memcpy dst i src j count = .ok r)
    (hk : j + count ≤ k) : memcpy dst i (src.take k.toNat) j count = .ok r := by
  obtain ⟨⟨hi, hj, hc, hdst, hsrc⟩, rfl⟩ := memcpy_eq_ok h
  have hlen : j + count ≤ (src.take k.toNat).length := by
    rw [List.length_take]
    omega
  unfold memcpy
  rw [if_pos ⟨hi, hj, hc, hdst, hlen⟩, List.drop_take, List.take_take, min_eq_left (by omega)]

/-- A piece put into the first `m` elements leaves the others. -/
theorem blit_take_drop (dst x : List T) {off m : ℕ} (hx : off + x.length ≤ m)
    (hm : m ≤ dst.length) : blit (dst.take m) off x = (blit dst off x).take m
      ∧ (blit dst off x).drop m = dst.drop m := by
  obtain ⟨e, rfl⟩ := Nat.exists_eq_add_of_le hx
  have hlen : (dst.take off ++ x).length = off + x.length := by
    rw [List.length_append, List.length_take_of_le (by omega)]
  have happ : blit dst off x = dst.take off ++ x ++ dst.drop (off + x.length) :=
    (List.append_assoc ..).symm
  constructor
  · rw [happ, ← hlen, List.take_length_add_append, hlen, blit, List.take_take,
      min_eq_left (by omega), List.drop_take, List.append_assoc, Nat.add_sub_cancel_left]
  · rw [happ, ← hlen, List.drop_length_add_append, hlen, List.drop_drop]

/-- A copy to the first `k` elements needs no others, and leaves them. -/
theorem memcpy_take_dst {dst src r : List T} {i j : ℤ} (h : memcpy dst i src j count = .ok r)
    (hk : i + count ≤ k) (hdst : k ≤ dst.length) :
    memcpy (dst.take k.toNat) i src j count = .ok (r.take k.toNat)
      ∧ r.drop k.toNat = dst.drop k.toNat := by
  obtain ⟨⟨hi, hj, hc, hroom, hsrc⟩, rfl⟩ := memcpy_eq_ok h
  have hlen : ((src.drop j.toNat).take count.toNat).length = count.toNat :=
    List.length_take_of_le (by rw [List.length_drop]; omega)
  have hcut : i + count ≤ (dst.take k.toNat).length := by
    rw [List.length_take]
    omega
  have hx : i.toNat + ((src.drop j.toNat).take count.toNat).length ≤ k.toNat := by omega
  obtain ⟨htake, hdrop⟩ := blit_take_drop dst _ hx (by omega)
  refine ⟨?_, hdrop⟩
  unfold memcpy
  rw [if_pos ⟨hi, hj, hc, hcut, hsrc⟩, htake]

/-! ## The caller's array -/

theorem writeEmpty_take (h : b.writeEmpty buf count = .ok (k, b')) :
    b.writeEmpty (buf.take k.toNat) count = .ok (k, b') := by
  unfold writeEmpty at h ⊢
  by_cases hleft : b.nBufSize - b.nWritePos > count
  · rw [if_pos hleft] at h ⊢
    obtain ⟨p, hp, h⟩ := bind_eq_ok h
    obtain ⟨rfl, -⟩ := Prod.mk.inj (Except.ok.inj h)
    rw [memcpy_take_src hp (by omega)]
    exact h
  · rw [if_neg hleft] at h ⊢
    obtain ⟨p, hp, h⟩ := bind_eq_ok h
    obtain ⟨p', hp', h'⟩ := bind_eq_ok h
    obtain ⟨rfl, -⟩ := Prod.mk.inj (Except.ok.inj h')
    obtain ⟨⟨-, -, hpos, -⟩, -⟩ := memcpy_eq_ok hp'
    rw [memcpy_take_src hp (by omega)]
    dsimp only [bind, Except.bind]
    rw [memcpy_take_src hp' (by omega)]
    exact h'

theorem writeAhead_take (h : b.writeAhead buf count = .ok (k, b')) :
    b.writeAhead (buf.take k.toNat) count = .ok (k, b') := by
  unfold writeAhead at h ⊢
  by_cases hleft : b.nBufSize - b.nWritePos > count
  · rw [if_pos hleft] at h ⊢
    obtain ⟨p, hp, h⟩ := bind_eq_ok h
    obtain ⟨_, -, hret⟩ := bind_eq_ok h
    obtain ⟨rfl, -⟩ := Prod.mk.inj (Except.ok.inj hret)
    rw [memcpy_take_src hp (by omega)]
    exact h
  · rw [if_neg hleft] at h ⊢
    obtain ⟨p, hp, h⟩ := bind_eq_ok h
    obtain ⟨p', hp', h'⟩ := bind_eq_ok h
    obtain ⟨_, -, hret⟩ := bind_eq_ok h'
    obtain ⟨rfl, -⟩ := Prod.mk.inj (Except.ok.inj hret)
    obtain ⟨⟨-, -, hpos, -⟩, -⟩ := memcpy_eq_ok hp'
    rw [memcpy_take_src hp (by omega)]
    dsimp only [bind, Except.bind]
    rw [memcpy_take_src hp' (by omega)]
    exact h'

theorem writeBehind_take (h : b.writeBehind buf count = .ok (k, b')) :
    b.writeBehind (buf.take k.toNat) count = .ok (k, b') := by
  unfold writeBehind at h ⊢
  by_cases hleft : b.nReadPos - b.nWritePos > count
  · rw [if_pos hleft] at h ⊢
    obtain ⟨p, hp, h⟩ := bind_eq_ok h
    obtain ⟨_, -, hret⟩ := bind_eq_ok h
    obtain ⟨rfl, -⟩ := Prod.mk.inj (Except.ok.inj hret)
    rw [memcpy_take_src hp (by omega)]
    exact h
  · rw [if_neg hleft] at h ⊢
    obtain ⟨p, hp, h⟩ := bind_eq_ok h
    obtain ⟨_, -, h'⟩ := bind_eq_ok h
    obtain ⟨_, -, hret⟩ := bind_eq_ok h'
    obtain ⟨rfl, -⟩ := Prod.mk.inj (Except.ok.inj hret)
    rw [memcpy_take_src hp (by omega)]
    exact h

/-- `write` reads the elements it says it wrote, and no others. -/
theorem write_take (h : b.write buf count = .ok (k, b')) :
    b.write (buf.take k.toNat) count = .ok (k, b') := by
  unfold write at h ⊢
  dsimp only at h ⊢
  split_ifs at h ⊢
  · exact h
  · exact h
  · exact writeEmpty_take h
  · exact writeAhead_take h
  · exact writeBehind_take h

/-- Two pieces put into the caller's array, one behind the other. -/
theorem memcpy_pieces {dst p r pBuf : List T} {pos left m : ℤ}
    (hp : memcpy dst 0 pBuf pos left = .ok p) (hp' : memcpy p left pBuf 0 m = .ok r) :
    memcpy (dst.take (left + m).toNat) 0 pBuf pos left = .ok (p.take (left + m).toNat)
      ∧ memcpy (p.take (left + m).toNat) left pBuf 0 m = .ok (r.take (left + m).toNat)
      ∧ r.drop (left + m).toNat = dst.drop (left + m).toNat := by
  have hlen := length_memcpy hp
  obtain ⟨⟨-, -, hm, hroom, -⟩, -⟩ := memcpy_eq_ok hp'
  obtain ⟨hcut, hdrop⟩ := memcpy_take_dst (k := left + m) hp (by omega) (by omega)
  obtain ⟨hcut', hdrop'⟩ := memcpy_take_dst hp' le_rfl hroom
  exact ⟨hcut, hcut', hdrop'.trans hdrop⟩

/-- One piece put into the caller's array. -/
theorem memcpy_piece_take {dst r pBuf : List T} {pos c : ℤ}
    (hp : memcpy dst 0 pBuf pos c = .ok r) :
    memcpy (dst.take c.toNat) 0 pBuf pos c = .ok (r.take c.toNat)
      ∧ r.drop c.toNat = dst.drop c.toNat := by
  obtain ⟨⟨-, -, -, hroom, -⟩, -⟩ := memcpy_eq_ok hp
  exact memcpy_take_dst hp (by omega) (by omega)

theorem readFull_take (h : b.readFull buf count = .ok (k, buf', b')) :
    b.readFull (buf.take k.toNat) count = .ok (k, buf'.take k.toNat, b')
      ∧ buf'.drop k.toNat = buf.drop k.toNat := by
  unfold readFull at h ⊢
  by_cases hleft : b.nBufSize - b.nReadPos > count
  · rw [if_pos hleft] at h ⊢
    obtain ⟨p, hp, h⟩ := bind_eq_ok h
    obtain ⟨rfl, hrest⟩ := Prod.mk.inj (Except.ok.inj h)
    obtain ⟨rfl, rfl⟩ := Prod.mk.inj hrest
    obtain ⟨hcut, hdrop⟩ := memcpy_piece_take hp
    rw [hcut]
    exact ⟨rfl, hdrop⟩
  · rw [if_neg hleft] at h ⊢
    obtain ⟨p, hp, h⟩ := bind_eq_ok h
    obtain ⟨p', hp', h⟩ := bind_eq_ok h
    obtain ⟨rfl, hrest⟩ := Prod.mk.inj (Except.ok.inj h)
    obtain ⟨rfl, rfl⟩ := Prod.mk.inj hrest
    obtain ⟨hcut, hcut', hdrop⟩ := memcpy_pieces hp hp'
    rw [hcut]
    dsimp only [bind, Except.bind]
    rw [hcut']
    exact ⟨rfl, hdrop⟩

theorem readAhead_take (h : b.readAhead buf count = .ok (k, buf', b')) :
    b.readAhead (buf.take k.toNat) count = .ok (k, buf'.take k.toNat, b')
      ∧ buf'.drop k.toNat = buf.drop k.toNat := by
  unfold readAhead at h ⊢
  obtain ⟨p, hp, h⟩ := bind_eq_ok h
  obtain ⟨u, hassert, hret⟩ := bind_eq_ok h
  obtain ⟨rfl, hrest⟩ := Prod.mk.inj (Except.ok.inj hret)
  obtain ⟨rfl, rfl⟩ := Prod.mk.inj hrest
  obtain ⟨hcut, hdrop⟩ := memcpy_piece_take hp
  dsimp only
  rw [hcut]
  dsimp only [bind, Except.bind]
  rw [hassert]
  exact ⟨rfl, hdrop⟩

theorem readBehind_take (h : b.readBehind buf count = .ok (k, buf', b')) :
    b.readBehind (buf.take k.toNat) count = .ok (k, buf'.take k.toNat, b')
      ∧ buf'.drop k.toNat = buf.drop k.toNat := by
  unfold readBehind at h ⊢
  by_cases hleft : b.nBufSize - b.nReadPos > count
  · rw [if_pos hleft] at h ⊢
    obtain ⟨p, hp, h⟩ := bind_eq_ok h
    obtain ⟨u, hassert, hret⟩ := bind_eq_ok h
    obtain ⟨rfl, hrest⟩ := Prod.mk.inj (Except.ok.inj hret)
    obtain ⟨rfl, rfl⟩ := Prod.mk.inj hrest
    obtain ⟨hcut, hdrop⟩ := memcpy_piece_take hp
    rw [hcut]
    dsimp only [bind, Except.bind]
    rw [hassert]
    exact ⟨rfl, hdrop⟩
  · rw [if_neg hleft] at h ⊢
    obtain ⟨p, hp, h⟩ := bind_eq_ok h
    obtain ⟨p', hp', h⟩ := bind_eq_ok h
    obtain ⟨u, hassert, hret⟩ := bind_eq_ok h
    obtain ⟨rfl, hrest⟩ := Prod.mk.inj (Except.ok.inj hret)
    obtain ⟨rfl, rfl⟩ := Prod.mk.inj hrest
    obtain ⟨hcut, hcut', hdrop⟩ := memcpy_pieces hp hp'
    rw [hcut]
    dsimp only [bind, Except.bind]
    rw [hcut']
    dsimp only
    rw [hassert]
    exact ⟨rfl, hdrop⟩

/-- `read` writes the elements it says it read, and leaves the others of the array. -/
theorem read_take (h : b.read buf count = .ok (k, buf', b')) :
    b.read (buf.take k.toNat) count = .ok (k, buf'.take k.toNat, b')
      ∧ buf'.drop k.toNat = buf.drop k.toNat := by
  unfold PodCircularBuffer.read at h ⊢
  dsimp only at h ⊢
  split_ifs at h ⊢
  · obtain ⟨rfl, hrest⟩ := Prod.mk.inj (Except.ok.inj h)
    obtain ⟨rfl, rfl⟩ := Prod.mk.inj hrest
    exact ⟨rfl, rfl⟩
  · obtain ⟨rfl, hrest⟩ := Prod.mk.inj (Except.ok.inj h)
    obtain ⟨rfl, rfl⟩ := Prod.mk.inj hrest
    exact ⟨rfl, rfl⟩
  · exact readFull_take h
  · exact readAhead_take h
  · exact readBehind_take h

/-! ## Sequences of calls -/

/-- A call, if no copy leaves an array and no `assert` fails. -/
def step (b : PodCircularBuffer T) (x : Call T) : Option (PodCircularBuffer T) :=
  match b.call x with
  | .ok (_, _, b') => some b'
  | .error _ => none

/-- The caller's array has the elements there is room for, or room for those there are. -/
def Suffices (b : PodCircularBuffer T) : Call T → Prop
  | .write buf count => min count (b.nBufSize - b.size) ≤ buf.length
  | .read buf count => min count b.size ≤ buf.length
  | .clear => True

instance (b : PodCircularBuffer T) : DecidablePred (Suffices b)
  | .write buf count => inferInstanceAs (Decidable (min count (b.nBufSize - b.size) ≤ buf.length))
  | .read buf count => inferInstanceAs (Decidable (min count b.size ≤ buf.length))
  | .clear => inferInstanceAs (Decidable True)

/-- The caller's array. -/
def Call.array : Call T → List T
  | .write buf _ | .read buf _ => buf
  | .clear => []

/-- The call with only the first `m` elements of the caller's array. -/
def Call.cut (m : ℕ) : Call T → Call T
  | .write buf count => .write (buf.take m) count
  | .read buf count => .read (buf.take m) count
  | .clear => .clear

/-- A call that returned `r` touched no elements of the caller's array but as many as it returned
from the first on: without the others it does the same, and they are as they were. -/
structure Confined (b : PodCircularBuffer T) (x : Call T) (r : ℤ × List T × PodCircularBuffer T) :
    Prop where
  nonneg : 0 ≤ r.1
  first : b.call (x.cut r.1.toNat) = .ok (r.1, r.2.1.take r.1.toNat, r.2.2)
  rest : r.2.1.drop r.1.toNat = x.array.drop r.1.toNat

theorem confined {x : Call T} {r : ℤ × List T × PodCircularBuffer T} (h : b.call x = .ok r)
    (hk : 0 ≤ r.1) : Confined b x r := by
  obtain ⟨k, out, b'⟩ := r
  cases x with
  | write buf count =>
    unfold call at h
    cases hw : b.write buf count with
    | error f => simp [hw, Except.map] at h
    | ok r =>
      simp only [hw, Except.map, Except.ok.injEq, Prod.mk.injEq] at h
      obtain ⟨rfl, rfl, rfl⟩ := h
      refine ⟨hk, ?_, rfl⟩
      simp only [Call.cut, call, write_take hw, Except.map]
  | read buf count =>
    obtain ⟨hfirst, hrest⟩ := read_take h
    exact ⟨hk, hfirst, hrest⟩
  | clear =>
    obtain ⟨rfl, hrest⟩ := Prod.mk.inj (Except.ok.inj h)
    obtain ⟨rfl, rfl⟩ := Prod.mk.inj hrest
    exact ⟨hk, rfl, rfl⟩

theorem Refines.roomy {q : Fifo T n} (h : Refines b q) {x : Call T} (hx : Suffices b x) :
    Roomy q [x] := by
  have hsize := h.size
  have hbuf := h.bufSize
  have hle := q.le
  cases x with
  | write buf count =>
    refine ⟨?_, trivial⟩
    have hx : min count (b.nBufSize - b.size) ≤ buf.length := hx
    show min count.toNat (n - q.items.length) ≤ buf.length
    omega
  | read buf count =>
    refine ⟨?_, trivial⟩
    have hx : min count b.size ≤ buf.length := hx
    show min count.toNat q.items.length ≤ buf.length
    omega
  | clear => exact ⟨trivial, trivial⟩

theorem fifoCall_nonneg (q : Fifo T n) (x : Call T) : 0 ≤ (fifoCall q x).1 := by
  cases x with
  | write buf count =>
    unfold fifoCall
    dsimp only
    split_ifs <;> simp
  | read buf count =>
    unfold fifoCall
    dsimp only
    split_ifs <;> simp
  | clear => exact le_rfl

/-- A call whose array suffices is made without a fault, and leaves what refines a queue. -/
theorem Refines.call_ok {q : Fifo T n} (h : Refines b q) {x : Call T} (hx : Suffices b x) :
    ∃ r, b.call x = .ok r ∧ Refines r.2.2 (fifoCall q x).2.2 ∧ Confined b x r := by
  obtain ⟨b', hcall, hb'⟩ := h.call (h.roomy hx)
  exact ⟨_, hcall, hb', confined hcall (fifoCall_nonneg q x)⟩

theorem Refines.run : ∀ {cs : List (Call T)} {b : PodCircularBuffer T} {q : Fifo T n},
    Refines b q → Meets step Suffices b cs →
      ∃ b' q', run step b cs = some b' ∧ Refines (n := n) b' q'
  | [], b, q, h, _ => ⟨b, q, rfl, h⟩
  | x :: cs, b, q, h, hcs => by
    obtain ⟨r, hcall, hr, -⟩ := h.call_ok hcs.1
    have hstep : step b x = some r.2.2 := by
      unfold step
      rw [hcall]
    obtain ⟨b', q', hrun, hb'⟩ := hr.run (hcs.2 _ hstep)
    exact ⟨b', q', run_cons_eq_some.2 ⟨_, hstep, hrun⟩, hb'⟩

/-- After any sequence of calls with any counts, the representation is kept, and whatever is called
next, no copy leaves an array, no `assert` fails, and of the caller's array only as many elements
as are returned are touched. -/
theorem rep_kept {contents : List T} (hlen : contents.length = n) (hn : 1 ≤ n)
    {cs : List (Call T)} (hcs : Meets step Suffices (new contents) cs) :
    ∃ b, run step (new contents) cs = some b ∧ Rep n b ∧
      ∀ x, Suffices b x → ∃ r, b.call x = .ok r ∧ Rep n r.2.2 ∧ Confined b x r := by
  obtain ⟨b, q, hrun, hb⟩ := (refines_new hlen hn).run hcs
  refine ⟨b, hrun, hb.rep, fun x hx => ?_⟩
  obtain ⟨r, hcall, hr, hconf⟩ := hb.call_ok hx
  exact ⟨r, hcall, hr.rep, hconf⟩

/-- Of a buffer of three elements, filled, emptied by one, and filled across the end by a call whose
array holds the one element there is room for. -/
theorem rep_kept_three : ∃ b, run step (new [0, 0, 0])
    [.write [1, 2, 3, 4] 4, .read [0] 1, .write [5] 7] = some b ∧ Rep 3 b ∧
      ∀ x, Suffices b x → ∃ r, b.call x = .ok r ∧ Rep 3 r.2.2 ∧ Confined b x r :=
  rep_kept (T := ℕ) rfl (by decide) (by decide)

end PodCircularBuffer

end TestLibuv
