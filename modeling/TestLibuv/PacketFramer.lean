import TestLibuv.Packet

/-!
# What `OnRecvData` is for

The format as a framer: wait until more than a header is buffered, reject what does not begin
with the head flag, and otherwise cut off `dataSize + 12` bytes, computed modulo `2^32`, once they
are there.
-/

namespace TestLibuv

open CMem Framing

/-- The length of the packet the buffer begins with, as the code computes it. -/
def packSize (b : List UInt8) : Option ℕ :=
  (u32Of (b.drop 8)).map fun d => (d + netPackageHeadlen).toNat

/-- The verdict on a buffer under head flag `head`. -/
def headVerdict (head : UInt32) (b : List UInt8) : Verdict :=
  if b.length ≤ 12 then .wait
  else if u32Of b ≠ some head then .reject
  else
    match packSize b with
    | some k => if k ≤ b.length then .frame k else .wait
    | none => .wait

variable {head : UInt32} {b : List UInt8}

theorem packSize_isSome (h : 12 < b.length) : ∃ k, packSize b = some k := by
  obtain ⟨d, hd⟩ := u32Of_isSome (b := b.drop 8) (by rw [List.length_drop]; omega)
  exact ⟨_, by rw [packSize, hd]; rfl⟩

theorem packSize_append {k : ℕ} (h : packSize b = some k) (hb : 12 < b.length) (c : List UInt8) :
    packSize (b ++ c) = some k := by
  obtain ⟨d, hd, rfl⟩ := Option.map_eq_some_iff.1 h
  rw [packSize, List.drop_append_of_le_length (by omega), u32Of_append hd]
  rfl

theorem headVerdict_short (h : b.length ≤ 12) : headVerdict head b = .wait := if_pos h

theorem headVerdict_bad (h : 12 < b.length) (hf : u32Of b ≠ some head) :
    headVerdict head b = .reject := by
  rw [headVerdict, if_neg (by omega), if_pos hf]

theorem headVerdict_good {k : ℕ} (h : 12 < b.length) (hf : u32Of b = some head)
    (hk : packSize b = some k) :
    headVerdict head b = if k ≤ b.length then .frame k else .wait := by
  rw [headVerdict, if_neg (by omega), if_neg (not_not.2 hf), hk]

theorem headVerdict_frame_iff {n : ℕ} : headVerdict head b = .frame n ↔
    12 < b.length ∧ u32Of b = some head ∧ packSize b = some n ∧ n ≤ b.length := by
  constructor
  · intro h
    have hb : 12 < b.length := by
      by_contra hb
      simp [headVerdict_short (not_lt.1 hb)] at h
    have hf : u32Of b = some head := by
      by_contra hf
      simp [headVerdict_bad hb hf] at h
    obtain ⟨k, hk⟩ := packSize_isSome hb
    rw [headVerdict_good hb hf hk] at h
    split_ifs at h with hle
    obtain rfl := Verdict.frame.inj h
    exact ⟨hb, hf, hk, hle⟩
  · rintro ⟨hb, hf, hk, hle⟩
    rw [headVerdict_good hb hf hk, if_pos hle]

theorem headVerdict_reject_iff : headVerdict head b = .reject ↔
    12 < b.length ∧ u32Of b ≠ some head := by
  constructor
  · intro h
    have hb : 12 < b.length := by
      by_contra hb
      simp [headVerdict_short (not_lt.1 hb)] at h
    refine ⟨hb, fun hf => ?_⟩
    obtain ⟨k, hk⟩ := packSize_isSome hb
    rw [headVerdict_good hb hf hk] at h
    split_ifs at h
  · rintro ⟨hb, hf⟩
    exact headVerdict_bad hb hf

/-- The packet format as a framer. -/
def headFramer (head : UInt32) : Framer UInt8 where
  verdict := headVerdict head
  nil_wait := rfl
  frame_le h := (headVerdict_frame_iff.1 h).2.2.2
  frame_append h c := by
    obtain ⟨hb, hf, hk, hle⟩ := headVerdict_frame_iff.1 h
    refine headVerdict_frame_iff.2 ⟨?_, u32Of_append hf c, packSize_append hk hb c, ?_⟩ <;>
      rw [List.length_append] <;> omega
  reject_append h c := by
    obtain ⟨hb, hf⟩ := headVerdict_reject_iff.1 h
    refine headVerdict_reject_iff.2 ⟨by rw [List.length_append]; omega, fun h' => hf ?_⟩
    obtain ⟨f, hf'⟩ := u32Of_isSome (show 4 ≤ _ from le_trans (by decide) hb.le)
    rw [u32Of_append hf' c] at h'
    rw [hf', h']

end TestLibuv
