import Mathlib.Data.List.Nodup
import Mathlib.Data.List.Perm.Basic
import Mathlib.Logic.Function.Basic
import Mathlib.Logic.Relation

/-!
# A pool of objects that are lent out

The objects that exist wait on a free list or are lent to holders. `Pool` says that each is in one
such place and there once; the operations of a pool, one by one, keep that. `FreeStep` lists what
they do to the free list, which bounds how long it gets.
-/

/-- Every object that exists is on the free list or lent to one holder, and there once. -/
structure Pool {ι κ : Type*} (live : ι → Prop) (free : List ι) (lent : κ → List ι) : Prop where
  free_nodup : free.Nodup
  lent_nodup : ∀ c, (lent c).Nodup
  apart : ∀ {c d w}, w ∈ lent c → w ∈ lent d → c = d
  notFree : ∀ {c w}, w ∈ lent c → w ∉ free
  live_iff : ∀ w, live w ↔ w ∈ free ∨ ∃ c, w ∈ lent c

namespace Pool

variable {ι κ : Type*} {live live' : ι → Prop} {free free' : List ι} {lent : κ → List ι}
  {c : κ} {v w : ι} {i : ℕ}

theorem empty : Pool (fun _ : ι => False) [] fun _ : κ => [] where
  free_nodup := List.nodup_nil
  lent_nodup _ := List.nodup_nil
  apart h := absurd h List.not_mem_nil
  notFree h := absurd h List.not_mem_nil
  live_iff := by simp

theorem congr_live (h : Pool live free lent) (hl : ∀ w, live' w ↔ live w) :
    Pool live' free lent where
  free_nodup := h.free_nodup
  lent_nodup := h.lent_nodup
  apart := h.apart
  notFree := h.notFree
  live_iff w := (hl w).trans (h.live_iff w)

theorem perm (h : Pool live free lent) (hp : free.Perm free') : Pool live free' lent where
  free_nodup := hp.nodup_iff.1 h.free_nodup
  lent_nodup := h.lent_nodup
  apart := h.apart
  notFree hw hf := h.notFree hw (hp.mem_iff.2 hf)
  live_iff w := by rw [h.live_iff, hp.mem_iff]

/-- An object is made. -/
theorem alloc (h : Pool live free lent) (hw : ¬ live w) :
    Pool (fun v => v = w ∨ live v) (w :: free) lent where
  free_nodup := List.nodup_cons.2 ⟨fun hf => hw ((h.live_iff w).2 (.inl hf)), h.free_nodup⟩
  lent_nodup := h.lent_nodup
  apart := h.apart
  notFree {c v} hv hf := by
    rcases List.mem_cons.1 hf with rfl | hf
    · exact hw ((h.live_iff v).2 (.inr ⟨c, hv⟩))
    · exact h.notFree hv hf
  live_iff v := by rw [h.live_iff, List.mem_cons, or_assoc]

variable [DecidableEq κ]

/-- The first object of the free list is lent. -/
theorem lend (h : Pool live (w :: free) lent) (c : κ) :
    Pool live free (Function.update lent c (lent c ++ [w])) := by
  have hnd := List.nodup_cons.1 h.free_nodup
  have hw : ∀ d, w ∉ lent d := fun d hd => h.notFree hd (List.mem_cons_self ..)
  have hmem : ∀ {d v}, v ∈ Function.update lent c (lent c ++ [w]) d ↔
      v ∈ lent d ∨ d = c ∧ v = w := by
    intro d v
    by_cases hd : d = c
    · subst hd
      simp
    · simp [hd]
  refine ⟨hnd.2, fun d => ?_, fun {d e v} hd he => ?_, fun {d v} hd hf => ?_, fun v => ?_⟩
  · by_cases hd : d = c
    · subst hd
      rw [Function.update_self]
      exact (h.lent_nodup d).append (List.nodup_singleton w) (by simpa using hw d)
    · rw [Function.update_of_ne hd]
      exact h.lent_nodup d
  · rcases hmem.1 hd with hd | ⟨hdc, hvd⟩ <;> rcases hmem.1 he with he | ⟨hec, hve⟩
    · exact h.apart hd he
    · exact absurd (hve ▸ hd) (hw d)
    · exact absurd (hvd ▸ he) (hw e)
    · exact hdc.trans hec.symm
  · rcases hmem.1 hd with hd | ⟨rfl, rfl⟩
    · exact h.notFree hd (List.mem_cons_of_mem _ hf)
    · exact hnd.1 hf
  · rw [h.live_iff, List.mem_cons]
    constructor
    · rintro ((rfl | hf) | ⟨d, hd⟩)
      · exact .inr ⟨c, hmem.2 (.inr ⟨rfl, rfl⟩)⟩
      · exact .inl hf
      · exact .inr ⟨d, hmem.2 (.inl hd)⟩
    · rintro (hf | ⟨d, hd⟩)
      · exact .inl (.inr hf)
      · rcases hmem.1 hd with hd | ⟨rfl, rfl⟩
        · exact .inr ⟨d, hd⟩
        · exact .inl (.inl rfl)

theorem mem_eraseIdx {l : List ι} (hl : l.Nodup) (hw : l[i]? = some w) :
    v ∈ l.eraseIdx i ↔ v ≠ w ∧ v ∈ l := by
  have hi := (List.getElem?_eq_some_iff.1 hw).1
  rw [List.mem_eraseIdx_iff_getElem?]
  constructor
  · rintro ⟨j, hji, hj⟩
    refine ⟨?_, List.mem_of_getElem? hj⟩
    rintro rfl
    exact hji ((List.getElem?_inj hi hl).1 (hw.trans hj.symm)).symm
  · rintro ⟨hne, hv⟩
    obtain ⟨j, hj⟩ := List.mem_iff_getElem?.1 hv
    refine ⟨j, ?_, hj⟩
    rintro rfl
    exact hne (Option.some.inj (hj.symm.trans hw))

/-- An object comes back and is kept out of the pool. -/
theorem drop (h : Pool live free lent) (hw : (lent c)[i]? = some w) :
    Pool (fun v => v ≠ w ∧ live v) free (Function.update lent c ((lent c).eraseIdx i)) := by
  have hin : w ∈ lent c := List.mem_of_getElem? hw
  have hmem : ∀ {d v}, v ∈ Function.update lent c ((lent c).eraseIdx i) d ↔ v ≠ w ∧ v ∈ lent d := by
    intro d v
    by_cases hd : d = c
    · subst hd
      rw [Function.update_self, mem_eraseIdx (h.lent_nodup d) hw]
    · rw [Function.update_of_ne hd, iff_and_self]
      rintro hv rfl
      exact hd (h.apart hv hin)
  refine ⟨h.free_nodup, fun d => ?_, fun hd he => h.apart (hmem.1 hd).2 (hmem.1 he).2,
    fun hd => h.notFree (hmem.1 hd).2, fun v => ?_⟩
  · by_cases hd : d = c
    · subst hd
      rw [Function.update_self]
      exact (h.lent_nodup d).sublist (List.eraseIdx_sublist ..)
    · rw [Function.update_of_ne hd]
      exact h.lent_nodup d
  · rw [h.live_iff]
    constructor
    · rintro ⟨hne, hf | ⟨d, hd⟩⟩
      · exact .inl hf
      · exact .inr ⟨d, hmem.2 ⟨hne, hd⟩⟩
    · rintro (hf | ⟨d, hd⟩)
      · exact ⟨fun hv => h.notFree hin (hv ▸ hf), .inl hf⟩
      · exact ⟨(hmem.1 hd).1, .inr ⟨d, (hmem.1 hd).2⟩⟩

/-- An object comes back to the end of the free list. -/
theorem giveBack (h : Pool live free lent) (hw : (lent c)[i]? = some w) :
    Pool live (free ++ [w]) (Function.update lent c ((lent c).eraseIdx i)) := by
  have hlive : live w := (h.live_iff w).2 (.inr ⟨c, List.mem_of_getElem? hw⟩)
  have hback := ((h.drop hw).alloc (w := w) (by simp)).perm (List.perm_append_singleton w free).symm
  refine hback.congr_live fun v => ?_
  by_cases hv : v = w
  · simp [hv, hlive]
  · simp [hv]

end Pool

/-! ## The length of the free list -/

/-- What an operation does to a free list: one object is taken, or made where there is none, and may
come back at once; or one comes back to a list of fewer than `n`. -/
inductive FreeStep {ι : Type*} (n : ℕ) (free : List ι) : List ι → Prop
  | keep : FreeStep n free free
  | take : FreeStep n free free.tail
  | takeBack (w : ι) : FreeStep n free (free.tail ++ [w])
  | giveBack (w : ι) : free.length < n → FreeStep n free (free ++ [w])

/-- Such operations one after the other. -/
abbrev FreeSteps {ι : Type*} (n : ℕ) : List ι → List ι → Prop :=
  Relation.ReflTransGen (FreeStep n)

variable {ι : Type*} {n : ℕ} {free free' : List ι}

theorem FreeStep.length_le (h : FreeStep n free free') (hn : 0 < n) (hle : free.length ≤ n) :
    free'.length ≤ n := by
  cases h with
  | keep => exact hle
  | take => simp only [List.length_tail]; omega
  | takeBack w => simp only [List.length_append, List.length_tail, List.length_singleton]; omega
  | giveBack w hlt => simp only [List.length_append, List.length_singleton]; omega

theorem FreeSteps.length_le (h : FreeSteps n free free') (hn : 0 < n) (hle : free.length ≤ n) :
    free'.length ≤ n := by
  induction h with
  | refl => exact hle
  | tail _ hs ih => exact hs.length_le hn ih
