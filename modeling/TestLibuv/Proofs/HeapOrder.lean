import Mathlib.Data.Finset.Card
import Mathlib.Order.Interval.Finset.Nat
import TestLibuv.Lib.MinHeap
import TestLibuv.Proofs.HeapLinks

/-!
# The heap holds a set, in order

`less_than` compares a key of the nodes. A heap `IsHeap` for a set of nodes when they are linked as
a complete binary tree with no key below that of its parent. Insertion and removal keep that: the
walk up moves the one node that may be out of place towards the root, and the walk down away from
it, each along one path, so within the bits of an `unsigned int`.
-/

namespace TestLibuv

open While

namespace UvHeap

/-- The nodes of `S` are linked as a complete binary tree, `f i` at position `i`. -/
structure Tree (S : Finset ℕ) (n : ℕ) (f : ℕ → ℕ) (h : UvHeap) : Prop extends Linked n f h where
  nelts : h.nelts = n
  mem : ∀ a, a ∈ S ↔ ∃ i, 1 ≤ i ∧ i ≤ n ∧ f i = a

variable {κ : Type*} [LinearOrder κ]

/-- The heap holds the nodes of `S`, by their keys. -/
def IsHeap (key : ℕ → κ) (S : Finset ℕ) (h : UvHeap) : Prop :=
  ∃ n f, n < 2 ^ 32 ∧ Tree S n f h ∧ MinHeap.Ordered n (key ∘ f)

variable {key : ℕ → κ} {S : Finset ℕ} {n i c x : ℕ} {f : ℕ → ℕ} {h : UvHeap}

theorem Tree.nodeSwap (hT : Tree S n f h) (hi : 1 ≤ i) (hin : i ≤ n) (hc : 1 ≤ c) (hcn : c ≤ n)
    (hci : c / 2 = i) : Tree S n (f ∘ Equiv.swap i c) (h.nodeSwap (f i) (f c)) where
  toLinked := hT.toLinked.nodeSwap hi hin hc hcn hci
  nelts := by rw [nelts_nodeSwap, hT.nelts]
  mem a := by
    have hrange : ∀ j, 1 ≤ j → j ≤ n → 1 ≤ Equiv.swap i c j ∧ Equiv.swap i c j ≤ n := by
      intro j hj hjn
      rw [Equiv.swap_apply_def]
      split_ifs <;> omega
    rw [hT.mem a]
    constructor
    · rintro ⟨j, hj, hjn, rfl⟩
      refine ⟨Equiv.swap i c j, (hrange j hj hjn).1, (hrange j hj hjn).2, ?_⟩
      rw [Function.comp_apply, Equiv.swap_apply_self]
    · rintro ⟨j, hj, hjn, rfl⟩
      exact ⟨Equiv.swap i c j, (hrange j hj hjn).1, (hrange j hj hjn).2, rfl⟩

/-- What the walk up of `x` keeps: all is in order but for `x` and its parent, and `x` is at most
`k` turns away from the root. -/
def Rises (key : ℕ → κ) (S : Finset ℕ) (n x k : ℕ) (h : UvHeap) : Prop :=
  ∃ f i, Tree S n f h ∧ 1 ≤ i ∧ i ≤ n ∧ f i = x ∧ i < 2 ^ (k + 1) ∧ MinHeap.Rising n (key ∘ f) i

/-- What the walk down of `x` keeps: all is in order but for `x`, and at most `k` turns lead from it
to a leaf. -/
def Sinks (key : ℕ → κ) (S : Finset ℕ) (n x k : ℕ) (h : UvHeap) : Prop :=
  ∃ f i, Tree S n f h ∧ 1 ≤ i ∧ i ≤ n ∧ f i = x ∧ n < 2 ^ k * i ∧ MinHeap.Hole n (key ∘ f) i

theorem Tree.parent_eq (hT : Tree S n f h) (hi : 1 ≤ i) (hin : i ≤ n) :
    (h.node (f i)).parent = if 2 ≤ i then some (f (i / 2)) else none := by
  rw [hT.parent i hi hin, slot]
  split_ifs <;> first | rfl | omega

section Sift

variable {less : ℕ → ℕ → Bool} (hless : ∀ a b, less a b = true ↔ key a < key b) {k : ℕ}
include hless

theorem Rises.step (hr : Rises key S n x k h) (hg : canRise less x h = true) :
    ∃ k' h', k' < k ∧ rise x h = .ok h' ∧ Rises key S n x k' h' := by
  obtain ⟨f, i, hT, hi, hin, rfl, hik, hup⟩ := hr
  have hp := hT.parent_eq hi hin
  by_cases h2 : 2 ≤ i
  · rw [if_pos h2] at hp
    simp only [canRise, hp, Option.elim, hless] at hg
    have hk : k ≠ 0 := by
      rintro rfl
      omega
    have hpow : 2 ^ (k + 1) = 2 ^ (k - 1 + 1) * 2 := by
      rw [← Nat.pow_succ]
      congr 1
      omega
    refine ⟨k - 1, h.nodeSwap (f (i / 2)) (f i), by omega, by simp only [rise, hp],
      f ∘ Equiv.swap (i / 2) i, i / 2, hT.nodeSwap (by omega) (by omega) hi hin rfl, by omega,
      by omega, ?_, by omega, hup.exchange h2 hg⟩
    rw [Function.comp_apply, Equiv.swap_apply_left]
  · rw [if_neg h2] at hp
    simp [canRise, hp] at hg

/-- The walk up ends with everything in order. -/
theorem Rises.isHeap (hn : n < 2 ^ 32) (hr : Rises key S n x k h) (hk : k ≤ uintBits) :
    ∃ h', whileFuel (canRise less x) (rise x) uintBits h = some (.ok h') ∧ IsHeap key S h' := by
  obtain ⟨k', h', hrun, ⟨f, i, hT, hi, hin, rfl, -, hup⟩, hexit⟩ :=
    whileFuel_ranked (fun _ _ hr hg => Rises.step hless hr hg) hr hk
  refine ⟨h', hrun, n, f, hn, hT, hup.ordered fun h2 => ?_⟩
  simp only [canRise, hT.parent_eq hi hin, if_pos h2, Option.elim, Bool.eq_false_iff, Ne,
    hless] at hexit
  exact not_lt.1 hexit

theorem Tree.smallest (hT : Tree S n f h) (hi : 1 ≤ i) (hin : i ≤ n) :
    ∃ c, smallest less (f i) h = f c ∧ (c = i ∨ 2 ≤ c ∧ c ≤ n ∧ c / 2 = i)
      ∧ ∀ j, 2 ≤ j → j ≤ n → j / 2 = i → key (f c) ≤ key (f j) := by
  have hchild : ∀ j, 2 ≤ j → j / 2 = i → j = 2 * i ∨ j = 2 * i + 1 := by omega
  unfold UvHeap.smallest
  rw [hT.left i hi hin, hT.right i hi hin]
  by_cases hl : 2 * i ≤ n
  · have hlt : less (f (2 * i)) (f i) = true ↔ key (f (2 * i)) < key (f i) := hless _ _
    obtain ⟨c, hc, hci, hle, hle'⟩ : ∃ c, (if less (f (2 * i)) (f i) then f (2 * i) else f i) = f c
        ∧ (c = i ∨ c = 2 * i) ∧ key (f c) ≤ key (f (2 * i)) ∧ key (f c) ≤ key (f i) := by
      split_ifs with hlt'
      · exact ⟨2 * i, rfl, .inr rfl, le_rfl, (hlt.1 hlt').le⟩
      · exact ⟨i, rfl, .inl rfl, not_lt.1 fun hk => hlt' (hlt.2 hk), le_rfl⟩
    simp only [slot_of_le (by omega : 1 ≤ 2 * i) hl, Option.elim_some, hc]
    by_cases hr : 2 * i + 1 ≤ n
    · rw [slot_of_le (by omega) hr, Option.elim_some]
      split_ifs with hlt'
      · rw [hless] at hlt'
        refine ⟨2 * i + 1, rfl, .inr (by omega), fun j hj hjn hji => ?_⟩
        rcases hchild j hj hji with rfl | rfl
        · exact hlt'.le.trans hle
        · exact le_rfl
      · rw [hless, not_lt] at hlt'
        refine ⟨c, rfl, by omega, fun j hj hjn hji => ?_⟩
        rcases hchild j hj hji with rfl | rfl
        · exact hle
        · exact hlt'
    · rw [slot_eq_none.2 (by omega), Option.elim_none]
      refine ⟨c, rfl, by omega, fun j hj hjn hji => ?_⟩
      rcases hchild j hj hji with rfl | rfl
      · exact hle
      · exact absurd hjn hr
  · rw [slot_eq_none.2 (by omega), slot_eq_none.2 (by omega)]
    exact ⟨i, rfl, .inl rfl, fun j hj hjn hji => by omega⟩

theorem Sinks.step (hs : Sinks key S n x k h) (hg : (smallest less x h != x) = true) :
    ∃ k' h', k' < k ∧ Except.ok (ε := NullDeref) (h.nodeSwap x (smallest less x h)) = .ok h'
      ∧ Sinks key S n x k' h' := by
  obtain ⟨f, i, hT, hi, hin, rfl, hk, hhole⟩ := hs
  obtain ⟨c, hc, hci, hmin⟩ := hT.smallest hless hi hin
  rw [bne_iff_ne, hc] at hg
  rcases hci with rfl | ⟨h2, hcn, hci⟩
  · exact absurd rfl hg
  have hk0 : k ≠ 0 := by
    rintro rfl
    omega
  have hpow : 2 ^ k * i = 2 ^ (k - 1) * (2 * i) := by
    rw [← Nat.mul_assoc, ← Nat.pow_succ]
    congr 2
    omega
  have hdown : 2 ^ (k - 1) * (2 * i) ≤ 2 ^ (k - 1) * c := Nat.mul_le_mul_left _ (by omega)
  refine ⟨k - 1, _, by omega, rfl, f ∘ Equiv.swap i c, c, ?_, by omega, hcn, ?_, by omega, ?_⟩
  · rw [hc]
    exact hT.nodeSwap hi hin (by omega) hcn hci
  · rw [Function.comp_apply, Equiv.swap_apply_right]
  · exact hhole.exchange h2 hci hcn hmin

/-- The walk down ends where only the walk up is left to do. -/
theorem Sinks.rises (hn : n < 2 ^ 32) (hs : Sinks key S n x k h) (hk : k ≤ uintBits) :
    ∃ h', whileFuel (fun h => smallest less x h != x)
        (fun h => Except.ok (ε := NullDeref) (h.nodeSwap x (smallest less x h))) uintBits h
          = some (.ok h') ∧ Rises key S n x 31 h' := by
  obtain ⟨k', h', hrun, ⟨f, i, hT, hi, hin, rfl, -, hhole⟩, hexit⟩ :=
    whileFuel_ranked (fun _ _ hs hg => Sinks.step hless hs hg) hs hk
  obtain ⟨c, hc, hci, hmin⟩ := hT.smallest hless hi hin
  refine ⟨h', hrun, f, i, hT, hi, hin, rfl, by omega, hhole.rising fun j hj hjn hji => ?_⟩
  have hstay : f c = f i := by simpa [hc] using hexit
  have := hmin j hj hjn hji
  rwa [hstay] at this

/-- `heap_insert` puts a new node among those the heap holds. -/
theorem IsHeap.insert (hh : IsHeap key S h) (hx : x ∉ S) (hn : h.nelts + 1 < 2 ^ 32) :
    ∃ h', insert less h x = some (.ok h') ∧ IsHeap key (Insert.insert x S) h' := by
  obtain ⟨n, f, -, hT, ho⟩ := hh
  rw [hT.nelts] at hn
  have hfresh : ∀ i, 1 ≤ i → i ≤ n → f i ≠ x := fun i hi hin hfx =>
    hx ((hT.mem x).2 ⟨i, hi, hin, hfx⟩)
  have hL := hT.toLinked.setNode_fresh hfresh (y := ⟨none, none, none⟩)
  have hwalk := hL.walk_heapPath (by omega : 1 ≤ n + 1) (by omega) hn
  have hread : (h.setNode x ⟨none, none, none⟩).read (slotOf f ((n + 1) / 2))
      = slot n f ((n + 1) / 2) := by
    by_cases h0 : n = 0
    · subst h0
      exact hL.min
    · exact hL.read_slotOf (by omega) (by omega)
  have hset : (h.setNode x ⟨none, none, none⟩).setParent x (slot n f ((n + 1) / 2))
      = h.setNode x ⟨none, none, slot n f ((n + 1) / 2)⟩ := by
    rw [setParent, setNode_setNode, node_setNode, if_pos rfl]
  have hpush := (hT.toLinked.setNode_fresh hfresh (y := ⟨none, none, slot n f ((n + 1) / 2)⟩)).push
    hfresh (by simp) (by simp) (by simp)
  have hrises : Rises key (Insert.insert x S) (n + 1) x 31
      { (h.setNode x ⟨none, none, slot n f ((n + 1) / 2)⟩).write (slotOf f (n + 1)) (some x) with
        nelts := n + 1 } := by
    refine ⟨Function.update f (n + 1) x, n + 1, ⟨hpush.setNelts _, rfl, fun a => ?_⟩, by omega,
      le_rfl, Function.update_self _ _ _, by omega, ?_⟩
    · rw [Finset.mem_insert, hT.mem a]
      constructor
      · rintro (rfl | ⟨i, hi, hin, rfl⟩)
        · exact ⟨n + 1, by omega, le_rfl, Function.update_self _ _ _⟩
        · exact ⟨i, hi, by omega, Function.update_of_ne (by omega) _ _⟩
      · rintro ⟨i, hi, hin, rfl⟩
        by_cases hlast : i = n + 1
        · rw [hlast, Function.update_self]
          exact .inl rfl
        · rw [Function.update_of_ne hlast]
          exact .inr ⟨i, hi, by omega, rfl⟩
    · rw [Function.comp_update]
      exact ho.push (key x)
  obtain ⟨h', hrun, hh'⟩ := hrises.isHeap hless hn (by decide)
  refine ⟨h', ?_, hh'⟩
  have hmod : (1 + n) % 2 ^ 32 = n + 1 := by omega
  have hmod' : (n + 1) % 2 ^ 32 = n + 1 := by omega
  unfold UvHeap.insert
  simp only [hT.nelts, hmod, hwalk, hread, hset, nelts_write, nelts_setNode, hmod', hrun]

/-- `heap_remove` takes a node out of those the heap holds. -/
theorem IsHeap.remove (hh : IsHeap key S h) (hx : x ∈ S) :
    ∃ h', remove less h x = some (.ok h') ∧ IsHeap key (S.erase x) h' := by
  obtain ⟨n, f, hn, hT, ho⟩ := hh
  obtain ⟨i, hi, hin, rfl⟩ := (hT.mem x).1 hx
  obtain ⟨n, rfl⟩ : ∃ m, n = m + 1 := ⟨n - 1, by omega⟩
  have hwalk := hT.walk_heapPath (by omega : 1 ≤ n + 1) (by omega) hn
  have hread : ∀ m, ({ h with nelts := m } : UvHeap).read (slotOf f (n + 1))
      = some (f (n + 1)) := fun m => by
    rw [(hT.toLinked.setNelts m).read_slotOf (by omega) (by omega), slot_of_le (by omega) le_rfl]
  have hpop := (hT.toLinked.setNelts n).pop
  have hmem : ∀ a, a ∈ S.erase (f i) ↔ ∃ j, 1 ≤ j ∧ j ≤ n + 1 ∧ j ≠ i ∧ f j = a := by
    intro a
    rw [Finset.mem_erase, hT.mem a]
    constructor
    · rintro ⟨hne, j, hj, hjn, rfl⟩
      exact ⟨j, hj, hjn, fun hji => hne (congrArg f hji), rfl⟩
    · rintro ⟨j, hj, hjn, hji, rfl⟩
      exact ⟨fun hne => hji (hT.inj j i hj hjn hi hin hne), j, hj, hjn, rfl⟩
  unfold UvHeap.remove
  simp only [hT.nelts, Nat.add_eq_zero_iff, Nat.one_ne_zero, and_false, if_false, hwalk, hread,
    Nat.add_sub_cancel]
  by_cases hlast : i = n + 1
  · have hmin : (({ h with nelts := n } : UvHeap).write (slotOf f (n + 1)) none).min
        ≠ some (f (n + 1)) := by
      rw [hpop.min]
      intro he
      unfold slot at he
      split_ifs at he with h1
      have := hT.inj 1 (n + 1) le_rfl (by omega) (by omega) le_rfl (Option.some.inj he)
      omega
    rw [hlast, if_pos rfl, if_neg hmin]
    refine ⟨_, rfl, n, f, by omega, ⟨hpop, by rw [nelts_write], fun a => ?_⟩, ho.pop⟩
    rw [← hlast, hmem a]
    constructor
    · rintro ⟨j, hj, hjn, hji, rfl⟩
      exact ⟨j, hj, by omega, rfl⟩
    · rintro ⟨j, hj, hjn, rfl⟩
      exact ⟨j, hj, by omega, by omega, rfl⟩
  · have hne : f (n + 1) ≠ f i := fun he =>
      hlast (hT.inj i (n + 1) hi hin (by omega) le_rfl he.symm)
    have hout : ∀ k, 1 ≤ k → k ≤ n → f k ≠ f (n + 1) := by
      intro k hk hkn he
      have := hT.inj k (n + 1) hk (by omega) (by omega) le_rfl he
      omega
    have hsinks : Sinks key (S.erase (f i)) n (f (n + 1)) uintBits
        ((({ h with nelts := n } : UvHeap).write (slotOf f (n + 1)) none).replace (f i)
          (f (n + 1))) := by
      refine ⟨Function.update f i (f (n + 1)), i, ⟨hpop.replace hout hi (by omega), ?_, fun a => ?_⟩,
        hi, by omega, Function.update_self _ _ _, by unfold uintBits; omega, ?_⟩
      · simp [UvHeap.replace]
      · rw [hmem a]
        constructor
        · rintro ⟨j, hj, hjn, hji, rfl⟩
          by_cases hjl : j = n + 1
          · exact ⟨i, hi, by omega, by rw [hjl, Function.update_self]⟩
          · exact ⟨j, hj, by omega, Function.update_of_ne hji _ _⟩
        · rintro ⟨j, hj, hjn, rfl⟩
          by_cases hji : j = i
          · exact ⟨n + 1, by omega, le_rfl, Ne.symm hlast, by rw [hji, Function.update_self]⟩
          · exact ⟨j, hj, by omega, hji, (Function.update_of_ne hji _ _).symm⟩
      · rw [Function.comp_update]
        exact ho.replace i _
    obtain ⟨h₁, hrun₁, hrises⟩ := hsinks.rises hless (by omega) le_rfl
    obtain ⟨h₂, hrun₂, hh₂⟩ := hrises.isHeap hless (by omega) (by decide)
    refine ⟨h₂, ?_, hh₂⟩
    rw [if_neg hne]
    simp only [sift, hrun₁, hrun₂]

end Sift

theorem isHeap_init (node : ℕ → HeapNode) : IsHeap key ∅ (init node) :=
  ⟨0, id, by decide, ⟨⟨fun i j hi hin => by omega, rfl, fun i hi hin => by omega,
    fun i hi hin => by omega, fun i hi hin => by omega⟩, rfl, fun a => by simp; omega⟩,
    fun j hj hjn => by omega⟩

/-- The keys of the other nodes do not matter. -/
theorem IsHeap.congr {key' : ℕ → κ} (hh : IsHeap key S h) (hk : ∀ a ∈ S, key' a = key a) :
    IsHeap key' S h := by
  obtain ⟨n, f, hn, hT, ho⟩ := hh
  refine ⟨n, f, hn, hT, fun j hj hjn => ?_⟩
  have hmem : ∀ i, 1 ≤ i → i ≤ n → key' (f i) = key (f i) := fun i hi hin =>
    hk _ ((hT.mem _).2 ⟨i, hi, hin, rfl⟩)
  rw [Function.comp_apply, Function.comp_apply, hmem j (by omega) hjn,
    hmem (j / 2) (by omega) (by omega)]
  exact ho j hj hjn

theorem IsHeap.nelts_eq (hh : IsHeap key S h) : h.nelts = S.card := by
  obtain ⟨n, f, -, hT, -⟩ := hh
  have hS : S = (Finset.Icc 1 n).image f := by
    ext a
    simp only [hT.mem a, Finset.mem_image, Finset.mem_Icc, and_assoc]
  rw [hT.nelts, hS, Finset.card_image_of_injOn, Nat.card_Icc, Nat.add_sub_cancel]
  intro i hi j hj hij
  simp only [Finset.coe_Icc, Set.mem_Icc] at hi hj
  exact hT.inj i j hi.1 hi.2 hj.1 hj.2 hij

/-- `heap_min` is a node with the least key. -/
theorem IsHeap.min_eq (hh : IsHeap key S h) :
    h.min = none ∧ S = ∅ ∨ ∃ a ∈ S, h.min = some a ∧ ∀ b ∈ S, key a ≤ key b := by
  obtain ⟨n, f, -, hT, ho⟩ := hh
  by_cases h0 : n = 0
  · refine .inl ⟨?_, Finset.eq_empty_of_forall_notMem fun a ha => ?_⟩
    · rw [hT.min, slot_eq_none.2 (by omega)]
    · obtain ⟨i, hi, hin, -⟩ := (hT.mem a).1 ha
      omega
  · refine .inr ⟨f 1, (hT.mem _).2 ⟨1, le_rfl, by omega, rfl⟩, ?_, fun b hb => ?_⟩
    · rw [hT.min, slot_of_le le_rfl (by omega)]
    · obtain ⟨i, hi, hin, rfl⟩ := (hT.mem b).1 hb
      exact ho.root_le i hi hin

end UvHeap

end TestLibuv
