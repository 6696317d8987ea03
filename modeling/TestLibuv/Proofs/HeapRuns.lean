import Mathlib.Data.List.Nodup
import TestLibuv.Proofs.HeapOrder

/-!
# Any use of the heap, and what it gives back

A program that inserts nodes that are outside and removes nodes that are inside, in any order,
ends with a heap for the nodes that are left. Taking the minimum until none is left then gives back
each of these once, by their keys.
-/

namespace TestLibuv

/-- A call on the heap. -/
inductive HeapCall
  | insert (a : ℕ)
  | remove (a : ℕ)
  deriving DecidableEq, Repr

namespace HeapCall

/-- The nodes that are inside after the call. -/
def after (S : Finset ℕ) : HeapCall → Finset ℕ
  | insert a => Insert.insert a S
  | remove a => S.erase a

/-- The call is one a program may make with these nodes inside: `nelts` counts to `2 ^ 32 - 1`. -/
def Allowed (S : Finset ℕ) : HeapCall → Prop
  | insert a => a ∉ S ∧ S.card + 1 < 2 ^ 32
  | remove a => a ∈ S

instance (S : Finset ℕ) : ∀ c, Decidable (Allowed S c)
  | insert a => inferInstanceAs (Decidable (a ∉ S ∧ _))
  | remove a => inferInstanceAs (Decidable (a ∈ S))

/-- Every call is allowed with the nodes the calls before it leave inside. -/
def AllAllowed : Finset ℕ → List HeapCall → Prop
  | _, [] => True
  | S, c :: cs => Allowed S c ∧ AllAllowed (c.after S) cs

instance : ∀ (S : Finset ℕ) (cs : List HeapCall), Decidable (AllAllowed S cs)
  | _, [] => inferInstanceAs (Decidable True)
  | S, c :: cs =>
    have := instDecidableAllAllowed (c.after S) cs
    inferInstanceAs (Decidable (_ ∧ _))

end HeapCall

namespace UvHeap

variable (less : ℕ → ℕ → Bool)

def call (h : UvHeap) : HeapCall → Option (Except NullDeref UvHeap)
  | .insert a => insert less h a
  | .remove a => remove less h a

/-- The calls, one after the other. -/
def calls : UvHeap → List HeapCall → Option (Except NullDeref UvHeap)
  | h, [] => some (.ok h)
  | h, c :: cs =>
    match call less h c with
    | some (.ok h) => calls h cs
    | r => r

/-- `heap_min` and `heap_dequeue` until the heap is empty: the nodes that come out. At most `n`. -/
def drain : ℕ → UvHeap → Option (Except NullDeref (List ℕ))
  | 0, h => if h.min = none then some (.ok []) else none
  | n + 1, h =>
    match h.min with
    | none => some (.ok [])
    | some a =>
      match dequeue less h with
      | some (.ok h) => (drain n h).map (·.map (a :: ·))
      | some (.error e) => some (.error e)
      | none => none

variable {less} {κ : Type*} [LinearOrder κ] {key : ℕ → κ}
  (hless : ∀ a b, less a b = true ↔ key a < key b)
include hless

theorem IsHeap.call {S : Finset ℕ} {h : UvHeap} {c : HeapCall} (hh : IsHeap key S h)
    (hc : c.Allowed S) : ∃ h', call less h c = some (.ok h') ∧ IsHeap key (c.after S) h' := by
  cases c with
  | insert a => exact hh.insert hless hc.1 (by rw [hh.nelts_eq]; exact hc.2)
  | remove a => exact hh.remove hless hc

theorem IsHeap.calls : ∀ {cs : List HeapCall} {S : Finset ℕ} {h : UvHeap}, IsHeap key S h →
    HeapCall.AllAllowed S cs →
    ∃ h', calls less h cs = some (.ok h') ∧ IsHeap key (cs.foldl HeapCall.after S) h'
  | [], S, h, hh, _ => ⟨h, rfl, hh⟩
  | c :: cs, S, h, hh, hcs => by
    obtain ⟨h₁, hrun, hh₁⟩ := hh.call hless hcs.1
    obtain ⟨h', hrest, hh'⟩ := hh₁.calls hcs.2
    refine ⟨h', ?_, hh'⟩
    rw [UvHeap.calls, hrun]
    exact hrest

theorem IsHeap.drain : ∀ {n : ℕ} {S : Finset ℕ} {h : UvHeap}, IsHeap key S h → S.card ≤ n →
    ∃ xs, drain less n h = some (.ok xs) ∧ xs.Nodup ∧ (∀ a, a ∈ xs ↔ a ∈ S)
      ∧ xs.Pairwise (key · ≤ key ·) := by
  intro n
  induction n with
  | zero =>
    intro S h hh hn
    have hS : S = ∅ := Finset.card_eq_zero.1 (by omega)
    rcases hh.min_eq with ⟨hmin, -⟩ | ⟨a, ha, -⟩
    · exact ⟨[], by simp [UvHeap.drain, hmin], List.nodup_nil, by simp [hS], .nil⟩
    · simp [hS] at ha
  | succ n ih =>
    intro S h hh hn
    rcases hh.min_eq with ⟨hmin, hS⟩ | ⟨a, ha, hmin, hle⟩
    · exact ⟨[], by simp [UvHeap.drain, hmin], List.nodup_nil, by simp [hS], .nil⟩
    obtain ⟨h₁, hrun, hh₁⟩ := hh.remove hless ha
    have hcard : (S.erase a).card + 1 = S.card := Finset.card_erase_add_one ha
    obtain ⟨xs, hxs, hnodup, hmem, hsorted⟩ := ih hh₁ (by omega)
    refine ⟨a :: xs, ?_, List.nodup_cons.2 ⟨?_, hnodup⟩, fun b => ?_,
      List.pairwise_cons.2 ⟨fun b hb => ?_, hsorted⟩⟩
    · simp only [UvHeap.drain, hmin, dequeue, hrun, hxs]
      rfl
    · rw [hmem, Finset.mem_erase]
      exact fun hne => hne.1 rfl
    · rw [List.mem_cons, hmem, Finset.mem_erase]
      by_cases hb : b = a
      · simp [hb, ha]
      · simp [hb]
    · exact hle b (Finset.mem_of_mem_erase ((hmem b).1 hb))

omit hless

/-- No call fails, and what is taken out at the end are the nodes that are inside, by their
keys. -/
theorem drain_calls (key : ℕ → κ) (hless : ∀ a b, less a b = true ↔ key a < key b)
    (node : ℕ → HeapNode) {cs : List HeapCall} (hcs : HeapCall.AllAllowed ∅ cs) :
    ∃ h xs, calls less (init node) cs = some (.ok h) ∧ drain less h.nelts h = some (.ok xs)
      ∧ xs.Nodup ∧ (∀ a, a ∈ xs ↔ a ∈ cs.foldl HeapCall.after ∅)
      ∧ xs.Pairwise (key · ≤ key ·) := by
  obtain ⟨h, hrun, hh⟩ := (isHeap_init node).calls hless hcs
  obtain ⟨xs, hxs, hrest⟩ := hh.drain hless hh.nelts_eq.ge
  exact ⟨h, xs, hrun, hxs, hrest⟩

theorem drain_calls_four : ∃ h xs,
    calls (fun a b => decide (a < b)) (init fun _ => ⟨none, none, none⟩)
        [.insert 5, .insert 3, .insert 4, .remove 3] = some (.ok h)
      ∧ drain (fun a b => decide (a < b)) h.nelts h = some (.ok xs)
      ∧ xs.Nodup ∧ (∀ a, a ∈ xs ↔ a ∈ ([.insert 5, .insert 3, .insert 4, .remove 3] :
        List HeapCall).foldl HeapCall.after ∅)
      ∧ xs.Pairwise (id · ≤ id ·) :=
  drain_calls id (fun a b => by simp) _ (by decide)

end UvHeap

end TestLibuv
