import Mathlib.Data.Option.Basic
import Mathlib.Order.Nat

/-!
# A heap whose addresses are used once

An object is found under the address it was allocated at until it is freed. Addresses are not
given out twice, so an address that outlives its object finds nothing, never another object.
-/

/-- The objects at their addresses, and the address the next one gets. -/
structure Heap (α : Type*) where
  cells : ℕ → Option α
  next : ℕ
  unused : ∀ a, next ≤ a → cells a = none

namespace Heap

variable {α : Type*}

def empty : Heap α := ⟨fun _ => none, 0, fun _ _ => rfl⟩

/-- The heap with `x` allocated at `h.next`. -/
def alloc (h : Heap α) (x : α) : Heap α where
  cells a := if a = h.next then some x else h.cells a
  next := h.next + 1
  unused a ha := by
    rw [if_neg (by omega)]
    exact h.unused a (by omega)

def free (h : Heap α) (a : ℕ) : Heap α where
  cells b := if b = a then none else h.cells b
  next := h.next
  unused b hb := by
    split_ifs
    · rfl
    · exact h.unused b hb

/-- The object at `a`, if there is one, changed by `f`. -/
def modify (h : Heap α) (a : ℕ) (f : α → α) : Heap α where
  cells b := if b = a then (h.cells b).map f else h.cells b
  next := h.next
  unused b hb := by
    rw [h.unused b hb]
    split_ifs <;> rfl

/-- An object is at `a`. -/
def Live (h : Heap α) (a : ℕ) : Prop := (h.cells a).isSome

instance (h : Heap α) (a : ℕ) : Decidable (h.Live a) := inferInstanceAs (Decidable (_ = true))

variable {h : Heap α} {a b : ℕ} {x : α} {f : α → α}

theorem cells_alloc : (h.alloc x).cells a = if a = h.next then some x else h.cells a := rfl

theorem cells_free : (h.free b).cells a = if a = b then none else h.cells a := rfl

theorem cells_modify :
    (h.modify b f).cells a = if a = b then (h.cells a).map f else h.cells a := rfl

theorem modify_comm {g : α → α} (hab : a ≠ b) :
    (h.modify a f).modify b g = (h.modify b g).modify a f := by
  unfold modify
  congr 1
  funext c
  dsimp only
  split_ifs with hb ha
  · exact absurd (ha.symm.trans hb) hab
  · rfl
  · rfl
  · rfl

theorem lt_next (ha : h.cells a = some x) : a < h.next := by
  by_contra hn
  simp [h.unused a (by omega)] at ha

theorem live_of_cells (ha : h.cells a = some x) : h.Live a := by
  rw [Live, ha]
  rfl

theorem Live.cells (ha : h.Live a) : ∃ x, h.cells a = some x := Option.isSome_iff_exists.1 ha

theorem Live.lt_next (ha : h.Live a) : a < h.next := by
  obtain ⟨x, hx⟩ := ha.cells
  exact Heap.lt_next hx

theorem live_alloc : (h.alloc x).Live a ↔ a = h.next ∨ h.Live a := by
  unfold Live
  rw [cells_alloc]
  split_ifs with ha <;> simp [ha]

theorem Live.alloc (ha : h.Live a) : (h.alloc x).Live a := live_alloc.2 (.inr ha)

@[simp] theorem live_modify : (h.modify b f).Live a ↔ h.Live a := by
  unfold Live
  rw [cells_modify]
  split_ifs <;> simp

theorem live_free : (h.free b).Live a ↔ a ≠ b ∧ h.Live a := by
  unfold Live
  rw [cells_free]
  split_ifs with hab <;> simp [hab]

end Heap
