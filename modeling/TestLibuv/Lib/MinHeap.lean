import Mathlib.Logic.Equiv.Basic
import Mathlib.Order.Lattice
import Mathlib.Order.Nat

/-!
# Min-heaps by position

The positions of a complete binary tree are numbered from the root, which is 1: below `i` are
`2 * i` and `2 * i + 1`. The first `n` positions are taken, and `g i` is the key at position `i`.
A sift exchanges the keys of two positions, one above the other, along one path. `Hole` is what
holds of all of the tree but one position, and `Rising` what holds when only that position and the
one above it may be out of order.
-/

namespace MinHeap

variable {κ : Type*} [LinearOrder κ]

/-- No key is below the key above it. -/
def Ordered (n : ℕ) (g : ℕ → κ) : Prop := ∀ j, 2 ≤ j → j ≤ n → g (j / 2) ≤ g j

/-- In order, were it not for the key at `i`. -/
structure Hole (n : ℕ) (g : ℕ → κ) (i : ℕ) : Prop where
  off : ∀ j, 2 ≤ j → j ≤ n → j ≠ i → j / 2 ≠ i → g (j / 2) ≤ g j
  across : 2 ≤ i → ∀ j, j ≤ n → j / 2 = i → g (i / 2) ≤ g j

/-- The key at `i` is not above those below it. -/
def Below (n : ℕ) (g : ℕ → κ) (i : ℕ) : Prop := ∀ j, 2 ≤ j → j ≤ n → j / 2 = i → g i ≤ g j

/-- In order, were it not for `i` and the position above. -/
structure Rising (n : ℕ) (g : ℕ → κ) (i : ℕ) : Prop extends Hole n g i where
  below : Below n g i

variable {n i c : ℕ} {g : ℕ → κ}

theorem Ordered.hole (h : Ordered n g) (i : ℕ) : Hole n g i where
  off j hj hn _ _ := h j hj hn
  across hi j hn hji := by
    have hup := h i hi (by omega)
    have hdown := h j (by omega) hn
    rw [hji] at hdown
    exact hup.trans hdown

theorem Rising.ordered (h : Rising n g i) (ho : 2 ≤ i → g (i / 2) ≤ g i) : Ordered n g := by
  intro j hj hn
  by_cases hji : j = i
  · exact hji ▸ ho (hji ▸ hj)
  by_cases hup : j / 2 = i
  · rw [hup]
    exact h.below j hj hn hup
  · exact h.off j hj hn hji hup

/-- A key below the one above it changes places with it. -/
theorem Rising.exchange (h : Rising n g i) (hi : 2 ≤ i) (hlt : g i < g (i / 2)) :
    Rising n (g ∘ Equiv.swap (i / 2) i) (i / 2) where
  off j hj hn hji hup := by
    simp only [Function.comp_apply, Equiv.swap_apply_def]
    by_cases hjc : j = i
    · exact absurd (congrArg (· / 2) hjc) hup
    by_cases hupc : j / 2 = i
    · rw [if_neg hup, if_pos hupc, if_neg hji, if_neg hjc]
      exact h.across hi j hn hupc
    · rw [if_neg hup, if_neg hupc, if_neg hji, if_neg hjc]
      exact h.off j hj hn hjc hupc
  across hi' j hn hup := by
    have hp : g (i / 2 / 2) ≤ g (i / 2) := by
      refine h.off (i / 2) hi' ?_ (by omega) (by omega)
      omega
    simp only [Function.comp_apply, Equiv.swap_apply_def]
    rw [if_neg (by omega), if_neg (by omega), if_neg (by omega)]
    by_cases hjc : j = i
    · rw [if_pos hjc]
      exact hp
    · rw [if_neg hjc]
      have hj := h.off j (by omega) hn hjc (by omega)
      rw [hup] at hj
      exact hp.trans hj
  below j hj hn hup := by
    rw [Function.comp_apply, Function.comp_apply, Equiv.swap_apply_left, Equiv.swap_apply_def,
      if_neg (by omega)]
    by_cases hjc : j = i
    · rw [if_pos hjc]
      exact hlt.le
    · rw [if_neg hjc]
      have hj' := h.off j hj hn hjc (by omega)
      rw [hup] at hj'
      exact hlt.le.trans hj'

theorem Hole.rising (h : Hole n g i) (hb : Below n g i) : Rising n g i := ⟨h, hb⟩

/-- The key of the hole goes down, and the least key below it comes up. -/
theorem Hole.exchange (h : Hole n g i) (hc : 2 ≤ c) (hci : c / 2 = i) (hcn : c ≤ n)
    (hmin : ∀ j, 2 ≤ j → j ≤ n → j / 2 = i → g c ≤ g j) :
    Hole n (g ∘ Equiv.swap i c) c where
  off j hj hn hjc hup := by
    simp only [Function.comp_apply, Equiv.swap_apply_def]
    by_cases hji : j = i
    · rw [if_neg (by omega), if_neg hup, if_pos hji, hji]
      exact h.across (by omega) c hcn hci
    by_cases hupi : j / 2 = i
    · rw [if_pos hupi, if_neg hji, if_neg hjc]
      exact hmin j hj hn hupi
    · rw [if_neg hupi, if_neg hup, if_neg hji, if_neg hjc]
      exact h.off j hj hn hji hupi
  across _ j hn hup := by
    have hj := h.off j (by omega) hn (by omega) (by omega)
    rw [hup] at hj
    simp only [Function.comp_apply, Equiv.swap_apply_def]
    rw [hci, if_pos rfl, if_neg (by omega), if_neg (by omega)]
    exact hj

/-- A new last position holds a key that may have to rise. -/
theorem Ordered.push (h : Ordered n g) (k : κ) :
    Rising (n + 1) (Function.update g (n + 1) k) (n + 1) where
  off j hj hn hji _ := by
    rw [Function.update_of_ne (by omega), Function.update_of_ne hji]
    exact h j hj (by omega)
  across _ j hn hup := by omega
  below j hj hn hup := by omega

/-- The last position is given up, and a key put at `i` that may have to go either way. -/
theorem Ordered.replace (h : Ordered (n + 1) g) (i : ℕ) (k : κ) :
    Hole n (Function.update g i k) i where
  off j hj hn hji hup := by
    rw [Function.update_of_ne hup, Function.update_of_ne hji]
    exact h j hj (by omega)
  across hi' j hn hup := by
    rw [Function.update_of_ne (by omega), Function.update_of_ne (by omega)]
    exact (h.hole i).across hi' j (by omega) hup

theorem Ordered.pop (h : Ordered (n + 1) g) : Ordered n g := fun j hj hn => h j hj (by omega)

/-- The root has the least key. -/
theorem Ordered.root_le (h : Ordered n g) : ∀ j, 1 ≤ j → j ≤ n → g 1 ≤ g j := by
  intro j
  induction j using Nat.strong_induction_on with
  | _ j ih =>
    intro hj hn
    by_cases h1 : j = 1
    · rw [h1]
    · have hup := ih (j / 2) (by omega) (by omega) (by omega)
      exact hup.trans (h j (by omega) hn)

end MinHeap
