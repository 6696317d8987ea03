import Mathlib.Data.Option.Basic
import Mathlib.Logic.Relation
import Mathlib.Order.Nat

/-!
# While loops that may fault or run forever

`whileFuel` runs a loop for at most a given number of iterations: `none` when they do not reach
an exit, and otherwise the state at the exit or the fault of the body. An answer does not depend
on the fuel that found it (`whileFuel_mono`), so a loop stops exactly when some fuel answers.
-/

namespace While

variable {σ ε : Type*} (guard : σ → Bool) (body : σ → Except ε σ)

/-- At most `n` iterations of `while (guard) body`. -/
def whileFuel : ℕ → σ → Option (Except ε σ)
  | 0, s => if guard s then none else some (.ok s)
  | n + 1, s =>
    if guard s then
      match body s with
      | .ok s' => whileFuel n s'
      | .error e => some (.error e)
    else some (.ok s)

/-- An iteration that comes to its end. -/
def Next (s s' : σ) : Prop := guard s = true ∧ body s = .ok s'

/-- The states the loop comes to. -/
abbrev Reaches : σ → σ → Prop := Relation.ReflTransGen (Next guard body)

variable {guard body}

theorem whileFuel_exit {s : σ} (h : guard s = false) (n : ℕ) :
    whileFuel guard body n s = some (.ok s) := by
  cases n <;> simp [whileFuel, h]

theorem whileFuel_step {s s' : σ} (h : guard s = true) (hb : body s = .ok s') (n : ℕ) :
    whileFuel guard body (n + 1) s = whileFuel guard body n s' := by
  simp [whileFuel, h, hb]

theorem whileFuel_fault {s : σ} {e : ε} (h : guard s = true) (hb : body s = .error e) (n : ℕ) :
    whileFuel guard body (n + 1) s = some (.error e) := by
  simp [whileFuel, h, hb]

theorem whileFuel_succ : ∀ {n : ℕ} {s : σ} {r : Except ε σ},
    whileFuel guard body n s = some r → whileFuel guard body (n + 1) s = some r
  | 0, s, r, h => by
    rcases hg : guard s with _ | _
    · rw [whileFuel_exit hg] at h ⊢
      exact h
    · simp [whileFuel, hg] at h
  | n + 1, s, r, h => by
    rcases hg : guard s with _ | _
    · rw [whileFuel_exit hg] at h ⊢
      exact h
    rcases hb : body s with e | s'
    · rw [whileFuel_fault hg hb] at h ⊢
      exact h
    · rw [whileFuel_step hg hb] at h ⊢
      exact whileFuel_succ h

theorem whileFuel_mono {n m : ℕ} (hnm : n ≤ m) {s : σ} {r : Except ε σ}
    (h : whileFuel guard body n s = some r) : whileFuel guard body m s = some r := by
  induction hnm with
  | refl => exact h
  | step _ ih => exact whileFuel_succ ih

/-- The rule for total correctness: an invariant with a rank that every iteration lowers, and that
bounds the iterations. -/
theorem whileFuel_ranked {I : ℕ → σ → Prop}
    (hstep : ∀ k s, I k s → guard s = true → ∃ k' s', k' < k ∧ body s = .ok s' ∧ I k' s') :
    ∀ {n k : ℕ} {s : σ}, I k s → k ≤ n →
      ∃ k' s', whileFuel guard body n s = some (.ok s') ∧ I k' s' ∧ guard s' = false := by
  intro n
  induction n with
  | zero =>
    intro k s hs hk
    rcases hg : guard s with _ | _
    · exact ⟨k, s, whileFuel_exit hg 0, hs, hg⟩
    · obtain ⟨k', -, hlt, -⟩ := hstep k s hs hg
      omega
  | succ n ih =>
    intro k s hs hk
    rcases hg : guard s with _ | _
    · exact ⟨k, s, whileFuel_exit hg _, hs, hg⟩
    · obtain ⟨k₁, t, hlt, hb, ht⟩ := hstep k s hs hg
      obtain ⟨k', s', hrun, hs', hg'⟩ := ih ht (by omega)
      exact ⟨k', s', (whileFuel_step hg hb n).trans hrun, hs', hg'⟩

end While
