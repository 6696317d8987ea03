import Mathlib.Order.WellFounded
import Mathlib.Order.Nat
import TestLibuv.Lib.Runs

/-!
# What a fair run comes to

An execution is an infinite run of a machine, which may also stand still. It is fair to some of the
actions if, again and again, one of them is taken or none of them can be. The rank rule
`Execution.leadsTo`: if some of these actions are possible as long as `P` holds, each of them
lowers a rank that no other step raises, and no step leaves `P` but to `Q`, then `P` leads to `Q`.
-/

namespace Fairness

variable {σ ι : Type*} (step : σ → ι → Option σ)

/-- An infinite run, standing still where there is no label. -/
structure Execution where
  state : ℕ → σ
  label : ℕ → Option ι
  next : ∀ n, match label n with
    | some a => step (state n) a = some (state (n + 1))
    | none => state (n + 1) = state n

variable {step}

/-- Again and again one of the actions is taken or none is possible. -/
def WeaklyFair (e : Execution step) (acts : ι → Prop) : Prop :=
  ∀ n, ∃ m, n ≤ m ∧ ((∃ a, e.label m = some a ∧ acts a)
    ∨ ∀ a, acts a → step (e.state m) a = none)

namespace Execution

variable {ρ : Type*} {P Q : σ → Prop} {acts : ι → Prop} {r : σ → ρ}

theorem invariant (e : Execution step) {I : σ → Prop}
    (hI : ∀ s a s', I s → step s a = some s' → I s') (h : I (e.state 0)) : ∀ n, I (e.state n)
  | 0 => h
  | n + 1 => by
    have ih := invariant e hI h n
    have hn := e.next n
    rcases hl : e.label n with _ | a <;> rw [hl] at hn
    · exact hn ▸ ih
    · exact hI _ a _ ih hn

section Rank

variable [Preorder ρ]

/-- Until `Q` comes, `P` stays and the rank does not rise. -/
theorem stays (e : Execution step)
    (hstay : ∀ s a s', P s → step s a = some s' → Q s' ∨ P s' ∧ r s' ≤ r s) {n : ℕ}
    (hP : P (e.state n)) : ∀ d, (∃ m, n ≤ m ∧ Q (e.state m))
      ∨ P (e.state (n + d)) ∧ r (e.state (n + d)) ≤ r (e.state n)
  | 0 => .inr ⟨hP, le_refl _⟩
  | d + 1 => by
    rcases stays e hstay hP d with hQ | ⟨hPd, hle⟩
    · exact .inl hQ
    have hn := e.next (n + d)
    rcases hl : e.label (n + d) with _ | a <;> rw [hl] at hn <;> dsimp only at hn
    · rw [← Nat.add_assoc, hn]
      exact .inr ⟨hPd, hle⟩
    · rcases hstay _ a _ hPd hn with hQ | ⟨hP', hle'⟩
      · exact .inl ⟨n + d + 1, by omega, hQ⟩
      · exact .inr ⟨hP', le_trans hle' hle⟩

theorem leadsTo [WellFoundedLT ρ] (e : Execution step) (hfair : WeaklyFair e acts)
    (hstay : ∀ s a s', P s → step s a = some s' → Q s' ∨ P s' ∧ r s' ≤ r s)
    (hdec : ∀ s a s', P s → acts a → step s a = some s' → Q s' ∨ P s' ∧ r s' < r s)
    (hen : ∀ s, P s → ∃ a, acts a ∧ step s a ≠ none) {n : ℕ} (hP : P (e.state n)) :
    ∃ m, n ≤ m ∧ Q (e.state m) := by
  have key : ∀ x n, r (e.state n) = x → P (e.state n) → ∃ m, n ≤ m ∧ Q (e.state m) := by
    intro x
    induction x using WellFoundedLT.induction with
    | ind x ih =>
      intro n hx hP
      obtain ⟨m, hnm, hm⟩ := hfair n
      obtain ⟨d, rfl⟩ := Nat.exists_eq_add_of_le hnm
      rcases e.stays hstay hP d with hQ | ⟨hPd, hle⟩
      · exact hQ
      rcases hm with ⟨a, hl, ha⟩ | hdis
      · have hn := e.next (n + d)
        rw [hl] at hn
        rcases hdec _ a _ hPd ha hn with hQ | ⟨hP', hlt⟩
        · exact ⟨n + d + 1, by omega, hQ⟩
        · obtain ⟨m, hm, hQ⟩ := ih _ (hx ▸ lt_of_lt_of_le hlt hle) (n + d + 1) rfl hP'
          exact ⟨m, by omega, hQ⟩
      · obtain ⟨a, ha, hne⟩ := hen _ hPd
        exact absurd (hdis a ha) hne
  exact key _ n rfl hP

end Rank

section OfRun

variable {s₀ : σ} {as : List ι}

/-- A finite run, then standing still. -/
def ofRun (s₀ : σ) (as : List ι) (h : (Runs.run step s₀ as).isSome) : Execution step where
  state n := (Runs.run step s₀ (as.take n)).getD s₀
  label n := as[n]?
  next n := by
    rcases ha : as[n]? with _ | a
    · rw [List.getElem?_eq_none_iff] at ha
      simp only [List.take_of_length_le ha, List.take_of_length_le (Nat.le_succ_of_le ha)]
    · obtain ⟨s, hs⟩ := Option.isSome_iff_exists.1 h
      have htake : as.take (n + 1) = as.take n ++ [a] := by
        rw [List.take_add_one, ha]
        rfl
      rw [← List.take_append_drop (n + 1) as] at hs
      obtain ⟨t, ht, -⟩ := Runs.run_append_eq_some.1 hs
      rw [htake] at ht ⊢
      obtain ⟨u, hu, hstep⟩ := Runs.run_append_eq_some.1 ht
      obtain ⟨t', ht', hnil⟩ := Runs.run_cons_eq_some.1 hstep
      rw [Runs.run_nil, Option.some.injEq] at hnil
      subst hnil
      dsimp only
      rw [hu, ht, Option.getD_some, Option.getD_some, ht']

theorem state_ofRun_end (h : (Runs.run step s₀ as).isSome) {n : ℕ} (hn : as.length ≤ n) :
    Runs.run step s₀ as = some ((ofRun s₀ as h).state n) := by
  obtain ⟨s, hs⟩ := Option.isSome_iff_exists.1 h
  show _ = some ((Runs.run step s₀ (as.take n)).getD s₀)
  rw [List.take_of_length_le hn, hs]
  rfl

theorem weaklyFair_ofRun (h : (Runs.run step s₀ as).isSome) {acts : ι → Prop}
    (hend : ∀ a, acts a → (Runs.run step s₀ as).bind (step · a) = none) :
    WeaklyFair (ofRun s₀ as h) acts := by
  intro n
  refine ⟨n + as.length, Nat.le_add_right _ _, .inr fun a ha => ?_⟩
  have hs := hend a ha
  rwa [state_ofRun_end h (Nat.le_add_left as.length n), Option.bind_some] at hs

end OfRun

end Execution

end Fairness
