import TestLibuv.InitLooper

/-!
# The race of `InitLooper`

The thread is started before the handles that keep the loop alive are registered. If it gets to
`uv_run` first, `uv_run` returns at once, `_is_closed` is set, and `InitLooper` still returns true.
It stays in `uv_run` exactly if it called it on a loop with an active handle.
-/

namespace TestLibuv.InitLooper

open Runs

/-- `uv_run` is called only on a loop with an active handle. -/
def HandlesFirst (s : InitLooper) : Label → Prop
  | .work _ => s.work = .inited → s.activeHandles ≠ 0
  | _ => True

/-- What the order of the two threads' steps keeps. -/
structure Inv (s : InitLooper) : Prop where
  early : s.main = .loopInit ∨ s.main = .threadCreate → s.work = .none
  unset : s.main = .threadCreate → s.inited = false
  started : s.inited = true → s.work ≠ .none ∧ s.work ≠ .start
  handles : s.main = .waiting ∨ s.main = .returned true → s.activeHandles ≠ 0
  back : s.main = .returned true → s.inited = true

/-- The thread has not come back from `uv_run`, unless `Close` was called. -/
def Running (s : InitLooper) : Prop :=
  s.closeCalled = true ∨ s.work ≠ .afterUvRun ∧ s.work ≠ .exited ∧ s.isClosed = false

/-- The thread has come back from `uv_run`, or `Close` was called. -/
def Gone (s : InitLooper) : Prop :=
  s.closeCalled = true ∨ s.work = .afterUvRun ∨ s.work = .exited

variable {s s' : InitLooper} {l : Label}

theorem inv_init : Inv init := by
  constructor <;> simp [init]

theorem Inv.mainStep (h : Inv s) {ret : ℤ} (hs : s.mainStep ret = some s') : Inv s' := by
  obtain ⟨hearly, hunset, hstarted, hhandles, hback⟩ := h
  unfold InitLooper.mainStep check at hs
  split at hs
  · rename_i hm
    obtain rfl := Option.some.inj hs
    split_ifs <;> constructor <;> simp_all
  · rename_i hm
    obtain rfl := Option.some.inj hs
    split_ifs <;> constructor <;> simp_all
  · rename_i hm
    obtain rfl := Option.some.inj hs
    split_ifs <;> constructor <;> simp_all
  · rename_i hm
    obtain rfl := Option.some.inj hs
    split_ifs <;> constructor <;> simp_all
  · rename_i hm
    obtain rfl := Option.some.inj hs
    split_ifs <;> constructor <;> simp_all
  · simp at hs

/-- What a step of the thread leaves alone. -/
theorem workStep_frame {ret : ℤ} (hs : s.workStep ret = some s') : s'.main = s.main
    ∧ s'.activeHandles = s.activeHandles ∧ s'.closeCalled = s.closeCalled
    ∧ s.work ≠ .none ∧ s'.work ≠ .none ∧ s'.work ≠ .start
    ∧ (s'.inited = s.inited ∨ s'.inited = true) := by
  unfold InitLooper.workStep at hs
  split at hs
  · rename_i hw
    obtain rfl := Option.some.inj hs
    simp [hw]
  · rename_i hw
    obtain rfl := Option.some.inj hs
    split_ifs <;> simp [hw]
  · rename_i hw
    split_ifs at hs
    obtain rfl := Option.some.inj hs
    simp [hw]
  · rename_i hw
    obtain rfl := Option.some.inj hs
    simp [hw]
  · simp at hs
  · simp at hs

theorem Inv.step (h : Inv s) (hs : step s l = some s') : Inv s' := by
  cases l with
  | main ret => exact h.mainStep hs
  | work ret =>
    obtain ⟨hm, ha, -, hw, hw', hw'', hi⟩ := workStep_frame hs
    refine ⟨fun hm' => ?_, fun hm' => ?_, fun _ => ⟨hw', hw''⟩, fun hm' => ?_, fun hm' => ?_⟩
    · rw [hm] at hm'
      exact absurd (h.early hm') hw
    · rw [hm] at hm'
      exact absurd (h.early (.inr hm')) hw
    · rw [hm] at hm'
      rw [ha]
      exact h.handles hm'
    · rw [hm] at hm'
      rcases hi with hi | hi
      · rw [hi]
        exact h.back hm'
      · exact hi
  | close =>
    obtain rfl := Option.some.inj hs
    exact ⟨h.early, h.unset, h.started, h.handles, h.back⟩

/-- What a step of `InitLooper` leaves alone. -/
theorem mainStep_frame {ret : ℤ} (hs : s.mainStep ret = some s') :
    s'.closeCalled = s.closeCalled ∧ s'.isClosed = s.isClosed
      ∧ (s'.work = s.work ∨ s'.work = .start ∧ s.main = .threadCreate) := by
  unfold InitLooper.mainStep check at hs
  split at hs
  all_goals first
    | (obtain rfl := Option.some.inj hs
       split_ifs <;> simp [*])
    | simp at hs

theorem running_step (h : Running s) (hl : HandlesFirst s l) (hs : step s l = some s') :
    Running s' := by
  cases l with
  | main ret =>
    obtain ⟨hc, hi, hw⟩ := mainStep_frame hs
    rcases h with h | ⟨h₁, h₂, h₃⟩
    · exact .inl (hc.trans h)
    · refine .inr ⟨?_, ?_, hi.trans h₃⟩ <;> rcases hw with hw | ⟨hw, -⟩ <;> rw [hw] <;> simp_all
  | work ret =>
    have hc := (workStep_frame hs).2.2.1
    rcases h with h | ⟨h₁, h₂, h₃⟩
    · exact .inl (hc.trans h)
    · unfold step InitLooper.workStep at hs
      dsimp only at hs
      split at hs
      · obtain rfl := Option.some.inj hs
        exact .inr ⟨by simp, by simp, h₃⟩
      · rename_i hw
        have hne := hl hw
        obtain rfl := Option.some.inj hs
        exact .inr ⟨by simp [hne], by simp [hne], h₃⟩
      · split_ifs at hs with hclosed
        exact .inl (hc.trans hclosed)
      · rename_i hw
        exact absurd hw h₁
      · simp at hs
      · simp at hs
  | close =>
    obtain rfl := Option.some.inj hs
    exact .inl rfl

theorem gone_of_not_handlesFirst (hl : ¬ HandlesFirst s l) (hs : step s l = some s') : Gone s' := by
  cases l with
  | work ret =>
    simp only [HandlesFirst, Classical.not_imp, not_not] at hl
    simp only [step, InitLooper.workStep, hl.1, hl.2, Option.some.injEq] at hs
    subst hs
    exact .inr (.inl rfl)
  | main ret => exact absurd trivial hl
  | close => exact absurd trivial hl

theorem gone_step (hi : Inv s) (h : Gone s) (hs : step s l = some s') : Gone s' := by
  cases l with
  | main ret =>
    obtain ⟨hc, -, hw⟩ := mainStep_frame hs
    rcases h with h | h
    · exact .inl (hc.trans h)
    · rcases hw with hw | ⟨-, hm⟩
      · exact .inr (by rwa [hw])
      · rw [hi.early (.inr hm)] at h
        simp at h
  | work ret =>
    have hc := (workStep_frame hs).2.2.1
    rcases h with h | h
    · exact .inl (hc.trans h)
    · unfold step InitLooper.workStep at hs
      rcases h with h | h <;> simp only [h, Option.some.injEq] at hs
      · subst hs
        exact .inr (.inr rfl)
      · simp at hs
  | close =>
    obtain rfl := Option.some.inj hs
    exact .inl rfl

/-- When `InitLooper` has returned true and nobody has called `Close`, the thread is in `uv_run`
with `_is_closed` false exactly if it has called it and the loop then had an active handle. If it
has yet to call it, the call will stay. -/
theorem running_iff {as : List Label} {s : InitLooper} (hr : run step init as = some s)
    (hret : s.main = .returned true) (hclose : s.closeCalled = false) :
    ((s.work = .inUvRun ∧ s.isClosed = false)
        ↔ Meets step HandlesFirst init as ∧ s.work ≠ .inited)
      ∧ (s.work = .inited → s.isClosed = false
        ∧ step s (.work 0) = some { s with work := .inUvRun }) := by
  have hi := invariant (fun _ _ _ (h : Inv _) hs => h.step hs) inv_init hr
  obtain ⟨hnone, hstart⟩ := hi.started (hi.back hret)
  have hne := hi.handles (.inr hret)
  have hopen : ¬ s.closeCalled = true := by simp [hclose]
  rcases run_meets_or (fun _ _ _ (h : Inv _) hs => h.step hs)
    (fun _ _ _ _ h hl hs => running_step h hl hs)
    (fun _ _ _ _ hl hs => gone_of_not_handlesFirst hl hs)
    (fun _ _ _ hi h hs => gone_step hi h hs) inv_init (by simp [Running, init]) hr
    with ⟨hm, hk⟩ | ⟨hm, hb⟩
  · obtain ⟨hafter, hexit, hclosed⟩ := hk.resolve_left hopen
    refine ⟨⟨fun h => ⟨hm, by simp [h.1]⟩, fun h => ⟨?_, hclosed⟩⟩, fun hw => ⟨hclosed, ?_⟩⟩
    · rcases hw : s.work <;> simp_all
    · simp [step, workStep, hw, hne]
  · have hgone := hb.resolve_left hopen
    refine ⟨iff_of_false ?_ (fun h => hm h.1), fun hw => ?_⟩
    · rintro ⟨hw, -⟩
      simp [hw] at hgone
    · simp [hw] at hgone

/-- `InitLooper` goes first, and the thread finds both handles. -/
def handlesFirst : List Label :=
  [.main 0, .main 0, .main 0, .main 0, .work 0, .work 0, .main 0]

theorem running_handlesFirst : ∃ s, run step init handlesFirst = some s
    ∧ ((s.work = .inUvRun ∧ s.isClosed = false)
        ↔ Meets step HandlesFirst init handlesFirst ∧ s.work ≠ .inited)
    ∧ (s.work = .inited → s.isClosed = false
        ∧ step s (.work 0) = some { s with work := .inUvRun }) :=
  ⟨_, rfl, running_iff rfl rfl rfl⟩

/-- The thread goes first: `uv_run` returns at once. -/
def threadFirst : List Label :=
  [.main 0, .main 0, .work 0, .work 0, .work 0, .main 0, .main 0, .main 0]

/-- `InitLooper` can return true with `uv_run` over. -/
theorem not_running : ¬ ∀ (as : List Label) (s : InitLooper), run step init as = some s →
    s.main = .returned true → s.closeCalled = false →
      s.work = .inUvRun ∧ s.isClosed = false := by
  intro h
  obtain ⟨s, hs⟩ := Option.isSome_iff_exists.1 (show (run step init threadFirst).isSome from rfl)
  have hend : run step init threadFirst = some ⟨.returned true, .exited, true, true, false, 2, 0⟩ :=
    by decide
  obtain rfl := Option.some.inj (hs.symm.trans hend)
  have := (h threadFirst _ hs rfl rfl).2
  simp at this

end TestLibuv.InitLooper
