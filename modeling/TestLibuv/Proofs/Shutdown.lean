import TestLibuv.Proofs.Dispatch

/-!
# What the shutdown loses

`AsyncCB` closes the handle the events travel on, whatever the queue holds: an event that is in
the queue then is never dispatched, and one pushed later is sent on a closing handle. A run that
gets to the end of `uv_run` loses nothing exactly if `AsyncCB` ran on an empty queue and nothing
was pushed after it.
-/

namespace TestLibuv.CLooper

open Runs

/-- `uv_run` has returned. -/
def Returned (s : CLooper) : Prop := s.workThread = .returned ∨ s.workThread = .exited

/-- `AsyncCB` runs on an empty queue and nothing is pushed after it. -/
def Orderly (s : CLooper) (l : Label) : Prop :=
  (l = .closeWakeup → s.asyncLooperClose.closing = false → s.eventQueue = [])
    ∧ ∀ t, l = .pushEvent t → s.asyncEventHandle.closing = false

/-- Nothing is lost: the queue is empty once the handle is closing, and was never sent on since. -/
def Kept (s : CLooper) : Prop :=
  (s.asyncEventHandle.closing = true → s.eventQueue = []) ∧ s.sentClosing = false

/-- An event is lost, or was sent on the closing handle. -/
def Lost (s : CLooper) : Prop :=
  s.sentClosing = true
    ∨ s.asyncEventHandle.closing = true ∧ s.eventQueue ≠ [] ∧ ¬ s.InDrain

variable {s s' : CLooper} {l : Label}

theorem dispatch_frame (e : ℕ) : (s.dispatch e).eventQueue = s.eventQueue
    ∧ (s.dispatch e).asyncEventHandle = s.asyncEventHandle
    ∧ (s.dispatch e).sentClosing = s.sentClosing := by
  unfold CLooper.dispatch
  split
  · split <;> exact ⟨rfl, rfl, rfl⟩
  · exact ⟨rfl, rfl, rfl⟩

theorem handle_sentClosing (e : ℕ) (op : EventOp) (todo : List EventOp) :
    (s.handle e op todo).sentClosing = s.sentClosing := by
  rcases hc : s.events.cells e with _ | ev <;> simp only [CLooper.handle, hc] <;> split_ifs <;> rfl

theorem kept_step (h : Kept s) (hl : Orderly s l) (hs : step s l = some s') : Kept s' := by
  obtain ⟨-, ht⟩ := step_trans hs
  obtain ⟨hq, hsent⟩ := h
  cases ht with
  | @pushEvent t e _ _ =>
    have hopen := hl.2 t rfl
    refine ⟨fun hc => absurd (hc.symm.trans hopen) (by simp), ?_⟩
    show (s.sentClosing || s.asyncEventHandle.closing) = false
    rw [hsent, hopen]
    rfl
  | dispatch _ _ =>
    obtain ⟨hq', ha, hc'⟩ := dispatch_frame (s := s) _
    exact ⟨by rw [ha, hq']; exact hq, hc'.trans hsent⟩
  | handle _ =>
    obtain ⟨hq', ha, -⟩ := handle_frame (s := s) _ _ _
    exact ⟨by rw [ha, hq']; exact hq, (handle_sentClosing _ _ _).trans hsent⟩
  | pop _ hq' =>
    refine ⟨fun hc => ?_, hsent⟩
    have := hq hc
    simp [hq'] at this
  | closeWakeup _ hc =>
    have hempty := hl.1 rfl hc
    exact ⟨fun _ => hempty, hsent⟩
  | _ => exact ⟨hq, hsent⟩

/-- A step out of order loses an event. -/
theorem lost_of_not_orderly (hl : ¬ Orderly s l) (hs : step s l = some s') : Lost s' := by
  obtain ⟨-, ht⟩ := step_trans hs
  cases ht with
  | @pushEvent t e _ _ =>
    have hc : s.asyncEventHandle.closing = true := by
      by_contra hc
      exact hl ⟨fun h => by simp at h, fun _ _ => by simpa using hc⟩
    refine .inl ?_
    show (s.sentClosing || s.asyncEventHandle.closing) = true
    rw [hc, Bool.or_true]
  | closeWakeup hw hc =>
    refine .inr ⟨rfl, fun hq => hl ⟨fun _ _ => hq, fun t h => by simp at h⟩, ?_⟩
    simp [InDrain, asyncCB, hw]
  | closeWakeupClosing hc =>
    exact absurd ⟨fun _ h => absurd (hc.symm.trans h) (by simp), fun t h => by simp at h⟩ hl
  | _ => exact absurd ⟨fun h => by simp at h, fun t h => by simp at h⟩ hl

theorem not_inDrain_of_eq (h : ¬ s.InDrain) (hw : s'.workThread = s.workThread) : ¬ s'.InDrain := by
  unfold InDrain at h ⊢
  rwa [hw]

/-- What is lost stays lost. -/
theorem lost_step (h : Lost s) (hs : step s l = some s') : Lost s' := by
  obtain ⟨-, ht⟩ := step_trans hs
  rcases h with hsent | ⟨hc, hq, hd⟩
  · refine .inl ?_
    cases ht with
    | pushEvent _ _ =>
      show (s.sentClosing || _) = true
      rw [hsent, Bool.true_or]
    | dispatch _ _ => exact (dispatch_frame _).2.2.trans hsent
    | handle _ => exact (handle_sentClosing _ _ _).trans hsent
    | _ => exact hsent
  · cases ht with
    | pushEvent _ _ => exact .inr ⟨hc, by simp [CLooper.pushEvent], not_inDrain_of_eq hd rfl⟩
    | eventWakeup _ _ hc' => exact absurd (hc.symm.trans hc') (by simp)
    | lock hw => exact absurd (by rw [InDrain, hw]; trivial) hd
    | unlock hw _ => exact absurd (by rw [InDrain, hw]; trivial) hd
    | dispatch hw _ => exact absurd (by rw [InDrain, hw]; trivial) hd
    | handle hw => exact absurd (by rw [InDrain, hw]; trivial) hd
    | pop hw _ => exact absurd (by rw [InDrain, hw]; trivial) hd
    | closeWakeup _ _ => exact .inr ⟨rfl, hq, not_inDrain_of_eq hd rfl⟩
    | uvRunReturns _ _ => exact .inr ⟨hc, hq, by simp [InDrain]⟩
    | setClosed _ => exact .inr ⟨hc, hq, by simp [InDrain]⟩
    | _ => exact .inr ⟨hc, hq, not_inDrain_of_eq hd rfl⟩

theorem waiting_of_returned (h : s.Returned) :
    s.workThread.current = none ∧ s.waiting = s.eventQueue := by
  have hc : s.workThread.current = none := by
    rcases h with h | h <;> rw [h] <;> rfl
  refine ⟨hc, ?_⟩
  unfold waiting
  rw [hc]
  rfl

/-- In a run that gets to the end of `uv_run`, every event was dispatched and freed and none was
sent on the closing handle exactly if `AsyncCB` found the queue empty and nothing was pushed
after it. -/
theorem shutdown_keeps_iff {as : List Label} {s : CLooper} (hr : run step init as = some s)
    (hret : s.Returned) :
    (s.eventQueue = [] ∧ s.dispatched.map Dispatch.event = s.pushed ∧ s.freed = s.pushed
      ∧ s.sentClosing = false) ↔ Meets step Orderly init as := by
  obtain ⟨hl, hw⟩ := invariant (I := fun s => Ledger s ∧ Wakes s)
    (fun _ _ _ h hs => sound_step h hs) ⟨ledger_init, wakes_init⟩ hr
  have hclosing := hw.gone hret
  obtain ⟨hcur, hwait⟩ := waiting_of_returned hret
  rcases run_meets_or (I := fun _ => True) (fun _ _ _ _ _ => trivial)
    (fun _ _ _ _ h hl hs => kept_step h hl hs) (fun _ _ _ _ hl hs => lost_of_not_orderly hl hs)
    (fun _ _ _ _ h hs => lost_step h hs) trivial (by simp [Kept, init]) hr with ⟨hm, hk⟩ | ⟨hm, hb⟩
  · refine iff_of_true ⟨hk.1 hclosing, ?_, ?_, hk.2⟩ hm
    · have horder := hl.order
      rwa [hwait, hk.1 hclosing, List.append_nil] at horder
    · have horder := hl.order
      rwa [hwait, hk.1 hclosing, List.append_nil, ← hl.idle hcur] at horder
  · refine iff_of_false ?_ hm
    rintro ⟨hq, -, -, hsent⟩
    rcases hb with hb | ⟨-, hne, -⟩
    · exact absurd (hsent.symm.trans hb) (by simp)
    · exact hne hq

/-- Two events go through the looper, which is then closed. -/
def sendThenClose : List Label :=
  twoSends ++ [.closeTest 1, .closeSend 1, .closeWakeup, .eventEndgame, .closeEndgame,
    .uvRunReturns]

theorem shutdown_keeps_sendThenClose : ∃ s, run step init sendThenClose = some s ∧ s.Returned
    ∧ ((s.eventQueue = [] ∧ s.dispatched.map Dispatch.event = s.pushed ∧ s.freed = s.pushed
      ∧ s.sentClosing = false) ↔ Meets step Orderly init sendThenClose) := by
  obtain ⟨s, hs⟩ := Option.isSome_iff_exists.1 (show (run step init sendThenClose).isSome from rfl)
  have hret : (run step init sendThenClose).map workThread = some .returned := rfl
  rw [hs] at hret
  have hret' : s.Returned := .inl (Option.some.inj hret)
  exact ⟨s, hs, hret', shutdown_keeps_iff hs hret'⟩

/-- An event is pushed, the looper is closed by another thread, and its wake-up comes first. -/
def closeFirst : List Label :=
  [.createEvent 0 ⟨.write, some [1, 2], [], [], .tcpClient 0⟩, .pushEvent 0, .closeTest 1,
    .closeSend 1, .closeWakeup, .eventWakeup, .eventEndgame, .closeEndgame, .uvRunReturns]

/-- A run can get to the end of `uv_run` with an event still in the queue. -/
theorem shutdown_loses : ¬ ∀ (as : List Label) (s : CLooper), run step init as = some s →
    s.Returned → s.eventQueue = [] ∧ s.sentClosing = false := by
  intro h
  obtain ⟨s, hs⟩ := Option.isSome_iff_exists.1 (show (run step init closeFirst).isSome from rfl)
  have hend : (run step init closeFirst).map (fun s => (s.workThread, s.eventQueue))
      = some (.returned, [0]) := rfl
  rw [hs] at hend
  obtain ⟨hw, hq⟩ := Prod.mk.inj (Option.some.inj hend)
  have hempty := (h closeFirst s hs (.inl hw)).1
  rw [hq] at hempty
  simp at hempty

end TestLibuv.CLooper
