import TestLibuv.Lib.Runs
import TestLibuv.Looper

/-!
# The steps of the looper

`Trans` lists what a step can be, with the guard it passed: proofs about runs split on it.
-/

namespace TestLibuv.CLooper

open Runs

/-- What a step under a label can be. -/
inductive Trans (s : CLooper) : Label → CLooper → Prop
  | createEvent {t : ℕ} {args : EventArgs} : s.pEvent t = none →
      Trans s (.createEvent t args) (s.createEvent t args)
  | pushEvent {t e : ℕ} : s.pEvent t = some e → s.locked = false →
      Trans s (.pushEvent t) (s.pushEvent t e)
  | closeTest {t : ℕ} (c : ℕ → Bool) : Trans s (.closeTest t) { s with inClose := c }
  | closeSend {t : ℕ} : Trans s (.closeSend t) (s.closeSend t)
  | attach : Trans s .attach { s with handles := s.handles + 1 }
  | detach : Trans s .detach { s with handles := s.handles - 1 }
  | eventWakeup : s.workThread = .polling → s.asyncEventHandle.asyncSent = true →
      s.asyncEventHandle.closing = false → Trans s .eventWakeup
        { s with asyncEventHandle := s.asyncEventHandle.wakeup, workThread := .asyncEvent }
  | eventWakeupClosing : s.asyncEventHandle.closing = true →
      Trans s .eventWakeup { s with asyncEventHandle := s.asyncEventHandle.wakeup }
  | lock : s.workThread = .asyncEvent → Trans s .drain { s with workThread := .draining }
  | unlock : s.workThread = .draining → s.eventQueue = [] →
      Trans s .drain { s with workThread := .polling }
  | dispatch {e : ℕ} {rest : List ℕ} : s.workThread = .draining → s.eventQueue = e :: rest →
      Trans s .drain (s.dispatch e)
  | handle {e : ℕ} {op : EventOp} {todo : List EventOp} :
      s.workThread = .handling e (op :: todo) → Trans s .drain (s.handle e op todo)
  | pop {e q : ℕ} {rest : List ℕ} : s.workThread = .handling e [] → s.eventQueue = q :: rest →
      Trans s .drain { s with eventQueue := rest, workThread := .draining }
  | closeWakeup : s.workThread = .polling → s.asyncLooperClose.closing = false →
      Trans s .closeWakeup { s with asyncLooperClose := s.asyncLooperClose.wakeup }.asyncCB
  | closeWakeupClosing : s.asyncLooperClose.closing = true →
      Trans s .closeWakeup { s with asyncLooperClose := s.asyncLooperClose.wakeup }
  | eventEndgame : s.asyncEventHandle.ends = true → Trans s .eventEndgame s.eventEndgame
  | closeEndgame : s.asyncLooperClose.ends = true → Trans s .closeEndgame s.closeEndgame
  | uvRunReturns : s.workThread = .polling → s.activeHandles = 0 →
      Trans s .uvRunReturns { s with workThread := .returned }
  | setClosed : s.workThread = .returned →
      Trans s .setClosed { s with workThread := .exited, isClosed := true }

variable {s s' : CLooper} {l : Label}

theorem drain_trans (h : s.drain = some s') : Trans s .drain s' := by
  unfold drain at h
  split at h
  · rename_i hw
    obtain rfl := Option.some.inj h
    exact .lock hw
  · rename_i hw hq
    obtain rfl := Option.some.inj h
    exact .unlock hw hq
  · rename_i e rest hw hq
    obtain rfl := Option.some.inj h
    exact .dispatch hw hq
  · rename_i e op todo hw
    obtain rfl := Option.some.inj h
    exact .handle hw
  · rename_i e q rest hw hq
    obtain rfl := Option.some.inj h
    exact .pop hw hq
  · simp at h

theorem eventWakeup_trans (hw : s.workThread = .polling) (h : s.eventWakeup = some s') :
    Trans s .eventWakeup s' := by
  unfold eventWakeup at h
  split_ifs at h with hs hc <;> obtain rfl := Option.some.inj h
  · exact .eventWakeupClosing hc
  · exact .eventWakeup hw hs (by simpa using hc)

theorem closeWakeup_trans (hw : s.workThread = .polling) (h : s.closeWakeup = some s') :
    Trans s .closeWakeup s' := by
  unfold closeWakeup at h
  split_ifs at h with hs hc <;> obtain rfl := Option.some.inj h
  · exact .closeWakeupClosing hc
  · exact .closeWakeup hw (by simpa using hc)

theorem act_trans (h : s.act l = some s') : Trans s l s' := by
  cases l with
  | createEvent t args =>
    simp only [act] at h
    split_ifs at h with hp
    obtain rfl := Option.some.inj h
    exact .createEvent hp
  | pushEvent t =>
    rcases hp : s.pEvent t with _ | e <;> simp only [act, hp] at h
    · simp at h
    · split_ifs at h with hl
      obtain rfl := Option.some.inj h
      exact .pushEvent hp (by simpa using hl)
  | closeTest t =>
    simp only [act, Option.some.injEq] at h
    subst h
    exact .closeTest _
  | closeSend t =>
    simp only [act] at h
    split_ifs at h
    obtain rfl := Option.some.inj h
    exact .closeSend
  | attach =>
    simp only [act, Option.some.injEq] at h
    subst h
    exact .attach
  | detach =>
    simp only [act] at h
    split_ifs at h
    obtain rfl := Option.some.inj h
    exact .detach
  | eventWakeup =>
    simp only [act] at h
    split_ifs at h with hw
    exact eventWakeup_trans hw h
  | drain => exact drain_trans h
  | closeWakeup =>
    simp only [act] at h
    split_ifs at h with hw
    exact closeWakeup_trans hw h
  | eventEndgame =>
    simp only [act] at h
    split_ifs at h with hg
    obtain rfl := Option.some.inj h
    exact .eventEndgame hg.2
  | closeEndgame =>
    simp only [act] at h
    split_ifs at h with hg
    obtain rfl := Option.some.inj h
    exact .closeEndgame hg.2
  | uvRunReturns =>
    simp only [act] at h
    split_ifs at h with hg
    obtain rfl := Option.some.inj h
    simp only [loopAlive, Bool.or_eq_false_iff, decide_eq_false_iff_not, not_not] at hg
    exact .uvRunReturns hg.1 hg.2.1.1
  | setClosed =>
    simp only [act] at h
    split_ifs at h with hg
    obtain rfl := Option.some.inj h
    exact .setClosed hg

theorem step_trans (h : step s l = some s') : s.fault = false ∧ Trans s l s' := by
  unfold step at h
  split_ifs at h with hf
  exact ⟨by simpa using hf, act_trans h⟩

end TestLibuv.CLooper
