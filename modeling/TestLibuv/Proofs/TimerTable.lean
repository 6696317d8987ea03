import Mathlib.Data.Prod.Lex
import TestLibuv.Timer

/-!
# The timers without the heap

What the calls do to the table alone, as pure functions: `start`, `again`, `close` and `call` say
what the code of the same name is for, and the code is shown to compute them elsewhere. A call
changes no timer but the one it names. With positive timeouts it makes none due.
-/

namespace TestLibuv

/-- Timers that a program can have: they fit in its memory. -/
def timerLimit : ℕ := 2 ^ 31 - 1

namespace TimerCall

/-- The timer it names. -/
def handle : TimerCall → ℕ
  | init a | start a _ _ _ | stop a | again a | setRepeat a _ | close a => a

/-- It may change when the timer fires. -/
def Touches (a : ℕ) : TimerCall → Prop
  | setRepeat _ _ => False
  | c => c.handle = a

/-- It starts no timer with no timeout. -/
def Later : TimerCall → Prop
  | start _ (some _) timeout _ => 0 < timeout
  | _ => True

end TimerCall

namespace TimerTable

def start (t : TimerTable) (a : ℕ) (cb : Option ℕ) (timeout repeat_ : ℕ) : TimerTable :=
  match cb with
  | none => t
  | some cb => ((t.handleStop a).setStart a cb timeout repeat_).handleStart a

def again (t : TimerTable) (a : ℕ) : TimerTable :=
  if (t.timers a).repeat_ = 0 then t
  else t.start a (t.timers a).timerCb (t.timers a).repeat_ (t.timers a).repeat_

def close (t : TimerTable) (a : ℕ) : TimerTable :=
  if (t.timers a).closing then t else ((t.handleStop a).handleClosing a).wantEndgame a

def call (t : TimerTable) : TimerCall → TimerTable
  | .init a => t.timerInit a
  | .start a cb timeout repeat_ => t.start a cb timeout repeat_
  | .stop a => t.handleStop a
  | .again a => t.again a
  | .setRepeat a repeat_ => t.setRepeat a repeat_
  | .close a => t.close a

/-- A round of `uv_process_endgames`. -/
def endgame (t : TimerTable) : TimerTable :=
  match t.endgameHandles with
  | [] => t
  | a :: rest => ((t.popEndgame a rest).handleStop a).handleClose a

def calls : TimerTable → List TimerCall → TimerTable
  | t, [] => t
  | t, c :: cs => (t.call c).calls cs

/-- What the heap is ordered by. -/
def timerKey (t : TimerTable) (a : ℕ) : ℕ ×ₗ ℕ := toLex ((t.timers a).timeout, (t.timers a).startId)

/-- The next iteration is to fire it. -/
def Due (t : TimerTable) (a : ℕ) : Prop :=
  (t.timers a).active = true ∧ (t.timers a).timeout ≤ t.time

/-- The call is one a program may make: on a timer it has, and not to initialise one in use. -/
def Allowed (t : TimerTable) (c : TimerCall) : Prop :=
  c.handle < timerLimit ∧
    match c with
    | .init a => (t.timers a).active = false ∧ ((t.timers a).closing = true →
        (t.timers a).closed = true)
    | _ => True

instance (t : TimerTable) : ∀ c, Decidable (t.Allowed c)
  | .init _ => inferInstanceAs (Decidable (_ ∧ _ ∧ (_ → _)))
  | .start .. | .stop _ | .again _ | .setRepeat .. | .close _ =>
    inferInstanceAs (Decidable (_ ∧ True))

/-- Every call is allowed where it is made. -/
def AllAllowed : TimerTable → List TimerCall → Prop
  | _, [] => True
  | t, c :: cs => t.Allowed c ∧ AllAllowed (t.call c) cs

variable {t : TimerTable} {a b cb timeout repeat_ : ℕ} {x : TimerHandle} {rest : List ℕ}

section Parts

@[simp] theorem timers_setTimer :
    (t.setTimer a x).timers b = if b = a then x else t.timers b := by
  simp only [setTimer, Function.update_apply]

@[simp] theorem time_setTimer : (t.setTimer a x).time = t.time := rfl

@[simp] theorem timerCounter_setTimer : (t.setTimer a x).timerCounter = t.timerCounter := rfl

@[simp] theorem timerCounter_activeHandleRm :
    t.activeHandleRm.timerCounter = t.timerCounter := rfl

@[simp] theorem timers_activeHandleAdd : t.activeHandleAdd.timers = t.timers := rfl

@[simp] theorem time_activeHandleAdd : t.activeHandleAdd.time = t.time := rfl

@[simp] theorem timers_activeHandleRm : t.activeHandleRm.timers = t.timers := rfl

@[simp] theorem time_activeHandleRm : t.activeHandleRm.time = t.time := rfl

@[simp] theorem timers_handleStart : (t.handleStart a).timers b
    = if b = a then { t.timers b with active := true } else t.timers b := by
  rcases ha : (t.timers a).active with _ | _
  · simp only [handleStart, ha, Bool.false_eq_true, if_false, apply_ite timers,
      timers_activeHandleAdd, ite_self, timers_setTimer]
    split_ifs with hb
    · rw [hb]
    · rfl
  · simp only [handleStart, ha, if_true]
    split_ifs with hb
    · rw [hb, ← ha]
    · rfl

@[simp] theorem time_handleStart : (t.handleStart a).time = t.time := by
  simp only [handleStart, apply_ite time, time_activeHandleAdd, time_setTimer, ite_self]

@[simp] theorem timers_handleStop : (t.handleStop a).timers b
    = if b = a then { t.timers b with active := false } else t.timers b := by
  rcases ha : (t.timers a).active with _ | _
  · simp only [handleStop, ha, Bool.false_eq_true, if_false]
    split_ifs with hb
    · rw [hb, ← ha]
    · rfl
  · simp only [handleStop, ha, if_true, apply_ite timers, timers_activeHandleRm, ite_self,
      timers_setTimer]
    split_ifs with hb
    · rw [hb]
    · rfl

@[simp] theorem time_handleStop : (t.handleStop a).time = t.time := by
  simp only [handleStop, apply_ite time, time_activeHandleRm, time_setTimer, ite_self]

@[simp] theorem timers_setStart : (t.setStart a cb timeout repeat_).timers b
    = if b = a then { t.timers a with
        timerCb := some cb, timeout := t.clampedTimeout timeout, repeat_
        startId := t.timerCounter }
      else t.timers b := timers_setTimer

@[simp] theorem time_setStart : (t.setStart a cb timeout repeat_).time = t.time := rfl

@[simp] theorem clampedTimeout_handleStop :
    (t.handleStop a).clampedTimeout timeout = t.clampedTimeout timeout := by
  rw [clampedTimeout, time_handleStop]
  rfl

@[simp] theorem timers_handleClosing : (t.handleClosing a).timers b
    = if b = a then { t.timers b with closing := true, active := false } else t.timers b := by
  simp only [handleClosing, timers_setTimer, apply_ite timers, timers_activeHandleAdd, ite_self]
  split_ifs with hb
  · rw [hb]
  · rfl

@[simp] theorem time_handleClosing : (t.handleClosing a).time = t.time := by
  simp only [handleClosing, time_setTimer, apply_ite time, time_activeHandleAdd, ite_self]

@[simp] theorem timers_wantEndgame : (t.wantEndgame a).timers b
    = if b = a then { t.timers b with endgameQueued := true } else t.timers b := by
  rcases ha : (t.timers a).endgameQueued with _ | _
  · simp only [wantEndgame, ha, Bool.false_eq_true, if_false, timers_setTimer]
    split_ifs with hb
    · rw [hb]
    · rfl
  · simp only [wantEndgame, ha, if_true]
    split_ifs with hb
    · rw [hb, ← ha]
    · rfl

@[simp] theorem time_wantEndgame : (t.wantEndgame a).time = t.time := by
  simp only [wantEndgame, apply_ite time, time_setTimer, ite_self]

@[simp] theorem timers_popEndgame : (t.popEndgame a rest).timers b
    = if b = a then { t.timers b with endgameQueued := false } else t.timers b := by
  simp only [popEndgame, timers_setTimer]
  split_ifs with hb
  · rw [hb]
  · rfl

@[simp] theorem time_popEndgame : (t.popEndgame a rest).time = t.time := rfl

@[simp] theorem timers_handleClose : (t.handleClose a).timers b
    = if b = a then { t.timers b with closed := true } else t.timers b := by
  simp only [handleClose, timers_setTimer, timers_activeHandleRm]
  split_ifs with hb
  · rw [hb]
  · rfl

@[simp] theorem time_handleClose : (t.handleClose a).time = t.time := rfl

@[simp] theorem timerCounter_handleStop : (t.handleStop a).timerCounter = t.timerCounter := by
  simp only [handleStop, apply_ite timerCounter, timerCounter_activeHandleRm,
    timerCounter_setTimer, ite_self]

end Parts

theorem timerLessThan_iff (t : TimerTable) (a b : ℕ) :
    t.timerLessThan a b = true ↔ t.timerKey a < t.timerKey b := by
  simp only [timerLessThan, timerKey, Prod.Lex.toLex_lt_toLex]
  split_ifs <;> simp <;> omega

@[simp] theorem timers_start : (t.start a (some cb) timeout repeat_).timers b
    = if b = a then { t.timers b with
        active := true, timerCb := some cb, timeout := t.clampedTimeout timeout, repeat_
        startId := t.timerCounter }
      else t.timers b := by
  simp only [start, timers_handleStart, timers_setStart, timers_handleStop, if_true,
    clampedTimeout_handleStop, timerCounter_handleStop]
  split_ifs with hb
  · rw [hb]
  · rfl

@[simp] theorem time_start {cb : Option ℕ} : (t.start a cb timeout repeat_).time = t.time := by
  cases cb <;> simp [start]

@[simp] theorem time_call (c : TimerCall) : (t.call c).time = t.time := by
  cases c with
  | init a => rfl
  | start a cb timeout repeat_ => exact time_start
  | stop a => exact time_handleStop
  | again a => simp only [call, again, apply_ite time, time_start, ite_self]
  | setRepeat a repeat_ => rfl
  | close a =>
    simp only [call, close, apply_ite time, time_wantEndgame, time_handleClosing, time_handleStop,
      ite_self]

/-- A call changes no timer but the one it names. -/
theorem timers_call_of_ne {c : TimerCall} (hb : b ≠ c.handle) :
    (t.call c).timers b = t.timers b := by
  cases c with
  | init a => exact timers_setTimer.trans (if_neg hb)
  | start a cb timeout repeat_ =>
    rcases cb with _ | cb
    · rfl
    · exact timers_start.trans (if_neg hb)
  | stop a => exact timers_handleStop.trans (if_neg hb)
  | again a =>
    rw [call, again]
    split_ifs
    · rfl
    rcases (t.timers a).timerCb with _ | cb
    · rfl
    · exact timers_start.trans (if_neg hb)
  | setRepeat a repeat_ => exact timers_setTimer.trans (if_neg hb)
  | close a =>
    have hb : b ≠ a := hb
    simp only [call, close]
    split_ifs
    · rfl
    · simp only [timers_wantEndgame, timers_handleClosing, timers_handleStop, hb, if_false]

theorem lt_clampedTimeout (htime : t.time < 2 ^ 64 - 1) (h : 0 < timeout) :
    t.time < t.clampedTimeout timeout := by
  unfold clampedTimeout
  split_ifs <;> omega

/-- What a call does to the timer it names: nothing, or it starts it, or leaves it inactive, or sets
its repeat value. -/
theorem call_cases (t : TimerTable) (c : TimerCall) : t.call c = t
    ∨ (∃ cb timeout repeat_, t.call c = t.start c.handle (some cb) timeout repeat_
      ∧ (c.Later → 0 < timeout))
    ∨ ((t.call c).timers c.handle).active = false
    ∨ ∃ a repeat_, c = .setRepeat a repeat_ := by
  cases c with
  | init a => exact .inr (.inr (.inl (by simp [call, timerInit, TimerCall.handle])))
  | start a cb timeout repeat_ =>
    rcases cb with _ | cb
    · exact .inl rfl
    · exact .inr (.inl ⟨cb, timeout, repeat_, rfl, id⟩)
  | stop a => exact .inr (.inr (.inl (by simp [call, TimerCall.handle])))
  | again a =>
    by_cases hr : (t.timers a).repeat_ = 0
    · exact .inl (if_pos hr)
    rcases hcb : (t.timers a).timerCb with _ | cb
    · exact .inl (by simp only [call, again, if_neg hr, hcb, start])
    · refine .inr (.inl ⟨cb, (t.timers a).repeat_, (t.timers a).repeat_, ?_, fun _ => by omega⟩)
      simp only [call, again, if_neg hr, hcb, TimerCall.handle]
  | setRepeat a repeat_ => exact .inr (.inr (.inr ⟨a, repeat_, rfl⟩))
  | close a =>
    by_cases hcl : (t.timers a).closing
    · exact .inl (if_pos hcl)
    · exact .inr (.inr (.inl (by simp [call, close, hcl, TimerCall.handle])))

/-- Calls for later make no timer due. -/
theorem due_call {c : TimerCall} (htime : t.time < 2 ^ 64 - 1) (hc : c.Later)
    (hd : (t.call c).Due b) : t.Due b ∧ (t.call c).timerKey b = t.timerKey b := by
  by_cases hb : b = c.handle
  · rcases t.call_cases c with heq | ⟨cb, timeout, repeat_, heq, hlater⟩ | hoff | ⟨a, r, rfl⟩
    · rw [heq] at hd ⊢
      exact ⟨hd, rfl⟩
    · have hle := hd.2
      rw [heq, hb, timers_start, if_pos rfl, time_start] at hle
      exact absurd hle (not_le.2 (lt_clampedTimeout htime (hlater hc)))
    · rw [Due, hb, hoff] at hd
      exact absurd hd.1 (by simp)
    · simp only [call, setRepeat, Due, timerKey, timers_setTimer, time_setTimer] at hd ⊢
      split_ifs at hd ⊢ with hba
      · rw [hba]
        exact ⟨hd, rfl⟩
      · exact ⟨hd, rfl⟩
  · have heq := timers_call_of_ne (t := t) hb
    refine ⟨?_, by rw [timerKey, heq, timerKey]⟩
    rw [Due, heq, time_call] at hd
    exact hd

/-- A call that does not touch a timer leaves it due. -/
theorem Due.call {c : TimerCall} (hd : t.Due b) (hc : ¬c.Touches b) : (t.call c).Due b := by
  by_cases hb : b = c.handle
  · cases c with
    | setRepeat a repeat_ =>
      rw [Due, time_call, hb]
      rw [Due, hb] at hd
      simpa only [TimerTable.call, setRepeat, TimerCall.handle, timers_setTimer, if_true] using hd
    | _ => exact absurd hb.symm hc
  · rw [Due, timers_call_of_ne hb, time_call]
    exact hd

/-- A timer in use has a callback, and is one that the program has. -/
def Armed (t : TimerTable) : Prop :=
  ∀ a, (t.timers a).active = true → (t.timers a).timerCb.isSome = true ∧ a < timerLimit

theorem Armed.call {c : TimerCall} (hg : t.Armed) (hc : c.handle < timerLimit) :
    (t.call c).Armed := by
  intro b hact
  by_cases hb : b = c.handle
  · refine ⟨?_, hb ▸ hc⟩
    rcases t.call_cases c with heq | ⟨cb, timeout, repeat_, heq, -⟩ | hoff | ⟨a, r, rfl⟩
    · rw [heq] at hact ⊢
      exact (hg b hact).1
    · rw [heq, hb, timers_start, if_pos rfl]
      rfl
    · rw [hb, hoff] at hact
      exact absurd hact (by simp)
    · rw [hb] at hact ⊢
      simp only [TimerTable.call, setRepeat, TimerCall.handle, timers_setTimer, if_true] at hact ⊢
      exact (hg a hact).1
  · rw [timers_call_of_ne hb] at hact ⊢
    exact hg b hact

theorem time_calls : ∀ (cs : List TimerCall) (t : TimerTable), (t.calls cs).time = t.time
  | [], _ => rfl
  | c :: cs, t => (time_calls cs (t.call c)).trans (time_call c)

theorem due_calls : ∀ {cs : List TimerCall} {t : TimerTable}, t.time < 2 ^ 64 - 1 →
    (∀ c ∈ cs, c.Later) → (t.calls cs).Due b → t.Due b ∧ (t.calls cs).timerKey b = t.timerKey b
  | [], _, _, _, hd => ⟨hd, rfl⟩
  | c :: cs, t, htime, hcs, hd => by
    rw [List.forall_mem_cons] at hcs
    obtain ⟨hd', hkey⟩ := due_calls (t := t.call c) (by rwa [time_call]) hcs.2 hd
    obtain ⟨hd'', hkey'⟩ := due_call htime hcs.1 hd'
    exact ⟨hd'', hkey.trans hkey'⟩

theorem Due.calls : ∀ {cs : List TimerCall} {t : TimerTable}, t.Due b →
    (∀ c ∈ cs, ¬c.Touches b) → (t.calls cs).Due b
  | [], _, hd, _ => hd
  | _ :: _, _, hd, hcs => by
    rw [List.forall_mem_cons] at hcs
    exact (hd.call hcs.1).calls hcs.2

end TimerTable

end TestLibuv
