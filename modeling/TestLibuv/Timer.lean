import Mathlib.Logic.Function.Basic
import TestLibuv.HeapInl
import TestLibuv.Uv

/-!
# The timers of a loop

`timer.c` of the vendored libuv over the heap of `heap-inl.h`, with what `uv_close` and the endgame
do to a timer. A timer is known by its address, which is also that of its heap node. All of the loop
but the heap is a `TimerTable`. The callbacks are a parameter: what calls on timers a callback
makes, in the state it finds.
-/

namespace TestLibuv

/-- `uv_timer_t`, with its flags. -/
structure TimerHandle where
  ref : Bool
  active : Bool
  closing : Bool
  closed : Bool
  endgameQueued : Bool
  timerCb : Option ℕ
  timeout : ℕ
  repeat_ : ℕ
  startId : ℕ
  deriving DecidableEq, Repr

/-- What `uv_loop_t` has for its timers, but the heap. -/
structure TimerTable where
  time : ℕ
  timerCounter : ℕ
  timers : ℕ → TimerHandle
  activeHandles : UInt32
  endgameHandles : List ℕ

structure TimerLoop extends TimerTable where
  heap : UvHeap

/-- Results of code that may read through a null pointer, or not come to an end. -/
abbrev TimerM := ExceptT NullDeref Option

/-- A call on a timer. -/
inductive TimerCall
  | init (a : ℕ)
  | start (a : ℕ) (cb : Option ℕ) (timeout repeat_ : ℕ)
  | stop (a : ℕ)
  | again (a : ℕ)
  | setRepeat (a : ℕ) (repeat_ : ℕ)
  | close (a : ℕ)
  deriving DecidableEq, Repr

/-- A timer whose callback `uv__run_timers` called, and the calls the callback made. -/
structure Firing where
  handle : ℕ
  timeout : ℕ
  startId : ℕ
  calls : List TimerCall
  deriving DecidableEq, Repr

namespace TimerTable

/-- `uv_loop_init`: no timer is initialised. -/
def init (time : ℕ) : TimerTable where
  time := time
  timerCounter := 0
  timers _ := ⟨false, false, false, false, false, none, 0, 0, 0⟩
  activeHandles := 0
  endgameHandles := []

/-- `timer_less_than`. -/
def timerLessThan (t : TimerTable) (a b : ℕ) : Bool :=
  if (t.timers a).timeout < (t.timers b).timeout then true
  else if (t.timers b).timeout < (t.timers a).timeout then false
  else if (t.timers a).startId < (t.timers b).startId then true
  else if (t.timers b).startId < (t.timers a).startId then false
  else false

def setTimer (t : TimerTable) (a : ℕ) (x : TimerHandle) : TimerTable :=
  { t with timers := Function.update t.timers a x }

/-- `uv__active_handle_add` -/
def activeHandleAdd (t : TimerTable) : TimerTable :=
  { t with activeHandles := t.activeHandles + 1 }

/-- `uv__active_handle_rm` -/
def activeHandleRm (t : TimerTable) : TimerTable :=
  { t with activeHandles := t.activeHandles - 1 }

/-- `uv__handle_start` -/
def handleStart (t : TimerTable) (a : ℕ) : TimerTable :=
  if (t.timers a).active then t
  else
    let t := t.setTimer a { t.timers a with active := true }
    if (t.timers a).ref then t.activeHandleAdd else t

/-- `uv__handle_stop` -/
def handleStop (t : TimerTable) (a : ℕ) : TimerTable :=
  if (t.timers a).active then
    let t := t.setTimer a { t.timers a with active := false }
    if (t.timers a).ref then t.activeHandleRm else t
  else t

/-- `uv_timer_init`; `uv__handle_init` sets the flags. -/
def timerInit (t : TimerTable) (a : ℕ) : TimerTable :=
  t.setTimer a { t.timers a with
    ref := true, active := false, closing := false, closed := false, endgameQueued := false
    timerCb := none, repeat_ := 0 }

/-- `uv_timer_set_repeat` -/
def setRepeat (t : TimerTable) (a repeat_ : ℕ) : TimerTable :=
  t.setTimer a { t.timers a with repeat_ }

/-- `loop->time + timeout`, clamped. -/
def clampedTimeout (t : TimerTable) (timeout : ℕ) : ℕ :=
  if (t.time + timeout) % 2 ^ 64 < timeout then 2 ^ 64 - 1 else (t.time + timeout) % 2 ^ 64

/-- What `uv_timer_start` sets before it inserts the timer. -/
def setStart (t : TimerTable) (a cb timeout repeat_ : ℕ) : TimerTable :=
  { t.setTimer a { t.timers a with
      timerCb := some cb, timeout := t.clampedTimeout timeout, repeat_, startId := t.timerCounter }
    with timerCounter := (t.timerCounter + 1) % 2 ^ 64 }

/-- `uv__handle_closing` -/
def handleClosing (t : TimerTable) (a : ℕ) : TimerTable :=
  let t := if (t.timers a).active && (t.timers a).ref then t else t.activeHandleAdd
  t.setTimer a { t.timers a with closing := true, active := false }

/-- `uv_want_endgame` -/
def wantEndgame (t : TimerTable) (a : ℕ) : TimerTable :=
  if (t.timers a).endgameQueued then t
  else
    { t.setTimer a { t.timers a with endgameQueued := true } with
      endgameHandles := a :: t.endgameHandles }

/-- `uv__handle_close`, up to the callback. -/
def handleClose (t : TimerTable) (a : ℕ) : TimerTable :=
  let t := t.activeHandleRm
  t.setTimer a { t.timers a with closed := true }

/-- `uv__loop_alive`, as far as timers go. -/
def loopAlive (t : TimerTable) : Bool := t.activeHandles > 0 || t.endgameHandles != []

/-- The head of the endgame handles is taken off. -/
def popEndgame (t : TimerTable) (a : ℕ) (rest : List ℕ) : TimerTable :=
  { t.setTimer a { t.timers a with endgameQueued := false } with endgameHandles := rest }

end TimerTable

namespace TimerLoop

def init (time : ℕ) (node : ℕ → HeapNode) : TimerLoop := ⟨.init time, .init node⟩

/-- `uv_timer_stop` -/
def stop (l : TimerLoop) (a : ℕ) : TimerM TimerLoop :=
  if (l.timers a).active then do
    let heap ← .mk (l.heap.remove l.timerLessThan a)
    pure ⟨l.handleStop a, heap⟩
  else pure l

/-- `uv_timer_start` -/
def start (l : TimerLoop) (a : ℕ) (cb : Option ℕ) (timeout repeat_ : ℕ) : TimerM (ℤ × TimerLoop) :=
  match cb with
  | none => pure (uvEinval, l)
  | some cb => do
    let l ← l.stop a
    let t := l.setStart a cb timeout repeat_
    let heap ← .mk (l.heap.insert t.timerLessThan a)
    pure (0, ⟨t.handleStart a, heap⟩)

/-- `uv_timer_again` -/
def again (l : TimerLoop) (a : ℕ) : TimerM (ℤ × TimerLoop) :=
  match (l.timers a).timerCb with
  | none => pure (uvEinval, l)
  | some cb =>
    if (l.timers a).repeat_ = 0 then pure (0, l)
    else do
      let l ← l.stop a
      let (_, l) ← l.start a (some cb) (l.timers a).repeat_ (l.timers a).repeat_
      pure (0, l)

/-- `uv_close`; on a closing handle it asserts and returns. -/
def close (l : TimerLoop) (a : ℕ) : TimerM TimerLoop :=
  if (l.timers a).closing then pure l
  else do
    let l ← l.stop a
    pure { l with toTimerTable := (l.handleClosing a).wantEndgame a }

/-- One round of `uv_process_endgames`, on a timer: the handle whose close callback is called. -/
def processEndgame (l : TimerLoop) : TimerM (Option ℕ × TimerLoop) :=
  match l.endgameHandles with
  | [] => pure (none, l)
  | a :: rest => do
    let l := { l with toTimerTable := l.popEndgame a rest }
    let l ← l.stop a
    pure (some a, { l with toTimerTable := l.handleClose a })

def call (l : TimerLoop) : TimerCall → TimerM TimerLoop
  | .init a => pure { l with toTimerTable := l.timerInit a }
  | .start a cb timeout repeat_ => do
    let (_, l) ← l.start a cb timeout repeat_
    pure l
  | .stop a => l.stop a
  | .again a => do
    let (_, l) ← l.again a
    pure l
  | .setRepeat a repeat_ => pure { l with toTimerTable := l.setRepeat a repeat_ }
  | .close a => l.close a

/-- The calls, one after the other. -/
def calls : TimerLoop → List TimerCall → TimerM TimerLoop
  | l, [] => pure l
  | l, c :: cs => do
    let l ← l.call c
    calls l cs

def intMax : ℕ := 2 ^ 31 - 1

/-- `uv__next_timeout` -/
def nextTimeout (l : TimerLoop) : ℤ :=
  match l.heap.min with
  | none => -1
  | some a =>
    if (l.timers a).timeout ≤ l.time then 0
    else
      let diff := (l.timers a).timeout - l.time
      if intMax < diff then intMax else diff

variable (timerCb : ℕ → ℕ → TimerLoop → List TimerCall)

/-- `uv__run_timers`, at most `n` rounds: the timers that fired. -/
def runTimers : ℕ → TimerLoop → TimerM (List Firing × TimerLoop)
  | 0, _ => .mk none
  | n + 1, l =>
    match l.heap.min with
    | none => pure ([], l)
    | some a =>
      if l.time < (l.timers a).timeout then pure ([], l)
      else do
        let x := l.timers a
        let l ← l.stop a
        let (_, l) ← l.again a
        match (l.timers a).timerCb with
        | none => throw .nullDeref
        | some cb =>
          let cs := timerCb cb a l
          let l ← l.calls cs
          let (fired, l) ← runTimers n l
          pure (⟨a, x.timeout, x.startId, cs⟩ :: fired, l)

end TimerLoop

end TestLibuv
