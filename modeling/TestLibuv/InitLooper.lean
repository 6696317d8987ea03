import TestLibuv.Lib.Runs
import Mathlib.Data.Int.Order.Basic

/-!
# `CLooper::InitLooper`

`InitLooper` on one thread against the `WorkThread` it starts, which runs `uv_run` as soon as it
is scheduled. A libuv call is one step, with the result it gives; `uv_run` returns at once when
the loop has no active handle, and otherwise not before the handles are closed, which nothing
does before `Close`.
-/

namespace TestLibuv

/-- Where `InitLooper` is: at a libuv call, in its wait for `_inited`, or back. -/
inductive InitPc
  | loopInit
  | threadCreate
  | asyncInitClose
  | asyncInitEvent
  | waiting
  | returned (ok : Bool)
  deriving DecidableEq, Repr

/-- Where the thread is: not started, in `WorkThread` before and after `_inited` is set, in
`uv_run`, back from it, and at its end. -/
inductive WorkPc
  | none
  | start
  | inited
  | inUvRun
  | afterUvRun
  | exited
  deriving DecidableEq, Repr

/-- The looper while it starts: the active handles of its loop and the error code last handed to
`GetUVError`. -/
structure InitLooper where
  main : InitPc
  work : WorkPc
  inited : Bool
  isClosed : Bool
  closeCalled : Bool
  activeHandles : ℕ
  lastError : ℤ
  deriving DecidableEq, Repr

namespace InitLooper

/-- A constructed `CLooper`, at the call of `InitLooper`. -/
def init : InitLooper where
  main := .loopInit
  work := .none
  inited := false
  isClosed := false
  closeCalled := false
  activeHandles := 0
  lastError := 0

/-- A libuv call of `InitLooper` has given `ret`: leave with the error, or go on to `next`. -/
def check (s : InitLooper) (ret : ℤ) (next : InitLooper) : InitLooper :=
  if ret ≠ 0 then { s with main := .returned false, lastError := ret } else next

/-- The next step of `InitLooper`. -/
def mainStep (s : InitLooper) (ret : ℤ) : Option InitLooper :=
  match s.main with
  | .loopInit =>
    let s := { s with inited := false }
    some (s.check ret { s with main := .threadCreate })
  | .threadCreate => some (s.check ret { s with main := .asyncInitClose, work := .start })
  | .asyncInitClose =>
    some (s.check ret { s with main := .asyncInitEvent, activeHandles := s.activeHandles + 1 })
  | .asyncInitEvent =>
    some (s.check ret { s with main := .waiting, activeHandles := s.activeHandles + 1 })
  | .waiting => some (if s.inited then { s with main := .returned true } else s)
  | .returned _ => none

/-- The next step of `WorkThread` and `CLooper::run`. -/
def workStep (s : InitLooper) (ret : ℤ) : Option InitLooper :=
  match s.work with
  | .start => some { s with work := .inited, inited := true }
  | .inited => some { s with work := if s.activeHandles = 0 then .afterUvRun else .inUvRun }
  | .inUvRun => if s.closeCalled then some { s with work := .afterUvRun } else none
  | .afterUvRun =>
    some { s with
      work := .exited, isClosed := true, lastError := if ret ≠ 0 then ret else s.lastError }
  | .none | .exited => none

/-- The steps of the two threads, with the result of the libuv call made, and `CLooper::Close` on
another. -/
inductive Label
  | main (ret : ℤ)
  | work (ret : ℤ)
  | close
  deriving DecidableEq, Repr

def step (s : InitLooper) : Label → Option InitLooper
  | .main ret => s.mainStep ret
  | .work ret => s.workStep ret
  | .close => some { s with isClosed := true, closeCalled := true }

end InitLooper

end TestLibuv
