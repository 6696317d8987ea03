import Mathlib.Data.UInt
import TestLibuv.Queue

/-!
# What every handle has

The macros and functions of `uv-common.h` and `handle-inl.h` on the flags of a handle, the count of
the active handles, the handle queue and the list of the handles whose endgame is due. A handle is
known by its address, which is also that of its node in the handle queue.
-/

namespace TestLibuv

open DList

/-- The flags of a handle that `handle-inl.h` looks at, and its close callback. -/
structure HandleBase where
  ref : Bool
  active : Bool
  closing : Bool
  closed : Bool
  endgameQueued : Bool
  closeCb : Option ℕ
  deriving DecidableEq, Repr

/-- Where the head of the handle queue is. -/
def handleQueueHead : ℕ := 0

structure HandleTable where
  base : ℕ → HandleBase
  links : Links
  activeHandles : UInt32
  endgameHandles : List ℕ

namespace HandleTable

/-- `uv_loop_init` -/
def init : HandleTable where
  base _ := ⟨false, false, false, false, false, none⟩
  links := queueInit ⟨fun _ => 0, fun _ => 0⟩ handleQueueHead
  activeHandles := 0
  endgameHandles := []

def setBase (t : HandleTable) (a : ℕ) (b : HandleBase) : HandleTable :=
  { t with base := Function.update t.base a b }

/-- `uv__active_handle_add` -/
def activeHandleAdd (t : HandleTable) : HandleTable :=
  { t with activeHandles := t.activeHandles + 1 }

/-- `uv__active_handle_rm` -/
def activeHandleRm (t : HandleTable) : HandleTable :=
  { t with activeHandles := t.activeHandles - 1 }

/-- `uv__handle_init` -/
def handleInit (t : HandleTable) (a : ℕ) : HandleTable :=
  { t.setBase a { t.base a with
      ref := true, active := false, closing := false, closed := false, endgameQueued := false } with
    links := queueInsertTail t.links handleQueueHead a }

/-- `uv__handle_start` -/
def handleStart (t : HandleTable) (a : ℕ) : HandleTable :=
  if (t.base a).active then t
  else
    let t := t.setBase a { t.base a with active := true }
    if (t.base a).ref then t.activeHandleAdd else t

/-- `uv__handle_stop` -/
def handleStop (t : HandleTable) (a : ℕ) : HandleTable :=
  if (t.base a).active then
    let t := t.setBase a { t.base a with active := false }
    if (t.base a).ref then t.activeHandleRm else t
  else t

/-- `uv__handle_closing` -/
def handleClosing (t : HandleTable) (a : ℕ) : HandleTable :=
  let t := if (t.base a).active && (t.base a).ref then t else t.activeHandleAdd
  t.setBase a { t.base a with closing := true, active := false }

/-- `uv_want_endgame` -/
def wantEndgame (t : HandleTable) (a : ℕ) : HandleTable :=
  if (t.base a).endgameQueued then t
  else
    { t.setBase a { t.base a with endgameQueued := true } with
      endgameHandles := a :: t.endgameHandles }

/-- `uv__handle_close`, up to the callback. -/
def handleClose (t : HandleTable) (a : ℕ) : HandleTable :=
  let t := { t with links := queueRemove t.links a }
  let t := t.activeHandleRm
  t.setBase a { t.base a with closed := true }

/-- A round of `uv_process_endgames` up to its `switch`. -/
def popEndgame (t : HandleTable) (a : ℕ) (rest : List ℕ) : HandleTable :=
  { t.setBase a { t.base a with endgameQueued := false } with endgameHandles := rest }

/-- `uv__loop_alive`, as far as handles go. -/
def loopAlive (t : HandleTable) : Bool := t.activeHandles > 0 || t.endgameHandles != []

end HandleTable

end TestLibuv
