import TestLibuv.HandleInl
import TestLibuv.ReqInl

/-!
# The async handles of a loop

`async.c` of the vendored libuv on Windows, with what `uv_close`, `uv__poll`, `uv_process_reqs` and
`uv_process_endgames` do to an async handle. `uv_async_send` may be called by any thread at any
time; the exchange of `async_sent` and the post to the completion port are steps of their own, and
so are the two halves of `uv_async_close`. The request of a handle is known by the address of the
handle.
-/

namespace TestLibuv

/-- `uv_async_t`, but what every handle has. -/
structure AsyncHandle where
  asyncSent : Bool
  asyncCb : Option ℕ
  deriving DecidableEq, Repr

/-- What happened to an async handle: a wakeup names the callback that was called, if any was, and
so does a close. -/
inductive AsyncEvent
  | init (a : ℕ)
  | send (a : ℕ)
  | wakeup (a : ℕ) (cb : Option ℕ)
  | closing (a : ℕ)
  | close (a : ℕ) (cb : Option ℕ)
  deriving DecidableEq, Repr

def AsyncEvent.handle : AsyncEvent → ℕ
  | init a | send a | wakeup a _ | closing a | close a _ => a

/-- A loop with its async handles. `pass` is where `uv_process_reqs` is, `inClose` the handle in
`uv_async_close`, `posting` are the requests that the thread that set `async_sent` has still to
post, and `iocp` is the completion port. -/
structure AsyncLoop extends HandleTable where
  asyncs : ℕ → AsyncHandle
  reqs : PendingReqs
  pass : Option ReqsPass
  inClose : Option ℕ
  posting : List ℕ
  iocp : List ℕ
  trace : List AsyncEvent

namespace AsyncLoop

/-- `uv_loop_init` -/
def init : AsyncLoop where
  toHandleTable := .init
  asyncs _ := ⟨false, none⟩
  reqs := ⟨none, fun _ => none⟩
  pass := none
  inClose := none
  posting := []
  iocp := []
  trace := []

def setAsync (s : AsyncLoop) (a : ℕ) (x : AsyncHandle) : AsyncLoop :=
  { s with asyncs := Function.update s.asyncs a x }

def log (s : AsyncLoop) (e : AsyncEvent) : AsyncLoop := { s with trace := s.trace ++ [e] }

/-- `uv_async_init` -/
def asyncInit (s : AsyncLoop) (a : ℕ) (cb : Option ℕ) : AsyncLoop :=
  let s := { s with toHandleTable := s.handleInit a }
  let s := s.setAsync a ⟨false, cb⟩
  { s with toHandleTable := s.handleStart a }.log (.init a)

/-- `uv_async_send` behind its assertion, up to the post. -/
def asyncSend (s : AsyncLoop) (a : ℕ) : AsyncLoop :=
  let sent := (s.asyncs a).asyncSent
  let s := s.setAsync a { s.asyncs a with asyncSent := true }
  { s with posting := if sent then s.posting else s.posting ++ [a] }.log (.send a)

/-- `POST_COMPLETION_FOR_REQ` in `uv_async_send`. -/
def postCompletion (s : AsyncLoop) (a : ℕ) : AsyncLoop :=
  { s with posting := s.posting.erase a, iocp := s.iocp ++ [a] }

/-- `uv_close`, which asserts and returns on a closing handle, and `uv_async_close` up to
`uv__handle_closing`. -/
def close (s : AsyncLoop) (a : ℕ) (cb : Option ℕ) : AsyncLoop :=
  if (s.base a).closing then s
  else
    let s := { s with toHandleTable := s.setBase a { s.base a with closeCb := cb } }
    let s := if (s.asyncs a).asyncSent then s else { s with toHandleTable := s.wantEndgame a }
    { s with inClose := some a }

/-- The rest of `uv_async_close`. -/
def closing (s : AsyncLoop) (a : ℕ) : AsyncLoop :=
  { s with toHandleTable := s.handleClosing a, inClose := none }.log (.closing a)

/-- `uv__poll`, given the first `n` completions. -/
def poll (s : AsyncLoop) (n : ℕ) : AsyncLoop :=
  { s with
    iocp := s.iocp.drop n
    reqs := (s.iocp.take n).foldl PendingReqs.insertPendingReq s.reqs }

/-- `uv_process_async_wakeup_req` -/
def processAsyncWakeupReq (s : AsyncLoop) (a : ℕ) : AsyncLoop :=
  let s := s.setAsync a { s.asyncs a with asyncSent := false }
  if (s.base a).closing then { s with toHandleTable := s.wantEndgame a }.log (.wakeup a none)
  else s.log (.wakeup a (s.asyncs a).asyncCb)

/-- A round of `uv_process_reqs`, or its end. -/
def processReq (s : AsyncLoop) (p : ReqsPass) : AsyncLoop :=
  match p.round s.reqs with
  | none => { s with pass := none }
  | some (a, p) => { s with pass := some p }.processAsyncWakeupReq a

/-- `uv_async_endgame` -/
def asyncEndgame (s : AsyncLoop) (a : ℕ) : AsyncLoop :=
  if (s.base a).closing && !(s.asyncs a).asyncSent then
    { s with toHandleTable := s.handleClose a }.log (.close a (s.base a).closeCb)
  else s

/-- A round of `uv_process_endgames`. -/
def processEndgame (s : AsyncLoop) : Option AsyncLoop :=
  match s.endgameHandles with
  | [] => none
  | a :: rest => some ({ s with toHandleTable := s.popEndgame a rest }.asyncEndgame a)

/-! ## The machine -/

/-- A call of user code, or a step of a sending thread or of the loop. -/
inductive Label
  | init (a : ℕ) (cb : Option ℕ)
  | send (a : ℕ)
  | close (a : ℕ) (cb : Option ℕ)
  | post (a : ℕ)
  | closing
  | poll (n : ℕ)
  | beginPass
  | round
  | endgame
  deriving DecidableEq, Repr

/-- User code makes the call. -/
def Label.isCall : Label → Bool
  | init _ _ | send _ | close _ _ => true
  | _ => false

/-- One step. The thread of the loop makes all of them but `send` and `post`, and is in a callback
of `uv_process_reqs` while that is on its way. -/
def step (s : AsyncLoop) : Label → Option AsyncLoop
  | .init a cb => if s.inClose = none then some (s.asyncInit a cb) else none
  | .send a => some (s.asyncSend a)
  | .close a cb => if s.inClose = none then some (s.close a cb) else none
  | .post a => if a ∈ s.posting then some (s.postCompletion a) else none
  | .closing => s.inClose.map s.closing
  | .poll n =>
    if s.inClose = none ∧ s.pass = none ∧ 1 ≤ n ∧ n ≤ 128 ∧ n ≤ s.iocp.length then some (s.poll n)
    else none
  | .beginPass =>
    if s.inClose = none ∧ s.pass = none then
      s.reqs.beginPass.map fun r => { s with pass := some r.1, reqs := r.2 }
    else none
  | .round => if s.inClose = none then s.pass.map s.processReq else none
  | .endgame => if s.inClose = none ∧ s.pass = none then s.processEndgame else none

/-- What user code keeps to: it initialises no handle that is in use, sends to none that is not
initialised or is closed, as `uv_async_send` asks, and closes none that was never initialised. -/
def Obliging (s : AsyncLoop) : Label → Prop
  | .init a _ => a ≠ handleQueueHead ∧ ((s.base a).ref = true → (s.base a).closed = true)
  | .send a => (s.base a).ref = true ∧ (s.base a).closed = false
  | .close a _ => (s.base a).ref = true
  | _ => True

instance decidableObliging : ∀ (s : AsyncLoop) (l : Label), Decidable (s.Obliging l)
  | s, .init a _ => inferInstanceAs (Decidable (_ ∧ ((s.base a).ref = true → _)))
  | s, .send a => inferInstanceAs (Decidable ((s.base a).ref = true ∧ _))
  | s, .close a _ => inferInstanceAs (Decidable ((s.base a).ref = true))
  | _, .post _ | _, .closing | _, .poll _ | _, .beginPass | _, .round | _, .endgame =>
    .isTrue trivial

end AsyncLoop

end TestLibuv
