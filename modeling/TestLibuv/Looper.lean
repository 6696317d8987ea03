import TestLibuv.Lib.Heap
import TestLibuv.Packet

/-!
# `Looper.cpp`

The looper once `InitLooper` has returned with its thread inside `uv_run`: the queue, its mutex, the
two async handles and the loop's thread, against any number of other threads. A thread makes an
event and pushes it; the loop's thread answers a wake-up of `_async_event_handle` by `AsyncEvent`,
which holds the mutex while it hands the events one by one to the `DoEvent` of their objects, and
one of `_async_looper_close` by `AsyncCB`. A drain is taken apart into the calls it makes, so that
other threads come between any two of them.
-/

namespace TestLibuv

/-! ## The async handles -/

/-- A `uv_async_t`; `endgame` says that an endgame of it is to come that finds `async_sent`
clear. -/
structure UvAsync where
  asyncSent : Bool
  closing : Bool
  closed : Bool
  endgame : Bool
  deriving DecidableEq, Repr

namespace UvAsync

/-- `uv_async_init`. -/
def init : UvAsync := ⟨false, false, false, false⟩

/-- `uv_async_send`; on a closing handle its assertion fails. An endgame that comes before the
wakeup does nothing, and the wakeup asks for the next one. -/
def send (h : UvAsync) : UvAsync := { h with asyncSent := true, endgame := false }

/-- `uv_process_async_wakeup_req`, up to the callback. It looks at `UV_HANDLE_CLOSING` alone, so a
handle that was sent on once it was closed gets one more endgame. -/
def wakeup (h : UvAsync) : UvAsync := { h with asyncSent := false, endgame := h.closing }

/-- `uv_close`. -/
def close (h : UvAsync) : UvAsync := { h with closing := true, endgame := !h.asyncSent }

/-- `uv_async_endgame` is called and closes the handle, which may have been closed before. -/
def ends (h : UvAsync) : Bool := h.endgame && h.closing && !h.asyncSent

/-- `uv__handle_close`. -/
def finish (h : UvAsync) : UvAsync := { h with closed := true, endgame := false }

theorem closing_of_ends {h : UvAsync} (he : h.ends = true) : h.closing = true := by
  simp only [ends, Bool.and_eq_true] at he
  exact he.1.2

end UvAsync

/-! ## The objects -/

/-- The objects that override `ILooperEvent::DoEvent`. -/
inductive ILooperEvent
  | tcpClient (n : ℕ)
  | tcpServer (n : ℕ)
  | tcpClientSession (n : ℕ)
  | uvUdp (n : ℕ)
  deriving DecidableEq, Repr

/-- What a `DoEvent` calls. -/
inductive EventOp
  | connectinl
  | closeinl
  | shutdowinl
  | sendinl
  | broadcastinl
  | freeUvEvent
  deriving DecidableEq, Repr

/-- The call is given members of the event. -/
def EventOp.reads : EventOp → Bool
  | sendinl | broadcastinl => true
  | _ => false

/-- `DoEvent` of `CTcpClient`, `CTcpServer`, `CTcpClientSession` and `CUvUdp`. -/
def ILooperEvent.doEvent : ILooperEvent → UvEventType → List EventOp
  | tcpClient _, .connect => [.connectinl, .freeUvEvent]
  | tcpClient _, .close => [.closeinl, .freeUvEvent]
  | tcpClient _, .shutdown => [.shutdowinl, .freeUvEvent]
  | tcpClient _, .write => [.sendinl, .freeUvEvent]
  | tcpServer _, .broadcast => [.broadcastinl, .freeUvEvent]
  | tcpClientSession _, .close => [.closeinl, .freeUvEvent]
  | tcpClientSession _, .shutdown => [.shutdowinl, .freeUvEvent]
  | uvUdp _, .write => [.sendinl, .freeUvEvent]
  | _, _ => [.freeUvEvent]

/-- What the caller of `CreateUvEvent` gives it, and stores in the event before it is pushed. -/
structure EventArgs where
  type : UvEventType
  pBuff : Option (List UInt8)
  list : List ℤ
  addr : List UInt8
  data : ILooperEvent
  deriving DecidableEq, Repr

/-- The event as it is pushed. -/
def EventArgs.event (a : EventArgs) : UvEvent ILooperEvent :=
  let pEvent : UvEvent ILooperEvent := createUvEvent a.type a.pBuff
  { pEvent with list := a.list, addr := a.addr, data := some a.data }

/-! ## The looper -/

/-- Where the loop's thread is. -/
inductive WorkThread
  | polling
  | asyncEvent
  | draining
  | handling (pEvent : ℕ) (todo : List EventOp)
  | returned
  | exited
  deriving DecidableEq, Repr

/-- The event whose handler is running, and the calls the handler has left. -/
def WorkThread.current : WorkThread → Option (ℕ × List EventOp)
  | handling e todo => some (e, todo)
  | _ => none

/-- A call of `ptrClient->DoEvent(pEvent)`. -/
structure Dispatch where
  event : ℕ
  target : ILooperEvent
  contents : UvEvent ILooperEvent
  deriving DecidableEq, Repr

/-- `class CLooper` with its threads: the event each of them has made and not yet pushed, and
whether it is in `Close` past the test. Behind these, the number of other handles on the loop, how
often one of its own handles was closed that had been before, and what has happened so far. -/
structure CLooper where
  eventQueue : List ℕ
  asyncEventHandle : UvAsync
  asyncLooperClose : UvAsync
  isClosed : Bool
  events : Heap (UvEvent ILooperEvent)
  workThread : WorkThread
  pEvent : ℕ → Option ℕ
  inClose : ℕ → Bool
  handles : ℕ
  closedAgain : ℕ
  made : List (ℕ × EventArgs)
  pushed : List ℕ
  dispatched : List Dispatch
  used : List (ℕ × EventOp × UvEvent ILooperEvent)
  freed : List ℕ
  sentClosing : Bool
  fault : Bool

namespace CLooper

/-- After `InitLooper`. -/
def init : CLooper where
  eventQueue := []
  asyncEventHandle := .init
  asyncLooperClose := .init
  isClosed := false
  events := .empty
  workThread := .polling
  pEvent _ := none
  inClose _ := false
  handles := 0
  closedAgain := 0
  made := []
  pushed := []
  dispatched := []
  used := []
  freed := []
  sentClosing := false
  fault := false

/-- The loop's thread holds `_event_queue_mutex`. -/
def locked (s : CLooper) : Bool :=
  match s.workThread with
  | .draining | .handling _ _ => true
  | _ => false

/-- `CreateUvEvent` and the stores behind it, on a thread. -/
def createEvent (s : CLooper) (thread : ℕ) (args : EventArgs) : CLooper :=
  { s with
    events := s.events.alloc args.event
    pEvent := fun t => if t = thread then some s.events.next else s.pEvent t
    made := s.made ++ [(s.events.next, args)] }

/-- `CLooper::PushEvent`, a critical section. -/
def pushEvent (s : CLooper) (thread e : ℕ) : CLooper :=
  { s with
    eventQueue := s.eventQueue ++ [e]
    asyncEventHandle := s.asyncEventHandle.send
    pEvent := fun t => if t = thread then none else s.pEvent t
    pushed := s.pushed ++ [e]
    sentClosing := s.sentClosing || s.asyncEventHandle.closing }

/-- `CLooper::Close` past its test. -/
def closeSend (s : CLooper) (thread : ℕ) : CLooper :=
  { s with
    isClosed := true
    asyncLooperClose := s.asyncLooperClose.send
    inClose := fun t => if t = thread then false else s.inClose t }

/-- `CLooper::AsyncCB`: the walk closes the looper's own handles and has the owners of the others
close theirs. -/
def asyncCB (s : CLooper) : CLooper :=
  { s with
    asyncEventHandle := s.asyncEventHandle.close
    asyncLooperClose := s.asyncLooperClose.close }

/-- `ptrClient->DoEvent(pEvent)` is called on the front of the queue. -/
def dispatch (s : CLooper) (e : ℕ) : CLooper :=
  match s.events.cells e with
  | some ev =>
    match ev.data with
    | some target =>
      { s with
        workThread := .handling e (target.doEvent ev.type)
        dispatched := s.dispatched ++ [⟨e, target, ev⟩] }
    | none => { s with fault := true }
  | none => { s with fault := true }

/-- The next call of the handler. -/
def handle (s : CLooper) (e : ℕ) (op : EventOp) (todo : List EventOp) : CLooper :=
  let s := { s with workThread := .handling e todo }
  match s.events.cells e with
  | some ev =>
    if op = .freeUvEvent then { s with events := s.events.free e, freed := s.freed ++ [e] }
    else if op.reads then { s with used := s.used ++ [(e, op, ev)] }
    else s
  | none => if op = .freeUvEvent ∨ op.reads = true then { s with fault := true } else s

/-- `CLooper::AsyncEvent` and `CLooper::DoEvent`, one step of them. -/
def drain (s : CLooper) : Option CLooper :=
  match s.workThread, s.eventQueue with
  | .asyncEvent, _ => some { s with workThread := .draining }
  | .draining, [] => some { s with workThread := .polling }
  | .draining, e :: _ => some (s.dispatch e)
  | .handling e (op :: todo), _ => some (s.handle e op todo)
  | .handling _ [], _ :: rest => some { s with eventQueue := rest, workThread := .draining }
  | _, _ => none

/-- `uv_process_async_wakeup_req` on `_async_event_handle`. -/
def eventWakeup (s : CLooper) : Option CLooper :=
  if s.asyncEventHandle.asyncSent then
    let s' := { s with asyncEventHandle := s.asyncEventHandle.wakeup }
    some (if s.asyncEventHandle.closing then s' else { s' with workThread := .asyncEvent })
  else none

/-- `uv_process_async_wakeup_req` on `_async_looper_close`. -/
def closeWakeup (s : CLooper) : Option CLooper :=
  if s.asyncLooperClose.asyncSent then
    let s' := { s with asyncLooperClose := s.asyncLooperClose.wakeup }
    some (if s.asyncLooperClose.closing then s' else s'.asyncCB)
  else none

/-- The endgame of `_async_event_handle`. -/
def eventEndgame (s : CLooper) : CLooper :=
  { s with
    asyncEventHandle := s.asyncEventHandle.finish
    closedAgain := s.closedAgain + s.asyncEventHandle.closed.toNat }

/-- The endgame of `_async_looper_close`. -/
def closeEndgame (s : CLooper) : CLooper :=
  { s with
    asyncLooperClose := s.asyncLooperClose.finish
    closedAgain := s.closedAgain + s.asyncLooperClose.closed.toNat }

/-- The counter `active_handles`, which a handle that is closed again is taken from again. -/
def activeHandles (s : CLooper) : ℤ :=
  s.handles + (!s.asyncEventHandle.closed).toNat + (!s.asyncLooperClose.closed).toNat
    - s.closedAgain

/-- `uv__loop_alive`; the counter is unsigned. -/
def loopAlive (s : CLooper) : Bool :=
  s.activeHandles ≠ 0 || s.asyncEventHandle.ends || s.asyncLooperClose.ends

/-- The steps of the threads, of the handles of the objects attached, and of the loop. -/
inductive Label
  | createEvent (thread : ℕ) (args : EventArgs)
  | pushEvent (thread : ℕ)
  | closeTest (thread : ℕ)
  | closeSend (thread : ℕ)
  | attach
  | detach
  | eventWakeup
  | drain
  | closeWakeup
  | eventEndgame
  | closeEndgame
  | uvRunReturns
  | setClosed
  deriving DecidableEq, Repr

/-- What a label does. -/
def act (s : CLooper) : Label → Option CLooper
  | .createEvent t args => if s.pEvent t = none then some (s.createEvent t args) else none
  | .pushEvent t =>
    match s.pEvent t with
    | some e => if s.locked then none else some (s.pushEvent t e)
    | none => none
  | .closeTest t =>
    some { s with inClose := fun u => (u = t && !s.isClosed) || s.inClose u }
  | .closeSend t => if s.inClose t then some (s.closeSend t) else none
  | .attach => some { s with handles := s.handles + 1 }
  | .detach => if s.handles = 0 then none else some { s with handles := s.handles - 1 }
  | .eventWakeup => if s.workThread = .polling then s.eventWakeup else none
  | .drain => s.drain
  | .closeWakeup => if s.workThread = .polling then s.closeWakeup else none
  | .eventEndgame =>
    if s.workThread = .polling ∧ s.asyncEventHandle.ends then some s.eventEndgame else none
  | .closeEndgame =>
    if s.workThread = .polling ∧ s.asyncLooperClose.ends then some s.closeEndgame else none
  | .uvRunReturns =>
    if s.workThread = .polling ∧ s.loopAlive = false then
      some { s with workThread := .returned }
    else none
  | .setClosed =>
    if s.workThread = .returned then some { s with workThread := .exited, isClosed := true }
    else none

/-- One step; none after a fault. -/
def step (s : CLooper) (l : Label) : Option CLooper := if s.fault then none else s.act l

/-- The events in the queue that no `DoEvent` has been called with. -/
def waiting (s : CLooper) : List ℕ :=
  if s.workThread.current.isSome then s.eventQueue.tail else s.eventQueue

/-- `AsyncEvent` is on its way through the queue. -/
def InDrain (s : CLooper) : Prop :=
  match s.workThread with
  | .asyncEvent | .draining | .handling _ _ => True
  | _ => False

end CLooper

end TestLibuv
