import Mathlib.Logic.Function.Basic
import TestLibuv.Looper
import TestLibuv.TcpClient
import TestLibuv.TcpServer
import TestLibuv.Udp

/-!
# The handles of a loop

A looper whose loop runs, with any number of clients, servers and UDP sockets attached to it, and
the handle queue of the loop. Each object takes the steps of its own model, in any order.
`CLooper::AsyncCB` walks the queue, and `CloseWalkCB` finds the object whose `OnHandleClose` it
calls in the `data` of each handle; a `data` that was never set or names an object that is gone is
a fault.
-/

namespace TestLibuv

/-- A handle: the one the loop has for itself, the looper's two, and those of the objects, which are
numbered. -/
inductive UvHandle
  | wqAsync
  | asyncLooperClose
  | asyncEventHandle
  | tcphandle (i : ℕ)
  | connectTimer (i : ℕ)
  | tcpServerHandle (j : ℕ)
  | sessionTcpHandle (j c : ℕ)
  | udpHandle (k : ℕ)
  deriving DecidableEq, Repr

/-- The flag `UV_HANDLE_INTERNAL`. -/
def UvHandle.internal : UvHandle → Bool
  | .wqAsync => true
  | _ => false

/-- What the `data` of a handle names. -/
inductive HandleData
  | looper
  | tcpClient (i : ℕ)
  | tcpServer (j : ℕ)
  | tcpClientSession (j a : ℕ)
  | uvUdp (k : ℕ)
  deriving DecidableEq, Repr

/-- The last argument of `uv_close`. -/
inductive CloseCb
  | null
  | afterHandleClose
  | afterServerClose
  | afterClientClose
  deriving DecidableEq, Repr

/-- The callback that `CloseWalkCB` gives for the looper's handles, and the `OnHandleClose` of an
object for its own. -/
def HandleData.closeCb : HandleData → CloseCb
  | .looper => .null
  | .tcpClient _ => .afterHandleClose
  | .tcpServer _ => .afterServerClose
  | .tcpClientSession _ _ => .afterClientClose
  | .uvUdp _ => .null

/-- A call of `uv_close` in the walk: the object it was made by, and whether the handle was closing
before. -/
structure WalkClose where
  handle : UvHandle
  owner : HandleData
  cb : CloseCb
  wasClosing : Bool
  deriving DecidableEq, Repr

def UvAsync.phase (h : UvAsync) : UvPhase :=
  if h.closed then .closed else if h.closing then .closing else .active

namespace CTcpServer

/-- Where the handle of the context at an address is in its life. -/
def handlePhase (v : CTcpServer) (c : ℕ) : UvPhase :=
  (v.ctxs.cells c).elim .blank fun x => x.sessionTcpHandle.phase

/-- The session its `data` names. -/
def handleData (v : CTcpServer) (c : ℕ) : Option ℕ := (v.ctxs.cells c).bind fun x => x.handleData

/-- `uv_close` on it. -/
def uvClose (v : CTcpServer) (c : ℕ) (cb : CloseCb) : CTcpServer :=
  { v with
    ctxs := v.ctxs.modify c fun x =>
      { x with
        sessionTcpHandle := x.sessionTcpHandle.close
        afterClientClose := decide (cb = .afterClientClose) } }

end CTcpServer

/-- The looper, the objects attached to it, what the `data` of their handles names (a context keeps
that of its own handle), the handle queue, how often `uv__handle_close` took out a handle that was
not in it, the counter that `CreateSessionId` of every server counts up with how often it did, and
the calls of `uv_close` made by the walk. -/
structure UvLoop where
  isClosed : Bool
  asyncLooperClose : UvAsync
  asyncEventHandle : UvAsync
  clients : ℕ → Option CTcpClient
  servers : ℕ → Option CTcpServer
  udps : ℕ → Option CUvUdp
  data : UvHandle → Option HandleData
  handleQueue : List UvHandle
  closedAgain : ℕ
  sId : ℤ
  ids : ℕ
  walkCloses : List WalkClose
  fault : Bool

namespace UvLoop

/-- After `InitLooper`. The constructor of a `CUvUdp` sets the `data` of its handle. -/
def init : UvLoop where
  isClosed := false
  asyncLooperClose := .init
  asyncEventHandle := .init
  clients _ := none
  servers _ := none
  udps _ := none
  data
    | .asyncLooperClose | .asyncEventHandle => some .looper
    | .udpHandle k => some (.uvUdp k)
    | _ => none
  handleQueue := [.wqAsync, .asyncLooperClose, .asyncEventHandle]
  closedAgain := 0
  sId := 0
  ids := 0
  walkCloses := []
  fault := false

/-- Where a handle is in its life. -/
def phase (s : UvLoop) : UvHandle → UvPhase
  | .wqAsync => .active
  | .asyncLooperClose => s.asyncLooperClose.phase
  | .asyncEventHandle => s.asyncEventHandle.phase
  | .tcphandle i => (s.clients i).elim .blank fun p => p.tcphandle.phase
  | .connectTimer i => (s.clients i).elim .blank fun p => p.connectTimer.phase
  | .tcpServerHandle j => (s.servers j).elim .blank fun v => v.tcpServerHandle
  | .sessionTcpHandle j c => (s.servers j).elim .blank fun v => v.handlePhase c
  | .udpHandle k => (s.udps k).elim .blank fun u => u.udpHandle.phase

/-- `handle->data`. -/
def handleData (s : UvLoop) : UvHandle → Option HandleData
  | .sessionTcpHandle j c =>
    ((s.servers j).elim none fun v => v.handleData c).map (.tcpClientSession j)
  | h => s.data h

/-- The object is there. -/
def alive (s : UvLoop) : HandleData → Bool
  | .looper => true
  | .tcpClient i => (s.clients i).isSome
  | .tcpServer j => (s.servers j).isSome
  | .tcpClientSession j a => (s.servers j).elim false fun v => decide (v.sessions.Live a)
  | .uvUdp k => (s.udps k).isSome

/-! ## The walk -/

/-- `uv_close` on a handle. -/
def uvClose (s : UvLoop) (h : UvHandle) (cb : CloseCb) : UvLoop :=
  match h with
  | .wqAsync => s
  | .asyncLooperClose => { s with asyncLooperClose := s.asyncLooperClose.close }
  | .asyncEventHandle => { s with asyncEventHandle := s.asyncEventHandle.close }
  | .tcphandle i =>
    { s with
      clients := Function.update s.clients i
        ((s.clients i).map fun p => { p with tcphandle := p.tcphandle.close }) }
  | .connectTimer i =>
    { s with
      clients := Function.update s.clients i
        ((s.clients i).map fun p => { p with connectTimer := p.connectTimer.close }) }
  | .tcpServerHandle j =>
    { s with
      servers := Function.update s.servers j
        ((s.servers j).map fun v => { v with tcpServerHandle := .closing }) }
  | .sessionTcpHandle j c =>
    { s with
      servers := Function.update s.servers j ((s.servers j).map fun v => v.uvClose c cb) }
  | .udpHandle k =>
    { s with
      udps := Function.update s.udps k
        ((s.udps k).map fun u => { u with udpHandle := u.udpHandle.close }) }

/-- `OnHandleClose` of an object, or what `CloseWalkCB` does with a handle of the looper's own. -/
def onHandleClose (s : UvLoop) (o : HandleData) (h : UvHandle) : UvLoop :=
  if (s.phase h).isClosing then s
  else
    { s.uvClose h o.closeCb with
      walkCloses := s.walkCloses ++ [⟨h, o, o.closeCb, (s.phase h).isClosing⟩] }

/-- `CLooper::CloseWalkCB`. -/
def closeWalkCB (s : UvLoop) (h : UvHandle) : UvLoop :=
  match s.handleData h with
  | some o => if s.alive o then s.onHandleClose o h else { s with fault := true }
  | none => { s with fault := true }

/-- One handle of the loop in `uv_walk`. -/
def walkOne (s : UvLoop) (h : UvHandle) : UvLoop := if h.internal then s else s.closeWalkCB h

/-- `uv_walk`, which puts back every handle it takes from the queue. -/
def uvWalk (s : UvLoop) : UvLoop := s.handleQueue.foldl walkOne s

/-- `CLooper::AsyncCB`. -/
def asyncCB (s : UvLoop) : UvLoop := s.uvWalk

/-! ## The objects -/

/-- The handle queue behind a step of an object that has handles `hs`: `uv__handle_close` takes a
handle out, `uv__handle_init` puts it at the end. -/
def requeue (s : UvLoop) (hs : List UvHandle) : UvLoop :=
  { s with
    handleQueue := s.handleQueue.filter (fun h => (s.phase h).registered)
      ++ hs.filter fun h => (s.phase h).registered && decide (h ∉ s.handleQueue) }

def setClient (s : UvLoop) (i : ℕ) (p : CTcpClient) : UvLoop :=
  { s with clients := Function.update s.clients i (some p) }.requeue
    [.tcphandle i, .connectTimer i]

def setServer (s : UvLoop) (j : ℕ) (v : CTcpServer) : UvLoop :=
  { s with servers := Function.update s.servers j (some v) }.requeue
    (.tcpServerHandle j :: (List.range v.ctxs.next).map (.sessionTcpHandle j))

def setUdp (s : UvLoop) (k : ℕ) (u : CUvUdp) : UvLoop :=
  { s with udps := Function.update s.udps k (some u) }.requeue [.udpHandle k]

/-- `CTcpClient::AttachLooper`, on a new client or one whose handles were closed. `uv_tcp_init` and
`uv_timer_init` only fill in the handle, and do not fail. -/
def attachClient (s : UvLoop) (i : ℕ) (packhead : UInt32) (clientid : ℤ) : UvLoop :=
  let p := ((s.clients i).getD (CTcpClient.new packhead clientid)).attachLooper 0 0
  { s with
    data := Function.update (Function.update s.data (.tcphandle i) (some (.tcpClient i)))
      (.connectTimer i) (some (.tcpClient i)) }.setClient i p.2

/-- `CTcpServer::AttachLooper` and `Start`. -/
def attachServer (s : UvLoop) (j : ℕ) (packhead : UInt32) : UvLoop :=
  { s with
    data := Function.update s.data (.tcpServerHandle j) (some (.tcpServer j)) }.setServer j
      (.started packhead)

/-- `CUvUdp::AttachLooper`, on a new socket or one whose handle was closed. -/
def attachUdp (s : UvLoop) (k : ℕ) : UvLoop :=
  s.setUdp k (((s.udps k).getD .new).attachLooper 0).2

/-! ## The machine -/

/-- What user code attaches, a call of `Close` or the rest of one behind its test, a step of the
looper's handles, or one of an object; and what the queue can be behind the second
`uv__handle_close` of a handle, which unlinks it by the neighbours it had at the first. -/
inductive Label
  | attachClient (i : ℕ) (packhead : UInt32) (clientid : ℤ)
  | attachServer (j : ℕ) (packhead : UInt32)
  | attachUdp (k : ℕ)
  | close
  | closeSend
  | asyncCB
  | closeWakeup
  | eventWakeup
  | closeEndgame
  | eventEndgame
  | client (i : ℕ) (l : CTcpClient.Label)
  | server (j : ℕ) (l : CTcpServer.Label)
  | udp (k : ℕ) (l : CUvUdp.Label)
  | unlinked (handleQueue : List UvHandle)
  deriving DecidableEq, Repr

/-- The step is made by `AsyncEvent`, which a closing `_async_event_handle` does not call. -/
def Label.dispatches : Label → Bool
  | .client _ (.doEvent _) | .server _ (.asyncEvent _) | .udp _ (.doEvent _) => true
  | _ => false

/-- The step stands for `AsyncCB` in the model of an object alone. -/
def Label.walks : Label → Bool
  | .client _ .looperClose | .server _ .asyncCB => true
  | _ => false

/-- The handle that `uv__handle_close` is called with. -/
def Label.handleClose : Label → Option UvHandle
  | .closeEndgame => some .asyncLooperClose
  | .eventEndgame => some .asyncEventHandle
  | .client i .afterHandleCloseBegin => some (.tcphandle i)
  | .client i .timerClosed => some (.connectTimer i)
  | .server j .afterServerClose => some (.tcpServerHandle j)
  | .server j (.handleClosed c) => some (.sessionTcpHandle j c)
  | .udp k .handleClosed => some (.udpHandle k)
  | _ => none

/-- `uv__handle_close` is called with a handle that was closed before. -/
def closesAgain (s : UvLoop) (l : Label) : Bool :=
  l.handleClose.any fun h => !(s.phase h).registered

/-- What the step of an object does to the loop, given the lengths of its share of the event queue
before and behind it: a `PushEvent` wakes the loop up. -/
def stepObject (s : UvLoop) (l : Label) (before after : ℕ) : UvLoop :=
  { s with
    asyncEventHandle :=
      if before < after then s.asyncEventHandle.send else s.asyncEventHandle
    closedAgain := s.closedAgain + (s.closesAgain l).toNat }

/-- A client's step, from one state of it to the next. -/
def stepClient (s : UvLoop) (i : ℕ) (l : CTcpClient.Label) (p q : CTcpClient) : UvLoop :=
  (s.stepObject (.client i l) p.events.length q.events.length).setClient i q

/-- A server's step. -/
def stepServer (s : UvLoop) (j : ℕ) (l : CTcpServer.Label) (v w : CTcpServer) : UvLoop :=
  { s.stepObject (.server j l) v.events.length w.events.length with
    sId := w.sId
    ids := s.ids + (w.accepted.length - v.accepted.length) }.setServer j w

/-- A socket's step. -/
def stepUdp (s : UvLoop) (k : ℕ) (l : CUvUdp.Label) (u w : CUvUdp) : UvLoop :=
  (s.stepObject (.udp k l) u.events.length w.events.length).setUdp k w

/-- `CLooper::Close` past its test. -/
def closeSend (s : UvLoop) : UvLoop :=
  { s with isClosed := true, asyncLooperClose := s.asyncLooperClose.send }

/-- `CLooper::Close`. -/
def close (s : UvLoop) : UvLoop := if s.isClosed then s else s.closeSend

/-- The endgame of `_async_looper_close`. -/
def closeEndgame (s : UvLoop) : UvLoop :=
  { s with
    asyncLooperClose := s.asyncLooperClose.finish
    closedAgain := s.closedAgain + (s.closesAgain .closeEndgame).toNat }.requeue []

/-- The endgame of `_async_event_handle`. -/
def eventEndgame (s : UvLoop) : UvLoop :=
  { s with
    asyncEventHandle := s.asyncEventHandle.finish
    closedAgain := s.closedAgain + (s.closesAgain .eventEndgame).toNat }.requeue []

/-- What a label does. -/
def act (s : UvLoop) : Label → Option UvLoop
  | .attachClient i packhead clientid =>
    if (s.phase (.tcphandle i)).registered || (s.phase (.connectTimer i)).registered then none
    else some (s.attachClient i packhead clientid)
  | .attachServer j packhead =>
    if (s.servers j).isSome then none else some (s.attachServer j packhead)
  | .attachUdp k =>
    if (s.phase (.udpHandle k)).registered then none else some (s.attachUdp k)
  | .close => some s.close
  | .closeSend => some s.closeSend
  | .asyncCB =>
    if s.asyncLooperClose.asyncSent ∧ s.asyncLooperClose.phase = .active then
      some { s with asyncLooperClose := s.asyncLooperClose.wakeup }.asyncCB
    else none
  | .closeWakeup =>
    if s.asyncLooperClose.asyncSent ∧ s.asyncLooperClose.closing then
      some { s with asyncLooperClose := s.asyncLooperClose.wakeup }
    else none
  | .eventWakeup =>
    if s.asyncEventHandle.asyncSent then
      some { s with asyncEventHandle := s.asyncEventHandle.wakeup }
    else none
  | .closeEndgame => if s.asyncLooperClose.ends then some s.closeEndgame else none
  | .eventEndgame => if s.asyncEventHandle.ends then some s.eventEndgame else none
  | .client i l => (s.clients i).bind fun p => (p.step l).map (s.stepClient i l p)
  | .server j l => (s.servers j).bind fun v =>
    ({ v with sId := s.sId }.step l).map (s.stepServer j l v)
  | .udp k l => (s.udps k).bind fun u => (u.step l).map (s.stepUdp k l u)
  | .unlinked handleQueue =>
    if s.closedAgain = 0 then none else some { s with handleQueue }

/-- One step; none after a fault. -/
def step (s : UvLoop) (l : Label) : Option UvLoop :=
  if s.fault || l.walks || (l.dispatches && s.asyncEventHandle.closing) then none else s.act l

/-- The handle is neither internal nor closing. -/
def isOpen (s : UvLoop) (h : UvHandle) : Bool := !h.internal && decide (s.phase h = .active)

end UvLoop

end TestLibuv
