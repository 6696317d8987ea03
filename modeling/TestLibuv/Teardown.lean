import TestLibuv.LoopHandles

/-!
# The destructors

`CLooper::~CLooper` has its loop closed and joins the thread, which returns from `uv_run` once
nothing keeps the loop alive. The objects that were attached still have a pointer to the looper,
and what their destructors call on it is kept as a log. They are deleted in any order.
-/

namespace TestLibuv

/-- A member function of the looper. -/
inductive LooperCall
  | pushEvent
  | close
  deriving DecidableEq, Repr

/-- The calls of `CTcpClient::~CTcpClient` on its looper, which `CTcpClient::Close` makes. -/
def CTcpClient.destructorCalls (s : CTcpClient) : List LooperCall :=
  if !s.isOpening then [] else if s.looper then [.pushEvent] else []

/-- The calls of `CTcpServer::~CTcpServer` on its looper, which a server that listens has. -/
def CTcpServer.destructorCalls (_ : CTcpServer) : List LooperCall := [.close]

/-- The calls of `CUvUdp::~CUvUdp` on its looper. -/
def CUvUdp.destructorCalls (s : CUvUdp) : List LooperCall := if s.loop then [.close] else []

/-! ## `uv__loop_alive` -/

/-- What makes a handle or a request of it count: it is closing, or started, or an endgame or a
request of it is to come. -/
def UvAsync.keepsAlive (h : UvAsync) : Bool := !h.closed || h.ends

def UvTcp.keepsAlive {Write : Type*} (h : UvTcp Write) : Bool :=
  h.phase = .closing || h.phase = .reclosing || h.reading || !h.idle

def UvTimer.keepsAlive (t : UvTimer) : Bool := t.phase = .closing || t.armed.isSome

def UvUdp.keepsAlive (h : UvUdp) : Bool := h.phase = .closing || h.reading || !h.sendReqs.isEmpty

namespace UvLoop

/-- A server's handle listens from the start, and that of the loop's own is not counted. -/
def keepsAlive (s : UvLoop) : UvHandle → Bool
  | .wqAsync => false
  | .asyncLooperClose => s.asyncLooperClose.keepsAlive
  | .asyncEventHandle => s.asyncEventHandle.keepsAlive
  | .tcphandle i => (s.clients i).elim false fun p => p.tcphandle.keepsAlive
  | .connectTimer i => (s.clients i).elim false fun p => p.connectTimer.keepsAlive
  | .tcpServerHandle j => (s.servers j).elim false fun v => v.tcpServerHandle.registered
  | .sessionTcpHandle j c =>
    (s.servers j).elim false fun v =>
      (v.ctxs.cells c).elim false fun x => x.sessionTcpHandle.keepsAlive
  | .udpHandle k => (s.udps k).elim false fun u => u.udpHandle.keepsAlive

/-- `CLooper::~CLooper` joined the thread: `uv_run` has returned, and no callback is running. What
was closed again was taken from `active_handles` again, so that the loop is then not alive with
handles left that would keep it so. -/
structure Joined (s : UvLoop) : Prop where
  closed : s.isClosed = true
  alive : s.closedAgain = 0 → ∀ h, s.keepsAlive h = false
  callbacks : ∀ i p, s.clients i = some p → p.inCloseCb = false

/-- The calls of the destructor of an object. -/
def destructorCalls (s : UvLoop) : HandleData → List LooperCall
  | .tcpClient i => (s.clients i).elim [] CTcpClient.destructorCalls
  | .tcpServer j => (s.servers j).elim [] CTcpServer.destructorCalls
  | .uvUdp k => (s.udps k).elim [] CUvUdp.destructorCalls
  | .looper | .tcpClientSession _ _ => []

/-- The object is gone. -/
def remove (s : UvLoop) : HandleData → UvLoop
  | .tcpClient i => { s with clients := Function.update s.clients i none }
  | .tcpServer j => { s with servers := Function.update s.servers j none }
  | .uvUdp k => { s with udps := Function.update s.udps k none }
  | .looper | .tcpClientSession _ _ => s

end UvLoop

/-- What the thread left, less the objects deleted since, and their calls on the looper that is
gone. -/
structure Teardown where
  loop : UvLoop
  calls : List (HandleData × LooperCall)

namespace Teardown

/-- The looper is destroyed. -/
def begin (s : UvLoop) : Teardown := ⟨s, []⟩

/-- `delete` on an object that was attached. -/
def step (s : Teardown) (o : HandleData) : Option Teardown :=
  match o with
  | .looper | .tcpClientSession _ _ => none
  | _ =>
    if s.loop.alive o then
      some ⟨s.loop.remove o, s.calls ++ (s.loop.destructorCalls o).map (o, ·)⟩
    else none

end Teardown

end TestLibuv
