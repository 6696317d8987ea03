import Mathlib.Logic.Function.Basic
import TestLibuv.Lib.Heap
import TestLibuv.Packet
import TestLibuv.Uv

/-!
# `TcpServer.cpp`

A `CTcpServer` that listens on a running looper, with its sessions: what the user calls on them,
their events in the looper's queue, and the callbacks libuv makes. Contexts, sessions and
`write_param`s are objects on heaps whose addresses are never given out again, so a pointer kept
too long names nothing; following it is a fault. A step is one call or one callback, run to its
end, and `AsyncEvent` dispatches one event a step while it holds the queue's mutex; `CTcpServerCb`
also stops inside the close callback of a session, for the calls the user makes there. The
callbacks of the user are taken to be set, and libuv's calls are given the results the system gives.

A connection is numbered when `uv_accept` takes it, so that the bytes a session's connection
brought can be told from those of the connections its context served before. The counter of the
session ids is one for all servers of a program; of one server alone it is a field.
-/

namespace TestLibuv

open CMem

def maxListSize : ℕ := 20

/-- The object an event's `_data` names: the server, or the session at an address. -/
inductive ServerObj
  | server
  | session (a : ℕ)
  deriving DecidableEq, Repr

/-- What can go wrong inside a call: a freed object or a pointer never set followed, a context freed
while libuv has its handle, an access outside a block, `OnRecvData` not returning, and
`~CTcpClientSession` waiting for a close callback. -/
inductive CallFault
  | badPointer
  | handleFreed (c : ℕ)
  | memory (f : Fault)
  | recvHangs (c : ℕ)
  | destructorWaits (a : ℕ)
  deriving DecidableEq, Repr

/-- What ends a run: an event dispatched to a freed session, or a call. -/
inductive ServerFault
  | deadTarget (a : ℕ)
  | inCall (f : CallFault)
  deriving DecidableEq, Repr

/-- `struct TcpSessionCtx`: of its handle also what `data` names and whether its close callback is
`AfterClientClose`, and the number of the connection it took. -/
structure TcpSessionCtx where
  sessionTcpHandle : UvTcp ℕ
  handleData : Option ℕ
  afterClientClose : Bool
  packet : PacketSync
  clientid : ℤ
  parentClientSession : Option ℕ
  conn : Option ℕ
  deriving DecidableEq, Repr

def allocTcpSessionCtx : TcpSessionCtx where
  sessionTcpHandle := .blank
  handleData := none
  afterClientClose := false
  packet := .new
  clientid := 0
  parentClientSession := none
  conn := none

/-- `class CTcpClientSession`; `_looper` is always set. -/
structure CTcpClientSession where
  clientSessionCtx : ℕ
  isclosed : Bool
  deriving DecidableEq, Repr

/-- A callback of the user, with the session it names. -/
inductive ServerCb
  | newConn (clientid : ℤ) (session : ℕ)
  | recv (packet : List UInt8) (session : Option ℕ)
  | close (clientid : ℤ) (session : ℕ)
  deriving DecidableEq, Repr

/-- `class CTcpServer`, its objects and events, whether `AsyncEvent` holds the mutex, and its
history: the connections taken, those that got a session, the bytes each brought, the callbacks
made with the map that each of them found, the bytes `uv_write` took, and the phase of the handle at
each `uv_tcp_init`. -/
structure CTcpServer where
  packetHead : UInt32
  isClosed : Bool
  errmsg : ErrMsg
  tcpServerHandle : UvPhase
  sId : ℤ
  clientSessionMap : Std.TreeMap ℤ ℕ
  idleTcpClientCtxList : List ℕ
  writeparamList : List ℕ
  ctxs : Heap TcpSessionCtx
  sessions : Heap CTcpClientSession
  params : Heap (WriteParam ℕ)
  events : List (UvEvent ServerObj)
  draining : Bool
  conns : ℕ
  accepted : List (ℕ × ℕ)
  arrivals : List (ℕ × List UInt8)
  callbacks : List ServerCb
  maps : List (Std.TreeMap ℤ ℕ)
  writes : List (ℕ × List UInt8)
  inits : List UvPhase
  fault : Option ServerFault

namespace CTcpServer

/-- The server once it is attached and listening. -/
def started (packhead : UInt32) : CTcpServer where
  packetHead := packhead
  isClosed := false
  errmsg := .empty
  tcpServerHandle := .active
  sId := 0
  clientSessionMap := ∅
  idleTcpClientCtxList := []
  writeparamList := []
  ctxs := .empty
  sessions := .empty
  params := .empty
  events := []
  draining := false
  conns := 0
  accepted := []
  arrivals := []
  callbacks := []
  maps := []
  writes := []
  inits := []
  fault := none

/-- The context at an address. -/
def ctx (s : CTcpServer) (c : ℕ) : Except CallFault TcpSessionCtx :=
  match s.ctxs.cells c with
  | some x => .ok x
  | none => .error .badPointer

/-- The session at an address. -/
def session (s : CTcpServer) (a : ℕ) : Except CallFault CTcpClientSession :=
  match s.sessions.cells a with
  | some p => .ok p
  | none => .error .badPointer

/-- The session a pointer names. -/
def follow (s : CTcpServer) (a : Option ℕ) : Except CallFault (ℕ × CTcpClientSession) :=
  match a with
  | some a => (s.session a).map fun p => (a, p)
  | none => .error .badPointer

/-- The `write_param` at an address. -/
def param (s : CTcpServer) (w : ℕ) : Except CallFault (WriteParam ℕ) :=
  match s.params.cells w with
  | some p => .ok p
  | none => .error .badPointer

def setCtx (s : CTcpServer) (c : ℕ) (x : TcpSessionCtx) : CTcpServer :=
  { s with ctxs := s.ctxs.modify c fun _ => x }

/-- `PushEvent` of an event made with `CreateUvEvent`. -/
def pushEvent (s : CTcpServer) (e : UvEvent ServerObj) : CTcpServer :=
  { s with events := s.events ++ [e] }

/-- The callbacks of the user are called. -/
def report (s : CTcpServer) (cbs : List ServerCb) : CTcpServer :=
  { s with
    callbacks := s.callbacks ++ cbs
    maps := s.maps ++ cbs.map fun _ => s.clientSessionMap }

def freeTcpSessionCtx (s : CTcpServer) (c : ℕ) : Except CallFault CTcpServer := do
  let x ← s.ctx c
  match x.sessionTcpHandle.phase with
  | .blank | .closed => return { s with ctxs := s.ctxs.free c }
  | .active | .closing | .reclosing => throw (.handleFreed c)

/-- A context put on the idle list, or freed where the list is long. -/
def recycle (s : CTcpServer) (c : ℕ) : Except CallFault CTcpServer :=
  if maxListSize < s.idleTcpClientCtxList.length then s.freeTcpSessionCtx c
  else .ok { s with idleTcpClientCtxList := s.idleTcpClientCtxList ++ [c] }

def createSessionId (s : CTcpServer) : ℤ := ofU32 (toU32 s.sId + 1)

/-- The results of the libuv calls `AcceptConnection` makes. -/
structure AcceptResults where
  tcpInit : ℤ
  accept : ℤ
  readStart : ℤ
  deriving DecidableEq, Repr

/-- The context `AcceptConnection` takes from the idle list, or allocates. -/
def takeCtx (s : CTcpServer) : ℕ × CTcpServer :=
  match s.idleTcpClientCtxList with
  | [] => (s.ctxs.next, { s with ctxs := s.ctxs.alloc allocTcpSessionCtx })
  | c :: rest => (c, { s with
      idleTcpClientCtxList := rest
      ctxs := s.ctxs.modify c fun x => { x with parentClientSession := none } })

/-- `InitSession` of a new session on the context, which goes into the map and is reported. -/
def newSession (s : CTcpServer) (c : ℕ) (x : TcpSessionCtx) (conn : ℕ) : CTcpServer :=
  let a := s.sessions.next
  let clientid := s.createSessionId
  { s.setCtx c { x with clientid, handleData := some a, parentClientSession := some a } with
    sId := clientid
    sessions := s.sessions.alloc ⟨c, false⟩
    clientSessionMap := s.clientSessionMap.insertIfNew clientid a
    accepted := s.accepted ++ [(a, conn)] }.report [.newConn clientid a]

/-- `AcceptConnection` behind `uv_accept`, which gave the context's handle a connection. -/
def startSession (s : CTcpServer) (c : ℕ) (x : TcpSessionCtx) (readStart : ℤ) :
    Except CallFault CTcpServer :=
  let conn := s.conns
  let s := { s with conns := s.conns + 1 }
  let x := { x with
    sessionTcpHandle := x.sessionTcpHandle.accept
    conn := some conn
    packet := x.packet.onPackageCBEvent.init s.packetHead }
  let (iret, sessionTcpHandle) := x.sessionTcpHandle.readStart readStart
  let x := { x with sessionTcpHandle }
  if iret ≠ 0 then do
    let x := { x with sessionTcpHandle := x.sessionTcpHandle.close, afterClientClose := false }
    let s ← (s.setCtx c x).recycle c
    return { s with errmsg := .uvError iret }
  else .ok (s.newSession c x conn)

def acceptConnection (s : CTcpServer) (status : ℤ) (r : AcceptResults) :
    Except CallFault CTcpServer :=
  if status ≠ 0 then .ok { s with errmsg := .uvError status }
  else do
    let (c, s) := s.takeCtx
    let x ← s.ctx c
    if r.tcpInit ≠ 0 then
      return { s with
        idleTcpClientCtxList := s.idleTcpClientCtxList ++ [c], errmsg := .uvError r.tcpInit }
    else
      let s := { s with inits := s.inits ++ [x.sessionTcpHandle.phase] }
      let x := { x with sessionTcpHandle := .init }
      if r.accept ≠ 0 then
        return { s.setCtx c x with
          idleTcpClientCtxList := s.idleTcpClientCtxList ++ [c], errmsg := .uvError r.accept }
      else s.startSession c x r.readStart

/-- `CTcpServer::CTcpClientSessionHandleClose` behind the user's callback. The session it deletes
waits in its destructor unless its own handle was closed. -/
def deleteSession (s : CTcpServer) (clientid : ℤ) (a : ℕ) : Except CallFault CTcpServer := do
  let p ← s.session a
  let s ← s.recycle p.clientSessionCtx
  if p.isclosed then
    return { s with
      sessions := s.sessions.free a
      clientSessionMap := s.clientSessionMap.erase clientid }
  else throw (CallFault.destructorWaits a)

/-- `CTcpServer::CTcpClientSessionHandleClose`, with a callback of the user that makes no call. -/
def cTcpClientSessionHandleClose (s : CTcpServer) (clientid : ℤ) :
    Except CallFault CTcpServer :=
  match s.clientSessionMap[clientid]? with
  | none => .ok s
  | some a => (s.report [.close clientid a]).deleteSession clientid a

/-- The `write_param` `sendinl` takes from the list, or allocates. -/
def takeParam (s : CTcpServer) : ℕ × CTcpServer :=
  match s.writeparamList with
  | [] => (s.params.next, { s with params := s.params.alloc (allocWriteParam packBufferSize) })
  | w :: rest => (w, { s with writeparamList := rest })

/-- `CTcpServer::sendinl` to the session of a context. -/
def sendinl (s : CTcpServer) (buff : List UInt8) (c : ℕ) (res : ℤ) :
    Except CallFault (Bool × CTcpServer) := do
  let (w, s) := s.takeParam
  let p ← s.param w
  let size := toU32 buff.length
  match memcpy (p.buf.reserve size).base 0 buff with
  | .error f => throw (.memory f)
  | .ok base =>
    let x ← s.ctx c
    let s := { s with params := s.params.modify w fun _ => ⟨⟨base, size⟩, x.parentClientSession⟩ }
    let (iret, sessionTcpHandle) := x.sessionTcpHandle.write w res
    if iret ≠ 0 then
      return (false, { s with
        writeparamList := s.writeparamList ++ [w], errmsg := .text "send data error." })
    else
      return (true, { s.setCtx c { x with sessionTcpHandle } with
        writes := s.writes ++ [(c, base.take size.toNat)] })

/-- The loops of `broadcastinl` over the sessions, the second one where there are ids to leave out,
given the results of its calls of `uv_write`. -/
def broadcastLoop (buff : List UInt8) : List (ℤ × ℕ) → List ℤ → List ℤ → CTcpServer →
    Except CallFault CTcpServer
  | [], _, _, s => .ok s
  | (id, a) :: rest, excludeidList, res, s =>
    if id ∈ excludeidList then broadcastLoop buff rest (excludeidList.erase id) res s
    else do
      let p ← s.session a
      let (_, s) ← s.sendinl buff p.clientSessionCtx (res.headD 0)
      broadcastLoop buff rest excludeidList res.tail s

def broadcastinl (s : CTcpServer) (buff : List UInt8) (excludeidList res : List ℤ) :
    Except CallFault CTcpServer :=
  broadcastLoop buff s.clientSessionMap.toList excludeidList res s

def doEvent (s : CTcpServer) (e : UvEvent ServerObj) (res : List ℤ) :
    Except CallFault CTcpServer :=
  match e.type with
  | .broadcast => s.broadcastinl e.bytes e.list res
  | _ => .ok s

def broadcast (s : CTcpServer) (senddata : List UInt8) (excludeid : List ℤ) : CTcpServer :=
  s.pushEvent { (createUvEvent .broadcast (some senddata) : UvEvent ServerObj) with
    data := some .server, list := excludeid }

end CTcpServer

/-! ## The sessions -/

namespace CTcpClientSession

/-- `CreateUvEvent`, `_data` and `PushEvent` of a session's request. -/
def request (s : CTcpServer) (a : ℕ) (type : UvEventType) : CTcpServer :=
  s.pushEvent { (createUvEvent type none : UvEvent ServerObj) with data := some (.session a) }

def close (s : CTcpServer) (a : ℕ) : Except CallFault CTcpServer := do
  let p ← s.session a
  return if p.isclosed then s else request s a .close

def shutDown (s : CTcpServer) (a : ℕ) : Except CallFault CTcpServer := do
  let p ← s.session a
  return if p.isclosed then s else request s a .shutdown

def send (s : CTcpServer) (a : ℕ) (buff : List UInt8) (res : ℤ) :
    Except CallFault CTcpServer := do
  let p ← s.session a
  let (_, s) ← s.sendinl buff p.clientSessionCtx res
  return s

/-- `uv_close(tcp_handle, AfterClientClose)` on a context's handle unless it is closing. -/
def closeHandle (s : CTcpServer) (c : ℕ) (x : TcpSessionCtx) : CTcpServer :=
  if x.sessionTcpHandle.isClosing then s
  else s.setCtx c { x with
    sessionTcpHandle := x.sessionTcpHandle.close, afterClientClose := true }

def closeinl (s : CTcpServer) (a : ℕ) : Except CallFault CTcpServer := do
  let p ← s.session a
  let x ← s.ctx p.clientSessionCtx
  return closeHandle s p.clientSessionCtx x

def shutdowinl (s : CTcpServer) (a : ℕ) : Except CallFault CTcpServer := do
  let p ← s.session a
  let x ← s.ctx p.clientSessionCtx
  return s.setCtx p.clientSessionCtx { x with
    sessionTcpHandle := (x.sessionTcpHandle.shutdown a).2 }

def doEvent (s : CTcpServer) (a : ℕ) (e : UvEvent ServerObj) : Except CallFault CTcpServer :=
  match e.type with
  | .close => closeinl s a
  | .shutdown => shutdowinl s a
  | _ => .ok s

/-- `CTcpClientSession::AfterClientClose` on the handle of a context. -/
def afterClientClose (s : CTcpServer) (c : ℕ) (x : TcpSessionCtx) :
    Except CallFault CTcpServer := do
  let (a, p) ← s.follow x.handleData
  if p.clientSessionCtx = c then
    let s := { s with sessions := s.sessions.modify a fun p => { p with isclosed := true } }
    s.cTcpClientSessionHandleClose x.clientid
  else return s

/-- `CTcpClientSession::AfterShutDown`, its request naming a session. -/
def afterShutDown (s : CTcpServer) (a : ℕ) : Except CallFault CTcpServer := closeinl s a

/-- `CTcpClientSession::AfterRecv` with bytes read on the handle of a context, and the package
callback. -/
def afterRecv (s : CTcpServer) (x : TcpSessionCtx) (data : List UInt8) :
    Except CallFault CTcpServer := do
  let (_, p) ← s.follow x.handleData
  let y ← s.ctx p.clientSessionCtx
  if data = [] then return s
  else
    match y.packet.onRecvData data with
    | none => throw (.recvHangs p.clientSessionCtx)
    | some (.error f) => throw (.memory f)
    | some (.ok (packet, log)) =>
      let cbs := (packet.delivered log).map fun pkt => .recv pkt y.parentClientSession
      return { s.setCtx p.clientSessionCtx { y with packet } with
        arrivals := s.arrivals ++ x.conn.toList.map fun n => (n, data) }.report cbs

/-- `CTcpClientSession::AfterRecv` with an error or the end of the stream. -/
def afterRecvError (s : CTcpServer) (x : TcpSessionCtx) : Except CallFault CTcpServer := do
  let (_, p) ← s.follow x.handleData
  let y ← s.ctx p.clientSessionCtx
  let (b, _) ← s.follow y.parentClientSession
  close s b

def afterSend (s : CTcpServer) (w : ℕ) : Except CallFault CTcpServer := do
  let q ← s.param w
  let (_, p) ← s.follow q.data
  let _ ← s.ctx p.clientSessionCtx
  return if maxListSize < s.writeparamList.length then { s with params := s.params.free w }
    else { s with writeparamList := s.writeparamList ++ [w] }

end CTcpClientSession

/-- The packet a callback passes to the user with a session. -/
def ServerCb.handed (a : ℕ) : ServerCb → Option (List UInt8)
  | .recv packet (some b) => if b = a then some packet else none
  | _ => none

/-! ## The machine -/

namespace CTcpServer

/-- `CLooper::DoEvent` on one event: the virtual `DoEvent` of the object `_data` names. -/
def dispatch (s : CTcpServer) (e : UvEvent ServerObj) (res : List ℤ) :
    Except CallFault CTcpServer :=
  match e.data with
  | some .server => s.doEvent e res
  | some (.session a) => CTcpClientSession.doEvent s a e
  | none => .error .badPointer

/-- The freed session an event's `_data` names. -/
def deadTarget (s : CTcpServer) (e : UvEvent ServerObj) : Option ℕ :=
  match e.data with
  | some (.session a) => if s.sessions.Live a then none else some a
  | _ => none

/-- The walk of `CLooper::AsyncCB` over the contexts from an address on: `OnHandleClose` of the
session that the `data` of a registered handle names. -/
def walk : ℕ → ℕ → CTcpServer → Except CallFault CTcpServer
  | _, 0, s => .ok s
  | c, n + 1, s =>
    match s.ctxs.cells c with
    | none => walk (c + 1) n s
    | some x =>
      match x.sessionTcpHandle.phase with
      | .blank | .closed | .reclosing => walk (c + 1) n s
      | .active | .closing => do
        let _ ← s.follow x.handleData
        walk (c + 1) n (CTcpClientSession.closeHandle s c x)

/-- The walk of `CLooper::AsyncCB`, from the server's handle to the contexts'. -/
def asyncCB (s : CTcpServer) : Except CallFault CTcpServer :=
  walk 0 s.ctxs.next { s with
    tcpServerHandle := if s.tcpServerHandle.isClosing then s.tcpServerHandle else .closing }

def afterServerClose (s : CTcpServer) : CTcpServer :=
  { s with tcpServerHandle := .closed, isClosed := true }

/-- A call of the user, an event dispatched, or a callback. -/
inductive Label
  | close (a : ℕ)
  | shutDown (a : ℕ)
  | send (a : ℕ) (buff : List UInt8) (res : ℤ)
  | broadcast (senddata : List UInt8) (excludeid : List ℤ)
  | acceptConnection (status : ℤ) (r : AcceptResults)
  | afterRecv (c : ℕ) (data : List UInt8)
  | afterRecvError (c : ℕ) (nread : ℤ)
  | afterSend (c i : ℕ)
  | afterShutDown (c : ℕ)
  | handleClosed (c : ℕ)
  | asyncEvent (res : List ℤ)
  | asyncCB
  | afterServerClose
  deriving DecidableEq, Repr

/-- What a label other than the drain does, if it can happen. Sessions are called by users whose
close callback has not run. -/
def act (s : CTcpServer) : Label → Option (Except CallFault CTcpServer)
  | .close a => if s.sessions.Live a then some (CTcpClientSession.close s a) else none
  | .shutDown a => if s.sessions.Live a then some (CTcpClientSession.shutDown s a) else none
  | .send a buff res =>
    if s.sessions.Live a then some (CTcpClientSession.send s a buff res) else none
  | .broadcast senddata excludeid => some (.ok (s.broadcast senddata excludeid))
  | .acceptConnection status r =>
    if s.tcpServerHandle = .active then some (s.acceptConnection status r) else none
  | .afterRecv c data =>
    (s.ctxs.cells c).bind fun x =>
      if x.sessionTcpHandle.reading ∧ data.length ≤ packBufferSize then
        some (CTcpClientSession.afterRecv s x data)
      else none
  | .afterRecvError c nread =>
    (s.ctxs.cells c).bind fun x =>
      if x.sessionTcpHandle.reading ∧ nread < 0 then
        some (CTcpClientSession.afterRecvError (s.setCtx c { x with
          sessionTcpHandle := x.sessionTcpHandle.readError nread }) x)
      else none
  | .afterSend c i =>
    (s.ctxs.cells c).bind fun x => x.sessionTcpHandle.writeReqs[i]?.map fun w =>
      CTcpClientSession.afterSend (s.setCtx c { x with
        sessionTcpHandle := { x.sessionTcpHandle with
          writeReqs := x.sessionTcpHandle.writeReqs.eraseIdx i } }) w
  | .afterShutDown c =>
    (s.ctxs.cells c).bind fun x =>
      if x.sessionTcpHandle.shutdownEnds then
        x.sessionTcpHandle.shutdownReq.map fun a =>
          CTcpClientSession.afterShutDown (s.setCtx c { x with
            sessionTcpHandle := { x.sessionTcpHandle with shutdownReq := none } }) a
      else none
  | .handleClosed c =>
    (s.ctxs.cells c).bind fun x =>
      if x.sessionTcpHandle.ends then
        let s := s.setCtx c { x with sessionTcpHandle := x.sessionTcpHandle.finish }
        some (if x.afterClientClose then CTcpClientSession.afterClientClose s c x else .ok s)
      else none
  | .asyncEvent _ => none
  | .asyncCB => some s.asyncCB
  | .afterServerClose =>
    if s.tcpServerHandle = .closing then some (.ok s.afterServerClose) else none

/-- The state behind what a call did: a fault ends the run. -/
def settle (s : CTcpServer) : Except CallFault CTcpServer → CTcpServer
  | .ok s' => s'
  | .error f => { s with fault := some (.inCall f) }

/-- `AsyncEvent`: it takes the mutex, dispatches and pops event after event, and gives it back. -/
def drain (s : CTcpServer) (res : List ℤ) : CTcpServer :=
  if s.draining then
    match s.events with
    | [] => { s with draining := false }
    | e :: _ =>
      match s.deadTarget e with
      | some a => { s with fault := some (.deadTarget a) }
      | none => s.settle ((s.dispatch e res).map fun s => { s with events := s.events.tail })
  else { s with draining := true }

/-- One step; while `AsyncEvent` holds the mutex only its own. -/
def step (s : CTcpServer) (l : Label) : Option CTcpServer :=
  if s.fault.isSome then none
  else
    match l with
    | .asyncEvent res => some (s.drain res)
    | l => if s.draining then none else (s.act l).map s.settle

/-- The chunks a connection brought. -/
def chunksOf (s : CTcpServer) (n : ℕ) : List (List UInt8) :=
  s.arrivals.filterMap fun r => if r.1 = n then some r.2 else none

/-- The packets passed to the user with a session. -/
def packetsOf (s : CTcpServer) (a : ℕ) : List (List UInt8) := s.callbacks.filterMap (·.handed a)

end CTcpServer

/-! ## The calls in the close callback

Behind the other callbacks of the user there is at most work of a parser left, which no call looks
at, so a call in one of them comes to the same as a call behind it. Behind the close callback
`CTcpClientSessionHandleClose` goes on. -/

/-- A server and, where the close callback of the user runs, the id and the session it names. -/
structure CTcpServerCb where
  server : CTcpServer
  inCloseCb : Option (ℤ × ℕ)

namespace CTcpServer

/-- A call of the user. -/
def Label.isCall : Label → Bool
  | .close _ | .shutDown _ | .send _ _ _ | .broadcast _ _ => true
  | _ => false

/-- The server once `AfterClientClose` on the handle of a context has marked the session it found
there closed, and reported the one under the id of the context. -/
def ended (s : CTcpServer) (c : ℕ) (x : TcpSessionCtx) (a b : ℕ) : CTcpServer :=
  { s.setCtx c { x with sessionTcpHandle := x.sessionTcpHandle.finish } with
    sessions := s.sessions.modify a fun p => { p with isclosed := true } }.report
      [.close x.clientid b]

/-- The close callback that a step makes, by the id and the session it names, and the server it
finds. -/
def closeCb (s : CTcpServer) : Label → Option ((ℤ × ℕ) × CTcpServer)
  | .handleClosed c =>
    (s.ctxs.cells c).bind fun x => x.handleData.bind fun a => (s.sessions.cells a).bind fun p =>
      s.clientSessionMap[x.clientid]?.bind fun b =>
        if x.sessionTcpHandle.ends ∧ x.afterClientClose ∧ p.clientSessionCtx = c then
          some ((x.clientid, b), s.ended c x a b)
        else none
  | _ => none

end CTcpServer

namespace CTcpServerCb

def started (packhead : UInt32) : CTcpServerCb where
  server := .started packhead
  inCloseCb := none

/-- A step of the server as far as the close callback, a call in that, or what is left to do when it
returns. -/
inductive Label
  | server (l : CTcpServer.Label)
  | closeCbReturns
  deriving DecidableEq, Repr

def step (s : CTcpServerCb) : Label → Option CTcpServerCb
  | .server l =>
    if s.inCloseCb.isSome && !l.isCall then none
    else
      (s.server.step l).map fun t =>
        match s.server.closeCb l with
        | some (cb, u) => ⟨u, some cb⟩
        | none => { s with server := t }
  | .closeCbReturns =>
    if s.server.fault.isSome then none
    else
      match s.inCloseCb with
      | some (clientid, a) => some ⟨s.server.settle (s.server.deleteSession clientid a), none⟩
      | none => none

end CTcpServerCb

/-! ## The servers of a program -/

/-- Any number of servers, the `static` counter `s_id` of `CreateSessionId`, which they share, how
often it was counted up, and which of these times it was for a session of a server. -/
structure TcpServers where
  servers : ℕ → Option CTcpServer
  sId : ℤ
  ids : ℕ
  number : ℕ → ℕ → ℕ

namespace TcpServers

def init : TcpServers where
  servers _ := none
  sId := 0
  ids := 0
  number _ _ := 0

/-- A server that is attached and started, or a step of one. -/
inductive Label
  | start (j : ℕ) (packhead : UInt32)
  | server (j : ℕ) (l : CTcpServer.Label)
  deriving DecidableEq, Repr

/-- A server as it takes its step, with the counter. -/
def counting (s : TcpServers) (v : CTcpServer) : CTcpServer := { v with sId := s.sId }

/-- A server's step, from one state of it to the next, with the session it may have started. -/
def stepServer (s : TcpServers) (j : ℕ) (v w : CTcpServer) : TcpServers where
  servers := Function.update s.servers j (some w)
  sId := w.sId
  ids := s.ids + (w.accepted.length - v.accepted.length)
  number :=
    if v.accepted.length < w.accepted.length then
      Function.update s.number j (Function.update (s.number j) v.sessions.next (s.ids + 1))
    else s.number

/-- One step; no two servers count at once. -/
def step (s : TcpServers) : Label → Option TcpServers
  | .start j packhead =>
    if (s.servers j).isSome then none
    else some { s with servers := Function.update s.servers j (some (.started packhead)) }
  | .server j l => (s.servers j).bind fun v => ((s.counting v).step l).map (s.stepServer j v)

end TcpServers

end TestLibuv
