import TestLibuv.HandleInl
import TestLibuv.ReqInl
import TestLibuv.Uv

/-!
# The TCP connections of a loop

`tcp.c` and `stream.c` of the vendored libuv on Windows, as far as connections go, with what
`uv_close`, `uv__poll`, `uv_process_reqs` and `uv_process_endgames` do to them. The read request of
a handle is known by the address of the handle, every other by its own. What the system makes of an
overlapped call is given, and so is what the nonblocking reads return; reads are posted without a
buffer, as `uv_active_tcp_streams_threshold` is 0. A function that goes on behind a callback of the
user is two steps, with any calls in between.
-/

namespace TestLibuv

def uvEconnreset : ℤ := -4077

def uvEconnaborted : ℤ := -4079

inductive TcpReqType
  | connect
  | read
  | write
  | shutdown
  deriving DecidableEq, Repr

/-- A request, with the error it reports, if any. -/
structure TcpReq where
  type : TcpReqType
  handle : ℕ
  status : ℤ
  deriving DecidableEq, Repr

/-- `uv_tcp_t`, but what every handle has. `started` is whether reading was started since the handle
was initialised. In the source `reqs_pending` and `write_reqs_pending` are an `unsigned int` each, and
`activecnt` an `int`. They count the handle's read request and requests that user code gave and was
not called back for, and each of these is an object of its own, so none gets to `2 ^ 31`. -/
structure TcpHandle where
  connection : Bool
  readable : Bool
  writable : Bool
  reading : Bool
  readPending : Bool
  reqsPending : ℕ
  writeReqsPending : ℕ
  activecnt : ℕ
  shutdownReq : Option ℕ
  started : Bool
  deriving DecidableEq, Repr

def TcpHandle.blank : TcpHandle := ⟨false, false, false, false, false, 0, 0, 0, none, false⟩

/-- What happened to a TCP handle: the calls that took effect and the callbacks made. -/
inductive TcpEvent
  | init (a : ℕ)
  | connect (a req : ℕ)
  | connected (a req : ℕ) (status : ℤ)
  | accept (a : ℕ)
  | readStart (a : ℕ)
  | recv (a : ℕ)
  | readError (a : ℕ) (nread : ℤ)
  | write (a req : ℕ)
  | written (a req : ℕ) (status : ℤ)
  | shutdown (a req : ℕ)
  | shutdownDone (a req : ℕ) (status : ℤ)
  | closing (a : ℕ)
  | close (a : ℕ) (cb : Option ℕ)
  deriving DecidableEq, Repr

namespace TcpEvent

def handle : TcpEvent → ℕ
  | init a | connect a _ | connected a _ _ | accept a | readStart a | recv a | readError a _
  | write a _ | written a _ _ | shutdown a _ | shutdownDone a _ _ | closing a | close a _ => a

/-- The request that user code gave. -/
def taken : TcpEvent → Option ℕ
  | connect _ req | write _ req | shutdown _ req => some req
  | _ => none

/-- The request whose callback was made. -/
def calledBack : TcpEvent → Option ℕ
  | connected _ req _ | written _ req _ | shutdownDone _ req _ => some req
  | _ => none

end TcpEvent

/-- What the system makes of an overlapped call: it is done at once and there will be no completion
packet, it is under way, or it failed. -/
inductive Submit
  | bypass
  | queued
  | failed (err : ℤ)
  deriving DecidableEq, Repr

/-- What the system reports is no error or one of a socket, which is a negative number and not the
end of the stream. -/
def properStatus (status : ℤ) : Bool := status ≤ 0 && status ≠ uvEof

/-- A call that failed has an error. -/
def Submit.proper : Submit → Bool
  | failed err => err ≠ 0 && properStatus err
  | _ => true

/-- What a nonblocking read returns: some bytes, which fill the buffer or not, or none. -/
inductive RecvResult
  | bytes (full : Bool)
  | eof
  | wouldBlock
  | error (err : ℤ)
  deriving DecidableEq, Repr

/-- Where a function of the loop goes on behind the callback that is being made, and for which
handle. -/
inductive TcpWork
  | done (a : ℕ)
  | read (a : ℕ) (again : Bool)
  | write (a : ℕ)
  | shutdown (a : ℕ)
  deriving DecidableEq, Repr

def TcpWork.handle : TcpWork → ℕ
  | done a | read a _ | write a | shutdown a => a

/-- A loop with its TCP connections. `kernel` are the requests the system has, `work` is where the
loop is in a callback, and `busy` the requests user code gave whose callbacks were not made, as
many as the `unsigned int` `active_reqs` counts. -/
structure TcpLoop extends HandleTable where
  tcps : ℕ → TcpHandle
  reqOf : ℕ → TcpReq
  activeReqs : ℕ
  reqs : PendingReqs
  pass : Option ReqsPass
  kernel : List ℕ
  work : Option TcpWork
  busy : List ℕ
  trace : List TcpEvent

namespace TcpLoop

/-- `uv_loop_init` -/
def init : TcpLoop where
  toHandleTable := .init
  tcps _ := .blank
  reqOf _ := ⟨.read, 0, 0⟩
  activeReqs := 0
  reqs := ⟨none, fun _ => none⟩
  pass := none
  kernel := []
  work := none
  busy := []
  trace := []

def setTcp (s : TcpLoop) (a : ℕ) (x : TcpHandle) : TcpLoop :=
  { s with tcps := Function.update s.tcps a x }

def setReq (s : TcpLoop) (r : ℕ) (x : TcpReq) : TcpLoop :=
  { s with reqOf := Function.update s.reqOf r x }

def log (s : TcpLoop) (e : TcpEvent) : TcpLoop := { s with trace := s.trace ++ [e] }

/-! ## The macros -/

/-- `INCREASE_ACTIVE_COUNT` -/
def increaseActiveCount (s : TcpLoop) (a : ℕ) : TcpLoop :=
  let n := (s.tcps a).activecnt
  let s := s.setTcp a { s.tcps a with activecnt := n + 1 }
  if n = 0 then { s with toHandleTable := s.handleStart a } else s

/-- `DECREASE_ACTIVE_COUNT` -/
def decreaseActiveCount (s : TcpLoop) (a : ℕ) : TcpLoop :=
  let s := s.setTcp a { s.tcps a with activecnt := (s.tcps a).activecnt - 1 }
  if (s.tcps a).activecnt = 0 ∧ (s.base a).closing = false then
    { s with toHandleTable := s.handleStop a }
  else s

/-- `DECREASE_PENDING_REQ_COUNT` -/
def decreasePendingReqCount (s : TcpLoop) (a : ℕ) : TcpLoop :=
  let s := s.setTcp a { s.tcps a with reqsPending := (s.tcps a).reqsPending - 1 }
  if (s.base a).closing = true ∧ (s.tcps a).reqsPending = 0 then
    { s with toHandleTable := s.wantEndgame a }
  else s

/-- `REGISTER_HANDLE_REQ`, for a request that user code gave. -/
def registerHandleReq (s : TcpLoop) (a req : ℕ) : TcpLoop :=
  let s := s.increaseActiveCount a
  { s with activeReqs := s.activeReqs + 1, busy := s.busy ++ [req] }

/-- `UNREGISTER_HANDLE_REQ`, behind which the callback of the request is made. -/
def unregisterHandleReq (s : TcpLoop) (a req : ℕ) : TcpLoop :=
  let s := s.decreaseActiveCount a
  { s with activeReqs := s.activeReqs - 1, busy := s.busy.erase req }

/-- A request behind the overlapped call it was given to. -/
def submit (s : TcpLoop) (req : ℕ) : Submit → TcpLoop
  | .bypass => { s with reqs := s.reqs.insertPendingReq req }
  | .queued => { s with kernel := s.kernel ++ [req] }
  | .failed err =>
    let s := s.setReq req { s.reqOf req with status := err }
    { s with reqs := s.reqs.insertPendingReq req }

/-! ## What the user calls -/

/-- `uv_tcp_init` -/
def tcpInit (s : TcpLoop) (a : ℕ) : TcpLoop :=
  let s := { s with toHandleTable := s.handleInit a }
  let s := s.setTcp a .blank
  (s.setReq a ⟨.read, a, 0⟩).log (.init a)

/-- `uv_tcp_try_connect`, which returns an error before `ConnectEx`, or what that makes of it. -/
def tcpConnect (s : TcpLoop) (a req : ℕ) : Option Submit → TcpLoop
  | none => s
  | some r =>
    let s := s.setReq req ⟨.connect, a, 0⟩
    match r with
    | .failed _ => s
    | r =>
      let s := s.setTcp a { s.tcps a with reqsPending := (s.tcps a).reqsPending + 1 }
      ((s.registerHandleReq a req).submit req r).log (.connect a req)

/-- `uv_tcp_accept` on the side of the client, with a socket that can be set. -/
def tcpAccept (s : TcpLoop) (a : ℕ) : TcpLoop :=
  (s.setTcp a { s.tcps a with connection := true, readable := true, writable := true }).log
    (.accept a)

/-- `uv_tcp_queue_read` -/
def tcpQueueRead (s : TcpLoop) (a : ℕ) (r : Submit) : TcpLoop :=
  let s := s.setReq a { s.reqOf a with status := 0 }
  let s := s.setTcp a { s.tcps a with
    readPending := match r with
      | .failed _ => (s.tcps a).readPending
      | _ => true
    reqsPending := (s.tcps a).reqsPending + 1 }
  s.submit a r

/-- `uv_read_start` -/
def readStart (s : TcpLoop) (a : ℕ) (r : Submit) : TcpLoop :=
  if (s.tcps a).reading then s
  else if !(s.tcps a).readable then s
  else
    let s := s.setTcp a { s.tcps a with reading := true, started := true }
    let s := s.increaseActiveCount a
    let s := if (s.tcps a).readPending then s else s.tcpQueueRead a r
    s.log (.readStart a)

/-- `uv_write` -/
def write (s : TcpLoop) (a req : ℕ) (r : Submit) : TcpLoop :=
  if !(s.tcps a).writable then s
  else
    let s := s.setReq req ⟨.write, a, 0⟩
    let s := s.setTcp a { s.tcps a with
      reqsPending := (s.tcps a).reqsPending + 1
      writeReqsPending := (s.tcps a).writeReqsPending + 1 }
    ((s.registerHandleReq a req).submit req r).log (.write a req)

/-- `uv_shutdown` -/
def shutdown (s : TcpLoop) (a req : ℕ) : TcpLoop :=
  if !(s.tcps a).writable then s
  else
    let s := s.setReq req ⟨.shutdown, a, 0⟩
    let s := s.setTcp a { s.tcps a with
      writable := false
      shutdownReq := some req
      reqsPending := (s.tcps a).reqsPending + 1 }
    let s := s.registerHandleReq a req
    { s with toHandleTable := s.wantEndgame a }.log (.shutdown a req)

/-- `uv_tcp_close` -/
def tcpClose (s : TcpLoop) (a : ℕ) : TcpLoop :=
  let s := if (s.tcps a).reading then
    (s.setTcp a { s.tcps a with reading := false }).decreaseActiveCount a else s
  let s := s.setTcp a { s.tcps a with readable := false, writable := false }
  let s := { s with toHandleTable := s.handleClosing a }
  if (s.tcps a).reqsPending = 0 then { s with toHandleTable := s.wantEndgame a } else s

/-- `uv_close`, which asserts and returns on a closing handle. -/
def close (s : TcpLoop) (a : ℕ) (cb : Option ℕ) : TcpLoop :=
  if (s.base a).closing then s
  else
    let s := { s with toHandleTable := s.setBase a { s.base a with closeCb := cb } }
    (s.tcpClose a).log (.closing a)

/-! ## What the loop does -/

/-- A completion that `uv__poll` got. -/
def complete (s : TcpLoop) (c : ℕ × ℤ) : TcpLoop :=
  let s := s.setReq c.1 { s.reqOf c.1 with status := c.2 }
  { s with kernel := s.kernel.erase c.1, reqs := s.reqs.insertPendingReq c.1 }

/-- `uv__poll`, given the completions it gets. -/
def poll (s : TcpLoop) (done : List (ℕ × ℤ)) : TcpLoop := done.foldl complete s

/-- `uv_process_tcp_connect_req`, given what `setsockopt` returns, up to the callback. -/
def processTcpConnectReq (s : TcpLoop) (a req : ℕ) (res : ℤ) : TcpLoop :=
  let s := s.unregisterHandleReq a req
  let ok := (s.reqOf req).status = 0 ∧ (s.base a).closing = false ∧ res = 0
  let err := if (s.reqOf req).status = 0 then
    if (s.base a).closing then uvEcanceled else res else (s.reqOf req).status
  let s := if ok then s.setTcp a { s.tcps a with
    connection := true, readable := true, writable := true } else s
  { s with work := some (.done a) }.log (.connected a req err)

/-- `uv_process_tcp_write_req` up to the callback. -/
def processTcpWriteReq (s : TcpLoop) (a req : ℕ) : TcpLoop :=
  let s := s.unregisterHandleReq a req
  let err := (s.reqOf req).status
  { s with work := some (.write a) }.log
    (.written a req (if err = uvEconnaborted then uvEcanceled else err))

/-- `uv_process_tcp_read_req` up to its loop, or the callback of an error. -/
def processTcpReadReq (s : TcpLoop) (a : ℕ) : TcpLoop :=
  let s := s.setTcp a { s.tcps a with readPending := false }
  let err := (s.reqOf a).status
  if err = 0 then { s with work := some (.read a true) }
  else if (s.tcps a).reading then
    let s := (s.setTcp a { s.tcps a with reading := false }).decreaseActiveCount a
    { s with work := some (.done a) }.log
      (.readError a (if err = uvEconnaborted then uvEconnreset else err))
  else s.decreasePendingReqCount a

/-- A round of `uv_process_reqs`, or its end. -/
def processReq (s : TcpLoop) (p : ReqsPass) (res : ℤ) : TcpLoop :=
  match p.round s.reqs with
  | none => { s with pass := none }
  | some (req, p) =>
    let s := { s with pass := some p }
    match (s.reqOf req).type with
    | .connect => s.processTcpConnectReq (s.reqOf req).handle req res
    | .read => s.processTcpReadReq (s.reqOf req).handle
    | .write => s.processTcpWriteReq (s.reqOf req).handle req
    | .shutdown => s

/-- A nonblocking read in the loop of `uv_process_tcp_read_req`, up to its callback. -/
def recv (s : TcpLoop) (a : ℕ) : RecvResult → TcpLoop
  | .bytes full => { s with work := some (.read a full) }.log (.recv a)
  | .eof =>
    let s := s.setTcp a { s.tcps a with reading := false, readable := false }
    let s := s.decreaseActiveCount a
    { s with work := some (.read a false) }.log (.readError a uvEof)
  | .wouldBlock => { s with work := some (.read a false) }.log (.recv a)
  | .error err =>
    let s := (s.setTcp a { s.tcps a with reading := false }).decreaseActiveCount a
    { s with work := some (.read a false) }.log
      (.readError a (if err = uvEconnaborted then uvEconnreset else err))

/-- What a function does behind its last callback, given what becomes of the read it may post. -/
def proceed (s : TcpLoop) (r : Submit) (w : TcpWork) : TcpLoop :=
  let s := { s with work := none }
  match w with
  | .done a => s.decreasePendingReqCount a
  | .read a _ =>
    let s := if (s.tcps a).reading ∧ (s.tcps a).readPending = false then s.tcpQueueRead a r else s
    s.decreasePendingReqCount a
  | .write a =>
    let s := s.setTcp a { s.tcps a with writeReqsPending := (s.tcps a).writeReqsPending - 1 }
    let s := if (s.tcps a).shutdownReq.isSome ∧ (s.tcps a).writeReqsPending = 0 then
      { s with toHandleTable := s.wantEndgame a } else s
    s.decreasePendingReqCount a
  | .shutdown a =>
    let s := s.setTcp a { s.tcps a with shutdownReq := none }
    s.decreasePendingReqCount a

/-- The end of `uv_tcp_endgame`. -/
def tcpEnds (s : TcpLoop) (a : ℕ) : TcpLoop :=
  if (s.base a).closing = true ∧ (s.tcps a).reqsPending = 0 then
    { s with toHandleTable := s.handleClose a }.log (.close a (s.base a).closeCb)
  else s

/-- `uv_tcp_endgame`, given what `shutdown` of the socket returns, up to the callback. -/
def tcpEndgame (s : TcpLoop) (a : ℕ) (res : ℤ) : TcpLoop :=
  match (s.tcps a).shutdownReq with
  | some req =>
    if (s.tcps a).connection = true ∧ (s.tcps a).writeReqsPending = 0 then
      let s := s.unregisterHandleReq a req
      let err := if (s.base a).closing then uvEcanceled else res
      { s with work := some (.shutdown a) }.log (.shutdownDone a req err)
    else s.tcpEnds a
  | none => s.tcpEnds a

/-- A round of `uv_process_endgames`. -/
def processEndgame (s : TcpLoop) (res : ℤ) : Option TcpLoop :=
  match s.endgameHandles with
  | [] => none
  | a :: rest => some ({ s with toHandleTable := s.popEndgame a rest }.tcpEndgame a res)

/-- `uv__loop_alive` -/
def loopAlive (s : TcpLoop) : Bool := s.activeReqs > 0 || s.toHandleTable.loopAlive

/-! ## The machine -/

/-- A call of user code, or a step of the loop. -/
inductive Label
  | init (a : ℕ)
  | connect (a req : ℕ) (r : Option Submit)
  | accept (a : ℕ)
  | readStart (a : ℕ) (r : Submit)
  | write (a req : ℕ) (r : Submit)
  | shutdown (a req : ℕ)
  | close (a : ℕ) (cb : Option ℕ)
  | poll (done : List (ℕ × ℤ))
  | beginPass
  | round (res : ℤ)
  | recv (r : RecvResult)
  | proceed (r : Submit)
  | endgame (res : ℤ)
  deriving DecidableEq, Repr

/-- User code makes the call. -/
def Label.isCall : Label → Bool
  | init _ | connect _ _ _ | accept _ | readStart _ _ | write _ _ _ | shutdown _ _
  | close _ _ => true
  | _ => false

/-- A request of this type for the handle waits for its callback. -/
def waits (s : TcpLoop) (a : ℕ) (t : TcpReqType) (req : ℕ) : Bool :=
  (s.reqOf req).handle = a && (s.reqOf req).type = t

/-- The socket of the handle takes no connection: it has one, or is being connected. -/
def taken (s : TcpLoop) (a : ℕ) : Bool :=
  (s.tcps a).connection || s.busy.any (s.waits a .connect)

/-- The loop goes on with its nonblocking reads. -/
def reads (s : TcpLoop) : TcpWork → Bool
  | .read a again => again && (s.tcps a).reading
  | _ => false

/-- What a label does. User code runs in callbacks and between the steps of the loop; the system
makes one connection on a socket, and completes each request once. -/
def act (s : TcpLoop) : Label → Option TcpLoop
  | .init a => some (s.tcpInit a)
  | .connect a req r =>
    if s.taken a ∧ (r = some .bypass ∨ r = some .queued) then none else some (s.tcpConnect a req r)
  | .accept a => if s.taken a then none else some (s.tcpAccept a)
  | .readStart a r => some (s.readStart a r)
  | .write a req r => some (s.write a req r)
  | .shutdown a req => some (s.shutdown a req)
  | .close a cb => some (s.close a cb)
  | .poll done =>
    if s.work = none ∧ s.pass = none ∧ 1 ≤ done.length ∧ done.length ≤ 128
      ∧ (done.map Prod.fst).Nodup ∧ ∀ c ∈ done, c.1 ∈ s.kernel then some (s.poll done)
    else none
  | .beginPass =>
    if s.work = none ∧ s.pass = none then
      s.reqs.beginPass.map fun r => { s with pass := some r.1, reqs := r.2 }
    else none
  | .round res => if s.work = none then s.pass.map (s.processReq · res) else none
  | .recv r =>
    match s.work with
    | some (.read a again) => if s.reads (.read a again) then some (s.recv a r) else none
    | _ => none
  | .proceed r => s.work.bind fun w => if s.reads w then none else some (s.proceed r w)
  | .endgame res => if s.work = none ∧ s.pass = none then s.processEndgame res else none

/-- The system reports what it can. -/
def Label.proper : Label → Bool
  | connect _ _ (some r) | readStart _ r | write _ _ r | proceed r => r.proper
  | poll done => done.all fun c => properStatus c.2
  | round res | endgame res => properStatus res
  | recv (.error err) => err ≠ 0 && properStatus err
  | _ => true

/-- One step. -/
def step (s : TcpLoop) (l : Label) : Option TcpLoop := if l.proper then s.act l else none

/-- The request that user code gives is no handle, nor one it gave before and was not called back
for. -/
def Free (s : TcpLoop) (req : ℕ) : Prop :=
  req ≠ handleQueueHead ∧ ((s.base req).ref = true → (s.base req).closed = true) ∧ req ∉ s.busy

/-- The handle that user code names is initialised, and was not closed. -/
def Open (s : TcpLoop) (a : ℕ) : Prop := (s.base a).ref = true ∧ (s.base a).closing = false

/-- What user code keeps to: it initialises no handle that is in use, gives no request that is in
use, connects and accepts on handles that are open, starts to read once, and closes none that was
never initialised. A read that is started again behind an error is undefined to libuv: it may put
the read request into the queue twice. -/
def Obliging (s : TcpLoop) : Label → Prop
  | .init a => s.Free a
  | .connect a req r => r = none ∨ s.Open a ∧ s.Free req
  | .accept a => s.Open a
  | .readStart a _ => (s.tcps a).started = false
  | .write _ req _ | .shutdown _ req => s.Free req
  | .close a _ => (s.base a).ref = true
  | _ => True

end TcpLoop

end TestLibuv
