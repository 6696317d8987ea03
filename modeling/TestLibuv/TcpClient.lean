import TestLibuv.Packet
import TestLibuv.Uv

/-!
# `TcpClient.cpp`

A `CTcpClient` attached to a running looper: what its user calls on any thread, its events in the
looper's queue and their handlers, and the callbacks libuv makes for its handles. A step is one of
these, run to its end; only `AfterHandleClose` is two steps, since the user's close callback runs
before it writes the status. The callbacks of the user are taken to be set, and libuv's calls are
given the results the system gives.

An accepted `Connect` is numbered, and its number goes with the `CONNECT` event, with the request
and with the timer started for it, so that a report can be told to be about it.
-/

namespace TestLibuv

open CMem Framing

inductive TcpStatus
  | none
  | connecting
  | connected
  | connectError
  | connectTimeOut
  deriving DecidableEq, Repr

/-- An event of the client in the looper's queue, with the number of the `Connect` that pushed a
`CONNECT`. -/
structure ClientEvent where
  event : UvEvent Unit
  attempt : ℕ
  deriving DecidableEq, Repr

/-- `class CTcpClient`, its events, where the loop is with it, and its history: the accepted
`Connect`s, the connect callbacks, the close callbacks, the packets received, the handle at each
call of `uv_tcp_connect`, the buffers `Send` took, and those `uv_write` was given with what it
returned. -/
structure CTcpClient where
  connectStatus : TcpStatus
  isWaitClosed : Bool
  looper : Bool
  packetHead : UInt32
  connTimeOut : UInt32
  connectIp : String
  connectPort : ℤ
  isIPv6 : Bool
  errmsg : ErrMsg
  clientid : ℤ
  tcphandle : UvTcp (List UInt8)
  connectTimer : UvTimer
  packet : PacketSync
  events : List ClientEvent
  inCloseCb : Bool
  looperClosed : Bool
  attempts : ℕ
  reports : List (ℕ × TcpStatus)
  closes : List ℤ
  recvs : List (List UInt8)
  connectCalls : List (UvTcp (List UInt8))
  sends : List (List UInt8)
  writeCalls : List (List UInt8 × ℤ)
  fault : Bool
  deriving DecidableEq, Repr

namespace CTcpClient

/-- `CTcpClient::CTcpClient`, given the id it takes. -/
def new (packhead : UInt32) (clientid : ℤ) : CTcpClient where
  connectStatus := .none
  isWaitClosed := true
  looper := false
  packetHead := packhead
  connTimeOut := 30
  connectIp := ""
  connectPort := 0
  isIPv6 := false
  errmsg := .empty
  clientid
  tcphandle := .blank
  connectTimer := .blank
  packet := .new
  events := []
  inCloseCb := false
  looperClosed := false
  attempts := 0
  reports := []
  closes := []
  recvs := []
  connectCalls := []
  sends := []
  writeCalls := []
  fault := false

/-- `CTcpClient::AttachLooper`, given the results of `uv_tcp_init` and `uv_timer_init`. -/
def attachLooper (s : CTcpClient) (tcpInit timerInit : ℤ) : Bool × CTcpClient :=
  let s := { s with looper := true }
  if tcpInit ≠ 0 then (false, { s with errmsg := .uvError tcpInit })
  else
    let s := { s with tcphandle := .init }
    if timerInit ≠ 0 then (false, { s with errmsg := .uvError timerInit })
    else (true, { s with
      connectTimer := .init
      packet := (s.packet.init s.packetHead).onPackageCBEvent
      isWaitClosed := false })

/-- The client once it is attached. -/
def attached (packhead : UInt32) (clientid : ℤ) : CTcpClient :=
  ((new packhead clientid).attachLooper 0 0).2

/-! ## What the user calls -/

/-- `CreateUvEvent`, `_data` and `PushEvent`. -/
def pushEvent (s : CTcpClient) (type : UvEventType) (pBuff : Option (List UInt8))
    (attempt : ℕ) : CTcpClient :=
  let pEvent : UvEvent Unit := createUvEvent type pBuff
  { s with events := s.events ++ [⟨{ pEvent with data := some () }, attempt⟩] }

def connect (s : CTcpClient) (ip : String) (port timeOut : ℤ) (isIPv6 : Bool) :
    Bool × CTcpClient :=
  if s.connectStatus ≠ .none ∧ s.connectStatus ≠ .connectError then (false, s)
  else if s.isWaitClosed then (false, s)
  else
    let s' := { s with
      connTimeOut := toU32 timeOut
      connectIp := ip
      connectPort := port
      isIPv6
      connectStatus := .none
      isWaitClosed := false
      attempts := s.attempts + 1 }
    if s.looper then
      (true, { s' with connectStatus := .connecting }.pushEvent .connect none s.attempts)
    else (true, s')

/-- The status `Close`, `Shutdown` and `closeinl` ask for. -/
def isOpening (s : CTcpClient) : Bool :=
  s.connectStatus = .connected || s.connectStatus = .connecting

def close (s : CTcpClient) : CTcpClient :=
  if !s.isOpening then s else if s.looper then s.pushEvent .close none 0 else s

def shutdown (s : CTcpClient) : CTcpClient :=
  if !s.isOpening then s else if s.looper then s.pushEvent .shutdown none 0 else s

/-- `CreateUvEvent` and `PushEvent` in `CTcpClient::Send`. -/
def pushSend (s : CTcpClient) (buff : List UInt8) : CTcpClient :=
  { s with sends := s.sends ++ [buff] }.pushEvent .write (some buff) 0

def send (s : CTcpClient) (buff : List UInt8) : ℕ × CTcpClient :=
  if s.isWaitClosed ∨ s.connectStatus ≠ .connected then (0, s)
  else if s.looper then (buff.length, s.pushSend buff)
  else (0, s)

/-! ## The handlers -/

/-- The results of the libuv calls a handler makes. -/
structure Results where
  ipAddr : ℤ
  tcpConnect : ℤ
  write : ℤ
  deriving DecidableEq, Repr

/-- Every call succeeds. -/
def Results.ok : Results := ⟨0, 0, 0⟩

def connectinl (s : CTcpClient) (attempt : ℕ) (r : Results) : CTcpClient :=
  if r.ipAddr ≠ 0 then { s with errmsg := .uvError r.ipAddr }
  else
    let s := { s with connectCalls := s.connectCalls ++ [s.tcphandle] }
    let (iret, tcphandle) := s.tcphandle.connect attempt r.tcpConnect
    if iret ≠ 0 then { s with errmsg := .uvError iret }
    else { s with
      tcphandle
      connectTimer := s.connectTimer.start attempt (s.connTimeOut * 1000) }

/-- `uv_close(tcp_handle, AfterHandleClose)` unless it is closing. -/
def closeTcp (s : CTcpClient) : CTcpClient :=
  if s.tcphandle.isClosing then s else { s with tcphandle := s.tcphandle.close }

def closeinl (s : CTcpClient) : CTcpClient :=
  if !s.isOpening then s
  else if s.isWaitClosed then s
  else { s with isWaitClosed := true }.closeTcp

def shutdowinl (s : CTcpClient) : CTcpClient := { s with tcphandle := (s.tcphandle.shutdown 0).2 }

/-- The `write_param` of `sendinl`, with the bytes copied to it. -/
def writeParam (buff : List UInt8) (size : ℤ) : Except Fault (WriteParam Unit) := do
  let writep : WriteParam Unit := { (allocWriteParam size : WriteParam Unit) with data := some () }
  let src ← loadN buff (toU32 size).toNat
  let base ← memcpy writep.buf.base 0 src
  return { writep with buf := { writep.buf with base } }

def sendinl (s : CTcpClient) (buff : List UInt8) (size : ℤ) (r : Results) : CTcpClient :=
  match writeParam buff size with
  | .error _ => { s with fault := true }
  | .ok writep =>
    let bytes := writep.buf.base.take writep.buf.len.toNat
    let (iret, tcphandle) := s.tcphandle.write bytes r.write
    let s := { s with writeCalls := s.writeCalls ++ [(bytes, iret)] }
    if iret ≠ 0 then s else { s with tcphandle }

def doEvent (s : CTcpClient) (e : ClientEvent) (r : Results) : CTcpClient :=
  match e.event.type with
  | .connect => s.connectinl e.attempt r
  | .close => s.closeinl
  | .shutdown => s.shutdowinl
  | .write => s.sendinl (e.event.buff.getD []) e.event.size r
  | .broadcast => s

/-! ## The callbacks -/

/-- `_func_conn_cb` with the status, about an attempt. -/
def report (s : CTcpClient) (attempt : ℕ) : CTcpClient :=
  { s with reports := s.reports ++ [(attempt, s.connectStatus)] }

def connectTimeOut (s : CTcpClient) (attempt : ℕ) : CTcpClient :=
  let s := { s with connectTimer := s.connectTimer.stop }.closeTcp
  { s with
    connectTimer := s.connectTimer.close
    errmsg := .text "connect time out"
    connectStatus := .connectTimeOut }.report attempt

/-- `CTcpClient::AfterConnect`, given the result of `uv_read_start`. -/
def afterConnect (s : CTcpClient) (attempt : ℕ) (status readStart : ℤ) : CTcpClient :=
  let s := { s with
    tcphandle := s.tcphandle.connected status
    connectTimer := if s.connectTimer.isClosing then s.connectTimer else s.connectTimer.close }
  if status = uvEcanceled ∧ s.connectStatus = .connectTimeOut then s
  else if status ≠ 0 then
    { s with connectStatus := .connectError, errmsg := .uvError status }.report attempt
  else
    let (iret, tcphandle) := s.tcphandle.readStart readStart
    if iret ≠ 0 then
      { s with errmsg := .uvError status, connectStatus := .connectError }.report attempt
    else { s with tcphandle, connectStatus := .connected }.report attempt

/-- `CTcpClient::AfterRecv` with bytes read, and the package callback. -/
def afterRecv (s : CTcpClient) (data : List UInt8) : CTcpClient :=
  if data = [] then s
  else
    match s.packet.onRecvData data with
    | some (.ok (packet, log)) =>
      { s with packet, recvs := s.recvs ++ packet.delivered log }
    | _ => { s with fault := true }

/-- `CTcpClient::AfterRecv` with an error or the end of the stream. -/
def afterRecvError (s : CTcpClient) (nread : ℤ) : CTcpClient :=
  { s with
    errmsg := .uvError nread
    connectStatus := .none
    tcphandle := (s.tcphandle.readError nread).close }

def afterShutDown (s : CTcpClient) : CTcpClient :=
  let s := s.closeinl
  { s with tcphandle := { s.tcphandle with shutdownReq := none } }

/-- `CTcpClient::AfterHandleClose` on the TCP handle, as far as the user's callback. -/
def afterHandleCloseBegin (s : CTcpClient) : CTcpClient :=
  { s with
    tcphandle := s.tcphandle.finish, inCloseCb := true, closes := s.closes ++ [s.clientid] }

/-- `CTcpClient::AfterHandleClose` behind the user's callback. -/
def afterHandleCloseEnd (s : CTcpClient) : CTcpClient :=
  { s with connectStatus := .none, isWaitClosed := false, inCloseCb := false }

/-- The walk of `CLooper::AsyncCB`: `CTcpClient::OnHandleClose` on both handles. -/
def onHandleClose (s : CTcpClient) : CTcpClient :=
  let s := s.closeTcp
  { s with
    connectTimer := if s.connectTimer.isClosing then s.connectTimer else s.connectTimer.close
    looperClosed := true }

/-! ## The machine -/

/-- A call of the user, an event dispatched, or a callback. -/
inductive Label
  | connect (ip : String) (port timeOut : ℤ) (isIPv6 : Bool)
  | close
  | shutdown
  | send (buff : List UInt8)
  | doEvent (r : Results)
  | connectTimeOut
  | afterConnect (status readStart : ℤ)
  | afterRecv (data : List UInt8)
  | afterRecvError (nread : ℤ)
  | afterSend (i : ℕ)
  | afterShutDown
  | afterHandleCloseBegin
  | afterHandleCloseEnd
  | timerClosed
  | looperClose
  deriving DecidableEq, Repr

/-- What the loop's thread does under a label; the user's calls are not its. -/
def loopAct (s : CTcpClient) : Label → Option CTcpClient
  | .doEvent r =>
    match s.events with
    | e :: rest => if s.looperClosed then none else some ({ s with events := rest }.doEvent e r)
    | [] => none
  | .connectTimeOut => s.connectTimer.armed.map s.connectTimeOut
  | .afterConnect status readStart =>
    -- a connection made on a closing handle is reported as cancelled
    if status = 0 ∧ s.tcphandle.isClosing then none
    else s.tcphandle.connectReq.map (s.afterConnect · status readStart)
  | .afterRecv data =>
    if s.tcphandle.reading ∧ data.length ≤ packBufferSize then some (s.afterRecv data) else none
  | .afterRecvError nread =>
    if s.tcphandle.reading ∧ nread < 0 then some (s.afterRecvError nread) else none
  | .afterSend i =>
    if i < s.tcphandle.writeReqs.length then
      some { s with
        tcphandle := { s.tcphandle with writeReqs := s.tcphandle.writeReqs.eraseIdx i } }
    else none
  | .afterShutDown => if s.tcphandle.shutdownEnds then some s.afterShutDown else none
  | .afterHandleCloseBegin =>
    if s.tcphandle.ends || s.tcphandle.endsAgain then some s.afterHandleCloseBegin else none
  | .timerClosed =>
    if s.connectTimer.phase = .closing then
      some { s with connectTimer := s.connectTimer.finish }
    else none
  | .looperClose => if s.looperClosed then none else some s.onHandleClose
  | _ => none

/-- What a label does: a call of the user, the end of `AfterHandleClose`, or, outside the user's
close callback, a step of the loop's thread. -/
def act (s : CTcpClient) : Label → Option CTcpClient
  | .connect ip port timeOut isIPv6 => some (s.connect ip port timeOut isIPv6).2
  | .close => some s.close
  | .shutdown => some s.shutdown
  | .send buff => some (s.send buff).2
  | .afterHandleCloseEnd => if s.inCloseCb then some s.afterHandleCloseEnd else none
  | l => if s.inCloseCb then none else s.loopAct l

/-- One step; none after a fault. -/
def step (s : CTcpClient) (l : Label) : Option CTcpClient := if s.fault then none else s.act l

end CTcpClient

end TestLibuv
