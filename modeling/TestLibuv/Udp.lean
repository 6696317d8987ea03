import TestLibuv.Packet
import TestLibuv.Inet

/-!
# `Udp.cpp`

A `CUvUdp` attached to a running looper: what its user calls, its events in the looper's queue, and
the callbacks libuv makes for its handle. Addresses are the bytes of a `struct sockaddr` of either
family. The receive callback of the user is taken to be set, and libuv's calls are given the results
the system gives.
-/

namespace TestLibuv

open CMem

def packUdpSize : ℕ := 1400

/-- `struct send_param`, with the fields of a `write_param`. -/
abbrev SendParam := WriteParam Unit

def allocSendParam (size : ℤ) : SendParam := ⟨⟨malloc (toU32 size).toNat, toU32 size⟩, none⟩

/-- A `uv_udp_t`: its phase, whether it receives, and the requests that wait for `AfterSend`. -/
structure UvUdp where
  phase : UvPhase
  reading : Bool
  sendReqs : List SendParam
  deriving DecidableEq, Repr

namespace UvUdp

/-- The handle before `uv_udp_init`. -/
def blank : UvUdp := ⟨.blank, false, []⟩

/-- `uv_udp_init`. -/
def init : UvUdp := ⟨.active, false, []⟩

/-- `uv_is_closing`. -/
def isClosing (h : UvUdp) : Bool := h.phase.isClosing

/-- `uv_close`; on a handle that is closing or was closed it asserts and returns. -/
def close (h : UvUdp) : UvUdp :=
  if h.isClosing then h else { h with phase := .closing, reading := false }

/-- `uv_udp_recv_start`. -/
def recvStart (h : UvUdp) (res : ℤ) : ℤ × UvUdp :=
  if h.reading then (uvEalready, h)
  else if res = 0 then (0, { h with reading := true })
  else (res, h)

/-- `uv_udp_send`. -/
def send (h : UvUdp) (p : SendParam) (res : ℤ) : ℤ × UvUdp :=
  if res = 0 then (0, { h with sendReqs := h.sendReqs ++ [p] }) else (res, h)

/-- `uv_udp_endgame` closes the handle. -/
def ends (h : UvUdp) : Bool := h.phase = .closing && h.sendReqs.isEmpty

/-- `uv__handle_close`. -/
def finish (h : UvUdp) : UvUdp := { h with phase := .closed }

@[simp] theorem phase_close_ne_active (h : UvUdp) : h.close.phase ≠ .active := by
  unfold close isClosing
  split_ifs with hc
  · exact UvPhase.ne_active hc
  · simp

@[simp] theorem phase_recvStart (h : UvUdp) (res : ℤ) : (h.recvStart res).2.phase = h.phase := by
  unfold recvStart
  split_ifs <;> rfl

@[simp] theorem phase_send (h : UvUdp) (p : SendParam) (res : ℤ) :
    (h.send p res).2.phase = h.phase := by
  unfold send
  split_ifs <;> rfl

end UvUdp

/-- `class CUvUdp`, its events and its history: the datagrams received, and those `uv_udp_send` was
given, with the address and what it returned. -/
structure CUvUdp where
  loop : Bool
  udpHandle : UvUdp
  errmsg : ErrMsg
  events : List (UvEvent Unit)
  recvs : List (List UInt8)
  sendCalls : List (List UInt8 × List UInt8 × ℤ)
  fault : Bool
  deriving DecidableEq, Repr

namespace CUvUdp

/-- `CUvUdp::CUvUdp`. -/
def new : CUvUdp where
  loop := false
  udpHandle := .blank
  errmsg := .empty
  events := []
  recvs := []
  sendCalls := []
  fault := false

/-- `CUvUdp::AttachLooper`, given the result of `uv_udp_init`. -/
def attachLooper (s : CUvUdp) (udpInit : ℤ) : Bool × CUvUdp :=
  let s := { s with loop := true }
  if udpInit ≠ 0 then (false, { s with errmsg := .uvError udpInit })
  else (true, { s with udpHandle := .init })

/-- `CUvUdp::Bind`, given the results of `uv_udp_bind`, or of `uv_udp_set_broadcast` where the port
is 0, and of `uv_udp_recv_start`. -/
def bind (s : CUvUdp) (bound recvStart : ℤ) : Bool × CUvUdp :=
  if bound ≠ 0 then (false, { s with errmsg := .uvError bound })
  else
    let (iret, udpHandle) := s.udpHandle.recvStart recvStart
    if iret ≠ 0 then (false, { s with errmsg := .uvError iret })
    else (true, { s with udpHandle })

/-- `CUvUdp::Send` to an address; the event has room for a `struct sockaddr`. -/
def send (s : CUvUdp) (buffer pAddr : List UInt8) : ℕ × CUvUdp :=
  if s.loop then
    let pEvent : UvEvent Unit := createUvEvent .write (some buffer)
    (buffer.length,
      { s with events := s.events ++ [{ pEvent with addr := pAddr.take 16, data := some () }] })
  else (0, s)

/-- `CUvUdp::Send` to an address given as text, which goes on whatever the parser returned. -/
def sendStrIp (s : CUvUdp) (buffer strIp : List UInt8) (uPort : UInt16) (isIPv6 : Bool) :
    ℕ × CUvUdp :=
  if !isIPv6 then
    let (_, bindAddrIpv4) := uvIp4Addr (cStr strIp) uPort
    s.send buffer bindAddrIpv4
  else
    let (_, bindAddrIpv6) := uvIp6Addr (cStr strIp) uPort
    s.send buffer bindAddrIpv6

/-- The `send_param` of `sendinl`, with the bytes copied to it. -/
def sendParam (buff : List UInt8) (size : ℤ) : Except Fault SendParam := do
  let sendp := { allocSendParam size with data := some () }
  let src ← loadN buff (toU32 size).toNat
  let base ← memcpy sendp.buf.base 0 src
  return { sendp with buf := { sendp.buf with base } }

def sendinl (s : CUvUdp) (addr buff : List UInt8) (size res : ℤ) : CUvUdp :=
  match sendParam buff size with
  | .error _ => { s with fault := true }
  | .ok sendp =>
    let (iret, udpHandle) := s.udpHandle.send sendp res
    let s := { s with sendCalls := s.sendCalls ++ [(addr, sendp.buf.base, iret)] }
    if iret ≠ 0 then s else { s with udpHandle }

def doEvent (s : CUvUdp) (e : UvEvent Unit) (res : ℤ) : CUvUdp :=
  match e.type with
  | .write => s.sendinl e.addr (e.buff.getD []) e.size res
  | _ => s

/-- `CUvUdp::AfterRecv`, which passes on what is not empty. -/
def afterRecv (s : CUvUdp) (data : List UInt8) : CUvUdp :=
  if data = [] then s else { s with recvs := s.recvs ++ [data] }

/-- A call of the user, an event dispatched, or a callback. -/
inductive Label
  | bind (bound recvStart : ℤ)
  | send (buffer pAddr : List UInt8)
  | doEvent (res : ℤ)
  | afterRecv (data : List UInt8)
  | afterSend (i : ℕ)
  | handleClosed
  deriving DecidableEq, Repr

/-- What a label does. -/
def act (s : CUvUdp) : Label → Option CUvUdp
  | .bind bound recvStart => some (s.bind bound recvStart).2
  | .send buffer pAddr =>
    -- the assertion of `Send`
    if buffer.length ≤ packUdpSize then some (s.send buffer pAddr).2 else none
  | .doEvent res =>
    match s.events with
    | e :: rest => some ({ s with events := rest }.doEvent e res)
    | [] => none
  | .afterRecv data =>
    if s.udpHandle.reading ∧ data.length ≤ packUdpSize then some (s.afterRecv data) else none
  | .afterSend i =>
    if i < s.udpHandle.sendReqs.length then
      some { s with
        udpHandle := { s.udpHandle with sendReqs := s.udpHandle.sendReqs.eraseIdx i } }
    else none
  | .handleClosed =>
    if s.udpHandle.ends then some { s with udpHandle := s.udpHandle.finish } else none

/-- One step; none after a fault. -/
def step (s : CUvUdp) (l : Label) : Option CUvUdp := if s.fault then none else s.act l

/-- What a step under a label can be. -/
inductive Trans (s : CUvUdp) : Label → CUvUdp → Prop
  | bind (bound recvStart : ℤ) : Trans s (.bind bound recvStart) (s.bind bound recvStart).2
  | send {buffer : List UInt8} (pAddr : List UInt8) : buffer.length ≤ packUdpSize →
      Trans s (.send buffer pAddr) (s.send buffer pAddr).2
  | doEvent {e : UvEvent Unit} {rest : List (UvEvent Unit)} (res : ℤ) : s.events = e :: rest →
      Trans s (.doEvent res) ({ s with events := rest }.doEvent e res)
  | afterRecv {data : List UInt8} : s.udpHandle.reading → data.length ≤ packUdpSize →
      Trans s (.afterRecv data) (s.afterRecv data)
  | afterSend {i : ℕ} : i < s.udpHandle.sendReqs.length → Trans s (.afterSend i) { s with
      udpHandle := { s.udpHandle with sendReqs := s.udpHandle.sendReqs.eraseIdx i } }
  | handleClosed : s.udpHandle.ends →
      Trans s .handleClosed { s with udpHandle := s.udpHandle.finish }

theorem step_trans {s s' : CUvUdp} {l : Label} (hs : step s l = some s') : Trans s l s' := by
  unfold step at hs
  split_ifs at hs
  cases l with
  | bind bound recvStart => exact Option.some.inj hs ▸ .bind bound recvStart
  | send buffer pAddr =>
    simp only [act] at hs
    split_ifs at hs with hb
    exact Option.some.inj hs ▸ .send pAddr hb
  | doEvent res =>
    simp only [act] at hs
    split at hs
    · rename_i e rest hev
      exact Option.some.inj hs ▸ .doEvent res hev
    · cases hs
  | afterRecv data =>
    simp only [act] at hs
    split_ifs at hs with hdata
    exact Option.some.inj hs ▸ .afterRecv hdata.1 hdata.2
  | afterSend i =>
    simp only [act] at hs
    split_ifs at hs with hi
    exact Option.some.inj hs ▸ .afterSend hi
  | handleClosed =>
    simp only [act] at hs
    split_ifs at hs with hends
    exact Option.some.inj hs ▸ .handleClosed hends

variable (s : CUvUdp)

@[simp] theorem phase_bind (bound recvStart : ℤ) :
    (s.bind bound recvStart).2.udpHandle.phase = s.udpHandle.phase := by
  unfold bind
  split_ifs
  · rfl
  · dsimp only
    split_ifs
    · rfl
    · exact s.udpHandle.phase_recvStart recvStart

@[simp] theorem phase_sendCall (buffer pAddr : List UInt8) :
    (s.send buffer pAddr).2.udpHandle.phase = s.udpHandle.phase := by
  unfold send
  split_ifs <;> rfl

@[simp] theorem phase_doEvent (e : UvEvent Unit) (res : ℤ) :
    (s.doEvent e res).udpHandle.phase = s.udpHandle.phase := by
  unfold doEvent sendinl
  split
  · split
    · rfl
    · dsimp only
      split_ifs
      · rfl
      · exact s.udpHandle.phase_send _ res
  · rfl

@[simp] theorem phase_afterRecv (data : List UInt8) :
    (s.afterRecv data).udpHandle.phase = s.udpHandle.phase := by
  unfold afterRecv
  split_ifs <;> rfl

/-- Only the close callback changes where the handle is in its life. -/
theorem phase_step {s s' : CUvUdp} {l : Label} (hs : step s l = some s') :
    s'.udpHandle.phase = s.udpHandle.phase ∨ s'.udpHandle.phase = .closed := by
  cases step_trans hs with
  | bind bound recvStart => exact .inl (s.phase_bind bound recvStart)
  | send pAddr _ => exact .inl (s.phase_sendCall _ pAddr)
  | doEvent res _ => exact .inl (phase_doEvent _ _ res)
  | afterRecv _ _ => exact .inl (s.phase_afterRecv _)
  | afterSend _ => exact .inl rfl
  | handleClosed _ => exact .inr rfl

theorem loop_doEvent (e : UvEvent Unit) (res : ℤ) : (s.doEvent e res).loop = s.loop := by
  unfold doEvent sendinl
  split
  · split
    · rfl
    · dsimp only
      split_ifs <;> rfl
  · rfl

/-- A socket keeps the looper it was attached to. -/
theorem loop_step {s s' : CUvUdp} {l : Label} (hs : step s l = some s') : s'.loop = s.loop := by
  cases step_trans hs with
  | bind bound recvStart =>
    unfold bind
    dsimp only
    split_ifs <;> rfl
  | send pAddr _ =>
    unfold send
    split_ifs with hloop
    · exact hloop.symm ▸ rfl
    · rfl
  | doEvent res _ => exact loop_doEvent _ _ res
  | afterRecv _ _ =>
    unfold afterRecv
    split_ifs <;> rfl
  | afterSend _ | handleClosed _ => rfl

end CUvUdp

end TestLibuv
