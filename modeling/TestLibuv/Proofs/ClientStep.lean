import TestLibuv.Lib.Runs
import TestLibuv.TcpClient

/-!
# The steps of the client

`Trans` lists what a step of the client can be, with the guards it passed and the fields it wrote.
-/

namespace TestLibuv

open CMem

/-- The `_size` bytes that `sendinl` copies are there. -/
def ClientEvent.Whole (e : ClientEvent) : Prop :=
  (toU32 e.event.size).toNat ≤ (e.event.buff.getD []).length

namespace CTcpClient

open Runs

variable {s s' : CTcpClient} {l : Label}

/-- The calls of the user. -/
def Label.OfUser : Label → Prop
  | .connect .. | .close | .shutdown | .send _ => True
  | _ => False

theorem closeTcp_eq (s : CTcpClient) : s.closeTcp = { s with tcphandle := s.tcphandle.close } := by
  unfold closeTcp
  split_ifs with hc
  · rw [show s.tcphandle.close = s.tcphandle from if_pos hc]
  · rfl

theorem timer_close_eq (t : UvTimer) : (if t.isClosing then t else t.close) = t.close := by
  split_ifs with hc
  · exact (if_pos hc).symm
  · rfl

/-- What `sendinl` gives to `uv_write` are the event's bytes. -/
theorem writeParam_ok {e : ClientEvent} (h : e.Whole) : ∃ writep,
    writeParam (e.event.buff.getD []) e.event.size = .ok writep
      ∧ writep.buf.base.take writep.buf.len.toNat = e.event.bytes := by
  have hlen : e.event.bytes.length = (toU32 e.event.size).toNat := List.length_take_of_le h
  have hcopy : memcpy (malloc (toU32 e.event.size).toNat) 0 e.event.bytes
      = .ok e.event.bytes := by
    rw [memcpy_ok _ (le_refl _) (by simp [hlen])]
    simp [hlen, malloc]
  refine ⟨⟨⟨e.event.bytes, toU32 e.event.size⟩, some ()⟩, ?_, List.take_of_length_le hlen.le⟩
  rw [writeParam, loadN_ok h]
  exact congrArg (Except.map fun base => (⟨⟨base, _⟩, _⟩ : WriteParam Unit)) hcopy

theorem writeParam_fault {e : ClientEvent} (h : ¬ e.Whole) : ∃ f,
    writeParam (e.event.buff.getD []) e.event.size = .error f := by
  refine ⟨.outOfBounds, ?_⟩
  rw [writeParam, loadN, if_neg (show ¬ _ ≤ _ from h)]
  rfl

/-- `closeinl` gets to `uv_close`. -/
def Closeable (s : CTcpClient) : Prop := s.isOpening = true ∧ s.isWaitClosed = false

theorem closeinl_pos (h : s.Closeable) :
    s.closeinl = { s with isWaitClosed := true, tcphandle := s.tcphandle.close } := by
  unfold closeinl
  rw [if_neg (by simp [h.1]), if_neg (by simp [h.2]), closeTcp_eq]

theorem closeinl_neg (h : ¬ s.Closeable) : s.closeinl = s := by
  unfold closeinl
  split_ifs with ho hw
  · rfl
  · rfl
  · exact absurd ⟨by simpa using ho, by simpa using hw⟩ h

/-- What a step under a label can be. -/
inductive Trans (s : CTcpClient) : Label → CTcpClient → Prop
  | refused {l : Label} : l.OfUser → Trans s l s
  | connect {ip : String} {port timeOut : ℤ} {isIPv6 : Bool} :
      s.connectStatus = .none ∨ s.connectStatus = .connectError → s.isWaitClosed = false →
      s.looper = true →
      Trans s (.connect ip port timeOut isIPv6)
        ({ s with
          connTimeOut := toU32 timeOut
          connectIp := ip
          connectPort := port
          isIPv6
          connectStatus := .connecting
          isWaitClosed := false
          attempts := s.attempts + 1 }.pushEvent .connect none s.attempts)
  | connectAlone {ip : String} {port timeOut : ℤ} {isIPv6 : Bool} :
      s.connectStatus = .none ∨ s.connectStatus = .connectError → s.isWaitClosed = false →
      s.looper = false →
      Trans s (.connect ip port timeOut isIPv6)
        { s with
          connTimeOut := toU32 timeOut
          connectIp := ip
          connectPort := port
          isIPv6
          connectStatus := .none
          isWaitClosed := false
          attempts := s.attempts + 1 }
  | close : Trans s .close (s.pushEvent .close none 0)
  | shutdown : Trans s .shutdown (s.pushEvent .shutdown none 0)
  | send {buff : List UInt8} : s.connectStatus = .connected →
      Trans s (.send buff) (s.pushSend buff)
  | connectBadAddr {e : ClientEvent} {rest : List ClientEvent} {r : Results} :
      s.events = e :: rest → e.event.type = .connect → r.ipAddr ≠ 0 → Trans s (.doEvent r)
        { s with events := rest, errmsg := .uvError r.ipAddr }
  | connectFails {e : ClientEvent} {rest : List ClientEvent} {r : Results} {iret : ℤ} :
      s.events = e :: rest → e.event.type = .connect → r.ipAddr = 0 →
      (s.tcphandle.connect e.attempt r.tcpConnect).1 ≠ 0 → Trans s (.doEvent r)
        { s with
          events := rest
          connectCalls := s.connectCalls ++ [s.tcphandle]
          errmsg := .uvError iret }
  | connectStarts {e : ClientEvent} {rest : List ClientEvent} {r : Results} :
      s.inCloseCb = false → s.events = e :: rest → e.event.type = .connect → r.ipAddr = 0 →
      s.tcphandle.connectReq = none → s.tcphandle.connection = false → Trans s (.doEvent r)
        { s with
          events := rest
          connectCalls := s.connectCalls ++ [s.tcphandle]
          tcphandle := { s.tcphandle with connectReq := some e.attempt }
          connectTimer := s.connectTimer.start e.attempt (s.connTimeOut * 1000) }
  | closeRefused {e : ClientEvent} {rest : List ClientEvent} {r : Results} :
      s.events = e :: rest → e.event.type = .close → ¬ s.Closeable →
      Trans s (.doEvent r) { s with events := rest }
  | closeCloses {e : ClientEvent} {rest : List ClientEvent} {r : Results} :
      s.events = e :: rest → e.event.type = .close → s.Closeable → Trans s (.doEvent r)
        { s with events := rest, isWaitClosed := true, tcphandle := s.tcphandle.close }
  | shutdownEvent {e : ClientEvent} {rest : List ClientEvent} {r : Results} :
      s.events = e :: rest → e.event.type = .shutdown → Trans s (.doEvent r)
        { s with events := rest, tcphandle := (s.tcphandle.shutdown 0).2 }
  | writeFaults {e : ClientEvent} {rest : List ClientEvent} {r : Results} :
      s.events = e :: rest → e.event.type = .write → ¬ e.Whole →
      Trans s (.doEvent r) { s with events := rest, fault := true }
  | writeFails {e : ClientEvent} {rest : List ClientEvent} {r : Results} {iret : ℤ} :
      s.events = e :: rest → e.event.type = .write → iret ≠ 0 → Trans s (.doEvent r)
        { s with events := rest, writeCalls := s.writeCalls ++ [(e.event.bytes, iret)] }
  | writeTakes {e : ClientEvent} {rest : List ClientEvent} {r : Results} :
      s.events = e :: rest → e.event.type = .write → s.tcphandle.writable = true →
      Trans s (.doEvent r)
        { s with
          events := rest
          tcphandle := { s.tcphandle with
            writeReqs := s.tcphandle.writeReqs ++ [e.event.bytes] }
          writeCalls := s.writeCalls ++ [(e.event.bytes, 0)] }
  | otherEvent {e : ClientEvent} {rest : List ClientEvent} {r : Results} :
      s.events = e :: rest → e.event.type = .broadcast →
      Trans s (.doEvent r) { s with events := rest }
  | connectTimeOut {k : ℕ} : s.connectTimer.armed = some k → Trans s .connectTimeOut
      { s with
        tcphandle := s.tcphandle.close
        connectTimer := s.connectTimer.stop.close
        errmsg := .text "connect time out"
        connectStatus := .connectTimeOut
        reports := s.reports ++ [(k, .connectTimeOut)] }
  | connectCancelled {k : ℕ} {status readStart : ℤ} :
      status = uvEcanceled → s.connectStatus = .connectTimeOut → s.tcphandle.connectReq = some k →
      Trans s (.afterConnect status readStart)
        { s with
          tcphandle := s.tcphandle.connected status
          connectTimer := s.connectTimer.close }
  | connectError {k : ℕ} {status readStart : ℤ} :
      s.tcphandle.connectReq = some k →
      ¬ (status = uvEcanceled ∧ s.connectStatus = .connectTimeOut) →
      Trans s (.afterConnect status readStart)
        { s with
          tcphandle := s.tcphandle.connected status
          connectTimer := s.connectTimer.close
          errmsg := .uvError status
          connectStatus := .connectError
          reports := s.reports ++ [(k, .connectError)] }
  | connected {k : ℕ} {readStart : ℤ} : s.tcphandle.connectReq = some k →
      s.tcphandle.isClosing = false → Trans s (.afterConnect 0 readStart)
        { s with
          tcphandle := { s.tcphandle.connected 0 with reading := true }
          connectTimer := s.connectTimer.close
          connectStatus := .connected
          reports := s.reports ++ [(k, .connected)] }
  | recv {data : List UInt8} (packet : PacketSync) (recvs : List (List UInt8)) (fault : Bool) :
      Trans s (.afterRecv data) { s with packet, recvs, fault }
  | recvError {nread : ℤ} : s.tcphandle.reading = true → Trans s (.afterRecvError nread)
      { s with
        errmsg := .uvError nread
        connectStatus := .none
        tcphandle := (s.tcphandle.readError nread).close }
  | sent {i : ℕ} : Trans s (.afterSend i)
      { s with
        tcphandle := { s.tcphandle with writeReqs := s.tcphandle.writeReqs.eraseIdx i } }
  | shutdownRefused : ¬ s.Closeable → Trans s .afterShutDown
      { s with tcphandle := { s.tcphandle with shutdownReq := none } }
  | shutdownCloses : s.Closeable → Trans s .afterShutDown
      { s with isWaitClosed := true, tcphandle := { s.tcphandle.close with shutdownReq := none } }
  | closeBegin : s.tcphandle.isClosing = true → s.tcphandle.phase ≠ .closed →
      s.tcphandle.idle = true → Trans s .afterHandleCloseBegin
      { s with
        tcphandle := s.tcphandle.finish
        inCloseCb := true
        closes := s.closes ++ [s.clientid] }
  | closeEnd : s.inCloseCb = true → Trans s .afterHandleCloseEnd
      { s with connectStatus := .none, isWaitClosed := false, inCloseCb := false }
  | timerClosed : s.connectTimer.phase = .closing → Trans s .timerClosed
      { s with connectTimer := s.connectTimer.finish }
  | looperClose : Trans s .looperClose
      { s with
        tcphandle := s.tcphandle.close
        connectTimer := s.connectTimer.close
        looperClosed := true }

theorem connect_trans {ip : String} {port timeOut : ℤ} {isIPv6 : Bool} :
    Trans s (.connect ip port timeOut isIPv6) (s.connect ip port timeOut isIPv6).2 := by
  unfold CTcpClient.connect
  split_ifs with hst hw hl
  · exact .refused trivial
  · exact .refused trivial
  · exact .connect (by tauto) (by simpa using hw) hl
  · exact .connectAlone (by tauto) (by simpa using hw) (by simpa using hl)

theorem doEvent_trans {e : ClientEvent} {rest : List ClientEvent} {r : Results}
    (he : s.events = e :: rest) (hc : s.inCloseCb = false) :
    Trans s (.doEvent r) ({ s with events := rest }.doEvent e r) := by
  unfold doEvent
  rcases ht : e.event.type <;> dsimp only
  · unfold connectinl
    split_ifs with hip
    · exact .connectBadAddr he ht hip
    · have hip : r.ipAddr = 0 := by simpa using hip
      dsimp only
      rcases s.tcphandle.connect_eq e.attempt r.tcpConnect with hne | ⟨hq, hconn, heq⟩
      · rw [if_pos hne]
        exact .connectFails he ht hip hne
      · rw [heq, if_neg (by simp)]
        exact .connectStarts hc he ht hip hq hconn
  · unfold sendinl
    by_cases hwhole : e.Whole
    · obtain ⟨writep, hok, hbytes⟩ := writeParam_ok hwhole
      rw [hok]
      dsimp only
      rw [hbytes]
      rcases s.tcphandle.write_eq e.event.bytes r.write with hne | ⟨hw, heq⟩
      · rw [if_pos hne]
        exact .writeFails he ht hne
      · rw [heq, if_neg (by simp)]
        exact .writeTakes he ht hw
    · obtain ⟨f, hf⟩ := writeParam_fault hwhole
      rw [hf]
      exact .writeFaults he ht hwhole
  · by_cases hcl : s.Closeable
    · rw [closeinl_pos (show Closeable { s with events := rest } from hcl)]
      exact .closeCloses he ht hcl
    · rw [closeinl_neg (show ¬ Closeable { s with events := rest } from hcl)]
      exact .closeRefused he ht hcl
  · exact .shutdownEvent he ht
  · exact .otherEvent he ht

theorem afterConnect_trans {k : ℕ} {status readStart : ℤ} (hk : s.tcphandle.connectReq = some k)
    (hc : ¬ (status = 0 ∧ s.tcphandle.isClosing = true)) :
    Trans s (.afterConnect status readStart) (s.afterConnect k status readStart) := by
  unfold afterConnect
  dsimp only
  rw [timer_close_eq]
  split_ifs with hcan hst hrd
  · exact .connectCancelled hcan.1 hcan.2 hk
  · exact .connectError hk hcan
  · exact .connectError hk hcan
  · obtain rfl : status = 0 := by simpa using hst
    rcases (s.tcphandle.connected 0).readStart_eq readStart with ⟨hne, -⟩ | heq
    · exact absurd hne hrd
    · rw [heq]
      exact .connected hk (by simpa using hc)

theorem afterShutDown_trans : Trans s .afterShutDown s.afterShutDown := by
  unfold afterShutDown
  by_cases hcl : s.Closeable
  · rw [closeinl_pos hcl]
    exact .shutdownCloses hcl
  · rw [closeinl_neg hcl]
    exact .shutdownRefused hcl

theorem afterRecv_trans {data : List UInt8} : Trans s (.afterRecv data) (s.afterRecv data) := by
  unfold afterRecv
  split_ifs
  · exact .recv s.packet s.recvs s.fault
  · split
    · exact .recv _ _ s.fault
    · exact .recv s.packet s.recvs true

theorem onHandleClose_trans : Trans s .looperClose s.onHandleClose := by
  unfold onHandleClose
  rw [closeTcp_eq]
  dsimp only
  rw [timer_close_eq]
  exact .looperClose

theorem connectTimeOut_trans {k : ℕ} (h : s.connectTimer.armed = some k) :
    Trans s .connectTimeOut (s.connectTimeOut k) := by
  unfold connectTimeOut
  rw [closeTcp_eq]
  exact .connectTimeOut h

theorem loopAct_trans (hc : s.inCloseCb = false) (h : s.loopAct l = some s') : Trans s l s' := by
  cases l with
  | doEvent r =>
    rcases he : s.events with _ | ⟨e, rest⟩ <;> simp only [loopAct, he] at h
    · simp at h
    · split_ifs at h
      obtain rfl := Option.some.inj h
      exact doEvent_trans he hc
  | connectTimeOut =>
    obtain ⟨k, hk, rfl⟩ := Option.map_eq_some_iff.1 h
    exact connectTimeOut_trans hk
  | afterConnect status readStart =>
    simp only [loopAct] at h
    split_ifs at h with hcl
    obtain ⟨k, hk, rfl⟩ := Option.map_eq_some_iff.1 h
    exact afterConnect_trans hk hcl
  | afterRecv data =>
    simp only [loopAct] at h
    split_ifs at h
    obtain rfl := Option.some.inj h
    exact afterRecv_trans
  | afterRecvError nread =>
    simp only [loopAct] at h
    split_ifs at h with hg
    obtain rfl := Option.some.inj h
    exact .recvError hg.1
  | afterSend i =>
    simp only [loopAct] at h
    split_ifs at h
    obtain rfl := Option.some.inj h
    exact .sent
  | afterShutDown =>
    simp only [loopAct] at h
    split_ifs at h
    obtain rfl := Option.some.inj h
    exact afterShutDown_trans
  | afterHandleCloseBegin =>
    simp only [loopAct] at h
    split_ifs at h with hg
    obtain rfl := Option.some.inj h
    simp only [UvTcp.ends, UvTcp.endsAgain, Bool.or_eq_true, Bool.and_eq_true,
      decide_eq_true_eq] at hg
    rcases hg with ⟨hp, hidle⟩ | ⟨hp, hidle⟩ <;>
      exact .closeBegin (by simp [UvTcp.isClosing, hp, UvPhase.isClosing]) (by simp [hp]) hidle
  | timerClosed =>
    simp only [loopAct] at h
    split_ifs at h with hg
    obtain rfl := Option.some.inj h
    exact .timerClosed hg
  | looperClose =>
    simp only [loopAct] at h
    split_ifs at h
    obtain rfl := Option.some.inj h
    exact onHandleClose_trans
  | _ => simp [loopAct] at h

theorem user_trans (h : act s l = some s') (hl : l.OfUser) : Trans s l s' := by
  cases l with
  | connect ip port timeOut isIPv6 =>
    obtain rfl := Option.some.inj h
    exact connect_trans
  | close =>
    obtain rfl := Option.some.inj h
    unfold CTcpClient.close
    split_ifs
    · exact .refused trivial
    · exact .close
    · exact .refused trivial
  | shutdown =>
    obtain rfl := Option.some.inj h
    unfold CTcpClient.shutdown
    split_ifs
    · exact .refused trivial
    · exact .shutdown
    · exact .refused trivial
  | send buff =>
    obtain rfl := Option.some.inj h
    unfold CTcpClient.send
    split_ifs with hg
    · exact .refused trivial
    · exact .send (by tauto)
    · exact .refused trivial
  | _ => exact absurd hl id

theorem step_trans (h : step s l = some s') : Trans s l s' := by
  unfold step at h
  split_ifs at h
  by_cases hl : l.OfUser
  · exact user_trans h hl
  · cases l with
    | afterHandleCloseEnd =>
      simp only [act] at h
      split_ifs at h with hc
      obtain rfl := Option.some.inj h
      exact .closeEnd hc
    | connect => exact absurd trivial hl
    | close => exact absurd trivial hl
    | shutdown => exact absurd trivial hl
    | send => exact absurd trivial hl
    | _ =>
      simp only [act] at h
      split_ifs at h with hc
      exact loopAct_trans (by simpa using hc) h

/-- No step opens a handle. -/
theorem handles_step (h : step s l = some s') :
    (s'.tcphandle.phase = .active → s.tcphandle.phase = .active)
      ∧ (s'.connectTimer.phase = .active → s.connectTimer.phase = .active) := by
  cases step_trans h with
  | closeCloses _ _ _ | recvError _ | shutdownCloses _ => exact ⟨by simp, id⟩
  | connectTimeOut _ | looperClose => exact ⟨by simp, by simp⟩
  | connectCancelled _ _ _ | connectError _ _ | connected _ _ => exact ⟨by simp, by simp⟩
  | shutdownEvent _ _ => exact ⟨fun hp => (s.tcphandle.shutdown_frame 0).1 ▸ hp, id⟩
  | closeBegin _ _ _ => exact ⟨by simp [UvTcp.finish], id⟩
  | timerClosed _ => exact ⟨id, by simp [UvTimer.finish]⟩
  | _ => exact ⟨id, id⟩

end CTcpClient

end TestLibuv
