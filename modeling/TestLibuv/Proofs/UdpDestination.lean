import TestLibuv.Udp
import TestLibuv.Lib.Runs

/-!
# The destination of a datagram

The addresses `uv_udp_send` was given and those of the events still queued are one sequence, which
a send extends and nothing else changes. An event has room for a `struct sockaddr`, the size of a
`struct sockaddr_in`, so a datagram keeps an IPv4 address; of an IPv6 address it keeps the first 16
bytes, and `uv_udp_send` reads the other 12 from what is behind the field.
-/

namespace TestLibuv

open CMem Runs

/-- What the parser returns for a text, and the address it leaves. -/
def parseAddr (strIp : List UInt8) (uPort : UInt16) (isIPv6 : Bool) : ℤ × List UInt8 :=
  if isIPv6 then uvIp6Addr (cStr strIp) uPort else uvIp4Addr (cStr strIp) uPort

/-- The bytes `uv_udp_send` reads at `addr`, with `behind` following it in memory. -/
def readAddr (addr behind : List UInt8) : List UInt8 :=
  (addr ++ behind).take ((addrLen (addr ++ behind)).getD 0)

namespace CUvUdp

variable {s s' t : CUvUdp} {l : Label}

/-- The addresses `uv_udp_send` was given, then those of the queue. -/
def addresses (s : CUvUdp) : List (List UInt8) :=
  s.sendCalls.map (·.1) ++ s.events.map UvEvent.addr

/-- An event `Send` queues. -/
def Sendable (e : UvEvent Unit) : Prop :=
  e.type = .write ∧ ∃ b, e.buff = some b ∧ e.size = b.length ∧ b.length ≤ packUdpSize

/-- What the runs of a socket keep. -/
structure Queued (s : CUvUdp) : Prop where
  fault : s.fault = false
  events : ∀ e ∈ s.events, Sendable e

/-- A socket constructed, and attached to a looper or not. -/
def Begun (s : CUvUdp) : Prop := s = new ∨ ∃ udpInit, s = (new.attachLooper udpInit).2

theorem Begun.queued (h : Begun s) : Queued s := by
  rcases h with rfl | ⟨udpInit, rfl⟩
  · exact ⟨rfl, by simp [new]⟩
  · unfold attachLooper
    dsimp only
    split_ifs <;> exact ⟨rfl, by simp [new]⟩

/-! ## The steps -/

theorem send_eq (s : CUvUdp) {buffer : List UInt8} (pAddr : List UInt8)
    (hb : buffer.length ≤ packUdpSize) : ∃ e, Sendable e ∧ e.addr = pAddr.take 16
      ∧ s.send buffer pAddr = if s.loop then (buffer.length, { s with events := s.events ++ [e] })
        else (0, s) := by
  refine ⟨_, ⟨rfl, buffer, rfl, ?_, hb⟩, rfl, rfl⟩
  have hlt : buffer.length < 2 ^ 31 := hb.trans_lt (by simp [packUdpSize])
  have hnat : (UInt32.ofNat buffer.length).toNat = buffer.length := by
    rw [UInt32.toNat_ofNat']
    omega
  have hsize : ofU32 (.ofNat buffer.length) = buffer.length := by
    rw [ofU32_of_lt (hnat.symm ▸ hlt), hnat]
  exact hsize

theorem sendParam_eq {b : List UInt8} {size : ℤ} (hsize : size = b.length)
    (hb : b.length ≤ packUdpSize) : sendParam b size = .ok ⟨⟨b, toU32 size⟩, some ()⟩ := by
  have hlt : b.length < 2 ^ 32 := hb.trans_lt (by simp [packUdpSize])
  have hnat : (toU32 size).toNat = b.length := by
    rw [toNat_toU32 (by omega) (by omega)]
    omega
  have hcopy : memcpy (malloc (toU32 size).toNat) 0 (b.take (toU32 size).toNat) = .ok b := by
    rw [memcpy_ok _ le_rfl (by simp [hnat])]
    simp [hnat, malloc]
  rw [sendParam, loadN_ok hnat.le]
  exact congrArg (Except.map fun base => (⟨⟨base, _⟩, _⟩ : SendParam)) hcopy

/-- An event dispatched is one call of `uv_udp_send`, with the address of the event. -/
theorem doEvent_spec {e : UvEvent Unit} (he : Sendable e) (s : CUvUdp) (res : ℤ) :
    ∃ bytes iret, (s.doEvent e res).sendCalls = s.sendCalls ++ [(e.addr, bytes, iret)]
      ∧ (s.doEvent e res).events = s.events ∧ (s.doEvent e res).fault = s.fault := by
  obtain ⟨htype, b, hbuff, hsize, hb⟩ := he
  simp only [doEvent, htype, hbuff, Option.getD_some, sendinl, sendParam_eq hsize hb]
  split_ifs <;> exact ⟨_, _, rfl, rfl, rfl⟩

/-- A step appends what it queues to the addresses, which is nothing without a looper. -/
theorem queued_step (h : Queued s) (hs : step s l = some s') : Queued s'
    ∧ ∃ sent, s'.addresses = s.addresses ++ sent ∧ (s.loop = false → sent = []) := by
  cases step_trans hs with
  | bind bound recvStart =>
    have heq : (s.bind bound recvStart).2.fault = s.fault
        ∧ (s.bind bound recvStart).2.events = s.events
        ∧ (s.bind bound recvStart).2.sendCalls = s.sendCalls := by
      unfold bind
      dsimp only
      split_ifs <;> exact ⟨rfl, rfl, rfl⟩
    obtain ⟨hfault, hevents, hcalls⟩ := heq
    refine ⟨⟨hfault.trans h.fault, hevents ▸ h.events⟩, [], ?_, fun _ => rfl⟩
    simp [addresses, hevents, hcalls]
  | send pAddr hb =>
    obtain ⟨e, he, -, heq⟩ := s.send_eq pAddr hb
    rw [heq]
    split_ifs with hloop
    · refine ⟨⟨h.fault, fun d hd => ?_⟩, [e.addr], by simp [addresses], by simp [hloop]⟩
      rcases List.mem_append.1 hd with hd | hd
      · exact h.events d hd
      · exact List.mem_singleton.1 hd ▸ he
    · exact ⟨h, [], by simp, fun _ => rfl⟩
  | @doEvent e rest res hev =>
    obtain ⟨bytes, iret, hcalls, hevents, hfault⟩ :=
      doEvent_spec (h.events e (by simp [hev])) { s with events := rest } res
    refine ⟨⟨hfault.trans h.fault, fun d hd => h.events d ?_⟩, [], ?_, fun _ => rfl⟩
    · rw [hevents] at hd
      exact hev ▸ List.mem_cons_of_mem e hd
    · simp [addresses, hcalls, hevents, hev]
  | afterRecv _ _ =>
    unfold afterRecv
    split_ifs <;> exact ⟨⟨h.fault, h.events⟩, [], by simp [addresses], fun _ => rfl⟩
  | afterSend _ | handleClosed _ =>
    exact ⟨⟨h.fault, h.events⟩, [], by simp [addresses], fun _ => rfl⟩

theorem Queued.reachable (h : Begun s) (hr : Reachable step s t) : Queued t :=
  hr.invariant (fun _ _ _ ht hs => (queued_step ht hs).1) h.queued

/-- A run leaves the addresses there are where they are. -/
theorem addresses_run : ∀ {as : List Label} {s t : CUvUdp}, Queued s → run step s as = some t →
    ∃ sent, t.addresses = s.addresses ++ sent ∧ (s.loop = false → sent = [])
  | [], s, t, _, hr => by
    rw [run_nil, Option.some.injEq] at hr
    exact ⟨[], by simp [hr], fun _ => rfl⟩
  | l :: as, s, t, h, hr => by
    obtain ⟨u, hu, hr⟩ := run_cons_eq_some.1 hr
    obtain ⟨hq, sent, hsent, hnil⟩ := queued_step h hu
    obtain ⟨more, hmore, hnil'⟩ := addresses_run hq hr
    refine ⟨sent ++ more, by rw [hmore, hsent, List.append_assoc], fun hl => ?_⟩
    rw [hnil hl, hnil' ((loop_step hu).trans hl)]
    rfl

/-- The queue can be dispatched to its end. -/
theorem drain : ∀ {n : ℕ} {s : CUvUdp}, Queued s → s.events.length = n →
    ∃ t, run step s (List.replicate n (.doEvent 0)) = some t
      ∧ t.sendCalls.length = s.sendCalls.length + n
  | 0, s, _, _ => ⟨s, rfl, rfl⟩
  | n + 1, s, h, hn => by
    obtain ⟨e, rest, hev⟩ := List.exists_cons_of_length_eq_add_one hn
    have hs : step s (.doEvent 0) = some ({ s with events := rest }.doEvent e 0) := by
      simp [step, act, h.fault, hev]
    obtain ⟨bytes, iret, hcalls, hevents, -⟩ :=
      doEvent_spec (h.events e (by simp [hev])) { s with events := rest } 0
    obtain ⟨t, ht, hlen⟩ := drain (queued_step h hs).1 (n := n) (by
      rw [hevents]
      simpa [hev] using hn)
    refine ⟨t, run_cons_eq_some.2 ⟨_, hs, ht⟩, ?_⟩
    rw [hlen, hcalls, List.length_append, List.length_singleton, Nat.add_assoc, Nat.add_comm 1]

/-! ## Fidelity -/

theorem sendStrIp_eq (s : CUvUdp) (buffer strIp : List UInt8) (uPort : UInt16) (isIPv6 : Bool) :
    s.sendStrIp buffer strIp uPort isIPv6
      = s.send buffer (parseAddr strIp uPort isIPv6).2 := by
  cases isIPv6 <;> rfl

/-- What one `Send` promises, with `behind` what follows the address of its event in memory: if it
returns the size, `uv_udp_send` reads the address parsed wherever a run leads to the call, and if
the text is rejected, it queues nothing and returns 0. -/
structure Faithful (s : CUvUdp) (buffer strIp : List UInt8) (uPort : UInt16) (isIPv6 : Bool)
    (behind : List UInt8) : Prop where
  arrives : (s.sendStrIp buffer strIp uPort isIPv6).1 = buffer.length → ∀ as t addr bytes iret,
    run step (s.sendStrIp buffer strIp uPort isIPv6).2 as = some t →
      t.sendCalls[s.sendCalls.length + s.events.length]? = some (addr, bytes, iret) →
        readAddr addr behind = (parseAddr strIp uPort isIPv6).2
  rejected : (parseAddr strIp uPort isIPv6).1 ≠ 0 →
    (s.sendStrIp buffer strIp uPort isIPv6).2.events = s.events
      ∧ (s.sendStrIp buffer strIp uPort isIPv6).1 = 0

/-- An IPv4 address is read as it was parsed, an IPv6 address if its last 12 bytes follow. -/
theorem readAddr_eq_iff (strIp : List UInt8) (uPort : UInt16) (isIPv6 : Bool)
    (behind : List UInt8) : readAddr ((parseAddr strIp uPort isIPv6).2.take 16) behind
        = (parseAddr strIp uPort isIPv6).2
      ↔ (isIPv6 = true → behind.take 12 = (parseAddr strIp uPort isIPv6).2.drop 16) := by
  cases isIPv6 with
  | false =>
    obtain ⟨a, ha, heq⟩ := uvIp4Addr_snd (cStr strIp) uPort
    have hlen : (sockaddrIn uPort a).length = 16 := length_sockaddrIn ha
    have hparse : (parseAddr strIp uPort false).2 = sockaddrIn uPort a := heq
    rw [hparse, readAddr, List.take_of_length_le hlen.le, addrLen_inet rfl, Option.getD_some,
      List.take_append_of_le_length hlen.ge, List.take_of_length_le hlen.le]
    simp
  | true =>
    obtain ⟨a, scopeId, ha, heq⟩ := uvIp6Addr_snd (cStr strIp) uPort
    have hlen : (sockaddrIn6 uPort a scopeId).length = 28 := length_sockaddrIn6 ha scopeId
    have hparse : (parseAddr strIp uPort true).2 = sockaddrIn6 uPort a scopeId := heq
    rw [hparse, readAddr, addrLen_inet6 rfl]
    generalize sockaddrIn6 uPort a scopeId = w at hlen
    have htake : (w.take 16).length = 16 := by simp [hlen]
    have hread : (w.take 16 ++ behind).take ((some 28).getD 0) = w.take 16 ++ behind.take 12 := by
      rw [Option.getD_some, List.take_append, htake, List.take_of_length_le (by simp [hlen])]
    rw [hread]
    constructor
    · exact fun h _ => List.append_cancel_left (h.trans (List.take_append_drop 16 w).symm)
    · intro h
      rw [h rfl, List.take_append_drop]

section Send

variable {buffer strIp behind : List UInt8} {uPort : UInt16} {isIPv6 : Bool}

variable (strIp uPort isIPv6) in
/-- With a looper `Send` queues an event with the first 16 bytes of the address. -/
theorem sendStrIp_queues (hloop : s.loop = true) (hb : buffer.length ≤ packUdpSize) :
    ∃ e, Sendable e ∧ e.addr = (parseAddr strIp uPort isIPv6).2.take 16
      ∧ s.sendStrIp buffer strIp uPort isIPv6
        = (buffer.length, { s with events := s.events ++ [e] }) := by
  obtain ⟨e, he, haddr, heq⟩ := s.send_eq (parseAddr strIp uPort isIPv6).2 hb
  refine ⟨e, he, haddr, ?_⟩
  rw [sendStrIp_eq, heq, if_pos hloop]

theorem Queued.push (hq : Queued s) {e : UvEvent Unit} (he : Sendable e) :
    Queued { s with events := s.events ++ [e] } := by
  refine ⟨hq.fault, fun d hd => ?_⟩
  rcases List.mem_append.1 hd with hd | hd
  · exact hq.events d hd
  · exact List.mem_singleton.1 hd ▸ he

/-- The call of `uv_udp_send` for the datagram is given the address its event has. -/
theorem call_addr (hq : Queued s) {e : UvEvent Unit} (he : Sendable e) {as : List Label}
    {addr bytes : List UInt8} {iret : ℤ}
    (hr : run step { s with events := s.events ++ [e] } as = some t)
    (hcall : t.sendCalls[s.sendCalls.length + s.events.length]? = some (addr, bytes, iret)) :
    addr = e.addr := by
  obtain ⟨sent, hsent, -⟩ := addresses_run (hq.push he) hr
  have hat : t.addresses[s.sendCalls.length + s.events.length]? = some e.addr := by
    rw [hsent]
    simp [addresses]
  have hcalled : t.addresses[s.sendCalls.length + s.events.length]? = some addr := by
    have hlt : s.sendCalls.length + s.events.length < (t.sendCalls.map (·.1)).length := by
      simpa using (List.getElem?_eq_some_iff.1 hcall).1
    rw [addresses, List.getElem?_append_left hlt, List.getElem?_map, hcall]
    rfl
  exact Option.some.inj (hcalled.symm.trans hat)

/-- Without a looper nothing is ever sent. -/
theorem faithful_of_no_loop (hq : Queued s) (hb : buffer.length ≤ packUdpSize)
    (hloop : s.loop = false) : Faithful s buffer strIp uPort isIPv6 behind := by
  obtain ⟨e, -, -, heq⟩ := s.send_eq (parseAddr strIp uPort isIPv6).2 hb
  have hsend : s.sendStrIp buffer strIp uPort isIPv6 = (0, s) := by
    rw [sendStrIp_eq, heq, hloop]
    rfl
  refine ⟨fun _ as t addr bytes iret hr hcall => ?_, fun _ => by simp [hsend]⟩
  rw [hsend] at hr
  obtain ⟨sent, hsent, hnil⟩ := addresses_run hq hr
  have hlen : t.sendCalls.length + t.events.length = s.sendCalls.length + s.events.length := by
    simpa [addresses, hnil hloop] using congrArg List.length hsent
  have hlt := (List.getElem?_eq_some_iff.1 hcall).1
  omega

theorem Faithful.accepted (h : Faithful s buffer strIp uPort isIPv6 behind)
    (hb : buffer.length ≤ packUdpSize) (hloop : s.loop = true) :
    (parseAddr strIp uPort isIPv6).1 = 0 := by
  obtain ⟨e, -, -, heq⟩ := sendStrIp_queues strIp uPort isIPv6 hloop hb
  by_contra hne
  have hkept := (h.rejected hne).1
  rw [heq] at hkept
  simp at hkept

theorem Faithful.follows (h : Faithful s buffer strIp uPort isIPv6 behind) (hq : Queued s)
    (hb : buffer.length ≤ packUdpSize) (hloop : s.loop = true) :
    isIPv6 = true → behind.take 12 = (parseAddr strIp uPort isIPv6).2.drop 16 := by
  obtain ⟨e, he, haddr, heq⟩ := sendStrIp_queues strIp uPort isIPv6 hloop hb
  obtain ⟨t, ht, hlen⟩ := drain (hq.push he) (n := s.events.length + 1) (by simp)
  have hlt : s.sendCalls.length + s.events.length < t.sendCalls.length := by
    rw [hlen]
    exact Nat.lt_succ_self _
  rcases hcall : t.sendCalls[s.sendCalls.length + s.events.length] with ⟨addr, bytes, iret⟩
  have hget := (List.getElem?_eq_getElem hlt).trans (congrArg some hcall)
  have hread : readAddr addr behind = (parseAddr strIp uPort isIPv6).2 :=
    h.arrives (by rw [heq]) _ t addr bytes iret (by rw [heq, ht]) hget
  rw [call_addr hq he ht hget, haddr] at hread
  exact (readAddr_eq_iff strIp uPort isIPv6 behind).1 hread

theorem faithful_of_follows (hq : Queued s) (hb : buffer.length ≤ packUdpSize)
    (hloop : s.loop = true) (haccept : (parseAddr strIp uPort isIPv6).1 = 0)
    (hfollows : isIPv6 = true → behind.take 12 = (parseAddr strIp uPort isIPv6).2.drop 16) :
    Faithful s buffer strIp uPort isIPv6 behind := by
  obtain ⟨e, he, haddr, heq⟩ := sendStrIp_queues strIp uPort isIPv6 hloop hb
  refine ⟨fun _ as t addr bytes iret hr hcall => ?_, fun hne => absurd haccept hne⟩
  rw [heq] at hr
  rw [call_addr hq he hr hcall, haddr]
  exact (readAddr_eq_iff strIp uPort isIPv6 behind).2 hfollows

end Send

/-- In every state a socket gets into, a datagram goes where its text says if and only if the text
is accepted and is IPv4, or is IPv6 and the bytes cut off follow the event's address in memory; or
there is no looper. -/
theorem faithful_iff {s₀ s : CUvUdp} (hs₀ : Begun s₀) (hr : Reachable step s₀ s)
    {buffer : List UInt8} (hb : buffer.length ≤ packUdpSize) (strIp : List UInt8)
    (uPort : UInt16) (isIPv6 : Bool) (behind : List UInt8) :
    Faithful s buffer strIp uPort isIPv6 behind ↔ s.loop = false
      ∨ (parseAddr strIp uPort isIPv6).1 = 0
        ∧ (isIPv6 = true → behind.take 12 = (parseAddr strIp uPort isIPv6).2.drop 16) := by
  have hq : Queued s := .reachable hs₀ hr
  constructor
  · intro h
    rcases hloop : s.loop with _ | _
    · exact .inl rfl
    · exact .inr ⟨h.accepted hb hloop, h.follows hq hb hloop⟩
  · rintro (hloop | ⟨haccept, hfollows⟩)
    · exact faithful_of_no_loop hq hb hloop
    · rcases hloop : s.loop with _ | _
      · exact faithful_of_no_loop hq hb hloop
      · exact faithful_of_follows hq hb hloop haccept hfollows

/-- The bytes of `127.0.0.1`. -/
def localhost : List UInt8 := List.map Char.toUInt8 ['1', '2', '7', '.', '0', '.', '0', '.', '1']

/-- The bytes of `::1`. -/
def localhost6 : List UInt8 := List.map Char.toUInt8 [':', ':', '1']

theorem faithful_localhost :
    Faithful (new.attachLooper 0).2 [65] localhost 7000 false (malloc 12) :=
  (faithful_iff (.inr ⟨0, rfl⟩) ⟨[], rfl⟩ (by decide) localhost 7000 false (malloc 12)).2
    (.inr ⟨by decide, by simp⟩)

/-- `::1` does not arrive over a pointer and a block's padding, and a name is sent all the same. -/
theorem unfaithful :
    ¬ Faithful (new.attachLooper 0).2 [65] localhost6 7000 true
        [192, 178, 164, 226, 0, 0, 0, 0, 0, 0, 0, 0]
      ∧ ¬ Faithful (new.attachLooper 0).2 [65] (List.map Char.toUInt8 ['h', 'o', 's', 't']) 7000
        false (malloc 12) := by
  have hq : Queued (new.attachLooper 0).2 := Begun.queued (.inr ⟨0, rfl⟩)
  constructor
  · intro h
    exact absurd (h.follows hq (by decide) rfl rfl) (by decide)
  · intro h
    exact absurd (h.accepted (by decide) rfl) (by decide)

end CUvUdp

end TestLibuv
