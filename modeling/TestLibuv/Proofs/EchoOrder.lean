import TestLibuv.Echo
import TestLibuv.Proofs.MessageOrder
import TestLibuv.Proofs.PacketWait
import TestLibuv.Proofs.RecvCallbacks
import TestLibuv.Proofs.WriteParams

/-!
# What comes back

The buffer the server's package callback sends back is the packet it was given. The callbacks of a
session run in the order of its packets, one call of `uv_write` each, on the handle that has the
session's connection, so what was sent on the connection are packets of that session in their order,
and what the client is handed are those in turn.
-/

namespace TestLibuv

open CMem Framing Runs

/-! ## One callback -/

/-- What the server's package callback sends back, where it stays within its blocks. -/
def echoOf (pNetPacket : List UInt8) : Option (List UInt8) :=
  match TestTcpSvrFunc.recv pNetPacket with
  | .ok (_, buffer) => some buffer
  | .error _ => none

theorem echoOf_eq_some {pkt buffer : List UInt8} :
    echoOf pkt = some buffer
      ↔ ∃ szRecvData, TestTcpSvrFunc.recv pkt = .ok (szRecvData, buffer) := by
  unfold echoOf
  rcases TestTcpSvrFunc.recv pkt with f | ⟨szRecvData, b⟩ <;> simp [eq_comm]

theorem sendBack_eq {pkt data buffer : List UInt8} {d : UInt32} (hlen : 12 ≤ pkt.length)
    (hd : d.toNat ≤ 1024) (hdata : data.length = d.toNat)
    (h : TestTcpSvrFunc.sendBack pkt d data = .ok buffer) : buffer = pkt.take 12 ++ data := by
  have hsize : (toU32 (ofU32 (d + netPackageHeadlen))).toNat = d.toNat + 12 := by
    rw [toU32_ofU32, toNat_packSize, if_pos (by omega)]
  have hhead : (pkt.take 12).length = 12 := List.length_take_of_le hlen
  obtain ⟨head, hload, h⟩ := bind_eq_ok h
  obtain rfl : pkt.take 12 = head := Except.ok.inj ((loadN_ok hlen).symm.trans hload)
  obtain ⟨b, hfirst, hsecond⟩ := bind_eq_ok h
  rw [hsize] at hfirst
  obtain ⟨rfl, -⟩ := memcpy_start hfirst
  unfold memcpy at hsecond
  split_ifs at hsecond
  obtain rfl := Except.ok.inj hsecond
  have hroom : (12 : ℤ).toNat = (pkt.take 12).length := hhead.symm
  rw [hroom, List.take_left, List.append_cancel_left_eq]
  simp [hhead, hdata]

/-- A packet as long as it says is sent back as it is. -/
theorem echoOf_eq {pkt buffer : List UInt8} (h : echoOf pkt = some buffer) :
    FitsRecv pkt ∧ buffer.length < 2 ^ 32
      ∧ ∀ d, u32Of (pkt.drop 8) = some d → pkt.length = 12 + d.toNat → buffer = pkt := by
  obtain ⟨szRecvData, h⟩ := echoOf_eq_some.1 h
  have hfits := stays_server_iff.1 ⟨_, h⟩
  obtain ⟨d, hd, hlen, hle⟩ := hfits
  obtain ⟨⟨d', data⟩, hfields, h⟩ := bind_eq_ok h
  obtain ⟨sz, -, h⟩ := bind_eq_ok h
  obtain ⟨b, hback, h⟩ := bind_eq_ok h
  obtain ⟨-, rfl⟩ := Prod.mk.inj (Except.ok.inj h)
  obtain ⟨hd', -, rfl⟩ := packetFields_eq_ok_iff.1 hfields
  obtain rfl := Option.some.inj (hd.symm.trans hd')
  have hdata : ((pkt.drop 12).take d.toNat).length = d.toNat :=
    List.length_take_of_le (by rw [List.length_drop]; omega)
  have hb := sendBack_eq (by omega) hle hdata hback
  refine ⟨⟨d, hd, hlen, hle⟩, ?_, fun e he hwhole => ?_⟩
  · rw [hb, List.length_append, hdata, List.length_take]
    omega
  · obtain rfl := Option.some.inj (hd.symm.trans he)
    have hall : (pkt.drop 12).take d.toNat = pkt.drop 12 :=
      List.take_of_length_le (by rw [List.length_drop]; omega)
    rw [hb, hall, List.take_append_drop]

theorem NetPacket.wellFormed (p : NetPacket) : PacketSync.WellFormed p.flag p.bytes := by
  refine ⟨u32Of_u32Bytes _ _, by rw [p.length_bytes]; omega, p.dataSize, ?_,
    by rw [p.length_bytes, p.toNat_dataSize]⟩
  simp only [NetPacket.bytes]
  exact u32Of_u32Bytes _ _

theorem NetPacket.echoOf_bytes {p : NetPacket} {buffer : List UInt8}
    (h : echoOf p.bytes = some buffer) : buffer = p.bytes := by
  obtain ⟨-, -, d, hd, hlen⟩ := p.wellFormed
  exact (echoOf_eq h).2.2 d hd hlen

namespace CTcpServer

variable {s s' : CTcpServer} {l : Label}

/-- Where a session sends: the context it owns has a connection, which the session was made for. -/
def SendsTo (s : CTcpServer) (a m : ℕ) : Prop :=
  (a, m) ∈ s.accepted ∧ ∃ p y, s.sessions.cells a = some p
    ∧ s.ctxs.cells p.clientSessionCtx = some y ∧ y.conn = some m

theorem SendsTo.frame {a m : ℕ} (h : SendsTo s a m) (hf : Frame s s') : SendsTo s' a m := by
  obtain ⟨hin, p, y, hp, hy, hm⟩ := h
  obtain ⟨y', hy', hk⟩ := hf.ctx_some hy
  exact ⟨hf.accepted ▸ hin, p, y', hf.sessions ▸ hp, hy', hk.conn.trans hm⟩

/-- What a package callback did: it sent the packet back on the session's handle, and `uv_write`
took all of it or nothing. -/
theorem echo_spec {pkt : List UInt8} {session : Option ℕ} {res : ℤ} {a : ℕ}
    (h : TestTcpSvrFunc.echo s pkt session res = .ok (a, s')) : session = some a ∧ Frame s s'
      ∧ ∃ p buffer, s.sessions.cells a = some p ∧ echoOf pkt = some buffer
        ∧ (s'.writes = s.writes ∨ s'.writes = s.writes ++ [(p.clientSessionCtx, buffer)]) := by
  unfold TestTcpSvrFunc.echo at h
  rcases hr : TestTcpSvrFunc.recv pkt with f | ⟨szRecvData, buffer⟩ <;> rw [hr] at h
  · cases h
  have hecho : echoOf pkt = some buffer := echoOf_eq_some.2 ⟨szRecvData, hr⟩
  obtain ⟨⟨b, p⟩, hfollow, h⟩ := bind_eq_ok h
  obtain ⟨t, hsend, h⟩ := bind_eq_ok h
  obtain ⟨rfl, rfl⟩ := Prod.mk.inj (Except.ok.inj h)
  obtain ⟨hsession, hp⟩ := follow_eq_ok hfollow
  have hframe : Frame s t := (moves_send (l := .asyncCB) hsend).frame
  refine ⟨hsession, hframe, p, buffer, hp, hecho, ?_⟩
  obtain ⟨q, hq, hsend⟩ := bind_eq_ok hsend
  obtain rfl := Option.some.inj (hp.symm.trans (session_eq_ok hq))
  obtain ⟨⟨ok, u⟩, hinl, hsend⟩ := bind_eq_ok hsend
  obtain rfl := Except.ok.inj hsend
  obtain ⟨w, v, q, base, x, htake, -, hm, -, hout⟩ := sendinl_spec hinl
  have hwrites : v.writes = s.writes := by
    unfold takeParam at htake
    split at htake <;> obtain ⟨-, rfl⟩ := Prod.mk.inj htake <;> rfl
  rcases hout with ⟨-, rfl⟩ | ⟨-, -, rfl⟩
  · exact .inl hwrites
  · refine .inr ?_
    show v.writes ++ [(p.clientSessionCtx, base.take (toU32 buffer.length).toNat)] = _
    rw [hwrites, take_memcpy (echoOf_eq hecho).2.1 hm]

/-- The package callbacks that a step of the server makes are all of one session, for packets that
came on its connection; a step that makes none may start a session. -/
theorem callbacks_step {G : ℕ → Prop} (h : Parsing G s) (hs : step s l = some s') :
    (∃ a m, ∃ packets : List (List UInt8),
        s'.callbacks = s.callbacks ++ packets.map (.recv · (some a))
        ∧ s'.accepted = s.accepted ∧ SendsTo s' a m)
      ∨ ∃ cbs acc, s'.callbacks = s.callbacks ++ cbs ∧ cbs.filterMap Echo.packageCb = []
        ∧ s'.accepted = s.accepted ++ acc ∧ ∀ r ∈ acc, s.sessions.next ≤ r.1 := by
  have hquiet : ∀ {t : CTcpServer}, t.callbacks = s.callbacks → t.accepted = s.accepted →
      ∃ cbs acc, t.callbacks = s.callbacks ++ cbs ∧ cbs.filterMap Echo.packageCb = []
        ∧ t.accepted = s.accepted ++ acc ∧ ∀ r ∈ acc, s.sessions.next ≤ r.1 :=
    fun hc ha => ⟨[], [], by simp [hc], rfl, by simp [ha], by simp⟩
  obtain ⟨-, ht⟩ := step_trans hs
  cases ht with
  | deadTarget _ _ _ | inCall => exact .inr (hquiet rfl rfl)
  | moves hm | push hm _ | pop hm | closedAlone hm _ _ _ _ _ =>
    exact .inr (hquiet hm.frame.callbacks hm.frame.accepted)
  | giveBack errmsg htake hx hback =>
    rcases takeCtx_cases htake with ⟨-, -, rfl⟩ | ⟨rest, -, rfl⟩ <;> exact .inr (hquiet rfl rfl)
  | accept htake hx _ _ =>
    rcases takeCtx_cases htake with ⟨-, -, rfl⟩ | ⟨rest, -, rfl⟩ <;>
      exact .inr ⟨[_], [_], rfl, rfl, rfl, by simp⟩
  | @recv c data x y a p packet log hx hon ha hp hy hrecv =>
    obtain ⟨b, m, hreads⟩ := h.reading _ _ hx hon
    obtain rfl := Option.some.inj (ha.symm.trans hreads.handleData)
    obtain rfl := hreads.session _ hp
    obtain rfl := Option.some.inj (hx.symm.trans hy)
    refine .inl ⟨a, m, packet.delivered log, ?_, rfl, hreads.accepted, p, { x with packet }, hp, ?_,
      hreads.conn⟩
    · rw [hreads.parentClientSession]
      rfl
    · exact (cells_setCtx hx _ _).trans (if_pos rfl)
  | @sessionEnds c v x a b p q hx _ _ _ hp hpc hmap hq hcl hv =>
    refine .inr ⟨[.close x.clientid b], [], ?_, rfl, ?_, by simp⟩ <;>
      rcases recycle_cases hv with ⟨-, rfl⟩ | ⟨rfl, -⟩
    · rfl
    · rfl
    · exact (List.append_nil _).symm
    · exact (List.append_nil _).symm

end CTcpServer

/-! ## The client's parser -/

/-- The client's parser took these chunks and handed over what a fresh one does. -/
def CTcpClient.Parsed (head : UInt32) (cs : List (List UInt8)) (s : CTcpClient) : Prop :=
  ∃ log, (PacketSync.fresh head).feed cs = some (.ok (s.packet, log)) ∧ s.recvs = frames log

namespace CTcpClient

variable {s s' : CTcpClient} {l : Label} {head : UInt32} {cs : List (List UInt8)}

theorem parsed_attached (head : UInt32) (id : ℤ) : Parsed head [] (attached head id) :=
  ⟨[], rfl, rfl⟩

theorem Parsed.afterRecv (h : Parsed head cs s) (hf : s.fault = false) (data : List UInt8) :
    Parsed head (if (s.afterRecv data).fault then cs
      else cs ++ Echo.chunk (.client (.afterRecv data))) (s.afterRecv data) := by
  obtain ⟨log, hfeed, hrecvs⟩ := h
  unfold CTcpClient.afterRecv
  by_cases hdata : data = []
  · have hchunk : Echo.chunk (.client (.afterRecv data)) = [] := if_pos hdata
    rw [if_pos hdata, hchunk, List.append_nil, ite_self]
    exact ⟨log, hfeed, hrecvs⟩
  have hchunk : Echo.chunk (.client (.afterRecv data)) = [data] := if_neg hdata
  rw [if_neg hdata, hchunk]
  rcases hr : s.packet.onRecvData data with _ | e | ⟨packet, log'⟩
  · exact ⟨log, hfeed, hrecvs⟩
  · exact ⟨log, hfeed, hrecvs⟩
  · dsimp only
    have hnext := PacketSync.feed_snoc hfeed hr
    have hcb : packet.funcPackageCb = true := ((PacketSync.wf_fresh head).feed_sound hnext).2.2.1
    rw [if_neg (by simp [hf])]
    refine ⟨log ++ log', hnext, ?_⟩
    rw [hrecvs, PacketSync.delivered_of_cb hcb, frames_append]

theorem Parsed.step (h : Parsed head cs s) (hs : step s l = some s') :
    Parsed head (if s'.fault then cs else cs ++ Echo.chunk (.client l)) s' := by
  have hkept : ∀ {t : CTcpClient}, t.packet = s.packet → t.recvs = s.recvs →
      Parsed head (if t.fault then cs else cs ++ []) t := by
    intro t hp hr
    rw [List.append_nil, ite_self]
    obtain ⟨log, hfeed, hrecvs⟩ := h
    exact ⟨log, hp ▸ hfeed, hr.trans hrecvs⟩
  cases l with
  | afterRecv data =>
    have hf : s.fault = false := by
      unfold CTcpClient.step at hs
      split_ifs at hs with hf
      simpa using hf
    unfold CTcpClient.step at hs
    rw [if_neg (by simp [hf])] at hs
    simp only [act, loopAct] at hs
    split_ifs at hs
    obtain rfl := Option.some.inj hs
    exact h.afterRecv hf data
  | _ => cases step_trans hs <;> exact hkept rfl rfl

end CTcpClient

/-! ## The run -/

/-- `uv_write` took nothing of a packet that was to be sent back, or all of what was sent back. -/
def EchoCall.Answers (c : EchoCall) (pkt : List UInt8) : Prop :=
  ∀ r ∈ c.took, echoOf pkt = some r.2

namespace Echo

variable {w w' : Echo} {n : ℕ} {clientHead packhead : UInt32}

/-- The callbacks of the sessions: those that wait can send back on the connection of their session,
those that ran did, and there is one for each packet, in order. -/
structure Serving (n : ℕ) (w : Echo) : Prop where
  waiting : ∀ p ∈ w.pending, ∃ a m, p.2 = some a ∧ w.server.SendsTo a m
  called : ∀ c ∈ w.calls, ∃ m, (c.session, m) ∈ w.server.accepted ∧ ∀ r ∈ c.took, r.1 = some m
  answered : ∀ a, (a, n) ∈ w.server.accepted → ∃ ran, w.server.packetsOf a = ran ++ w.pendingOf a
    ∧ List.Forall₂ EchoCall.Answers (w.callsOf a) ran

/-- Both directions, and what has come back. -/
structure Echoes (n : ℕ) (clientHead packhead : UInt32) (w : Echo) : Prop where
  carries : Link.Carries n packhead w.toLink
  serving : Serving n w
  parsed : w.client.Parsed clientHead w.received
  back : w.received.flatten <+: (w.outgoing n).flatten

theorem echoes_start (n : ℕ) (clientHead : UInt32) (id : ℤ) (packhead : UInt32) :
    Echoes n clientHead packhead (start clientHead id packhead) where
  carries := Link.carries_start n clientHead id packhead
  serving := by constructor <;> simp [start, Link.start, CTcpServer.started]
  parsed := CTcpClient.parsed_attached clientHead id
  back := List.prefix_rfl

/-! ## A step -/

theorem Serving.client (h : Serving n w) (hserver : w'.server = w.server)
    (hpending : w'.pending = w.pending) (hcalls : w'.calls = w.calls) : Serving n w' where
  waiting p hp := by
    rw [hpending] at hp
    rw [hserver]
    exact h.waiting p hp
  called c hc := by
    rw [hcalls] at hc
    rw [hserver]
    exact h.called c hc
  answered a ha := by
    rw [hserver] at ha ⊢
    rw [pendingOf, callsOf, hpending, hcalls]
    exact h.answered a ha

theorem filterMap_packageCb (a : ℕ) : ∀ packets : List (List UInt8),
    (packets.map fun pkt => ServerCb.recv pkt (some a)).filterMap packageCb
      = packets.map (·, some a)
  | [] => rfl
  | pkt :: packets => by
    rw [List.map_cons, List.map_cons, ← filterMap_packageCb a packets]
    rfl

theorem pendingOf_map {a b : ℕ} {packets : List (List UInt8)}
    (h : w.pending = packets.map (·, some a)) : w.pendingOf b = if a = b then packets else [] := by
  rw [pendingOf, h, List.filterMap_map]
  by_cases hab : a = b <;> simp [hab]

/-- What hands no package over hands none to a session. -/
theorem filterMap_handed_nil {cbs : List ServerCb} (h : cbs.filterMap packageCb = []) (a : ℕ) :
    cbs.filterMap (·.handed a) = [] := by
  rw [List.filterMap_eq_nil_iff] at h ⊢
  intro cb hcb
  cases cb with
  | recv pkt session => exact absurd (h _ hcb) (by simp [packageCb])
  | newConn | close => rfl

theorem Serving.callsOf_new (h : Serving n w) (hp : w.server.Parsing (· = n)) {a : ℕ}
    (ha : w.server.sessions.next ≤ a) : w.callsOf a = [] := by
  refine List.filter_eq_nil_iff.2 fun c hc => ?_
  obtain ⟨m, hin, -⟩ := h.called c hc
  have hlt := (hp.accepted_lt _ _ hin).1
  simp only [decide_eq_true_eq]
  omega

theorem Serving.server (h : Serving n w) (ho : w.server.Parsing (· = n)) (hidle : w.pending = [])
    {k : CTcpServer.Label} {t : CTcpServer} (hs : w.server.step k = some t)
    (hserver : w'.server = t)
    (hpending : w'.pending =
      (t.callbacks.drop w.server.callbacks.length).filterMap packageCb)
    (hcalls : w'.calls = w.calls) : Serving n w' := by
  subst hserver
  have hnone : ∀ a, w.pendingOf a = [] := fun a => by rw [pendingOf, hidle]; rfl
  rcases CTcpServer.callbacks_step ho hs with ⟨a, m, packets, hcbs, hacc, hto⟩ |
    ⟨cbs, acc, hcbs, hno, hacc, hnew⟩
  · rw [hcbs, List.drop_left, filterMap_packageCb] at hpending
    refine ⟨fun p hp => ?_, fun c hc => ?_, fun b hb => ?_⟩
    · rw [hpending] at hp
      obtain ⟨pkt, -, rfl⟩ := List.mem_map.1 hp
      exact ⟨a, m, rfl, hto⟩
    · rw [hcalls] at hc
      rw [hacc]
      exact h.called c hc
    · rw [hacc] at hb
      obtain ⟨ran, hran, hall⟩ := h.answered b hb
      rw [hnone, List.append_nil] at hran
      rw [CTcpServer.packetsOf_of_callbacks _ hcbs, CTcpServer.filterMap_handed,
        pendingOf_map hpending, hran, callsOf, hcalls]
      exact ⟨ran, rfl, hall⟩
  · rw [hcbs, List.drop_left, hno] at hpending
    have hpackets : ∀ b, w'.server.packetsOf b = w.server.packetsOf b := fun b => by
      rw [CTcpServer.packetsOf_of_callbacks _ hcbs, filterMap_handed_nil hno, List.append_nil]
    have hwait : ∀ b, w'.pendingOf b = [] := fun b => by rw [pendingOf, hpending]; rfl
    refine ⟨fun p hp => by simp [hpending] at hp, fun c hc => ?_, fun b hb => ?_⟩
    · rw [hcalls] at hc
      obtain ⟨m, hin, hm⟩ := h.called c hc
      exact ⟨m, by rw [hacc]; exact List.mem_append_left _ hin, hm⟩
    · rw [hpackets, hwait, callsOf, hcalls]
      rw [hacc, List.mem_append] at hb
      rcases hb with hb | hb
      · obtain ⟨ran, hran, hall⟩ := h.answered b hb
        rw [hnone] at hran
        exact ⟨ran, hran, hall⟩
      · have hnext := hnew _ hb
        refine ⟨[], ho.no_packets b hnext, ?_⟩
        rw [← callsOf, h.callsOf_new ho hnext]
        exact .nil

/-- A package callback sends on the connection of its session. -/
theorem tookOf_echo {s s' : CTcpServer} {pkt : List UInt8} {session : Option ℕ} {res : ℤ}
    {a m : ℕ} (h : TestTcpSvrFunc.echo s pkt session res = .ok (a, s')) (hto : s.SendsTo a m) :
    ∀ r ∈ tookOf s s', r.1 = some m ∧ echoOf pkt = some r.2 := by
  obtain ⟨-, hframe, p, buffer, hp, hecho, hwrites | hwrites⟩ := CTcpServer.echo_spec h
  · simp [tookOf, hwrites]
  · obtain ⟨-, q, y, hq, hy, hm⟩ := hto.frame hframe
    obtain rfl := Option.some.inj ((hframe.sessions ▸ hp).symm.trans hq)
    simp only [tookOf, hwrites, List.drop_left, List.head?_cons, Option.map_some,
      Option.mem_def, Option.some.injEq, hy, Option.bind_some]
    rintro r rfl
    exact ⟨hm, hecho⟩

theorem Serving.callback (h : Serving n w) {pkt : List UInt8} {session : Option ℕ} {res : ℤ}
    {rest : List (List UInt8 × Option ℕ)} {a : ℕ} {s' : CTcpServer}
    (hw : w.pending = (pkt, session) :: rest)
    (he : TestTcpSvrFunc.echo w.server pkt session res = .ok (a, s')) : Serving n { w with
      server := s', pending := rest, calls := w.calls ++ [⟨a, tookOf w.server s'⟩] } := by
  obtain ⟨rfl, hframe, -⟩ := CTcpServer.echo_spec he
  obtain ⟨_, m, ha, hto⟩ := h.waiting (pkt, some a) (by simp [hw])
  obtain rfl := Option.some.inj ha
  have htook := tookOf_echo he hto
  refine ⟨fun p hp => ?_, fun c hc => ?_, fun b hb => ?_⟩
  · obtain ⟨b, m', hb, hto'⟩ := h.waiting p (by rw [hw]; exact List.mem_cons_of_mem _ hp)
    exact ⟨b, m', hb, hto'.frame hframe⟩
  · show ∃ m, (c.session, m) ∈ s'.accepted ∧ _
    rw [hframe.accepted]
    rcases List.mem_append.1 hc with hc | hc
    · exact h.called c hc
    · obtain rfl := List.mem_singleton.1 hc
      exact ⟨m, hto.1, fun r hr => (htook r hr).1⟩
  · have hb : (b, n) ∈ w.server.accepted := hframe.accepted ▸ hb
    obtain ⟨ran, hran, hall⟩ := h.answered b hb
    have hpackets : s'.packetsOf b = ran ++ w.pendingOf b := by
      rw [CTcpServer.packetsOf, hframe.callbacks]
      exact hran
    show ∃ ran, s'.packetsOf b = ran ++ rest.filterMap _
      ∧ List.Forall₂ EchoCall.Answers
        ((w.calls ++ [(⟨a, tookOf w.server s'⟩ : EchoCall)]).filter (·.session = b)) ran
    rw [hpackets, pendingOf, hw, List.filter_append]
    by_cases hab : a = b
    · have hanswers : EchoCall.Answers ⟨b, tookOf w.server s'⟩ pkt := fun r hr => (htook r hr).2
      exact ⟨ran ++ [pkt], by simp [hab], List.rel_append hall (by simpa [hab] using hanswers)⟩
    · exact ⟨ran, by simp [hab], by simpa [hab, callsOf] using hall⟩

theorem outgoing_snoc (w : Echo) (c : EchoCall) (server : CTcpServer)
    (rest : List (List UInt8 × Option ℕ)) : w.outgoing n <+: outgoing { w with
      server, pending := rest, calls := w.calls ++ [c] } n := by
  unfold outgoing
  rw [List.filterMap_append]
  exact List.prefix_append _ _

theorem step_link {l : Link.Label} (hs : step n w (.link l) = some w') :
    w.admits l = true ∧ ∃ link, Link.step n w.toLink l = some link
      ∧ (w.received ++ chunk l).flatten <+: (w.outgoing n).flatten
      ∧ w' = { w with
        toLink := link
        pending := w.pending ++
          (link.server.callbacks.drop w.server.callbacks.length).filterMap packageCb
        received := if link.client.fault then w.received else w.received ++ chunk l } := by
  unfold step at hs
  dsimp only at hs
  by_cases hadm : w.admits l = true
  · rw [if_pos hadm] at hs
    obtain ⟨link, hlink, hs⟩ := Option.bind_eq_some_iff.1 hs
    by_cases hback : (w.received ++ chunk l).flatten <+: (w.outgoing n).flatten
    · rw [if_pos hback] at hs
      exact ⟨hadm, link, hlink, hback, (Option.some.inj hs).symm⟩
    · rw [if_neg hback] at hs
      cases hs
  · rw [if_neg hadm] at hs
    cases hs

theorem parsed_link {l : Link.Label} {link : Link} (h : w.client.Parsed clientHead w.received)
    (hs : Link.step n w.toLink l = some link) : link.client.Parsed clientHead
      (if link.client.fault then w.received else w.received ++ chunk l) := by
  cases l with
  | sendChecks buff =>
    simp only [Link.step, Option.ite_none_right_eq_some, Option.some.injEq] at hs
    obtain ⟨-, rfl⟩ := hs
    simpa [chunk] using h
  | sendPushes i =>
    obtain ⟨buff, -, rfl⟩ := Option.map_eq_some_iff.1 hs
    simpa [chunk] using show (w.client.pushSend buff).Parsed clientHead w.received from h
  | client k =>
    obtain ⟨t, ht, rfl⟩ := Option.map_eq_some_iff.1 hs
    exact h.step ht
  | server k =>
    obtain ⟨t, -, hs⟩ := Option.bind_eq_some_iff.1 hs
    split_ifs at hs
    obtain rfl := Option.some.inj hs
    simpa [chunk] using h

theorem Serving.link (h : Serving n w) (hp : w.server.Parsing (· = n)) {l : Link.Label}
    {link : Link} (hadm : w.admits l = true) (hs : Link.step n w.toLink l = some link)
    (received : List (List UInt8)) : Serving n { w with
      toLink := link
      pending := w.pending ++
        (link.server.callbacks.drop w.server.callbacks.length).filterMap packageCb
      received } := by
  have hclient : link.server = w.server → Serving n { w with
      toLink := link
      pending := w.pending ++
        (link.server.callbacks.drop w.server.callbacks.length).filterMap packageCb
      received } := fun hsame => h.client hsame (by simp [hsame]) rfl
  cases l with
  | sendChecks buff =>
    simp only [Link.step, Option.ite_none_right_eq_some, Option.some.injEq] at hs
    exact hclient (by rw [← hs.2])
  | sendPushes i =>
    obtain ⟨buff, -, rfl⟩ := Option.map_eq_some_iff.1 hs
    exact hclient rfl
  | client k =>
    obtain ⟨t, -, rfl⟩ := Option.map_eq_some_iff.1 hs
    exact hclient rfl
  | server k =>
    obtain ⟨t, ht, hs⟩ := Option.bind_eq_some_iff.1 hs
    split_ifs at hs
    obtain rfl := Option.some.inj hs
    have hidle : w.pending = [] := by
      simp only [admits, Bool.and_eq_true, List.isEmpty_iff] at hadm
      exact hadm.1
    exact h.server hp hidle ht rfl (by rw [hidle, List.nil_append]) rfl

theorem Echoes.link (h : Echoes n clientHead packhead w) {l : Link.Label}
    (hl : Link.NewCtx n w.toLink l) (hs : step n w (.link l) = some w') :
    Echoes n clientHead packhead w' := by
  obtain ⟨hadm, link, hlink, hback, rfl⟩ := step_link hs
  refine ⟨Link.carries_step h.carries hl hlink, h.serving.link h.carries.parsing hadm hlink _,
    parsed_link h.parsed hlink, ?_⟩
  dsimp only
  split_ifs
  · exact h.back
  · exact hback

theorem Echoes.callback (h : Echoes n clientHead packhead w) {res : ℤ}
    (hs : step n w (.callback res) = some w') : Echoes n clientHead packhead w' := by
  simp only [step] at hs
  rcases hw : w.pending with _ | ⟨⟨pkt, session⟩, rest⟩ <;> simp only [hw] at hs
  · cases hs
  split_ifs at hs
  rcases he : TestTcpSvrFunc.echo w.server pkt session res with f | ⟨a, s'⟩ <;>
    simp only [he, Option.some.injEq] at hs <;> subst hs
  · rw [← hw]
    refine ⟨⟨h.carries.client, h.carries.owned.of_eq rfl rfl rfl rfl,
      h.carries.parsing.dim (.of_rest _ _ _), h.carries.head, h.carries.arrived⟩,
      ⟨h.serving.waiting, h.serving.called, h.serving.answered⟩, h.parsed, h.back⟩
  · obtain ⟨-, hframe, -⟩ := CTcpServer.echo_spec he
    refine ⟨⟨h.carries.client, h.carries.owned.frame hframe, h.carries.parsing.frame hframe,
      hframe.head.trans h.carries.head, ?_⟩, h.serving.callback hw he, h.parsed,
      h.back.trans (outgoing_snoc w _ s' rest).flatten⟩
    show (s'.chunksOf n).flatten <+: _
    rw [hframe.dimmed.chunksOf]
    exact h.carries.arrived

/-- The context that the server takes the connection on is a new one. -/
def NewCtx (n : ℕ) (w : Echo) : Label → Prop
  | .link l => Link.NewCtx n w.toLink l
  | .callback _ => True

instance (n : ℕ) (w : Echo) : ∀ l, Decidable (NewCtx n w l)
  | .link _ => inferInstanceAs (Decidable (Link.NewCtx _ _ _))
  | .callback _ => .isTrue trivial

theorem echoes_step {l : Label} (h : Echoes n clientHead packhead w) (hl : NewCtx n w l)
    (hs : step n w l = some w') : Echoes n clientHead packhead w' := by
  cases l with
  | link l => exact h.link hl hs
  | callback res => exact h.callback hs

theorem echoes_run {id : ℤ} {as : List Label}
    (hr : run (step n) (start clientHead id packhead) as = some w)
    (hnew : Meets (step n) (NewCtx n) (start clientHead id packhead) as) :
    Echoes n clientHead packhead w :=
  invariant_of_meets (fun _ _ _ h hl hs => echoes_step h hl hs)
    (echoes_start n clientHead id packhead) hnew hr

/-! ## The messages -/

/-- What was sent on the connection are the buffers `uv_write` took from its session's callbacks. -/
theorem Serving.outgoing_eq (h : Serving n w) (hp : w.server.Parsing (· = n)) {a : ℕ}
    (ha : (a, n) ∈ w.server.accepted) :
    w.outgoing n = (w.callsOf a).filterMap fun c => c.took.map Prod.snd := by
  unfold outgoing callsOf
  rw [List.filterMap_filter]
  refine List.filterMap_congr fun c hc => ?_
  obtain ⟨m, hin, hm⟩ := h.called c hc
  rcases hr : c.took with _ | ⟨conn, buffer⟩
  · simp
  obtain rfl : conn = some m := hm _ hr
  have hiff := hp.accepted_inj _ _ _ _ hin ha
  by_cases hca : c.session = a
  · simp [hca, hiff.1 hca]
  · simp [hca, mt hiff.2 hca]

theorem Serving.outgoing_none (h : Serving n w) (hno : ∀ a, (a, n) ∉ w.server.accepted) :
    w.outgoing n = [] := by
  refine List.filterMap_eq_nil_iff.2 fun c hc => ?_
  obtain ⟨m, hin, hm⟩ := h.called c hc
  rcases hr : c.took with _ | ⟨conn, buffer⟩
  · rfl
  obtain rfl : conn = some m := hm _ hr
  exact if_neg fun hmn => hno _ (Option.some.inj hmn ▸ hin)

/-- Of packets, the callbacks sent back some, in order and as they were, and none too long. -/
theorem sublist_of_answers {cs : List EchoCall} {ran : List (List UInt8)}
    (h : List.Forall₂ EchoCall.Answers cs ran) (hps : ∀ pkt ∈ ran, ∃ p : NetPacket, p.bytes = pkt) :
    (cs.filterMap fun c => c.took.map Prod.snd).Sublist ran
      ∧ ∀ pkt ∈ cs.filterMap fun c => c.took.map Prod.snd, FitsRecv pkt := by
  induction h with
  | nil => simp
  | @cons c pkt cs ran hc hrest ih =>
    obtain ⟨p, hp⟩ := hps pkt List.mem_cons_self
    obtain ⟨hsub, hfits⟩ := ih fun q hq => hps q (List.mem_cons_of_mem _ hq)
    rcases hr : c.took with _ | r
    · rw [List.filterMap_cons_none (by rw [hr]; rfl)]
      exact ⟨hsub.cons _, hfits⟩
    · have hecho := hc r hr
      rw [List.filterMap_cons_some (by rw [hr]; rfl)]
      obtain rfl : r.2 = pkt := hp ▸ NetPacket.echoOf_bytes (hp.symm ▸ hecho)
      refine ⟨hsub.cons_cons _, fun q hq => ?_⟩
      rcases List.mem_cons.1 hq with rfl | hq
      · exact (echoOf_eq hecho).1
      · exact hfits q hq

/-- And all of them, if `uv_write` took all. -/
theorem eq_of_answers {cs : List EchoCall} {ran : List (List UInt8)}
    (h : List.Forall₂ EchoCall.Answers cs ran) (hps : ∀ pkt ∈ ran, ∃ p : NetPacket, p.bytes = pkt)
    (htook : ∀ c ∈ cs, c.took ≠ none) : (cs.filterMap fun c => c.took.map Prod.snd) = ran := by
  refine (sublist_of_answers h hps).1.eq_of_length ?_
  rw [← h.length_eq]
  clear h hps
  induction cs with
  | nil => rfl
  | cons c cs ih =>
    obtain ⟨r, hr⟩ := Option.ne_none_iff_exists'.1 (htook c List.mem_cons_self)
    rw [List.filterMap_cons_some (by rw [hr]; rfl), List.length_cons, List.length_cons,
      ih fun d hd => htook d (List.mem_cons_of_mem _ hd)]

theorem written_sublist {s : CTcpClient} (h : s.InOrder)
    (hmsgs : ∀ m ∈ s.sends, m.length < 2 ^ 31) : s.written.Sublist s.sends := by
  have hcopied : s.sends.map copied = s.sends :=
    (List.map_congr_left fun m hm => copied_eq (hmsgs m hm)).trans (List.map_id' _)
  have hall : s.written.Sublist (s.writeCalls.map Prod.fst) := List.filter_sublist.map _
  refine hall.trans ?_
  rw [← hcopied, ← h.order]
  exact List.sublist_append_left _ _

/-- On a connection that the server accepts on a new context, whatever the interleaving, the chunks
and the calls of `uv_write` that fail at either end, what is handed to the client are messages it
sent, in the order of their `PushEvent`s, each at most once and as it was sent; and none is more
than the client's own callback has room for. -/
theorem echoes_sublist {id : ℤ} {as : List Label}
    (hr : run (step n) (start packhead id packhead) as = some w)
    (hnew : Meets (step n) (NewCtx n) (start packhead id packhead) as)
    (hmsgs : ∀ m ∈ w.client.sends,
      m.length < 2 ^ 31 ∧ ∃ p : NetPacket, p.flag = packhead ∧ p.bytes = m) :
    w.client.recvs.Sublist w.client.sends
      ∧ ∀ pkt ∈ w.client.recvs, Stays (TestTcpClientFunc.recv pkt) := by
  have h := echoes_run hr hnew
  have hwritten := written_sublist h.carries.client fun m hm => (hmsgs m hm).1
  suffices hout : (w.outgoing n).Sublist w.client.written
      ∧ ∀ pkt ∈ w.outgoing n, FitsRecv pkt by
    obtain ⟨ps, hps, hbytes⟩ := exists_packets fun m hm =>
      (hmsgs m ((hout.1.trans hwritten).subset hm)).2
    obtain ⟨log, hfeed, hrecvs⟩ := h.parsed
    have hback := h.back
    rw [← hbytes] at hback
    have hcb := ((PacketSync.wf_fresh _).feed_sound hfeed).2.2.1
    have hout' : (PacketSync.fresh packhead).outcome w.received = some (.ok w.client.recvs) := by
      rw [PacketSync.outcome, hfeed, Option.map_some, Except.map, hrecvs,
        PacketSync.delivered_of_cb hcb]
    have hrecv := PacketSync.delivered_of_stream hps hback hout'
    rw [hbytes] at hrecv
    exact ⟨hrecv.sublist.trans (hout.1.trans hwritten),
      fun pkt hpkt => stays_client_iff.2 (hout.2 pkt (hrecv.subset hpkt))⟩
  by_cases ha : ∃ a, (a, n) ∈ w.server.accepted
  · obtain ⟨a, ha⟩ := ha
    obtain ⟨ran, hran, hall⟩ := h.serving.answered a ha
    obtain ⟨ps, hps, hbytes⟩ := exists_packets fun m hm => (hmsgs m (hwritten.subset hm)).2
    have harrived := h.carries.arrived
    rw [← hbytes] at harrived
    have hpackets := PacketSync.delivered_of_stream hps harrived
      (h.carries.head ▸ h.carries.parsing.isolated a n rfl ha)
    rw [hbytes, hran] at hpackets
    have hrun : ran <+: w.client.written := (List.prefix_append _ _).trans hpackets
    obtain ⟨hsub, hfits⟩ := sublist_of_answers hall fun pkt hpkt => by
      obtain ⟨p, -, hp⟩ := (hmsgs pkt (hwritten.subset (hrun.subset hpkt))).2
      exact ⟨p, hp⟩
    rw [h.serving.outgoing_eq h.carries.parsing ha]
    exact ⟨hsub.trans hrun.sublist, hfits⟩
  · rw [h.serving.outgoing_none (not_exists.1 ha)]
    exact ⟨List.nil_sublist _, by simp⟩

theorem length_firstData : ([5] : List UInt8).length < 2 ^ 31 := by decide

theorem length_secondData : ([8, 9] : List UInt8).length < 2 ^ 31 := by decide

def firstPacket : List UInt8 := packetData 1000 [5] length_firstData

def secondPacket : List UInt8 := packetData 1001 [8, 9] length_secondData

/-- Two packets are sent and come in two pieces; the first is sent back as `uv_write` lets it, and
some chunks come back. -/
def twoPackets (res : ℤ) (chunks : List (List UInt8)) : List Label :=
  [.link (.client (.connect "127.0.0.1" 6666 30 false)), .link (.client (.doEvent .ok)),
    .link (.client (.afterConnect 0 0)), .link (.server (.acceptConnection 0 ⟨0, 0, 0⟩)),
    .link (.sendChecks firstPacket), .link (.sendPushes 0), .link (.sendChecks secondPacket),
    .link (.sendPushes 0), .link (.client (.doEvent .ok)), .link (.client (.doEvent .ok)),
    .link (.server (.afterRecv 0 (firstPacket.take 5))),
    .link (.server (.afterRecv 0 (firstPacket.drop 5 ++ secondPacket))), .callback res, .callback 0]
    ++ chunks.map fun data => .link (.client (.afterRecv data))

/-- The first packet is lost, and the second comes back in two pieces. -/
def lossy : List Label :=
  twoPackets (-1) [secondPacket.take 5, secondPacket.drop 5]

theorem isSome_lossy :
    (run (step 0) (start defPackHeadFlag 1000 defPackHeadFlag) lossy).isSome = true := by
  decide +kernel

/-- Where that leads. -/
def lossyEnd : Echo := (run (step 0) (start defPackHeadFlag 1000 defPackHeadFlag) lossy).get
  isSome_lossy

theorem run_lossy : run (step 0) (start defPackHeadFlag 1000 defPackHeadFlag) lossy
    = some lossyEnd := (Option.some_get _).symm

theorem echoes_sublist_lossy : lossyEnd.client.recvs.Sublist lossyEnd.client.sends
    ∧ ∀ pkt ∈ lossyEnd.client.recvs, Stays (TestTcpClientFunc.recv pkt) := by
  have hsends : lossyEnd.client.sends = [firstPacket, secondPacket] := by decide +kernel
  refine echoes_sublist run_lossy (by decide +kernel) fun m hm => ?_
  rw [hsends] at hm
  rcases List.mem_pair.1 hm with rfl | rfl
  · exact ⟨by decide, _, rfl, rfl⟩
  · exact ⟨by decide, _, rfl, rfl⟩

/-- Nothing is under way on the connection, and no `uv_write` failed. -/
structure Settled (n a : ℕ) (w : Echo) : Prop where
  accepted : (a, n) ∈ w.server.accepted
  unsent : w.client.unsent = []
  written : ∀ c ∈ w.client.writeCalls, c.2 = 0
  arrived : (w.server.chunksOf n).flatten = w.client.written.flatten
  ran : w.pendingOf a = []
  took : ∀ c ∈ w.callsOf a, c.took ≠ none
  returned : w.received.flatten = (w.outgoing n).flatten

/-- Packets with a payload are all delivered once all of their bytes have come. -/
theorem delivered_all {ms cs packets : List (List UInt8)} {q : PacketSync}
    {log : List (Segment UInt8)}
    (hmsgs : ∀ m ∈ ms, ∃ p : NetPacket, p.flag = packhead ∧ p.data ≠ [] ∧ p.bytes = m)
    (hcs : cs.flatten = ms.flatten)
    (hfeed : (PacketSync.fresh packhead).feed cs = some (.ok (q, log)))
    (hq : q.delivered log = packets) : packets = ms := by
  have hwf : ∀ m ∈ ms, PacketSync.WellFormed packhead m ∧ m.length < 2 ^ 32 := by
    intro m hm
    obtain ⟨p, rfl, -, rfl⟩ := hmsgs m hm
    have hlen := p.length_data
    exact ⟨p.wellFormed, by rw [p.length_bytes]; omega⟩
  have hlast : ∀ m ∈ ms.getLast?, 12 < (m ++ []).length := by
    intro m hm
    obtain ⟨p, rfl, hne, rfl⟩ := hmsgs m (List.mem_of_mem_getLast? hm)
    have hpos := List.length_pos_iff.2 hne
    rw [List.append_nil, p.length_bytes]
    omega
  obtain ⟨-, hall⟩ := PacketSync.delivered_packets hwf hlast (y := [])
    (by rw [hcs, List.append_nil]) hfeed
  exact hq.symm.trans (hall (Nat.zero_le _)).1

/-- Where the context was new, nothing is under way any more and no `uv_write` failed, every message
with a payload has come back. -/
theorem echoes_all {id : ℤ} {as : List Label} {a : ℕ}
    (hr : run (step n) (start packhead id packhead) as = some w)
    (hnew : Meets (step n) (NewCtx n) (start packhead id packhead) as)
    (hmsgs : ∀ m ∈ w.client.sends, m.length < 2 ^ 31
      ∧ ∃ p : NetPacket, p.flag = packhead ∧ p.data ≠ [] ∧ p.bytes = m)
    (hs : Settled n a w) : w.client.recvs = w.client.sends := by
  have h := echoes_run hr hnew
  have hcopied : w.client.sends.map copied = w.client.sends :=
    (List.map_congr_left fun m hm => copied_eq (hmsgs m hm).1).trans (List.map_id' _)
  have hwritten : w.client.written = w.client.sends := by
    rw [← hcopied, ← h.carries.client.order, hs.unsent, List.append_nil, CTcpClient.written,
      List.filter_eq_self.2 fun c hc => by simpa using hs.written c hc]
  obtain ⟨ran, hran, hall⟩ := h.serving.answered a hs.accepted
  have hsent : w.server.packetsOf a = w.client.sends := by
    have houtcome := h.carries.head ▸ h.carries.parsing.isolated a n rfl hs.accepted
    obtain ⟨r, hfeed, hok⟩ := Option.map_eq_some_iff.1 houtcome
    rcases r with e | ⟨q, log⟩
    · simp [Except.map] at hok
    refine delivered_all (fun m hm => (hmsgs m hm).2) ?_ hfeed (Except.ok.inj hok)
    rw [hs.arrived, hwritten]
  rw [hs.ran, List.append_nil, hsent] at hran
  subst hran
  have hout : w.outgoing n = w.client.sends := by
    rw [h.serving.outgoing_eq h.carries.parsing hs.accepted]
    refine eq_of_answers hall (fun pkt hpkt => ?_) hs.took
    obtain ⟨-, p, -, -, hp⟩ := hmsgs pkt hpkt
    exact ⟨p, hp⟩
  obtain ⟨log, hfeed, hrecvs⟩ := h.parsed
  refine delivered_all (fun m hm => (hmsgs m hm).2) (by rw [hs.returned, hout]) hfeed ?_
  rw [hrecvs, PacketSync.delivered_of_cb ((PacketSync.wf_fresh _).feed_sound hfeed).2.2.1]

/-- Both packets come back, cut inside the second. -/
def lossless : List Label :=
  let both := firstPacket ++ secondPacket
  twoPackets 0 [both.take 20, both.drop 20]

theorem isSome_lossless :
    (run (step 0) (start defPackHeadFlag 1000 defPackHeadFlag) lossless).isSome = true := by
  decide +kernel

/-- Where that leads. -/
def losslessEnd : Echo := (run (step 0) (start defPackHeadFlag 1000 defPackHeadFlag) lossless).get
  isSome_lossless

theorem run_lossless : run (step 0) (start defPackHeadFlag 1000 defPackHeadFlag) lossless
    = some losslessEnd := (Option.some_get _).symm

theorem settled_lossless : Settled 0 0 losslessEnd := by
  constructor <;> decide +kernel

theorem echoes_all_lossless : losslessEnd.client.recvs = losslessEnd.client.sends := by
  have hsends : losslessEnd.client.sends = [firstPacket, secondPacket] := by decide +kernel
  refine echoes_all run_lossless (by decide +kernel) (fun m hm => ?_) settled_lossless
  rw [hsends] at hm
  rcases List.mem_pair.1 hm with rfl | rfl
  · exact ⟨by decide, _, rfl, by decide, rfl⟩
  · exact ⟨by decide, _, rfl, by decide, rfl⟩

end Echo

end TestLibuv
