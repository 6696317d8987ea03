import TestLibuv.EndToEnd
import TestLibuv.Proofs.ClientStep
import TestLibuv.Proofs.RoundTrip
import TestLibuv.Proofs.SessionParsing

/-!
# End-to-end message order

On the client, the buffers `uv_write` was given and then those of the `WRITE` events in the queue
are copies of the buffers `Send` took, in the order of their `PushEvent`s. So as long as `uv_write`
has not begun to fail and then succeeded, the stream is a prefix of the messages' bytes, and the
session's parser hands over a prefix of the messages.
-/

namespace TestLibuv

open CMem Framing Runs

/-- The bytes of a `WRITE` event. -/
def ClientEvent.writes (e : ClientEvent) : Option (List UInt8) :=
  if e.event.type = .write then some e.event.bytes else none

/-- What the event made for a buffer holds of it. -/
def copied (buff : List UInt8) : List UInt8 :=
  (createUvEvent .write (some buff) : UvEvent Unit).bytes

theorem copied_eq {buff : List UInt8} (h : buff.length < 2 ^ 31) : copied buff = buff := by
  have hsize : (toU32 (ofU32 (.ofNat buff.length))).toNat = buff.length := by
    rw [toU32_ofU32, UInt32.toNat_ofNat']
    omega
  exact List.take_of_length_le hsize.ge

namespace CTcpClient

variable {s s' : CTcpClient} {l : Label}

/-- The bytes of the `WRITE` events in the queue. -/
def unsent (s : CTcpClient) : List (List UInt8) := s.events.filterMap ClientEvent.writes

/-- What `uv_write` was given, and will be, is what `Send` took, in order. -/
structure InOrder (s : CTcpClient) : Prop where
  order : s.writeCalls.map Prod.fst ++ s.unsent = s.sends.map copied
  whole : ∀ e ∈ s.events, e.event.type = .write → e.Whole

theorem inOrder_attached (head : UInt32) (id : ℤ) : InOrder (attached head id) :=
  ⟨rfl, by simp [attached, attachLooper, new]⟩

/-- An event that is not a `WRITE` joins the queue. -/
theorem InOrder.push (h : InOrder s) {e : ClientEvent} (hs : s'.sends = s.sends)
    (hw : s'.writeCalls = s.writeCalls) (he : s'.events = s.events ++ [e])
    (ht : e.event.type ≠ .write) : InOrder s' := by
  constructor
  · have hunsent : s'.unsent = s.unsent := by simp [unsent, he, ClientEvent.writes, ht]
    rw [hs, hw, hunsent]
    exact h.order
  · intro e' he' ht'
    rw [he, List.mem_append, List.mem_singleton] at he'
    rcases he' with he' | rfl
    · exact h.whole e' he' ht'
    · exact absurd ht' ht

/-- An event that is not a `WRITE` leaves it. -/
theorem InOrder.pop (h : InOrder s) {e : ClientEvent} (hs : s'.sends = s.sends)
    (hw : s'.writeCalls = s.writeCalls) (he : s.events = e :: s'.events)
    (ht : e.event.type ≠ .write) : InOrder s' := by
  constructor
  · have hunsent : s.unsent = s'.unsent := by simp [unsent, he, ClientEvent.writes, ht]
    rw [hs, hw, ← hunsent]
    exact h.order
  · intro e' he' ht'
    exact h.whole e' (by simp [he, he']) ht'

/-- `uv_write` is given the bytes of the event that leaves the queue. -/
theorem InOrder.write (h : InOrder s) {e : ClientEvent} {iret : ℤ} (hs : s'.sends = s.sends)
    (hw : s'.writeCalls = s.writeCalls ++ [(e.event.bytes, iret)])
    (he : s.events = e :: s'.events) (ht : e.event.type = .write) : InOrder s' := by
  constructor
  · have hunsent : s.unsent = e.event.bytes :: s'.unsent := by
      simp [unsent, he, ClientEvent.writes, ht]
    rw [hs, hw, ← h.order, hunsent]
    simp
  · intro e' he' ht'
    exact h.whole e' (by simp [he, he']) ht'

theorem InOrder.pushSend (h : InOrder s) (buff : List UInt8) : InOrder (s.pushSend buff) := by
  constructor
  · have hunsent : (s.pushSend buff).unsent = s.unsent ++ [copied buff] := by
      simp [unsent, CTcpClient.pushSend, pushEvent, ClientEvent.writes, copied, UvEvent.bytes,
        createUvEvent]
    have hsends : (s.pushSend buff).sends = s.sends ++ [buff] := rfl
    rw [hunsent, hsends, List.map_append, ← h.order]
    simp [CTcpClient.pushSend, pushEvent]
  · intro e he ht
    rcases List.mem_append.1 he with he | he
    · exact h.whole e he ht
    · obtain rfl := List.mem_singleton.1 he
      change (toU32 (ofU32 (.ofNat buff.length))).toNat ≤ buff.length
      rw [toU32_ofU32, UInt32.toNat_ofNat']
      exact Nat.mod_le _ _

theorem inOrder_step (h : InOrder s) (hs : step s l = some s') : InOrder s' := by
  cases step_trans hs with
  | connect _ _ _ | close | shutdown => exact h.push rfl rfl rfl (by simp)
  | send _ => exact h.pushSend _
  | connectBadAddr he ht _ | connectFails he ht _ _ | connectStarts _ he ht _ _ _
  | closeRefused he ht _ | closeCloses he ht _ | shutdownEvent he ht | otherEvent he ht =>
    exact h.pop rfl rfl he (by simp [ht])
  | writeFaults he ht hw => exact absurd (h.whole _ (by simp [he]) ht) hw
  | writeFails he ht _ | writeTakes he ht _ => exact h.write rfl rfl he ht
  | _ => exact ⟨h.order, h.whole⟩

theorem writeCalls_step (hs : step s l = some s') : s.writeCalls <+: s'.writeCalls := by
  cases step_trans hs with
  | writeFails _ _ _ | writeTakes _ _ _ => exact List.prefix_append _ _
  | _ => exact List.prefix_rfl

theorem written_mono (h : s.writeCalls <+: s'.writeCalls) : s.written <+: s'.written :=
  (h.filter _).map _

/-- What `uv_write` took is the beginning of what it was given, unless it failed in between. -/
theorem taken_of_sticky : ∀ {calls : List (List UInt8 × ℤ)},
    (calls.Pairwise fun c d => c.2 ≠ 0 → d.2 ≠ 0) →
      (calls.filter fun c => c.2 = 0).map Prod.fst <+: calls.map Prod.fst
  | [], _ => List.prefix_rfl
  | c :: calls, h => by
    obtain ⟨hc, hrest⟩ := List.pairwise_cons.1 h
    by_cases hz : c.2 = 0
    · rw [List.filter_cons_of_pos (by simpa using hz)]
      exact (List.prefix_cons_inj _).2 (taken_of_sticky hrest)
    · rw [List.filter_cons_of_neg (by simpa using hz),
        List.filter_eq_nil_iff.2 fun d hd => by simpa using hc d hd hz]
      exact List.nil_prefix

end CTcpClient

/-- A fresh parser hands over the beginning of the packets a stream begins with. -/
theorem PacketSync.delivered_of_stream {head : UInt32} {ps : List NetPacket}
    (hps : ∀ p ∈ ps, p.flag = head) {cs packets : List (List UInt8)}
    (hcs : cs.flatten <+: stream ps)
    (h : (PacketSync.fresh head).outcome cs = some (.ok packets)) :
    packets <+: ps.map NetPacket.bytes := by
  obtain ⟨r, hr, hok⟩ := Option.map_eq_some_iff.1 h
  rcases r with e | ⟨q, log⟩
  · simp [Except.map] at hok
  obtain rfl : q.delivered log = packets := Except.ok.inj hok
  obtain ⟨-, -, hcb, hf⟩ := (PacketSync.wf_fresh head).feed_sound hr
  obtain ⟨out, rest, hd, hc, hfr, -⟩ := drains_stream hps hcs
  obtain ⟨o, r, hd', -, hclean, heq⟩ := hf.drains_flatten (headFramer head).nil_wait
  obtain ⟨rfl, -⟩ := hd.unique hd'
  rw [PacketSync.delivered_of_cb hcb, ← (heq (hclean.1 hc)).1]
  exact hfr

/-- Encodings are the encodings of packets. -/
theorem exists_packets {head : UInt32} : ∀ {ms : List (List UInt8)},
    (∀ m ∈ ms, ∃ p : NetPacket, p.flag = head ∧ p.bytes = m) →
      ∃ ps : List NetPacket, (∀ p ∈ ps, p.flag = head) ∧ ps.map NetPacket.bytes = ms
  | [], _ => ⟨[], by simp, rfl⟩
  | m :: ms, h => by
    obtain ⟨p, hp, rfl⟩ := h m List.mem_cons_self
    obtain ⟨ps, hps, rfl⟩ := exists_packets fun m hm => h m (List.mem_cons_of_mem _ hm)
    exact ⟨p :: ps, by simpa [hp] using hps, rfl⟩

namespace Link

variable {w w' : Link} {l : Label} {n : ℕ} {packhead : UInt32}

/-- The context that the server takes connection `n` on is a new one. -/
def NewCtx (n : ℕ) (w : Link) : Label → Prop
  | .server (.acceptConnection status r) => status = 0 ∧ r.tcpInit = 0 ∧ r.accept = 0 →
    w.server.conns = n → w.server.idleTcpClientCtxList = []
  | _ => True

instance (n : ℕ) (w : Link) : ∀ l, Decidable (NewCtx n w l)
  | .sendChecks _ | .sendPushes _ | .client _ => .isTrue trivial
  | .server l =>
    match l with
    | .acceptConnection .. => inferInstanceAs (Decidable (_ → _ → _))
    | .close _ | .shutDown _ | .send .. | .broadcast .. | .afterRecv .. | .afterRecvError ..
    | .afterSend .. | .afterShutDown _ | .handleClosed _ | .asyncEvent _ | .asyncCB
    | .afterServerClose => .isTrue trivial

/-- Both ends do their part, and the connection brings what was written. -/
structure Carries (n : ℕ) (packhead : UInt32) (w : Link) : Prop where
  client : w.client.InOrder
  owned : w.server.Owned
  parsing : w.server.Parsing (· = n)
  head : w.server.packetHead = packhead
  arrived : (w.server.chunksOf n).flatten <+: w.client.written.flatten

theorem carries_start (n : ℕ) (clientHead : UInt32) (id : ℤ) (packhead : UInt32) :
    Carries n packhead (start clientHead id packhead) :=
  ⟨CTcpClient.inOrder_attached _ _, CTcpServer.owned_started _, CTcpServer.parsing_started _, rfl,
    List.prefix_rfl⟩

theorem clean_of_newCtx {k : CTcpServer.Label} (h : NewCtx n w (.server k))
    (hn : w.server.conns = n) : w.server.Clean k := by
  cases k with
  | acceptConnection status r =>
    intro hok
    rw [CTcpServer.takenLen, h hok hn]
    rfl
  | _ => trivial

theorem carries_step (h : Carries n packhead w) (hl : NewCtx n w l) (hs : step n w l = some w') :
    Carries n packhead w' := by
  cases l with
  | sendChecks buff =>
    simp only [step, Option.ite_none_right_eq_some, Option.some.injEq] at hs
    obtain ⟨-, rfl⟩ := hs
    exact ⟨h.client, h.owned, h.parsing, h.head, h.arrived⟩
  | sendPushes i =>
    obtain ⟨buff, -, rfl⟩ := Option.map_eq_some_iff.1 hs
    exact ⟨h.client.pushSend buff, h.owned, h.parsing, h.head, h.arrived⟩
  | client k =>
    obtain ⟨t, ht, rfl⟩ := Option.map_eq_some_iff.1 hs
    have hmore := CTcpClient.written_mono (CTcpClient.writeCalls_step ht)
    exact ⟨CTcpClient.inOrder_step h.client ht, h.owned, h.parsing, h.head,
      h.arrived.trans hmore.flatten⟩
  | server k =>
    obtain ⟨t, ht, hs⟩ := Option.bind_eq_some_iff.1 hs
    split_ifs at hs with harr
    obtain rfl := Option.some.inj hs
    exact ⟨h.client, CTcpServer.owned_step h.owned ht,
      CTcpServer.parsing_step h.owned h.parsing (clean_of_newCtx hl) ht,
      (CTcpServer.packetHead_step ht).trans h.head, harr⟩

/-- Whatever the interleaving and the chunks, a session is handed the messages of its connection in
the order of their `PushEvent`s, each as it was sent. -/
theorem messages_in_order {clientHead : UInt32} {id : ℤ} {as : List Label}
    (hr : run (step n) (start clientHead id packhead) as = some w)
    (hnew : Meets (step n) (NewCtx n) (start clientHead id packhead) as)
    (hwrite : w.client.writeCalls.Pairwise fun c d => c.2 ≠ 0 → d.2 ≠ 0)
    (hmsgs : ∀ m ∈ w.client.sends,
      m.length < 2 ^ 31 ∧ ∃ p : NetPacket, p.flag = packhead ∧ p.bytes = m) :
    ∀ a, (a, n) ∈ w.server.accepted → w.server.packetsOf a <+: w.client.sends := by
  intro a hin
  have h : Carries n packhead w :=
    invariant_of_meets (fun _ _ _ h hl hs => carries_step h hl hs)
      (carries_start n clientHead id packhead) hnew hr
  have hcopied : w.client.sends.map copied = w.client.sends :=
    (List.map_congr_left fun m hm => copied_eq (hmsgs m hm).1).trans (List.map_id' _)
  have hwritten : w.client.written <+: w.client.sends :=
    calc w.client.written
      _ <+: w.client.writeCalls.map Prod.fst := CTcpClient.taken_of_sticky hwrite
      _ <+: w.client.writeCalls.map Prod.fst ++ w.client.unsent := List.prefix_append _ _
      _ = w.client.sends := h.client.order.trans hcopied
  obtain ⟨ps, hps, hbytes⟩ :=
    exists_packets fun m hm => (hmsgs m (hwritten.subset hm)).2
  have harrived := h.arrived
  rw [← hbytes] at harrived
  have hdelivered := PacketSync.delivered_of_stream hps harrived
    (h.head ▸ h.parsing.isolated a n rfl hin)
  rw [hbytes] at hdelivered
  exact hdelivered.trans hwritten

/-- Two threads send a packet each, the second to check its status pushes first, and the stream is
cut inside the packets. -/
def twoSends : List Label :=
  let first := packetData 1000 [5] (by decide)
  let second := packetData 1001 [8, 9] (by decide)
  [.client (.connect "127.0.0.1" 12345 30 false), .client (.doEvent .ok),
    .client (.afterConnect 0 0), .server (.acceptConnection 0 ⟨0, 0, 0⟩), .sendChecks first,
    .sendChecks second, .sendPushes 1, .client (.doEvent .ok),
    .server (.afterRecv 0 (second.take 5)), .sendPushes 0, .client (.doEvent .ok),
    .server (.afterRecv 0 (second.drop 5 ++ first.take 3))]

theorem messages_in_order_twoSends : ∃ w,
    run (step 0) (start defPackHeadFlag 1000 defPackHeadFlag) twoSends = some w
      ∧ w.server.packetsOf 0 <+: w.client.sends := by
  have hm : Meets (step 0) (NewCtx 0) (start defPackHeadFlag 1000 defPackHeadFlag) twoSends := by
    decide +kernel
  have hend : (run (step 0) (start defPackHeadFlag 1000 defPackHeadFlag) twoSends).map
      (fun w => (w.server.accepted, w.client.sends, w.client.writeCalls.map Prod.snd))
      = some ([(0, 0)], [packetData 1001 [8, 9] (by decide), packetData 1000 [5] (by decide)],
        [0, 0]) := by
    decide +kernel
  obtain ⟨w, hw, hend⟩ := Option.map_eq_some_iff.1 hend
  simp only [Prod.mk.injEq] at hend
  obtain ⟨haccepted, hsends, hwrites⟩ := hend
  refine ⟨w, hw, messages_in_order hw hm ?_ ?_ 0 (by simp [haccepted])⟩
  · have hz : ∀ c ∈ w.client.writeCalls, c.2 = 0 := fun c hc => by
      simpa [hwrites] using List.mem_map_of_mem (f := Prod.snd) hc
    exact List.pairwise_of_forall_mem_list fun c hc d _ hne => absurd (hz c hc) hne
  · rw [hsends]
    simp only [List.mem_cons, List.not_mem_nil, or_false, forall_eq_or_imp, forall_eq]
    exact ⟨⟨by decide, _, rfl, rfl⟩, by decide, _, rfl, rfl⟩

end Link

end TestLibuv
