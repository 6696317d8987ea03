import TestLibuv.Proofs.Isolation
import TestLibuv.Proofs.Ownership

/-!
# The parsers of the sessions

Which context is read from, whose connection it has, and what its parser went through. A session
whose connection found an empty parser, and so one like a fresh one, is handed what a fresh parser
makes of the bytes of that connection. The connections in question are those in `G`.
-/

namespace TestLibuv

open CMem Framing

namespace PacketSync

theorem Wf.onPackageCBEvent {p : PacketSync} (h : p.Wf) : p.onPackageCBEvent.Wf :=
  ⟨h.block, h.nonneg, h.within, h.int⟩

theorem feed_snoc : ∀ {cs : List (List UInt8)} {p q q' : PacketSync} {c : List UInt8}
    {log log' : List (Segment UInt8)}, p.feed cs = some (.ok (q, log)) →
    q.onRecvData c = some (.ok (q', log')) → p.feed (cs ++ [c]) = some (.ok (q', log ++ log'))
  | [], p, q, q', c, log, log', h, hc => by
    simp only [feed, Option.some.injEq, Except.ok.injEq, Prod.mk.injEq] at h
    obtain ⟨rfl, rfl⟩ := h
    rw [List.nil_append, feed_cons hc]
    simp [feed, Except.map]
  | d :: cs, p, q, q', c, log, log', h, hc => by
    rcases hd : p.onRecvData d with _ | e | ⟨t, log₁⟩
    · simp [feed, hd] at h
    · simp [feed, hd] at h
    rw [feed_cons hd] at h
    obtain ⟨r, hr, hok⟩ := Option.map_eq_some_iff.1 h
    rcases r with e | ⟨u, log₂⟩
    · simp [Except.map] at hok
    obtain ⟨rfl, rfl⟩ := Prod.mk.inj (Except.ok.inj hok)
    rw [List.cons_append, feed_cons hd, feed_snoc hr hc]
    simp [Except.map]

/-- What a parser does with a chunk, one that is like it does as well. -/
theorem Alike.recv_of_ok {p q q' : PacketSync} {data : List UInt8}
    {log : List (Segment UInt8)} (h : Alike p q) (hq : q.onRecvData data = some (.ok (q', log))) :
    ∃ p', p.onRecvData data = some (.ok (p', log)) ∧ Alike p' q'
      ∧ p'.funcPackageCb = p.funcPackageCb := by
  rcases h.onRecvData data with ⟨-, hn⟩ | ⟨e, -, he⟩ | ⟨p', q'', log', hp, hq'', h'⟩
  · simp [hn] at hq
  · simp [he] at hq
  obtain ⟨rfl, rfl⟩ := Prod.mk.inj (Except.ok.inj (Option.some.inj (hq''.symm.trans hq)))
  obtain ⟨r, log'', hr, -, -, hcb, -⟩ := h.left.onRecvData_sound (fits_of_returns hp) hp
  obtain ⟨rfl, -⟩ := Prod.mk.inj (Except.ok.inj hr)
  exact ⟨p', hp, h', hcb⟩

end PacketSync

namespace CTcpServer

variable {s s' t : CTcpServer} {l : Label} {c : ℕ} {G : ℕ → Prop}

/-- `real_packet_len` in the context that `AcceptConnection` will take. -/
def takenLen (s : CTcpServer) : ℤ :=
  match s.idleTcpClientCtxList with
  | [] => allocTcpSessionCtx.packet.realPacketLen
  | c :: _ => (s.ctxs.cells c).elim 0 fun x => x.packet.realPacketLen

/-- A connection finds an empty parser in the context it is taken on. -/
def Clean (s : CTcpServer) : Label → Prop
  | .acceptConnection status r =>
    status = 0 ∧ r.tcpInit = 0 ∧ r.accept = 0 → s.takenLen = 0
  | _ => True

instance (s : CTcpServer) : ∀ l, Decidable (s.Clean l)
  | .acceptConnection .. => inferInstanceAs (Decidable (_ → _))
  | .close _ | .shutDown _ | .send .. | .broadcast .. | .afterRecv .. | .afterRecvError ..
  | .afterSend .. | .afterShutDown _ | .handleClosed _ | .asyncEvent _ | .asyncCB
  | .afterServerClose => .isTrue trivial

/-- The parsers of the contexts, those that are not read from, and the connections they took. -/
structure Contexts (s : CTcpServer) : Prop where
  parsers : ∀ c x, s.ctxs.cells c = some x → x.packet.Wf
  quiet : ∀ c x, s.ctxs.cells c = some x → x.sessionTcpHandle.Quiet
  idle : ∀ c ∈ s.idleTcpClientCtxList, ∀ x, s.ctxs.cells c = some x →
    x.sessionTcpHandle.reading = false
  conn_lt : ∀ c x n, s.ctxs.cells c = some x → x.conn = some n → n < s.conns
  conn_inj : ∀ c d x y n, s.ctxs.cells c = some x → s.ctxs.cells d = some y →
    x.conn = some n → y.conn = some n → c = d

/-- The connections and the sessions they got, and that each session whose connection is one of `G`
has been handed what its own connection brought. -/
structure History (G : ℕ → Prop) (s : CTcpServer) : Prop where
  accepted_lt : ∀ a n, (a, n) ∈ s.accepted → a < s.sessions.next ∧ n < s.conns
  accepted_inj : ∀ a n b m, (a, n) ∈ s.accepted → (b, m) ∈ s.accepted → (a = b ↔ n = m)
  no_chunks : ∀ n, s.conns ≤ n → s.chunksOf n = []
  no_packets : ∀ a, s.sessions.next ≤ a → s.packetsOf a = []
  isolated : ∀ a n, G n → (a, n) ∈ s.accepted →
    (PacketSync.fresh s.packetHead).outcome (s.chunksOf n) = some (.ok (s.packetsOf a))

/-- A context that is read from: whose connection it has, and, where the connection is one of `G`,
what its parser went through. -/
structure Reads (G : ℕ → Prop) (s : CTcpServer) (c : ℕ) (x : TcpSessionCtx) (a n : ℕ) : Prop where
  handleData : x.handleData = some a
  parentClientSession : x.parentClientSession = some a
  conn : x.conn = some n
  accepted : (a, n) ∈ s.accepted
  session : ∀ p, s.sessions.cells a = some p → p.clientSessionCtx = c
  parser : G n → ∃ q log, (PacketSync.fresh s.packetHead).feed (s.chunksOf n) = some (.ok (q, log))
    ∧ PacketSync.Alike q x.packet ∧ s.packetsOf a = frames log

structure Parsing (G : ℕ → Prop) (s : CTcpServer) : Prop extends Contexts s, History G s where
  reading : ∀ c x, s.ctxs.cells c = some x → x.sessionTcpHandle.reading = true →
    ∃ a n, Reads G s c x a n

theorem History.of_eq (h : History G s) (hhead : s'.packetHead = s.packetHead)
    (haccepted : s'.accepted = s.accepted) (hnext : s'.sessions.next = s.sessions.next)
    (hconns : s.conns ≤ s'.conns) (hchunks : ∀ n, s'.chunksOf n = s.chunksOf n)
    (hpackets : ∀ a, s'.packetsOf a = s.packetsOf a) : History G s' where
  accepted_lt a n hin := by
    have hlt := h.accepted_lt a n (haccepted ▸ hin)
    exact ⟨hnext ▸ hlt.1, hlt.2.trans_le hconns⟩
  accepted_inj := by
    rw [haccepted]
    exact h.accepted_inj
  no_chunks n hn := (hchunks n).trans (h.no_chunks n (hconns.trans hn))
  no_packets a ha := (hpackets a).trans (h.no_packets a (hnext ▸ ha))
  isolated a n hg hin := by
    rw [hhead, hchunks, hpackets]
    exact h.isolated a n hg (haccepted ▸ hin)

theorem Reads.of_eq {x : TcpSessionCtx} {a n : ℕ} (h : Reads G s c x a n)
    (hhead : s'.packetHead = s.packetHead) (haccepted : (a, n) ∈ s'.accepted)
    (hsession : ∀ p, s'.sessions.cells a = some p → s.sessions.cells a = some p)
    (hchunks : s'.chunksOf n = s.chunksOf n) (hpackets : s'.packetsOf a = s.packetsOf a) :
    Reads G s' c x a n := by
  refine ⟨h.handleData, h.parentClientSession, h.conn, haccepted,
    fun p hp => h.session p (hsession p hp), ?_⟩
  rw [hhead, hchunks, hpackets]
  exact h.parser

/-! ## Where nothing is passed on -/

/-- A context that may have stopped being read from, and is otherwise what it was. -/
structure CtxDimmed (x x' : TcpSessionCtx) : Prop where
  wf : x.packet.Wf → x'.packet.Wf
  quiet : x.sessionTcpHandle.Quiet → x'.sessionTcpHandle.Quiet
  conn : x'.conn = x.conn
  reading : x'.sessionTcpHandle.reading = true → x.sessionTcpHandle.reading = true
    ∧ x'.handleData = x.handleData ∧ x'.parentClientSession = x.parentClientSession
    ∧ x'.packet = x.packet

/-- No connection was taken, no session started and no byte passed on. -/
structure Dimmed (s s' : CTcpServer) : Prop where
  head : s'.packetHead = s.packetHead
  conns : s'.conns = s.conns
  accepted : s'.accepted = s.accepted
  arrivals : s'.arrivals = s.arrivals
  packets : ∀ a, s'.packetsOf a = s.packetsOf a
  next : s'.sessions.next = s.sessions.next
  sessions : ∀ a p', s'.sessions.cells a = some p' →
    ∃ p, s.sessions.cells a = some p ∧ p'.clientSessionCtx = p.clientSessionCtx
  ctxs : ∀ c x', s'.ctxs.cells c = some x' → ∃ x, s.ctxs.cells c = some x ∧ CtxDimmed x x'
    ∧ (c ∈ s'.idleTcpClientCtxList →
      c ∈ s.idleTcpClientCtxList ∨ x'.sessionTcpHandle.reading = false)

theorem CtxKept.dimmed {x x' : TcpSessionCtx} (h : CtxKept x x') : CtxDimmed x x' :=
  ⟨fun hw => h.packet ▸ hw, h.quiet, h.conn,
    fun hr => ⟨h.reading hr, h.handleData, h.parentClientSession, h.packet⟩⟩

theorem CtxDimmed.refl (x : TcpSessionCtx) : CtxDimmed x x := (CtxKept.refl x).dimmed

theorem Frame.dimmed (hf : Frame s s') : Dimmed s s' where
  head := hf.head
  conns := hf.conns
  accepted := hf.accepted
  arrivals := hf.arrivals
  packets a := by rw [packetsOf, hf.callbacks, packetsOf]
  next := by rw [hf.sessions]
  sessions a p' hp := ⟨p', hf.sessions ▸ hp, rfl⟩
  ctxs c x' hx := by
    obtain ⟨x, hx', hk⟩ := hf.ctx_of_some hx
    exact ⟨x, hx', hk.dimmed, fun hc => .inl (hf.idle ▸ hc)⟩

theorem Dimmed.chunksOf (hd : Dimmed s s') (n : ℕ) : s'.chunksOf n = s.chunksOf n := by
  unfold CTcpServer.chunksOf
  rw [hd.arrivals]

theorem Contexts.dim (h : Contexts s) (hd : Dimmed s s') : Contexts s' where
  parsers c x' hx' := by
    obtain ⟨x, hx, hk, -⟩ := hd.ctxs c x' hx'
    exact hk.wf (h.parsers c x hx)
  quiet c x' hx' := by
    obtain ⟨x, hx, hk, -⟩ := hd.ctxs c x' hx'
    exact hk.quiet (h.quiet c x hx)
  idle c hc x' hx' := by
    obtain ⟨x, hx, hk, hidle⟩ := hd.ctxs c x' hx'
    by_contra hr
    have hr : x'.sessionTcpHandle.reading = true := by simpa using hr
    rcases hidle hc with hc | hoff
    · exact absurd ((h.idle c hc x hx).symm.trans (hk.reading hr).1) (by simp)
    · exact absurd (hoff.symm.trans hr) (by simp)
  conn_lt c x' n hx' hn := by
    obtain ⟨x, hx, hk, -⟩ := hd.ctxs c x' hx'
    exact hd.conns ▸ h.conn_lt c x n hx (hk.conn ▸ hn)
  conn_inj c d x' y' n hx' hy' hn hm := by
    obtain ⟨x, hx, hkx, -⟩ := hd.ctxs c x' hx'
    obtain ⟨y, hy, hky, -⟩ := hd.ctxs d y' hy'
    exact h.conn_inj c d x y n hx hy (hkx.conn ▸ hn) (hky.conn ▸ hm)

theorem Reads.dim {x x' : TcpSessionCtx} {a n : ℕ} (h : Reads G s c x a n) (hd : Dimmed s s')
    (hx : CtxDimmed x x') (hr : x'.sessionTcpHandle.reading = true) : Reads G s' c x' a n := by
  obtain ⟨-, hdata, hparent, hpacket⟩ := hx.reading hr
  refine ⟨hdata.trans h.handleData, hparent.trans h.parentClientSession, hx.conn.trans h.conn,
    hd.accepted ▸ h.accepted, fun p' hp' => ?_, ?_⟩
  · obtain ⟨p, hp, heq⟩ := hd.sessions a p' hp'
    exact heq.trans (h.session p hp)
  · rw [hd.head, hd.chunksOf, hd.packets, hpacket]
    exact h.parser

theorem Parsing.dim (h : Parsing G s) (hd : Dimmed s s') : Parsing G s' where
  toContexts := h.toContexts.dim hd
  toHistory := h.toHistory.of_eq hd.head hd.accepted hd.next hd.conns.ge hd.chunksOf hd.packets
  reading c x' hx' hr := by
    obtain ⟨x, hx, hk, -⟩ := hd.ctxs c x' hx'
    obtain ⟨a, n, hreads⟩ := h.reading c x hx (hk.reading hr).1
    exact ⟨a, n, hreads.dim hd hk hr⟩

/-! ## Where one context is replaced -/

theorem mem_cells_setCtx {x x' y : TcpSessionCtx} {d : ℕ} (hx : s.ctxs.cells c = some x)
    (hy : (s.setCtx c x').ctxs.cells d = some y) :
    d = c ∧ y = x' ∨ d ≠ c ∧ s.ctxs.cells d = some y := by
  rw [cells_setCtx hx] at hy
  split_ifs at hy with hdc
  · exact .inl ⟨hdc, (Option.some.inj hy).symm⟩
  · exact .inr ⟨hdc, hy⟩

/-- A context gets a new value, which has the connection of the old one, if any, or the next. -/
theorem Contexts.replace (h : Contexts s) {z : TcpSessionCtx}
    (hcells : ∀ {d y}, s'.ctxs.cells d = some y → d = c ∧ y = z ∨ d ≠ c ∧ s.ctxs.cells d = some y)
    (hw : z.packet.Wf) (hq : z.sessionTcpHandle.Quiet)
    (hidle : ∀ d ∈ s'.idleTcpClientCtxList,
      d ∈ s.idleTcpClientCtxList ∧ (d = c → z.sessionTcpHandle.reading = false))
    (hconns : s.conns ≤ s'.conns)
    (hconn : ∀ n, z.conn = some n → (∃ x, s.ctxs.cells c = some x ∧ x.conn = some n)
      ∨ n = s.conns ∧ n < s'.conns) : Contexts s' where
  parsers d y hy := by
    rcases hcells hy with ⟨rfl, rfl⟩ | ⟨-, hold⟩
    · exact hw
    · exact h.parsers d y hold
  quiet d y hy := by
    rcases hcells hy with ⟨rfl, rfl⟩ | ⟨-, hold⟩
    · exact hq
    · exact h.quiet d y hold
  idle d hd y hy := by
    obtain ⟨hin, hoff⟩ := hidle d hd
    rcases hcells hy with ⟨hdc, rfl⟩ | ⟨-, hold⟩
    · exact hoff hdc
    · exact h.idle d hin y hold
  conn_lt d y n hy hn := by
    rcases hcells hy with ⟨rfl, rfl⟩ | ⟨-, hold⟩
    · rcases hconn n hn with ⟨x, hx, hxn⟩ | ⟨-, hlt⟩
      · exact (h.conn_lt d x n hx hxn).trans_le hconns
      · exact hlt
    · exact (h.conn_lt d y n hold hn).trans_le hconns
  conn_inj d d' y y' n hy hy' hn hn' := by
    have hfrom : ∀ {d y}, s'.ctxs.cells d = some y → y.conn = some n →
        (∃ x, s.ctxs.cells d = some x ∧ x.conn = some n) ∨ d = c ∧ n = s.conns := by
      intro d y hy hn
      rcases hcells hy with ⟨rfl, rfl⟩ | ⟨-, hold⟩
      · exact (hconn n hn).imp_right fun h => ⟨rfl, h.1⟩
      · exact .inl ⟨y, hold, hn⟩
    have hold : ∀ {d x}, s.ctxs.cells d = some x → x.conn = some n → n ≠ s.conns :=
      fun hx hxn => (h.conn_lt _ _ n hx hxn).ne
    rcases hfrom hy hn with ⟨x, hx, hxn⟩ | ⟨hd, hn⟩ <;>
      rcases hfrom hy' hn' with ⟨x', hx', hxn'⟩ | ⟨hd', hn'⟩
    · exact h.conn_inj d d' x x' n hx hx' hxn hxn'
    · exact absurd hn' (hold hx hxn)
    · exact absurd hn (hold hx' hxn')
    · rw [hd, hd']

theorem Parsing.alloc (h : Parsing G s) :
    Parsing G { s with ctxs := s.ctxs.alloc allocTcpSessionCtx } := by
  have hcells : ∀ {d y}, (s.ctxs.alloc allocTcpSessionCtx).cells d = some y →
      d = s.ctxs.next ∧ y = allocTcpSessionCtx ∨ d ≠ s.ctxs.next ∧ s.ctxs.cells d = some y := by
    intro d y hy
    rw [Heap.cells_alloc] at hy
    split_ifs at hy with hd
    · exact .inl ⟨hd, (Option.some.inj hy).symm⟩
    · exact .inr ⟨hd, hy⟩
  refine ⟨h.toContexts.replace hcells PacketSync.wf_new (fun _ => rfl)
    (fun d hd => ⟨hd, fun _ => rfl⟩) (le_refl _) (fun n hn => by cases hn),
    h.toHistory.of_eq rfl rfl rfl (le_refl _) (fun _ => rfl) fun _ => rfl, fun d y hy hr => ?_⟩
  rcases hcells hy with ⟨-, rfl⟩ | ⟨-, hold⟩
  · cases hr
  · obtain ⟨a, n, hreads⟩ := h.reading d y hold hr
    exact ⟨a, n, hreads.of_eq rfl hreads.accepted (fun _ => id) rfl rfl⟩

/-- The context that `AcceptConnection` takes is not read from. -/
theorem Parsing.takeCtx (h : Parsing G s) (ht : s.takeCtx = (c, t)) :
    Parsing G t ∧ ∀ x, t.ctxs.cells c = some x → x.sessionTcpHandle.reading = false := by
  rcases takeCtx_cases ht with ⟨-, rfl, rfl⟩ | ⟨rest, hi, rfl⟩
  · refine ⟨h.alloc, fun x hx => ?_⟩
    rw [show x = allocTcpSessionCtx from
      (Option.some.inj ((Heap.cells_alloc.trans (if_pos rfl)).symm.trans hx)).symm]
    rfl
  · have hoff : ∀ x, s.ctxs.cells c = some x → x.sessionTcpHandle.reading = false :=
      h.idle c (by simp [hi])
    have hcells : ∀ {d y}, (s.ctxs.modify c fun x => { x with parentClientSession := none }).cells d
        = some y → ∃ x, s.ctxs.cells d = some x ∧ CtxDimmed x y
          ∧ y.sessionTcpHandle = x.sessionTcpHandle := by
      intro d y hy
      rw [Heap.cells_modify] at hy
      split_ifs at hy with hdc
      · obtain ⟨x, hx, rfl⟩ := Option.map_eq_some_iff.1 hy
        refine ⟨x, hx, ⟨id, id, rfl, fun hr => ?_⟩, rfl⟩
        exact absurd ((hoff x (hdc ▸ hx)).symm.trans hr) (by simp)
      · exact ⟨y, hy, .refl y, rfl⟩
    refine ⟨h.dim ⟨rfl, rfl, rfl, rfl, fun _ => rfl, rfl, fun _ p' hp => ⟨p', hp, rfl⟩,
      fun d y hy => ?_⟩, fun y hy => ?_⟩
    · obtain ⟨x, hx, hk, -⟩ := hcells hy
      exact ⟨x, hx, hk, fun hd => .inl (by simp [hi, show d ∈ rest from hd])⟩
    · obtain ⟨x, hx, -, heq⟩ := hcells hy
      rw [heq]
      exact hoff x hx

theorem Parsing.setCtx_off (h : Parsing G s) {x x' : TcpSessionCtx} (hx : s.ctxs.cells c = some x)
    (hp : x'.packet = x.packet) (hq : x'.sessionTcpHandle.Quiet)
    (hr : x'.sessionTcpHandle.reading = false) (hconn : x'.conn = x.conn) :
    Parsing G (s.setCtx c x') := by
  refine h.dim ⟨rfl, rfl, rfl, rfl, fun _ => rfl, rfl, fun _ p' hp => ⟨p', hp, rfl⟩,
    fun d y hy => ?_⟩
  rcases mem_cells_setCtx hx hy with ⟨rfl, rfl⟩ | ⟨-, hy⟩
  · refine ⟨x, hx, ⟨fun hw => hp ▸ hw, fun _ => hq, hconn, fun hon => ?_⟩, fun hd => .inl hd⟩
    exact absurd (hr.symm.trans hon) (by simp)
  · exact ⟨y, hy, .refl y, .inl⟩

/-- A connection taken on a context that is not read from. -/
theorem Parsing.connect (h : Parsing G s) {x x' : TcpSessionCtx} (hx : s.ctxs.cells c = some x)
    (hw : x'.packet.Wf) (hq : x'.sessionTcpHandle.Quiet)
    (hr : x'.sessionTcpHandle.reading = false) (hconn : x'.conn = some s.conns) :
    Parsing G { s.setCtx c x' with conns := s.conns + 1 } where
  toContexts := h.toContexts.replace (mem_cells_setCtx hx) hw hq (fun d hd => ⟨hd, fun _ => hr⟩)
    (Nat.le_succ _) fun n hn => by
      obtain rfl := Option.some.inj (hconn.symm.trans hn)
      exact .inr ⟨rfl, Nat.lt_succ_self _⟩
  toHistory := h.toHistory.of_eq rfl rfl rfl (Nat.le_succ _) (fun _ => rfl) fun _ => rfl
  reading d y hy hon := by
    rcases mem_cells_setCtx hx hy with ⟨rfl, rfl⟩ | ⟨-, hy⟩
    · exact absurd (hr.symm.trans hon) (by simp)
    · obtain ⟨a, n, hreads⟩ := h.reading d y hy hon
      exact ⟨a, n, hreads.of_eq rfl hreads.accepted (fun _ => id) rfl rfl⟩

theorem Parsing.pushIdle (h : Parsing G s)
    (hoff : ∀ x, s.ctxs.cells c = some x → x.sessionTcpHandle.reading = false)
    (errmsg : ErrMsg) (inits : List UvPhase) : Parsing G { s with
      idleTcpClientCtxList := s.idleTcpClientCtxList ++ [c], errmsg, inits } := by
  refine h.dim ⟨rfl, rfl, rfl, rfl, fun _ => rfl, rfl, fun _ p' hp => ⟨p', hp, rfl⟩,
    fun d y hy => ⟨y, hy, .refl y, fun hd => ?_⟩⟩
  rcases List.mem_append.1 hd with hd | hd
  · exact .inl hd
  · obtain rfl := List.mem_singleton.1 hd
    exact .inr (hoff y hy)

/-! ## Where a session begins, and where bytes are passed on -/

theorem packetsOf_of_callbacks {a : ℕ} (cbs : List ServerCb)
    (h : s'.callbacks = s.callbacks ++ cbs) :
    s'.packetsOf a = s.packetsOf a ++ cbs.filterMap (·.handed a) := by
  rw [packetsOf, h, List.filterMap_append, packetsOf]

theorem filterMap_handed (a b : ℕ) : ∀ packets : List (List UInt8),
    (packets.map fun pkt => ServerCb.recv pkt (some a)).filterMap (·.handed b)
      = if a = b then packets else []
  | [] => by simp
  | pkt :: packets => by
    have ih := filterMap_handed a b packets
    by_cases hab : a = b <;> simp_all [ServerCb.handed]

theorem History.newSession (h : History G s) {id : ℤ} (hhead : s'.packetHead = s.packetHead)
    (haccepted : s'.accepted = s.accepted ++ [(s.sessions.next, s.conns)])
    (hnext : s'.sessions.next = s.sessions.next + 1) (hconns : s'.conns = s.conns + 1)
    (harrivals : s'.arrivals = s.arrivals)
    (hcb : s'.callbacks = s.callbacks ++ [.newConn id s.sessions.next]) : History G s'
      ∧ (∀ n, s'.chunksOf n = s.chunksOf n) ∧ ∀ a, s'.packetsOf a = s.packetsOf a := by
  have hpackets : ∀ a, s'.packetsOf a = s.packetsOf a := fun a => by
    rw [packetsOf_of_callbacks _ hcb]
    exact List.append_nil _
  have hchunks : ∀ n, s'.chunksOf n = s.chunksOf n := fun n => by
    rw [CTcpServer.chunksOf, harrivals, CTcpServer.chunksOf]
  have hmem : ∀ {a n}, (a, n) ∈ s'.accepted →
      (a, n) ∈ s.accepted ∨ a = s.sessions.next ∧ n = s.conns := by
    intro a n hin
    simpa [haccepted] using hin
  refine ⟨⟨fun a n hin => ?_, fun a n b m ha hb => ?_, fun n hn => ?_, fun a ha => ?_,
    fun a n hg hin => ?_⟩, hchunks, hpackets⟩
  · rw [hnext, hconns]
    rcases hmem hin with hold | ⟨rfl, rfl⟩
    · have hlt := h.accepted_lt a n hold
      omega
    · omega
  · rcases hmem ha with hold | ⟨rfl, rfl⟩ <;> rcases hmem hb with hold' | ⟨rfl, rfl⟩
    · exact h.accepted_inj a n b m hold hold'
    · have hlt := h.accepted_lt a n hold
      omega
    · have hlt := h.accepted_lt b m hold'
      omega
    · simp
  · rw [hchunks]
    exact h.no_chunks n (by omega)
  · rw [hpackets]
    exact h.no_packets a (by omega)
  · rw [hhead, hchunks, hpackets]
    rcases hmem hin with hold | ⟨rfl, rfl⟩
    · exact h.isolated a n hg hold
    · rw [h.no_chunks _ (le_refl _), h.no_packets _ (le_refl _)]
      rfl

/-- A session begins, with a parser that is like a fresh one if its connection is one of `G`. -/
theorem Parsing.newSession (h : Parsing G s) {x z : TcpSessionCtx} (hx : s.ctxs.cells c = some x)
    (hidle : c ∉ s.idleTcpClientCtxList) (hz : s'.ctxs.cells = (s.setCtx c z).ctxs.cells)
    (hwf : z.packet.Wf)
    (halike : G s.conns → PacketSync.Alike (PacketSync.fresh s.packetHead) z.packet)
    (hq : z.sessionTcpHandle.Quiet) (hconn : z.conn = some s.conns)
    (hdata : z.handleData = some s.sessions.next)
    (hparent : z.parentClientSession = some s.sessions.next)
    (hs' : s'.packetHead = s.packetHead ∧ s'.idleTcpClientCtxList = s.idleTcpClientCtxList
      ∧ s'.sessions = s.sessions.alloc ⟨c, false⟩ ∧ s'.conns = s.conns + 1
      ∧ s'.accepted = s.accepted ++ [(s.sessions.next, s.conns)] ∧ s'.arrivals = s.arrivals)
    {id : ℤ} (hcb : s'.callbacks = s.callbacks ++ [.newConn id s.sessions.next]) :
    Parsing G s' := by
  obtain ⟨hhead, hidle', hsessions, hconns, haccepted, harrivals⟩ := hs'
  obtain ⟨hhist, hchunks, hpackets⟩ := h.toHistory.newSession hhead haccepted
    (by rw [hsessions]; rfl) hconns harrivals hcb
  have hcells : ∀ {d y}, s'.ctxs.cells d = some y →
      d = c ∧ y = z ∨ d ≠ c ∧ s.ctxs.cells d = some y := by
    intro d y hy
    rw [hz] at hy
    exact mem_cells_setCtx hx hy
  refine ⟨h.toContexts.replace hcells hwf hq (fun d hd => ?_) (by omega) (fun n hn => ?_), hhist,
    fun d y hy hon => ?_⟩
  · rw [hidle'] at hd
    exact ⟨hd, fun hdc => absurd (hdc ▸ hd) hidle⟩
  · obtain rfl := Option.some.inj (hconn.symm.trans hn)
    exact .inr ⟨rfl, by omega⟩
  · rcases hcells hy with ⟨rfl, rfl⟩ | ⟨-, hold⟩
    · refine ⟨s.sessions.next, s.conns, hdata, hparent, hconn, by simp [haccepted], ?_, ?_⟩
      · intro p hp
        rw [hsessions, Heap.cells_alloc, if_pos rfl] at hp
        rw [← Option.some.inj hp]
      · rw [hhead, hchunks, hpackets, h.no_chunks _ (le_refl _), h.no_packets _ (le_refl _)]
        exact fun hg => ⟨_, [], rfl, halike hg, rfl⟩
    · obtain ⟨a, n, hr⟩ := h.reading d y hold hon
      refine ⟨a, n, hr.of_eq hhead (by simp [haccepted, hr.accepted]) (fun p hp => ?_) (hchunks n)
        (hpackets a)⟩
      rwa [hsessions, Heap.cells_alloc, if_neg (h.accepted_lt a n hr.accepted).1.ne] at hp

/-- The parser of a context takes a chunk, as a fresh one does that was fed the chunks before it. -/
theorem Reads.onRecvData {x : TcpSessionCtx} {a n : ℕ} {data : List UInt8} {packet : PacketSync}
    {log : List (Segment UInt8)} (h : Reads G s c x a n)
    (hrecv : x.packet.onRecvData data = some (.ok (packet, log))) (hg : G n) :
    ∃ q log', (PacketSync.fresh s.packetHead).feed (s.chunksOf n ++ [data]) = some (.ok (q, log'))
      ∧ PacketSync.Alike q packet ∧ s.packetsOf a ++ packet.delivered log = frames log' := by
  obtain ⟨q, log₀, hfeed, halike, hpackets⟩ := h.parser hg
  obtain ⟨q', hq', halike', hcb⟩ := halike.recv_of_ok hrecv
  have hfresh : q'.funcPackageCb = true := by
    rw [hcb, ((PacketSync.wf_fresh _).feed_sound hfeed).2.2.1]
    rfl
  refine ⟨q', log₀ ++ log, PacketSync.feed_snoc hfeed hq', halike', ?_⟩
  rw [PacketSync.delivered_of_cb (halike'.cb ▸ hfresh), frames_append, hpackets]

/-- A connection brings a chunk, and its session is handed packets. -/
theorem History.recv (h : History G s) {a n : ℕ} {data : List UInt8} {packets : List (List UInt8)}
    (hin : (a, n) ∈ s.accepted) (hhead : s'.packetHead = s.packetHead)
    (haccepted : s'.accepted = s.accepted) (hnext : s'.sessions.next = s.sessions.next)
    (hconns : s'.conns = s.conns)
    (hchunks : ∀ m, s'.chunksOf m = s.chunksOf m ++ if n = m then [data] else [])
    (hpackets : ∀ b, s'.packetsOf b = s.packetsOf b ++ if a = b then packets else [])
    (houtcome : G n → (PacketSync.fresh s.packetHead).outcome (s.chunksOf n ++ [data])
      = some (.ok (s.packetsOf a ++ packets))) : History G s' := by
  have hlt := h.accepted_lt a n hin
  refine ⟨?_, ?_, fun m hm => ?_, fun b hb => ?_, fun b m hg hbm => ?_⟩
  · rw [haccepted, hnext, hconns]
    exact h.accepted_lt
  · rw [haccepted]
    exact h.accepted_inj
  · rw [hconns] at hm
    rw [hchunks, if_neg (by omega), h.no_chunks m hm]
    rfl
  · rw [hnext] at hb
    rw [hpackets, if_neg (by omega), h.no_packets b hb]
    rfl
  · rw [haccepted] at hbm
    have hiff := h.accepted_inj a n b m hin hbm
    rw [hhead, hchunks, hpackets]
    by_cases hnm : n = m
    · obtain rfl := hiff.2 hnm
      obtain rfl := hnm
      rw [if_pos rfl, if_pos rfl]
      exact houtcome hg
    · rw [if_neg hnm, if_neg (mt hiff.1 hnm), List.append_nil, List.append_nil]
      exact h.isolated b m hg hbm

/-- Bytes go to the parser of the context they came in on, and its packets to its session. -/
theorem Parsing.recv (h : Parsing G s) {x : TcpSessionCtx} {a n : ℕ} {data : List UInt8}
    {packet : PacketSync} {log : List (Segment UInt8)} (hx : s.ctxs.cells c = some x)
    (hreads : Reads G s c x a n) (hrecv : x.packet.onRecvData data = some (.ok (packet, log)))
    (hs' : s' = { s.setCtx c { x with packet } with
      arrivals := s.arrivals ++ [(n, data)] }.report
        ((packet.delivered log).map fun pkt => .recv pkt (some a))) :
    Parsing G s' := by
  have hwf : packet.Wf := by
    have hw := h.parsers c x hx
    obtain ⟨q, log', hok, hq, -⟩ := hw.onRecvData_sound (PacketSync.fits_of_returns hrecv) hrecv
    obtain ⟨rfl, -⟩ := Prod.mk.inj (Except.ok.inj hok)
    exact hq
  have hchunks : ∀ m, s'.chunksOf m = s.chunksOf m ++ if n = m then [data] else [] := by
    intro m
    have harrivals : s'.arrivals = s.arrivals ++ [(n, data)] := by
      rw [hs']
      rfl
    simp only [CTcpServer.chunksOf, harrivals, List.filterMap_append]
    by_cases hnm : n = m <;> simp [hnm]
  have hpackets : ∀ b, s'.packetsOf b
      = s.packetsOf b ++ if a = b then packet.delivered log else [] := by
    intro b
    have hcb : s'.callbacks = s.callbacks
        ++ (packet.delivered log).map fun pkt => .recv pkt (some a) := by
      rw [hs']
      rfl
    rw [packetsOf_of_callbacks _ hcb, filterMap_handed]
  have hparser := hreads.onRecvData hrecv
  have houtcome : G n → (PacketSync.fresh s.packetHead).outcome (s.chunksOf n ++ [data])
      = some (.ok (s.packetsOf a ++ packet.delivered log)) := by
    intro hg
    obtain ⟨q, log', hfeed, -, hlog⟩ := hparser hg
    have hfresh : q.funcPackageCb = true := ((PacketSync.wf_fresh _).feed_sound hfeed).2.2.1
    rw [PacketSync.outcome, hfeed, hlog, Option.map_some, Except.map,
      PacketSync.delivered_of_cb hfresh]
  subst hs'
  refine ⟨h.toContexts.replace (mem_cells_setCtx hx) hwf (h.quiet c x hx)
    (fun d hd => ⟨hd, fun hdc => h.idle c (hdc ▸ hd) x hx⟩) (le_refl _)
    (fun m hm => .inl ⟨x, hx, hm⟩),
    h.toHistory.recv hreads.accepted rfl rfl rfl rfl hchunks hpackets houtcome,
    fun d y hy hr => ?_⟩
  rcases mem_cells_setCtx hx hy with ⟨rfl, rfl⟩ | ⟨hdc, hold⟩
  · refine ⟨a, n, hreads.handleData, hreads.parentClientSession, hreads.conn, hreads.accepted,
      hreads.session, ?_⟩
    rw [hchunks, hpackets, if_pos rfl, if_pos rfl]
    exact hparser
  · obtain ⟨b, m, hr'⟩ := h.reading d y hold hr
    have hnm : n ≠ m := fun hnm => hdc (h.conn_inj d c y x m hold hx hr'.conn (hnm ▸ hreads.conn))
    have hab : a ≠ b := mt (h.accepted_inj a n b m hreads.accepted hr'.accepted).1 hnm
    refine ⟨b, m, hr'.of_eq rfl hr'.accepted (fun _ => id) ?_ ?_⟩
    · rw [hchunks, if_neg hnm, List.append_nil]
    · rw [hpackets, if_neg hab, List.append_nil]

/-! ## A step -/

theorem Parsing.frame (h : Parsing G s) (hf : Frame s s') : Parsing G s' := h.dim hf.dimmed

/-- What happens to the queue and to the faults is none of the parsers' concern. -/
theorem Dimmed.of_rest (s : CTcpServer) (events : List (UvEvent ServerObj))
    (fault : Option ServerFault) : Dimmed s { s with events, fault } :=
  ⟨rfl, rfl, rfl, rfl, fun _ => rfl, rfl, fun _ p' hp => ⟨p', hp, rfl⟩,
    fun _ x' hx => ⟨x', hx, .refl x', .inl⟩⟩

theorem Dimmed.modify_session (s : CTcpServer) (a : ℕ) : Dimmed s { s with
    sessions := s.sessions.modify a fun p => { p with isclosed := true } } :=
  ⟨rfl, rfl, rfl, rfl, fun _ => rfl, rfl, fun _ _ hp => modify_isclosed hp,
    fun _ x' hx => ⟨x', hx, .refl x', .inl⟩⟩

/-- A session ends and its context, whose handle reads nothing, is recycled. -/
theorem Parsing.sessionEnds (h : Parsing G s) {u v : CTcpServer} {x : TcpSessionCtx} {a : ℕ}
    {id : ℤ} (hx : s.ctxs.cells c = some x) (hoff : x.sessionTcpHandle.reading = false)
    (hu : u = { s with
      sessions := s.sessions.modify a fun p => { p with isclosed := true } }.report [.close id a])
    (hv : u.recycle c = .ok v) : Parsing G { v with
      sessions := v.sessions.free a, clientSessionMap := v.clientSessionMap.erase id } := by
  have hpackets : ∀ b, u.packetsOf b = s.packetsOf b := fun b => by
    rw [packetsOf_of_callbacks [.close id a] (by rw [hu]; rfl)]
    exact List.append_nil _
  have hsessions : ∀ b p', (u.sessions.free a).cells b = some p' →
      ∃ p, s.sessions.cells b = some p ∧ p'.clientSessionCtx = p.clientSessionCtx := by
    intro b p' hp
    rw [Heap.cells_free] at hp
    split_ifs at hp
    rw [hu] at hp
    exact modify_isclosed hp
  have hnext : u.sessions.next = s.sessions.next := by rw [hu]; rfl
  have hsame : u.packetHead = s.packetHead ∧ u.conns = s.conns ∧ u.accepted = s.accepted
      ∧ u.arrivals = s.arrivals ∧ u.ctxs = s.ctxs
      ∧ u.idleTcpClientCtxList = s.idleTcpClientCtxList := by
    rw [hu]
    exact ⟨rfl, rfl, rfl, rfl, rfl, rfl⟩
  obtain ⟨hhead, hconns, haccepted, harrivals, hctxs, hidle⟩ := hsame
  rcases recycle_cases hv with ⟨-, rfl⟩ | ⟨rfl, -⟩
  · refine h.dim ⟨hhead, hconns, haccepted, harrivals, hpackets, hnext, hsessions,
      fun d y hy => ?_⟩
    have hold : s.ctxs.cells d = some y := hctxs ▸ hy
    refine ⟨y, hold, .refl y, fun hd => ?_⟩
    have hd : d ∈ u.idleTcpClientCtxList ++ [c] := hd
    rw [hidle] at hd
    rcases List.mem_append.1 hd with hd | hd
    · exact .inl hd
    · rw [List.mem_singleton.1 hd, hx] at hold
      exact .inr (Option.some.inj hold ▸ hoff)
  · refine h.dim ⟨hhead, hconns, haccepted, harrivals, hpackets, hnext, hsessions,
      fun d y hy => ?_⟩
    have hy : (u.ctxs.free c).cells d = some y := hy
    rw [Heap.cells_free, hctxs] at hy
    split_ifs at hy
    exact ⟨y, hy, .refl y, fun hd => .inl (hidle ▸ hd)⟩

/-- A clean connection finds a parser that `Init` makes like a fresh one. -/
theorem Parsing.alike_fresh (h : Parsing G s) (ht : s.takeCtx = (c, t)) {x : TcpSessionCtx}
    (hx : t.ctxs.cells c = some x) (hclean : s.takenLen = 0) :
    PacketSync.Alike (PacketSync.fresh s.packetHead)
      (x.packet.onPackageCBEvent.init s.packetHead) := by
  have hwf : x.packet.Wf ∧ x.packet.realPacketLen = 0 := by
    rcases takeCtx_cases ht with ⟨-, rfl, rfl⟩ | ⟨rest, hi, rfl⟩
    · rw [Heap.cells_alloc, if_pos rfl, Option.some.injEq] at hx
      subst hx
      exact ⟨PacketSync.wf_new, rfl⟩
    · rw [Heap.cells_modify, if_pos rfl] at hx
      obtain ⟨y, hy, rfl⟩ := Option.map_eq_some_iff.1 hx
      simp only [takenLen, hi, hy, Option.elim_some] at hclean
      exact ⟨h.parsers c y hy, hclean⟩
  exact (hwf.1.onPackageCBEvent.alike_fresh rfl hwf.2 s.packetHead).symm

theorem parsing_started (packhead : UInt32) : Parsing G (started packhead) where
  toContexts := by constructor <;> intros <;> simp_all [started, Heap.empty]
  toHistory := by
    constructor <;> intros <;> simp_all [started, Heap.empty, CTcpServer.chunksOf, packetsOf]
  reading c x hx := by simp [started, Heap.empty] at hx

theorem Parsing.giveBack (h : Parsing G s) (ht : s.takeCtx = (c, t)) {x x' : TcpSessionCtx} {n : ℕ}
    {r : AcceptResults} {inits : List UvPhase} (hx : t.ctxs.cells c = some x)
    (hback : GivenBack s r x x' n inits) (errmsg : ErrMsg) : Parsing G { t.setCtx c x' with
      idleTcpClientCtxList := t.idleTcpClientCtxList ++ [c], errmsg, inits, conns := n } := by
  obtain ⟨hpt, hoff⟩ := h.takeCtx ht
  obtain ⟨-, hconns⟩ := takeCtx_fields ht
  suffices hset : x'.sessionTcpHandle.reading = false
      ∧ Parsing G { t.setCtx c x' with conns := n } by
    refine hset.2.pushIdle (fun y hy => ?_) errmsg inits
    rcases mem_cells_setCtx hx hy with ⟨-, rfl⟩ | ⟨hne, -⟩
    · exact hset.1
    · exact absurd rfl hne
  cases hback with
  | noInit _ =>
    rw [← hconns]
    exact ⟨hoff x hx, hpt.setCtx_off hx rfl (hpt.quiet c x hx) (hoff x hx) rfl⟩
  | noAccept _ _ =>
    rw [← hconns]
    exact ⟨rfl, hpt.setCtx_off hx rfl (fun _ => rfl) rfl rfl⟩
  | noRead _ _ _ =>
    rw [← hconns]
    have hwf := ((hpt.parsers c x hx).onPackageCBEvent).init s.packetHead
    exact ⟨rfl, hpt.connect hx hwf (fun _ => rfl) rfl rfl⟩

theorem parsing_step (ho : Owned s) (h : Parsing G s) (hl : G s.conns → Clean s l)
    (hs : step s l = some s') : Parsing G s' := by
  obtain ⟨-, ht⟩ := step_trans hs
  cases ht with
  | deadTarget _ _ _ | inCall => exact h.dim (.of_rest s _ _)
  | moves hm => exact h.frame hm.frame
  | push hm _ | pop hm => exact (h.frame hm.frame).dim (.of_rest _ _ _)
  | giveBack errmsg htake hx hback => exact h.giveBack htake hx hback errmsg
  | accept htake hx hinit hacc =>
    obtain ⟨hpt, -⟩ := h.takeCtx htake
    obtain ⟨-, hfree⟩ := ho.takeCtx htake
    obtain ⟨hhead, hconns⟩ := takeCtx_fields htake
    refine hpt.newSession hx hfree.notIdle rfl ((hpt.parsers _ _ hx).onPackageCBEvent.init _)
      (fun hg => ?_) (fun hc => by cases hc)
      (congrArg some hconns.symm) rfl rfl
      ⟨rfl, rfl, rfl, by rw [hconns]; rfl, by rw [hconns]; rfl, rfl⟩ rfl
    rw [hhead]
    exact h.alike_fresh htake hx (hl (hconns ▸ hg) ⟨rfl, hinit, hacc⟩)
  | recv hx hon ha hp hy hrecv =>
    obtain ⟨b, n, hreads⟩ := h.reading _ _ hx hon
    obtain rfl := Option.some.inj (ha.symm.trans hreads.handleData)
    obtain rfl := hreads.session _ hp
    obtain rfl := Option.some.inj (hx.symm.trans hy)
    exact h.recv hx hreads hrecv (by rw [hreads.conn, hreads.parentClientSession]; rfl)
  | closedAlone hm hx ha hp hpc hmap => exact (h.frame hm.frame).dim (.modify_session _ _)
  | sessionEnds hx he _ ha hp hpc hmap hq hcl hv =>
    obtain ⟨rfl, -, hv⟩ := ho.ended_self hp hpc hmap hq hcl hv
    have hoff := h.quiet _ _ hx (UvTcp.isClosing_of_ends _ he)
    exact (h.frame (frame_finish hx he)).sessionEnds ((cells_setCtx hx _ _).trans (if_pos rfl)) hoff
      rfl hv

theorem packetHead_step (hs : step s l = some s') : s'.packetHead = s.packetHead := by
  obtain ⟨-, ht⟩ := step_trans hs
  cases ht with
  | deadTarget _ _ _ | inCall => rfl
  | moves hm | push hm _ | pop hm | closedAlone hm _ _ _ _ _ => exact hm.frame.head
  | giveBack _ htake _ _ | accept htake _ _ _ => exact (takeCtx_fields htake).1
  | recv _ _ _ _ _ _ => rfl
  | sessionEnds _ _ _ _ _ _ _ _ _ hv =>
    rcases recycle_cases hv with ⟨-, rfl⟩ | ⟨rfl, -⟩ <;> rfl

end CTcpServer

end TestLibuv
