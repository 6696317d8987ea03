import TestLibuv.Lib.Pool
import TestLibuv.Proofs.ContextOwnership

/-!
# The `write_param`s

They are a pool: `sendinl` takes one from the list or allocates it, and it goes back at once if
`uv_write` fails, or else from `AfterSend`, which may free it. One that is lent to a `uv_write`
names the session whose context it was written on, and stays as it is.
-/

namespace TestLibuv

open CMem Runs

namespace UvBuf

/-- The block is as long as its length says. -/
def Room (b : UvBuf) : Prop := b.len.toNat ≤ b.base.length

theorem length_reserve {b : UvBuf} (h : b.Room) (need : UInt32) :
    need.toNat ≤ (b.reserve need).base.length := by
  unfold reserve
  split_ifs with hlt
  · simp only [realloc, List.length_append, List.length_take, length_malloc]
    omega
  · exact (UInt32.le_iff_toNat_le.1 (UInt32.not_lt.1 hlt)).trans h

end UvBuf

theorem memcpy_start {base src base' : List UInt8} (h : memcpy base 0 src = .ok base') :
    base' = src ++ base.drop src.length ∧ src.length ≤ base.length := by
  unfold memcpy at h
  split_ifs at h with hfits
  simpa [eq_comm] using And.intro (Except.ok.inj h) hfits

namespace CTcpServer

variable {s s' t : CTcpServer} {l : Label} {c w : ℕ}

/-- What the `uv_write`s that wait for their callbacks on the handle of a context refer to. -/
def inFlight (s : CTcpServer) (c : ℕ) : List ℕ :=
  (s.ctxs.cells c).elim [] fun x => x.sessionTcpHandle.writeReqs

/-- The `write_param`s are a pool, their blocks as long as they say, and those in flight name the
session of the context they were written on. -/
structure Params (s : CTcpServer) : Prop where
  pool : Pool s.params.Live s.writeparamList s.inFlight
  room : ∀ w p, s.params.cells w = some p → p.buf.Room
  named : ∀ c w, w ∈ s.inFlight c → ∃ p a q, s.params.cells w = some p ∧ p.data = some a
    ∧ s.sessions.cells a = some q ∧ q.clientSessionCtx = c

theorem inFlight_of_cells {x : TcpSessionCtx} (hx : s.ctxs.cells c = some x) :
    s.inFlight c = x.sessionTcpHandle.writeReqs := by
  rw [inFlight, hx]
  rfl

theorem inFlight_setCtx {x : TcpSessionCtx} (hx : s.ctxs.cells c = some x) (x' : TcpSessionCtx) :
    (s.setCtx c x').inFlight = Function.update s.inFlight c x'.sessionTcpHandle.writeReqs := by
  funext d
  unfold inFlight
  rw [cells_setCtx hx]
  by_cases hd : d = c
  · subst hd
    simp
  · simp [hd]

/-- What does not touch the pool, nor a session that an object in flight names. -/
structure SameWrites (s s' : CTcpServer) : Prop where
  params : s'.params = s.params
  list : s'.writeparamList = s.writeparamList
  inFlight : s'.inFlight = s.inFlight
  sessions : ∀ c w p a q, w ∈ s.inFlight c → s.params.cells w = some p → p.data = some a →
    s.sessions.cells a = some q →
    ∃ q', s'.sessions.cells a = some q' ∧ q'.clientSessionCtx = q.clientSessionCtx

theorem SameWrites.of_eq (hparams : s'.params = s.params)
    (hlist : s'.writeparamList = s.writeparamList) (hflight : s'.inFlight = s.inFlight)
    (hsessions : s'.sessions = s.sessions) : SameWrites s s' :=
  ⟨hparams, hlist, hflight, fun _ _ _ _ q _ _ _ hq => ⟨q, hsessions ▸ hq, rfl⟩⟩

theorem SameWrites.trans (h : SameWrites s t) (h' : SameWrites t s') : SameWrites s s' where
  params := h'.params.trans h.params
  list := h'.list.trans h.list
  inFlight := h'.inFlight.trans h.inFlight
  sessions c w p a q hw hp ha hq := by
    obtain ⟨q', hq', hqc⟩ := h.sessions c w p a q hw hp ha hq
    obtain ⟨q'', hq'', hqc'⟩ := h'.sessions c w p a q' (h.inFlight ▸ hw) (h.params ▸ hp) ha hq'
    exact ⟨q'', hq'', hqc'.trans hqc⟩

theorem Params.of_same (h : Params s) (hs : SameWrites s s') : Params s' where
  pool := by
    rw [hs.params, hs.list, hs.inFlight]
    exact h.pool
  room := hs.params ▸ h.room
  named c w hw := by
    rw [hs.inFlight] at hw
    obtain ⟨p, a, q, hp, ha, hq, hqc⟩ := h.named c w hw
    obtain ⟨q', hq', hqc'⟩ := hs.sessions c w p a q hw hp ha hq
    exact ⟨p, a, q', hs.params ▸ hp, ha, hq', hqc'.trans hqc⟩

/-- A context whose pending writes stay the same. -/
theorem sameWrites_setCtx {x x' : TcpSessionCtx} (hx : s.ctxs.cells c = some x)
    (hw : x'.sessionTcpHandle.writeReqs = x.sessionTcpHandle.writeReqs) :
    SameWrites s (s.setCtx c x') := by
  refine .of_eq rfl rfl ?_ rfl
  rw [inFlight_setCtx hx, hw, ← inFlight_of_cells hx, Function.update_eq_self]

/-- A context that is no session's has no writes pending. -/
theorem Params.inFlight_spare (h : Params s) (hc : Spare s c) : s.inFlight c = [] := by
  rw [List.eq_nil_iff_forall_not_mem]
  intro w hw
  obtain ⟨p, a, q, -, -, hq, hqc⟩ := h.named c w hw
  exact hc.notOwned a q hq hqc

/-! ## `sendinl` -/

/-- The `write_param` taken is in no other place, and the others stay where they are. -/
structure TakenParam (s : CTcpServer) (w : ℕ) (t : CTcpServer) : Prop where
  pool : Pool t.params.Live (w :: t.writeparamList) s.inFlight
  room : ∀ v p, t.params.cells v = some p → p.buf.Room
  kept : ∀ v p, s.params.cells v = some p → t.params.cells v = some p
  ctxs : t.ctxs = s.ctxs
  sessions : t.sessions = s.sessions
  writes : t.writes = s.writes

theorem Params.takeParam (h : Params s) (ht : s.takeParam = (w, t)) : TakenParam s w t := by
  unfold CTcpServer.takeParam at ht
  split at ht
  · rename_i hlist
    obtain ⟨rfl, rfl⟩ := Prod.mk.inj ht
    have hnew : ¬ s.params.Live s.params.next := fun hl => lt_irrefl _ hl.lt_next
    refine ⟨(h.pool.alloc hnew).congr_live fun v => Heap.live_alloc, fun v p hp => ?_,
      fun v p hp => (Heap.cells_alloc.trans (if_neg (Heap.lt_next hp).ne)).trans hp, rfl, rfl, rfl⟩
    rw [Heap.cells_alloc] at hp
    split_ifs at hp
    · obtain rfl := Option.some.inj hp
      exact (length_malloc _).ge
    · exact h.room v p hp
  · rename_i v rest hlist
    obtain ⟨rfl, rfl⟩ := Prod.mk.inj ht
    exact ⟨hlist ▸ h.pool, h.room, fun _ _ => id, rfl, rfl, rfl⟩

/-- What `sendinl` did: it copied the bytes of its caller into a `write_param` that was not in
flight, gave that to `uv_write`, and put it on the list if that failed. -/
structure Sent (s : CTcpServer) (buff : List UInt8) (c : ℕ) (b : Bool) (s' : CTcpServer) (w : ℕ)
    (p : WriteParam ℕ) : Prop where
  notInFlight : ∀ d, w ∉ s.inFlight d
  param : s'.params.cells w = some p
  bytes : buff.length < 2 ^ 32 → p.buf.base.take p.buf.len.toNat = buff
  placed : if b then s'.inFlight = Function.update s.inFlight c (s.inFlight c ++ [w])
      ∧ s'.writes = s.writes ++ [(c, p.buf.base.take p.buf.len.toNat)]
    else s'.inFlight = s.inFlight ∧ s'.writes = s.writes ∧ w ∈ s'.writeparamList
  others : ∀ v ≠ w, ∀ p, s.params.cells v = some p → s'.params.cells v = some p

/-- The block `sendinl` has copied its caller's bytes into. -/
theorem take_memcpy {buff base base' : List UInt8} (hlen : buff.length < 2 ^ 32)
    (h : memcpy base 0 buff = .ok base') : base'.take (toU32 buff.length).toNat = buff := by
  obtain ⟨rfl, -⟩ := memcpy_start h
  rw [toNat_toU32 (by omega) (by omega)]
  simp

theorem TakenParam.notInFlight (h : TakenParam s w t) (d : ℕ) : w ∉ s.inFlight d :=
  fun hd => h.pool.notFree hd (List.mem_cons_self ..)

/-- The `write_param` taken, once it holds the bytes. -/
theorem TakenParam.fill (h : TakenParam s w t) {buff base : List UInt8} {p : WriteParam ℕ}
    (hp : t.params.cells w = some p)
    (hm : memcpy (p.buf.reserve (toU32 buff.length)).base 0 buff = .ok base) (data : Option ℕ)
    {params : Heap (WriteParam ℕ)}
    (hparams : params = t.params.modify w fun _ => ⟨⟨base, toU32 buff.length⟩, data⟩) :
    params.cells w = some ⟨⟨base, toU32 buff.length⟩, data⟩
      ∧ (∀ v, params.Live v ↔ t.params.Live v)
      ∧ (∀ v p, params.cells v = some p → p.buf.Room)
      ∧ ∀ v ≠ w, ∀ p, s.params.cells v = some p → params.cells v = some p := by
  subst hparams
  have hfit : (toU32 buff.length).toNat ≤ base.length := by
    obtain ⟨rfl, hlen⟩ := memcpy_start hm
    have hres := UvBuf.length_reserve (h.room w p hp) (toU32 buff.length)
    rw [List.length_append, List.length_drop]
    omega
  refine ⟨(Heap.cells_modify.trans (if_pos rfl)).trans (by rw [hp]; rfl),
    fun v => Heap.live_modify, fun v p' hp' => ?_, fun v hv p' hp' => ?_⟩
  · rw [Heap.cells_modify] at hp'
    split_ifs at hp' with hv
    · obtain ⟨_, -, rfl⟩ := Option.map_eq_some_iff.1 hp'
      exact hfit
    · exact h.room v p' hp'
  · exact (Heap.cells_modify.trans (if_neg hv)).trans (h.kept v p' hp')

theorem Params.sendinl (h : Params s) {buff : List UInt8} {res : ℤ} {b : Bool} {a : ℕ}
    {q : CTcpClientSession} (hq : s.sessions.cells a = some q) (hqc : q.clientSessionCtx = c)
    (hparent : ∀ x, s.ctxs.cells c = some x → x.parentClientSession = some a)
    (hs : s.sendinl buff c res = .ok (b, s')) : Params s' := by
  obtain ⟨w, t, p, base, x, ht, hp, hm, hx, hout⟩ := sendinl_spec hs
  have htaken := h.takeParam ht
  obtain ⟨hself, hlive, hroom, hothers⟩ := htaken.fill hp hm x.parentClientSession rfl
  have hold : ∀ d v, v ∈ s.inFlight d → ∃ p a q, (t.params.modify w fun _ =>
      ⟨⟨base, toU32 buff.length⟩, x.parentClientSession⟩).cells v = some p ∧ p.data = some a
      ∧ t.sessions.cells a = some q ∧ q.clientSessionCtx = d := by
    intro d v hv
    obtain ⟨p', a', q', hp', ha', hq', hqd⟩ := h.named d v hv
    refine ⟨p', a', q', hothers v ?_ p' hp', ha', htaken.sessions ▸ hq', hqd⟩
    rintro rfl
    exact htaken.notInFlight d hv
  have hflight : t.inFlight = s.inFlight := by
    unfold inFlight
    rw [htaken.ctxs]
  rcases hout with ⟨-, rfl⟩ | ⟨-, -, rfl⟩
  · refine ⟨?_, hroom, fun d v hv => hold d v (hflight ▸ hv)⟩
    show Pool _ (t.writeparamList ++ [w]) t.inFlight
    rw [hflight]
    exact (htaken.pool.perm (List.perm_append_singleton w _).symm).congr_live hlive
  · have hlent : (t.setCtx c { x with sessionTcpHandle := { x.sessionTcpHandle with
        writeReqs := x.sessionTcpHandle.writeReqs ++ [w] } }).inFlight
        = Function.update s.inFlight c (s.inFlight c ++ [w]) := by
      rw [inFlight_setCtx hx, ← hflight, inFlight_of_cells hx]
    refine ⟨?_, hroom, fun d v hv => ?_⟩
    · show Pool _ t.writeparamList (t.setCtx c _).inFlight
      rw [hlent]
      exact (htaken.pool.lend c).congr_live hlive
    · have hv' : v ∈ Function.update s.inFlight c (s.inFlight c ++ [w]) d := hlent ▸ hv
      by_cases hd : d = c
      · subst hd
        rw [Function.update_self] at hv'
        rcases List.mem_append.1 hv' with hv' | hv'
        · exact hold d v hv'
        · obtain rfl := List.mem_singleton.1 hv'
          exact ⟨_, a, q, hself, hparent x (htaken.ctxs ▸ hx), htaken.sessions ▸ hq, hqc⟩
      · rw [Function.update_of_ne hd] at hv'
        exact hold d v hv'

theorem Params.sent (h : Params s) {buff : List UInt8} {res : ℤ} {b : Bool}
    (hs : s.sendinl buff c res = .ok (b, s')) : ∃ w p, Sent s buff c b s' w p := by
  obtain ⟨w, t, p, base, x, ht, hp, hm, hx, hout⟩ := sendinl_spec hs
  have htaken := h.takeParam ht
  obtain ⟨hself, -, -, hothers⟩ := htaken.fill hp hm x.parentClientSession rfl
  have hflight : t.inFlight = s.inFlight := by
    unfold inFlight
    rw [htaken.ctxs]
  refine ⟨w, ⟨⟨base, toU32 buff.length⟩, x.parentClientSession⟩, ?_⟩
  rcases hout with ⟨rfl, rfl⟩ | ⟨rfl, -, rfl⟩
  · exact ⟨htaken.notInFlight, hself, fun hlen => take_memcpy hlen hm,
      ⟨hflight, htaken.writes, by simp⟩, hothers⟩
  · refine ⟨htaken.notInFlight, hself, fun hlen => take_memcpy hlen hm, ⟨?_, ?_⟩, hothers⟩
    · show (t.setCtx c _).inFlight = _
      rw [inFlight_setCtx hx, ← hflight, inFlight_of_cells hx]
    · show t.writes ++ [(c, base.take (toU32 buff.length).toNat)] = _
      rw [htaken.writes]

/-- The copy into the `write_param` fits. -/
theorem Params.sendinl_ok (h : Params s) {buff : List UInt8} (hlen : buff.length < 2 ^ 32)
    {x : TcpSessionCtx} (hx : s.ctxs.cells c = some x) (res : ℤ) :
    ∃ r, s.sendinl buff c res = .ok r := by
  unfold CTcpServer.sendinl
  rcases ht : s.takeParam with ⟨w, t⟩
  have htaken := h.takeParam ht
  obtain ⟨p, hp⟩ := ((htaken.pool.live_iff w).2 (.inl (List.mem_cons_self ..))).cells
  have hparam : t.param w = .ok p := by
    unfold param
    rw [hp]
  have hfit : (0 : ℤ).toNat + buff.length ≤ (p.buf.reserve (toU32 buff.length)).base.length := by
    have hres := UvBuf.length_reserve (htaken.room w p hp) (toU32 buff.length)
    rw [toNat_toU32 (by omega) (by omega)] at hres
    simpa using hres
  have hctx : t.ctx c = .ok x := ctx_of_cells (htaken.ctxs ▸ hx)
  simp only [hparam, bind, Except.bind, memcpy_ok buff le_rfl hfit, hctx]
  split_ifs <;> exact ⟨_, rfl⟩

/-! ## The steps -/

/-- `AfterSend` takes the request of a write off its handle and gives the `write_param` back. -/
theorem Params.afterSend (h : Params s) {i : ℕ} {x : TcpSessionCtx}
    (hx : s.ctxs.cells c = some x) (hw : x.sessionTcpHandle.writeReqs[i]? = some w)
    (hs : CTcpClientSession.afterSend (s.setCtx c { x with
      sessionTcpHandle := { x.sessionTcpHandle with
        writeReqs := x.sessionTcpHandle.writeReqs.eraseIdx i } }) w = .ok s') : Params s' := by
  have hflight : (s.setCtx c { x with sessionTcpHandle := { x.sessionTcpHandle with
      writeReqs := x.sessionTcpHandle.writeReqs.eraseIdx i } }).inFlight
      = Function.update s.inFlight c ((s.inFlight c).eraseIdx i) := by
    rw [inFlight_setCtx hx, inFlight_of_cells hx]
  have hlent : (s.inFlight c)[i]? = some w := inFlight_of_cells hx ▸ hw
  have hin : ∀ d v, v ∈ Function.update s.inFlight c ((s.inFlight c).eraseIdx i) d →
      v ∈ s.inFlight d ∧ v ≠ w := by
    intro d v hv
    by_cases hd : d = c
    · subst hd
      rw [Function.update_self, Pool.mem_eraseIdx (h.pool.lent_nodup d) hlent] at hv
      exact ⟨hv.2, hv.1⟩
    · rw [Function.update_of_ne hd] at hv
      refine ⟨hv, ?_⟩
      rintro rfl
      exact hd (h.pool.apart hv (List.mem_of_getElem? hlent))
  rcases CTcpClientSession.afterSend_spec hs with ⟨-, rfl⟩ | ⟨-, rfl⟩
  · refine ⟨?_, fun v p hp => ?_, fun d v hv => ?_⟩
    · show Pool (s.params.free w).Live s.writeparamList (s.setCtx c _).inFlight
      rw [hflight]
      exact (h.pool.drop hlent).congr_live fun v => Heap.live_free
    · rw [Heap.cells_free] at hp
      split_ifs at hp
      exact h.room v p hp
    · have hv' := hin d v (hflight ▸ hv)
      obtain ⟨p, a, q, hp, hrest⟩ := h.named d v hv'.1
      exact ⟨p, a, q, (Heap.cells_free.trans (if_neg hv'.2)).trans hp, hrest⟩
  · refine ⟨?_, h.room, fun d v hv => h.named d v (hin d v (hflight ▸ hv)).1⟩
    show Pool s.params.Live (s.writeparamList ++ [w]) (s.setCtx c _).inFlight
    rw [hflight]
    exact h.pool.giveBack hlent

/-- What touches the pool is `sendinl` for a session and `AfterSend`. -/
theorem Move.writes (hm : Move s l s') : SameWrites s s'
    ∨ (∃ a p buff res b, s.sessions.cells a = some p
      ∧ s.sendinl buff p.clientSessionCtx res = .ok (b, s'))
    ∨ ∃ c i x w, l = .afterSend c i ∧ s.ctxs.cells c = some x
      ∧ x.sessionTcpHandle.writeReqs[i]? = some w
      ∧ CTcpClientSession.afterSend (s.setCtx c { x with
        sessionTcpHandle := { x.sessionTcpHandle with
          writeReqs := x.sessionTcpHandle.writeReqs.eraseIdx i } }) w = .ok s' := by
  cases hm with
  | rest _ _ _ _ => exact .inl (.of_eq rfl rfl rfl rfl)
  | close hx _ _ _ => exact .inl (sameWrites_setCtx hx (UvTcp.writeReqs_close _))
  | shutdown hx _ _ => exact .inl (sameWrites_setCtx hx (UvTcp.writeReqs_shutdown _ _))
  | readError hx | shutdownDone hx | finish hx _ => exact .inl (sameWrites_setCtx hx rfl)
  | write hp hpc hsend => exact .inr (.inl ⟨_, _, _, _, _, hp, hpc ▸ hsend⟩)
  | sent hx hw hsent => exact .inr (.inr ⟨_, _, _, _, rfl, hx, hw, hsent⟩)

theorem Params.move (h : Params s) (ht : Tied s) (hm : Move s l s') : Params s' := by
  rcases hm.writes with hsame | ⟨a, p, buff, res, b, hp, hsend⟩ | ⟨c, i, x, w, -, hx, hw, hsent⟩
  · exact h.of_same hsame
  · refine h.sendinl hp rfl (fun x hx => ?_) hsend
    obtain ⟨y, hy⟩ := ht.paired a p hp
    obtain rfl := Option.some.inj (hy.ctx.symm.trans hx)
    exact hy.parentClientSession
  · exact h.afterSend hx hw hsent

theorem Params.moves (h : Params s) (ht : Tied s) (hm : Moves l s s') : Params s' := by
  induction hm with
  | refl => exact h
  | tail hms hm ih => exact ih.move (ht.moves hms) hm

theorem sameWrites_takeCtx (ht : s.takeCtx = (c, t)) : SameWrites s t := by
  rcases takeCtx_cases ht with ⟨hi, rfl, rfl⟩ | ⟨rest, hi, rfl⟩
  · refine .of_eq rfl rfl (funext fun d => ?_) rfl
    unfold inFlight
    rw [Heap.cells_alloc]
    split_ifs with hd
    · rw [hd, s.ctxs.unused _ le_rfl]
      rfl
    · rfl
  · refine .of_eq rfl rfl (funext fun d => ?_) rfl
    unfold inFlight
    rw [Heap.cells_modify]
    split_ifs
    · rcases s.ctxs.cells d with _ | x <;> rfl
    · rfl

theorem GivenBack.writeReqs {r : AcceptResults} {x x' : TcpSessionCtx} {n : ℕ}
    {inits : List UvPhase} (h : GivenBack s r x x' n inits)
    (hx : x.sessionTcpHandle.writeReqs = []) : x'.sessionTcpHandle.writeReqs = [] := by
  cases h with
  | noInit _ => exact hx
  | noAccept _ _ => rfl
  | noRead _ _ _ => exact UvTcp.writeReqs_close _

theorem sameWrites_newSession {x y : TcpSessionCtx} (hy : s.ctxs.cells c = some y)
    (hnone : s.inFlight c = []) (hx : x.sessionTcpHandle.writeReqs = []) (conn : ℕ) :
    SameWrites s (s.newSession c x conn) := by
  refine ⟨rfl, rfl, ?_, fun _ _ _ a q _ _ _ hq => ⟨q, ?_, rfl⟩⟩
  · show (s.setCtx c _).inFlight = _
    rw [inFlight_setCtx hy, hx, ← hnone, Function.update_eq_self]
  · exact (Heap.cells_alloc.trans (if_neg (Heap.lt_next hq).ne)).trans hq

theorem sameWrites_markClosed (s : CTcpServer) (a : ℕ) (cbs : List ServerCb) :
    SameWrites s ({ s with
      sessions := s.sessions.modify a fun p => { p with isclosed := true } }.report cbs) := by
  refine ⟨rfl, rfl, rfl, fun _ _ _ b q _ _ _ hq => ?_⟩
  show ∃ q', (s.sessions.modify a fun p => { p with isclosed := true }).cells b = some q' ∧ _
  rw [Heap.cells_modify, hq]
  split_ifs
  · exact ⟨{ q with isclosed := true }, rfl, rfl⟩
  · exact ⟨q, rfl, rfl⟩

/-- A session is deleted whose context has no writes pending. -/
theorem Params.deleteSession (h : Params s) {v : CTcpServer} {a : ℕ} {p : CTcpClientSession}
    (hp : s.sessions.cells a = some p) (hpc : p.clientSessionCtx = c) (hnone : s.inFlight c = [])
    (hv : s.recycle c = .ok v) (map : Std.TreeMap ℤ ℕ) :
    SameWrites s { v with sessions := v.sessions.free a, clientSessionMap := map } := by
  have hsessions : ∀ d w p' b q, w ∈ s.inFlight d → s.params.cells w = some p' →
      p'.data = some b → s.sessions.cells b = some q →
      ∃ q', (s.sessions.free a).cells b = some q' ∧ q'.clientSessionCtx = q.clientSessionCtx := by
    intro d w p' b q hw hp' hb hq
    refine ⟨q, (Heap.cells_free.trans (if_neg ?_)).trans hq, rfl⟩
    rintro rfl
    obtain ⟨p'', a', q', hp'', ha', hq', hqd⟩ := h.named d w hw
    obtain rfl := Option.some.inj (hp''.symm.trans hp')
    obtain rfl := Option.some.inj (ha'.symm.trans hb)
    obtain rfl := Option.some.inj (hq'.symm.trans hp)
    obtain rfl : c = d := hpc.symm.trans hqd
    simp [hnone] at hw
  rcases recycle_cases hv with ⟨-, rfl⟩ | ⟨rfl, -⟩
  · exact ⟨rfl, rfl, rfl, hsessions⟩
  · refine ⟨rfl, rfl, funext fun d => ?_, hsessions⟩
    by_cases hd : d = c
    · subst hd
      rw [hnone]
      unfold inFlight
      rw [Heap.cells_free, if_pos rfl]
      rfl
    · unfold inFlight
      rw [Heap.cells_free, if_neg hd]

theorem params_started (packhead : UInt32) : Params (started packhead) where
  pool := Pool.empty.congr_live fun w => by simp [started, Heap.empty, Heap.Live]
  room w p hp := by simp [started, Heap.empty] at hp
  named c w hw := by simp [started, Heap.empty, inFlight] at hw

/-- A step makes some moves, and touches the pool in those only. -/
theorem moves_sameWrites (ho : Owners s) (h : Params s) (hs : step s l = some s') :
    ∃ t, Moves l s t ∧ SameWrites t s' := by
  obtain ⟨-, ht⟩ := step_trans hs
  cases ht with
  | deadTarget _ _ _ | inCall => exact ⟨s, .refl, .of_eq rfl rfl rfl rfl⟩
  | moves hm => exact ⟨s', hm, .of_eq rfl rfl rfl rfl⟩
  | push hm _ | pop hm => exact ⟨_, hm, .of_eq rfl rfl rfl rfl⟩
  | @giveBack c r t x x' n inits errmsg htake hx hback =>
    have htaken := sameWrites_takeCtx htake
    have hnone := (h.of_same htaken).inFlight_spare (ho.tied.takeCtx ho.owned htake).2.1
    rw [inFlight_of_cells hx] at hnone
    have hset := sameWrites_setCtx hx ((hback.writeReqs hnone).trans hnone.symm)
    exact ⟨s, .refl, (htaken.trans hset).trans (.of_eq rfl rfl rfl rfl)⟩
  | @accept c r t x htake hx _ _ =>
    have htaken := sameWrites_takeCtx htake
    have hnone := (h.of_same htaken).inFlight_spare (ho.tied.takeCtx ho.owned htake).2.1
    have hnew := sameWrites_newSession (s := { t with
      inits := s.inits ++ [x.sessionTcpHandle.phase], conns := s.conns + 1 })
      (x := opened s x) hx hnone rfl s.conns
    have hinit : SameWrites t { t with
        inits := s.inits ++ [x.sessionTcpHandle.phase], conns := s.conns + 1 } :=
      .of_eq rfl rfl rfl rfl
    exact ⟨s, .refl, (htaken.trans hinit).trans hnew⟩
  | @recv c data x y a p packet log _ _ _ _ hy _ =>
    have hset : SameWrites s (s.setCtx p.clientSessionCtx { y with packet }) :=
      sameWrites_setCtx hy rfl
    exact ⟨s, .refl, hset.trans (.of_eq rfl rfl rfl rfl)⟩
  | @closedAlone c t x a p hm _ _ _ _ _ =>
    exact ⟨t, hm, (sameWrites_markClosed t a []).trans (.of_eq rfl rfl rfl rfl)⟩
  | @sessionEnds c v x a b p q hx he _ _ hp hpc hmap hq hcl hv =>
    obtain ⟨rfl, hqc, hv⟩ := ho.owned.ended_self hp hpc hmap hq hcl hv
    have hset := sameWrites_setCtx hx (rfl : ({ x with
      sessionTcpHandle := x.sessionTcpHandle.finish } : TcpSessionCtx).sessionTcpHandle.writeReqs
        = x.sessionTcpHandle.writeReqs)
    have hend : SameWrites s (s.ended c x b b) := hset.trans (sameWrites_markClosed _ b _)
    refine ⟨s, .refl, hend.trans ((h.of_same hend).deleteSession hq hqc ?_ hv _)⟩
    rw [hend.inFlight, inFlight_of_cells hx]
    exact x.sessionTcpHandle.writeReqs_of_ends he

theorem params_step (ho : Owners s) (h : Params s) (hs : step s l = some s') : Params s' := by
  obtain ⟨t, hm, hsame⟩ := moves_sameWrites ho h hs
  exact (h.moves ho.tied hm).of_same hsame

/-! ## What is in flight -/

/-- A `write_param` in flight stays there and as it is, whatever other is sent. -/
theorem Sent.kept {buff : List UInt8} {b : Bool} {v d : ℕ} {p : WriteParam ℕ}
    (h : Sent s buff c b s' w p) (hv : v ∈ s.inFlight d) {q : WriteParam ℕ}
    (hq : s.params.cells v = some q) : v ∈ s'.inFlight d ∧ s'.params.cells v = some q := by
  have hne : v ≠ w := by
    rintro rfl
    exact h.notInFlight d hv
  refine ⟨?_, h.others v hne q hq⟩
  have hplaced := h.placed
  cases b with
  | false => exact hplaced.1 ▸ hv
  | true =>
    rw [hplaced.1]
    by_cases hd : d = c
    · subst hd
      rw [Function.update_self]
      exact List.mem_append_left _ hv
    · rwa [Function.update_of_ne hd]

theorem Params.moves_kept (h : Params s) (ht : Tied s) (hl : ∀ c i, l ≠ .afterSend c i)
    (hm : Moves l s s') (hw : w ∈ s.inFlight c) {p : WriteParam ℕ}
    (hp : s.params.cells w = some p) : w ∈ s'.inFlight c ∧ s'.params.cells w = some p := by
  induction hm with
  | refl => exact ⟨hw, hp⟩
  | @tail t u hms hm ih =>
    rcases hm.writes with hsame | ⟨a, q, buff, res, b, hq, hsend⟩ | ⟨d, i, x, v, hld, -⟩
    · rw [hsame.inFlight, hsame.params]
      exact ih
    · obtain ⟨v, r, hsent⟩ := (h.moves ht hms).sent hsend
      exact hsent.kept ih.1 ih.2
    · exact absurd hld (hl d i)

/-- The session that a write in flight names is not deleted when `AfterSend` runs. -/
theorem Params.afterSend_ok (h : Params s) {i : ℕ} {x : TcpSessionCtx}
    (hx : s.ctxs.cells c = some x) (hw : x.sessionTcpHandle.writeReqs[i]? = some w) :
    ∃ s', CTcpClientSession.afterSend (s.setCtx c { x with
      sessionTcpHandle := { x.sessionTcpHandle with
        writeReqs := x.sessionTcpHandle.writeReqs.eraseIdx i } }) w = .ok s' := by
  have hin : w ∈ s.inFlight c := inFlight_of_cells hx ▸ List.mem_of_getElem? hw
  obtain ⟨p, a, q, hp, ha, hq, hqc⟩ := h.named c w hin
  set u := s.setCtx c { x with sessionTcpHandle := { x.sessionTcpHandle with
    writeReqs := x.sessionTcpHandle.writeReqs.eraseIdx i } }
  have hparam : u.param w = .ok p := by
    unfold param
    rw [show u.params.cells w = some p from hp]
  have hfollow : u.follow p.data = .ok (a, q) := follow_of_cells ha hq
  obtain ⟨y, hy⟩ : ∃ y, u.ctxs.cells q.clientSessionCtx = some y := by
    rw [hqc]
    exact ⟨_, (cells_setCtx hx _ c).trans (if_pos rfl)⟩
  simp only [CTcpClientSession.afterSend, hparam, bind, Except.bind, hfollow, ctx_of_cells hy]
  exact ⟨_, rfl⟩

/-- What a step that is an `AfterSend` does. -/
theorem Params.afterSend_step (h : Params s) {i : ℕ} (hs : step s (.afterSend c i) = some s') :
    ∃ x w, s.ctxs.cells c = some x ∧ x.sessionTcpHandle.writeReqs[i]? = some w
      ∧ CTcpClientSession.afterSend (s.setCtx c { x with
        sessionTcpHandle := { x.sessionTcpHandle with
          writeReqs := x.sessionTcpHandle.writeReqs.eraseIdx i } }) w = .ok s' := by
  obtain ⟨r, hr, rfl⟩ := step_act hs (by simp)
  obtain ⟨x, hx, hr⟩ := Option.bind_eq_some_iff.1 hr
  obtain ⟨w, hw, rfl⟩ := Option.map_eq_some_iff.1 hr
  obtain ⟨u, hu⟩ := h.afterSend_ok hx hw
  exact ⟨x, w, hx, hw, hu ▸ rfl⟩

/-- Only its own `AfterSend` ends the flight of a `write_param`, or touches it. -/
theorem kept_step (ho : Owners s) (h : Params s) (hs : step s l = some s')
    (hw : w ∈ s.inFlight c) : (∃ i, l = .afterSend c i ∧ (s.inFlight c)[i]? = some w)
      ∨ w ∈ s'.inFlight c ∧ s'.params.cells w = s.params.cells w := by
  obtain ⟨p, -, -, hp, -⟩ := h.named c w hw
  by_cases hl : ∀ c i, l ≠ .afterSend c i
  · obtain ⟨t, hm, hsame⟩ := moves_sameWrites ho h hs
    rw [hsame.inFlight, hsame.params, hp]
    exact .inr (h.moves_kept ho.tied hl hm hw hp)
  · simp only [not_forall, not_not] at hl
    obtain ⟨d, i, rfl⟩ := hl
    obtain ⟨x, v, hx, hv, hsent⟩ := h.afterSend_step hs
    have hflight := inFlight_of_cells hx
    rw [← hflight] at hv
    by_cases hwv : w = v
    · subst hwv
      obtain rfl := h.pool.apart hw (List.mem_of_getElem? hv)
      exact .inl ⟨i, rfl, hv⟩
    · refine .inr ?_
      have hstay : w ∈ Function.update s.inFlight d ((s.inFlight d).eraseIdx i) c := by
        by_cases hcd : c = d
        · subst hcd
          rw [Function.update_self, Pool.mem_eraseIdx (h.pool.lent_nodup c) hv]
          exact ⟨hwv, hw⟩
        · rwa [Function.update_of_ne hcd]
      have hset := inFlight_setCtx hx { x with sessionTcpHandle := { x.sessionTcpHandle with
        writeReqs := x.sessionTcpHandle.writeReqs.eraseIdx i } }
      rw [hflight] at hstay
      rcases CTcpClientSession.afterSend_spec hsent with ⟨-, rfl⟩ | ⟨-, rfl⟩
      · exact ⟨hset ▸ hstay, Heap.cells_free.trans (if_neg hwv)⟩
      · exact ⟨hset ▸ hstay, rfl⟩

/-! ## Any number of sends -/

/-- `sendinl` for sessions, one after the other. -/
abbrev Sends : CTcpServer → CTcpServer → Prop := Relation.ReflTransGen fun s t =>
  ∃ a p buff res b, s.sessions.cells a = some p
    ∧ s.sendinl buff p.clientSessionCtx res = .ok (b, t)

theorem Sends.moves (h : Sends s t) (l : Label) : Moves l s t := by
  induction h with
  | refl => exact .refl
  | tail _ hsend ih =>
    obtain ⟨a, p, buff, res, b, hp, hsend⟩ := hsend
    exact ih.tail (.write hp rfl hsend)

/-- A broadcast to sessions that are alive is a number of sends. -/
theorem sends_broadcastLoop {buff : List UInt8} (hlen : buff.length < 2 ^ 32) :
    ∀ (m : List (ℤ × ℕ)) (ex res : List ℤ) {s : CTcpServer}, Tied s → Params s →
      (∀ e ∈ m, s.sessions.Live e.2) →
      ∃ t, broadcastLoop buff m ex res s = .ok t ∧ Sends s t
  | [], _, _, s, _, _, _ => ⟨s, rfl, .refl⟩
  | (id, a) :: m, ex, res, s, ht, h, hm => by
    unfold broadcastLoop
    have hrest : ∀ e ∈ m, s.sessions.Live e.2 := fun e he => hm e (List.mem_cons_of_mem _ he)
    split_ifs
    · exact sends_broadcastLoop hlen m _ res ht h hrest
    · obtain ⟨p, hp⟩ := (hm _ (List.mem_cons_self ..)).cells
      obtain ⟨x, hx⟩ := ht.paired a p hp
      obtain ⟨⟨b, u⟩, hsend⟩ := h.sendinl_ok hlen hx.ctx (res.headD 0)
      have hmove : Move s .asyncCB u := .write hp rfl hsend
      obtain ⟨t, hloop, hsends⟩ := sends_broadcastLoop hlen m ex res.tail (ht.move hmove)
        (h.move ht hmove) fun e he => by
          rw [hmove.frame.sessions]
          exact hrest e he
      refine ⟨t, ?_, .head ⟨a, p, buff, _, b, hp, hsend⟩ hsends⟩
      simp only [session_of_cells hp, bind, Except.bind, hsend]
      exact hloop

/-- What holds of the `write_param`s when `sendinl` is about to be called: they are a pool, and the
call fits its block and gives `uv_write` the caller's bytes. -/
structure Sendable (t : CTcpServer) : Prop where
  params : Params t
  sends : ∀ a p buff res, t.sessions.cells a = some p → buff.length < 2 ^ 32 →
    ∃ b t' w r, t.sendinl buff p.clientSessionCtx res = .ok (b, t')
      ∧ Sent t buff p.clientSessionCtx b t' w r ∧ r.buf.base.take r.buf.len.toNat = buff

theorem Params.sendable (h : Params s) (ht : Tied s) : Sendable s where
  params := h
  sends a p buff res hp hlen := by
    obtain ⟨x, hx⟩ := ht.paired a p hp
    obtain ⟨⟨b, t⟩, hsend⟩ := h.sendinl_ok hlen hx.ctx res
    obtain ⟨w, r, hsent⟩ := h.sent hsend
    exact ⟨b, t, w, r, hsend, hsent, hsent.bytes hlen⟩

theorem ownersParams_started (packhead : UInt32) :
    Owners (started packhead) ∧ Params (started packhead) :=
  ⟨owners_started packhead, params_started packhead⟩

theorem ownersParams_step (h : Owners s ∧ Params s) (hs : step s l = some s') :
    Owners s' ∧ Params s' :=
  ⟨owners_step h.1 hs, params_step h.1 h.2 hs⟩

theorem params_run {as : List Label} {packhead : UInt32}
    (hr : run step (started packhead) as = some s) : Owners s ∧ Params s :=
  invariant (I := fun s => Owners s ∧ Params s) (fun _ _ _ => ownersParams_step)
    (ownersParams_started packhead) hr

/-- In every state of a run, and behind every further `sendinl` within a step, each `write_param` is
once on the list or in flight with one `uv_write`, and the next `sendinl` fits and sends its bytes;
a broadcast is a number of these. What is in flight stays as it is until its own `AfterSend`, which
finds its session. -/
theorem write_params_pooled {as : List Label} {packhead : UInt32}
    (hr : run step (started packhead) as = some s) : (∀ t, Sends s t → Sendable t)
      ∧ (∀ buff ex res, buff.length < 2 ^ 32 →
        ∃ t, s.broadcastinl buff ex res = .ok t ∧ Sends s t)
      ∧ (∀ l s' c w, step s l = some s' → w ∈ s.inFlight c →
        (∃ i, l = .afterSend c i ∧ (s.inFlight c)[i]? = some w)
          ∨ w ∈ s'.inFlight c ∧ s'.params.cells w = s.params.cells w)
      ∧ ∀ c i r, s.act (.afterSend c i) = some r → ∃ s', r = .ok s' := by
  obtain ⟨ho, h⟩ := params_run hr
  refine ⟨fun t hsends => ?_, fun buff ex res hlen => ?_, fun l s' c w => kept_step ho h,
    fun c i r hr => ?_⟩
  · have hmoves := hsends.moves .asyncCB
    exact (h.moves ho.tied hmoves).sendable (ho.tied.moves hmoves)
  · refine sends_broadcastLoop hlen _ ex res ho.tied h fun e he => ?_
    obtain ⟨p, x, hm⟩ := ho.owned.mapped e.1 e.2 (Std.TreeMap.mem_toList_iff_getElem?_eq_some.1 he)
    exact Heap.live_of_cells hm.session
  · obtain ⟨x, hx, hr⟩ := Option.bind_eq_some_iff.1 hr
    obtain ⟨w, hw, rfl⟩ := Option.map_eq_some_iff.1 hr
    exact h.afterSend_ok hx hw

/-- Two messages in flight to a session, and one whose `uv_write` fails. -/
def threeSends : List Label :=
  [.acceptConnection 0 ⟨0, 0, 0⟩, .send 0 [1, 2] 0, .send 0 [3] 0, .send 0 [4] (-1),
    .afterSend 0 1, .send 0 [5, 6, 7] 0]

theorem write_params_pooled_threeSends : ∃ s,
    run step (started defPackHeadFlag) threeSends = some s
      ∧ s.writeparamList = [1] ∧ s.inFlight 0 = [0, 2] ∧ (∀ t, Sends s t → Sendable t)
      ∧ (∀ buff ex res, buff.length < 2 ^ 32 →
        ∃ t, s.broadcastinl buff ex res = .ok t ∧ Sends s t)
      ∧ (∀ l s' c w, step s l = some s' → w ∈ s.inFlight c →
        (∃ i, l = .afterSend c i ∧ (s.inFlight c)[i]? = some w)
          ∨ w ∈ s'.inFlight c ∧ s'.params.cells w = s.params.cells w)
      ∧ ∀ c i r, s.act (.afterSend c i) = some r → ∃ s', r = .ok s' := by
  obtain ⟨s, hs⟩ := Option.isSome_iff_exists.1
    (show (run step (started defPackHeadFlag) threeSends).isSome by decide +kernel)
  have hplaces : (run step (started defPackHeadFlag) threeSends).map
      (fun s => (s.writeparamList, s.inFlight 0)) = some ([1], [0, 2]) := by decide +kernel
  rw [hs, Option.map_some, Option.some.injEq, Prod.mk.injEq] at hplaces
  exact ⟨s, hs, hplaces.1, hplaces.2, write_params_pooled hs⟩

end CTcpServer

end TestLibuv
