import TestLibuv.Proofs.SessionLifetime

/-!
# Contexts have one owner

Every session and its context name each other, a context on the idle list is no session's, and no
context names a session that is not its own. While ids are not given out twice, every session is
in the map under its context's id, so every context is on the list or some mapped session's.
-/

namespace TestLibuv.CTcpServer

open CMem Runs

variable {s s' t : CTcpServer} {l : Label} {c : ℕ}

/-- A session and its context, which name each other. -/
structure Paired (s : CTcpServer) (a : ℕ) (p : CTcpClientSession) (x : TcpSessionCtx) : Prop where
  session : s.sessions.cells a = some p
  ctx : s.ctxs.cells p.clientSessionCtx = some x
  handleData : x.handleData = some a
  parentClientSession : x.parentClientSession = some a
  notIdle : p.clientSessionCtx ∉ s.idleTcpClientCtxList

structure Tied (s : CTcpServer) : Prop where
  paired : ∀ a p, s.sessions.cells a = some p → ∃ x, Paired s a p x
  only : ∀ c x a p, s.ctxs.cells c = some x → x.handleData = some a →
    s.sessions.cells a = some p → p.clientSessionCtx = c
  named_lt : ∀ c x a, s.ctxs.cells c = some x → x.handleData = some a → a < s.sessions.next
  idle_live : ∀ c ∈ s.idleTcpClientCtxList, s.ctxs.Live c
  idle_short : s.idleTcpClientCtxList.length ≤ maxListSize + 1
  closing : ∀ c x, s.ctxs.cells c = some x → x.sessionTcpHandle.phase = .closing →
    x.afterClientClose = true → ∃ a, x.handleData = some a ∧ s.sessions.Live a

/-- A context that is on no list and no session's. -/
structure Spare (s : CTcpServer) (c : ℕ) : Prop where
  notIdle : c ∉ s.idleTcpClientCtxList
  notOwned : ∀ a p, s.sessions.cells a = some p → p.clientSessionCtx ≠ c

/-- A session named by a context or having it is the one that the context's owner is. -/
theorem Tied.owner (h : Tied s) {x : TcpSessionCtx} {a : ℕ} {p : CTcpClientSession}
    (hx : s.ctxs.cells c = some x) (hp : s.sessions.cells a = some p)
    (hc : p.clientSessionCtx = c ∨ x.handleData = some a) :
    x.handleData = some a ∧ p.clientSessionCtx = c ∧ c ∉ s.idleTcpClientCtxList := by
  have hpc : p.clientSessionCtx = c := hc.elim id fun hd => h.only c x a p hx hd hp
  obtain ⟨y, hy⟩ := h.paired a p hp
  obtain rfl : y = x := Option.some.inj (hy.ctx.symm.trans (hpc ▸ hx))
  exact ⟨hy.handleData, hpc, hpc ▸ hy.notIdle⟩

/-- What changes only contexts, and those little, keeps the ties. -/
theorem Tied.of_ctxs (h : Tied s) (hidle : s'.idleTcpClientCtxList = s.idleTcpClientCtxList)
    (hsessions : s'.sessions = s.sessions)
    (hpaired : ∀ a p x, Paired s a p x → ∃ x', s'.ctxs.cells p.clientSessionCtx = some x'
      ∧ x'.handleData = x.handleData ∧ x'.parentClientSession = x.parentClientSession)
    (hlive : ∀ c ∈ s.idleTcpClientCtxList, s'.ctxs.Live c)
    (hback : ∀ c x', s'.ctxs.cells c = some x' → ∃ x, s.ctxs.cells c = some x
      ∧ x'.handleData = x.handleData ∧ (x'.sessionTcpHandle.phase = .closing →
        x'.afterClientClose = true → x.sessionTcpHandle.phase = .closing
          ∧ x.afterClientClose = true ∨ ∃ a, x.handleData = some a ∧ s.sessions.Live a)) :
    Tied s' where
  paired a p hp := by
    obtain ⟨x, hx⟩ := h.paired a p (hsessions ▸ hp)
    obtain ⟨x', hx', hd, hparent⟩ := hpaired a p x hx
    exact ⟨x', hp, hx', hd.trans hx.handleData, hparent.trans hx.parentClientSession,
      hidle ▸ hx.notIdle⟩
  only c x' a p hx' hd hp := by
    obtain ⟨x, hx, hdata, -⟩ := hback c x' hx'
    exact h.only c x a p hx (hdata ▸ hd) (hsessions ▸ hp)
  named_lt c x' a hx' hd := by
    obtain ⟨x, hx, hdata, -⟩ := hback c x' hx'
    exact hsessions ▸ h.named_lt c x a hx (hdata ▸ hd)
  idle_live c hc := hlive c (hidle ▸ hc)
  idle_short := hidle ▸ h.idle_short
  closing c x' hx' hphase hcb := by
    obtain ⟨x, hx, hdata, hcl⟩ := hback c x' hx'
    rw [hdata, hsessions]
    rcases hcl hphase hcb with ⟨hp, hb⟩ | hlive
    · exact h.closing c x hx hp hb
    · exact hlive

theorem Tied.of_eq (h : Tied s) (hidle : s'.idleTcpClientCtxList = s.idleTcpClientCtxList)
    (hsessions : s'.sessions = s.sessions) (hctxs : s'.ctxs = s.ctxs) : Tied s' :=
  h.of_ctxs hidle hsessions (fun _ _ x hx => ⟨x, hctxs ▸ hx.ctx, rfl, rfl⟩)
    (fun c hc => hctxs ▸ h.idle_live c hc)
    fun _ x hx => ⟨x, hctxs ▸ hx, rfl, fun hp hb => .inl ⟨hp, hb⟩⟩

theorem Tied.move (h : Tied s) (hm : Move s l s') : Tied s' := by
  have hf := hm.frame
  refine h.of_ctxs hf.idle hf.sessions (fun a p x hx => ?_) (fun c hc => ?_) fun c x' hx' => ?_
  · obtain ⟨x', hx', hk⟩ := hf.ctx_some hx.ctx
    exact ⟨x', hx', hk.handleData, hk.parentClientSession⟩
  · obtain ⟨x, hx⟩ := (h.idle_live c hc).cells
    obtain ⟨x', hx', -⟩ := hf.ctx_some hx
    exact Heap.live_of_cells hx'
  · obtain ⟨x, hx, hphased⟩ := hm.phased hx'
    obtain ⟨x'', hx'', hk⟩ := hf.ctx_some hx
    obtain rfl := Option.some.inj (hx''.symm.trans hx')
    refine ⟨x, hx, hk.handleData, fun hp hb => ?_⟩
    cases hphased with
    | same hphase hcb => exact .inl ⟨hphase ▸ hp, hcb ▸ hb⟩
    | closes hap hc _ _ _ => exact .inr ⟨_, (h.owner hx hap hc).1, Heap.live_of_cells hap⟩
    | ended _ hphase => simp [hphase] at hp

theorem Tied.moves (h : Tied s) (hm : Moves l s s') : Tied s' := by
  induction hm with
  | refl => exact h
  | tail _ hm ih => exact ih.move hm

/-- A context whose names are kept, and whose handle does not come to be closed. -/
theorem Tied.setCtx (h : Tied s) {x x' : TcpSessionCtx} (hx : s.ctxs.cells c = some x)
    (hd : x'.handleData = x.handleData) (hparent : x'.parentClientSession = x.parentClientSession)
    (hcl : x'.sessionTcpHandle.phase = .closing → x'.afterClientClose = true →
      x.sessionTcpHandle.phase = .closing ∧ x.afterClientClose = true) : Tied (s.setCtx c x') := by
  refine h.of_ctxs rfl rfl (fun a p y hy => ?_) (fun d hd => ?_) fun d y' hy' => ?_
  · rw [cells_setCtx hx]
    split_ifs with hpc
    · obtain rfl : y = x := Option.some.inj (hy.ctx.symm.trans (hpc ▸ hx))
      exact ⟨x', rfl, hd, hparent⟩
    · exact ⟨y, hy.ctx, rfl, rfl⟩
  · exact Heap.live_modify.2 (h.idle_live d hd)
  · rw [cells_setCtx hx] at hy'
    split_ifs at hy' with hdc
    · obtain rfl := Option.some.inj hy'
      exact ⟨x, hdc ▸ hx, hd, fun hp hb => .inl (hcl hp hb)⟩
    · exact ⟨y', hy', rfl, fun hp hb => .inl ⟨hp, hb⟩⟩

theorem Tied.alloc (h : Tied s) :
    Tied { s with ctxs := s.ctxs.alloc allocTcpSessionCtx } where
  paired a p hp := by
    obtain ⟨x, hx⟩ := h.paired a p hp
    refine ⟨x, hp, ?_, hx.handleData, hx.parentClientSession, hx.notIdle⟩
    exact (Heap.cells_alloc.trans (if_neg (Heap.lt_next hx.ctx).ne)).trans hx.ctx
  only c x a p hx hd hp := by
    rw [Heap.cells_alloc] at hx
    split_ifs at hx with hc
    · obtain rfl := Option.some.inj hx
      simp [allocTcpSessionCtx] at hd
    · exact h.only c x a p hx hd hp
  named_lt c x a hx hd := by
    rw [Heap.cells_alloc] at hx
    split_ifs at hx with hc
    · obtain rfl := Option.some.inj hx
      simp [allocTcpSessionCtx] at hd
    · exact h.named_lt c x a hx hd
  idle_live c hc := (h.idle_live c hc).alloc
  idle_short := h.idle_short
  closing c x hx hp hcb := by
    rw [Heap.cells_alloc] at hx
    split_ifs at hx with hc
    · obtain rfl := Option.some.inj hx
      simp [allocTcpSessionCtx] at hcb
    · exact h.closing c x hx hp hcb

/-- The context that `AcceptConnection` takes is no session's, and leaves room on the list. -/
theorem Tied.takeCtx (h : Tied s) (ho : Owned s) (ht : s.takeCtx = (c, t)) :
    Tied t ∧ Spare t c ∧ t.idleTcpClientCtxList.length ≤ maxListSize := by
  rcases takeCtx_cases ht with ⟨hi, rfl, rfl⟩ | ⟨rest, hi, rfl⟩
  · refine ⟨h.alloc, ⟨by simp [hi], fun a p hp => ?_⟩, by simp [hi]⟩
    obtain ⟨x, hx⟩ := h.paired a p hp
    exact (Heap.lt_next hx.ctx).ne
  · have hnd := ho.idle_nodup
    have hshort := h.idle_short
    rw [hi, List.nodup_cons] at hnd
    rw [hi, List.length_cons] at hshort
    have hne : ∀ a p, s.sessions.cells a = some p → p.clientSessionCtx ≠ c := by
      rintro a p hp rfl
      obtain ⟨x, hx⟩ := h.paired a p hp
      exact hx.notIdle (by simp [hi])
    have hcell : ∀ {d}, d ≠ c → (s.ctxs.modify c fun x => { x with
        parentClientSession := none }).cells d = s.ctxs.cells d :=
      fun hd => Heap.cells_modify.trans (if_neg hd)
    have hback : ∀ {d x'}, (s.ctxs.modify c fun x => { x with
        parentClientSession := none }).cells d = some x' → ∃ x, s.ctxs.cells d = some x
          ∧ x'.handleData = x.handleData ∧ x'.sessionTcpHandle = x.sessionTcpHandle
          ∧ x'.afterClientClose = x.afterClientClose := by
      intro d x' hx'
      rw [Heap.cells_modify] at hx'
      split_ifs at hx'
      · obtain ⟨x, hx, rfl⟩ := Option.map_eq_some_iff.1 hx'
        exact ⟨x, hx, rfl, rfl, rfl⟩
      · exact ⟨x', hx', rfl, rfl, rfl⟩
    refine ⟨⟨fun a p hp => ?_, fun d x' a p hx' hd hp => ?_, fun d x' a hx' hd => ?_,
      fun d hd => ?_, by simp only; omega, fun d x' hx' hp hcb => ?_⟩, ⟨hnd.1, hne⟩, by
        simp only; omega⟩
    · obtain ⟨x, hx⟩ := h.paired a p hp
      exact ⟨x, hp, (hcell (hne a p hp)).trans hx.ctx, hx.handleData, hx.parentClientSession,
        fun hin => hx.notIdle (by simp [hi, hin])⟩
    · obtain ⟨x, hx, hdata, -⟩ := hback hx'
      exact h.only d x a p hx (hdata ▸ hd) hp
    · obtain ⟨x, hx, hdata, -⟩ := hback hx'
      exact h.named_lt d x a hx (hdata ▸ hd)
    · exact Heap.live_modify.2 (h.idle_live d (by simp [hi, hd]))
    · obtain ⟨x, hx, hdata, hth, hflag⟩ := hback hx'
      rw [hdata]
      exact h.closing d x hx (hth ▸ hp) (hflag ▸ hcb)

/-- A context put on the list that is no session's. -/
theorem Tied.pushIdle (h : Tied s) (hc : Spare s c) (hlive : s.ctxs.Live c)
    (hroom : s.idleTcpClientCtxList.length ≤ maxListSize) (errmsg : ErrMsg)
    (inits : List UvPhase) (conns : ℕ) : Tied { s with
      idleTcpClientCtxList := s.idleTcpClientCtxList ++ [c], errmsg, inits, conns } where
  paired a p hp := by
    obtain ⟨x, hx⟩ := h.paired a p hp
    refine ⟨x, hp, hx.ctx, hx.handleData, hx.parentClientSession, ?_⟩
    simpa [hc.notOwned a p hp] using hx.notIdle
  only := h.only
  named_lt := h.named_lt
  idle_live d hd := by
    rcases List.mem_append.1 hd with hd | hd
    · exact h.idle_live d hd
    · rwa [List.mem_singleton.1 hd]
  idle_short := by
    simp only [List.length_append, List.length_singleton]
    omega
  closing := h.closing

/-- What becomes of a context that is given back keeps its names and is closed without
`AfterClientClose`. -/
theorem GivenBack.names {r : AcceptResults} {x x' : TcpSessionCtx} {n : ℕ} {inits : List UvPhase}
    (h : GivenBack s r x x' n inits) : x'.handleData = x.handleData
      ∧ x'.parentClientSession = x.parentClientSession ∧ (x'.sessionTcpHandle.phase = .closing →
        x'.afterClientClose = true → x.sessionTcpHandle.phase = .closing
          ∧ x.afterClientClose = true) := by
  cases h with
  | noInit _ => exact ⟨rfl, rfl, fun hp hb => ⟨hp, hb⟩⟩
  | noAccept _ _ => exact ⟨rfl, rfl, fun hp _ => by simp [UvTcp.init] at hp⟩
  | noRead _ _ _ => exact ⟨rfl, rfl, fun _ hb => by simp at hb⟩

theorem Tied.newSession (h : Tied s) (hc : Spare s c) (hy : ∃ y, s.ctxs.cells c = some y)
    {x : TcpSessionCtx} (hx : x.sessionTcpHandle.phase ≠ .closing) (conn : ℕ) :
    Tied (s.newSession c x conn) := by
  obtain ⟨y, hy⟩ := hy
  have hcells : ∀ d, (s.newSession c x conn).ctxs.cells d = if d = c then some { x with
      clientid := s.createSessionId
      handleData := some s.sessions.next
      parentClientSession := some s.sessions.next } else s.ctxs.cells d := cells_setCtx hy _
  have hsessions : ∀ a, (s.newSession c x conn).sessions.cells a
      = if a = s.sessions.next then some ⟨c, false⟩ else s.sessions.cells a :=
    fun _ => Heap.cells_alloc
  refine ⟨fun a p hp => ?_, fun d x' a p hx' hd hp => ?_, fun d x' a hx' hd => ?_, fun d hd => ?_,
    h.idle_short, fun d x' hx' hphase hcb => ?_⟩
  · have hold := hp
    rw [hsessions] at hold
    split_ifs at hold with ha
    · obtain rfl := Option.some.inj hold
      exact ⟨_, hp, (hcells c).trans (if_pos rfl), congrArg some ha.symm, congrArg some ha.symm,
        hc.notIdle⟩
    · obtain ⟨z, hz⟩ := h.paired a p hold
      exact ⟨z, hp, (hcells _).trans ((if_neg (hc.notOwned a p hold)).trans hz.ctx),
        hz.handleData, hz.parentClientSession, hz.notIdle⟩
  · rw [hcells] at hx'
    rw [hsessions] at hp
    split_ifs at hx' with hdc
    · obtain rfl := Option.some.inj hx'
      obtain rfl := Option.some.inj hd
      rw [if_pos rfl, Option.some.injEq] at hp
      rw [← hp, hdc]
    · rw [if_neg (h.named_lt d x' a hx' hd).ne] at hp
      exact h.only d x' a p hx' hd hp
  · rw [hcells] at hx'
    split_ifs at hx' with hdc
    · obtain rfl := Option.some.inj hx'
      obtain rfl := Option.some.inj hd
      exact Nat.lt_succ_self _
    · exact Nat.lt_succ_of_lt (h.named_lt d x' a hx' hd)
  · exact Heap.live_modify.2 (h.idle_live d hd)
  · rw [hcells] at hx'
    split_ifs at hx' with hdc
    · obtain rfl := Option.some.inj hx'
      exact absurd hphase hx
    · obtain ⟨a, ha, hlive⟩ := h.closing d x' hx' hphase hcb
      exact ⟨a, ha, hlive.alloc⟩

theorem Tied.markClosed (h : Tied s) (a : ℕ) : Tied { s with
    sessions := s.sessions.modify a fun p => { p with isclosed := true } } := by
  refine ⟨fun b p' hp' => ?_, fun d x b p' hx hd hp' => ?_, h.named_lt, h.idle_live, h.idle_short,
    fun d x hx hphase hcb => ?_⟩
  · obtain ⟨p, hp, hpc⟩ := modify_isclosed hp'
    obtain ⟨x, hx⟩ := h.paired b p hp
    exact ⟨x, hp', hpc ▸ hx.ctx, hx.handleData, hx.parentClientSession, hpc ▸ hx.notIdle⟩
  · obtain ⟨p, hp, hpc⟩ := modify_isclosed hp'
    exact hpc.trans (h.only d x b p hx hd hp)
  · obtain ⟨b, hb, hlive⟩ := h.closing d x hx hphase hcb
    exact ⟨b, hb, Heap.live_modify.2 hlive⟩

/-- The session whose handle was closed is deleted, and its context is on the list or freed. -/
theorem Tied.deleteSession (h : Tied s) {v : CTcpServer} {a : ℕ} {p : CTcpClientSession}
    {x : TcpSessionCtx} (hp : s.sessions.cells a = some p) (hpc : p.clientSessionCtx = c)
    (hx : s.ctxs.cells c = some x) (hphase : x.sessionTcpHandle.phase = .closed)
    (hv : s.recycle c = .ok v) (map : Std.TreeMap ℤ ℕ) :
    Tied { v with sessions := v.sessions.free a, clientSessionMap := map } := by
  have hrest : ∀ {b q}, (s.sessions.free a).cells b = some q → s.sessions.cells b = some q
      ∧ b ≠ a ∧ q.clientSessionCtx ≠ c := by
    intro b q hq
    rw [Heap.cells_free] at hq
    split_ifs at hq with hba
    refine ⟨hq, hba, fun hqc => hba ?_⟩
    have hb := (h.owner hx hq (.inl hqc)).1
    exact Option.some.inj (hb.symm.trans (h.owner hx hp (.inl hpc)).1)
  have hclosing : ∀ d y, s.ctxs.cells d = some y → y.sessionTcpHandle.phase = .closing →
      y.afterClientClose = true → ∃ b, y.handleData = some b ∧ (s.sessions.free a).Live b := by
    intro d y hy hcl hcb
    obtain ⟨b, hb, hlive⟩ := h.closing d y hy hcl hcb
    refine ⟨b, hb, Heap.live_free.2 ⟨?_, hlive⟩⟩
    rintro rfl
    obtain rfl : p.clientSessionCtx = d := h.only d y b p hy hb hp
    obtain rfl := Option.some.inj (hy.symm.trans (hpc ▸ hx))
    simp [hphase] at hcl
  rcases recycle_cases hv with ⟨hroom, rfl⟩ | ⟨rfl, -⟩
  · refine ⟨fun b q hq => ?_, fun d y b q hy hd hq => ?_, h.named_lt, fun d hd => ?_, ?_, hclosing⟩
    · obtain ⟨hq', -, hqc⟩ := hrest hq
      obtain ⟨y, hy⟩ := h.paired b q hq'
      refine ⟨y, hq, hy.ctx, hy.handleData, hy.parentClientSession, ?_⟩
      simpa [hqc] using hy.notIdle
    · exact h.only d y b q hy hd (hrest hq).1
    · rcases List.mem_append.1 hd with hd | hd
      · exact h.idle_live d hd
      · rw [List.mem_singleton.1 hd]
        exact Heap.live_of_cells hx
    · simp only [List.length_append, List.length_singleton]
      omega
  · have hback : ∀ {d y}, (s.ctxs.free c).cells d = some y → s.ctxs.cells d = some y := by
      intro d y hy
      rw [Heap.cells_free] at hy
      split_ifs at hy
      exact hy
    refine ⟨fun b q hq => ?_, fun d y b q hy hd hq => ?_, fun d y b hy hd => ?_, fun d hd => ?_,
      h.idle_short, fun d y hy hcl hcb => hclosing d y (hback hy) hcl hcb⟩
    · obtain ⟨hq', -, hqc⟩ := hrest hq
      obtain ⟨y, hy⟩ := h.paired b q hq'
      exact ⟨y, hq, (Heap.cells_free.trans (if_neg hqc)).trans hy.ctx, hy.handleData,
        hy.parentClientSession, hy.notIdle⟩
    · exact h.only d y b q (hback hy) hd (hrest hq).1
    · exact h.named_lt d y b (hback hy) hd
    · refine Heap.live_free.2 ⟨?_, h.idle_live d hd⟩
      rintro rfl
      exact (h.owner hx hp (.inl hpc)).2.2 hd

theorem tied_started (packhead : UInt32) : Tied (started packhead) where
  paired a p hp := by simp [started, Heap.empty] at hp
  only c x a p hx := by simp [started, Heap.empty] at hx
  named_lt c x a hx := by simp [started, Heap.empty] at hx
  idle_live := by simp [started]
  idle_short := by simp [started]
  closing c x hx := by simp [started, Heap.empty] at hx

theorem tied_step (ho : Owned s) (h : Tied s) (hs : step s l = some s') : Tied s' := by
  obtain ⟨-, ht⟩ := step_trans hs
  cases ht with
  | deadTarget _ _ _ | inCall => exact h.of_eq rfl rfl rfl
  | moves hm => exact h.moves hm
  | push hm _ | pop hm => exact (h.moves hm).of_eq rfl rfl rfl
  | giveBack errmsg htake hx hback =>
    obtain ⟨ht, hc, hroom⟩ := h.takeCtx ho htake
    obtain ⟨hd, hparent, hcl⟩ := hback.names
    exact (ht.setCtx hx hd hparent hcl).pushIdle ⟨hc.notIdle, hc.notOwned⟩
      (Heap.live_modify.2 (Heap.live_of_cells hx)) hroom errmsg _ _
  | @accept c r t x htake hx _ _ =>
    obtain ⟨ht, hc, -⟩ := h.takeCtx ho htake
    exact Tied.newSession (s := { t with
      inits := s.inits ++ [x.sessionTcpHandle.phase], conns := s.conns + 1 })
      (ht.of_eq rfl rfl rfl) ⟨hc.notIdle, hc.notOwned⟩ ⟨x, hx⟩ (by simp [opened, UvTcp.init,
        UvTcp.accept]) _
  | @recv c data x y a p packet log _ _ _ _ hy _ =>
    have hset : Tied (s.setCtx p.clientSessionCtx { y with packet }) :=
      h.setCtx hy rfl rfl fun hp hb => ⟨hp, hb⟩
    exact hset.of_eq rfl rfl rfl
  | closedAlone hm _ _ _ _ _ => exact (h.moves hm).markClosed _
  | @sessionEnds c v x a b p q hx he _ _ hp hpc hmap hq hcl hv =>
    obtain ⟨rfl, hqc, hv⟩ := ho.ended_self hp hpc hmap hq hcl hv
    have hmove : Move s (.handleClosed c) _ := .finish hx he
    have hend : Tied (s.ended c x b b) := ((h.move hmove).markClosed b).of_eq rfl rfl rfl
    exact hend.deleteSession hq hqc (cells_ended hx) rfl hv _

/-! ## While ids are not given out twice -/

/-- Every session is in the map, under an id given out before, and every context on the list or a
session's. -/
structure Full (s : CTcpServer) : Prop where
  ids : ∀ id a, s.clientSessionMap[id]? = some a → id ≤ s.sId
  mapped : ∀ a p x, s.sessions.cells a = some p → s.ctxs.cells p.clientSessionCtx = some x →
    s.clientSessionMap[x.clientid]? = some a
  placed : ∀ c, s.ctxs.Live c →
    c ∈ s.idleTcpClientCtxList ∨ ∃ a p, s.sessions.cells a = some p ∧ p.clientSessionCtx = c

theorem Full.of_eq (h : Full s) (hidle : s'.idleTcpClientCtxList = s.idleTcpClientCtxList)
    (hsessions : s'.sessions = s.sessions) (hctxs : s'.ctxs = s.ctxs)
    (hmap : s'.clientSessionMap = s.clientSessionMap) (hid : s.sId ≤ s'.sId) : Full s' where
  ids id a ha := (h.ids id a (hmap ▸ ha)).trans hid
  mapped a p x hp hx := hmap ▸ h.mapped a p x (hsessions ▸ hp) (hctxs ▸ hx)
  placed c hc := by
    rw [hidle, hsessions]
    exact h.placed c (hctxs ▸ hc)

/-- Every session is in the map under the id of its context. -/
def Enrolled (s : CTcpServer) : Prop := ∀ a p x, s.sessions.cells a = some p →
  s.ctxs.cells p.clientSessionCtx = some x → s.clientSessionMap[x.clientid]? = some a

/-- Every context is on the list or a session's. -/
def Placed (s : CTcpServer) : Prop := ∀ c, s.ctxs.Live c →
  c ∈ s.idleTcpClientCtxList ∨ ∃ a p, s.sessions.cells a = some p ∧ p.clientSessionCtx = c

/-- What the taking of a context leaves. -/
structure Taken (s : CTcpServer) (c : ℕ) (t : CTcpServer) : Prop where
  sessions : t.sessions = s.sessions
  map : t.clientSessionMap = s.clientSessionMap
  sId : t.sId = s.sId
  accepted : t.accepted = s.accepted
  callbacks : t.callbacks = s.callbacks
  maps : t.maps = s.maps
  cells : ∀ d, d ≠ c → t.ctxs.cells d = s.ctxs.cells d
  idle : ∀ d ∈ s.idleTcpClientCtxList, d = c ∨ d ∈ t.idleTcpClientCtxList

theorem taken_takeCtx (ht : s.takeCtx = (c, t)) : Taken s c t := by
  rcases takeCtx_cases ht with ⟨hi, rfl, rfl⟩ | ⟨rest, hi, rfl⟩
  · exact ⟨rfl, rfl, rfl, rfl, rfl, rfl, fun d hd => Heap.cells_alloc.trans (if_neg hd),
      by simp [hi]⟩
  · refine ⟨rfl, rfl, rfl, rfl, rfl, rfl, fun d hd => Heap.cells_modify.trans (if_neg hd), ?_⟩
    simp [hi]

theorem recycle_ids (h : s.recycle c = .ok s') :
    s'.sId = s.sId ∧ s'.accepted = s.accepted := by
  rcases recycle_cases h with ⟨-, rfl⟩ | ⟨rfl, -⟩ <;> exact ⟨rfl, rfl⟩

/-- The session of a connection that is accepted takes the next id. -/
theorem ids_step (hs : step s l = some s') : s'.sId = s.sId ∧ s'.accepted = s.accepted
    ∨ s'.sId = s.createSessionId ∧ s'.accepted.length = s.accepted.length + 1 := by
  obtain ⟨-, ht⟩ := step_trans hs
  cases ht with
  | deadTarget _ _ _ | inCall | recv _ _ _ _ _ _ => exact .inl ⟨rfl, rfl⟩
  | moves hm | push hm _ | pop hm | closedAlone hm _ _ _ _ _ =>
    exact .inl ⟨hm.frame.sId, hm.frame.accepted⟩
  | giveBack _ htake _ _ =>
    exact .inl ⟨(taken_takeCtx htake).sId, (taken_takeCtx htake).accepted⟩
  | @accept c r t x htake _ _ _ =>
    refine .inr ⟨?_, ?_⟩
    · show ofU32 (toU32 t.sId + 1) = _
      rw [(taken_takeCtx htake).sId]
      rfl
    · rw [← (taken_takeCtx htake).accepted]
      simp [newSession, report]
  | sessionEnds _ _ _ _ _ _ _ _ _ hv =>
    obtain ⟨hid, hacc⟩ := recycle_ids hv
    exact .inl ⟨hid, hacc⟩

/-- Accepted connections are not forgotten. -/
theorem accepted_step (hs : step s l = some s') : s.accepted.length ≤ s'.accepted.length := by
  rcases ids_step hs with ⟨-, h⟩ | ⟨-, h⟩
  · exact (congrArg List.length h).ge
  · omega

/-- The map loses sessions, and gets the one of a connection that is accepted, under the next id. -/
theorem map_step (hs : step s l = some s') {id : ℤ} {a : ℕ}
    (ha : s'.clientSessionMap[id]? = some a) : s.clientSessionMap[id]? = some a
      ∨ s.accepted.length < s'.accepted.length ∧ id = s'.sId ∧ a = s.sessions.next := by
  obtain ⟨-, ht⟩ := step_trans hs
  cases ht with
  | deadTarget _ _ _ | inCall | recv _ _ _ _ _ _ => exact .inl ha
  | moves hm | push hm _ | pop hm | closedAlone hm _ _ _ _ _ => exact .inl (hm.frame.map ▸ ha)
  | giveBack _ htake _ _ => exact .inl ((taken_takeCtx htake).map ▸ ha)
  | @accept c r t x htake _ _ _ =>
    have ht := taken_takeCtx htake
    have ha : (t.clientSessionMap.insertIfNew (createSessionId { t with
        inits := s.inits ++ [x.sessionTcpHandle.phase], conns := s.conns + 1 })
        t.sessions.next)[id]? = some a := ha
    rw [ht.map, getElem?_insertSession] at ha
    split_ifs at ha with hk
    · refine .inr ⟨?_, hk.1, ?_⟩
      · rw [← ht.accepted]
        simp [newSession, report]
      · rw [← ht.sessions]
        exact (Option.some.inj ha).symm
    · exact .inl ha
  | @sessionEnds c v x a' b p q hx _ _ _ _ _ _ _ _ hv =>
    have ha : (v.clientSessionMap.erase x.clientid)[id]? = some a := ha
    have hmap : v.clientSessionMap = s.clientSessionMap := by
      rcases recycle_cases hv with ⟨-, rfl⟩ | ⟨rfl, -⟩ <;> rfl
    rw [hmap, getElem?_eraseSession] at ha
    split_ifs at ha
    exact .inl ha

/-! ### The sessions in the map -/

theorem Enrolled.of_eq (h : Enrolled s) (hsessions : s'.sessions = s.sessions)
    (hctxs : s'.ctxs = s.ctxs) (hmap : s'.clientSessionMap = s.clientSessionMap) :
    Enrolled s' := fun a p x hp hx => hmap ▸ h a p x (hsessions ▸ hp) (hctxs ▸ hx)

theorem Enrolled.frame (h : Enrolled s) (hf : Frame s s') : Enrolled s' := by
  intro a p x' hp hx'
  obtain ⟨x, hx, hk⟩ := hf.ctx_of_some hx'
  rw [hf.map, hk.clientid]
  exact h a p x (hf.sessions ▸ hp) hx

theorem Enrolled.giveBack (h : Enrolled s) (ht : Taken s c t) (hc : Spare t c)
    {x x' : TcpSessionCtx} (hx : t.ctxs.cells c = some x) : Enrolled (t.setCtx c x') := by
  intro a p y hp hy
  have hpc := hc.notOwned a p hp
  rw [cells_setCtx hx, if_neg hpc, ht.cells _ hpc] at hy
  show t.clientSessionMap[y.clientid]? = some a
  rw [ht.map]
  exact h a p y (ht.sessions ▸ hp) hy

theorem Enrolled.newSession (h : Enrolled s) (ht : Taken s c t) (hc : Spare t c)
    (hx : ∃ y, t.ctxs.cells c = some y) (hid : s.clientSessionMap[t.createSessionId]? = none)
    (x : TcpSessionCtx) (conn : ℕ) : Enrolled (t.newSession c x conn) := by
  obtain ⟨y, hx⟩ := hx
  have hmap : ∀ id, (t.newSession c x conn).clientSessionMap[id]?
      = if id = t.createSessionId then some t.sessions.next else s.clientSessionMap[id]? := by
    intro id
    show (t.clientSessionMap.insertIfNew t.createSessionId t.sessions.next)[id]? = _
    rw [ht.map, getElem?_insertSession]
    exact if_congr (and_iff_left hid) rfl rfl
  intro a p z hp hz
  have hp' : (t.sessions.alloc ⟨c, false⟩).cells a = some p := hp
  have hz' := (cells_setCtx (s := t) hx _ p.clientSessionCtx).symm.trans hz
  rw [Heap.cells_alloc] at hp'
  split_ifs at hp' with ha
  · obtain rfl := Option.some.inj hp'
    rw [if_pos rfl, Option.some.injEq] at hz'
    rw [hmap, ← hz', if_pos rfl, ha]
  · have hpc := hc.notOwned a p hp'
    rw [if_neg hpc, ht.cells _ hpc] at hz'
    have hin := h a p z (ht.sessions ▸ hp') hz'
    have hne : z.clientid ≠ t.createSessionId := by
      intro heq
      simp [heq, hid] at hin
    rw [hmap, if_neg hne, hin]

theorem Enrolled.setPacket (h : Enrolled s) {y : TcpSessionCtx} (hy : s.ctxs.cells c = some y)
    (packet : PacketSync) : Enrolled (s.setCtx c { y with packet }) := by
  intro a p x hp hx
  rw [cells_setCtx hy] at hx
  split_ifs at hx with hpc
  · obtain rfl := Option.some.inj hx
    exact h a p y hp (hpc ▸ hy)
  · exact h a p x hp hx

theorem Enrolled.markClosed (h : Enrolled s) (a : ℕ) : Enrolled { s with
    sessions := s.sessions.modify a fun p => { p with isclosed := true } } := by
  intro b q y hq hy
  obtain ⟨p, hp, hpc⟩ := modify_isclosed hq
  exact h b p y hp (hpc ▸ hy)

theorem Enrolled.deleteSession (h : Enrolled s) {v : CTcpServer} {a : ℕ}
    {p : CTcpClientSession} {x : TcpSessionCtx} (hp : s.sessions.cells a = some p)
    (hpc : p.clientSessionCtx = c) (hx : s.ctxs.cells c = some x) (hv : s.recycle c = .ok v) :
    Enrolled { v with
      sessions := v.sessions.free a
      clientSessionMap := v.clientSessionMap.erase x.clientid } := by
  have hmapped : ∀ b q y, (s.sessions.free a).cells b = some q →
      s.ctxs.cells q.clientSessionCtx = some y →
      (s.clientSessionMap.erase x.clientid)[y.clientid]? = some b := by
    intro b q y hq hy
    rw [Heap.cells_free] at hq
    split_ifs at hq with hba
    have hin := h b q y hq hy
    rw [getElem?_eraseSession, if_neg, hin]
    intro heq
    rw [heq, h a p x hp (hpc ▸ hx)] at hin
    exact hba (Option.some.inj hin).symm
  rcases recycle_cases hv with ⟨-, rfl⟩ | ⟨rfl, -⟩
  · exact hmapped
  · intro b q y hq hy
    rw [Heap.cells_free] at hy
    split_ifs at hy
    exact hmapped b q y hq hy

/-- A step keeps every session in the map if the id it gives out, if any, is not in there. -/
theorem enrolled_step (ho : Owned s) (h : Tied s) (hin : Enrolled s) (hs : step s l = some s')
    (hid : s.accepted.length < s'.accepted.length →
      s.clientSessionMap[s.createSessionId]? = none) : Enrolled s' := by
  obtain ⟨-, ht⟩ := step_trans hs
  cases ht with
  | deadTarget _ _ _ | inCall => exact hin.of_eq rfl rfl rfl
  | moves hm => exact hin.frame hm.frame
  | push hm _ | pop hm => exact (hin.frame hm.frame).of_eq rfl rfl rfl
  | @giveBack c r t x x' n inits errmsg htake hx _ =>
    have hback : Enrolled (t.setCtx c x') :=
      hin.giveBack (taken_takeCtx htake) (h.takeCtx ho htake).2.1 hx
    exact hback.of_eq rfl rfl rfl
  | @accept c r t x htake hx _ _ =>
    have htaken := taken_takeCtx htake
    obtain ⟨-, hc, -⟩ := h.takeCtx ho htake
    have hlt : s.accepted.length < (t.newSession c (opened s x) s.conns).accepted.length := by
      rw [← htaken.accepted]
      simp [newSession, report]
    have hnew : t.createSessionId = s.createSessionId := by
      unfold createSessionId
      rw [htaken.sId]
    refine hin.newSession (t := { t with
      inits := s.inits ++ [x.sessionTcpHandle.phase], conns := s.conns + 1 })
      ⟨htaken.sessions, htaken.map, htaken.sId, htaken.accepted, htaken.callbacks, htaken.maps,
        htaken.cells, htaken.idle⟩
      ⟨hc.notIdle, hc.notOwned⟩ ⟨x, hx⟩ ?_ _ _
    exact (congrArg (s.clientSessionMap[·]?) hnew).trans (hid hlt)
  | recv _ _ _ _ hy _ => exact (hin.setPacket hy _).of_eq rfl rfl rfl
  | closedAlone _ hx ha hp hpc hmap =>
    rw [hin _ _ _ hp (hpc ▸ hx)] at hmap
    simp at hmap
  | @sessionEnds c v x a b p q hx he _ _ hp hpc hmap hq hcl hv =>
    obtain ⟨rfl, hqc, hv⟩ := ho.ended_self hp hpc hmap hq hcl hv
    have hmove : Move s (.handleClosed c) _ := .finish hx he
    have hend : Enrolled (s.ended c x b b) :=
      ((hin.frame hmove.frame).markClosed b).of_eq rfl rfl rfl
    exact hend.deleteSession (x := { x with sessionTcpHandle := x.sessionTcpHandle.finish }) hq hqc
      (cells_ended hx) hv

/-! ### The places of the contexts -/

theorem Placed.of_eq (h : Placed s) (hidle : s'.idleTcpClientCtxList = s.idleTcpClientCtxList)
    (hsessions : s'.sessions = s.sessions) (hctxs : s'.ctxs = s.ctxs) : Placed s' := by
  intro c hc
  rw [hidle, hsessions]
  exact h c (hctxs ▸ hc)

theorem Placed.frame (h : Placed s) (hf : Frame s s') : Placed s' := by
  intro c hc
  obtain ⟨x', hx'⟩ := hc.cells
  obtain ⟨x, hx, -⟩ := hf.ctx_of_some hx'
  rw [hf.idle, hf.sessions]
  exact h c (Heap.live_of_cells hx)

/-- Where every context but the one taken was before. -/
theorem Placed.of_taken (h : Placed s) (ht : Taken s c t) {d : ℕ} (hd : d ≠ c)
    (hlive : t.ctxs.Live d) : d ∈ t.idleTcpClientCtxList
      ∨ ∃ a p, s.sessions.cells a = some p ∧ p.clientSessionCtx = d := by
  have hlive' : s.ctxs.Live d := by
    unfold Heap.Live at hlive ⊢
    rwa [ht.cells d hd] at hlive
  exact (h d hlive').imp (fun hin => (ht.idle d hin).resolve_left hd) id

theorem Placed.giveBack (h : Placed s) (ht : Taken s c t) {x' : TcpSessionCtx} (errmsg : ErrMsg)
    (inits : List UvPhase) (conns : ℕ) : Placed { t.setCtx c x' with
      idleTcpClientCtxList := t.idleTcpClientCtxList ++ [c], errmsg, inits, conns } := by
  intro d hd
  by_cases hdc : d = c
  · exact .inl (by simp [hdc])
  · have hlive : t.ctxs.Live d := Heap.live_modify.1 hd
    rcases h.of_taken ht hdc hlive with hin | hown
    · exact .inl (by simp [hin])
    · exact .inr (ht.sessions ▸ hown)

theorem Placed.newSession (h : Placed s) (ht : Taken s c t) (x : TcpSessionCtx) (conn : ℕ) :
    Placed (t.newSession c x conn) := by
  have hsessions : ∀ a, (t.newSession c x conn).sessions.cells a
      = if a = t.sessions.next then some ⟨c, false⟩ else t.sessions.cells a :=
    fun _ => Heap.cells_alloc
  intro d hd
  by_cases hdc : d = c
  · exact .inr ⟨t.sessions.next, ⟨c, false⟩, (hsessions _).trans (if_pos rfl), hdc.symm⟩
  · have hlive : t.ctxs.Live d := Heap.live_modify.1 hd
    refine (h.of_taken ht hdc hlive).imp id ?_
    rintro ⟨a, p, hp, hpd⟩
    rw [← ht.sessions] at hp
    exact ⟨a, p, (hsessions a).trans ((if_neg (Heap.lt_next hp).ne).trans hp), hpd⟩

theorem Placed.markClosed (h : Placed s) (a : ℕ) : Placed { s with
    sessions := s.sessions.modify a fun p => { p with isclosed := true } } := by
  intro d hd
  refine (h d hd).imp id ?_
  rintro ⟨b, p, hp, hpd⟩
  obtain ⟨q, hq, hqc⟩ := cells_markClosed a hp
  exact ⟨b, q, hq, hqc.trans hpd⟩

theorem Placed.deleteSession (h : Placed s) {v : CTcpServer} {a : ℕ} {p : CTcpClientSession}
    (hp : s.sessions.cells a = some p) (hpc : p.clientSessionCtx = c) (hv : s.recycle c = .ok v)
    (map : Std.TreeMap ℤ ℕ) :
    Placed { v with sessions := v.sessions.free a, clientSessionMap := map } := by
  -- the session of another context than `c` is not the deleted one
  have hplaced : ∀ d, d ≠ c → s.ctxs.Live d → d ∈ s.idleTcpClientCtxList
      ∨ ∃ b q, (s.sessions.free a).cells b = some q ∧ q.clientSessionCtx = d := by
    intro d hdc hd
    refine (h d hd).imp id ?_
    rintro ⟨b, q, hq, hqd⟩
    refine ⟨b, q, (Heap.cells_free.trans (if_neg ?_)).trans hq, hqd⟩
    rintro rfl
    obtain rfl := Option.some.inj (hq.symm.trans hp)
    exact hdc (hqd.symm.trans hpc)
  rcases recycle_cases hv with ⟨-, rfl⟩ | ⟨rfl, -⟩
  · intro d hd
    by_cases hdc : d = c
    · exact .inl (by simp [hdc])
    · exact (hplaced d hdc hd).imp (fun hin => List.mem_append_left _ hin) id
  · intro d hd
    obtain ⟨hdc, hd⟩ := Heap.live_free.1 hd
    exact hplaced d hdc hd

theorem placed_step (ho : Owned s) (h : Placed s) (hs : step s l = some s') : Placed s' := by
  obtain ⟨-, ht⟩ := step_trans hs
  cases ht with
  | deadTarget _ _ _ | inCall => exact h.of_eq rfl rfl rfl
  | moves hm => exact h.frame hm.frame
  | push hm _ | pop hm => exact (h.frame hm.frame).of_eq rfl rfl rfl
  | giveBack errmsg htake _ _ => exact h.giveBack (taken_takeCtx htake) errmsg _ _
  | @accept c r t x htake _ _ _ =>
    have ht := taken_takeCtx htake
    exact h.newSession (t := { t with
      inits := s.inits ++ [x.sessionTcpHandle.phase], conns := s.conns + 1 })
      ⟨ht.sessions, ht.map, ht.sId, ht.accepted, ht.callbacks, ht.maps, ht.cells, ht.idle⟩ _ _
  | @recv c data x y a p packet log _ _ _ _ _ _ =>
    have hset : Placed (s.setCtx p.clientSessionCtx { y with packet }) :=
      fun d hd => h d (Heap.live_modify.1 hd)
    exact hset.of_eq rfl rfl rfl
  | closedAlone hm _ _ _ _ _ => exact (h.frame hm.frame).markClosed _
  | @sessionEnds c v x a b p q hx he _ _ hp hpc hmap hq hcl hv =>
    obtain ⟨rfl, hqc, hv⟩ := ho.ended_self hp hpc hmap hq hcl hv
    have hmove : Move s (.handleClosed c) _ := .finish hx he
    have hend : Placed (s.ended c x b b) :=
      ((h.frame hmove.frame).markClosed b).of_eq rfl rfl rfl
    exact hend.deleteSession hq hqc hv _

/-! ### Both, under ids that go up -/

theorem Full.frame (h : Full s) (hf : Frame s s') : Full s' where
  ids id a ha := hf.sId ▸ h.ids id a (hf.map ▸ ha)
  mapped := Enrolled.frame h.mapped hf
  placed := Placed.frame h.placed hf

theorem createSessionId_eq {n : ℕ} (h : s.sId = n) (hlt : n + 1 < 2 ^ 31) :
    s.createSessionId = n + 1 := by
  unfold createSessionId
  rw [h]
  have hu : (toU32 (n : ℤ)).toNat = n := by
    rw [toNat_toU32 (by omega) (by omega)]
    rfl
  have hsum : (toU32 (n : ℤ) + 1).toNat = n + 1 := by
    rw [UInt32.toNat_add, hu]
    simp only [UInt32.toNat_one]
    omega
  rw [ofU32_of_lt (by omega), hsum]
  push_cast
  rfl

theorem full_started (packhead : UInt32) : Full (started packhead) where
  ids id a ha := by simp [started] at ha
  mapped a p x hp := by simp [started, Heap.empty] at hp
  placed c hc := by simp [started, Heap.empty, Heap.Live] at hc

/-- A step keeps the map full if the id it gives out, if any, is above those before. -/
theorem full_step (ho : Owned s) (h : Tied s) (hfull : Full s) (hs : step s l = some s')
    (hid : s.accepted.length < s'.accepted.length → s.sId < s'.sId) : Full s' where
  ids id a ha := by
    rcases map_step hs ha with ha | ⟨-, rfl, -⟩
    · refine (hfull.ids id a ha).trans ?_
      rcases ids_step hs with ⟨hsame, -⟩ | ⟨-, hmore⟩
      · exact hsame.ge
      · exact (hid (by omega)).le
    · exact le_rfl
  mapped := by
    refine enrolled_step ho h hfull.mapped hs fun hmore => ?_
    rcases ids_step hs with ⟨-, hsame⟩ | ⟨hnext, -⟩
    · rw [hsame] at hmore
      exact absurd hmore (lt_irrefl _)
    · rcases hmap : s.clientSessionMap[s.createSessionId]? with _ | a
      · rfl
      · have hle := hfull.ids _ _ hmap
        have hlt := hid hmore
        omega
  placed := placed_step ho hfull.placed hs

/-- What every run keeps of contexts, sessions and the map. -/
structure Owners (s : CTcpServer) : Prop where
  owned : Owned s
  tied : Tied s
  count : s.accepted.length < 2 ^ 31 → s.sId = s.accepted.length
  full : s.accepted.length < 2 ^ 31 → Full s

theorem owners_started (packhead : UInt32) : Owners (started packhead) :=
  ⟨owned_started packhead, tied_started packhead, fun _ => rfl, fun _ => full_started packhead⟩

theorem owners_step (h : Owners s) (hs : step s l = some s') : Owners s' := by
  have hcount : s'.accepted.length < 2 ^ 31 → s'.sId = s'.accepted.length := by
    intro hlt
    rcases ids_step hs with ⟨hid, hacc⟩ | ⟨hid, hacc⟩
    · rw [hid, hacc]
      exact h.count (hacc ▸ hlt)
    · rw [hid, createSessionId_eq (h.count (by omega)) (by omega), hacc]
      push_cast
      rfl
  refine ⟨owned_step h.owned hs, tied_step h.owned h.tied hs, hcount, fun hlt => ?_⟩
  have hlt' := (accepted_step hs).trans_lt hlt
  refine full_step h.owned h.tied (h.full hlt') hs fun hmore => ?_
  rw [hcount hlt, h.count hlt']
  exact_mod_cast hmore

theorem owners_run {as : List Label} {packhead : UInt32}
    (hr : run step (started packhead) as = some s) : Owners s :=
  invariant (fun _ _ _ => owners_step) (owners_started packhead) hr

/-! ## What is freed -/

theorem Tied.takeCtx_live (h : Tied s) (ht : s.takeCtx = (c, t)) :
    ∃ x, t.ctxs.cells c = some x := by
  rcases takeCtx_cases ht with ⟨hi, rfl, rfl⟩ | ⟨rest, hi, rfl⟩
  · exact ⟨_, Heap.cells_alloc.trans (if_pos rfl)⟩
  · exact (Heap.live_modify.2 (h.idle_live c (by simp [hi]))).cells

theorem startSession_ok {x : TcpSessionCtx} (hroom : s.idleTcpClientCtxList.length ≤ maxListSize)
    (res : ℤ) : ∃ s', s.startSession c x res = .ok s' := by
  unfold startSession
  dsimp only
  split_ifs
  · have hrecycle : ∀ y n, ({ s with conns := n }.setCtx c y).recycle c = .ok { s.setCtx c y with
        conns := n, idleTcpClientCtxList := s.idleTcpClientCtxList ++ [c] } :=
      fun _ _ => if_neg (not_lt.2 hroom)
    rw [hrecycle]
    exact ⟨_, rfl⟩
  · exact ⟨_, rfl⟩

/-- `AcceptConnection` follows no freed pointer, and frees no context. -/
theorem Owners.acceptConnection_ok (h : Owners s) (status : ℤ) (r : AcceptResults) :
    ∃ s', s.acceptConnection status r = .ok s' := by
  unfold acceptConnection
  by_cases hst : status ≠ 0
  · exact ⟨_, if_pos hst⟩
  rw [if_neg hst]
  rcases ht : s.takeCtx with ⟨c, t⟩
  obtain ⟨x, hx⟩ := h.tied.takeCtx_live ht
  simp only [ctx_of_cells hx, bind, Except.bind]
  split_ifs
  · exact ⟨_, rfl⟩
  · exact ⟨_, rfl⟩
  · exact startSession_ok (s := { t with inits := t.inits ++ [x.sessionTcpHandle.phase] })
      (h.tied.takeCtx h.owned ht).2.2 r.readStart

/-- A close callback finds its session. -/
theorem Tied.act_handleClosed (h : Tied s) {x : TcpSessionCtx} {r : Except CallFault CTcpServer}
    (hx : s.ctxs.cells c = some x) (hcb : x.afterClientClose = true)
    (hr : s.act (.handleClosed c) = some r) :
    ∃ a p, x.handleData = some a ∧ s.sessions.cells a = some p ∧ p.clientSessionCtx = c
      ∧ r = cTcpClientSessionHandleClose
        { s.setCtx c { x with sessionTcpHandle := x.sessionTcpHandle.finish } with
          sessions := s.sessions.modify a fun p => { p with isclosed := true } } x.clientid := by
  simp only [act, hx, Option.bind_some, Option.ite_none_right_eq_some, Option.some.injEq] at hr
  obtain ⟨he, rfl⟩ := hr
  obtain ⟨a, ha, hlive⟩ := h.closing c x hx (x.sessionTcpHandle.closing_of_ends he) hcb
  obtain ⟨p, hp⟩ := hlive.cells
  have hpc := h.only c x a p hx ha hp
  refine ⟨a, p, ha, hp, hpc, ?_⟩
  rw [if_pos hcb]
  exact afterClientClose_own (s := s.setCtx c { x with
    sessionTcpHandle := x.sessionTcpHandle.finish }) ha hp hpc

/-- A close callback fails only where the map has another session under its own session's id. -/
theorem Tied.handleClosed_ok (h : Tied s) {r : Except CallFault CTcpServer}
    (hself : ∀ x a p b, s.ctxs.cells c = some x → x.afterClientClose = true →
      x.handleData = some a → s.sessions.cells a = some p →
      s.clientSessionMap[x.clientid]? = some b → b = a)
    (hr : s.act (.handleClosed c) = some r) : ∃ s', r = .ok s' := by
  obtain ⟨x, hx, -⟩ := Option.bind_eq_some_iff.1 hr
  by_cases hcb : x.afterClientClose = true
  · obtain ⟨a, p, ha, hp, hpc, rfl⟩ := h.act_handleClosed hx hcb hr
    set u := s.setCtx c { x with sessionTcpHandle := x.sessionTcpHandle.finish }
    rcases hmap : s.clientSessionMap[x.clientid]? with _ | b
    · refine ⟨{ u with sessions := s.sessions.modify a fun p => { p with isclosed := true } }, ?_⟩
      unfold cTcpClientSessionHandleClose
      rw [show u.clientSessionMap[x.clientid]? = none from hmap]
    · obtain rfl := hself x a p b hx hcb ha hp hmap
      have hq : (u.sessions.modify b fun p => { p with isclosed := true }).cells b
          = some { p with isclosed := true } :=
        (Heap.cells_modify.trans (if_pos rfl)).trans (congrArg _ hp)
      have hy : u.ctxs.cells p.clientSessionCtx
          = some { x with sessionTcpHandle := x.sessionTcpHandle.finish } :=
        (cells_setCtx hx _ _).trans (if_pos hpc)
      obtain ⟨v, hv, -⟩ := handleClose_deletes (s := { u with
        sessions := u.sessions.modify b fun p => { p with isclosed := true } }) hmap hq rfl hy rfl
      exact ⟨v, hv⟩
  · simp only [act, hx, Option.bind_some, Option.ite_none_right_eq_some, Option.some.injEq] at hr
    exact ⟨_, (hr.2.symm.trans (if_neg hcb))⟩

/-- The context of a session in the map. -/
def OwnsCtx (s : CTcpServer) (id : ℤ) (a c : ℕ) : Prop :=
  s.clientSessionMap[id]? = some a ∧ ∃ p, s.sessions.cells a = some p ∧ p.clientSessionCtx = c

theorem Full.ownsCtx (h : Full s) (ht : Tied s) {a : ℕ} {p : CTcpClientSession}
    (hp : s.sessions.cells a = some p) : ∃ id, OwnsCtx s id a p.clientSessionCtx := by
  obtain ⟨x, hx⟩ := ht.paired a p hp
  exact ⟨x.clientid, h.mapped a p x hp hx.ctx, p, hp, rfl⟩

/-- Every context that is not freed is either once on the list or the context of exactly one session
in the map, which it names, as the session's id does. -/
structure Exclusive (s : CTcpServer) : Prop where
  partition : ∀ c, s.ctxs.Live c ↔
    Xor (c ∈ s.idleTcpClientCtxList) (∃ id a, OwnsCtx s id a c)
  once : s.idleTcpClientCtxList.Nodup
  unique : ∀ id a id' a' c, OwnsCtx s id a c → OwnsCtx s id' a' c → id = id' ∧ a = a'
  back : ∀ id a c, OwnsCtx s id a c → ∃ x, s.ctxs.cells c = some x ∧ x.clientid = id
    ∧ x.parentClientSession = some a ∧ x.handleData = some a
  sessions : ∀ a, s.sessions.Live a ↔ ∃ id : ℤ, s.clientSessionMap[id]? = some a

theorem Owners.exclusive (h : Owners s) (hlt : s.accepted.length < 2 ^ 31) : Exclusive s := by
  have hfull := h.full hlt
  have hback : ∀ {id a c}, OwnsCtx s id a c → ∃ x, s.ctxs.cells c = some x ∧ x.clientid = id
      ∧ x.parentClientSession = some a ∧ x.handleData = some a
      ∧ c ∉ s.idleTcpClientCtxList := by
    rintro id a c ⟨hmap, p, hp, rfl⟩
    obtain ⟨q, x, hm⟩ := h.owned.mapped id a hmap
    obtain rfl := Option.some.inj (hm.session.symm.trans hp)
    obtain ⟨y, hy⟩ := h.tied.paired a q hp
    obtain rfl := Option.some.inj (hy.ctx.symm.trans hm.ctx)
    exact ⟨y, hy.ctx, hm.clientid, hy.parentClientSession, hm.handleData, hm.notIdle⟩
  have howns : ∀ {a p}, s.sessions.cells a = some p →
      ∃ id, OwnsCtx s id a p.clientSessionCtx := fun hp => hfull.ownsCtx h.tied hp
  refine ⟨fun c => ⟨fun hc => ?_, ?_⟩, h.owned.idle_nodup, fun id a id' a' c ho ho' => ?_,
    fun id a c ho => ?_, fun a => ⟨fun ha => ?_, ?_⟩⟩
  · rcases hfull.placed c hc with hidle | ⟨a, p, hp, rfl⟩
    · exact .inl ⟨hidle, fun ⟨id, a, ho⟩ => (hback ho).choose_spec.2.2.2.2 hidle⟩
    · obtain ⟨id, ho⟩ := howns hp
      exact .inr ⟨⟨id, a, ho⟩, (hback ho).choose_spec.2.2.2.2⟩
  · rintro (⟨hidle, -⟩ | ⟨⟨id, a, ho⟩, -⟩)
    · exact h.tied.idle_live c hidle
    · exact Heap.live_of_cells (hback ho).choose_spec.1
  · obtain ⟨x, hx, hid, -, hd, -⟩ := hback ho
    obtain ⟨x', hx', hid', -, hd', -⟩ := hback ho'
    obtain rfl := Option.some.inj (hx.symm.trans hx')
    exact ⟨hid.symm.trans hid', Option.some.inj (hd.symm.trans hd')⟩
  · obtain ⟨x, hx, hid, hparent, hd, -⟩ := hback ho
    exact ⟨x, hx, hid, hparent, hd⟩
  · obtain ⟨p, hp⟩ := ha.cells
    obtain ⟨id, ho⟩ := howns hp
    exact ⟨id, ho.1⟩
  · rintro ⟨id, hmap⟩
    obtain ⟨p, x, hm⟩ := h.owned.mapped id a hmap
    exact Heap.live_of_cells hm.session

/-- A context that a step frees was that of a session in the map, which the step deletes. -/
theorem freed_step (ho : Owned s) (h : Tied s) (hs : step s l = some s') (hc : s.ctxs.Live c)
    (hdead : ¬ s'.ctxs.Live c) : ∃ id a, OwnsCtx s id a c ∧ ¬ s'.sessions.Live a := by
  have hframe : ∀ {t}, Frame s t → t.ctxs.Live c := by
    intro t hf
    obtain ⟨x, hx⟩ := hc.cells
    obtain ⟨x', hx', -⟩ := hf.ctx_some hx
    exact Heap.live_of_cells hx'
  have htaken : ∀ {d t}, s.takeCtx = (d, t) → t.ctxs.Live c := by
    intro d t ht
    by_cases hcd : c = d
    · obtain ⟨x, hx⟩ := h.takeCtx_live ht
      exact Heap.live_of_cells (hcd ▸ hx)
    · unfold Heap.Live
      rw [(taken_takeCtx ht).cells c hcd]
      exact hc
  obtain ⟨-, ht⟩ := step_trans hs
  cases ht with
  | deadTarget _ _ _ | inCall => exact absurd hc hdead
  | moves hm | push hm _ | pop hm | closedAlone hm _ _ _ _ _ => exact absurd (hframe hm.frame) hdead
  | giveBack _ htake _ _ | accept htake _ _ _ =>
    exact absurd (Heap.live_modify.2 (htaken htake)) hdead
  | recv _ _ _ _ _ _ => exact absurd (Heap.live_modify.2 hc) hdead
  | @sessionEnds d v x a b p q hx _ _ _ hp hpc hmap hq hcl hv =>
    obtain ⟨rfl, -, hv⟩ := ho.ended_self hp hpc hmap hq hcl hv
    rcases recycle_cases hv with ⟨-, rfl⟩ | ⟨rfl, -⟩
    · exact absurd (Heap.live_modify.2 hc) hdead
    · by_cases hcd : c = d
      · exact ⟨x.clientid, b, ⟨hmap, p, hp, hpc.trans hcd.symm⟩,
          fun hlive => (Heap.live_free.1 hlive).1 rfl⟩
      · exact absurd (Heap.live_free.2 ⟨hcd, Heap.live_modify.2 hc⟩) hdead

/-- In every state of a run with fewer than `2 ^ 31` accepted connections every context has exactly
one owner, neither callback that can free a context follows a freed pointer or frees a context libuv
has, and what a step frees is the context of a session it deletes. -/
theorem contexts_exclusive {as : List Label} {packhead : UInt32}
    (hr : run step (started packhead) as = some s) (hlt : s.accepted.length < 2 ^ 31) :
    Exclusive s ∧ (∀ status r f, s.acceptConnection status r ≠ .error f)
      ∧ (∀ c f, s.act (.handleClosed c) ≠ some (.error f))
      ∧ ∀ l s' c, step s l = some s' → s.ctxs.Live c → ¬ s'.ctxs.Live c →
        ∃ id a, OwnsCtx s id a c ∧ ¬ s'.sessions.Live a := by
  have h := owners_run hr
  refine ⟨h.exclusive hlt, fun status r f hf => ?_, fun c f hf => ?_, fun l s' c hs =>
    freed_step h.owned h.tied hs⟩
  · obtain ⟨s', hok⟩ := h.acceptConnection_ok status r
    rw [hok] at hf
    cases hf
  · obtain ⟨s', hok⟩ := h.tied.handleClosed_ok (fun x a p b hx _ ha hp hmap => by
      have hpc := h.tied.only c x a p hx ha hp
      rw [(h.full hlt).mapped a p x hp (hpc ▸ hx)] at hmap
      exact (Option.some.inj hmap).symm) hf
    cases hok

/-- The context of a closed session serves the next one, whose handle is closed in its turn. -/
def acceptTwice : List Label :=
  closeOnce ++ [.acceptConnection 0 ⟨0, 0, 0⟩, .acceptConnection 0 ⟨0, 0, -1⟩]

theorem contexts_exclusive_acceptTwice : ∃ s,
    run step (started defPackHeadFlag) acceptTwice = some s ∧ s.accepted.length = 2
      ∧ Exclusive s ∧ (∀ status r f, s.acceptConnection status r ≠ .error f)
      ∧ (∀ c f, s.act (.handleClosed c) ≠ some (.error f))
      ∧ ∀ l s' c, step s l = some s' → s.ctxs.Live c → ¬ s'.ctxs.Live c →
        ∃ id a, OwnsCtx s id a c ∧ ¬ s'.sessions.Live a := by
  obtain ⟨s, hs⟩ := Option.isSome_iff_exists.1
    (show (run step (started defPackHeadFlag) acceptTwice).isSome from rfl)
  have hlen : (run step (started defPackHeadFlag) acceptTwice).map (·.accepted.length) = some 2 :=
    rfl
  rw [hs] at hlen
  have htwo : s.accepted.length = 2 := Option.some.inj hlen
  exact ⟨s, hs, htwo, contexts_exclusive hs (by omega)⟩

end TestLibuv.CTcpServer
