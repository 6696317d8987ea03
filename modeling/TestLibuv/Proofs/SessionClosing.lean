import TestLibuv.Proofs.IdleContexts

/-!
# Sessions and their handles

While `uv_accept` and `uv_read_start` do not fail, a handle that the loop has names the session
whose context it is in, and the handle of a session in the map is one the loop has: it is closed
with `AfterClientClose`, which reports the session and recycles the context. Behind the close of
the server's own handle no handle is opened.
-/

namespace TestLibuv.CTcpServer

open CMem Runs

variable {s s' t : CTcpServer} {l : Label} {id : ℤ} {a c : ℕ}

/-- Neither `uv_accept` nor `uv_read_start` fails. -/
def Label.Accepts : Label → Prop
  | .acceptConnection status r => status = 0 → r.tcpInit = 0 → r.accept = 0 ∧ r.readStart = 0
  | _ => True

instance : ∀ l : Label, Decidable l.Accepts
  | .acceptConnection status r => inferInstanceAs
    (Decidable (status = 0 → r.tcpInit = 0 → r.accept = 0 ∧ r.readStart = 0))
  | .close _ | .shutDown _ | .send _ _ _ | .broadcast _ _ | .afterRecv _ _ | .afterRecvError _ _
  | .afterSend _ _ | .afterShutDown _ | .handleClosed _ | .asyncEvent _ | .asyncCB
  | .afterServerClose => .isTrue trivial

/-- The session that a context's handle names has the context, and the handle is closed with its
close callback. -/
structure Named (s : CTcpServer) (c : ℕ) (x : TcpSessionCtx) (a : ℕ) (p : CTcpClientSession) :
    Prop where
  handleData : x.handleData = some a
  session : s.sessions.cells a = some p
  ctx : p.clientSessionCtx = c
  callback : x.sessionTcpHandle.phase = .closing → x.afterClientClose = true

/-- Every registered handle names its session. -/
def AllNamed (s : CTcpServer) : Prop :=
  ∀ c x, s.ctxs.cells c = some x → x.sessionTcpHandle.phase.registered = true →
    ∃ a p, Named s c x a p

/-- The handle of every session in the map is registered. -/
def AllRegistered (s : CTcpServer) : Prop :=
  ∀ id a c, OwnsCtx s id a c →
    ∃ x, s.ctxs.cells c = some x ∧ x.sessionTcpHandle.phase.registered = true

theorem AllNamed.of_eq (h : AllNamed s) (hctxs : s'.ctxs = s.ctxs)
    (hsessions : s'.sessions = s.sessions) : AllNamed s' := by
  intro c x hx hreg
  obtain ⟨a, p, hn⟩ := h c x (hctxs ▸ hx) hreg
  exact ⟨a, p, hn.handleData, hsessions ▸ hn.session, hn.ctx, hn.callback⟩

theorem AllNamed.move (h : AllNamed s) (ht : Tied s) (hm : Move s l s') : AllNamed s' := by
  intro c x' hx' hreg
  have hf := hm.frame
  obtain ⟨x, hx, hphased⟩ := hm.phased hx'
  obtain ⟨y, hy, hk⟩ := hf.ctx_some hx
  obtain rfl := Option.some.inj (hy.symm.trans hx')
  cases hphased with
  | same hphase hcb =>
    obtain ⟨a, p, hn⟩ := h c x hx (hphase ▸ hreg)
    refine ⟨a, p, hk.handleData.trans hn.handleData, hf.sessions ▸ hn.session, hn.ctx, ?_⟩
    rw [hphase, hcb]
    exact hn.callback
  | @closes a p hp hc _ _ hcb =>
    obtain ⟨ha, hpc, -⟩ := ht.owner hx hp hc
    exact ⟨a, p, hk.handleData.trans ha, hf.sessions ▸ hp, hpc, fun _ => hcb⟩
  | ended _ hphase => simp [hphase, UvPhase.registered] at hreg

theorem AllNamed.moves (h : AllNamed s) (ht : Tied s) (hm : Moves l s s') : AllNamed s' := by
  induction hm with
  | refl => exact h
  | tail hms hm ih => exact ih.move (ht.moves hms) hm

/-- The context taken is the one place where the contexts differ, and has no handle open. -/
theorem AllNamed.takeCtx (h : AllNamed s) (ht : s.takeCtx = (c, t)) {x : TcpSessionCtx} {d : ℕ}
    (hx : t.ctxs.cells d = some x) (hreg : x.sessionTcpHandle.phase.registered = true) :
    ∃ a p, Named t d x a p := by
  rcases takeCtx_cases ht with ⟨-, -, rfl⟩ | ⟨rest, -, rfl⟩
  · rw [Heap.cells_alloc] at hx
    split_ifs at hx with hd
    · obtain rfl := Option.some.inj hx
      simp [allocTcpSessionCtx, UvTcp.blank, UvPhase.registered] at hreg
    · obtain ⟨a, p, hn⟩ := h d x hx hreg
      exact ⟨a, p, hn.handleData, hn.session, hn.ctx, hn.callback⟩
  · rw [Heap.cells_modify] at hx
    split_ifs at hx
    · obtain ⟨y, hy, rfl⟩ := Option.map_eq_some_iff.1 hx
      obtain ⟨a, p, hn⟩ := h d y hy hreg
      exact ⟨a, p, hn.handleData, hn.session, hn.ctx, hn.callback⟩
    · obtain ⟨a, p, hn⟩ := h d x hx hreg
      exact ⟨a, p, hn.handleData, hn.session, hn.ctx, hn.callback⟩

theorem AllNamed.newSession (h : AllNamed s) (hy : ∃ y, s.ctxs.cells c = some y)
    {x : TcpSessionCtx} (hx : x.sessionTcpHandle.phase = .active) (conn : ℕ) :
    AllNamed (s.newSession c x conn) := by
  obtain ⟨y, hy⟩ := hy
  intro d z hz hreg
  have hz' := cells_setCtx hy _ d ▸ hz
  split_ifs at hz' with hdc
  · obtain rfl := Option.some.inj hz'
    exact ⟨s.sessions.next, ⟨c, false⟩, rfl, Heap.cells_alloc.trans (if_pos rfl), hdc.symm,
      fun hcl => by simp [hx] at hcl⟩
  · obtain ⟨a, p, hn⟩ := h d z hz' hreg
    exact ⟨a, p, hn.handleData,
      (Heap.cells_alloc.trans (if_neg (Heap.lt_next hn.session).ne)).trans hn.session, hn.ctx,
      hn.callback⟩

theorem AllNamed.markClosed (h : AllNamed s) (a : ℕ) : AllNamed { s with
    sessions := s.sessions.modify a fun p => { p with isclosed := true } } := by
  intro d x hx hreg
  obtain ⟨b, p, hn⟩ := h d x hx hreg
  obtain ⟨q, hq, hqc⟩ := cells_markClosed a hn.session
  exact ⟨b, q, hn.handleData, hq, hqc.trans hn.ctx, hn.callback⟩

/-- The session whose handle was closed is deleted: no other handle names it. -/
theorem AllNamed.deleteSession (h : AllNamed s) (ht : Tied s) {v : CTcpServer}
    {p : CTcpClientSession} {x : TcpSessionCtx} (hp : s.sessions.cells a = some p)
    (hpc : p.clientSessionCtx = c) (hx : s.ctxs.cells c = some x)
    (hphase : x.sessionTcpHandle.phase = .closed) (hv : s.recycle c = .ok v)
    (map : Std.TreeMap ℤ ℕ) :
    AllNamed { v with sessions := v.sessions.free a, clientSessionMap := map } := by
  have hback : ∀ d y, v.ctxs.cells d = some y → s.ctxs.cells d = some y := by
    intro d y hy
    rcases recycle_cases hv with ⟨-, rfl⟩ | ⟨rfl, -⟩
    · exact hy
    · rw [Heap.cells_free] at hy
      split_ifs at hy
      exact hy
  intro d y hy' hreg
  have hy := hback d y hy'
  obtain ⟨b, q, hn⟩ := h d y hy hreg
  have hba : b ≠ a := by
    rintro rfl
    obtain rfl : p.clientSessionCtx = d := ht.only d y b p hy hn.handleData hp
    obtain rfl := Option.some.inj (hy.symm.trans (hpc ▸ hx))
    simp [hphase, UvPhase.registered] at hreg
  refine ⟨b, q, hn.handleData, ?_, hn.ctx, hn.callback⟩
  rw [Heap.cells_free, if_neg hba, (recycle_frame hv).2.1]
  exact hn.session

theorem allNamed_started (packhead : UInt32) : AllNamed (started packhead) := by
  intro c x hx
  simp [started, Heap.empty] at hx

theorem allNamed_step (ho : Owned s) (ht : Tied s) (h : AllNamed s) (hl : l.Accepts)
    (hs : step s l = some s') : AllNamed s' := by
  obtain ⟨-, htr⟩ := step_trans hs
  cases htr with
  | deadTarget _ _ _ | inCall => exact h.of_eq rfl rfl
  | moves hm => exact h.moves ht hm
  | push hm _ | pop hm => exact (h.moves ht hm).of_eq rfl rfl
  | @giveBack c r t x x' n inits errmsg htake hx hback =>
    obtain ⟨rfl, -⟩ := hback.rests (hl rfl)
    have hnamed : AllNamed t := fun d y hy hreg => h.takeCtx htake hy hreg
    rw [setCtx_self hx]
    exact hnamed.of_eq rfl rfl
  | @accept c r t x htake hx _ _ =>
    have hnamed : AllNamed t := fun d y hy hreg => h.takeCtx htake hy hreg
    exact AllNamed.newSession (s := { t with
      inits := s.inits ++ [x.sessionTcpHandle.phase], conns := s.conns + 1 })
      (hnamed.of_eq rfl rfl) ⟨x, hx⟩ rfl _
  | @recv c data x y a p packet log _ _ _ _ hy _ =>
    intro d z hz hreg
    have hz' := cells_setCtx hy _ d ▸ hz
    split_ifs at hz' with hdc
    · obtain rfl := Option.some.inj hz'
      obtain ⟨b, q, hn⟩ := h d y (hdc ▸ hy) hreg
      exact ⟨b, q, hn.handleData, hn.session, hn.ctx, hn.callback⟩
    · obtain ⟨b, q, hn⟩ := h d z hz' hreg
      exact ⟨b, q, hn.handleData, hn.session, hn.ctx, hn.callback⟩
  | closedAlone hm _ _ _ _ _ => exact (h.moves ht hm).markClosed _
  | @sessionEnds c v x a b p q hx he _ _ hp hpc hmap hq hcl hv =>
    obtain ⟨rfl, hqc, hv⟩ := ho.ended_self hp hpc hmap hq hcl hv
    have hmove : Move s (.handleClosed c) _ := .finish hx he
    have hend : AllNamed (s.ended c x b b) := ((h.move ht hmove).markClosed b).of_eq rfl rfl
    have htied : Tied (s.ended c x b b) := ((ht.move hmove).markClosed b).of_eq rfl rfl rfl
    exact hend.deleteSession htied hq hqc (cells_ended hx) rfl hv _

/-! ## The sessions in the map -/

/-- The handle of a session in the map, when it is closed, has the session reported and deleted. -/
theorem OwnsCtx.handleClosed_ends (h : Owned s) (hn : AllNamed s) (ho : OwnsCtx s id a c)
    (hs : step s (.handleClosed c) = some s') : Ends s s' id a c := by
  obtain ⟨hmap, p, hp, rfl⟩ := ho
  obtain ⟨q, x, hm⟩ := h.mapped id a hmap
  obtain rfl := Option.some.inj (hm.session.symm.trans hp)
  have hend : x.sessionTcpHandle.ends = true := by
    obtain ⟨r, hr, -⟩ := step_act hs (by simp)
    simp only [act, hm.ctx, Option.bind_some, Option.ite_none_right_eq_some] at hr
    exact hr.1
  have hcl := x.sessionTcpHandle.closing_of_ends hend
  obtain ⟨b, r, hb⟩ := hn _ x hm.ctx (by rw [hcl]; rfl)
  rw [← hm.clientid]
  exact CTcpServer.handleClosed_ends hm.ctx (hb.callback hcl) hm.handleData hp rfl
    (hm.clientid ▸ hmap) hs

/-- A session in the map that still has its context, whose handle is where it was or further on. -/
structure Retained (s : CTcpServer) (id : ℤ) (a c : ℕ) (x : TcpSessionCtx) : Prop where
  owns : OwnsCtx s id a c
  ctx : ∃ x', s.ctxs.cells c = some x'
    ∧ (x.sessionTcpHandle.phase.registered = true → x'.sessionTcpHandle.phase.registered = true)
    ∧ (x.sessionTcpHandle.phase = .closing → x'.sessionTcpHandle.phase = .closing)

theorem OwnsCtx.retained {x : TcpSessionCtx} (ho : OwnsCtx s id a c)
    (hx : s.ctxs.cells c = some x) : Retained s id a c x := ⟨ho, x, hx, fun hr => hr, fun hc => hc⟩

theorem Retained.of_cells {x : TcpSessionCtx} (h : Retained s id a c x)
    (hmap : s'.clientSessionMap[id]? = some a)
    (hsession : ∀ p, s.sessions.cells a = some p →
      ∃ q, s'.sessions.cells a = some q ∧ q.clientSessionCtx = p.clientSessionCtx)
    (hctx : ∀ y, s.ctxs.cells c = some y → ∃ z, s'.ctxs.cells c = some z
      ∧ z.sessionTcpHandle.phase = y.sessionTcpHandle.phase) : Retained s' id a c x := by
  obtain ⟨⟨-, p, hp, hpc⟩, y, hy, hreg, hcl⟩ := h
  obtain ⟨q, hq, hqc⟩ := hsession p hp
  obtain ⟨z, hz, hphase⟩ := hctx y hy
  refine ⟨⟨hmap, q, hq, hqc.trans hpc⟩, z, hz, ?_, ?_⟩
  · rwa [hphase]
  · rwa [hphase]

theorem Retained.move {x : TcpSessionCtx} (h : Retained s id a c x) (hl : l ≠ .handleClosed c)
    (hm : Move s l s') : Retained s' id a c x := by
  obtain ⟨⟨hmap, p, hp, hpc⟩, y, hy, hreg, hcl⟩ := h
  have hf := hm.frame
  obtain ⟨z, hz, -⟩ := hf.ctx_some hy
  obtain ⟨w, hw, hphased⟩ := hm.phased hz
  obtain rfl := Option.some.inj (hw.symm.trans hy)
  refine ⟨⟨hf.map ▸ hmap, p, hf.sessions ▸ hp, hpc⟩, z, hz, ?_⟩
  cases hphased with
  | same hphase _ =>
    rw [hphase]
    exact ⟨hreg, hcl⟩
  | closes _ _ _ hphase _ =>
    rw [hphase]
    exact ⟨fun _ => rfl, fun _ => rfl⟩
  | ended hlabel _ => exact absurd hlabel hl

theorem Retained.moves {x : TcpSessionCtx} (h : Retained s id a c x) (hl : l ≠ .handleClosed c)
    (hm : Moves l s s') : Retained s' id a c x := by
  induction hm with
  | refl => exact h
  | tail _ hm ih => exact ih.move hl hm

/-- The taking of a context is of none that a session in the map has. -/
theorem Retained.takeCtx {x : TcpSessionCtx} {d : ℕ} (ho : Owned s) (h : Retained s id a c x)
    (ht : s.takeCtx = (d, t)) : Retained t id a c x ∧ c ≠ d := by
  have htaken := taken_takeCtx ht
  obtain ⟨hmap, p, hp, hpc⟩ := h.owns
  obtain ⟨-, hun⟩ := ho.takeCtx ht
  have hcd : c ≠ d := by
    obtain ⟨htowned, -⟩ := ho.takeCtx ht
    obtain ⟨q, y, hm⟩ := htowned.mapped id a (htaken.map ▸ hmap)
    have hne := hun.notMapped id a q y (htaken.map ▸ hmap) hm
    obtain rfl := Option.some.inj ((htaken.sessions ▸ hm.session).symm.trans hp)
    exact hpc ▸ hne
  refine ⟨h.of_cells (htaken.map ▸ hmap) (fun q hq => ⟨q, htaken.sessions ▸ hq, rfl⟩) ?_, hcd⟩
  exact fun y hy => ⟨y, (htaken.cells c hcd).trans hy, rfl⟩

/-- What a step leaves of a session in the map whose handle it does not close. -/
theorem OwnsCtx.retained_step (h : Owned s) (ho : OwnsCtx s id a c) {x : TcpSessionCtx}
    (hx : s.ctxs.cells c = some x) (hl : l ≠ .handleClosed c) (hs : step s l = some s') :
    Retained s' id a c x := by
  have hself : Retained s id a c x := ho.retained hx
  obtain ⟨-, htr⟩ := step_trans hs
  cases htr with
  | deadTarget _ _ _ | inCall =>
    exact hself.of_cells ho.1 (fun p hp => ⟨p, hp, rfl⟩) fun y hy => ⟨y, hy, rfl⟩
  | moves hm => exact hself.moves hl hm
  | push hm _ | pop hm =>
    have hr := hself.moves hl hm
    exact hr.of_cells hr.owns.1 (fun p hp => ⟨p, hp, rfl⟩) fun y hy => ⟨y, hy, rfl⟩
  | @giveBack d r t y y' n inits errmsg htake hy _ =>
    obtain ⟨hr, hcd⟩ := hself.takeCtx h htake
    exact hr.of_cells hr.owns.1 (fun p hp => ⟨p, hp, rfl⟩) fun z hz =>
      ⟨z, (cells_setCtx hy y' c).trans ((if_neg hcd).trans hz), rfl⟩
  | @accept d r t y htake hy _ _ =>
    obtain ⟨hr, hcd⟩ := hself.takeCtx h htake
    refine hr.of_cells ?_ (fun p hp => ⟨p, ?_, rfl⟩) fun z hz => ⟨z, ?_, rfl⟩
    · show (t.clientSessionMap.insertIfNew _ _)[id]? = some a
      rw [getElem?_insertSession, if_neg, hr.owns.1]
      rintro ⟨rfl, hnew⟩
      simp [hr.owns.1] at hnew
    · exact (Heap.cells_alloc.trans (if_neg (Heap.lt_next hp).ne)).trans hp
    · exact (cells_setCtx (s := { t with
        inits := s.inits ++ [y.sessionTcpHandle.phase], conns := s.conns + 1 }) hy _ c).trans
          ((if_neg hcd).trans hz)
  | @recv d data y z b p packet log _ _ _ _ hz _ =>
    refine hself.of_cells ho.1 (fun q hq => ⟨q, hq, rfl⟩) fun w hw => ?_
    have hcell := cells_setCtx hz { z with packet } c
    split_ifs at hcell with hc
    · obtain rfl := Option.some.inj (hw.symm.trans (hc ▸ hz))
      exact ⟨_, hcell, rfl⟩
    · exact ⟨w, hcell.trans hw, rfl⟩
  | @closedAlone d t y b p hm _ _ _ _ _ =>
    have hr := hself.moves hl hm
    exact hr.of_cells hr.owns.1 (fun q hq => cells_markClosed b hq) fun w hw => ⟨w, hw, rfl⟩
  | @sessionEnds d v y e b p q hy he _ hd hp hpc hmap hq hcl hv =>
    obtain ⟨rfl, hqc, hv⟩ := h.ended_self hp hpc hmap hq hcl hv
    have hcd : c ≠ d := fun hcd => hl (hcd ▸ rfl)
    obtain ⟨hown, r, hr, hrc⟩ := ho
    have hab : a ≠ b := by
      rintro rfl
      obtain rfl := Option.some.inj (hr.symm.trans hp)
      exact hcd (hrc.symm.trans hpc)
    have hkept : v.clientSessionMap = s.clientSessionMap
        ∧ v.ctxs.cells c = (s.ended d y b b).ctxs.cells c := by
      rcases recycle_cases hv with ⟨-, rfl⟩ | ⟨rfl, -⟩
      · exact ⟨rfl, rfl⟩
      · exact ⟨rfl, Heap.cells_free.trans (if_neg hcd)⟩
    refine hself.of_cells ?_ (fun w hw => ?_) fun w hw => ⟨w, ?_, rfl⟩
    · show (v.clientSessionMap.erase y.clientid)[id]? = some a
      rw [hkept.1, getElem?_eraseSession, if_neg, hown]
      rintro rfl
      rw [hown] at hmap
      exact hab (Option.some.inj hmap)
    · obtain ⟨w', hw', hwc⟩ := cells_markClosed b hw
      refine ⟨w', ?_, hwc⟩
      show (v.sessions.free b).cells a = some w'
      rw [Heap.cells_free, if_neg hab, (recycle_frame hv).2.1]
      exact hw'
    · exact hkept.2.trans ((cells_setCtx hy _ c).trans ((if_neg hcd).trans hw))

/-- A session in the map was there before, or is new and its handle open. -/
theorem mapped_step (hs : step s l = some s') (ho : OwnsCtx s' id a c) :
    s.clientSessionMap[id]? = some a
      ∨ ∃ x, s'.ctxs.cells c = some x ∧ x.sessionTcpHandle.phase = .active := by
  obtain ⟨hmap, p, hp, hpc⟩ := ho
  obtain ⟨-, htr⟩ := step_trans hs
  cases htr with
  | deadTarget _ _ _ | inCall | recv _ _ _ _ _ _ => exact .inl hmap
  | moves hm | push hm _ | pop hm | closedAlone hm _ _ _ _ _ =>
    exact .inl (hm.frame.map ▸ hmap)
  | giveBack _ htake _ _ => exact .inl ((taken_takeCtx htake).map ▸ hmap)
  | @accept d r t x htake hx _ _ =>
    have hmap' : (t.clientSessionMap.insertIfNew (createSessionId { t with
        inits := s.inits ++ [x.sessionTcpHandle.phase], conns := s.conns + 1 })
        t.sessions.next)[id]? = some a := hmap
    rw [getElem?_insertSession] at hmap'
    split_ifs at hmap' with hnew
    · obtain rfl := Option.some.inj hmap'
      have hp' : (t.sessions.alloc ⟨d, false⟩).cells t.sessions.next = some p := hp
      rw [Heap.cells_alloc, if_pos rfl, Option.some.injEq] at hp'
      obtain rfl : d = c := by rw [← hpc, ← hp']
      exact .inr ⟨_, (cells_setCtx (s := { t with
        inits := s.inits ++ [x.sessionTcpHandle.phase], conns := s.conns + 1 }) hx _ d).trans
          (if_pos rfl), rfl⟩
    · exact .inl ((taken_takeCtx htake).map ▸ hmap')
  | @sessionEnds d v x e b p q hx he _ ha hp hpc hm hq hcl hv =>
    have hkept : v.clientSessionMap = s.clientSessionMap := by
      rcases recycle_cases hv with ⟨-, rfl⟩ | ⟨rfl, -⟩ <;> rfl
    have hmap' : (v.clientSessionMap.erase x.clientid)[id]? = some a := hmap
    rw [hkept, getElem?_eraseSession] at hmap'
    split_ifs at hmap'
    exact .inl hmap'

theorem allRegistered_started (packhead : UInt32) : AllRegistered (started packhead) := by
  rintro id a c ⟨hmap, -⟩
  simp [started] at hmap

theorem allRegistered_step (ho : Owned s) (hn : AllNamed s) (h : AllRegistered s)
    (hs : step s l = some s') : AllRegistered s' := by
  intro id a c hown
  rcases mapped_step hs hown with hold | ⟨x, hx, hactive⟩
  · obtain ⟨p, y, hm⟩ := ho.mapped id a hold
    have hown' : OwnsCtx s id a p.clientSessionCtx := ⟨hold, p, hm.session, rfl⟩
    by_cases hl : l = .handleClosed p.clientSessionCtx
    · obtain ⟨-, q, hq, -⟩ := hown
      have hend := hown'.handleClosed_ends ho hn (hl ▸ hs)
      exact absurd (Heap.live_of_cells hq) hend.deleted
    · have hr := hown'.retained_step ho hm.ctx hl hs
      obtain ⟨z, hz, hreg⟩ := h id a _ hown'
      obtain rfl := Option.some.inj (hz.symm.trans hm.ctx)
      obtain ⟨-, q, hq, rfl⟩ := hown
      obtain ⟨-, r, hr', hrc⟩ := hr.owns
      obtain rfl := Option.some.inj (hr'.symm.trans hq)
      obtain ⟨w, hw, hwreg, -⟩ := hr.ctx
      exact ⟨w, hrc ▸ hw, hwreg hreg⟩
  · exact ⟨x, hx, by rw [hactive]; rfl⟩

/-! ## Behind the looper's close -/

/-- Neither the server's handle nor a context's is open. -/
structure Shut (s : CTcpServer) : Prop where
  server : s.tcpServerHandle ≠ .active
  ctxs : ∀ c x, s.ctxs.cells c = some x → x.sessionTcpHandle.phase ≠ .active

theorem Shut.setId (h : Shut s) (sId : ℤ) : Shut { s with sId } := ⟨h.server, h.ctxs⟩

theorem Shut.move (h : Shut s) (hm : Move s l s') :
    ∀ c x, s'.ctxs.cells c = some x → x.sessionTcpHandle.phase ≠ .active := by
  intro c x' hx'
  obtain ⟨x, hx, hphased⟩ := hm.phased hx'
  cases hphased with
  | same hphase _ => exact hphase ▸ h.ctxs c x hx
  | closes _ _ _ hphase _ => simp [hphase]
  | ended _ hphase => simp [hphase]

theorem takeParam_serverHandle (s : CTcpServer) :
    s.takeParam.2.tcpServerHandle = s.tcpServerHandle := by
  unfold takeParam
  split <;> rfl

theorem Move.serverHandle (hm : Move s l s') (hl : l ≠ .asyncCB) (hl' : l ≠ .afterServerClose) :
    s'.tcpServerHandle = s.tcpServerHandle := by
  cases hm with
  | rest _ _ _ h =>
    rcases h with h | h | h
    · exact h
    · exact absurd h hl
    · exact absurd h hl'
  | write _ _ hsend =>
    obtain ⟨w, t, p, base, x, ht, -, -, -, hs⟩ := sendinl_spec hsend
    have hhandle := takeParam_serverHandle s
    rw [ht] at hhandle
    rcases hs with ⟨-, rfl⟩ | ⟨-, -, rfl⟩ <;> exact hhandle
  | sent _ _ hsent => rcases CTcpClientSession.afterSend_spec hsent with ⟨-, rfl⟩ | ⟨-, rfl⟩ <;> rfl
  | _ => rfl

theorem Shut.moves (h : Shut s) (hl : l ≠ .asyncCB) (hl' : l ≠ .afterServerClose)
    (hm : Moves l s s') : Shut s' := by
  induction hm with
  | refl => exact h
  | tail _ hm ih => exact ⟨hm.serverHandle hl hl' ▸ ih.server, ih.move hm⟩

theorem Shut.markClosed (h : Shut s) (a : ℕ) : Shut { s with
    sessions := s.sessions.modify a fun p => { p with isclosed := true } } := ⟨h.server, h.ctxs⟩

theorem Shut.not_accept {status : ℤ} {r : AcceptResults} (h : Shut s) :
    step s (.acceptConnection status r) ≠ some s' := by
  intro hs
  obtain ⟨_, hr, -⟩ := step_act hs (by simp)
  simp [act, h.server] at hr

theorem shut_step (h : Shut s) (hl : l ≠ .asyncCB) (hs : step s l = some s') :
    Shut s' := by
  by_cases hl' : l = .afterServerClose
  · subst hl'
    obtain ⟨r, hr, rfl⟩ := step_act hs (by simp)
    simp only [act, Option.ite_none_right_eq_some, Option.some.injEq] at hr
    rw [← hr.2]
    exact ⟨by simp [settle, afterServerClose], h.ctxs⟩
  obtain ⟨-, htr⟩ := step_trans hs
  cases htr with
  | deadTarget _ _ _ | inCall => exact ⟨h.server, h.ctxs⟩
  | moves hm => exact h.moves hl hl' hm
  | push hm _ | pop hm => exact ⟨(h.moves hl hl' hm).server, (h.moves hl hl' hm).ctxs⟩
  | giveBack _ _ _ _ | accept _ _ _ _ => exact absurd hs h.not_accept
  | @recv c data x y a p packet log _ _ _ _ hy _ =>
    refine ⟨h.server, fun d z hz => ?_⟩
    have hz' := cells_setCtx hy _ d ▸ hz
    split_ifs at hz' with hdc
    · obtain rfl := Option.some.inj hz'
      exact h.ctxs d y (hdc ▸ hy)
    · exact h.ctxs d z hz'
  | closedAlone hm _ _ _ _ _ => exact (h.moves hl hl' hm).markClosed _
  | @sessionEnds c v x a b p q hx he _ _ hp hpc hmap hq hcl hv =>
    have hmove : Moves (.handleClosed c) s _ := .single (.finish hx he)
    have hend := (h.moves hl hl' hmove).markClosed a
    rcases recycle_cases hv with ⟨-, rfl⟩ | ⟨rfl, -⟩
    · exact ⟨hend.server, hend.ctxs⟩
    · refine ⟨hend.server, fun d z hz => ?_⟩
      have hz' := Heap.cells_free (h := (s.ended c x a b).ctxs) ▸ hz
      split_ifs at hz'
      exact hend.ctxs d z hz'

/-- The session was reported closed and deleted, and its context recycled. -/
structure Reported (s : CTcpServer) (id : ℤ) (a c : ℕ) : Prop where
  reported : .close id a ∈ s.callbacks
  deleted : ¬ s.sessions.Live a
  recycled : c ∈ s.idleTcpClientCtxList ∨ ¬ s.ctxs.Live c

/-- The session waits for the close callback of its handle. -/
def Winding (s : CTcpServer) (id : ℤ) (a c : ℕ) : Prop :=
  OwnsCtx s id a c ∧ ∃ x, s.ctxs.cells c = some x ∧ x.sessionTcpHandle.phase = .closing
    ∧ x.afterClientClose = true

theorem Ends.toReported (h : Ends s s' id a c) : Reported s' id a c :=
  ⟨by simp [h.reported], h.deleted, h.recycled⟩

theorem Reported.setId (h : Reported s id a c) (sId : ℤ) : Reported { s with sId } id a c :=
  ⟨h.reported, h.deleted, h.recycled⟩

theorem Reported.of_le (h : Reported s id a c) (hcb : s.callbacks ⊆ s'.callbacks)
    (hsessions : ∀ b, s'.sessions.Live b → s.sessions.Live b)
    (hidle : s.idleTcpClientCtxList ⊆ s'.idleTcpClientCtxList)
    (hctxs : ∀ d, s'.ctxs.Live d → s.ctxs.Live d) : Reported s' id a c :=
  ⟨hcb h.reported, fun hl => h.deleted (hsessions a hl),
    h.recycled.imp (fun hc => hidle hc) fun hd hl => hd (hctxs c hl)⟩

theorem Reported.frame (h : Reported s id a c) (hf : Frame s s') : Reported s' id a c := by
  refine h.of_le (by rw [hf.callbacks]; exact List.Subset.refl _) (fun b hb => hf.sessions ▸ hb)
    (by rw [hf.idle]; exact List.Subset.refl _) fun d hd => ?_
  obtain ⟨x', hx'⟩ := hd.cells
  obtain ⟨x, hx, -⟩ := hf.ctx_of_some hx'
  exact Heap.live_of_cells hx

theorem reported_step (h : Reported s id a c) (hshut : Shut s) (hs : step s l = some s') :
    Reported s' id a c := by
  obtain ⟨-, htr⟩ := step_trans hs
  cases htr with
  | deadTarget _ _ _ | inCall => exact ⟨h.reported, h.deleted, h.recycled⟩
  | moves hm => exact h.frame hm.frame
  | push hm _ | pop hm =>
    have hr := h.frame hm.frame
    exact ⟨hr.reported, hr.deleted, hr.recycled⟩
  | giveBack _ _ _ _ | accept _ _ _ _ => exact absurd hs hshut.not_accept
  | recv _ _ _ _ _ _ =>
    exact h.of_le (List.subset_append_left _ _) (fun _ hb => hb) (List.Subset.refl _)
      fun _ hd => Heap.live_modify.1 hd
  | closedAlone hm _ _ _ _ _ =>
    have hr := h.frame hm.frame
    exact hr.of_le (List.Subset.refl _) (fun _ hb => Heap.live_modify.1 hb) (List.Subset.refl _)
      fun _ hd => hd
  | @sessionEnds d v x e b p q hx he _ _ hp hpc hmap hq hcl hv =>
    have hlive : ∀ b', (v.sessions.free b).Live b' → s.sessions.Live b' := by
      intro b' hb'
      have hb' := (Heap.live_free.1 hb').2
      rw [(recycle_frame hv).2.1] at hb'
      exact Heap.live_modify.1 hb'
    rcases recycle_cases hv with ⟨-, rfl⟩ | ⟨rfl, -⟩
    · exact h.of_le (List.subset_append_left _ _) hlive (List.subset_append_left _ _)
        fun _ hd => Heap.live_modify.1 hd
    · exact h.of_le (List.subset_append_left _ _) hlive (List.Subset.refl _)
        fun _ hd => Heap.live_modify.1 (Heap.live_free.1 hd).2

/-- A session whose handle is closing waits for its close callback, which has it reported. -/
theorem winding_step (ho : Owned s) (ht : Tied s) (hn : AllNamed s) (hl : l.Accepts)
    (h : Winding s id a c) (hs : step s l = some s') :
    Winding s' id a c ∨ Reported s' id a c := by
  obtain ⟨hown, x, hx, hcl, -⟩ := h
  by_cases hlabel : l = .handleClosed c
  · exact .inr (hown.handleClosed_ends ho hn (hlabel ▸ hs)).toReported
  · obtain ⟨hown', y, hy, -, hycl⟩ := hown.retained_step ho hx hlabel hs
    obtain ⟨b, p, hnamed⟩ := allNamed_step ho ht hn hl hs c y hy (by rw [hycl hcl]; rfl)
    exact .inl ⟨hown', y, hy, hycl hcl, hnamed.callback (hycl hcl)⟩

end TestLibuv.CTcpServer
