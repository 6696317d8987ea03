import TestLibuv.Proofs.SessionProtocol
import TestLibuv.Proofs.ShutdownRequest

/-!
# The calls in the close callback

While the close callback of a session runs, its handle is closed and it is marked so itself. A call
in the callback then does what it had done before, or nothing, so when the callback returns the
server is where calls made before it lead. Until it does the map has the session under its id.
-/

namespace TestLibuv

open CMem Runs

namespace CTcpServer

variable {s t u v : CTcpServer} {l : Label} {c a d : ℕ} {x : TcpSessionCtx} {p : CTcpClientSession}

/-- The handle of a session's context has ended, and the map has the session under its id. -/
structure InCloseCb (s : CTcpServer) (c : ℕ) (x : TcpSessionCtx) (a : ℕ) (p : CTcpClientSession) :
    Prop where
  ctx : s.ctxs.cells c = some x
  ends : x.sessionTcpHandle.ends = true
  afterClientClose : x.afterClientClose = true
  handleData : x.handleData = some a
  session : s.sessions.cells a = some p
  clientSessionCtx : p.clientSessionCtx = c
  mapped : s.clientSessionMap[x.clientid]? = some a

theorem InCloseCb.congr (h : InCloseCb s c x a p) (hc : t.ctxs.cells c = s.ctxs.cells c)
    (hs : t.sessions = s.sessions) (hm : t.clientSessionMap = s.clientSessionMap) :
    InCloseCb t c x a p :=
  ⟨hc ▸ h.ctx, h.ends, h.afterClientClose, h.handleData, hs ▸ h.session, h.clientSessionCtx,
    hm ▸ h.mapped⟩

theorem closeCb_cases {cb : ℤ × ℕ} (h : s.closeCb l = some (cb, u)) : ∃ c x a b p,
    l = .handleClosed c ∧ s.ctxs.cells c = some x ∧ x.sessionTcpHandle.ends = true
      ∧ x.afterClientClose = true ∧ x.handleData = some a ∧ s.sessions.cells a = some p
      ∧ p.clientSessionCtx = c ∧ s.clientSessionMap[x.clientid]? = some b
      ∧ cb = (x.clientid, b) ∧ u = s.ended c x a b := by
  cases l with
  | handleClosed c =>
    obtain ⟨x, hx, h⟩ := Option.bind_eq_some_iff.1 h
    obtain ⟨a, ha, h⟩ := Option.bind_eq_some_iff.1 h
    obtain ⟨p, hp, h⟩ := Option.bind_eq_some_iff.1 h
    obtain ⟨b, hb, h⟩ := Option.bind_eq_some_iff.1 h
    split_ifs at h with hends
    obtain ⟨he, hcb, hpc⟩ := hends
    obtain ⟨rfl, rfl⟩ := Prod.mk.inj (Option.some.inj h)
    exact ⟨c, x, a, b, p, rfl, hx, he, hcb, ha, hp, hpc, hb, rfl, rfl⟩
  | _ => cases h

/-- The session that a close callback names is the one whose handle ended. -/
theorem Owners.inCloseCb (ho : Owners s) (hlt : s.accepted.length < 2 ^ 31) {cb : ℤ × ℕ}
    (h : s.closeCb l = some (cb, u)) : ∃ c x a p, l = .handleClosed c ∧ InCloseCb s c x a p
      ∧ cb = (x.clientid, a) ∧ u = s.ended c x a a := by
  obtain ⟨c, x, a, b, p, rfl, hx, he, hcb, ha, hp, rfl, hb, rfl, rfl⟩ := closeCb_cases h
  have hmap := (ho.full hlt).mapped a p x hp hx
  obtain rfl := Option.some.inj (hb.symm.trans hmap)
  exact ⟨_, x, b, p, rfl, ⟨hx, he, hcb, ha, hp, rfl, hb⟩, rfl, rfl⟩

/-- A handle that has ended takes no writes. -/
theorem InCloseCb.writable (h : InCloseCb s c x a p) (ha : Answering s) :
    x.sessionTcpHandle.writable = false := by
  have hopen := ha.opens a p x h.session (h.clientSessionCtx ▸ h.ctx)
  by_contra hw
  have hno := hopen (by simpa using hw)
  simp [UvTcp.isClosing_of_ends _ h.ends] at hno

/-! ## Calls on a server in the callback -/

theorem session_ended : (s.ended c x a a).sessions.cells d
    = if d = a then (s.sessions.cells d).map fun p => { p with isclosed := true }
      else s.sessions.cells d := rfl

theorem takeParam_ended : (s.ended c x a a).takeParam
    = (s.takeParam.1, s.takeParam.2.ended c x a a) := by
  have hsame : (s.ended c x a a).writeparamList = s.writeparamList := rfl
  unfold takeParam
  rw [hsame]
  rcases s.writeparamList with _ | ⟨w, rest⟩ <;> rfl

/-- In the callback `sendinl` does what it did before. -/
theorem sendinl_ended (hx : s.ctxs.cells c = some x) (hw : x.sessionTcpHandle.writable = false)
    (buff : List UInt8) (d : ℕ) (res : ℤ) : (s.ended c x a a).sendinl buff d res
      = (s.sendinl buff d res).map fun r => (r.1, r.2.ended c x a a) := by
  have hctxs := takeParam_ctxs s
  unfold sendinl
  rw [takeParam_ended]
  rcases htake : s.takeParam with ⟨w, t⟩
  rw [htake] at hctxs
  dsimp only at hctxs ⊢
  have hparam : (t.ended c x a a).param w = t.param w := rfl
  rw [hparam]
  rcases t.param w with f | q
  · rfl
  simp only [bind, Except.bind]
  rcases memcpy (q.buf.reserve (toU32 buff.length)).base 0 buff with f | base
  · rfl
  dsimp only
  by_cases hdc : d = c
  · subst hdc
    have hclosed : (t.ended d x a a).ctx d
        = .ok { x with sessionTcpHandle := x.sessionTcpHandle.finish } :=
      ctx_of_cells (cells_ended (hctxs ▸ hx))
    rw [hclosed, ctx_of_cells (hctxs ▸ hx)]
    have hfails : ∀ h : UvTcp ℕ, h.writable = false → h.write w res = (uvEpipe, h) :=
      fun h hw => by simp [UvTcp.write, hw]
    simp only [hfails x.sessionTcpHandle hw, hfails x.sessionTcpHandle.finish hw]
    rfl
  · have hctx : (t.ended c x a a).ctx d = t.ctx d := by
      unfold ctx
      rw [show (t.ended c x a a).ctxs.cells d = t.ctxs.cells d from
        Heap.cells_modify.trans (if_neg hdc)]
    rw [hctx]
    rcases t.ctx d with f | y
    · rfl
    dsimp only
    split_ifs
    · rfl
    · simp only [setCtx, ended, report, Heap.modify_comm (Ne.symm hdc)]
      rfl

/-- What a call leaves of the context whose handle ended, and of its session. -/
theorem InCloseCb.sendinl (h : InCloseCb s c x a p) (hw : x.sessionTcpHandle.writable = false)
    {buff : List UInt8} {res : ℤ} {b : Bool} (hs : s.sendinl buff d res = .ok (b, v)) :
    InCloseCb v c x a p ∧ v.draining = s.draining := by
  have hframe := frame_sendinl hs
  obtain ⟨w, t, q, base, y, htake, -, -, hy, hout⟩ := sendinl_spec hs
  obtain rfl : t = s.takeParam.2 := by rw [htake]
  have hctxs := takeParam_ctxs s
  have hdraining : s.takeParam.2.draining = s.draining := by
    unfold takeParam
    split <;> rfl
  rcases hout with ⟨-, rfl⟩ | ⟨-, hopen, rfl⟩
  · exact ⟨h.congr (congrArg (Heap.cells · c) hctxs) hframe.sessions hframe.map, hdraining⟩
  · refine ⟨h.congr ?_ hframe.sessions hframe.map, hdraining⟩
    refine (cells_setCtx hy _ c).trans ?_
    rw [if_neg, hctxs]
    rintro rfl
    obtain rfl := Option.some.inj (h.ctx.symm.trans (hctxs ▸ hy))
    simp [hw] at hopen

/-- `Close` and `ShutDown` of a session ask for nothing in its own close callback. -/
theorem InCloseCb.request (h : InCloseCb s c x a p) (type : UvEventType)
    {f : CTcpServer → Except CallFault CTcpServer}
    (hf : ∀ v : CTcpServer, f v = (v.session d).map fun q =>
      if q.isclosed then v else CTcpClientSession.request v d type) (hlive : s.sessions.Live d) :
    f (s.ended c x a a) = .ok (s.ended c x a a)
      ∨ f (s.ended c x a a) = (f s).map (·.ended c x a a)
        ∧ ∀ v, f s = .ok v → InCloseCb v c x a p ∧ v.draining = s.draining := by
  obtain ⟨q, hq⟩ := hlive.cells
  rw [hf, hf, session_of_cells hq]
  by_cases hda : d = a
  · have hclosed : (s.ended c x a a).session d = .ok { q with isclosed := true } :=
      session_of_cells (by rw [session_ended, if_pos hda, hq]; rfl)
    rw [hclosed]
    exact .inl rfl
  · have hsame : (s.ended c x a a).session d = .ok q :=
      session_of_cells (by rw [session_ended, if_neg hda, hq])
    rw [hsame]
    refine .inr ⟨?_, fun v hv => ?_⟩
    · simp only [Except.map]
      split_ifs <;> rfl
    · obtain rfl := Except.ok.inj hv
      dsimp only
      split_ifs
      · exact ⟨h, rfl⟩
      · exact ⟨h.congr rfl rfl rfl, rfl⟩

theorem InCloseCb.send (h : InCloseCb s c x a p) (ha : Answering s) (buff : List UInt8) (res : ℤ)
    (hlive : s.sessions.Live d) :
    CTcpClientSession.send (s.ended c x a a) d buff res
        = (CTcpClientSession.send s d buff res).map (·.ended c x a a)
      ∧ ∀ v, CTcpClientSession.send s d buff res = .ok v →
        InCloseCb v c x a p ∧ v.draining = s.draining := by
  have hw := h.writable ha
  obtain ⟨q, hq⟩ := hlive.cells
  obtain ⟨q', hq', hqc⟩ : ∃ q', (s.ended c x a a).session d = .ok q'
      ∧ q'.clientSessionCtx = q.clientSessionCtx := by
    obtain ⟨q', hq', hqc⟩ := cells_markClosed a hq
    exact ⟨q', session_of_cells hq', hqc⟩
  simp only [CTcpClientSession.send, session_of_cells hq, hq', bind, Except.bind, hqc,
    sendinl_ended h.ctx hw]
  rcases hs : s.sendinl buff q.clientSessionCtx res with f | ⟨b, t⟩
  · exact ⟨rfl, fun v hv => nomatch hv⟩
  · refine ⟨rfl, fun v hv => ?_⟩
    obtain rfl := Except.ok.inj hv
    exact h.sendinl hw hs

/-- A call in the callback does nothing, or what it had done before. -/
theorem InCloseCb.act (h : InCloseCb s c x a p) (ha : Answering s) (hl : l.isCall = true)
    {r : Except CallFault CTcpServer} (hr : (s.ended c x a a).act l = some r) :
    r = .ok (s.ended c x a a) ∨ ∃ r', s.act l = some r' ∧ r = r'.map (·.ended c x a a)
      ∧ ∀ v, r' = .ok v → InCloseCb v c x a p ∧ v.draining = s.draining := by
  have hlive : ∀ d, (s.ended c x a a).sessions.Live d → s.sessions.Live d :=
    fun _ => Heap.live_modify.1
  cases l with
  | close d =>
    obtain ⟨hd, rfl⟩ : _ ∧ _ = r := by simpa [CTcpServer.act] using hr
    have hreq := h.request .close (f := fun v => CTcpClientSession.close v d) (fun v => by
      unfold CTcpClientSession.close
      rcases v.session d <;> rfl) (hlive d hd)
    exact hreq.imp_right fun hk => ⟨_, if_pos (hlive d hd), hk⟩
  | shutDown d =>
    obtain ⟨hd, rfl⟩ : _ ∧ _ = r := by simpa [CTcpServer.act] using hr
    have hreq := h.request .shutdown (f := fun v => CTcpClientSession.shutDown v d) (fun v => by
      unfold CTcpClientSession.shutDown
      rcases v.session d <;> rfl) (hlive d hd)
    exact hreq.imp_right fun hk => ⟨_, if_pos (hlive d hd), hk⟩
  | send d buff res =>
    obtain ⟨hd, rfl⟩ : _ ∧ _ = r := by simpa [CTcpServer.act] using hr
    exact .inr ⟨_, if_pos (hlive d hd), h.send ha buff res (hlive d hd)⟩
  | broadcast senddata excludeid =>
    obtain rfl := Option.some.inj hr
    refine .inr ⟨_, rfl, rfl, fun v hv => ?_⟩
    obtain rfl := Except.ok.inj hv
    exact ⟨h.congr rfl rfl rfl, rfl⟩
  | _ => cases hl

theorem handleClose_of_mapped {id : ℤ} (h : s.clientSessionMap[id]? = some a) :
    s.cTcpClientSessionHandleClose id = (s.report [.close id a]).deleteSession id a := by
  unfold cTcpClientSessionHandleClose
  rw [h]

theorem InCloseCb.afterClientClose_eq (h : InCloseCb s c x a p) :
    CTcpClientSession.afterClientClose (s.setCtx c { x with
        sessionTcpHandle := x.sessionTcpHandle.finish }) c x
      = (s.ended c x a a).deleteSession x.clientid a := by
  have hfollow : (s.setCtx c { x with
      sessionTcpHandle := x.sessionTcpHandle.finish }).follow x.handleData = .ok (a, p) :=
    follow_of_cells h.handleData h.session
  unfold CTcpClientSession.afterClientClose
  rw [hfollow]
  refine (if_pos h.clientSessionCtx).trans ?_
  exact handleClose_of_mapped h.mapped

/-- `CTcpClientSessionHandleClose` deletes the session once the callback returns. -/
theorem InCloseCb.deleteSession (h : InCloseCb s c x a p) (hf : s.fault = none)
    (hd : s.draining = false) : ∃ v, (s.ended c x a a).deleteSession x.clientid a = .ok v
      ∧ step s (.handleClosed c) = some v := by
  have hctx := cells_ended (a := a) (b := a) h.ctx
  have hsession : (s.ended c x a a).session a = .ok { p with isclosed := true } :=
    session_of_cells (by rw [session_ended, if_pos rfl, h.session]; rfl)
  obtain ⟨t, ht⟩ : ∃ t, (s.ended c x a a).recycle c = .ok t := by
    unfold recycle freeTcpSessionCtx
    rw [ctx_of_cells hctx]
    split_ifs
    · exact ⟨_, rfl⟩
    · exact ⟨_, rfl⟩
  have hdelete : (s.ended c x a a).deleteSession x.clientid a = .ok { t with
      sessions := t.sessions.free a
      clientSessionMap := t.clientSessionMap.erase x.clientid } := by
    simp only [CTcpServer.deleteSession, hsession, bind, Except.bind, h.clientSessionCtx, ht,
      if_true]
    rfl
  refine ⟨_, hdelete, ?_⟩
  have hact : s.act (.handleClosed c) = some ((s.ended c x a a).deleteSession x.clientid a) := by
    refine (congrArg (Option.bind · _) h.ctx).trans ?_
    rw [Option.bind_some, if_pos h.ends]
    exact congrArg some ((if_pos h.afterClientClose).trans h.afterClientClose_eq)
  rw [hdelete] at hact
  rw [step_eq_act hf hd (by simp), hact]
  rfl

theorem accepted_deleteSession {id : ℤ} :
    (s.settle (s.deleteSession id a)).accepted = s.accepted := by
  rcases hd : s.deleteSession id a with f | v
  · rfl
  · obtain ⟨p, -, hd⟩ := bind_eq_ok hd
    obtain ⟨t, ht, hd⟩ := bind_eq_ok hd
    split_ifs at hd
    obtain rfl := Except.ok.inj hd
    rcases recycle_cases ht with ⟨-, rfl⟩ | ⟨rfl, -⟩ <;> rfl

/-! ## The server with its close callbacks -/

/-- The server between the callbacks, or in the close callback of a session. -/
inductive Refines (t : CTcpServer) : CTcpServerCb → Prop
  | outside : Refines t ⟨t, none⟩
  | inside {c : ℕ} {x : TcpSessionCtx} {a : ℕ} {p : CTcpClientSession} : InCloseCb t c x a p →
      t.draining = false → Refines t ⟨t.ended c x a a, some (x.clientid, a)⟩

end CTcpServer

namespace CTcpServerCb

open CTcpServer (Refines InCloseCb Attentive Told story)

variable {s s' : CTcpServerCb} {t : CTcpServer} {l : Label} {packhead : UInt32}

/-- A step of the server outside the close callback, or a call in it. -/
theorem step_server {l : CTcpServer.Label} (hs : step s (.server l) = some s') :
    (s.inCloseCb = none ∨ l.isCall = true) ∧ ∃ u, s.server.step l = some u ∧
      ((∃ cb v, s.server.closeCb l = some (cb, v) ∧ s' = ⟨v, some cb⟩)
        ∨ s.server.closeCb l = none ∧ s' = { s with server := u }) := by
  simp only [step, Option.ite_none_left_eq_some, Option.map_eq_some_iff] at hs
  obtain ⟨hcall, u, hu, rfl⟩ := hs
  refine ⟨?_, u, hu, ?_⟩
  · rcases hin : s.inCloseCb with _ | cb
    · exact .inl rfl
    · exact .inr (by simpa [hin] using hcall)
  · rcases hcb : s.server.closeCb l with _ | ⟨cb, v⟩
    · exact .inr ⟨rfl, rfl⟩
    · exact .inl ⟨cb, v, rfl, rfl⟩

theorem step_closeCbReturns (hs : step s .closeCbReturns = some s') : s.server.fault = none
    ∧ ∃ id a, s.inCloseCb = some (id, a)
      ∧ s' = ⟨s.server.settle (s.server.deleteSession id a), none⟩ := by
  unfold step at hs
  split_ifs at hs with hf
  refine ⟨by simpa using hf, ?_⟩
  rcases hin : s.inCloseCb with _ | ⟨id, a⟩ <;> rw [hin] at hs
  · cases hs
  · exact ⟨id, a, rfl, (Option.some.inj hs).symm⟩

theorem closeCb_of_isCall {l : CTcpServer.Label} (hl : l.isCall = true) : t.closeCb l = none := by
  cases l <;> first | rfl | cases hl

theorem accepted_closeCb {l : CTcpServer.Label} {cb : ℤ × ℕ} {v : CTcpServer}
    (h : t.closeCb l = some (cb, v)) : v.accepted = t.accepted := by
  obtain ⟨c, x, a, b, p, -, -, -, -, -, -, -, -, -, rfl⟩ := CTcpServer.closeCb_cases h
  rfl

theorem accepted_step (hs : step s l = some s') :
    s.server.accepted.length ≤ s'.server.accepted.length := by
  cases l with
  | server l =>
    obtain ⟨-, u, hu, ⟨cb, v, hcb, rfl⟩ | ⟨-, rfl⟩⟩ := step_server hs
    · exact (congrArg List.length (accepted_closeCb hcb)).ge
    · exact CTcpServer.accepted_step hu
  | closeCbReturns =>
    obtain ⟨-, id, a, -, rfl⟩ := step_closeCbReturns hs
    exact (congrArg List.length CTcpServer.accepted_deleteSession).ge

/-- A step is one of the server's, or the report of a close, or a call that does nothing. -/
theorem refines_step (ha : t.Attentive) (h : t.Refines s) (hs : step s l = some s')
    (hlt : s.server.accepted.length < 2 ^ 31) :
    ∃ bs t', run CTcpServer.step t bs = some t' ∧ t'.Refines s' := by
  cases h with
  | outside =>
    cases l with
    | server l =>
      obtain ⟨-, u, hu, ⟨cb, v, hcb, rfl⟩ | ⟨-, rfl⟩⟩ := step_server hs
      · obtain ⟨c, x, a, p, rfl, hin, rfl, rfl⟩ := ha.owners.inCloseCb hlt hcb
        exact ⟨[], t, rfl, .inside hin (CTcpServer.draining_of_step hu (by simp))⟩
      · exact ⟨[l], u, run_cons_eq_some.2 ⟨u, hu, rfl⟩, .outside⟩
    | closeCbReturns =>
      obtain ⟨-, id, a, hno, -⟩ := step_closeCbReturns hs
      cases hno
  | @inside c x a p hin hd =>
    cases l with
    | server l =>
      obtain ⟨hcall, u, hu, ⟨cb, v, hcb, -⟩ | ⟨-, rfl⟩⟩ := step_server hs
      · rw [closeCb_of_isCall (hcall.resolve_left (by simp))] at hcb
        cases hcb
      · have hcall := hcall.resolve_left (by simp)
        have hf : (t.ended c x a a).fault = none := CTcpServer.fault_of_step hu
        have hl : ∀ res, l ≠ .asyncEvent res := by
          rintro res rfl
          cases hcall
        obtain ⟨r, hr, rfl⟩ := CTcpServer.step_act hu hl
        rcases hin.act ha.answering hcall hr with rfl | ⟨r', hr', rfl, hkept⟩
        · exact ⟨[], t, rfl, .inside hin hd⟩
        · have hstep : CTcpServer.step t l = some (t.settle r') := by
            rw [CTcpServer.step_eq_act (s := t) hf hd hl, hr', Option.map_some]
          refine ⟨[l], t.settle r', run_cons_eq_some.2 ⟨_, hstep, rfl⟩, ?_⟩
          rcases r' with f | v
          · exact .inside (hin.congr rfl rfl rfl) hd
          · exact .inside (hkept v rfl).1 ((hkept v rfl).2.trans hd)
    | closeCbReturns =>
      obtain ⟨hf, id, b, hid, rfl⟩ := step_closeCbReturns hs
      obtain ⟨rfl, rfl⟩ := Prod.mk.inj (Option.some.inj hid)
      obtain ⟨v, hv, hstep⟩ := hin.deleteSession hf hd
      refine ⟨[.handleClosed c], v, run_cons_eq_some.2 ⟨v, hstep, rfl⟩, ?_⟩
      dsimp only
      rw [hv]
      exact .outside

/-- Behind every run the server is where a run without calls in close callbacks leads, or in a close
callback that it makes from there. -/
theorem refines_of_run {as : List Label} (hr : run step (started packhead) as = some s)
    (hlt : s.server.accepted.length < 2 ^ 31) :
    ∃ bs t, run CTcpServer.step (.started packhead) bs = some t ∧ t.Refines s := by
  refine invariant (I := fun s : CTcpServerCb => s.server.accepted.length < 2 ^ 31 →
      ∃ bs t, run CTcpServer.step (.started packhead) bs = some t ∧ t.Refines s)
    (fun s l s' ih hs hlt' => ?_) (fun _ => ⟨[], _, rfl, .outside⟩) hr hlt
  have hlt := (accepted_step hs).trans_lt hlt'
  obtain ⟨bs, t, ht, href⟩ := ih hlt
  obtain ⟨cs, t', ht', href'⟩ := refines_step (CTcpServer.attentive_run ht) href hs hlt
  exact ⟨bs ++ cs, t', run_append_eq_some.2 ⟨t, ht, ht'⟩, href'⟩

/-- A session that is there was told of its packets, and in its close callback of its close as well;
the map has it under its id. -/
structure Protocol (s : CTcpServerCb) : Prop extends Told s.server where
  opened : ∀ a, s.server.sessions.Live a → ∃ id packets,
    s.server.callbacksOf a = story id a packets
        ++ (if s.inCloseCb = some (id, a) then [.close id a] else [])
      ∧ s.server.clientSessionMap[id]? = some a
  running : ∀ id a, s.inCloseCb = some (id, a) →
    s.server.sessions.Live a ∧ .newConn id a ∈ s.server.callbacks

theorem protocol_of_refines (ho : t.Owners) (hp : t.Protocol) (h : t.Refines s) : s.Protocol := by
  cases h with
  | outside =>
    exact ⟨hp.toTold, fun a ha => by simpa using hp.opened a ha, fun _ _ h => nomatch h⟩
  | @inside c x a p hin hd =>
    have hlive : t.sessions.Live a := Heap.live_of_cells hin.session
    have hid : ∀ id : ℤ, t.clientSessionMap[id]? = some a → id = x.clientid := fun id hid => by
      obtain ⟨p', x', hm⟩ := ho.owned.mapped id a hid
      exact hm.of_handle hin.session hin.clientSessionCtx hin.ctx
    have hc : CTcpServer.Closes t (t.ended c x a a) x.clientid a := ⟨hin.mapped, rfl, rfl⟩
    obtain ⟨packets, hstory, hself⟩ := hc.self hp hlive hid
    refine ⟨hc.told hp hlive hid rfl fun b _ => Heap.live_modify, fun b hb => ?_, ?_⟩
    · by_cases hba : b = a
      · subst hba
        exact ⟨x.clientid, packets, by rw [hself, if_pos rfl], hin.mapped⟩
      · obtain ⟨id, old, hold, hmap⟩ := hp.opened b (Heap.live_modify.1 hb)
        refine ⟨id, old, ?_, hmap⟩
        rw [hc.other hba, hold, if_neg, List.append_nil]
        rintro heq
        exact hba (Prod.mk.inj (Option.some.inj heq)).2.symm
    · rintro id b heq
      obtain ⟨rfl, rfl⟩ := Prod.mk.inj (Option.some.inj heq)
      refine ⟨Heap.live_modify.2 hlive, List.mem_append_left _ ?_⟩
      have hmem : .newConn x.clientid a ∈ t.callbacksOf a := by
        rw [hstory]
        exact List.mem_cons_self
      exact (CTcpServer.mem_callbacksOf.1 hmem).1

/-- In every run with fewer than `2 ^ 31` accepted connections the callbacks of a session are its
report, the packets it was handed and, last and once, its close, and the map has it under its id
until the close callback returns. -/
theorem session_protocol {as : List Label} (hr : run step (started packhead) as = some s)
    (hlt : s.server.accepted.length < 2 ^ 31) : Protocol s := by
  obtain ⟨bs, t, ht, href⟩ := refines_of_run hr hlt
  have hacc : t.accepted = s.server.accepted := by
    cases href <;> rfl
  have howners := (CTcpServer.attentive_run ht).owners
  exact protocol_of_refines howners (CTcpServer.protocol_of_run ht (hacc ▸ hlt)) href

/-- The close callback of the first session broadcasts, closes the session again and shuts it
down. -/
def callsBack : List Label :=
  CTcpServer.closeOnce.map .server ++ [.server (.broadcast [1] []), .server (.close 0),
    .server (.shutDown 0), .closeCbReturns, .server (.acceptConnection 0 ⟨0, 0, 0⟩)]

theorem session_protocol_callsBack : ∃ s, run step (started defPackHeadFlag) callsBack = some s
    ∧ s.server.callbacks = [.newConn 1 0, .close 1 0, .newConn 2 1] ∧ Protocol s := by
  obtain ⟨s, hs⟩ := Option.isSome_iff_exists.1
    (show (run step (started defPackHeadFlag) callsBack).isSome from rfl)
  have hsome : (run step (started defPackHeadFlag) callsBack).map
      (fun s => (s.server.accepted.length, s.server.callbacks))
      = some (2, [.newConn 1 0, .close 1 0, .newConn 2 1]) := rfl
  rw [hs, Option.map_some, Option.some.injEq, Prod.mk.injEq] at hsome
  exact ⟨s, hs, hsome.2, session_protocol hs (by omega)⟩

end CTcpServerCb

end TestLibuv
