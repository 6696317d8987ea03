import TestLibuv.Proofs.ContextOwnership

/-!
# Contexts at rest

A context goes onto the idle list with its handle as it is. It is at rest if the handle was never
initialised or its close is complete: so it is after a session's close callback, and after a
`uv_tcp_init` that failed, but not behind a `uv_accept` or a `uv_read_start` that failed.
-/

namespace TestLibuv

open CMem Runs

/-- The faults behind which no context was given away with its handle in use. -/
def CallFault.Mild : CallFault → Prop
  | .handleFreed _ | .destructorWaits _ => False
  | _ => True

/-- A call that fails mildly, if it fails. -/
def FailsMildly {α : Type} (r : Except CallFault α) : Prop := ∀ f, r = .error f → f.Mild

section FailsMildly

variable {α β : Type}

theorem failsMildly_ok (a : α) : FailsMildly (.ok a) := fun _ h => by cases h

theorem failsMildly_error {f : CallFault} (hf : f.Mild) :
    FailsMildly (.error f : Except CallFault α) := fun g h => by
  obtain rfl := Except.error.inj h
  exact hf

theorem FailsMildly.bind {x : Except CallFault α} {k : α → Except CallFault β}
    (hx : FailsMildly x) (hk : ∀ a, FailsMildly (k a)) : FailsMildly (x >>= k) := by
  rcases x with f | a
  · exact failsMildly_error (hx f rfl)
  · exact hk a

end FailsMildly

/-- A handle that is not registered with the loop. -/
def UvPhase.AtRest : UvPhase → Prop
  | .blank | .closed => True
  | .active | .closing | .reclosing => False

namespace CTcpServer

variable {s s' t : CTcpServer} {l : Label} {c : ℕ}

theorem failsMildly_ctx (s : CTcpServer) (c : ℕ) : FailsMildly (s.ctx c) := by
  unfold ctx
  split
  · exact failsMildly_ok _
  · exact failsMildly_error trivial

theorem failsMildly_session (s : CTcpServer) (a : ℕ) : FailsMildly (s.session a) := by
  unfold session
  split
  · exact failsMildly_ok _
  · exact failsMildly_error trivial

theorem failsMildly_param (s : CTcpServer) (w : ℕ) : FailsMildly (s.param w) := by
  unfold param
  split
  · exact failsMildly_ok _
  · exact failsMildly_error trivial

theorem failsMildly_follow (s : CTcpServer) (a : Option ℕ) : FailsMildly (s.follow a) := by
  unfold follow
  rcases a with _ | a
  · exact failsMildly_error trivial
  · exact (failsMildly_session s a).bind fun _ => failsMildly_ok _

theorem failsMildly_sendinl (s : CTcpServer) (buff : List UInt8) (c : ℕ) (res : ℤ) :
    FailsMildly (s.sendinl buff c res) := by
  unfold sendinl
  refine (failsMildly_param _ _).bind fun p => ?_
  dsimp only
  split
  · exact failsMildly_error trivial
  · refine (failsMildly_ctx _ _).bind fun x => ?_
    split_ifs <;> exact failsMildly_ok _

theorem failsMildly_broadcastLoop (buff : List UInt8) : ∀ (m : List (ℤ × ℕ)) (ex res : List ℤ)
    (s : CTcpServer), FailsMildly (broadcastLoop buff m ex res s)
  | [], _, _, _ => failsMildly_ok _
  | (id, a) :: m, ex, res, s => by
    unfold broadcastLoop
    split_ifs
    · exact failsMildly_broadcastLoop buff m _ res s
    · exact (failsMildly_session s a).bind fun p =>
        (failsMildly_sendinl s buff p.clientSessionCtx _).bind fun r =>
          failsMildly_broadcastLoop buff m ex res.tail r.2

theorem failsMildly_closeinl (s : CTcpServer) (a : ℕ) :
    FailsMildly (CTcpClientSession.closeinl s a) :=
  (failsMildly_session s a).bind fun _ => (failsMildly_ctx s _).bind fun _ => failsMildly_ok _

theorem failsMildly_dispatch (s : CTcpServer) (e : UvEvent ServerObj) (res : List ℤ) :
    FailsMildly (s.dispatch e res) := by
  unfold dispatch
  split
  · unfold doEvent
    split
    · exact failsMildly_broadcastLoop _ _ _ _ s
    · exact failsMildly_ok _
  · unfold CTcpClientSession.doEvent
    split
    · exact failsMildly_closeinl s _
    · exact (failsMildly_session s _).bind fun _ =>
        (failsMildly_ctx s _).bind fun _ => failsMildly_ok _
    · exact failsMildly_ok _
  · exact failsMildly_error trivial

theorem failsMildly_close (s : CTcpServer) (a : ℕ) : FailsMildly (CTcpClientSession.close s a) :=
  (failsMildly_session s a).bind fun _ => failsMildly_ok _

theorem failsMildly_afterRecv (s : CTcpServer) (x : TcpSessionCtx) (data : List UInt8) :
    FailsMildly (CTcpClientSession.afterRecv s x data) := by
  refine (failsMildly_follow s _).bind fun r => (failsMildly_ctx s _).bind fun y => ?_
  split_ifs
  · exact failsMildly_ok _
  · split
    · exact failsMildly_error trivial
    · exact failsMildly_error trivial
    · exact failsMildly_ok _

theorem failsMildly_walk : ∀ (n c : ℕ) (s : CTcpServer), FailsMildly (walk c n s)
  | 0, _, _ => failsMildly_ok _
  | n + 1, c, s => by
    unfold walk
    split
    · exact failsMildly_walk n (c + 1) s
    · split
      · exact failsMildly_walk n (c + 1) s
      · exact failsMildly_walk n (c + 1) s
      · exact failsMildly_walk n (c + 1) s
      · exact (failsMildly_follow s _).bind fun _ => failsMildly_walk n (c + 1) _
      · exact (failsMildly_follow s _).bind fun _ => failsMildly_walk n (c + 1) _

/-- Only the two callbacks that recycle contexts fail otherwise. -/
theorem failsMildly_act {r : Except CallFault CTcpServer} (h : s.act l = some r)
    (hrecycle : (∀ status r, l ≠ .acceptConnection status r) ∧ ∀ c, l ≠ .handleClosed c) :
    FailsMildly r := by
  cases l with
  | acceptConnection status r => exact absurd rfl (hrecycle.1 status r)
  | handleClosed c => exact absurd rfl (hrecycle.2 c)
  | asyncEvent res => simp [act] at h
  | close a | shutDown a =>
    simp only [act, Option.ite_none_right_eq_some, Option.some.injEq] at h
    rw [← h.2]
    exact (failsMildly_session s a).bind fun _ => failsMildly_ok _
  | send a buff res =>
    simp only [act, Option.ite_none_right_eq_some, Option.some.injEq] at h
    rw [← h.2]
    exact (failsMildly_session s a).bind fun p =>
      (failsMildly_sendinl s buff p.clientSessionCtx res).bind fun _ => failsMildly_ok _
  | broadcast senddata excludeid =>
    simp only [act, Option.some.injEq] at h
    exact h ▸ failsMildly_ok _
  | afterRecv c data =>
    obtain ⟨x, -, h⟩ := Option.bind_eq_some_iff.1 h
    split_ifs at h
    exact Option.some.inj h ▸ failsMildly_afterRecv s x data
  | afterRecvError c nread =>
    obtain ⟨x, -, h⟩ := Option.bind_eq_some_iff.1 h
    split_ifs at h
    rw [← Option.some.inj h]
    exact (failsMildly_follow _ _).bind fun _ => (failsMildly_ctx _ _).bind fun _ =>
      (failsMildly_follow _ _).bind fun _ => failsMildly_close _ _
  | afterSend c i =>
    obtain ⟨x, -, h⟩ := Option.bind_eq_some_iff.1 h
    obtain ⟨w, -, rfl⟩ := Option.map_eq_some_iff.1 h
    exact (failsMildly_param _ w).bind fun _ => (failsMildly_follow _ _).bind fun _ =>
      (failsMildly_ctx _ _).bind fun _ => failsMildly_ok _
  | afterShutDown c =>
    obtain ⟨x, -, h⟩ := Option.bind_eq_some_iff.1 h
    split_ifs at h
    obtain ⟨a, -, rfl⟩ := Option.map_eq_some_iff.1 h
    exact failsMildly_closeinl _ a
  | asyncCB =>
    simp only [act, Option.some.injEq] at h
    exact h ▸ failsMildly_walk _ 0 _
  | afterServerClose =>
    simp only [act, Option.ite_none_right_eq_some, Option.some.injEq] at h
    exact h.2 ▸ failsMildly_ok _

/-- The handles of the contexts on the list are not registered with the loop, nor was any that
`uv_tcp_init` was given. Neither was a context freed with its handle registered, nor is a destructor
waiting for the handle of a context that was just recycled. -/
structure Rested (s : CTcpServer) : Prop where
  idle : ∀ c ∈ s.idleTcpClientCtxList, ∀ x, s.ctxs.cells c = some x →
    x.sessionTcpHandle.phase.AtRest
  inits : ∀ phase ∈ s.inits, phase.AtRest
  freed : ∀ c, s.fault ≠ some (.inCall (.handleFreed c))
  waits : ∀ a, s.fault ≠ some (.inCall (.destructorWaits a))

/-- A connection taken on an initialised handle gets its session, and a close callback finds no
other session under the id of its own. -/
def Undisturbed (s : CTcpServer) : Label → Prop
  | .acceptConnection status r =>
    status = 0 → r.tcpInit = 0 → r.accept = 0 ∧ r.readStart = 0
  | .handleClosed c => ∀ x a b, s.ctxs.cells c = some x → x.afterClientClose = true →
    x.handleData = some a → s.clientSessionMap[x.clientid]? = some b → b = a
  | _ => True

theorem Rested.of_fault (h : Rested s) (fault : Option ServerFault)
    (hmild : ∀ f, fault = some (.inCall f) → f.Mild) : Rested { s with fault } where
  idle := h.idle
  inits := h.inits
  freed _ hf := hmild _ hf
  waits _ hf := hmild _ hf

theorem Rested.of_eq (h : Rested s) (hidle : s'.idleTcpClientCtxList = s.idleTcpClientCtxList)
    (hctxs : s'.ctxs = s.ctxs) (hinits : s'.inits = s.inits) (hfault : s'.fault = s.fault) :
    Rested s' where
  idle c hc x hx := h.idle c (hidle ▸ hc) x (hctxs ▸ hx)
  inits := hinits ▸ h.inits
  freed c := hfault ▸ h.freed c
  waits a := hfault ▸ h.waits a

theorem Rested.move (h : Rested s) (ht : Tied s) (hm : Move s l s') : Rested s' where
  idle c hc x' hx' := by
    have hf := hm.frame
    rw [hf.idle] at hc
    obtain ⟨x, hx, hphased⟩ := hm.phased hx'
    have hrest := h.idle c hc x hx
    cases hphased with
    | same hphase _ => exact hphase ▸ hrest
    | closes hp hpc _ _ _ => exact absurd hc (ht.owner hx hp hpc).2.2
    | ended _ hphase => exact hphase ▸ trivial
  inits := hm.frame.inits ▸ h.inits
  freed c := hm.frame.fault ▸ h.freed c
  waits a := hm.frame.fault ▸ h.waits a

theorem Rested.moves (h : Rested s) (ht : Tied s) (hm : Moves l s s') : Rested s' := by
  induction hm with
  | refl => exact h
  | tail hms hm ih => exact ih.move (ht.moves hms) hm

/-- The context that `AcceptConnection` takes is at rest, and the others on the list still are. -/
theorem Rested.takeCtx (h : Rested s) (ho : Owned s) (ht : s.takeCtx = (c, t)) {x : TcpSessionCtx}
    (hx : t.ctxs.cells c = some x) : Rested t ∧ x.sessionTcpHandle.phase.AtRest := by
  rcases takeCtx_cases ht with ⟨hi, rfl, rfl⟩ | ⟨rest, hi, rfl⟩
  · refine ⟨⟨fun d hd => ?_, h.inits, h.freed, h.waits⟩, ?_⟩
    · simp [hi] at hd
    · rw [Heap.cells_alloc, if_pos rfl, Option.some.injEq] at hx
      exact hx ▸ trivial
  · have hnd := ho.idle_nodup
    rw [hi, List.nodup_cons] at hnd
    refine ⟨⟨fun d hd y hy => ?_, h.inits, h.freed, h.waits⟩, ?_⟩
    · have hdc : d ≠ c := fun hdc => hnd.1 (hdc ▸ hd)
      rw [Heap.cells_modify, if_neg hdc] at hy
      exact h.idle d (by simp [hi, hd]) y hy
    · rw [Heap.cells_modify, if_pos rfl] at hx
      obtain ⟨y, hy, rfl⟩ := Option.map_eq_some_iff.1 hx
      exact h.idle c (by simp [hi]) y hy

/-- A context put on the list at rest. -/
theorem Rested.pushIdle (h : Rested s)
    (hc : ∀ x, s.ctxs.cells c = some x → x.sessionTcpHandle.phase.AtRest) (errmsg : ErrMsg)
    (conns : ℕ) : Rested { s with
      idleTcpClientCtxList := s.idleTcpClientCtxList ++ [c], errmsg, conns } where
  idle d hd x hx := by
    rcases List.mem_append.1 hd with hd | hd
    · exact h.idle d hd x hx
    · exact hc x (List.mem_singleton.1 hd ▸ hx)
  inits := h.inits
  freed := h.freed
  waits := h.waits

theorem Rested.newSession (h : Rested s) (hc : Spare s c) {y : TcpSessionCtx}
    (hy : s.ctxs.cells c = some y) (hrest : y.sessionTcpHandle.phase.AtRest) (x : TcpSessionCtx)
    (conn conns : ℕ) : Rested ({ s with
      inits := s.inits ++ [y.sessionTcpHandle.phase], conns }.newSession c x conn) where
  idle d hd z hz := by
    have hz' := cells_setCtx hy _ d ▸ hz
    have hdc : d ≠ c := fun hdc => hc.notIdle (hdc ▸ hd)
    rw [if_neg hdc] at hz'
    exact h.idle d hd z hz'
  inits phase hphase := by
    rcases List.mem_append.1 hphase with hphase | hphase
    · exact h.inits phase hphase
    · exact List.mem_singleton.1 hphase ▸ hrest
  freed := h.freed
  waits := h.waits

theorem Rested.setPacket (h : Rested s) {y : TcpSessionCtx} (hy : s.ctxs.cells c = some y)
    (packet : PacketSync) : Rested (s.setCtx c { y with packet }) where
  idle d hd z hz := by
    rw [cells_setCtx hy] at hz
    split_ifs at hz with hdc
    · obtain rfl := Option.some.inj hz
      exact h.idle d hd y (hdc ▸ hy)
    · exact h.idle d hd z hz
  inits := h.inits
  freed := h.freed
  waits := h.waits

theorem Rested.deleteSession (h : Rested s) {v : CTcpServer} {x : TcpSessionCtx}
    (hx : s.ctxs.cells c = some x) (hphase : x.sessionTcpHandle.phase = .closed)
    (hv : s.recycle c = .ok v) (a : ℕ) (map : Std.TreeMap ℤ ℕ) :
    Rested { v with sessions := v.sessions.free a, clientSessionMap := map } := by
  rcases recycle_cases hv with ⟨-, rfl⟩ | ⟨rfl, -⟩
  · refine (h.pushIdle (fun y hy => ?_) s.errmsg s.conns).of_eq rfl rfl rfl rfl
    obtain rfl := Option.some.inj (hx.symm.trans hy)
    exact hphase ▸ trivial
  · refine ⟨fun d hd y hy => ?_, h.inits, h.freed, h.waits⟩
    rw [Heap.cells_free] at hy
    split_ifs at hy
    exact h.idle d hd y hy

theorem GivenBack.rests {r : AcceptResults} {x x' : TcpSessionCtx} {n : ℕ} {inits : List UvPhase}
    (h : GivenBack s r x x' n inits) (hr : r.tcpInit = 0 → r.accept = 0 ∧ r.readStart = 0) :
    x' = x ∧ inits = s.inits := by
  cases h with
  | noInit _ => exact ⟨rfl, rfl⟩
  | noAccept hinit hacc => exact absurd (hr hinit).1 hacc
  | noRead hinit _ hread => exact absurd (hr hinit).2 hread

/-- An undisturbed step fails mildly, if it fails. -/
theorem mild_of_fails (h : Owners s) (hl : Undisturbed s l) {f : CallFault} (hf : Fails s l f) :
    f.Mild := by
  cases hf with
  | dispatch hd => exact failsMildly_dispatch s _ _ f hd
  | act hact =>
    by_cases hacc : ∃ status r, l = .acceptConnection status r
    · obtain ⟨status, r, rfl⟩ := hacc
      obtain ⟨s', hok⟩ := h.acceptConnection_ok status r
      simp [act, hok] at hact
    by_cases hclosed : ∃ c, l = .handleClosed c
    · obtain ⟨c, rfl⟩ := hclosed
      obtain ⟨s', hok⟩ := h.tied.handleClosed_ok
        (fun x a _ b hx hcb ha _ hmap => hl x a b hx hcb ha hmap) hact
      cases hok
    · exact failsMildly_act hact ⟨fun status r hl => hacc ⟨status, r, hl⟩,
        fun c hl => hclosed ⟨c, hl⟩⟩ f rfl

theorem rested_step (ho : Owners s) (h : Rested s) (hl : Undisturbed s l)
    (hs : step s l = some s') : Rested s' := by
  obtain ⟨-, ht⟩ := step_trans hs
  cases ht with
  | deadTarget _ _ _ => exact h.of_fault _ (by simp)
  | inCall hf =>
    refine h.of_fault _ fun g hg => ?_
    obtain rfl := ServerFault.inCall.inj (Option.some.inj hg)
    exact mild_of_fails ho hl hf
  | moves hm => exact h.moves ho.tied hm
  | push hm _ | pop hm => exact (h.moves ho.tied hm).of_eq rfl rfl rfl rfl
  | @giveBack c r t x x' n inits errmsg htake hx hback =>
    obtain ⟨rfl, rfl⟩ := hback.rests (hl rfl)
    obtain ⟨ht, hrest⟩ := h.takeCtx ho.owned htake hx
    rw [setCtx_self hx, ← takeCtx_inits htake]
    refine ht.pushIdle (fun y hy => ?_) errmsg n
    obtain rfl := Option.some.inj (hx.symm.trans hy)
    exact hrest
  | @accept c r t x htake hx _ _ =>
    obtain ⟨ht, hrest⟩ := h.takeCtx ho.owned htake hx
    rw [← takeCtx_inits htake]
    exact ht.newSession (ho.tied.takeCtx ho.owned htake).2.1 hx hrest _ _ _
  | recv _ _ _ _ hy _ => exact (h.setPacket hy _).of_eq rfl rfl rfl rfl
  | closedAlone hm _ _ _ _ _ => exact (h.moves ho.tied hm).of_eq rfl rfl rfl rfl
  | @sessionEnds c v x a b p q hx he _ _ hp hpc hmap hq hcl hv =>
    obtain ⟨rfl, -, hv⟩ := ho.owned.ended_self hp hpc hmap hq hcl hv
    have hmove : Move s (.handleClosed c) _ := .finish hx he
    have hend : Rested (s.ended c x b b) := (h.move ho.tied hmove).of_eq rfl rfl rfl rfl
    exact hend.deleteSession (cells_ended hx) rfl hv _ _

/-! ## Where a context is not at rest -/

/-- A `uv_read_start` that fails leaves its context on the list with the handle closing. -/
theorem startSession_fails {x y : TcpSessionCtx} (hx : x.sessionTcpHandle = .init)
    (hy : s.ctxs.cells c = some y) {res : ℤ} (hres : res ≠ 0)
    (hs : s.startSession c x res = .ok s') : ¬ Rested s' := by
  unfold startSession at hs
  rw [hx] at hs
  dsimp only at hs
  rw [readStart_accept, if_pos hres] at hs
  obtain ⟨v, hv, hs⟩ := bind_eq_ok hs
  obtain rfl := Except.ok.inj hs
  have hcell : ∀ z n, ({ s with conns := n }.setCtx c z).ctxs.cells c = some z :=
    fun z n => (cells_setCtx (s := { s with conns := n }) hy z c).trans (if_pos rfl)
  have hclosing : ((UvTcp.init.accept : UvTcp ℕ).readStart res).2.close.phase = .closing := by
    refine UvTcp.phase_close _ ?_
    rw [UvTcp.isClosing, UvTcp.phase_readStart]
    rfl
  intro h
  rcases recycle_cases hv with ⟨-, rfl⟩ | ⟨-, z, hz, hphase⟩
  · have hrest := h.idle c (by simp) _ (hcell _ _)
    simp only [hclosing] at hrest
    exact hrest
  · rw [hcell, Option.some.injEq] at hz
    simp [← hz, hclosing] at hphase

theorem acceptConnection_fails {r : AcceptResults} (hinit : r.tcpInit = 0)
    (hr : ¬ (r.accept = 0 ∧ r.readStart = 0)) (hs : s.acceptConnection 0 r = .ok s') :
    ¬ Rested s' := by
  unfold acceptConnection at hs
  rw [if_neg (by simp)] at hs
  rcases ht : s.takeCtx with ⟨c, t⟩
  rw [ht] at hs
  obtain ⟨x, hx, hs⟩ := bind_eq_ok hs
  have hx := ctx_eq_ok hx
  rw [if_neg (by simpa using hinit)] at hs
  by_cases hacc : r.accept = 0
  · rw [if_neg (by simpa using hacc)] at hs
    exact startSession_fails (s := { t with inits := t.inits ++ [x.sessionTcpHandle.phase] }) rfl hx
      (fun hread => hr ⟨hacc, hread⟩) hs
  · rw [if_pos hacc] at hs
    obtain rfl := Except.ok.inj hs
    exact fun hrest => hrest.idle c (by simp) _ ((cells_setCtx hx _ c).trans (if_pos rfl))

theorem recycle_fails {x : TcpSessionCtx} (hx : s.ctxs.cells c = some x) {f : CallFault}
    (h : s.recycle c = .error f) : f = .handleFreed c := by
  unfold recycle at h
  split_ifs at h
  unfold freeTcpSessionCtx at h
  simp only [ctx_of_cells hx, bind, Except.bind] at h
  split at h
  · cases h
  · cases h
  · exact (Except.error.inj h).symm
  · exact (Except.error.inj h).symm
  · exact (Except.error.inj h).symm

/-- The deletion of a session that is not closed. -/
theorem handleClose_fails {id : ℤ} {b : ℕ} {q : CTcpClientSession} {y : TcpSessionCtx}
    (hmap : s.clientSessionMap[id]? = some b) (hq : s.sessions.cells b = some q)
    (hopen : q.isclosed = false) (hy : s.ctxs.cells q.clientSessionCtx = some y) :
    ∃ f, s.cTcpClientSessionHandleClose id = .error f ∧ ¬ f.Mild := by
  set t := s.report [.close id b] with ht
  have hsession : t.session b = .ok q := session_of_cells hq
  simp only [cTcpClientSessionHandleClose, hmap, ← ht, deleteSession, hsession, bind, Except.bind]
  rcases hv : t.recycle q.clientSessionCtx with f | v
  · obtain rfl := recycle_fails (s := t) hy hv
    exact ⟨_, rfl, not_false⟩
  · exact ⟨_, if_neg (by simp [hopen]), not_false⟩

/-- A close callback that finds another session frees its context with the handle in use, or waits
for that handle. -/
theorem handleClosed_fails (h : Owners s) {x : TcpSessionCtx} {a b : ℕ}
    (hx : s.ctxs.cells c = some x) (hcb : x.afterClientClose = true) (ha : x.handleData = some a)
    (hmap : s.clientSessionMap[x.clientid]? = some b) (hba : b ≠ a)
    {r : Except CallFault CTcpServer} (hr : s.act (.handleClosed c) = some r) :
    ∃ f, r = .error f ∧ ¬ f.Mild := by
  obtain ⟨a', p, ha', hp, -, rfl⟩ := h.tied.act_handleClosed hx hcb hr
  obtain rfl := Option.some.inj (ha.symm.trans ha')
  obtain ⟨q, y, hm⟩ := h.owned.mapped _ b hmap
  set u := s.setCtx c { x with sessionTcpHandle := x.sessionTcpHandle.finish }
  have hq : (u.sessions.modify a fun p => { p with isclosed := true }).cells b = some q :=
    (Heap.cells_modify.trans (if_neg hba)).trans hm.session
  have hy : u.ctxs.cells q.clientSessionCtx = some y :=
    (cells_setCtx hx _ _).trans ((if_neg (hm.ctx_ne hx ha hba)).trans hm.ctx)
  exact handleClose_fails (s := { u with
    sessions := u.sessions.modify a fun p => { p with isclosed := true } }) hmap hq hm.opened hy

theorem not_rested_step (ho : Owners s) (hl : ¬ Undisturbed s l) (hs : step s l = some s') :
    ¬ Rested s' := by
  have hdrain : ∀ res, l ≠ .asyncEvent res := by
    rintro res rfl
    exact hl trivial
  obtain ⟨r, hr, rfl⟩ := step_act hs hdrain
  cases l with
  | acceptConnection status r =>
    simp only [Undisturbed, Classical.not_imp] at hl
    obtain ⟨rfl, hinit, hres⟩ := hl
    simp only [act, Option.ite_none_right_eq_some, Option.some.injEq] at hr
    obtain ⟨v, hv⟩ := ho.acceptConnection_ok 0 r
    rw [← hr.2, hv]
    exact acceptConnection_fails hinit hres hv
  | handleClosed c =>
    simp only [Undisturbed, not_forall] at hl
    obtain ⟨x, a, b, hx, hcb, ha, hmap, hba⟩ := hl
    obtain ⟨f, rfl, hf⟩ := handleClosed_fails ho hx hcb ha hmap hba hr
    intro h
    cases f with
    | handleFreed d => exact h.freed d rfl
    | destructorWaits d => exact h.waits d rfl
    | badPointer | memory | recvHangs => exact hf trivial
  | _ => exact absurd trivial hl

theorem rested_started (packhead : UInt32) : Rested (started packhead) where
  idle := by simp [started]
  inits := by simp [started]
  freed := by simp [started]
  waits := by simp [started]

/-- In every state of a run every context on the idle list is at rest, as was every handle given to
`uv_tcp_init` and that of every context freed, exactly if no `uv_accept` and no `uv_read_start` of
the run fails and no close callback finds another session under its own session's id. -/
theorem idle_rested_iff {as : List Label} {packhead : UInt32}
    (hr : run step (started packhead) as = some s) :
    Always step Rested (started packhead) as ↔ Meets step Undisturbed (started packhead) as :=
  always_iff_meets (I := fun s => Owners s ∧ Rested s)
    (fun _ _ _ h hl hs => ⟨owners_step h.1 hs, rested_step h.1 h.2 hl hs⟩) (fun _ h => h.2)
    (fun _ _ _ h hl hs => not_rested_step h.1 hl hs)
    ⟨owners_started packhead, rested_started packhead⟩ hr

theorem idle_rested_acceptTwice : ∃ s, run step (started defPackHeadFlag) acceptTwice = some s
    ∧ (Always step Rested (started defPackHeadFlag) acceptTwice
      ↔ Meets step Undisturbed (started defPackHeadFlag) acceptTwice) := by
  obtain ⟨s, hs⟩ := Option.isSome_iff_exists.1
    (show (run step (started defPackHeadFlag) acceptTwice).isSome from rfl)
  exact ⟨s, hs, idle_rested_iff hs⟩

/-- A `uv_accept` that fails leaves an initialised handle on the idle list. -/
theorem idle_registered : ¬ ∀ (as : List Label) (s : CTcpServer),
    run step (started defPackHeadFlag) as = some s → Rested s := by
  intro h
  obtain ⟨s, hs⟩ := Option.isSome_iff_exists.1
    (show (run step (started defPackHeadFlag) [.acceptConnection 0 ⟨0, -1, 0⟩]).isSome from rfl)
  have hidle : (run step (started defPackHeadFlag) [.acceptConnection 0 ⟨0, -1, 0⟩]).map
      (fun s => (s.idleTcpClientCtxList, (s.ctxs.cells 0).map (·.sessionTcpHandle.phase)))
      = some ([0], some .active) := rfl
  rw [hs, Option.map_some, Option.some.injEq, Prod.mk.injEq] at hidle
  obtain ⟨x, hx, hphase⟩ := Option.map_eq_some_iff.1 hidle.2
  have hrest := (h _ s hs).idle 0 (by simp [hidle.1]) x hx
  rw [hphase] at hrest
  exact hrest

end CTcpServer

end TestLibuv
