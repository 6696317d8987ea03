import Mathlib.Data.Nat.ModEq
import TestLibuv.Proofs.ContextOwnership

/-!
# Session ids

The ids of the sessions of all servers come from one `int` that is counted up, so they are given out
again after `2 ^ 32`. While no session in a server's map meets its id again, every session is in
the map under its own, and its close callback deletes it and no other.
-/

namespace TestLibuv

open CMem Runs

/-- What `CreateSessionId` returns the `n`th time. -/
def idOf (n : ℕ) : ℤ := ofU32 (.ofNat n)

theorem idOf_succ (n : ℕ) : ofU32 (toU32 (idOf n) + 1) = idOf (n + 1) := by
  unfold idOf
  rw [toU32_ofU32, UInt32.ofNat_add]
  rfl

theorem ofU32_injective : Function.Injective ofU32 := fun u v h => by
  rw [← toU32_ofU32 u, h, toU32_ofU32]

theorem idOf_eq_iff {m n : ℕ} (h : n ≤ m) : idOf m = idOf n ↔ 2 ^ 32 ∣ m - n := by
  rw [idOf, idOf, ofU32_injective.eq_iff, ← UInt32.toNat_inj, UInt32.toNat_ofNat',
    UInt32.toNat_ofNat', ← Nat.modEq_iff_dvd' h]
  exact eq_comm

theorem idOf_eq_one_iff (n : ℕ) : idOf (n + 1) = 1 ↔ 2 ^ 32 ∣ n := by
  have hone : idOf 1 = 1 := rfl
  have hiff := idOf_eq_iff (m := n + 1) (n := 1) (by omega)
  rwa [hone, Nat.add_sub_cancel] at hiff

namespace CTcpServer

variable {s s' : CTcpServer} {l : Label}

/-- `AcceptConnection` where nothing fails. -/
theorem acceptConnection_zero {c : ℕ} {t : CTcpServer} {x : TcpSessionCtx}
    (ht : s.takeCtx = (c, t)) (hx : t.ctxs.cells c = some x) :
    s.acceptConnection 0 ⟨0, 0, 0⟩ = .ok ({ t with
      inits := s.inits ++ [x.sessionTcpHandle.phase]
      conns := s.conns + 1 }.newSession c (opened s x) s.conns) := by
  obtain ⟨hhead, hconns⟩ := takeCtx_fields ht
  have hinits := takeCtx_inits ht
  unfold acceptConnection opened
  rw [← hconns, ← hhead, ← hinits]
  simp only [ht, ctx_of_cells hx, bind, Except.bind]
  rfl

/-- `AcceptConnection` makes no session of a connection that cannot be read from. -/
theorem accepted_of_readStart {r : AcceptResults} (hne : r.readStart ≠ 0)
    (h : s.acceptConnection 0 r = .ok s') : s'.accepted = s.accepted := by
  unfold acceptConnection at h
  rw [if_neg (by simp)] at h
  rcases ht : s.takeCtx with ⟨c, t⟩
  rw [ht] at h
  obtain ⟨x, hx, h⟩ := bind_eq_ok h
  have hacc := (taken_takeCtx ht).accepted
  split_ifs at h
  · exact Except.ok.inj h ▸ hacc
  · exact Except.ok.inj h ▸ hacc
  · unfold startSession at h
    dsimp only at h
    rw [if_pos (by rw [readStart_accept]; exact hne)] at h
    obtain ⟨v, hv, h⟩ := bind_eq_ok h
    rw [← Except.ok.inj h]
    exact (recycle_ids hv).2.trans hacc

theorem settle_accepted {r : Except CallFault CTcpServer}
    (h : ∀ s', r = .ok s' → s'.accepted = s.accepted) :
    (s.settle r).accepted = s.accepted := by
  rcases r with f | s'
  · rfl
  · exact h s' rfl

/-- A session is started where nothing in `AcceptConnection` fails, and nowhere else. -/
theorem label_of_accepted (hs : step s l = some s')
    (hmore : s.accepted.length < s'.accepted.length) : l = .acceptConnection 0 ⟨0, 0, 0⟩ := by
  have hne : s'.accepted ≠ s.accepted := fun heq => by simp [heq] at hmore
  obtain ⟨-, ht⟩ := step_trans hs
  cases ht with
  | deadTarget _ _ _ | inCall | recv _ _ _ _ _ _ => exact absurd rfl hne
  | moves hm | push hm _ | pop hm | closedAlone hm _ _ _ _ _ =>
    exact absurd hm.frame.accepted hne
  | giveBack _ htake _ _ => exact absurd (taken_takeCtx htake).accepted hne
  | @accept c r t x _ _ hinit hacc =>
    obtain ⟨q, hq, heq⟩ := step_act hs (by simp)
    simp only [act, Option.ite_none_right_eq_some, Option.some.injEq] at hq
    have hread : r.readStart = 0 := by
      by_contra hread
      refine hne (heq ▸ settle_accepted fun u hu => ?_)
      exact accepted_of_readStart hread (hq.2.trans hu)
    obtain ⟨tcpInit, accept, readStart⟩ := r
    obtain rfl : tcpInit = 0 := hinit
    obtain rfl : accept = 0 := hacc
    obtain rfl : readStart = 0 := hread
    rfl
  | sessionEnds _ _ _ _ _ _ _ _ _ hv => exact absurd (recycle_ids hv).2 hne

/-- A session is reported once it is started. -/
theorem newConn_step (hs : step s l = some s') {id : ℤ} {a : ℕ}
    (hcb : s'.callbacks = s.callbacks ++ [.newConn id a]) :
    s.accepted.length < s'.accepted.length := by
  obtain ⟨-, ht⟩ := step_trans hs
  have hne : s'.callbacks ≠ s.callbacks := fun heq => by simp [heq] at hcb
  cases ht with
  | deadTarget _ _ _ | inCall => exact absurd rfl hne
  | moves hm | push hm _ | pop hm | closedAlone hm _ _ _ _ _ =>
    exact absurd hm.frame.callbacks hne
  | giveBack _ htake _ _ => exact absurd (taken_takeCtx htake).callbacks hne
  | accept htake _ _ _ =>
    rw [← (taken_takeCtx htake).accepted]
    simp [newSession, report]
  | @recv c data x y b p packet log _ _ _ _ _ _ =>
    have hmem : ServerCb.newConn id a ∈ (packet.delivered log).map fun pkt =>
        ServerCb.recv pkt y.parentClientSession := by
      rw [List.append_cancel_left hcb]
      exact List.mem_singleton_self _
    simp at hmem
  | @sessionEnds c v x b b' p q _ _ _ _ _ _ _ _ _ hv =>
    have hcb' : v.callbacks = s.callbacks ++ [.close x.clientid b'] := by
      rcases recycle_cases hv with ⟨-, rfl⟩ | ⟨rfl, -⟩ <;> rfl
    have hlast := List.append_cancel_left (hcb'.symm.trans hcb)
    simp at hlast

/-- What the start of a session does to the map and to the callbacks. -/
theorem accept_step (h : Tied s) (hs : step s (.acceptConnection 0 ⟨0, 0, 0⟩) = some s') :
    s'.callbacks = s.callbacks ++ [.newConn s.createSessionId s.sessions.next]
      ∧ s'.clientSessionMap = s.clientSessionMap.insertIfNew s.createSessionId s.sessions.next := by
  rcases ht : s.takeCtx with ⟨c, t⟩
  obtain ⟨x, hx⟩ := h.takeCtx_live ht
  obtain ⟨r, hr, rfl⟩ := step_act hs (by simp)
  simp only [act, acceptConnection_zero ht hx, Option.ite_none_right_eq_some,
    Option.some.injEq] at hr
  obtain ⟨-, rfl⟩ := hr
  have htaken := taken_takeCtx ht
  have hid : t.createSessionId = s.createSessionId := by
    unfold createSessionId
    rw [htaken.sId]
  constructor
  · show t.callbacks ++ [.newConn t.createSessionId t.sessions.next] = _
    rw [htaken.callbacks, htaken.sessions, hid]
  · show t.clientSessionMap.insertIfNew t.createSessionId t.sessions.next = _
    rw [htaken.map, htaken.sessions, hid]

/-- The session whose handle was closed is deleted, and no other. -/
theorem Enrolled.handleClosed (h : Tied s) (hin : Enrolled s) {c a : ℕ}
    {x : TcpSessionCtx} (hs : step s (.handleClosed c) = some s') (hx : s.ctxs.cells c = some x)
    (hcb : x.afterClientClose = true) (ha : x.handleData = some a) :
    Ends s s' x.clientid a c ∧ s'.fault = none
      ∧ ∀ b, s'.sessions.Live b ↔ b ≠ a ∧ s.sessions.Live b := by
  obtain ⟨r, hr, -⟩ := step_act hs (by simp)
  simp only [act, hx, Option.bind_some, Option.ite_none_right_eq_some] at hr
  obtain ⟨a', ha', hlive⟩ := h.closing c x hx (x.sessionTcpHandle.closing_of_ends hr.1) hcb
  obtain rfl : a' = a := Option.some.inj (ha'.symm.trans ha)
  obtain ⟨p, hp⟩ := hlive.cells
  have hpc := h.only c x a' p hx ha hp
  have hmap := hin a' p x hp (hpc ▸ hx)
  have hend := handleClosed_ends hx hcb ha hp hpc hmap hs
  have hne : s'.callbacks ≠ s.callbacks := fun heq => by
    have hrep := hend.reported
    simp [heq] at hrep
  obtain ⟨hfault, ht⟩ := step_trans hs
  generalize hl : Label.handleClosed c = l at ht
  cases ht with
  | sessionEnds hx' _ _ ha'' _ _ hmap' _ _ hv =>
    obtain rfl := Label.handleClosed.inj hl
    obtain rfl := Option.some.inj (hx'.symm.trans hx)
    obtain rfl := Option.some.inj (hmap'.symm.trans hmap)
    obtain ⟨-, hsessions, hfa⟩ := recycle_frame hv
    refine ⟨hend, hfa.trans hfault, fun b => ?_⟩
    rw [Heap.live_free, hsessions]
    exact and_congr_right fun _ => Heap.live_modify
  | inCall => exact absurd rfl hne
  | moves hm | push hm _ | closedAlone hm _ _ _ _ _ => exact absurd hm.frame.callbacks hne
  | _ => cases hl

/-! ## One session stays, the others come and go -/

theorem takeCtx_of_idle {c : ℕ} {rest : List ℕ} {x : TcpSessionCtx}
    (h : s.idleTcpClientCtxList = c :: rest) (hx : s.ctxs.cells c = some x) :
    ∃ t y, s.takeCtx = (c, t) ∧ t.idleTcpClientCtxList = rest ∧ t.ctxs.cells c = some y := by
  refine ⟨{ s with
    idleTcpClientCtxList := rest
    ctxs := s.ctxs.modify c fun x => { x with parentClientSession := none } },
    { x with parentClientSession := none }, ?_, rfl, ?_⟩
  · unfold takeCtx
    rw [h]
  · rw [Heap.cells_modify, if_pos rfl, hx, Option.map_some]

theorem step_accept {c : ℕ} {t : CTcpServer} {x : TcpSessionCtx} (hf : s.fault = none)
    (hd : s.draining = false) (hactive : s.tcpServerHandle = .active) (ht : s.takeCtx = (c, t))
    (hx : t.ctxs.cells c = some x) : step s (.acceptConnection 0 ⟨0, 0, 0⟩) = some ({ t with
      inits := s.inits ++ [x.sessionTcpHandle.phase]
      conns := s.conns + 1 }.newSession c (opened s x) s.conns) := by
  rw [step_eq_act hf hd (by simp)]
  simp only [act, hactive, if_true, acceptConnection_zero ht hx, Option.map_some, settle]

theorem step_lock {res : List ℤ} (hf : s.fault = none) (hd : s.draining = false) :
    step s (.asyncEvent res) = some { s with draining := true } := by
  simp only [step_asyncEvent hf, drain, hd, Bool.false_eq_true, if_false]

theorem step_unlock {res : List ℤ} (hf : s.fault = none) (hd : s.draining = true)
    (he : s.events = []) : step s (.asyncEvent res) = some { s with draining := false } := by
  simp only [step_asyncEvent hf, drain, hd, if_true, he]

theorem step_dispatch (res : List ℤ) {e : UvEvent ServerObj} {rest : List (UvEvent ServerObj)}
    {t : CTcpServer} (hf : s.fault = none) (hd : s.draining = true) (he : s.events = e :: rest)
    (hdead : s.deadTarget e = none) (ht : s.dispatch e res = .ok t) :
    step s (.asyncEvent res) = some { t with events := t.events.tail } := by
  simp only [step_asyncEvent hf, drain, hd, if_true, he, hdead, ht]
  rfl

theorem step_handleClosed {c : ℕ} {x : TcpSessionCtx} {t : CTcpServer} (hf : s.fault = none)
    (hd : s.draining = false) (hx : s.ctxs.cells c = some x) (he : x.sessionTcpHandle.ends = true)
    (hcb : x.afterClientClose = true) (ht : CTcpClientSession.afterClientClose (s.setCtx c { x with
      sessionTcpHandle := x.sessionTcpHandle.finish }) c x = .ok t) :
    step s (.handleClosed c) = some t := by
  rw [step_eq_act hf hd (by simp)]
  simp only [act, hx, Option.bind_some, he, if_true]
  rw [if_pos hcb, ht]
  rfl

theorem afterClientClose_eq {a c : ℕ} {b : Bool} {x : TcpSessionCtx}
    (ha : x.handleData = some a) (hp : s.sessions.cells a = some ⟨c, b⟩)
    (hmap : s.clientSessionMap[x.clientid]? = some a)
    (hidle : s.idleTcpClientCtxList.length ≤ maxListSize) :
    CTcpClientSession.afterClientClose s c x = .ok { s.report [.close x.clientid a] with
      idleTcpClientCtxList := s.idleTcpClientCtxList ++ [c]
      sessions := (s.sessions.modify a fun p => { p with isclosed := true }).free a
      clientSessionMap := s.clientSessionMap.erase x.clientid } := by
  have hclosed : (s.sessions.modify a fun p => { p with isclosed := true }).cells a
      = some ⟨c, true⟩ := (Heap.cells_modify.trans (if_pos rfl)).trans (by rw [hp]; rfl)
  rw [afterClientClose_own ha hp rfl]
  exact (handleClose_short (s := { s with
    sessions := s.sessions.modify a fun p => { p with isclosed := true } }) hmap hclosed
    hidle).trans (if_pos rfl)

/-- A server that gave out `n` ids, started one session that is there still, under its first id, and
is about to start the next on the context at 1. -/
structure Serving (n : ℕ) (s : CTcpServer) : Prop where
  fault : s.fault = none
  draining : s.draining = false
  events : s.events = []
  active : s.tcpServerHandle = .active
  sId : s.sId = idOf n
  map : ∀ id : ℤ, s.clientSessionMap[id]? = if id = 1 then some 0 else none
  ctx : ∃ t x, s.takeCtx = (1, t) ∧ t.idleTcpClientCtxList = [] ∧ t.ctxs.cells 1 = some x

/-- A session that got the id given out last is on the context at 1. -/
structure Visited (n a : ℕ) (y : TcpSessionCtx) (s : CTcpServer) : Prop where
  fault : s.fault = none
  active : s.tcpServerHandle = .active
  sId : s.sId = idOf n
  idle : s.idleTcpClientCtxList = []
  map : ∀ id : ℤ, s.clientSessionMap[id]?
    = if id = idOf n then some a else if id = 1 then some 0 else none
  session : s.sessions.cells a = some ⟨1, false⟩
  ctx : s.ctxs.cells 1 = some y
  clientid : y.clientid = idOf n
  handleData : y.handleData = some a
  parentClientSession : y.parentClientSession = some a

section Visit

variable {n a : ℕ} {y : TcpSessionCtx}

theorem Visited.setHandle (h : Visited n a y s) (sessionTcpHandle : UvTcp ℕ)
    (afterClientClose : Bool) (events : List (UvEvent ServerObj)) (draining : Bool) :
    Visited n a { y with sessionTcpHandle, afterClientClose }
      { s.setCtx 1 { y with sessionTcpHandle, afterClientClose } with events, draining } where
  fault := h.fault
  active := h.active
  sId := h.sId
  idle := h.idle
  map := h.map
  session := h.session
  ctx := (cells_setCtx h.ctx _ 1).trans (if_pos rfl)
  clientid := h.clientid
  handleData := h.handleData
  parentClientSession := h.parentClientSession

theorem Serving.accept (h : Serving n s) (hn : idOf (n + 1) ≠ 1) : ∃ s' a y,
    step s (.acceptConnection 0 ⟨0, 0, 0⟩) = some s' ∧ Visited (n + 1) a y s'
      ∧ s'.draining = false ∧ s'.events = []
      ∧ y.sessionTcpHandle = { (UvTcp.init.accept : UvTcp ℕ) with reading := true } := by
  obtain ⟨t, x, ht, hidle, hx⟩ := h.ctx
  have htaken := taken_takeCtx ht
  have hrest : t.fault = s.fault ∧ t.draining = s.draining ∧ t.events = s.events
      ∧ t.tcpServerHandle = s.tcpServerHandle := by
    rcases takeCtx_cases ht with ⟨-, -, rfl⟩ | ⟨rest, -, rfl⟩ <;> exact ⟨rfl, rfl, rfl, rfl⟩
  obtain ⟨hfault, hdraining, hevents, hactive⟩ := hrest
  have hid : t.createSessionId = idOf (n + 1) := by
    unfold createSessionId
    rw [htaken.sId, h.sId, idOf_succ]
  refine ⟨{ t with
      inits := s.inits ++ [x.sessionTcpHandle.phase]
      conns := s.conns + 1 }.newSession 1 (opened s x) s.conns, t.sessions.next, { opened s x with
      clientid := t.createSessionId
      handleData := some t.sessions.next
      parentClientSession := some t.sessions.next },
    step_accept h.fault h.draining h.active ht hx, ?_, hdraining.trans h.draining,
    hevents.trans h.events, rfl⟩
  refine ⟨hfault.trans h.fault, hactive.trans h.active, hid, hidle, fun id => ?_,
    Heap.cells_alloc.trans (if_pos rfl), (cells_setCtx hx _ 1).trans (if_pos rfl), hid, rfl, rfl⟩
  show (t.clientSessionMap.insertIfNew t.createSessionId t.sessions.next)[id]? = _
  rw [hid, htaken.map, getElem?_insertSession, h.map id]
  exact if_congr (and_iff_left ((h.map _).trans (if_neg hn))) rfl rfl

/-- The peer ends its stream, and the session asks for its own close. -/
theorem Visited.eof (h : Visited n a y s) (hd : s.draining = false)
    (hr : y.sessionTcpHandle.reading = true) : step s (.afterRecvError 1 uvEof)
      = some (CTcpClientSession.request (s.setCtx 1 { y with
        sessionTcpHandle := y.sessionTcpHandle.readError uvEof }) a .close) := by
  have hset : Visited n a { y with sessionTcpHandle := y.sessionTcpHandle.readError uvEof }
      (s.setCtx 1 { y with sessionTcpHandle := y.sessionTcpHandle.readError uvEof }) :=
    h.setHandle _ y.afterClientClose s.events s.draining
  have hfollow := follow_of_cells h.handleData hset.session
  have hback := follow_of_cells h.parentClientSession hset.session
  rw [step_eq_act h.fault hd (by simp)]
  simp only [act, h.ctx, hr, Option.bind_some]
  rw [if_pos ⟨trivial, by decide⟩]
  simp only [CTcpClientSession.afterRecvError, CTcpClientSession.close, hfollow, hback,
    ctx_of_cells hset.ctx, session_of_cells hset.session, bind, Except.bind, Option.map_some]
  rfl

/-- `AsyncEvent` on a queue that holds that event alone. -/
theorem Visited.drain (h : Visited n a y s) (hd : s.draining = false) (he : s.events
      = [{ (createUvEvent .close none : UvEvent ServerObj) with data := some (.session a) }])
    (hopen : y.sessionTcpHandle.isClosing = false) : ∃ s',
    run step s [.asyncEvent [], .asyncEvent [], .asyncEvent []] = some s' ∧ Visited n a { y with
      sessionTcpHandle := y.sessionTcpHandle.close, afterClientClose := true } s'
      ∧ s'.draining = false ∧ s'.events = [] := by
  set t : CTcpServer := { s with draining := true } with ht
  have hsession : t.session a = .ok ⟨1, false⟩ := session_of_cells h.session
  have hctx : t.ctx 1 = .ok y := ctx_of_cells h.ctx
  have hdispatch : CTcpClientSession.closeinl t a = .ok (t.setCtx 1 { y with
      sessionTcpHandle := y.sessionTcpHandle.close, afterClientClose := true }) := by
    simp only [CTcpClientSession.closeinl, hsession, hctx, bind, Except.bind,
      CTcpClientSession.closeHandle, hopen, Bool.false_eq_true, if_false]
    rfl
  have htail : s.events.tail = [] := by rw [he, List.tail_cons]
  have hone := step_dispatch (s := t) [] h.fault rfl he
    (if_pos (Heap.live_of_cells h.session)) hdispatch
  exact ⟨_, run_cons_eq_some.2 ⟨_, step_lock h.fault hd, run_cons_eq_some.2 ⟨_, hone,
    run_cons_eq_some.2 ⟨_, step_unlock h.fault rfl htail, rfl⟩⟩⟩,
    h.setHandle _ _ s.events.tail false, rfl, htail⟩

/-- The close callback of the session's handle. -/
theorem Visited.closed (h : Visited n a y s) (hd : s.draining = false) (he : s.events = [])
    (hends : y.sessionTcpHandle.ends = true) (hcb : y.afterClientClose = true)
    (hn : idOf n ≠ 1) : ∃ s', step s (.handleClosed 1) = some s' ∧ Serving n s' := by
  have hset : Visited n a { y with sessionTcpHandle := y.sessionTcpHandle.finish }
      (s.setCtx 1 { y with sessionTcpHandle := y.sessionTcpHandle.finish }) :=
    h.setHandle _ y.afterClientClose s.events s.draining
  have hmap : (s.setCtx 1 { y with
      sessionTcpHandle := y.sessionTcpHandle.finish }).clientSessionMap[y.clientid]? = some a := by
    rw [hset.map, h.clientid, if_pos rfl]
  have hstep := step_handleClosed h.fault hd h.ctx hends hcb (afterClientClose_eq h.handleData
    hset.session hmap (by rw [hset.idle]; simp))
  refine ⟨_, hstep, h.fault, hd, he, h.active, h.sId, fun id => ?_, ?_⟩
  · show (s.clientSessionMap.erase y.clientid)[id]? = _
    rw [getElem?_eraseSession, h.map, h.clientid]
    by_cases hid : id = idOf n
    · rw [if_pos hid, hid, if_neg hn]
    · rw [if_neg hid, if_neg hid]
  · exact takeCtx_of_idle (by rw [hset.idle]; rfl) hset.ctx

/-- A connection that comes and goes, on the context at 1. -/
def visit : List Label :=
  [.acceptConnection 0 ⟨0, 0, 0⟩, .afterRecvError 1 uvEof, .asyncEvent [], .asyncEvent [],
    .asyncEvent [], .handleClosed 1]

theorem Serving.visit (h : Serving n s) (hn : idOf (n + 1) ≠ 1) :
    ∃ s', run step s visit = some s' ∧ Serving (n + 1) s' := by
  obtain ⟨u, a, y, hacc, hu, hd, he, hth⟩ := h.accept hn
  have hread := hu.eof hd (by rw [hth])
  have hv : Visited (n + 1) a { y with sessionTcpHandle := y.sessionTcpHandle.readError uvEof }
      (CTcpClientSession.request (u.setCtx 1 { y with
        sessionTcpHandle := y.sessionTcpHandle.readError uvEof }) a .close) :=
    hu.setHandle _ y.afterClientClose (u.events ++ [_]) u.draining
  obtain ⟨w, hdrain, hw, hdw, hew⟩ := hv.drain hd (congrArg (· ++ [_]) he) (by rw [hth]; rfl)
  obtain ⟨s', hclosed, hs'⟩ := hw.closed hdw hew (by rw [hth]; rfl) rfl hn
  refine ⟨s', run_cons_eq_some.2 ⟨u, hacc, run_cons_eq_some.2 ⟨_, hread, ?_⟩⟩, hs'⟩
  show run step _ ([.asyncEvent [], .asyncEvent [], .asyncEvent []] ++ [.handleClosed 1]) = some s'
  exact run_append_eq_some.2 ⟨w, hdrain, run_cons_eq_some.2 ⟨s', hclosed, rfl⟩⟩

theorem Serving.visits : ∀ (m : ℕ) {n : ℕ} {s : CTcpServer}, Serving n s →
    (∀ k < m, idOf (n + k + 1) ≠ 1) →
      ∃ s', run step s (List.replicate m CTcpServer.visit).flatten = some s' ∧ Serving (n + m) s'
  | 0, _, s, h, _ => ⟨s, rfl, h⟩
  | m + 1, n, s, h, hn => by
    obtain ⟨t, ht, hvisit⟩ := h.visit (hn 0 (Nat.succ_pos m))
    obtain ⟨s', hs', hvisits⟩ := hvisit.visits m fun k hk => by
      have hne := hn (k + 1) (by omega)
      rwa [show n + (k + 1) + 1 = n + 1 + k + 1 by omega] at hne
    rw [List.replicate_succ, List.flatten_cons]
    exact ⟨s', run_append_eq_some.2 ⟨t, ht, hs'⟩, (by omega : n + 1 + m = n + (m + 1)) ▸ hvisits⟩

/-- The first id is given out again, to a session that does not get into the map. -/
theorem Serving.again (h : Serving (2 ^ 32) s) : ∃ s',
    step s (.acceptConnection 0 ⟨0, 0, 0⟩) = some s'
      ∧ s'.callbacks = s.callbacks ++ [.newConn 1 s.sessions.next]
      ∧ s'.sessions.Live s.sessions.next
      ∧ ∀ id : ℤ, s'.clientSessionMap[id]? = s.clientSessionMap[id]? := by
  obtain ⟨t, x, ht, -, hx⟩ := h.ctx
  have htaken := taken_takeCtx ht
  have hid : t.createSessionId = 1 := by
    unfold createSessionId
    rw [htaken.sId, h.sId, idOf_succ, idOf_eq_one_iff]
  refine ⟨_, step_accept h.fault h.draining h.active ht hx, ?_, ?_, fun id => ?_⟩
  · show t.callbacks ++ [.newConn t.createSessionId t.sessions.next] = _
    rw [htaken.callbacks, hid, htaken.sessions]
  · rw [← htaken.sessions]
    exact Heap.live_alloc.2 (.inl rfl)
  · show (t.clientSessionMap.insertIfNew t.createSessionId t.sessions.next)[id]? = _
    rw [hid, htaken.map, getElem?_insertSession, if_neg]
    rintro ⟨-, hnone⟩
    rw [h.map] at hnone
    cases hnone

theorem serving_one (packhead : UInt32) : ∃ s,
    step (started packhead) (.acceptConnection 0 ⟨0, 0, 0⟩) = some s ∧ Serving 1 s := by
  refine ⟨_, step_accept (s := started packhead) (c := 0) rfl rfl rfl rfl rfl, rfl, rfl, rfl, rfl,
    rfl, fun id => ?_, _, _, rfl, rfl, rfl⟩
  show ((∅ : Std.TreeMap ℤ ℕ).insertIfNew 1 0)[id]? = _
  simp [getElem?_insertSession]

end Visit

end CTcpServer

namespace TcpServers

open CTcpServer (Owned Tied Enrolled Ends)

variable {s s' : TcpServers} {l : Label}

/-- The id a step gives to a new session, which it reports, is no other's in the map, and gets into
the map; a close callback deletes the session whose handle was closed, and no other. -/
structure KeepsIds (v : CTcpServer) (l : CTcpServer.Label) (w : CTcpServer) : Prop where
  fresh : ∀ id a, w.callbacks = v.callbacks ++ [.newConn id a] →
    v.clientSessionMap[id]? = none ∧ w.clientSessionMap[id]? = some a
  self : ∀ c x a, l = .handleClosed c → v.ctxs.cells c = some x → x.afterClientClose = true →
    x.handleData = some a → Ends v w x.clientid a c ∧ w.fault = none
      ∧ ∀ b, w.sessions.Live b ↔ b ≠ a ∧ v.sessions.Live b

/-- The step keeps the ids of its server's sessions unique. -/
def Unique (s : TcpServers) : Label → Prop
  | .start _ _ => True
  | .server j l => ∀ v w, s.servers j = some v → (s.counting v).step l = some w →
    KeepsIds (s.counting v) l w

/-- No session in the map of a server that starts one got its own id a multiple of `2 ^ 32` times
before. -/
def NoneLapped (s : TcpServers) : Label → Prop
  | .start _ _ => True
  | .server j l => l = .acceptConnection 0 ⟨0, 0, 0⟩ → ∀ v, s.servers j = some v →
    ∀ (id : ℤ) (a : ℕ), v.clientSessionMap[id]? = some a → ¬ 2 ^ 32 ∣ s.ids + 1 - s.number j a

/-- Every session in a map is there under the id of its number, and every session is in its server's
map. -/
structure Counted (s : TcpServers) : Prop where
  sId : s.sId = idOf s.ids
  owned : ∀ j v, s.servers j = some v → Owned v
  tied : ∀ j v, s.servers j = some v → Tied v
  enrolled : ∀ j v, s.servers j = some v → Enrolled v
  number : ∀ j v (id : ℤ) (a : ℕ), s.servers j = some v → v.clientSessionMap[id]? = some a →
    s.number j a ≤ s.ids ∧ id = idOf (s.number j a)

theorem counted_init : Counted init where
  sId := rfl
  owned _ _ hv := by simp [init] at hv
  tied _ _ hv := by simp [init] at hv
  enrolled _ _ hv := by simp [init] at hv
  number _ _ _ _ hv := by simp [init] at hv

/-- The server that takes the step. -/
theorem Counted.counting (h : Counted s) {j : ℕ} {v : CTcpServer} (hv : s.servers j = some v) :
    Owned (s.counting v) ∧ Tied (s.counting v) ∧ Enrolled (s.counting v)
      ∧ (s.counting v).createSessionId = idOf (s.ids + 1) := by
  refine ⟨(h.owned j v hv).of_eq rfl rfl rfl rfl, (h.tied j v hv).of_eq rfl rfl rfl,
    (h.enrolled j v hv).of_eq rfl rfl rfl, ?_⟩
  show ofU32 (toU32 s.sId + 1) = _
  rw [h.sId, idOf_succ]

/-- The next id is in the map where a session is that got it the last time, or some time before. -/
theorem Counted.lapped_iff (h : Counted s) {j : ℕ} {v : CTcpServer} (hv : s.servers j = some v) :
    v.clientSessionMap[idOf (s.ids + 1)]? = none ↔ ∀ (id : ℤ) (a : ℕ),
      v.clientSessionMap[id]? = some a → ¬ 2 ^ 32 ∣ s.ids + 1 - s.number j a := by
  have hiff : ∀ (id : ℤ) (a : ℕ), v.clientSessionMap[id]? = some a →
      (id = idOf (s.ids + 1) ↔ 2 ^ 32 ∣ s.ids + 1 - s.number j a) := by
    intro id a ha
    obtain ⟨hle, hid⟩ := h.number j v id a hv ha
    rw [hid, eq_comm]
    exact idOf_eq_iff (by omega)
  constructor
  · intro hnone id a ha hdvd
    rw [(hiff id a ha).2 hdvd, hnone] at ha
    cases ha
  · intro hfree
    rcases hmap : v.clientSessionMap[idOf (s.ids + 1)]? with _ | a
    · rfl
    · exact absurd ((hiff _ a hmap).1 rfl) (hfree _ a hmap)

/-- What holds of the server that changes and of the others. -/
theorem forall_update {P : ℕ → CTcpServer → Prop} {j : ℕ} {w : CTcpServer} (hw : P j w)
    (hrest : ∀ i v, i ≠ j → s.servers i = some v → P i v) :
    ∀ i v, Function.update s.servers j (some w) i = some v → P i v := by
  intro i v hv
  by_cases hij : i = j
  · subst hij
    rw [Function.update_self, Option.some.injEq] at hv
    exact hv ▸ hw
  · rw [Function.update_of_ne hij] at hv
    exact hrest i v hij hv

theorem Counted.start (h : Counted s) (j : ℕ) (packhead : UInt32) :
    Counted { s with servers := Function.update s.servers j (some (.started packhead)) } where
  sId := h.sId
  owned := forall_update (CTcpServer.owned_started packhead) fun i v _ => h.owned i v
  tied := forall_update (CTcpServer.tied_started packhead) fun i v _ => h.tied i v
  enrolled := forall_update (CTcpServer.full_started packhead).mapped fun i v _ => h.enrolled i v
  number i v id a hv ha := forall_update (P := fun i v => v.clientSessionMap[id]? = some a →
      s.number i a ≤ s.ids ∧ id = idOf (s.number i a))
    (fun ha => by simp [CTcpServer.started] at ha) (fun i v _ hv => h.number i v id a hv) i v hv ha

/-- The counter behind a server's step. -/
theorem Counted.sId_stepServer (h : Counted s) {j : ℕ} {v w : CTcpServer} {l : CTcpServer.Label}
    (hv : s.servers j = some v) (hs : (s.counting v).step l = some w) :
    w.sId = idOf (s.stepServer j v w).ids ∧ (v.accepted.length < w.accepted.length →
      (s.stepServer j v w).ids = s.ids + 1) := by
  have hids : (s.stepServer j v w).ids
    = s.ids + (w.accepted.length - v.accepted.length) := rfl
  rcases CTcpServer.ids_step hs with ⟨hid, hacc⟩ | ⟨hid, hacc⟩
  · have hacc : w.accepted = v.accepted := hacc
    rw [hacc, Nat.sub_self] at hids
    refine ⟨?_, fun hlt => absurd (hacc ▸ hlt) (lt_irrefl _)⟩
    rw [hids]
    exact hid.trans h.sId
  · have hacc : w.accepted.length = v.accepted.length + 1 := hacc
    rw [hacc, Nat.add_sub_cancel_left] at hids
    refine ⟨?_, fun _ => hids⟩
    rw [hids, hid, (h.counting hv).2.2.2]

/-- The sessions in the maps keep their numbers. -/
theorem Counted.number_stepServer (h : Counted s) {i j : ℕ} {u v w : CTcpServer}
    (hv : s.servers j = some v) (hu : s.servers i = some u) {id : ℤ} {a : ℕ}
    (ha : u.clientSessionMap[id]? = some a) : (s.stepServer j v w).number i a = s.number i a := by
  unfold stepServer
  dsimp only
  split_ifs
  · by_cases hij : i = j
    · subst hij
      obtain rfl : u = v := Option.some.inj (hu.symm.trans hv)
      obtain ⟨p, x, hm⟩ := (h.owned i u hu).mapped id a ha
      rw [Function.update_self, Function.update_of_ne (Heap.lt_next hm.session).ne]
    · rw [Function.update_of_ne hij]
  · rfl

/-- A server's step, if the id it gives out, if any, is not in the server's map. -/
theorem Counted.stepServer (h : Counted s) {j : ℕ} {v w : CTcpServer} {l : CTcpServer.Label}
    (hv : s.servers j = some v) (hs : (s.counting v).step l = some w)
    (hid : v.accepted.length < w.accepted.length →
      v.clientSessionMap[idOf (s.ids + 1)]? = none) : Counted (s.stepServer j v w) := by
  obtain ⟨ho, ht, hin, hnext⟩ := h.counting hv
  obtain ⟨hsid, hids⟩ := h.sId_stepServer hv hs
  have hle : s.ids ≤ (s.stepServer j v w).ids := Nat.le_add_right _ _
  have hold : ∀ {i u id a}, s.servers i = some u → u.clientSessionMap[id]? = some a →
      (s.stepServer j v w).number i a ≤ (s.stepServer j v w).ids
        ∧ id = idOf ((s.stepServer j v w).number i a) := by
    intro i u id a hu ha
    obtain ⟨hnum, hid⟩ := h.number i u id a hu ha
    rw [h.number_stepServer hv hu ha]
    exact ⟨hnum.trans hle, hid⟩
  have henrolled : Enrolled w := CTcpServer.enrolled_step ho ht hin hs fun hlt => by
    rw [hnext]
    exact hid hlt
  refine ⟨hsid, forall_update (CTcpServer.owned_step ho hs) fun i u _ => h.owned i u,
    forall_update (CTcpServer.tied_step ho ht hs) fun i u _ => h.tied i u,
    forall_update henrolled fun i u _ => h.enrolled i u, fun i u id a hu ha => ?_⟩
  refine forall_update (P := fun i u => u.clientSessionMap[id]? = some a →
    (s.stepServer j v w).number i a ≤ (s.stepServer j v w).ids
      ∧ id = idOf ((s.stepServer j v w).number i a)) ?_ (fun i u _ hu => hold hu) i u hu ha
  intro ha
  rcases CTcpServer.map_step hs ha with ha | ⟨hlt, rfl, rfl⟩
  · exact hold hv ha
  · have hlt : v.accepted.length < w.accepted.length := hlt
    have hnum : (s.stepServer j v w).number j (s.counting v).sessions.next = s.ids + 1 := by
      show (if _ then _ else _ : ℕ → ℕ → ℕ) j v.sessions.next = _
      rw [if_pos hlt, Function.update_self, Function.update_self]
    rw [hnum, ← hids hlt]
    exact ⟨le_rfl, hsid⟩

theorem counted_step (h : Counted s) (hl : NoneLapped s l) (hs : step s l = some s') :
    Counted s' := by
  cases l with
  | start j packhead =>
    simp only [step, Option.ite_none_left_eq_some, Option.some.injEq] at hs
    exact hs.2 ▸ h.start j packhead
  | server j l =>
    obtain ⟨v, hv, hs⟩ := Option.bind_eq_some_iff.1 hs
    obtain ⟨w, hw, rfl⟩ := Option.map_eq_some_iff.1 hs
    refine h.stepServer hv hw fun hlt => (h.lapped_iff hv).2 ?_
    exact hl (CTcpServer.label_of_accepted hw hlt) v hv

/-- A server's step keeps its ids unique if the id it gives out, if any, is not in the map. -/
theorem keepsIds {v w : CTcpServer} {l : CTcpServer.Label} (ht : Tied v) (hin : Enrolled v)
    (hs : v.step l = some w) (hfree : l = .acceptConnection 0 ⟨0, 0, 0⟩ →
      v.clientSessionMap[v.createSessionId]? = none) : KeepsIds v l w where
  fresh id a hcb := by
    obtain rfl := CTcpServer.label_of_accepted hs (CTcpServer.newConn_step hs hcb)
    obtain ⟨hcb', hmap⟩ := CTcpServer.accept_step ht hs
    have hsame := List.append_cancel_left (hcb'.symm.trans hcb)
    simp only [List.cons.injEq, ServerCb.newConn.injEq, and_true] at hsame
    obtain ⟨rfl, rfl⟩ := hsame
    refine ⟨hfree rfl, ?_⟩
    rw [hmap, CTcpServer.getElem?_insertSession, if_pos ⟨rfl, hfree rfl⟩]
  self := by
    rintro c x a rfl hx hcb ha
    exact hin.handleClosed ht hs hx hcb ha

/-- A step keeps the ids unique exactly if none is lapped. -/
theorem unique_iff (h : Counted s) (hs : step s l = some s') : Unique s l ↔ NoneLapped s l := by
  cases l with
  | start j packhead => exact iff_of_true trivial trivial
  | server j l =>
    obtain ⟨v, hv, hs⟩ := Option.bind_eq_some_iff.1 hs
    obtain ⟨w, hw, -⟩ := Option.map_eq_some_iff.1 hs
    obtain ⟨-, ht, hin, hnext⟩ := h.counting hv
    constructor
    · intro hu hl u hu'
      obtain rfl := Option.some.inj (hv.symm.trans hu')
      subst hl
      obtain ⟨hcb, -⟩ := CTcpServer.accept_step ht hw
      rw [← h.lapped_iff hv, ← hnext]
      exact ((hu v w hv hw).fresh _ _ hcb).1
    · intro hl u w' hu hw'
      obtain rfl := Option.some.inj (hv.symm.trans hu)
      refine keepsIds ht hin hw' fun hacc => ?_
      rw [hnext]
      exact (h.lapped_iff hv).2 (hl hacc v hv)

/-- The steps of a run keep the session ids unique exactly if, whenever a server starts a session,
no session in its map got its id a multiple of `2 ^ 32` times before. -/
theorem ids_unique_iff {as : List Label} (hr : run step init as = some s) :
    Meets step Unique init as ↔ Meets step NoneLapped init as :=
  meets_iff_meets (I := Counted) (fun _ _ _ h hl hs => counted_step h hl hs)
    (fun _ _ _ h hs => unique_iff h hs) counted_init hr

/-- Two servers start sessions in turn, and one of these is closed before its server starts the
next. -/
def twoServers : List Label :=
  [.start 0 defPackHeadFlag, .start 1 defPackHeadFlag, .server 0 (.acceptConnection 0 ⟨0, 0, 0⟩),
    .server 1 (.acceptConnection 0 ⟨0, 0, 0⟩), .server 0 (.close 0), .server 0 (.asyncEvent []),
    .server 0 (.asyncEvent []), .server 0 (.asyncEvent []), .server 0 (.handleClosed 0),
    .server 0 (.acceptConnection 0 ⟨0, 0, 0⟩)]

theorem ids_unique_twoServers : ∃ s, run step init twoServers = some s ∧ s.ids = 3
    ∧ (Meets step Unique init twoServers ↔ Meets step NoneLapped init twoServers) := by
  obtain ⟨s, hs⟩ := Option.isSome_iff_exists.1
    (show (run step init twoServers).isSome from rfl)
  have hids : (run step init twoServers).map (·.ids) = some 3 := rfl
  rw [hs] at hids
  exact ⟨s, hs, Option.some.inj hids, ids_unique_iff hs⟩

theorem counting_eq {v : CTcpServer} (h : v.sId = s.sId) : s.counting v = v := by
  unfold counting
  rw [← h]

/-- A server alone, as one of the servers. -/
theorem run_server {j : ℕ} : ∀ {ls : List CTcpServer.Label} {s : TcpServers} {v w : CTcpServer},
    s.servers j = some v → v.sId = s.sId → run CTcpServer.step v ls = some w →
      ∃ s', run step s (ls.map (.server j)) = some s' ∧ s'.servers j = some w ∧ w.sId = s'.sId
  | [], s, v, w, hv, hid, hr => by
    rw [run_nil, Option.some.injEq] at hr
    exact ⟨s, rfl, hr ▸ hv, hr ▸ hid⟩
  | l :: ls, s, v, w, hv, hid, hr => by
    obtain ⟨u, hu, hr⟩ := run_cons_eq_some.1 hr
    have hstep : step s (.server j l) = some (s.stepServer j v u) := by
      simp only [step, hv, Option.bind_some, counting_eq hid, hu, Option.map_some]
    obtain ⟨s', hs', hlast⟩ := run_server (s := s.stepServer j v u)
      (Function.update_self ..) rfl hr
    exact ⟨s', run_cons_eq_some.2 ⟨_, hstep, hs'⟩, hlast⟩

/-- One session of a server stays while enough others come and go for its id to be given out
again. -/
def comeRound : List CTcpServer.Label :=
  .acceptConnection 0 ⟨0, 0, 0⟩ :: (List.replicate (2 ^ 32 - 1) CTcpServer.visit).flatten

theorem run_comeRound (packhead : UInt32) : ∃ v,
    run CTcpServer.step (.started packhead) comeRound = some v ∧ v.Serving (2 ^ 32) := by
  obtain ⟨u, hu, hone⟩ := CTcpServer.serving_one packhead
  obtain ⟨v, hv, hserving⟩ := hone.visits (2 ^ 32 - 1) fun k hk => by
    rw [Ne, idOf_eq_one_iff]
    omega
  refine ⟨v, run_cons_eq_some.2 ⟨u, hu, hv⟩, ?_⟩
  rwa [show 1 + (2 ^ 32 - 1) = 2 ^ 32 by omega] at hserving

/-- A session can get the id of another one in the map of its server. -/
theorem ids_collide : ¬ ∀ (as : List Label) (s : TcpServers),
    run step init as = some s → Meets step Unique init as := by
  intro h
  obtain ⟨v, hv, hserving⟩ := run_comeRound defPackHeadFlag
  obtain ⟨w, hacc, hcb, -, -⟩ := hserving.again
  generalize comeRound = ls at hv
  set s₀ : TcpServers := { init with
    servers := Function.update init.servers 0 (some (.started defPackHeadFlag)) }
  obtain ⟨s, hs, hserver, hid⟩ := run_server (s := s₀) (Function.update_self ..) rfl hv
  have hrun : run step init (.start 0 defPackHeadFlag :: ls.map (.server 0)) = some s :=
    run_cons_eq_some.2 ⟨s₀, rfl, hs⟩
  have hlast : step s (.server 0 (.acceptConnection 0 ⟨0, 0, 0⟩)) = some (s.stepServer 0 v w) := by
    simp only [step, hserver, Option.bind_some, counting_eq hid, hacc, Option.map_some]
  have hall : run step init (.start 0 defPackHeadFlag :: ls.map (.server 0)
      ++ [.server 0 (.acceptConnection 0 ⟨0, 0, 0⟩)]) = some (s.stepServer 0 v w) :=
    run_append_eq_some.2 ⟨s, hrun, run_cons_eq_some.2 ⟨_, hlast, rfl⟩⟩
  have hmeets := h _ _ hall
  have hunique := (hmeets.behind hrun).1 v w hserver (by rw [counting_eq hid]; exact hacc)
  rw [counting_eq hid] at hunique
  have hfree := (hunique.fresh 1 _ hcb).1
  rw [hserving.map, if_pos rfl] at hfree
  cases hfree

end TcpServers

end TestLibuv
