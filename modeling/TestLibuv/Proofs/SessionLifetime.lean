import TestLibuv.Proofs.Ownership

/-!
# Events and the sessions they name

A session is freed by its close callback, whatever the queue holds. So every event names an object
that is alive exactly as long as each close callback finds no event that names the session it
frees.
-/

namespace TestLibuv.CTcpServer

open CMem Runs

variable {s s' : CTcpServer} {l : Label}

/-- The object of every event is alive, and no event was dispatched to a freed session. -/
def EventsAlive (s : CTcpServer) : Prop :=
  (∀ e ∈ s.events, ∀ a, e.data = some (.session a) → s.sessions.Live a)
    ∧ ∀ a, s.fault ≠ some (.deadTarget a)

/-- The step is the close callback of a session that the map holds under its id. -/
def Deletes (s : CTcpServer) (l : Label) (a : ℕ) : Prop :=
  ∃ c x p, l = .handleClosed c ∧ s.ctxs.cells c = some x ∧ x.afterClientClose = true
    ∧ x.handleData = some a ∧ s.sessions.cells a = some p ∧ p.clientSessionCtx = c
    ∧ s.clientSessionMap[x.clientid]? = some a

/-- No event in the queue names the session the step frees. -/
def Unqueued (s : CTcpServer) (l : Label) : Prop :=
  ∀ a, Deletes s l a → ∀ e ∈ s.events, e.data ≠ some (.session a)

theorem EventsAlive.frame (h : EventsAlive s) (hf : Frame s s') : EventsAlive s' := by
  unfold EventsAlive
  rw [hf.events, hf.sessions, hf.fault]
  exact h

/-- A recycling keeps events, sessions and faults. -/
theorem recycle_frame {c : ℕ} (h : s.recycle c = .ok s') :
    s'.events = s.events ∧ s'.sessions = s.sessions ∧ s'.fault = s.fault := by
  rcases recycle_cases h with ⟨-, rfl⟩ | ⟨rfl, -⟩ <;> exact ⟨rfl, rfl, rfl⟩

theorem eventsAlive_step (ho : Owned s) (h : EventsAlive s) (hl : Unqueued s l)
    (hs : step s l = some s') : EventsAlive s' := by
  obtain ⟨-, ht⟩ := step_trans hs
  cases ht with
  | deadTarget he hd hdead => exact absurd (h.1 _ he _ hd) hdead
  | inCall => exact ⟨h.1, by simp⟩
  | moves hm => exact h.frame hm.frame
  | push hm hpush =>
    have hf := hm.frame
    have ht := h.frame hf
    refine ⟨fun e he a ha => ?_, ht.2⟩
    rcases List.mem_append.1 he with he | he
    · exact ht.1 e he a ha
    · rw [List.mem_singleton.1 he] at ha
      exact hf.sessions ▸ hpush a ha
  | pop hm =>
    have hf := hm.frame
    have ht := h.frame hf
    exact ⟨fun e he => ht.1 e (hf.events ▸ List.mem_of_mem_tail he), ht.2⟩
  | giveBack _ htake _ _ =>
    rcases takeCtx_cases htake with ⟨-, -, rfl⟩ | ⟨rest, -, rfl⟩ <;> exact h
  | accept htake _ _ _ =>
    rcases takeCtx_cases htake with ⟨-, -, rfl⟩ | ⟨rest, -, rfl⟩ <;>
      exact ⟨fun e he a ha => (h.1 e he a ha).alloc, h.2⟩
  | recv _ _ _ _ _ _ => exact h
  | closedAlone hm _ _ _ _ _ =>
    have ht := h.frame hm.frame
    exact ⟨fun e he a ha => Heap.live_modify.2 (ht.1 e he a ha), ht.2⟩
  | sessionEnds hx _ hcb ha hp hpc hmap hq hcl hv =>
    obtain rfl := ho.ends_self hmap hq hcl
    obtain ⟨hev, hse, hfa⟩ := recycle_frame hv
    refine ⟨fun e he b hb => ?_, fun b hb => h.2 b (hfa ▸ hb)⟩
    have he : e ∈ s.events := hev ▸ he
    have hne := hl _ ⟨_, _, _, rfl, hx, hcb, ha, hp, hpc, hmap⟩ e he
    rw [Heap.live_free, hse]
    exact ⟨fun hba => hne (hba ▸ hb), Heap.live_modify.2 (h.1 e he b hb)⟩

/-- A context whose handle was closed can be recycled. -/
theorem recycle_closed {c : ℕ} {x : TcpSessionCtx} (hx : s.ctxs.cells c = some x)
    (hp : x.sessionTcpHandle.phase = .closed) : ∃ v, s.recycle c = .ok v := by
  unfold recycle
  split_ifs
  · exact ⟨{ s with ctxs := s.ctxs.free c }, by
      simp only [freeTcpSessionCtx, ctx, hx, bind, Except.bind, hp]
      rfl⟩
  · exact ⟨_, rfl⟩

/-- A session is reported closed and deleted, and its context recycled. -/
structure Ends (s s' : CTcpServer) (id : ℤ) (a c : ℕ) : Prop where
  events : s'.events = s.events
  deleted : ¬ s'.sessions.Live a
  reported : s'.callbacks = s.callbacks ++ [.close id a]
  recycled : c ∈ s'.idleTcpClientCtxList ∨ ¬ s'.ctxs.Live c

theorem handleClose_deletes {id : ℤ} {a : ℕ} {q : CTcpClientSession} {x : TcpSessionCtx}
    (hmap : s.clientSessionMap[id]? = some a) (hq : s.sessions.cells a = some q)
    (hcl : q.isclosed = true) (hx : s.ctxs.cells q.clientSessionCtx = some x)
    (hp : x.sessionTcpHandle.phase = .closed) :
    ∃ v, s.cTcpClientSessionHandleClose id = .ok v ∧ Ends s v id a q.clientSessionCtx := by
  set t := s.report [.close id a] with ht
  obtain ⟨v, hv⟩ := recycle_closed (s := t) hx hp
  refine ⟨{ v with
    sessions := v.sessions.free a, clientSessionMap := v.clientSessionMap.erase id }, ?_,
    (recycle_frame hv).1, fun hlive => (Heap.live_free.1 hlive).1 rfl, ?_, ?_⟩
  · have hsession : t.session a = .ok q := session_of_cells hq
    simp only [cTcpClientSessionHandleClose, hmap, ← ht, deleteSession, hsession, bind,
      Except.bind, hv, hcl, if_true]
    rfl
  · rcases recycle_cases hv with ⟨-, rfl⟩ | ⟨rfl, -⟩ <;> rfl
  · rcases recycle_cases hv with ⟨-, rfl⟩ | ⟨rfl, -⟩
    · exact .inl (List.mem_append_right _ (List.mem_singleton_self _))
    · exact .inr fun hlive => (Heap.live_free.1 hlive).1 rfl

/-- The close callback of a session in the map, where the idle list is short. -/
theorem handleClose_short {id : ℤ} {a : ℕ} {q : CTcpClientSession}
    (hmap : s.clientSessionMap[id]? = some a) (hq : s.sessions.cells a = some q)
    (hroom : s.idleTcpClientCtxList.length ≤ maxListSize) :
    s.cTcpClientSessionHandleClose id = if q.isclosed then .ok { s.report [.close id a] with
        idleTcpClientCtxList := s.idleTcpClientCtxList ++ [q.clientSessionCtx]
        sessions := s.sessions.free a
        clientSessionMap := s.clientSessionMap.erase id }
      else .error (.destructorWaits a) := by
  set t := s.report [.close id a] with ht
  have hsession : t.session a = .ok q := session_of_cells hq
  have hrecycle : t.recycle q.clientSessionCtx = .ok { t with
      idleTcpClientCtxList := s.idleTcpClientCtxList ++ [q.clientSessionCtx] } :=
    if_neg (not_lt.2 hroom)
  simp only [cTcpClientSessionHandleClose, hmap, ← ht, deleteSession, hsession, bind, Except.bind,
    hrecycle]
  rfl

/-- The session that a handle names goes on to what the map has under the context's id. -/
theorem afterClientClose_own {a c : ℕ} {p : CTcpClientSession} {x : TcpSessionCtx}
    (ha : x.handleData = some a) (hp : s.sessions.cells a = some p)
    (hpc : p.clientSessionCtx = c) : CTcpClientSession.afterClientClose s c x
      = cTcpClientSessionHandleClose { s with
        sessions := s.sessions.modify a fun p => { p with isclosed := true } } x.clientid := by
  have hfollow : s.follow x.handleData = .ok (a, p) := follow_of_cells ha hp
  simp only [CTcpClientSession.afterClientClose, hfollow, bind, Except.bind, hpc, if_true]

theorem afterClientClose_deletes {a c : ℕ} {p : CTcpClientSession} {x y : TcpSessionCtx}
    (ha : x.handleData = some a) (hp : s.sessions.cells a = some p)
    (hpc : p.clientSessionCtx = c) (hmap : s.clientSessionMap[x.clientid]? = some a)
    (hy : s.ctxs.cells c = some y) (hclosed : y.sessionTcpHandle.phase = .closed) :
    ∃ v, CTcpClientSession.afterClientClose s c x = .ok v ∧ Ends s v x.clientid a c := by
  set t := { s with
    sessions := s.sessions.modify a fun p => { p with isclosed := true } } with ht
  have hq : t.sessions.cells a = some { p with isclosed := true } :=
    (Heap.cells_modify.trans (if_pos rfl)).trans (by rw [hp]; rfl)
  have hy' : t.ctxs.cells p.clientSessionCtx = some y := hpc ▸ hy
  obtain ⟨v, hv, hend⟩ := handleClose_deletes (s := t) hmap hq rfl hy' hclosed
  exact ⟨v, (afterClientClose_own ha hp hpc).trans hv, hend.events, hend.deleted, hend.reported,
    hpc ▸ hend.recycled⟩

theorem handleClosed_ends {a c : ℕ} {p : CTcpClientSession} {x : TcpSessionCtx}
    (hx : s.ctxs.cells c = some x) (hcb : x.afterClientClose = true) (ha : x.handleData = some a)
    (hp : s.sessions.cells a = some p) (hpc : p.clientSessionCtx = c)
    (hmap : s.clientSessionMap[x.clientid]? = some a) (hs : step s (.handleClosed c) = some s') :
    Ends s s' x.clientid a c := by
  obtain ⟨r, hr, rfl⟩ := step_act hs (by simp)
  simp only [act, hx, Option.bind_some, Option.ite_none_right_eq_some, Option.some.injEq] at hr
  obtain ⟨-, hr⟩ := hr
  have hcell : (s.setCtx c { x with sessionTcpHandle := x.sessionTcpHandle.finish }).ctxs.cells c
      = some { x with sessionTcpHandle := x.sessionTcpHandle.finish } :=
    (Heap.cells_modify.trans (if_pos rfl)).trans (by rw [hx]; rfl)
  obtain ⟨v, hv, hend⟩ := afterClientClose_deletes
    (s := s.setCtx c { x with sessionTcpHandle := x.sessionTcpHandle.finish }) ha hp hpc hmap hcell
    rfl
  rw [← hr, if_pos hcb, hv]
  exact ⟨hend.events, hend.deleted, hend.reported, hend.recycled⟩

/-- The close callback frees the session and leaves the queue as it is. -/
theorem deletes_step {a : ℕ} (hd : Deletes s l a) (hs : step s l = some s') :
    s'.events = s.events ∧ ¬ s'.sessions.Live a := by
  obtain ⟨c, x, p, rfl, hx, hcb, ha, hp, hpc, hmap⟩ := hd
  have hend := handleClosed_ends hx hcb ha hp hpc hmap hs
  exact ⟨hend.events, hend.deleted⟩

theorem not_eventsAlive_step (hl : ¬ Unqueued s l) (hs : step s l = some s') :
    ¬ EventsAlive s' := by
  unfold Unqueued at hl
  simp only [not_forall, not_not] at hl
  obtain ⟨a, hd, e, he, hdata⟩ := hl
  obtain ⟨hev, hdead⟩ := deletes_step hd hs
  exact fun h => hdead (h.1 e (hev ▸ he) a hdata)

theorem eventsAlive_started (packhead : UInt32) : EventsAlive (started packhead) :=
  ⟨by simp [started], by simp [started]⟩

/-- In every state of a run, every event in the queue names an object that is alive, and none was
dispatched to a freed session, exactly if every close callback of the run finds no event that
names the session it frees. -/
theorem events_alive_iff {as : List Label} {packhead : UInt32} {s : CTcpServer}
    (hr : run step (started packhead) as = some s) :
    Always step EventsAlive (started packhead) as
      ↔ Meets step Unqueued (started packhead) as :=
  always_iff_meets (I := fun s => Owned s ∧ EventsAlive s)
    (fun _ _ _ h hl hs => ⟨owned_step h.1 hs, eventsAlive_step h.1 h.2 hl hs⟩) (fun _ h => h.2)
    (fun _ _ _ _ hl hs => not_eventsAlive_step hl hs)
    ⟨owned_started packhead, eventsAlive_started packhead⟩ hr

/-- A session is accepted, closed by its user, and freed behind that. -/
def closeOnce : List Label :=
  [.acceptConnection 0 ⟨0, 0, 0⟩, .close 0, .asyncEvent [], .asyncEvent [], .asyncEvent [],
    .handleClosed 0]

theorem events_alive_closeOnce : ∃ s, run step (started defPackHeadFlag) closeOnce = some s
    ∧ (Always step EventsAlive (started defPackHeadFlag) closeOnce
      ↔ Meets step Unqueued (started defPackHeadFlag) closeOnce) := by
  obtain ⟨s, hs⟩ := Option.isSome_iff_exists.1
    (show (run step (started defPackHeadFlag) closeOnce).isSome from rfl)
  exact ⟨s, hs, events_alive_iff hs⟩

/-- The user closes the session again before its close callback, and the event is dispatched behind
it. -/
def closeTwice : List Label :=
  [.acceptConnection 0 ⟨0, 0, 0⟩, .close 0, .asyncEvent [], .asyncEvent [], .asyncEvent [],
    .close 0, .handleClosed 0, .asyncEvent [], .asyncEvent []]

/-- An event can be dispatched to a session that was freed. -/
theorem dispatched_to_freed : ¬ ∀ (as : List Label) (s : CTcpServer),
    run step (started defPackHeadFlag) as = some s → EventsAlive s := by
  intro h
  obtain ⟨s, hs⟩ := Option.isSome_iff_exists.1
    (show (run step (started defPackHeadFlag) closeTwice).isSome from rfl)
  have hfault : (run step (started defPackHeadFlag) closeTwice).map CTcpServer.fault
      = some (some (.deadTarget 0)) := rfl
  rw [hs] at hfault
  exact (h _ s hs).2 0 (Option.some.inj hfault)

end TestLibuv.CTcpServer
