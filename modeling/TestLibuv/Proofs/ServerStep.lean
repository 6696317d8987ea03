import TestLibuv.Proofs.ServerFrame

/-!
# The steps of the server

`Trans` lists what a step of the server can be: the few that start a session, end one, push or pop
an event or pass on bytes, and those that make `Moves` only.
-/

namespace TestLibuv.CTcpServer

open CMem Framing

variable {s s' : CTcpServer} {l : Label}

/-- What becomes of a context that `AcceptConnection` gives back, of the number of connections and
of the phases at `uv_tcp_init`. -/
inductive GivenBack (s : CTcpServer) (r : AcceptResults) (x : TcpSessionCtx) :
    TcpSessionCtx → ℕ → List UvPhase → Prop
  | noInit : r.tcpInit ≠ 0 → GivenBack s r x x s.conns s.inits
  | noAccept : r.tcpInit = 0 → r.accept ≠ 0 → GivenBack s r x
      { x with sessionTcpHandle := .init } s.conns (s.inits ++ [x.sessionTcpHandle.phase])
  | noRead : r.tcpInit = 0 → r.accept = 0 → r.readStart ≠ 0 → GivenBack s r x
      { x with
        sessionTcpHandle := (UvTcp.init.accept : UvTcp ℕ).close
        afterClientClose := false
        conn := some s.conns
        packet := x.packet.onPackageCBEvent.init s.packetHead } (s.conns + 1)
      (s.inits ++ [x.sessionTcpHandle.phase])

/-- The context of a connection that is read from, before its session is made. -/
def opened (s : CTcpServer) (x : TcpSessionCtx) : TcpSessionCtx :=
  { x with
    sessionTcpHandle := { (UvTcp.init.accept : UvTcp ℕ) with reading := true }
    conn := some s.conns
    packet := x.packet.onPackageCBEvent.init s.packetHead }

/-- The call that a label makes fails, or the dispatch of an event. -/
inductive Fails (s : CTcpServer) : Label → CallFault → Prop
  | act {l : Label} {f : CallFault} : s.act l = some (.error f) → Fails s l f
  | dispatch {res : List ℤ} {e : UvEvent ServerObj} {f : CallFault} :
      s.dispatch e res = .error f → Fails s (.asyncEvent res) f

/-- What a step under a label can be. -/
inductive Trans (s : CTcpServer) : Label → CTcpServer → Prop
  | deadTarget {res : List ℤ} {e : UvEvent ServerObj} {a : ℕ} : e ∈ s.events →
      e.data = some (.session a) → ¬ s.sessions.Live a →
      Trans s (.asyncEvent res) { s with fault := some (.deadTarget a) }
  | inCall {l : Label} {f : CallFault} : Fails s l f →
      Trans s l { s with fault := some (.inCall f) }
  | moves {l : Label} {s' : CTcpServer} : Moves l s s' → Trans s l s'
  | push {l : Label} {t : CTcpServer} {e : UvEvent ServerObj} : Moves l s t →
      (∀ a, e.data = some (.session a) → s.sessions.Live a) → Trans s l (t.pushEvent e)
  | pop {res : List ℤ} {t : CTcpServer} : Moves (.asyncEvent res) s t →
      Trans s (.asyncEvent res) { t with events := s.events.tail }
  | giveBack {c : ℕ} {r : AcceptResults} {t : CTcpServer} {x x' : TcpSessionCtx} {n : ℕ}
      {inits : List UvPhase} (errmsg : ErrMsg) : s.takeCtx = (c, t) → t.ctxs.cells c = some x →
      GivenBack s r x x' n inits → Trans s (.acceptConnection 0 r)
        { t.setCtx c x' with
          idleTcpClientCtxList := t.idleTcpClientCtxList ++ [c], errmsg, inits, conns := n }
  | accept {c : ℕ} {r : AcceptResults} {t : CTcpServer} {x : TcpSessionCtx} :
      s.takeCtx = (c, t) → t.ctxs.cells c = some x → r.tcpInit = 0 → r.accept = 0 →
      Trans s (.acceptConnection 0 r)
        ({ t with
          inits := s.inits ++ [x.sessionTcpHandle.phase]
          conns := s.conns + 1 }.newSession c (opened s x) s.conns)
  | recv {c : ℕ} {data : List UInt8} {x y : TcpSessionCtx} {a : ℕ} {p : CTcpClientSession}
      {packet : PacketSync} {log : List (Segment UInt8)} : s.ctxs.cells c = some x →
      x.sessionTcpHandle.reading = true → x.handleData = some a → s.sessions.cells a = some p →
      s.ctxs.cells p.clientSessionCtx = some y →
      y.packet.onRecvData data = some (.ok (packet, log)) → Trans s (.afterRecv c data)
        ({ s.setCtx p.clientSessionCtx { y with packet } with
          arrivals := s.arrivals ++ x.conn.toList.map fun n => (n, data) }.report
            ((packet.delivered log).map fun pkt => .recv pkt y.parentClientSession))
  | closedAlone {c : ℕ} {t : CTcpServer} {x : TcpSessionCtx} {a : ℕ} {p : CTcpClientSession} :
      Moves (.handleClosed c) s t → s.ctxs.cells c = some x → x.handleData = some a →
      s.sessions.cells a = some p →
      p.clientSessionCtx = c → s.clientSessionMap[x.clientid]? = none →
      Trans s (.handleClosed c)
        { t with sessions := t.sessions.modify a fun p => { p with isclosed := true } }
  | sessionEnds {c : ℕ} {v : CTcpServer} {x : TcpSessionCtx} {a b : ℕ}
      {p q : CTcpClientSession} :
      s.ctxs.cells c = some x → x.sessionTcpHandle.ends = true → x.afterClientClose = true →
      x.handleData = some a → s.sessions.cells a = some p → p.clientSessionCtx = c →
      s.clientSessionMap[x.clientid]? = some b → (s.ended c x a b).sessions.cells b = some q →
      q.isclosed = true → (s.ended c x a b).recycle q.clientSessionCtx = .ok v →
      Trans s (.handleClosed c)
        { v with
          sessions := v.sessions.free b
          clientSessionMap := v.clientSessionMap.erase x.clientid }

variable {c : ℕ}

theorem cells_ended {x : TcpSessionCtx} {a b : ℕ} (hx : s.ctxs.cells c = some x) :
    (s.ended c x a b).ctxs.cells c
      = some { x with sessionTcpHandle := x.sessionTcpHandle.finish } :=
  (cells_setCtx hx _ c).trans (if_pos rfl)

theorem settle_trans {r : Except CallFault CTcpServer} (hf : ∀ f, r = .error f → Fails s l f)
    (h : ∀ s', r = .ok s' → Trans s l s') : Trans s l (s.settle r) := by
  rcases r with f | s'
  · exact .inCall (hf f rfl)
  · exact h s' rfl

theorem takeCtx_cases {t : CTcpServer} (h : s.takeCtx = (c, t)) :
    (s.idleTcpClientCtxList = [] ∧ c = s.ctxs.next
        ∧ t = { s with ctxs := s.ctxs.alloc allocTcpSessionCtx })
      ∨ ∃ rest, s.idleTcpClientCtxList = c :: rest ∧ t = { s with
        idleTcpClientCtxList := rest
        ctxs := s.ctxs.modify c fun x => { x with parentClientSession := none } } := by
  unfold takeCtx at h
  split at h
  · rename_i hi
    obtain ⟨rfl, rfl⟩ := Prod.mk.inj h
    exact .inl ⟨hi, rfl, rfl⟩
  · rename_i d rest hi
    obtain ⟨rfl, rfl⟩ := Prod.mk.inj h
    exact .inr ⟨rest, hi, rfl⟩

theorem takeCtx_fields {t : CTcpServer} (ht : s.takeCtx = (c, t)) :
    t.packetHead = s.packetHead ∧ t.conns = s.conns := by
  rcases takeCtx_cases ht with ⟨-, -, rfl⟩ | ⟨rest, -, rfl⟩ <;> exact ⟨rfl, rfl⟩

theorem takeCtx_inits {t : CTcpServer} (ht : s.takeCtx = (c, t)) : t.inits = s.inits := by
  rcases takeCtx_cases ht with ⟨-, -, rfl⟩ | ⟨rest, -, rfl⟩ <;> rfl

/-- `uv_read_start` on a handle that was just connected returns what the system does. -/
theorem readStart_accept (res : ℤ) : ((UvTcp.init.accept : UvTcp ℕ).readStart res).1 = res := by
  unfold UvTcp.readStart
  split_ifs with hr hw hz
  · simp [UvTcp.init, UvTcp.accept, UvTcp.blank] at hr
  · simp [UvTcp.accept] at hw
  · exact hz.symm
  · rfl

theorem recycle_cases (h : s.recycle c = .ok s') :
    (s.idleTcpClientCtxList.length ≤ maxListSize
        ∧ s' = { s with idleTcpClientCtxList := s.idleTcpClientCtxList ++ [c] })
      ∨ s' = { s with ctxs := s.ctxs.free c } ∧ ∃ x, s.ctxs.cells c = some x
        ∧ (x.sessionTcpHandle.phase = .blank ∨ x.sessionTcpHandle.phase = .closed) := by
  unfold recycle at h
  split_ifs at h with hlong
  · obtain ⟨x, hx, h⟩ := bind_eq_ok h
    refine .inr ?_
    rcases hp : x.sessionTcpHandle.phase <;> simp only [hp] at h
    · exact ⟨(Except.ok.inj h).symm, x, ctx_eq_ok hx, .inl hp⟩
    · exact absurd h throw_ne_ok
    · exact absurd h throw_ne_ok
    · exact ⟨(Except.ok.inj h).symm, x, ctx_eq_ok hx, .inr hp⟩
    · exact absurd h throw_ne_ok
  · exact .inl ⟨by omega, (Except.ok.inj h).symm⟩

theorem setCtx_self {x : TcpSessionCtx} (hx : s.ctxs.cells c = some x) : s.setCtx c x = s := by
  have hcells : (s.ctxs.modify c fun _ => x) = s.ctxs := by
    unfold Heap.modify
    congr 1
    funext d
    split_ifs with hdc
    · rw [hdc, hx]
      rfl
    · rfl
  unfold setCtx
  rw [hcells]

theorem startSession_trans {t : CTcpServer} {x : TcpSessionCtx} {r : AcceptResults}
    (ht : s.takeCtx = (c, t)) (hx : t.ctxs.cells c = some x) (hinit : r.tcpInit = 0)
    (hacc : r.accept = 0)
    (h : startSession { t with inits := t.inits ++ [x.sessionTcpHandle.phase] } c
      { x with sessionTcpHandle := .init } r.readStart = .ok s') :
    Trans s (.acceptConnection 0 r) s' := by
  obtain ⟨hhead, hconns⟩ := takeCtx_fields ht
  have hinits := takeCtx_inits ht
  unfold startSession at h
  dsimp only at h
  rcases (UvTcp.init.accept : UvTcp ℕ).readStart_eq r.readStart with ⟨hne, heq⟩ | heq
  · rw [if_pos hne, heq] at h
    obtain ⟨v, hv, h⟩ := bind_eq_ok h
    obtain rfl := Except.ok.inj h
    rcases recycle_cases hv with ⟨-, rfl⟩ | ⟨-, y, hy, hphase⟩
    · have hback := Trans.giveBack
        (.uvError ((UvTcp.init.accept : UvTcp ℕ).readStart r.readStart).1) ht hx
        (.noRead hinit hacc (readStart_accept r.readStart ▸ hne))
      rw [← hconns, ← hhead, ← hinits] at hback
      exact hback
    · -- the handle is closing, so it is not freed
      simp only [setCtx, Heap.cells_modify, if_true, hx, Option.map_some, Option.some.injEq] at hy
      rw [← hy] at hphase
      rcases hphase with h | h <;> cases h
  · rw [heq, if_neg (by simp)] at h
    have hok := Trans.accept ht hx hinit hacc
    unfold opened at hok
    rw [← hconns, ← hhead, ← hinits] at hok
    exact Except.ok.inj h ▸ hok

theorem accept_trans {status : ℤ} {r : AcceptResults}
    (h : s.acceptConnection status r = .ok s') : Trans s (.acceptConnection status r) s' := by
  unfold acceptConnection at h
  by_cases hst : status ≠ 0
  · rw [if_pos hst] at h
    exact Except.ok.inj h ▸ .moves (.single (.rest s.isClosed s.draining _ (.inl rfl)))
  rw [if_neg hst] at h
  obtain rfl : status = 0 := by simpa using hst
  rcases ht : s.takeCtx with ⟨c, t⟩
  rw [ht] at h
  obtain ⟨x, hx, h⟩ := bind_eq_ok h
  have hx := ctx_eq_ok hx
  obtain ⟨-, hconns⟩ := takeCtx_fields ht
  have hinits := takeCtx_inits ht
  split_ifs at h with hinit hacc
  · have hback := Trans.giveBack (.uvError r.tcpInit) ht hx (.noInit hinit)
    rw [setCtx_self hx, ← hconns, ← hinits] at hback
    exact Except.ok.inj h ▸ hback
  · have hback := Trans.giveBack (.uvError r.accept) ht hx (.noAccept (by simpa using hinit) hacc)
    rw [← hconns, ← hinits] at hback
    exact Except.ok.inj h ▸ hback
  · exact startSession_trans ht hx (by simpa using hinit) (by simpa using hacc) h

theorem live_of_request {a : ℕ} {p : CTcpClientSession} (hp : s.sessions.cells a = some p)
    (b : ℕ) (hb : some (ServerObj.session a) = some (.session b)) : s.sessions.Live b := by
  obtain rfl : a = b := by simpa using hb
  exact Heap.live_of_cells hp

theorem close_trans {a : ℕ} (h : CTcpClientSession.close s a = .ok s') : Trans s l s' := by
  obtain ⟨p, hp, h⟩ := bind_eq_ok h
  obtain rfl := Except.ok.inj h
  split_ifs
  · exact .moves .refl
  · exact .push .refl (live_of_request (session_eq_ok hp))

theorem shutDown_trans {a : ℕ} (h : CTcpClientSession.shutDown s a = .ok s') : Trans s l s' := by
  obtain ⟨p, hp, h⟩ := bind_eq_ok h
  obtain rfl := Except.ok.inj h
  split_ifs
  · exact .moves .refl
  · exact .push .refl (live_of_request (session_eq_ok hp))

theorem afterRecv_trans {x : TcpSessionCtx} {data : List UInt8} (hx : s.ctxs.cells c = some x)
    (hr : x.sessionTcpHandle.reading = true)
    (h : CTcpClientSession.afterRecv s x data = .ok s') : Trans s (.afterRecv c data) s' := by
  obtain ⟨⟨a, p⟩, hap, h⟩ := bind_eq_ok h
  obtain ⟨y, hy, h⟩ := bind_eq_ok h
  obtain ⟨ha, hp⟩ := follow_eq_ok hap
  have hy := ctx_eq_ok hy
  split_ifs at h
  · exact Except.ok.inj h ▸ .moves .refl
  rcases hrecv : y.packet.onRecvData data with _ | e | ⟨packet, log⟩ <;> simp only [hrecv] at h
  · exact absurd h throw_ne_ok
  · exact absurd h throw_ne_ok
  · exact Except.ok.inj h ▸ .recv hx hr ha hp hy hrecv

theorem afterRecvError_trans {x : TcpSessionCtx} {nread : ℤ} (hx : s.ctxs.cells c = some x)
    (h : CTcpClientSession.afterRecvError (s.setCtx c { x with
      sessionTcpHandle := x.sessionTcpHandle.readError nread }) x = .ok s') : Trans s l s' := by
  have hmoves : Moves l s (s.setCtx c { x with
      sessionTcpHandle := x.sessionTcpHandle.readError nread }) := .single (.readError hx)
  obtain ⟨⟨a, p⟩, -, h⟩ := bind_eq_ok h
  obtain ⟨y, -, h⟩ := bind_eq_ok h
  obtain ⟨⟨b, q⟩, -, h⟩ := bind_eq_ok h
  obtain ⟨q, hq, h⟩ := bind_eq_ok h
  obtain rfl := Except.ok.inj h
  split_ifs
  · exact .moves hmoves
  · exact .push hmoves (live_of_request (session_eq_ok hq))

theorem handleClosed_trans {x : TcpSessionCtx} (hx : s.ctxs.cells c = some x)
    (he : x.sessionTcpHandle.ends = true) (hcb : x.afterClientClose = true)
    (h : CTcpClientSession.afterClientClose (s.setCtx c { x with
      sessionTcpHandle := x.sessionTcpHandle.finish }) c x = .ok s') :
    Trans s (.handleClosed c) s' := by
  have hmoves : Moves (.handleClosed c) s (s.setCtx c { x with
      sessionTcpHandle := x.sessionTcpHandle.finish }) := .single (.finish hx he)
  obtain ⟨⟨a, p⟩, hap, h⟩ := bind_eq_ok h
  obtain ⟨ha, hp⟩ := follow_eq_ok hap
  dsimp only at h
  by_cases hpc : p.clientSessionCtx = c
  · rw [if_pos hpc] at h
    unfold cTcpClientSessionHandleClose at h
    split at h
    · rename_i hmap
      exact Except.ok.inj h ▸ .closedAlone hmoves hx ha hp hpc hmap
    · rename_i b hmap
      obtain ⟨q, hq, h⟩ := bind_eq_ok h
      obtain ⟨v, hv, h⟩ := bind_eq_ok h
      by_cases hcl : q.isclosed = true
      · rw [if_pos hcl] at h
        exact Except.ok.inj h ▸ .sessionEnds hx he hcb ha hp hpc hmap (session_eq_ok hq) hcl hv
      · rw [if_neg hcl] at h
        exact absurd h throw_ne_ok
  · rw [if_neg hpc] at h
    exact Except.ok.inj h ▸ .moves hmoves

theorem drain_trans (res : List ℤ) : Trans s (.asyncEvent res) (s.drain res) := by
  unfold drain
  split_ifs
  · split
    · exact .moves (.single (.rest s.isClosed false s.errmsg (.inl rfl)))
    · rename_i e rest he
      split
      · rename_i a ha
        unfold deadTarget at ha
        split at ha
        · rename_i b hb
          split_ifs at ha with hlive
          obtain rfl := Option.some.inj ha
          exact .deadTarget (e := e) (by simp [he]) hb hlive
        · simp at ha
      · rcases hd : s.dispatch e res with f | t
        · exact .inCall (.dispatch hd)
        · have hmoves : Moves (.asyncEvent res) s t := moves_dispatch hd
          have hpop : Trans s (.asyncEvent res) _ := .pop hmoves
          rw [← hmoves.frame.events] at hpop
          exact hpop
  · exact .moves (.single (.rest s.isClosed true s.errmsg (.inl rfl)))

theorem act_trans {r : Except CallFault CTcpServer} (h : s.act l = some r) :
    Trans s l (s.settle r) := by
  refine settle_trans (fun f hf => .act (hf ▸ h)) fun s' hs => ?_
  subst hs
  cases l with
  | close a =>
    simp only [act, Option.ite_none_right_eq_some, Option.some.injEq] at h
    exact close_trans h.2
  | shutDown a =>
    simp only [act, Option.ite_none_right_eq_some, Option.some.injEq] at h
    exact shutDown_trans h.2
  | send a buff res =>
    simp only [act, Option.ite_none_right_eq_some, Option.some.injEq] at h
    exact .moves (moves_send h.2)
  | broadcast senddata excludeid =>
    simp only [act, Option.some.injEq, Except.ok.injEq] at h
    exact h ▸ .push .refl (by simp)
  | acceptConnection status r =>
    simp only [act, Option.ite_none_right_eq_some, Option.some.injEq] at h
    exact accept_trans h.2
  | afterRecv c data =>
    obtain ⟨x, hx, h⟩ := Option.bind_eq_some_iff.1 h
    split_ifs at h with hg
    exact afterRecv_trans hx hg.1 (Option.some.inj h)
  | afterRecvError c nread =>
    obtain ⟨x, hx, h⟩ := Option.bind_eq_some_iff.1 h
    split_ifs at h
    exact afterRecvError_trans hx (Option.some.inj h)
  | afterSend c i =>
    obtain ⟨x, hx, h⟩ := Option.bind_eq_some_iff.1 h
    obtain ⟨w, hw, h⟩ := Option.map_eq_some_iff.1 h
    exact .moves (.single (.sent hx hw h))
  | afterShutDown c =>
    obtain ⟨x, hx, h⟩ := Option.bind_eq_some_iff.1 h
    split_ifs at h
    obtain ⟨a, -, h⟩ := Option.map_eq_some_iff.1 h
    exact .moves (.head (.shutdownDone hx) (moves_closeinl h))
  | handleClosed c =>
    obtain ⟨x, hx, h⟩ := Option.bind_eq_some_iff.1 h
    split_ifs at h with he hcb
    · exact handleClosed_trans hx he hcb (Option.some.inj h)
    · exact Except.ok.inj (Option.some.inj h) ▸ .moves (.single (.finish hx he))
  | asyncEvent res => simp [act] at h
  | asyncCB =>
    simp only [act, Option.some.injEq] at h
    exact .moves (.head (.rest s.isClosed s.draining s.errmsg (.inr (.inl rfl))) (moves_walk h))
  | afterServerClose =>
    simp only [act, Option.ite_none_right_eq_some, Option.some.injEq, Except.ok.injEq] at h
    exact h.2 ▸ .moves (.single (.rest true s.draining s.errmsg (.inr (.inr rfl))))

/-- A step other than the drain's is what its call does. -/
theorem step_act (h : step s l = some s') (hl : ∀ res, l ≠ .asyncEvent res) :
    ∃ r, s.act l = some r ∧ s' = s.settle r := by
  unfold step at h
  by_cases hf : s.fault.isSome = true
  · simp [hf] at h
  rw [if_neg hf] at h
  cases l with
  | asyncEvent res => exact absurd rfl (hl res)
  | _ =>
    dsimp only at h
    by_cases hd : s.draining = true
    · simp [hd] at h
    · rw [if_neg hd] at h
      obtain ⟨r, hr, rfl⟩ := Option.map_eq_some_iff.1 h
      exact ⟨r, hr, rfl⟩

theorem draining_of_step (h : step s l = some s') (hl : ∀ res, l ≠ .asyncEvent res) :
    s.draining = false := by
  unfold step at h
  by_cases hf : s.fault.isSome = true
  · simp [hf] at h
  rw [if_neg hf] at h
  cases l with
  | asyncEvent res => exact absurd rfl (hl res)
  | _ =>
    dsimp only at h
    by_contra hd
    simp [hd] at h

theorem fault_of_step (h : step s l = some s') : s.fault = none := by
  unfold step at h
  by_cases hf : s.fault.isSome = true
  · simp [hf] at h
  · simpa using hf

theorem step_asyncEvent (hf : s.fault = none) (res : List ℤ) :
    step s (.asyncEvent res) = some (s.drain res) := by
  unfold step
  rw [hf, Option.isSome_none, if_neg Bool.false_ne_true]

/-- Everything but `AsyncEvent` waits for its loop to end. -/
theorem step_eq_act (hf : s.fault = none) (hd : s.draining = false)
    (hl : ∀ res, l ≠ .asyncEvent res) : step s l = (s.act l).map s.settle := by
  unfold step
  rw [hf, Option.isSome_none, if_neg Bool.false_ne_true]
  cases l with
  | asyncEvent res => exact absurd rfl (hl res)
  | _ => exact if_neg (by simp [hd])

theorem step_trans (h : step s l = some s') : s.fault = none ∧ Trans s l s' := by
  have hf := fault_of_step h
  refine ⟨hf, ?_⟩
  by_cases hl : ∀ res, l ≠ .asyncEvent res
  · obtain ⟨r, hr, rfl⟩ := step_act h hl
    exact act_trans hr
  · simp only [not_forall, not_not] at hl
    obtain ⟨res, rfl⟩ := hl
    rw [step_asyncEvent hf, Option.some.injEq] at h
    exact h ▸ drain_trans res

end TestLibuv.CTcpServer
