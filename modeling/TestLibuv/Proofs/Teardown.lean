import TestLibuv.Teardown
import TestLibuv.Proofs.LoopHandlesStep

/-!
# The destructors behind the looper's

A client's handle that is closed leaves the status at `TCP_STATUS_NONE`, so its destructor finds
nothing to close, unless the user connects again before the thread is joined. A server and a UDP
socket never lose their looper, and their destructors close it once more.
-/

namespace TestLibuv

open Runs

namespace CTcpClient

variable {p q : CTcpClient} {l : Label}

/-- `CTcpClient::Close`, which the destructor calls, pushes an event if it calls the looper. -/
theorem close_eq (p : CTcpClient) :
    p.close = if p.destructorCalls = [] then p else p.pushEvent .close none 0 := by
  unfold close destructorCalls
  split_ifs <;> simp_all

theorem looper_step (hs : step p l = some q) : q.looper = p.looper := by
  cases step_trans hs <;> rfl

/-- A client that was attached, and whose status is of no open connection once its handle is closed
and the close callback is over. -/
structure Settled (p : CTcpClient) : Prop where
  looper : p.looper = true
  attached : p.tcphandle.phase ≠ .blank
  status : p.tcphandle.phase.registered = false → p.inCloseCb = false → p.isOpening = false

/-- A `Connect` is accepted on a handle that was closed. -/
def ConnectsClosed (p : CTcpClient) : Label → Prop
  | .connect ip port timeOut isIPv6 => p.tcphandle.phase.registered = false
      ∧ p.inCloseCb = false ∧ (p.connect ip port timeOut isIPv6).1 = true
  | _ => False

instance (p : CTcpClient) : DecidablePred p.ConnectsClosed
  | .connect _ _ _ _ => inferInstanceAs (Decidable (_ ∧ _ ∧ _))
  | .close | .shutdown | .send _ | .doEvent _ | .connectTimeOut | .afterConnect _ _ | .afterRecv _
  | .afterRecvError _ | .afterSend _ | .afterShutDown | .afterHandleCloseBegin
  | .afterHandleCloseEnd | .timerClosed | .looperClose => .isFalse id

/-- A request of the handle may have completed. -/
theorem Settled.of_eq (h : Settled p) (hlooper : q.looper = p.looper)
    (hphase : q.tcphandle.phase.completed = p.tcphandle.phase.completed)
    (hcb : q.inCloseCb = p.inCloseCb) (hstatus : q.isOpening = true → p.isOpening = true) :
    Settled q := by
  have hreg : q.tcphandle.phase.registered = p.tcphandle.phase.registered := by
    rw [← UvPhase.registered_completed, hphase, UvPhase.registered_completed]
  refine ⟨hlooper.trans h.looper, fun hblank => h.attached ?_, fun hq hin => ?_⟩
  · rw [← UvPhase.completed_eq_blank, ← hphase, hblank]
    rfl
  · have hp := h.status (hreg ▸ hq) (hcb ▸ hin)
    by_contra hopening
    simp [hp] at hstatus
    exact hopening hstatus

theorem Settled.of_closing (h : Settled p) (hlooper : q.looper = p.looper)
    (hphase : q.tcphandle.phase = p.tcphandle.close.phase)
    (hcb : q.inCloseCb = p.inCloseCb) (hstatus : q.isOpening = true → p.isOpening = true) :
    Settled q := by
  rcases hc : p.tcphandle.isClosing with _ | _
  · rw [p.tcphandle.phase_close hc] at hphase
    refine ⟨hlooper.trans h.looper, by simp [hphase], fun hreg => ?_⟩
    simp [hphase, UvPhase.registered] at hreg
  · refine h.of_eq hlooper (congrArg _ (hphase.trans ?_)) hcb hstatus
    rw [UvTcp.close, if_pos hc]

theorem settled_step (h : Settled p) (hl : ¬ p.ConnectsClosed l) (hs : step p l = some q) :
    Settled q := by
  cases step_trans hs with
  | refused _ => exact h
  | connect hst hw hlooper =>
    refine ⟨h.looper, h.attached, fun hreg hin => absurd ⟨hreg, hin, ?_⟩ hl⟩
    unfold CTcpClient.connect
    rcases hst with hst | hst <;> simp [hst, hw, hlooper]
  | connectAlone _ _ hlooper => simp [h.looper] at hlooper
  | closeCloses _ _ _ | looperClose => exact h.of_closing rfl rfl rfl id
  | shutdownCloses _ => exact h.of_closing rfl rfl rfl id
  | recvError _ =>
    refine h.of_closing rfl ?_ rfl (by simp [isOpening])
    unfold UvTcp.close UvTcp.isClosing UvTcp.readError
    split_ifs <;> rfl
  | connectTimeOut _ => exact h.of_closing rfl rfl rfl (by simp [isOpening])
  | shutdownEvent _ _ =>
    exact h.of_eq rfl (congrArg _ (p.tcphandle.shutdown_frame 0).1) rfl id
  | connectCancelled _ _ _ => exact h.of_eq rfl (by simp) rfl id
  | connectError _ _ => exact h.of_eq rfl (by simp) rfl (by simp [isOpening])
  | connected _ hopen =>
    have hactive : p.tcphandle.phase = .active := by
      have hne := h.attached
      rcases hp : p.tcphandle.phase <;> simp [UvTcp.isClosing, hp, UvPhase.isClosing] at hopen hne ⊢
    have hphase : (p.tcphandle.connected 0).phase = .active := by simp [hactive]
    have hreg : (p.tcphandle.connected 0).phase.registered = true := by
      rw [hphase]
      rfl
    exact ⟨h.looper, by simp [hactive], fun hq => absurd (hreg.symm.trans hq) (by simp)⟩
  | closeBegin _ _ _ => exact ⟨h.looper, by simp [UvTcp.finish], fun _ hin => by simp at hin⟩
  | closeEnd _ => exact ⟨h.looper, h.attached, fun _ _ => by simp [isOpening]⟩
  | _ => exact h.of_eq rfl rfl rfl id

/-- A client whose handle is open has no connection but one it reads from. -/
def Idle (p : CTcpClient) : Prop :=
  p.tcphandle.phase = .active → p.inCloseCb = false → p.isOpening = true →
    p.tcphandle.reading = true

theorem Idle.of_closing (hphase : q.tcphandle.phase ≠ .active) : Idle q := fun hactive =>
  absurd hactive hphase

theorem idle_step (h : Idle p) (hpush : q.events.length ≤ p.events.length)
    (hs : step p l = some q) : Idle q := by
  cases step_trans hs with
  | connect _ _ _ =>
    simp only [pushEvent, List.length_append, List.length_singleton] at hpush
    omega
  | closeCloses _ _ _ | connectTimeOut _ | looperClose => exact .of_closing (by simp)
  | recvError _ | shutdownCloses _ => exact .of_closing (by simp)
  | closeBegin _ _ _ => exact .of_closing (by simp [UvTcp.finish])
  | shutdownEvent _ _ =>
    obtain ⟨hphase, -, hreading⟩ := p.tcphandle.shutdown_frame 0
    exact fun hactive hin hopening => hreading.trans (h (hphase ▸ hactive) hin hopening)
  | connectCancelled _ _ _ =>
    exact fun hactive hin hopening => by simpa using h (by simpa using hactive) hin hopening
  | connectAlone _ _ _ | connectError _ _ | closeEnd _ =>
    exact fun _ _ hopening => by simp [isOpening] at hopening
  | connected _ _ => exact fun _ _ _ => rfl
  | _ => exact h

end CTcpClient

/-- An object that user code attaches, and deletes. -/
def HandleData.attachable : HandleData → Bool
  | .looper | .tcpClientSession _ _ => false
  | .tcpClient _ | .tcpServer _ | .uvUdp _ => true

namespace UvLoop

variable {s t : UvLoop} {l : Label} {o : HandleData}

/-! ## The objects behind a step -/

theorem alive_stepObject (m n : ℕ) : (s.stepObject l m n).alive o = s.alive o := by
  cases o <;> rfl

/-- What `uv_close` on a handle of the loop does to a client. -/
theorem client_uvClose {h : UvHandle} {cb : CloseCb} {i : ℕ} {q : CTcpClient}
    (hq : (s.uvClose h cb).clients i = some q) : ∃ p, s.clients i = some p ∧ (q = p
      ∨ q = { p with tcphandle := p.tcphandle.close }
      ∨ q = { p with connectTimer := p.connectTimer.close }) := by
  cases h with
  | tcphandle i' =>
    obtain ⟨p, hp, rfl | ⟨rfl, rfl⟩⟩ := update_map_eq_some hq
    · exact ⟨q, hp, .inl rfl⟩
    · exact ⟨p, hp, .inr (.inl rfl)⟩
  | connectTimer i' =>
    obtain ⟨p, hp, rfl | ⟨rfl, rfl⟩⟩ := update_map_eq_some hq
    · exact ⟨q, hp, .inl rfl⟩
    · exact ⟨p, hp, .inr (.inr rfl)⟩
  | _ => exact ⟨q, hq, .inl rfl⟩

theorem udp_uvClose {h : UvHandle} {cb : CloseCb} {k : ℕ} {w : CUvUdp}
    (hw : (s.uvClose h cb).udps k = some w) :
    ∃ u, s.udps k = some u ∧ w.loop = u.loop := by
  cases h with
  | udpHandle k' =>
    obtain ⟨u, hu, rfl | ⟨rfl, rfl⟩⟩ := update_map_eq_some hw
    · exact ⟨w, hu, rfl⟩
    · exact ⟨u, hu, rfl⟩
  | _ => exact ⟨w, hw, rfl⟩

/-- The step attaches the object. -/
def Label.attaches : Label → HandleData → Bool
  | .attachClient i _ _, o => o = .tcpClient i
  | .attachServer j _, o => o = .tcpServer j
  | .attachUdp k, o => o = .uvUdp k
  | _, _ => false

theorem alive_setClient (i : ℕ) (p : CTcpClient) (o : HandleData) :
    (s.setClient i p).alive o = (s.alive o || decide (o = .tcpClient i)) := by
  cases o with
  | tcpClient i' =>
    by_cases hi : i' = i <;> simp [alive, UvLoop.setClient, requeue, hi]
  | _ => simp [alive, UvLoop.setClient, requeue]

theorem alive_setUdp (k : ℕ) (u : CUvUdp) (o : HandleData) :
    (s.setUdp k u).alive o = (s.alive o || decide (o = .uvUdp k)) := by
  cases o with
  | uvUdp k' => by_cases hk : k' = k <;> simp [alive, UvLoop.setUdp, requeue, hk]
  | _ => simp [alive, UvLoop.setUdp, requeue]

theorem alive_setServer (j : ℕ) (v : CTcpServer) (ho : o.attachable = true) :
    (s.setServer j v).alive o = (s.alive o || decide (o = .tcpServer j)) := by
  cases o with
  | tcpServer j' => by_cases hj : j' = j <;> simp [alive, UvLoop.setServer, requeue, hj]
  | tcpClientSession j' a => simp [HandleData.attachable] at ho
  | _ => simp [alive, UvLoop.setServer, requeue]

theorem alive_or_self {b : Bool} (h : b = true → s.alive o = true) :
    (s.alive o || b) = s.alive o := by
  rcases b with _ | _
  · exact Bool.or_false _
  · rw [h rfl]
    rfl

/-- An object is there from where it was attached on. -/
theorem alive_step (ho : o.attachable = true) (hs : step s l = some t) :
    t.alive o = (s.alive o || l.attaches o) := by
  cases step_trans hs with
  | attachClient packhead clientid _ => exact alive_setClient _ _ o
  | attachServer packhead _ => exact alive_setServer _ _ ho
  | attachUdp k => exact alive_setUdp k _ o
  | close =>
    unfold close
    split_ifs <;> exact (Bool.or_false _).symm
  | asyncCB _ _ =>
    have hwoken : ({ s with asyncLooperClose := s.asyncLooperClose.wakeup } : UvLoop).alive o
        = s.alive o := by cases o <;> rfl
    refine Eq.trans ?_ (Bool.or_false _).symm
    refine asyncCB_keeps (P := fun t => t.alive o = s.alive o) ?_ ?_ ?_ hwoken
    · exact fun t h cb ht => (alive_uvClose h cb).trans ht
    · exact fun t ws ht => by cases o <;> exact ht
    · exact fun t ht => by cases o <;> exact ht
  | @client i a p q hp _ =>
    have hobject := alive_stepObject (s := s) (o := o) (l := .client i a) p.events.length
      q.events.length
    refine ((alive_setClient _ _ o).trans (alive_or_self fun hd => ?_)).trans
      (hobject.trans (Bool.or_false _).symm)
    rw [hobject, of_decide_eq_true hd, alive, hp]
    rfl
  | @server j a v w hv _ _ =>
    have hobject := alive_stepObject (s := s) (o := o) (l := .server j a) v.events.length
      w.events.length
    refine ((alive_setServer _ _ ho).trans (alive_or_self fun hd => ?_)).trans (Eq.trans ?_
      (hobject.trans (Bool.or_false _).symm))
    · rw [of_decide_eq_true hd]
      show (s.servers j).isSome = true
      rw [hv]
      rfl
    · cases o <;> rfl
  | @udp k a u w hu _ =>
    have hobject := alive_stepObject (s := s) (o := o) (l := .udp k a) u.events.length
      w.events.length
    refine ((alive_setUdp _ _ o).trans (alive_or_self fun hd => ?_)).trans
      (hobject.trans (Bool.or_false _).symm)
    rw [hobject, of_decide_eq_true hd, alive, hu]
    rfl
  | _ => cases o <;> exact (Bool.or_false _).symm

theorem alive_run (ho : o.attachable = true) : ∀ {as : List Label} {s t : UvLoop},
    run step s as = some t → t.alive o = (s.alive o || as.any (·.attaches o))
  | [], s, t, hr => by
    rw [run_nil, Option.some.injEq] at hr
    simp [hr]
  | l :: as, s, t, hr => by
    obtain ⟨u, hu, hr⟩ := run_cons_eq_some.1 hr
    rw [alive_run ho hr, alive_step ho hu, List.any_cons, Bool.or_assoc]

/-- What the clients keep in a step of the loop is what they keep when they are attached, when the
walk closes a handle of theirs, and in their own steps. -/
theorem clients_step {C : CTcpClient → Prop}
    (hattach : ∀ i packhead clientid, (s.phase (.tcphandle i)).registered = false →
      C (CTcpClient.attachLooper ((s.clients i).getD (.new packhead clientid)) 0 0).2)
    (htcp : ∀ p, C p → C { p with tcphandle := p.tcphandle.close })
    (htimer : ∀ p, C p → C { p with connectTimer := p.connectTimer.close })
    (hstep : ∀ i a p q, l = .client i a → s.clients i = some p → p.step a = some q → C p → C q)
    (hs : step s l = some t) (h : ∀ i p, s.clients i = some p → C p) :
    ∀ i p, t.clients i = some p → C p := by
  have hset : ∀ {i : ℕ} {p : CTcpClient} {clients : ℕ → Option CTcpClient}, clients = s.clients →
      C p → ∀ j q, Function.update clients i (some p) j = some q → C q := by
    rintro i p clients rfl hp j q hq
    rcases update_eq_some hq with ⟨-, rfl⟩ | ⟨-, hq⟩
    · exact hp
    · exact h j q hq
  cases step_trans hs with
  | attachClient packhead clientid hreg => exact hset rfl (hattach _ packhead clientid hreg)
  | close =>
    unfold close
    split_ifs <;> exact h
  | asyncCB _ _ =>
    refine asyncCB_keeps (P := fun t => ∀ i p, t.clients i = some p → C p) ?_ ?_ ?_ h
    · intro u x cb hu i q hq
      obtain ⟨p, hp, rfl | rfl | rfl⟩ := client_uvClose hq
      · exact hu i q hp
      · exact htcp p (hu i p hp)
      · exact htimer p (hu i p hp)
    · exact fun u ws hu => hu
    · exact fun u hu => hu
  | client hp hq => exact hset rfl (hstep _ _ _ _ rfl hp hq (h _ _ hp))
  | _ => exact h

theorem looper_step (hs : step s l = some t) (h : ∀ i p, s.clients i = some p → p.looper = true) :
    ∀ i p, t.clients i = some p → p.looper = true :=
  clients_step (fun _ _ _ _ => rfl) (fun _ hp => hp) (fun _ hp => hp)
    (fun _ _ _ _ _ _ hq hp => (CTcpClient.looper_step hq).trans hp) hs h

theorem loop_step (hs : step s l = some t) (h : ∀ k u, s.udps k = some u → u.loop = true) :
    ∀ k u, t.udps k = some u → u.loop = true := by
  have hset : ∀ {k : ℕ} {w : CUvUdp} {udps : ℕ → Option CUvUdp}, udps = s.udps →
      w.loop = true → ∀ k' u, Function.update udps k (some w) k' = some u → u.loop = true := by
    rintro k w udps rfl hw k' u hu
    rcases update_eq_some hu with ⟨-, rfl⟩ | ⟨-, hu⟩
    · exact hw
    · exact h k' u hu
  cases step_trans hs with
  | attachUdp k => exact hset rfl rfl
  | close =>
    unfold close
    split_ifs <;> exact h
  | asyncCB _ _ =>
    refine asyncCB_keeps (P := fun t => ∀ k u, t.udps k = some u → u.loop = true) ?_ ?_ ?_ h
    · intro v x cb hv k w hw
      obtain ⟨u, hu, heq⟩ := udp_uvClose hw
      exact heq.trans (hv k u hu)
    · exact fun v ws hv => hv
    · exact fun v hv => hv
  | udp hu hw => exact hset rfl ((CUvUdp.loop_step hw).trans (h _ _ hu))
  | _ => exact h

/-! ## The clients behind the walk -/

/-- The step pushes an event. -/
def pushes (s : UvLoop) : Label → Bool
  | .client i l => (s.clients i).any fun p => (p.step l).any fun q =>
    decide (p.events.length < q.events.length)
  | .server j l => (s.servers j).any fun v =>
    (CTcpServer.step { v with sId := s.sId } l).any fun w =>
      decide (v.events.length < w.events.length)
  | .udp k l => (s.udps k).any fun u => (u.step l).any fun w =>
    decide (u.events.length < w.events.length)
  | _ => false

/-- The step connects a client whose handle was closed. -/
def ConnectsClosed (s : UvLoop) : Label → Prop
  | .client i l => ∃ p ∈ s.clients i, p.ConnectsClosed l
  | _ => False

instance (s : UvLoop) : DecidablePred s.ConnectsClosed
  | .client i l => inferInstanceAs (Decidable (∃ p ∈ s.clients i, p.ConnectsClosed l))
  | .attachClient _ _ _ | .attachServer _ _ | .attachUdp _ | .close | .closeSend | .asyncCB
  | .closeWakeup | .eventWakeup | .closeEndgame | .eventEndgame | .server _ _ | .udp _ _
  | .unlinked _ => .isFalse id

/-- The step closes no handle again, pushes no event behind the walk, and connects no client whose
handle was closed. -/
def Leaves (s : UvLoop) (l : Label) : Prop :=
  ClosesOnce s l ∧ (s.asyncEventHandle.closing = true → s.pushes l = false)
    ∧ ¬ s.ConnectsClosed l

instance (s : UvLoop) : DecidablePred s.Leaves := fun l =>
  inferInstanceAs (Decidable (ClosesOnce s l ∧ _ ∧ ¬ s.ConnectsClosed l))

theorem settled_step (hl : ¬ s.ConnectsClosed l) (hs : step s l = some t)
    (h : ∀ i p, s.clients i = some p → p.Settled) : ∀ i p, t.clients i = some p → p.Settled := by
  refine clients_step (fun _ _ _ _ => ⟨rfl, ?_, fun hreg => ?_⟩) (fun p hp => ?_) (fun p hp => ?_)
    ?_ hs h
  · simp [CTcpClient.attachLooper, UvTcp.init]
  · simp [CTcpClient.attachLooper, UvTcp.init, UvPhase.registered] at hreg
  · exact hp.of_closing rfl rfl rfl id
  · exact hp.of_eq rfl rfl rfl id
  · rintro i a p q rfl hp hq hset
    exact CTcpClient.settled_step hset (fun hc => hl ⟨p, hp, hc⟩) hq

theorem idle_step (hpush : s.pushes l = false) (hs : step s l = some t)
    (hsettled : ∀ i p, s.clients i = some p → p.Settled)
    (h : ∀ i p, s.clients i = some p → p.Idle) : ∀ i p, t.clients i = some p → p.Idle := by
  refine clients_step (fun i packhead clientid hreg _ hin hopening => ?_)
    (fun p _ => .of_closing (by simp)) (fun _ hp => hp) ?_ hs h
  · -- what it was before it was attached again
    rcases hp : s.clients i with _ | p
    · rw [hp] at hopening
      simp [CTcpClient.attachLooper, CTcpClient.new, CTcpClient.isOpening] at hopening
    · rw [hp] at hin hopening
      rw [phase, hp] at hreg
      have hopening : p.isOpening = true := hopening
      simp [(hsettled i p hp).status hreg hin] at hopening
  · rintro i a p q rfl hp hq hidle
    refine CTcpClient.idle_step hidle ?_ hq
    simpa [pushes, hp, hq] using hpush

theorem phase_uvClose_ne_active {h : UvHandle} (hint : h.internal = false) (cb : CloseCb) :
    (s.uvClose h cb).phase h ≠ .active := by
  cases h with
  | wqAsync => simp [UvHandle.internal] at hint
  | asyncLooperClose | asyncEventHandle =>
    simp only [uvClose, phase, UvAsync.phase, UvAsync.close]
    split_ifs <;> simp
  | tcphandle i | connectTimer i =>
    simp only [uvClose, phase, Function.update_self]
    rcases s.clients i <;> simp
  | tcpServerHandle j =>
    simp only [uvClose, phase, Function.update_self]
    rcases s.servers j <;> simp
  | sessionTcpHandle j c =>
    simp only [uvClose, phase, Function.update_self]
    rcases s.servers j with _ | v
    · simp
    · simp only [Option.map_some, Option.elim_some, CTcpServer.handlePhase, CTcpServer.uvClose,
        Heap.cells_modify, if_true]
      rcases v.ctxs.cells c <;> simp
  | udpHandle k =>
    simp only [uvClose, phase, Function.update_self]
    rcases s.udps k <;> simp

/-- A handle that is not open stays so in the walk. -/
theorem walk_ne_active {h : UvHandle} (hint : h.internal = false) {hs : List UvHandle}
    (hne : s.phase h ≠ .active) : (hs.foldl walkOne s).phase h ≠ .active := by
  refine walk_keeps (P := fun t => t.phase h ≠ .active) (fun t h' cb ht => ?_)
    (fun t ws ht => ?_) (fun t ht => ?_) hne
  · by_cases hh : h = h'
    · exact hh ▸ phase_uvClose_ne_active hint cb
    · rwa [phase_uvClose_of_ne hh]
  · cases h <;> exact ht
  · cases h <;> exact ht

theorem Tracked.walkOne_closes (ht : Tracked s) {h : UvHandle} (hmem : h ∈ s.handleQueue)
    (ho : h.object = some o) : (s.walkOne h).phase h ≠ .active := by
  have hint : h.internal = false := by
    cases h <;> simp [UvHandle.object, UvHandle.internal] at ho ⊢
  have halive := alive_of_registered ((ht.queued.mem h).1 hmem) ho
  have hdata : s.handleData h = some o := (handleData_eq ho).trans (ht.data h o ho halive)
  simp only [UvLoop.walkOne, hint, Bool.false_eq_true, if_false, closeWalkCB, hdata, halive,
    if_true, onHandleClose]
  split_ifs with hclosing
  · exact UvPhase.ne_active hclosing
  · have hne := phase_uvClose_ne_active (s := s) hint o.closeCb
    cases h <;> exact hne

/-- The walk leaves none of the handles open that the loop has of clients, servers and sockets. -/
theorem Tracked.walk_closes {h : UvHandle} (ho : h.object = some o) (hint : h.internal = false) :
    ∀ {hs : List UvHandle} {s : UvLoop}, Tracked s → (∀ x ∈ hs, x ∈ s.handleQueue) → h ∈ hs →
      (hs.foldl UvLoop.walkOne s).phase h ≠ .active
  | [], _, _, _, hmem => absurd hmem (by simp)
  | x :: hs, s, ht, hall, hmem => by
    rw [List.foldl_cons]
    by_cases hx : h = x
    · subst hx
      exact walk_ne_active hint (ht.walkOne_closes (hall h (by simp)) ho)
    · refine (ht.walkOne (hall x (by simp))).walk_closes ho hint (fun y hy => ?_)
        ((List.mem_cons.1 hmem).resolve_left hx)
      rw [handleQueue_walkOne]
      exact hall y (by simp [hy])

theorem Tracked.asyncCB_closes (ht : Tracked s) {h : UvHandle} (ho : h.object = some o)
    (hint : h.internal = false) : s.asyncCB.phase h ≠ .active := by
  by_cases hactive : s.phase h = .active
  · exact ht.walk_closes ho hint (fun x hx => hx) ((ht.queued.mem h).2 (by rw [hactive]; rfl))
  · exact walk_ne_active hint hactive

/-- What the steps of a run keep that leaves the clients. -/
structure Left (s : UvLoop) : Prop where
  tracked : Tracked s
  event : s.asyncEventHandle.closed = true → s.asyncEventHandle.closing = true
  settled : ∀ i p, s.clients i = some p → p.Settled
  idle : s.asyncEventHandle.closing = true → ∀ i p, s.clients i = some p → p.Idle

theorem left_init : Left init :=
  ⟨tracked_init, by simp [init, UvAsync.init], fun i p hp => by simp [init] at hp,
    by simp [init, UvAsync.init]⟩

/-- Only the walk has `_async_event_handle` closing, and only when it was is it closed. -/
theorem event_step (hs : step s l = some t) (h : s.asyncEventHandle.closed = true →
      s.asyncEventHandle.closing = true) :
    (t.asyncEventHandle.closed = true → t.asyncEventHandle.closing = true)
      ∧ (l ≠ .asyncCB → t.asyncEventHandle.closing = s.asyncEventHandle.closing) := by
  have hobject : ∀ a m n, ((s.stepObject a m n).asyncEventHandle.closed
      = s.asyncEventHandle.closed) ∧ (s.stepObject a m n).asyncEventHandle.closing
        = s.asyncEventHandle.closing := by
    intro a m n
    unfold stepObject
    split_ifs <;> exact ⟨rfl, rfl⟩
  cases step_trans hs with
  | close =>
    unfold close
    split_ifs <;> exact ⟨h, fun _ => rfl⟩
  | asyncCB _ _ =>
    refine ⟨?_, fun hne => absurd rfl hne⟩
    refine asyncCB_keeps (P := fun t => t.asyncEventHandle.closed = true →
      t.asyncEventHandle.closing = true)
      (fun t x cb ht => ?_) (fun t ws ht => ht) (fun t ht => ht) h
    cases x with
    | asyncEventHandle => exact fun _ => rfl
    | _ => exact ht
  | eventEndgame hends =>
    have hclosing : s.asyncEventHandle.closing = true := UvAsync.closing_of_ends hends
    exact ⟨fun _ => hclosing, fun _ => rfl⟩
  | @client i a p q _ _ =>
    obtain ⟨hclosed, hclosing⟩ := hobject (.client i a) p.events.length q.events.length
    exact ⟨fun hc => hclosing.trans (h (hclosed.symm.trans hc)), fun _ => hclosing⟩
  | @server j a v w _ _ _ =>
    obtain ⟨hclosed, hclosing⟩ := hobject (.server j a) v.events.length w.events.length
    exact ⟨fun hc => hclosing.trans (h (hclosed.symm.trans hc)), fun _ => hclosing⟩
  | @udp k a u w _ _ =>
    obtain ⟨hclosed, hclosing⟩ := hobject (.udp k a) u.events.length w.events.length
    exact ⟨fun hc => hclosing.trans (h (hclosed.symm.trans hc)), fun _ => hclosing⟩
  | _ => exact ⟨h, fun _ => rfl⟩

theorem left_step (h : Left s) (hl : s.Leaves l) (hs : step s l = some t) : Left t := by
  obtain ⟨honce, hpush, hconnects⟩ := hl
  have htracked := tracked_step h.tracked honce hs
  obtain ⟨hevent, hclosing⟩ := event_step hs h.event
  refine ⟨htracked, hevent, settled_step hconnects hs h.settled, fun hwalked => ?_⟩
  by_cases hcb : l = .asyncCB
  · subst hcb
    cases step_trans hs with
    | asyncCB _ _ =>
      intro i p hp
      refine .of_closing fun hactive => ?_
      have hne := h.tracked.closeWakeup.asyncCB_closes (h := .tcphandle i) rfl rfl
      rw [phase, hp] at hne
      exact hne hactive
  · rw [hclosing hcb] at hwalked
    exact idle_step (hpush hwalked) hs h.settled (h.idle hwalked)

/-! ## The deletes -/

/-- No destructor of an object that was attached calls the looper that is gone, in whatever order
they run. -/
def Safe (s : UvLoop) : Prop :=
  ∀ os t, run Teardown.step (.begin s) os = some t → t.calls = []

theorem destructorCalls_remove (s : UvLoop) (o d : HandleData) :
    (s.remove d).destructorCalls o = [] ∨ (s.remove d).destructorCalls o = s.destructorCalls o := by
  cases d with
  | tcpClient i =>
    cases o with
    | tcpClient i' => by_cases hi : i' = i <;> simp [remove, destructorCalls, hi]
    | _ => exact .inr rfl
  | tcpServer j =>
    cases o with
    | tcpServer j' => by_cases hj : j' = j <;> simp [remove, destructorCalls, hj]
    | _ => exact .inr rfl
  | uvUdp k =>
    cases o with
    | uvUdp k' => by_cases hk : k' = k <;> simp [remove, destructorCalls, hk]
    | _ => exact .inr rfl
  | looper | tcpClientSession j a => exact .inr rfl

/-- `delete` is defined on the objects that are there. -/
theorem delete_eq_some {s t : Teardown} (ht : s.step o = some t) :
    t = ⟨s.loop.remove o, s.calls ++ (s.loop.destructorCalls o).map (o, ·)⟩ := by
  cases o with
  | looper | tcpClientSession j a => simp [Teardown.step] at ht
  | _ =>
    simp only [Teardown.step, Option.ite_none_right_eq_some, Option.some.injEq] at ht
    exact ht.2.symm

theorem delete_of_alive {s : Teardown} (ho : o.attachable = true) (ha : s.loop.alive o = true) :
    s.step o = some ⟨s.loop.remove o, s.calls ++ (s.loop.destructorCalls o).map (o, ·)⟩ := by
  cases o with
  | looper | tcpClientSession j a => simp [HandleData.attachable] at ho
  | _ => exact if_pos ha

theorem alive_of_calls (h : s.destructorCalls o ≠ []) :
    o.attachable = true ∧ s.alive o = true := by
  cases o with
  | looper | tcpClientSession j a => exact absurd rfl h
  | tcpClient i =>
    refine ⟨rfl, ?_⟩
    rcases hp : s.clients i <;> simp [destructorCalls, alive, hp] at h ⊢
  | tcpServer j =>
    refine ⟨rfl, ?_⟩
    rcases hv : s.servers j <;> simp [destructorCalls, alive, hv] at h ⊢
  | uvUdp k =>
    refine ⟨rfl, ?_⟩
    rcases hu : s.udps k <;> simp [destructorCalls, alive, hu] at h ⊢

theorem safe_iff : Safe s ↔ ∀ o, s.destructorCalls o = [] := by
  constructor
  · intro h o
    by_contra hne
    obtain ⟨ho, ha⟩ := alive_of_calls hne
    have hcalls := h [o] _ (run_cons_eq_some.2 ⟨_, delete_of_alive (s := .begin s) ho ha, rfl⟩)
    exact hne (by simpa [Teardown.begin] using hcalls)
  · intro h os t hr
    have hinv : t.calls = [] ∧ ∀ o, t.loop.destructorCalls o = [] := by
      refine invariant (I := fun t => t.calls = [] ∧ ∀ o, t.loop.destructorCalls o = []) ?_
        ⟨rfl, h⟩ hr
      rintro u d v ⟨hcalls, hall⟩ hv
      obtain rfl := delete_eq_some hv
      refine ⟨by simp [hcalls, hall d], fun o => ?_⟩
      rcases destructorCalls_remove u.loop o d with hnil | heq
      · exact hnil
      · exact heq.trans (hall o)
    exact hinv.1

/-- The step attaches a server or a UDP socket. -/
def Label.attachesOther : Label → Bool
  | .attachServer _ _ | .attachUdp _ => true
  | _ => false

/-- The servers and the sockets that are there were attached in the run. -/
theorem noOther_iff {as : List Label} (hr : run step init as = some s) :
    ((∀ j, s.servers j = none) ∧ ∀ k, s.udps k = none) ↔ ∀ l ∈ as, l.attachesOther = false := by
  have hserver : ∀ j, s.servers j = none ↔ ∀ l ∈ as, l.attaches (.tcpServer j) = false := by
    intro j
    have halive : (s.servers j).isSome = as.any (·.attaches (.tcpServer j)) :=
      alive_run (o := .tcpServer j) rfl hr
    rw [← Option.not_isSome_iff_eq_none, halive, List.any_eq_true]
    simp
  have hudp : ∀ k, s.udps k = none ↔ ∀ l ∈ as, l.attaches (.uvUdp k) = false := by
    intro k
    have halive : (s.udps k).isSome = as.any (·.attaches (.uvUdp k)) :=
      alive_run (o := .uvUdp k) rfl hr
    rw [← Option.not_isSome_iff_eq_none, halive, List.any_eq_true]
    simp
  simp only [hserver, hudp]
  constructor
  · rintro ⟨hnoServer, hnoUdp⟩ l hl
    cases l with
    | attachServer j packhead => simpa [Label.attaches] using hnoServer j _ hl
    | attachUdp k => simpa [Label.attaches] using hnoUdp k _ hl
    | _ => rfl
  · intro h
    constructor <;>
    · intro n l hl
      have hother := h l hl
      cases l <;> simp [Label.attaches, Label.attachesOther] at hother ⊢

theorem calls_eq_nil_iff (hlooper : ∀ i p, s.clients i = some p → p.looper = true)
    (hloop : ∀ k u, s.udps k = some u → u.loop = true) : (∀ o, s.destructorCalls o = []) ↔
      ((∀ j, s.servers j = none) ∧ ∀ k, s.udps k = none)
        ∧ ∀ i p, s.clients i = some p → p.isOpening = false := by
  constructor
  · intro h
    refine ⟨⟨fun j => ?_, fun k => ?_⟩, fun i p hp => ?_⟩
    · rcases hv : s.servers j with _ | v
      · rfl
      · have hcalls := h (.tcpServer j)
        simp [destructorCalls, hv, CTcpServer.destructorCalls] at hcalls
    · rcases hu : s.udps k with _ | u
      · rfl
      · have hcalls := h (.uvUdp k)
        simp [destructorCalls, hu, CUvUdp.destructorCalls, hloop k u hu] at hcalls
    · have hcalls := h (.tcpClient i)
      simpa [destructorCalls, hp, CTcpClient.destructorCalls, hlooper i p hp] using hcalls
  · rintro ⟨⟨hnoServer, hnoUdp⟩, hclients⟩ o
    cases o with
    | looper | tcpClientSession j a => rfl
    | tcpServer j => simp [destructorCalls, hnoServer j]
    | uvUdp k => simp [destructorCalls, hnoUdp k]
    | tcpClient i =>
      rcases hp : s.clients i with _ | p
      · simp [destructorCalls, hp]
      · simp [destructorCalls, hp, CTcpClient.destructorCalls, hclients i p hp]

theorem UvTcp.keepsAlive_eq_false {Write : Type*} {h : UvTcp Write} (hk : h.keepsAlive = false) :
    h.phase ≠ .closing ∧ h.reading = false := by
  simp only [UvTcp.keepsAlive, Bool.or_eq_false_iff, decide_eq_false_iff_not] at hk
  exact ⟨hk.1.1.1, hk.1.2⟩

/-- Where no client was connected once its handle was closed, or behind the walk, and no handle was
closed again, the thread leaves none with a connection. -/
theorem Left.not_opening (h : Left s) (hj : Joined s) :
    ∀ i p, s.clients i = some p → p.isOpening = false := by
  intro i p hp
  have halive := hj.alive h.tracked.once
  have hwalked : s.asyncEventHandle.closing = true := by
    have hevent := halive .asyncEventHandle
    simp only [keepsAlive, UvAsync.keepsAlive, Bool.or_eq_false_iff, Bool.not_eq_false'] at hevent
    exact h.event hevent.1
  have htcp := halive (.tcphandle i)
  rw [keepsAlive, hp] at htcp
  obtain ⟨hclosing, hreading⟩ := UvTcp.keepsAlive_eq_false htcp
  rcases hphase : p.tcphandle.phase with _ | _ | _ | _ | _
  case active =>
    by_contra hopening
    have hread := h.idle hwalked i p hp hphase (hj.callbacks i p hp) (by simpa using hopening)
    simp [hreading] at hread
  case closing => exact absurd hphase hclosing
  all_goals exact (h.settled i p hp).status (by rw [hphase]; rfl) (hj.callbacks i p hp)

theorem safe_iff_of_run {as : List Label} (hr : run step init as = some s) :
    Safe s ↔ (∀ l ∈ as, l.attachesOther = false)
      ∧ ∀ i p, s.clients i = some p → p.isOpening = false := by
  have hlooper : ∀ i p, s.clients i = some p → p.looper = true :=
    invariant (I := fun s => ∀ i p, s.clients i = some p → p.looper = true)
      (fun _ _ _ h hs => looper_step hs h) (fun i p hp => by simp [init] at hp) hr
  have hloop : ∀ k u, s.udps k = some u → u.loop = true :=
    invariant (I := fun s => ∀ k u, s.udps k = some u → u.loop = true)
      (fun _ _ _ h hs => loop_step hs h) (fun k u hu => by simp [init] at hu) hr
  rw [safe_iff, calls_eq_nil_iff hlooper hloop, noOther_iff hr]

/-- What a run that attaches nothing but the first client, server and socket has to leave for the
thread to be joined. -/
theorem joined_of_run {as : List Label} (hr : run step init as = some s)
    (hone : ∀ n, n ≠ 0 → as.any (·.attaches (.tcpClient n)) = false
      ∧ as.any (·.attaches (.tcpServer n)) = false ∧ as.any (·.attaches (.uvUdp n)) = false)
    (hclosed : s.isClosed = true)
    (halive : ∀ h ∈ [UvHandle.asyncLooperClose, .asyncEventHandle, .tcphandle 0, .connectTimer 0,
      .tcpServerHandle 0, .udpHandle 0], s.keepsAlive h = false)
    (hctxs : ∀ v, s.servers 0 = some v → v.ctxs = .empty)
    (hcb : ∀ p, s.clients 0 = some p → p.inCloseCb = false) : Joined s := by
  have hclient : ∀ i, i ≠ 0 → s.clients i = none := fun i hi =>
      Option.not_isSome_iff_eq_none.1 <| by
    have hgone := alive_run (o := .tcpClient i) rfl hr
    rw [(hone i hi).1] at hgone
    exact Bool.not_eq_true _ ▸ hgone
  have hserver : ∀ j, j ≠ 0 → s.servers j = none := fun j hj =>
      Option.not_isSome_iff_eq_none.1 <| by
    have hgone := alive_run (o := .tcpServer j) rfl hr
    rw [(hone j hj).2.1] at hgone
    exact Bool.not_eq_true _ ▸ hgone
  have hudp : ∀ k, k ≠ 0 → s.udps k = none := fun k hk => Option.not_isSome_iff_eq_none.1 <| by
    have hgone := alive_run (o := .uvUdp k) rfl hr
    rw [(hone k hk).2.2] at hgone
    exact Bool.not_eq_true _ ▸ hgone
  refine ⟨hclosed, fun _ h => ?_, fun i p hp => ?_⟩
  · cases h with
    | wqAsync => rfl
    | asyncLooperClose | asyncEventHandle => exact halive _ (by simp)
    | tcphandle i | connectTimer i =>
      by_cases hi : i = 0
      · exact halive _ (by simp [hi])
      · simp [keepsAlive, hclient i hi]
    | tcpServerHandle j =>
      by_cases hj : j = 0
      · exact halive _ (by simp [hj])
      · simp [keepsAlive, hserver j hj]
    | sessionTcpHandle j c =>
      by_cases hj : j = 0
      · subst hj
        rcases hv : s.servers 0 with _ | v
        · simp [keepsAlive, hv]
        · simp [keepsAlive, hv, hctxs v hv, Heap.empty]
      · simp [keepsAlive, hserver j hj]
    | udpHandle k =>
      by_cases hk : k = 0
      · exact halive _ (by simp [hk])
      · simp [keepsAlive, hudp k hk]
  · by_cases hi : i = 0
    · exact hcb p (hi ▸ hp)
    · simp [hclient i hi] at hp

/-- A client connects, and the looper is closed. -/
def closeConnected : List Label :=
  [.attachClient 0 defPackHeadFlag 1000, .client 0 (.connect "127.0.0.1" 6666 30 false),
    .eventWakeup, .client 0 (.doEvent .ok), .client 0 (.afterConnect 0 0), .client 0 .timerClosed,
    .close, .asyncCB, .closeEndgame, .eventEndgame, .client 0 .afterHandleCloseBegin,
    .client 0 .afterHandleCloseEnd]

/-- A client, a server and a socket are closed by the looper, and the client is connected again. -/
def closeAll : List Label :=
  [.attachClient 0 defPackHeadFlag 1000, .attachServer 0 defPackHeadFlag, .attachUdp 0, .close,
    .asyncCB, .closeEndgame, .eventEndgame, .client 0 .timerClosed,
    .client 0 .afterHandleCloseBegin, .client 0 .afterHandleCloseEnd,
    .server 0 .afterServerClose, .udp 0 .handleClosed,
    .client 0 (.connect "127.0.0.1" 6666 30 false)]

end UvLoop

end TestLibuv
