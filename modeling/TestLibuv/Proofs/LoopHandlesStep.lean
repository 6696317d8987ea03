import TestLibuv.Proofs.ClientStep
import TestLibuv.Proofs.CloseWalk

/-!
# The steps of a looper with its handles

`Trans` lists what a step can be. As long as libuv closes no handle a second time, every step keeps
the handle queue that of the handles registered, and the `data` of each the object it is of.
-/

namespace TestLibuv

namespace UvLoop

variable {s s' t : UvLoop} {l : Label} {h h' : UvHandle} {o : HandleData}

/-! ## The steps -/

theorem phase_requeue (hs : List UvHandle) : (s.requeue hs).phase h = s.phase h := by
  cases h <;> rfl

/-- The queue is put right behind a step that registers none but the handles `hs`. -/
theorem queued_requeue {hs : List UvHandle} (hnodup : hs.Nodup) (hq : s.handleQueue.Nodup)
    (hall : ∀ h, (s.phase h).registered = true → h ∈ s.handleQueue ∨ h ∈ hs) :
    Queued (s.requeue hs) := by
  refine ⟨?_, fun h => ?_⟩
  · refine (hq.filter _).append (hnodup.filter _) fun h hold hnew => ?_
    have hin := List.mem_of_mem_filter hold
    simp [hin] at hnew
  · rw [phase_requeue, requeue, List.mem_append, List.mem_filter, List.mem_filter]
    constructor
    · rintro (⟨-, hreg⟩ | ⟨-, hreg⟩)
      · exact hreg
      · simp only [Bool.and_eq_true] at hreg
        exact hreg.1
    · intro hreg
      by_cases hin : h ∈ s.handleQueue
      · exact .inl ⟨hin, hreg⟩
      · exact .inr ⟨(hall h hreg).resolve_left hin, by simp [hin, hreg]⟩

/-- What a step can be. -/
inductive Trans (s : UvLoop) : Label → UvLoop → Prop
  | attachClient {i : ℕ} (packhead : UInt32) (clientid : ℤ) :
      (s.phase (.tcphandle i)).registered = false →
      Trans s (.attachClient i packhead clientid) (s.attachClient i packhead clientid)
  | attachServer {j : ℕ} (packhead : UInt32) : s.servers j = none →
      Trans s (.attachServer j packhead) (s.attachServer j packhead)
  | attachUdp (k : ℕ) : Trans s (.attachUdp k) (s.attachUdp k)
  | close : Trans s .close s.close
  | closeSend : Trans s .closeSend s.closeSend
  | asyncCB : s.asyncLooperClose.asyncSent = true → s.asyncLooperClose.phase = .active →
      Trans s .asyncCB { s with asyncLooperClose := s.asyncLooperClose.wakeup }.asyncCB
  | closeWakeup : Trans s .closeWakeup { s with asyncLooperClose := s.asyncLooperClose.wakeup }
  | eventWakeup : Trans s .eventWakeup { s with asyncEventHandle := s.asyncEventHandle.wakeup }
  | closeEndgame : s.asyncLooperClose.ends = true → Trans s .closeEndgame s.closeEndgame
  | eventEndgame : s.asyncEventHandle.ends = true → Trans s .eventEndgame s.eventEndgame
  | client {i : ℕ} {l : CTcpClient.Label} {p q : CTcpClient} : s.clients i = some p →
      p.step l = some q → Trans s (.client i l) (s.stepClient i l p q)
  | server {j : ℕ} {l : CTcpServer.Label} {v w : CTcpServer} : s.servers j = some v →
      l ≠ .asyncCB → { v with sId := s.sId }.step l = some w →
      Trans s (.server j l) (s.stepServer j l v w)
  | udp {k : ℕ} {l : CUvUdp.Label} {u w : CUvUdp} : s.udps k = some u → u.step l = some w →
      Trans s (.udp k l) (s.stepUdp k l u w)
  | unlinked (handleQueue : List UvHandle) : s.closedAgain ≠ 0 →
      Trans s (.unlinked handleQueue) { s with handleQueue }

theorem act_trans (hl : l.walks = false) (hs : act s l = some t) : Trans s l t := by
  cases l with
  | attachClient i packhead clientid =>
    simp only [act, Option.ite_none_left_eq_some, Bool.or_eq_true, not_or, Bool.not_eq_true] at hs
    exact Option.some.inj hs.2 ▸ .attachClient packhead clientid hs.1.1
  | attachServer j packhead =>
    simp only [act, Option.ite_none_left_eq_some] at hs
    exact Option.some.inj hs.2 ▸ .attachServer packhead (by simpa using hs.1)
  | attachUdp k =>
    simp only [act, Option.ite_none_left_eq_some] at hs
    exact Option.some.inj hs.2 ▸ .attachUdp k
  | close => exact Option.some.inj hs ▸ .close
  | closeSend => exact Option.some.inj hs ▸ .closeSend
  | asyncCB =>
    simp only [act, Option.ite_none_right_eq_some] at hs
    exact Option.some.inj hs.2 ▸ .asyncCB hs.1.1 hs.1.2
  | closeWakeup =>
    simp only [act, Option.ite_none_right_eq_some] at hs
    exact Option.some.inj hs.2 ▸ .closeWakeup
  | eventWakeup =>
    simp only [act, Option.ite_none_right_eq_some] at hs
    exact Option.some.inj hs.2 ▸ .eventWakeup
  | closeEndgame =>
    simp only [act, Option.ite_none_right_eq_some] at hs
    exact Option.some.inj hs.2 ▸ .closeEndgame hs.1
  | eventEndgame =>
    simp only [act, Option.ite_none_right_eq_some] at hs
    exact Option.some.inj hs.2 ▸ .eventEndgame hs.1
  | client i l =>
    obtain ⟨p, hp, hs⟩ := Option.bind_eq_some_iff.1 hs
    obtain ⟨q, hq, rfl⟩ := Option.map_eq_some_iff.1 hs
    exact .client hp hq
  | server j l =>
    obtain ⟨v, hv, hs⟩ := Option.bind_eq_some_iff.1 hs
    obtain ⟨w, hw, rfl⟩ := Option.map_eq_some_iff.1 hs
    refine .server hv ?_ hw
    rintro rfl
    simp [Label.walks] at hl
  | udp k l =>
    obtain ⟨u, hu, hs⟩ := Option.bind_eq_some_iff.1 hs
    obtain ⟨w, hw, rfl⟩ := Option.map_eq_some_iff.1 hs
    exact .udp hu hw
  | unlinked handleQueue =>
    simp only [act, Option.ite_none_left_eq_some] at hs
    exact Option.some.inj hs.2 ▸ .unlinked handleQueue hs.1

theorem step_trans (hs : step s l = some t) : Trans s l t := by
  unfold step at hs
  split_ifs at hs with hguard
  simp only [Bool.or_eq_true, not_or, Bool.not_eq_true] at hguard
  exact act_trans hguard.1.2 hs

/-! ## The objects behind a step -/

theorem phase_stepObject (m n : ℕ) : (s.stepObject l m n).phase h = s.phase h := by
  unfold stepObject
  split_ifs <;> cases h <;> rfl

@[simp] theorem clients_setClient (s : UvLoop) (i : ℕ) (p : CTcpClient) :
    (s.setClient i p).clients = Function.update s.clients i (some p) := rfl

@[simp] theorem servers_setServer (s : UvLoop) (j : ℕ) (v : CTcpServer) :
    (s.setServer j v).servers = Function.update s.servers j (some v) := rfl

@[simp] theorem udps_setUdp (s : UvLoop) (k : ℕ) (u : CUvUdp) :
    (s.setUdp k u).udps = Function.update s.udps k (some u) := rfl

/-- The phases behind a client's step. -/
theorem phase_setClient (i : ℕ) (p : CTcpClient) (h : UvHandle) : (s.setClient i p).phase h
    = if h = .tcphandle i then p.tcphandle.phase
      else if h = .connectTimer i then p.connectTimer.phase else s.phase h := by
  cases h with
  | tcphandle i' | connectTimer i' =>
    rw [phase, clients_setClient, Function.update_apply]
    by_cases hi : i' = i <;> simp [phase, hi]
  | _ => rfl

theorem phase_setUdp (k : ℕ) (u : CUvUdp) (h : UvHandle) : (s.setUdp k u).phase h
    = if h = .udpHandle k then u.udpHandle.phase else s.phase h := by
  cases h with
  | udpHandle k' =>
    rw [phase, udps_setUdp, Function.update_apply]
    by_cases hk : k' = k <;> simp [phase, hk]
  | _ => rfl

/-- The phases of the handles that are not a server's, behind its step. -/
theorem phase_setServer_of_ne {j : ℕ} {w : CTcpServer} (hne : h ≠ .tcpServerHandle j)
    (hne' : ∀ c, h ≠ .sessionTcpHandle j c) : (s.setServer j w).phase h = s.phase h := by
  cases h with
  | tcpServerHandle j' =>
    have hj : j' ≠ j := fun hj => hne (hj ▸ rfl)
    rw [phase, servers_setServer, Function.update_of_ne hj]
    rfl
  | sessionTcpHandle j' c =>
    have hj : j' ≠ j := fun hj => hne' c (hj ▸ rfl)
    rw [phase, servers_setServer, Function.update_of_ne hj]
    rfl
  | _ => rfl

theorem phase_stepServer_of_ne {j : ℕ} {v w : CTcpServer} {l : CTcpServer.Label}
    (hne : h ≠ .tcpServerHandle j) (hne' : ∀ c, h ≠ .sessionTcpHandle j c) :
    (s.stepServer j l v w).phase h = s.phase h := by
  refine (phase_setServer_of_ne hne hne').trans (Eq.trans ?_
    (phase_stepObject (l := .server j l) v.events.length w.events.length))
  cases h <;> rfl

theorem phase_closeSend : s.closeSend.phase h = s.phase h := by
  cases h <;> rfl

theorem phase_close : s.close.phase h = s.phase h := by
  unfold close
  split_ifs
  · rfl
  · exact phase_closeSend

theorem phase_closeEndgame :
    s.closeEndgame.phase h = if h = .asyncLooperClose then .closed else s.phase h := by
  unfold closeEndgame
  rw [phase_requeue]
  cases h <;> simp [phase]

theorem phase_eventEndgame :
    s.eventEndgame.phase h = if h = .asyncEventHandle then .closed else s.phase h := by
  unfold eventEndgame
  rw [phase_requeue]
  cases h <;> simp [phase]

theorem phase_closeWakeup :
    ({ s with asyncLooperClose := s.asyncLooperClose.wakeup } : UvLoop).phase h = s.phase h := by
  cases h <;> rfl

theorem phase_eventWakeup :
    ({ s with asyncEventHandle := s.asyncEventHandle.wakeup } : UvLoop).phase h = s.phase h := by
  cases h <;> rfl

/-! ## The steps keep it -/

/-- `uv__handle_close` is called with a handle that was not closed before. -/
def ClosesOnce (s : UvLoop) (l : Label) : Prop := s.closesAgain l = false

instance (s : UvLoop) : DecidablePred s.ClosesOnce := fun l =>
  inferInstanceAs (Decidable (s.closesAgain l = false))

theorem Queued.of_phase (hq : Queued s) (hqueue : t.handleQueue = s.handleQueue)
    (hphase : ∀ h, t.phase h = s.phase h) : Queued t := by
  refine ⟨hqueue ▸ hq.nodup, fun h => ?_⟩
  rw [hqueue, hphase]
  exact hq.mem h

/-- What a step of the looper's own handles keeps, if the queue is right behind it. -/
theorem Tracked.setAsync (ht : Tracked s) {asyncLooperClose asyncEventHandle : UvAsync}
    {isClosed : Bool} {handleQueue : List UvHandle} {closedAgain : ℕ} (honce : closedAgain = 0)
    (hq : Queued { s with
      asyncLooperClose, asyncEventHandle, isClosed, handleQueue, closedAgain }) :
    Tracked { s with
      asyncLooperClose, asyncEventHandle, isClosed, handleQueue, closedAgain } := by
  refine ⟨hq, fun h o ho hthere => ?_, ht.udps, honce⟩
  refine ht.data h o ho (Eq.trans ?_ hthere)
  cases o <;> rfl

theorem Tracked.again (ht : Tracked s) (hc : ClosesOnce s l) :
    s.closedAgain + (s.closesAgain l).toNat = 0 := by
  rw [ht.once, show s.closesAgain l = false from hc]
  rfl

theorem Tracked.stepObject (ht : Tracked s) (hc : ClosesOnce s l) (m n : ℕ) :
    Tracked (s.stepObject l m n) :=
  ht.setAsync (ht.again hc) (ht.queued.of_phase rfl fun _ => phase_stepObject m n)

theorem Tracked.setData (ht : Tracked s) (ho : h.object = some o) :
    Tracked { s with data := Function.update s.data h (some o) } := by
  refine ⟨⟨ht.queued.nodup, fun h' => ?_⟩, fun h' o' ho' hthere => ?_, fun k => ?_, ht.once⟩
  · refine (ht.queued.mem h').trans (iff_of_eq (congrArg (UvPhase.registered · = true) ?_))
    cases h' <;> rfl
  · show Function.update s.data h (some o) h' = _
    by_cases hh : h' = h
    · rw [hh, Function.update_self, ← ho, ← hh, ho']
    · rw [Function.update_of_ne hh]
      refine ht.data h' o' ho' (Eq.trans ?_ hthere)
      cases o' <;> rfl
  · show Function.update s.data h (some o) (.udpHandle k) = _
    by_cases hh : .udpHandle k = h
    · rw [← hh, Function.update_self, ← ho, ← hh]
      rfl
    · rw [Function.update_of_ne hh]
      exact ht.udps k

theorem Tracked.setClient (ht : Tracked s) {i : ℕ}
    (hdata : ∀ h : UvHandle, h.object = some (.tcpClient i) → s.data h = some (.tcpClient i))
    (p : CTcpClient) : Tracked (s.setClient i p) := by
  refine ⟨queued_requeue (by simp) ht.queued.nodup fun h hreg => ?_, fun h o ho hthere => ?_,
    ht.udps, ht.once⟩
  · have hreg : ((s.setClient i p).phase h).registered = true := hreg
    rw [phase_setClient] at hreg
    split_ifs at hreg with ht' hc
    · exact .inr (by simp [ht'])
    · exact .inr (by simp [hc])
    · exact .inl ((ht.queued.mem h).2 hreg)
  · by_cases hoi : o = .tcpClient i
    · exact hoi ▸ hdata h (hoi ▸ ho)
    · refine ht.data h o ho (Eq.trans ?_ hthere)
      cases o with
      | tcpClient i' =>
        have hi : i' ≠ i := fun hi => hoi (hi ▸ rfl)
        exact congrArg Option.isSome (Function.update_of_ne hi _ _).symm
      | _ => rfl

theorem Tracked.setUdp (ht : Tracked s) {k : ℕ} (u : CUvUdp) : Tracked (s.setUdp k u) := by
  refine ⟨queued_requeue (by simp) ht.queued.nodup fun h hreg => ?_, fun h o ho hthere => ?_,
    ht.udps, ht.once⟩
  · have hreg : ((s.setUdp k u).phase h).registered = true := hreg
    rw [phase_setUdp] at hreg
    split_ifs at hreg with hk
    · exact .inr (by simp [hk])
    · exact .inl ((ht.queued.mem h).2 hreg)
  · by_cases hok : o = .uvUdp k
    · subst hok
      cases h with
      | udpHandle k' =>
        obtain rfl : k' = k := by simpa [UvHandle.object] using ho
        exact ht.udps k'
      | _ => simp [UvHandle.object] at ho
    · refine ht.data h o ho (Eq.trans ?_ hthere)
      cases o with
      | uvUdp k' =>
        have hk : k' ≠ k := fun hk => hok (hk ▸ rfl)
        exact congrArg Option.isSome (Function.update_of_ne hk _ _).symm
      | _ => rfl

theorem Tracked.setServer (ht : Tracked s) {j : ℕ}
    (hdata : s.data (.tcpServerHandle j) = some (.tcpServer j)) (w : CTcpServer) (sId : ℤ)
    (ids : ℕ) : Tracked ({ s with sId, ids }.setServer j w) := by
  refine ⟨queued_requeue ?_ ht.queued.nodup fun h hreg => ?_, fun h o ho hthere => ?_, ht.udps,
    ht.once⟩
  · refine List.nodup_cons.2 ⟨by simp, ?_⟩
    exact List.nodup_range.map fun c d hcd => by simpa using hcd
  · have hreg : (({ s with sId, ids }.setServer j w).phase h).registered = true := hreg
    by_cases hj : h = .tcpServerHandle j
    · exact .inr (by simp [hj])
    by_cases hc : ∃ c, h = .sessionTcpHandle j c
    · obtain ⟨c, rfl⟩ := hc
      simp only [phase, servers_setServer, Function.update_self, Option.elim_some] at hreg
      obtain ⟨x, hx, -⟩ := CTcpServer.cells_of_registered hreg
      exact .inr (by simp [Heap.lt_next hx])
    · rw [phase_setServer_of_ne hj fun c hh => hc ⟨c, hh⟩] at hreg
      refine .inl ((ht.queued.mem h).2 ?_)
      cases h <;> exact hreg
  · by_cases hoj : o = .tcpServer j
    · subst hoj
      cases h with
      | tcpServerHandle j' =>
        obtain rfl : j' = j := by simpa [UvHandle.object] using ho
        exact hdata
      | _ => simp [UvHandle.object] at ho
    · refine ht.data h o ho (Eq.trans ?_ hthere)
      cases o with
      | tcpServer j' =>
        have hj : j' ≠ j := fun hj => hoj (hj ▸ rfl)
        exact congrArg Option.isSome (Function.update_of_ne hj _ _).symm
      | tcpClientSession j' a => cases h <;> simp [UvHandle.object] at ho
      | _ => rfl

theorem Tracked.closeSend (ht : Tracked s) : Tracked s.closeSend :=
  ht.setAsync ht.once (ht.queued.of_phase rfl fun _ => phase_closeSend)

theorem Tracked.close (ht : Tracked s) : Tracked s.close := by
  unfold UvLoop.close
  split_ifs
  · exact ht
  · exact ht.closeSend

theorem Tracked.closeWakeup (ht : Tracked s) :
    Tracked { s with asyncLooperClose := s.asyncLooperClose.wakeup } :=
  ht.setAsync ht.once (ht.queued.of_phase rfl fun _ => phase_closeWakeup)

/-- A handle of the looper's own leaves the queue. -/
theorem Tracked.closeEndgame (ht : Tracked s) (hc : ClosesOnce s .closeEndgame) :
    Tracked s.closeEndgame := by
  refine ht.setAsync (ht.again hc) ?_
  refine queued_requeue (by simp) ht.queued.nodup fun h hreg => .inl ((ht.queued.mem h).2 ?_)
  have hreg : (s.closeEndgame.phase h).registered = true := hreg
  rw [phase_closeEndgame] at hreg
  split_ifs at hreg
  · simp [UvPhase.registered] at hreg
  · exact hreg

theorem Tracked.eventEndgame (ht : Tracked s) (hc : ClosesOnce s .eventEndgame) :
    Tracked s.eventEndgame := by
  refine ht.setAsync (ht.again hc) ?_
  refine queued_requeue (by simp) ht.queued.nodup fun h hreg => .inl ((ht.queued.mem h).2 ?_)
  have hreg : (s.eventEndgame.phase h).registered = true := hreg
  rw [phase_eventEndgame] at hreg
  split_ifs at hreg
  · simp [UvPhase.registered] at hreg
  · exact hreg

theorem tracked_init : Tracked init := by
  refine ⟨⟨by decide, fun h => ?_⟩, fun h o ho hthere => ?_, fun k => rfl, rfl⟩
  · cases h <;> simp [init, phase, UvAsync.phase, UvAsync.init, UvPhase.registered]
  · cases h with
    | asyncLooperClose | asyncEventHandle | udpHandle k => exact ho
    | tcphandle i | connectTimer i | tcpServerHandle j =>
      obtain rfl := Option.some.inj ho
      simp [alive, init] at hthere
    | _ => simp [UvHandle.object] at ho

theorem tracked_step (ht : Tracked s) (hc : ClosesOnce s l) (hstep : step s l = some t) :
    Tracked t := by
  cases step_trans hstep with
  | attachClient packhead clientid _ =>
    refine ((ht.setData rfl).setData rfl).setClient (fun h ho => ?_) _
    cases h with
    | tcphandle i' | connectTimer i' =>
      obtain rfl := HandleData.tcpClient.inj (Option.some.inj ho)
      simp
    | _ => simp [UvHandle.object] at ho
  | attachServer packhead _ =>
    exact (ht.setData rfl).setServer (Function.update_self _ _ _) _ s.sId s.ids
  | attachUdp k => exact ht.setUdp _
  | close => exact ht.close
  | closeSend => exact ht.closeSend
  | asyncCB _ _ => exact ht.closeWakeup.foldl fun h hh => hh
  | closeWakeup => exact ht.closeWakeup
  | eventWakeup => exact ht.setAsync ht.once (ht.queued.of_phase rfl fun _ => phase_eventWakeup)
  | closeEndgame _ => exact ht.closeEndgame hc
  | eventEndgame _ => exact ht.eventEndgame hc
  | client hp _ =>
    exact (ht.stepObject hc _ _).setClient (fun h ho => ht.data h _ ho (by simp [alive, hp])) _
  | server hv _ _ =>
    exact (ht.stepObject hc _ _).setServer (ht.data _ _ rfl (by simp [alive, hv])) _ _ _
  | udp _ _ => exact (ht.stepObject hc _ _).setUdp _
  | unlinked _ hne => exact absurd ht.once hne

end UvLoop

end TestLibuv
