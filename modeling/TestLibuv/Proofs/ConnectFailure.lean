import TestLibuv.Proofs.ConnectTurns

/-!
# A failed attempt is reported

`connectinl` returns the error of the address or of `uv_tcp_connect` to `OnDoEvent`, which drops
it, and the status stays as `Connect` set it. `AfterConnect` drops a cancellation behind
`ConnectTimeOut`, whichever attempt that has reported. As long as neither drops an attempt, each
one is queued, pending or reported.
-/

namespace TestLibuv.CTcpClient

open Runs

variable {s s' : CTcpClient} {l : Label}

/-- The `CONNECT` event dispatched starts its attempt, and the cancellation that `AfterConnect`
ignores is that of a reported one. -/
def Carried (s : CTcpClient) : Label → Prop
  | .doEvent r => ∀ e ∈ s.events.head?, e.event.type = .connect →
      r.ipAddr = 0 ∧ (s.tcphandle.connect e.attempt r.tcpConnect).1 = 0
  | .afterConnect status _ => status = uvEcanceled ∧ s.connectStatus = .connectTimeOut →
      ∀ k ∈ s.tcphandle.connectReq, k ∈ s.reported
  | _ => True

instance (s : CTcpClient) : ∀ l, Decidable (s.Carried l)
  | .doEvent r => inferInstanceAs (Decidable (∀ e ∈ s.events.head?, e.event.type = .connect →
      r.ipAddr = 0 ∧ (s.tcphandle.connect e.attempt r.tcpConnect).1 = 0))
  | .afterConnect status _ => inferInstanceAs (Decidable (status = uvEcanceled
      ∧ s.connectStatus = .connectTimeOut → ∀ k ∈ s.tcphandle.connectReq, k ∈ s.reported))
  | .connect .. | .close | .shutdown | .send _ | .connectTimeOut | .afterRecv _
  | .afterRecvError _ | .afterSend _ | .afterShutDown | .afterHandleCloseBegin
  | .afterHandleCloseEnd | .timerClosed | .looperClose => .isTrue trivial

/-- No `CONNECT` event is queued, no request is pending, and the handle is not being closed. -/
def Quiet (s : CTcpClient) : Prop :=
  s.queued = [] ∧ s.tcphandle.connectReq = none ∧ s.tcphandle.phase ≠ .closing
    ∧ s.inCloseCb = false

/-- An attempt is queued, or pending, or reported. -/
def Kept (s : CTcpClient) (k : ℕ) : Prop :=
  k ∈ s.queued ∨ s.tcphandle.connectReq = some k ∨ k ∈ s.reported

/-- No attempt is lost, and the status says that one is under way only while one is. -/
structure Accounted (s : CTcpClient) : Prop where
  kept : ∀ k < s.attempts, Kept s k
  connecting : s.connectStatus = .connecting → s.queued ≠ [] ∨ s.tcphandle.connectReq ≠ none

theorem accounted_attached (head : UInt32) (id : ℤ) : Accounted (attached head id) := by
  constructor <;> simp [attached, attachLooper, new]

/-- What a step keeps that takes no `CONNECT` event and ends no request. -/
theorem Accounted.frame (h : Accounted s) (ha : s'.attempts = s.attempts)
    (hq : s'.queued = s.queued) (hreq : s'.tcphandle.connectReq = s.tcphandle.connectReq)
    (hrep : s.reported ⊆ s'.reported)
    (hst : s'.connectStatus = .connecting → s.connectStatus = .connecting) : Accounted s' := by
  refine ⟨fun k hk => ?_, fun hc => ?_⟩
  · rcases h.kept k (ha ▸ hk) with hk | hk | hk
    · exact .inl (hq ▸ hk)
    · exact .inr (.inl (hreq.trans hk))
    · exact .inr (.inr (hrep hk))
  · rw [hq, hreq]
    exact h.connecting (hst hc)

/-- A request ends with its attempt reported. -/
theorem Accounted.ends (h : Accounted s) (ha : s'.attempts = s.attempts)
    (hq : s'.queued = s.queued) (hrep : s.reported ⊆ s'.reported)
    (hk : ∀ k, s.tcphandle.connectReq = some k → k ∈ s'.reported)
    (hst : s'.connectStatus ≠ .connecting) : Accounted s' := by
  refine ⟨fun k hlt => ?_, fun hc => absurd hc hst⟩
  rcases h.kept k (ha ▸ hlt) with hin | hin | hin
  · exact .inl (hq ▸ hin)
  · exact .inr (.inr (hk k hin))
  · exact .inr (.inr (hrep hin))

theorem queued_other {e : ClientEvent} {rest : List ClientEvent} (he : s.events = e :: rest)
    (ht : e.event.type ≠ .connect) : rest.filterMap ClientEvent.connects = s.queued := by
  unfold queued
  rw [he, List.filterMap_cons_none]
  simp [ClientEvent.connects, ht]

theorem accounted_step (h : Accounted s) (ht : Steady s) (hl : Carried s l)
    (hs : step s l = some s') : Accounted s' := by
  have hrep := reported_step hs
  cases step_trans hs with
  | refused _ => exact h
  | connect _ _ _ =>
    refine ⟨fun k hk => ?_, fun _ => .inl ?_⟩
    · have hlt : k < s.attempts + 1 := hk
      rcases Nat.lt_succ_iff_lt_or_eq.1 hlt with hlt | rfl
      · rcases h.kept k hlt with hin | hin | hin
        · refine .inl ?_
          rw [queued_pushEvent]
          exact List.mem_append_left _ hin
        · exact .inr (.inl hin)
        · exact .inr (.inr hin)
      · refine .inl ?_
        simp [queued_pushEvent]
    · simp [queued_pushEvent]
  | connectAlone _ _ hlo => exact absurd ht.looper (by simp [hlo])
  | close | shutdown => exact h.frame rfl (by simp [queued_pushEvent]) rfl hrep id
  | send _ => exact h.frame rfl (by simp [pushSend, queued_pushEvent]; rfl) rfl hrep id
  | connectBadAddr he htype hip =>
    exact absurd (hl _ (by simp [he]) htype).1 hip
  | connectFails he htype _ hne =>
    exact absurd (hl _ (by simp [he]) htype).2 hne
  | @connectStarts e rest r _ he htype _ hreq _ =>
    have hqueue := queued_cons he htype
    refine ⟨fun k hk => ?_, fun _ => .inr (by simp)⟩
    rcases h.kept k hk with hin | hin | hin
    · rw [hqueue] at hin
      rcases List.mem_cons.1 hin with rfl | hin
      · exact .inr (.inl rfl)
      · exact .inl hin
    · simp [hreq] at hin
    · exact .inr (.inr hin)
  | closeRefused he htype _ | writeFaults he htype _ | writeFails he htype _
  | writeTakes he htype _ | otherEvent he htype =>
    exact h.frame rfl (queued_other he (by simp [htype])) rfl hrep id
  | closeCloses he htype _ =>
    exact h.frame rfl (queued_other he (by simp [htype])) (by simp) hrep id
  | shutdownEvent he htype =>
    exact h.frame rfl (queued_other he (by simp [htype])) (s.tcphandle.shutdown_frame 0).2.1 hrep id
  | connectTimeOut _ => exact h.frame rfl rfl (by simp) hrep (fun hc => by simp at hc)
  | connectCancelled hcan hst _ =>
    refine h.ends rfl rfl hrep (fun k hk => hrep (hl ⟨hcan, hst⟩ k hk)) ?_
    show s.connectStatus ≠ _
    simp [hst]
  | connectError hk _ | connected hk _ =>
    refine h.ends rfl rfl hrep (fun j hj => ?_) (by simp)
    obtain rfl := Option.some.inj (hk.symm.trans hj)
    simp [reported]
  | recvError _ => exact h.frame rfl rfl (by simp) hrep (fun hc => by simp at hc)
  | shutdownCloses _ => exact h.frame rfl rfl (UvTcp.connectReq_close _) hrep id
  | closeEnd _ => exact h.frame rfl rfl rfl hrep (fun hc => by simp at hc)
  | looperClose => exact h.frame rfl rfl (by simp) hrep id
  | _ => exact h.frame rfl rfl rfl hrep id

/-- In a run that drops no attempt, whenever nothing is queued, pending or being closed, every
accepted `Connect` was reported and the status is not that of an attempt under way. -/
theorem quiet_reported {as : List Label} {head : UInt32} {id : ℤ} {s : CTcpClient}
    (hr : run step (attached head id) as = some s) (hm : Meets step Carried (attached head id) as)
    (hq : Quiet s) :
    (∀ k < s.attempts, k ∈ s.reported) ∧ s.connectStatus ≠ .connecting := by
  have h : Steady s ∧ Accounted s := by
    refine invariant_of_meets (I := fun s => Steady s ∧ Accounted s) (fun s a s' h hl hs => ?_)
      ⟨steady_attached head id, accounted_attached head id⟩ hm hr
    exact ⟨steady_step h.1 hs, accounted_step h.2 h.1 hl hs⟩
  obtain ⟨hqueue, hreq, -, -⟩ := hq
  refine ⟨fun k hk => ?_, fun hc => ?_⟩
  · rcases h.2.kept k hk with hin | hin | hin
    · simp [hqueue] at hin
    · simp [hreq] at hin
    · exact hin
  · rcases h.2.connecting hc with hne | hne
    · exact hne hqueue
    · exact hne hreq

theorem quiet_reported_refusedOnce : ∃ s,
    run step (attached defPackHeadFlag 1000) refusedOnce = some s ∧ Quiet s
      ∧ (∀ k < s.attempts, k ∈ s.reported) ∧ s.connectStatus ≠ .connecting := by
  obtain ⟨s, hs⟩ := Option.isSome_iff_exists.1
    (show (run step (attached defPackHeadFlag 1000) refusedOnce).isSome from rfl)
  have hsees : (run step (attached defPackHeadFlag 1000) refusedOnce).map
      (fun s => (s.queued, s.tcphandle.connectReq, s.tcphandle.phase, s.inCloseCb))
        = some ([], none, .active, false) := rfl
  rw [hs, Option.map_some, Option.some.injEq] at hsees
  simp only [Prod.mk.injEq] at hsees
  obtain ⟨hqueue, hreq, hp, hcb⟩ := hsees
  have hq : Quiet s := ⟨hqueue, hreq, by simp [hp], hcb⟩
  exact ⟨s, hs, hq, quiet_reported hs (by decide) hq⟩

/-- The address is not one. -/
def badAddress : List Label :=
  [.connect "localhost" 12345 30 false, .doEvent ⟨uvEinval, 0, 0⟩]

/-- `Connect` has returned true, the address is found to be bad, and the user never hears of it. -/
theorem failure_dropped : ¬ ∀ (as : List Label) (s : CTcpClient),
    run step (attached defPackHeadFlag 1000) as = some s → Quiet s →
      (∀ k < s.attempts, k ∈ s.reported) ∧ s.connectStatus ≠ .connecting := by
  intro h
  obtain ⟨s, hs⟩ := Option.isSome_iff_exists.1
    (show (run step (attached defPackHeadFlag 1000) badAddress).isSome from rfl)
  have hsees : (run step (attached defPackHeadFlag 1000) badAddress).map
      (fun s => (s.queued, s.tcphandle.connectReq, s.tcphandle.phase, s.inCloseCb,
        s.connectStatus)) = some ([], none, .active, false, .connecting) := rfl
  rw [hs, Option.map_some, Option.some.injEq] at hsees
  simp only [Prod.mk.injEq] at hsees
  obtain ⟨hqueue, hreq, hp, hcb, hst⟩ := hsees
  exact (h _ s hs ⟨hqueue, hreq, by simp [hp], hcb⟩).2 hst

end TestLibuv.CTcpClient
