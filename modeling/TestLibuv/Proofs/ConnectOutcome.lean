import Mathlib.Data.List.Nodup
import TestLibuv.Proofs.ClientStep

/-!
# One outcome per connect

The timer is closed when an attempt is reported and never initialised again, and `uv_timer_start`
arms a closed timer, which `AfterConnect` then leaves armed. As long as `AfterConnect` makes its
reports with a timer it can close, and not after `ConnectTimeOut` has made one, an accepted
`Connect` is reported at most once and the timer is never armed for a reported one.
-/

namespace TestLibuv

open Runs

/-- The attempt of a `CONNECT` event. -/
def ClientEvent.connects (e : ClientEvent) : Option ℕ :=
  if e.event.type = .connect then some e.attempt else none

namespace CTcpClient

variable {s s' : CTcpClient} {l : Label}

/-- The attempts reported. -/
def reported (s : CTcpClient) : List ℕ := s.reports.map Prod.fst

/-- The attempts whose `CONNECT` events are in the queue. -/
def queued (s : CTcpClient) : List ℕ := s.events.filterMap ClientEvent.connects

/-- When `AfterConnect` makes a report, `ConnectTimeOut` has not made one, and the timer is not
armed while closing or closed. -/
def Timely (s : CTcpClient) : Label → Prop
  | .afterConnect status _ =>
    ¬ (status = uvEcanceled ∧ s.connectStatus = .connectTimeOut) →
      s.connectStatus ≠ .connectTimeOut
        ∧ (s.connectTimer.isClosing = true → s.connectTimer.armed = none)
  | _ => True

instance (s : CTcpClient) : ∀ l, Decidable (s.Timely l)
  | .afterConnect .. => inferInstanceAs (Decidable (_ → _))
  | .connect .. | .close | .shutdown | .send _ | .doEvent _ | .connectTimeOut | .afterRecv _
  | .afterRecvError _ | .afterSend _ | .afterShutDown | .afterHandleCloseBegin
  | .afterHandleCloseEnd | .timerClosed | .looperClose => .isTrue trivial

/-- Each attempt is in the queue, or pending and perhaps timed, or reported. -/
structure Single (s : CTcpClient) : Prop where
  nodup : (s.reported ++ s.queued).Nodup
  lt : ∀ k ∈ s.reported ++ s.queued, k < s.attempts
  pending : ∀ k, s.tcphandle.connectReq = some k → k < s.attempts ∧ k ∉ s.queued
    ∧ (k ∈ s.reported → s.connectStatus = .connectTimeOut ∧ s.tcphandle.isClosing = true)
  armed : ∀ k, s.connectTimer.armed = some k →
    k < s.attempts ∧ k ∉ s.queued ∧ k ∉ s.reported
  same : ∀ a b, s.connectTimer.armed = some a → s.tcphandle.connectReq = some b → a = b
  reading : s.tcphandle.isClosing = true → s.tcphandle.reading = false
  closeCb : s.inCloseCb = true → s.tcphandle.connectReq = none

theorem queued_cons {e : ClientEvent} {rest : List ClientEvent} (he : s.events = e :: rest)
    (ht : e.event.type = .connect) :
    s.queued = e.attempt :: rest.filterMap ClientEvent.connects := by
  unfold queued
  rw [he, List.filterMap_cons_some]
  simp [ClientEvent.connects, ht]

theorem queued_sublist {e : ClientEvent} {rest : List ClientEvent} (he : s.events = e :: rest) :
    (rest.filterMap ClientEvent.connects).Sublist s.queued := by
  unfold queued
  rw [he]
  exact (List.sublist_cons_self e rest).filterMap _

theorem queued_pushEvent (s : CTcpClient) (type : UvEventType) (buff : Option (List UInt8))
    (k : ℕ) : (s.pushEvent type buff k).queued
      = s.queued ++ if type = .connect then [k] else [] := by
  unfold queued pushEvent
  rw [List.filterMap_append]
  by_cases ht : type = .connect <;> simp [ClientEvent.connects, ht]

/-- What a step keeps that reports nothing and starts nothing. -/
theorem Single.frame (h : Single s) (hr : s'.reports = s.reports)
    (ha : s'.attempts = s.attempts) (hq : s'.queued.Sublist s.queued)
    (hreq : ∀ k, s'.tcphandle.connectReq = some k → s.tcphandle.connectReq = some k)
    (harm : ∀ k, s'.connectTimer.armed = some k → s.connectTimer.armed = some k)
    (hst : ∀ k, s'.tcphandle.connectReq = some k → s.connectStatus = .connectTimeOut →
      s.tcphandle.isClosing = true →
      s'.connectStatus = .connectTimeOut ∧ s'.tcphandle.isClosing = true)
    (hread : s'.tcphandle.isClosing = true → s'.tcphandle.reading = false)
    (hcb : s'.inCloseCb = true → s'.tcphandle.connectReq = none) : Single s' := by
  have hrep : s'.reported = s.reported := congrArg (List.map Prod.fst) hr
  have hsub : (s'.reported ++ s'.queued).Sublist (s.reported ++ s.queued) := by
    rw [hrep]
    exact hq.append_left _
  refine ⟨h.nodup.sublist hsub, fun k hk => ha ▸ h.lt k (hsub.subset hk), fun k hk => ?_,
    fun k hk => ?_, fun a b haa hb => h.same a b (harm a haa) (hreq b hb), hread, hcb⟩
  · obtain ⟨hlt, hnq, hrp⟩ := h.pending k (hreq k hk)
    refine ⟨ha ▸ hlt, fun hin => hnq (hq.subset hin), fun hin => ?_⟩
    obtain ⟨h₁, h₂⟩ := hrp (hrep ▸ hin)
    exact hst k hk h₁ h₂
  · obtain ⟨hlt, hnq, hnr⟩ := h.armed k (harm k hk)
    exact ⟨ha ▸ hlt, fun hin => hnq (hq.subset hin), hrep ▸ hnr⟩

/-- An accepted `Connect` is numbered afresh. -/
theorem Single.accept (h : Single s) (hst : s.connectStatus ≠ .connectTimeOut)
    (hr : s'.reports = s.reports) (ha : s'.attempts = s.attempts + 1)
    (hq : s'.queued.Sublist (s.queued ++ [s.attempts])) (hth : s'.tcphandle = s.tcphandle)
    (htm : s'.connectTimer = s.connectTimer) (hcb : s'.inCloseCb = s.inCloseCb) : Single s' := by
  have hrep : s'.reported = s.reported := congrArg (List.map Prod.fst) hr
  have hsub : (s'.reported ++ s'.queued).Sublist (s.reported ++ s.queued ++ [s.attempts]) := by
    rw [hrep, List.append_assoc]
    exact hq.append_left _
  have hnew : (s.reported ++ s.queued ++ [s.attempts]).Nodup := by
    refine h.nodup.append (List.nodup_singleton _) ?_
    rw [List.disjoint_singleton]
    exact fun hin => absurd (h.lt _ hin) (lt_irrefl _)
  have hin : ∀ k ∈ s'.queued, k ∈ s.queued ∨ k = s.attempts := fun k hk => by
    simpa using hq.subset hk
  refine ⟨hnew.sublist hsub, fun k hk => ?_, fun k hk => ?_, fun k hk => ?_, ?_, ?_, ?_⟩
  · rw [ha]
    rcases List.mem_append.1 (hsub.subset hk) with hk | hk
    · exact Nat.lt_succ_of_lt (h.lt k hk)
    · rw [List.mem_singleton.1 hk]
      exact Nat.lt_succ_self _
  · obtain ⟨hlt, hnq, hrp⟩ := h.pending k (hth ▸ hk)
    refine ⟨by omega, fun hkq => ?_, fun hkr => absurd (hrp (hrep ▸ hkr)).1 hst⟩
    rcases hin k hkq with hkq | hkq
    · exact hnq hkq
    · omega
  · obtain ⟨hlt, hnq, hnr⟩ := h.armed k (htm ▸ hk)
    refine ⟨by omega, fun hkq => ?_, hrep ▸ hnr⟩
    rcases hin k hkq with hkq | hkq
    · exact hnq hkq
    · omega
  · rw [hth, htm]
    exact h.same
  · rw [hth]
    exact h.reading
  · rw [hcb, hth]
    exact h.closeCb

/-- The `CONNECT` event of an attempt makes it pending and starts the timer for it. -/
theorem Single.start (h : Single s) {k : ℕ} {rest : List ℕ} (hk : s.queued = k :: rest)
    (hr : s'.reports = s.reports) (ha : s'.attempts = s.attempts) (hq : s'.queued = rest)
    (hreq : s'.tcphandle.connectReq = some k) (harm : s'.connectTimer.armed = some k)
    (hcl : s'.tcphandle.isClosing = true → s'.tcphandle.reading = false)
    (hcb : s'.inCloseCb = false) : Single s' := by
  have hrep : s'.reported = s.reported := congrArg (List.map Prod.fst) hr
  have hnd := h.nodup
  rw [hk, List.nodup_append, List.nodup_cons] at hnd
  have hlt : k < s.attempts := h.lt k (by simp [hk])
  have hnr : k ∉ s.reported := fun hin => hnd.2.2 k hin k (by simp) rfl
  have hsub : (s'.reported ++ s'.queued).Sublist (s.reported ++ s.queued) := by
    rw [hrep, hk, hq]
    exact (List.sublist_cons_self k rest).append_left _
  refine ⟨h.nodup.sublist hsub, fun j hj => ha ▸ h.lt j (hsub.subset hj), fun j hj => ?_,
    fun j hj => ?_, fun a b haa hb => ?_, hcl, fun hin => ?_⟩
  · obtain rfl := Option.some.inj (hreq.symm.trans hj)
    exact ⟨ha ▸ hlt, hq ▸ hnd.2.1.1, fun hin => absurd (hrep ▸ hin) hnr⟩
  · obtain rfl := Option.some.inj (harm.symm.trans hj)
    exact ⟨ha ▸ hlt, hq ▸ hnd.2.1.1, hrep ▸ hnr⟩
  · rw [← Option.some.inj (harm.symm.trans haa), ← Option.some.inj (hreq.symm.trans hb)]
  · simp [hcb] at hin

/-- A report about an attempt that is in use and was not reported. -/
theorem Single.report (h : Single s) {k : ℕ} {x : TcpStatus} (hlt : k < s.attempts)
    (hnq : k ∉ s.queued) (hnr : k ∉ s.reported) (hr : s'.reports = s.reports ++ [(k, x)])
    (ha : s'.attempts = s.attempts) (hq : s'.queued = s.queued)
    (hreq : ∀ j, s'.tcphandle.connectReq = some j → s.tcphandle.connectReq = some j ∧ j = k
      ∧ s'.connectStatus = .connectTimeOut ∧ s'.tcphandle.isClosing = true)
    (harm : s'.connectTimer.armed = none)
    (hcl : s'.tcphandle.isClosing = true → s'.tcphandle.reading = false)
    (hcb : s'.inCloseCb = true → s'.tcphandle.connectReq = none) : Single s' := by
  have hrep : s'.reported = s.reported ++ [k] := by
    unfold reported
    rw [hr, List.map_append]
    rfl
  have hperm : (s'.reported ++ s'.queued).Perm (k :: (s.reported ++ s.queued)) := by
    rw [hrep, hq, List.append_assoc]
    exact List.perm_middle
  refine ⟨hperm.nodup_iff.2 (List.nodup_cons.2 ⟨by simp [hnr, hnq], h.nodup⟩), fun j hj => ?_,
    fun j hj => ?_, fun j hj => by simp [harm] at hj, fun a b haa _ => by simp [harm] at haa, hcl,
    hcb⟩
  · rw [ha]
    rcases List.mem_cons.1 (hperm.subset hj) with rfl | hj
    · exact hlt
    · exact h.lt j hj
  · obtain ⟨-, rfl, h₁, h₂⟩ := hreq j hj
    exact ⟨ha ▸ hlt, hq ▸ hnq, fun _ => ⟨h₁, h₂⟩⟩

theorem single_attached (head : UInt32) (id : ℤ) : Single (attached head id) where
  nodup := List.nodup_nil
  lt := by simp [attached, attachLooper, new, reported, queued]
  pending := by simp [attached, attachLooper, new, UvTcp.init, UvTcp.blank]
  armed := by simp [attached, attachLooper, new, UvTimer.init]
  same := by simp [attached, attachLooper, new, UvTimer.init]
  reading := by simp [attached, attachLooper, new, UvTcp.init, UvTcp.blank]
  closeCb := by simp [attached, attachLooper, new]

theorem single_step (h : Single s) (hl : Timely s l) (hs : step s l = some s') : Single s' := by
  have hreading : s.tcphandle.close.isClosing = true → s.tcphandle.close.reading = false :=
    fun _ => s.tcphandle.reading_close h.reading
  cases step_trans hs with
  | refused _ => exact h
  | connect hst _ _ =>
    refine h.accept (by rintro hc; simp [hc] at hst) rfl rfl ?_ rfl rfl rfl
    rw [queued_pushEvent]
    exact List.Sublist.refl _
  | connectAlone hst _ _ =>
    exact h.accept (by rintro hc; simp [hc] at hst) rfl rfl (List.sublist_append_left _ _) rfl rfl
      rfl
  | close | shutdown =>
    refine h.frame rfl rfl ?_ (fun _ => id) (fun _ => id) (fun _ _ => And.intro) h.reading h.closeCb
    rw [queued_pushEvent, if_neg (by simp), List.append_nil]
  | send _ =>
    refine h.frame rfl rfl ?_ (fun _ => id) (fun _ => id) (fun _ _ => And.intro) h.reading h.closeCb
    rw [pushSend, queued_pushEvent, if_neg (by simp), List.append_nil]
    exact List.Sublist.refl _
  | connectBadAddr he _ _ | connectFails he _ _ _ | closeRefused he _ _ | writeFaults he _ _
  | writeFails he _ _ | writeTakes he _ _ | otherEvent he _ =>
    exact h.frame rfl rfl (queued_sublist he) (fun _ => id) (fun _ => id) (fun _ _ => And.intro)
      h.reading h.closeCb
  | connectStarts hcb he ht _ _ _ =>
    exact h.start (queued_cons he ht) rfl rfl rfl rfl rfl h.reading hcb
  | closeCloses he _ _ =>
    exact h.frame rfl rfl (queued_sublist he) (fun k hk => by simpa using hk) (fun _ => id)
      (fun _ _ hst _ => ⟨hst, by simp⟩) hreading (fun hc => by simpa using h.closeCb hc)
  | shutdownEvent he _ =>
    obtain ⟨hp, hreq, hrd⟩ := s.tcphandle.shutdown_frame 0
    refine h.frame rfl rfl (queued_sublist he) (fun k hk => hreq ▸ hk) (fun _ => id)
      (fun _ _ hst hc => ⟨hst, ?_⟩) (fun hc => ?_) (fun hc => hreq.trans (h.closeCb hc))
    · simpa [UvTcp.isClosing, hp] using hc
    · exact hrd.trans (h.reading (by simpa [UvTcp.isClosing, hp] using hc))
  | connectTimeOut hk =>
    obtain ⟨hlt, hnq, hnr⟩ := h.armed _ hk
    refine h.report hlt hnq hnr rfl rfl rfl (fun j hj => ?_) (UvTimer.armed_stop_close _) hreading
      (fun hc => by simpa using h.closeCb hc)
    have hj : s.tcphandle.connectReq = some j := by simpa using hj
    exact ⟨hj, (h.same _ _ hk hj).symm, rfl, by simp⟩
  | connectCancelled _ hst _ =>
    exact h.frame rfl rfl (List.Sublist.refl _) (fun k hk => by simp at hk)
      (fun k hk => (UvTimer.armed_close _ hk).2) (fun k hk => by simp at hk)
      (fun hc => by simpa using h.reading (by simpa using hc)) (fun _ => by simp)
  | connectError hk hcan =>
    obtain ⟨hlt, hnq, hrp⟩ := h.pending _ hk
    obtain ⟨hst, harm⟩ := hl hcan
    exact h.report hlt hnq (fun hin => hst (hrp hin).1) rfl rfl rfl (fun j hj => by simp at hj)
      (UvTimer.armed_close_none _ harm)
      (fun hc => by simpa using h.reading (by simpa using hc)) (fun _ => by simp)
  | connected hk hcl =>
    obtain ⟨hlt, hnq, hrp⟩ := h.pending _ hk
    obtain ⟨hst, harm⟩ := hl (by simp [uvEcanceled])
    refine h.report hlt hnq (fun hin => hst (hrp hin).1) rfl rfl rfl (fun j hj => by simp at hj)
      (UvTimer.armed_close_none _ harm) (fun hc => ?_) (fun _ => by simp)
    have hc : s.tcphandle.isClosing = true := by simpa [UvTcp.isClosing] using hc
    simp [hcl] at hc
  | recv _ _ _ =>
    exact h.frame rfl rfl (List.Sublist.refl _) (fun _ => id) (fun _ => id) (fun _ _ => And.intro)
      h.reading h.closeCb
  | recvError hrd =>
    refine h.frame rfl rfl (List.Sublist.refl _) (fun k hk => by simpa using hk) (fun _ => id)
      (fun k _ _ hc => ?_) (fun _ => UvTcp.reading_close _ fun _ => rfl)
      (fun hc => by simpa using h.closeCb hc)
    have hc := h.reading hc
    simp [hrd] at hc
  | sent =>
    exact h.frame rfl rfl (List.Sublist.refl _) (fun _ => id) (fun _ => id) (fun _ _ => And.intro)
      h.reading h.closeCb
  | shutdownRefused _ =>
    exact h.frame rfl rfl (List.Sublist.refl _) (fun _ => id) (fun _ => id) (fun _ _ => And.intro)
      h.reading h.closeCb
  | shutdownCloses _ =>
    exact h.frame rfl rfl (List.Sublist.refl _) (fun k hk => by simpa using hk) (fun _ => id)
      (fun _ _ hst _ => ⟨hst, s.tcphandle.isClosing_close⟩) hreading
      (fun hc => by simpa using h.closeCb hc)
  | closeBegin hc _ hidle =>
    have hreq : s.tcphandle.connectReq = none := UvTcp.connectReq_of_idle _ hidle
    exact h.frame rfl rfl (List.Sublist.refl _) (fun _ => id) (fun _ => id)
      (fun _ _ hst _ => ⟨hst, rfl⟩) (fun _ => h.reading hc) (fun _ => hreq)
  | closeEnd hcb =>
    refine h.frame rfl rfl (List.Sublist.refl _) (fun _ => id) (fun _ => id) (fun k hk _ _ => ?_)
      h.reading (fun hc => by simp at hc)
    have hreq := (h.closeCb hcb).symm.trans hk
    simp at hreq
  | timerClosed _ =>
    exact h.frame rfl rfl (List.Sublist.refl _) (fun _ => id)
      (fun k hk => by simp [UvTimer.finish, UvTimer.stop] at hk) (fun _ _ => And.intro) h.reading
      h.closeCb
  | looperClose =>
    exact h.frame rfl rfl (List.Sublist.refl _) (fun k hk => by simpa using hk)
      (fun k hk => (UvTimer.armed_close _ hk).2) (fun _ _ hst _ => ⟨hst, by simp⟩) hreading
      (fun hc => by simpa using h.closeCb hc)

/-- As long as `AfterConnect` is timely, every accepted `Connect` is reported at most once, and
the timer is not armed for one that was. -/
theorem reported_once {as : List Label} {head : UInt32} {id : ℤ} {s : CTcpClient}
    (hr : run step (attached head id) as = some s) (hm : Meets step Timely (attached head id) as) :
    (s.reports.map Prod.fst).Nodup ∧ (∀ k ∈ s.reports.map Prod.fst, k < s.attempts)
      ∧ ∀ k, s.connectTimer.armed = some k → k ∉ s.reports.map Prod.fst := by
  have h : Single s := invariant_of_meets (fun _ _ _ h hl hs => single_step h hl hs)
    (single_attached head id) hm hr
  exact ⟨(List.nodup_append.1 h.nodup).1, fun k hk => h.lt k (List.mem_append_left _ hk),
    fun k hk => (h.armed k hk).2.2⟩

/-- A connection is made in time. -/
def connectOnce : List Label :=
  [.connect "127.0.0.1" 12345 30 false, .doEvent .ok, .afterConnect 0 0, .timerClosed]

theorem reported_once_connectOnce : ∃ s, run step (attached defPackHeadFlag 1000) connectOnce
      = some s
    ∧ (s.reports.map Prod.fst).Nodup ∧ (∀ k ∈ s.reports.map Prod.fst, k < s.attempts)
      ∧ ∀ k, s.connectTimer.armed = some k → k ∉ s.reports.map Prod.fst := by
  obtain ⟨s, hs⟩ := Option.isSome_iff_exists.1
    (show (run step (attached defPackHeadFlag 1000) connectOnce).isSome from rfl)
  exact ⟨s, hs, reported_once hs (by decide)⟩

/-- The first attempt fails, the second one connects, and the timer started for it runs out. -/
def retryThenTimeOut : List Label :=
  [.connect "127.0.0.1" 12345 30 false, .doEvent .ok, .afterConnect uvEconnrefused 0, .timerClosed,
    .connect "127.0.0.1" 12345 30 false, .doEvent .ok, .afterConnect 0 0, .connectTimeOut]

/-- A connection can be reported as made, and then as timed out. -/
theorem reported_twice : ¬ ∀ (as : List Label) (s : CTcpClient),
    run step (attached defPackHeadFlag 1000) as = some s → (s.reports.map Prod.fst).Nodup := by
  intro h
  obtain ⟨s, hs⟩ := Option.isSome_iff_exists.1
    (show (run step (attached defPackHeadFlag 1000) retryThenTimeOut).isSome from rfl)
  have hrep : (run step (attached defPackHeadFlag 1000) retryThenTimeOut).map CTcpClient.reports
      = some [(0, .connectError), (1, .connected), (1, .connectTimeOut)] := rfl
  rw [hs] at hrep
  have hnd := h _ s hs
  rw [Option.some.inj hrep] at hnd
  simp at hnd

end CTcpClient

end TestLibuv
