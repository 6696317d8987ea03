import TestLibuv.Proofs.ConnectOutcome

/-!
# One attempt at a time

`AfterRecv` frees the status for a new `Connect` while the handle is still closing, and
`AfterHandleClose` then writes the status over the one that `Connect` set. On a handle that was
closed it runs once more when a request made there has completed, and does so again. An attempt left
over in the queue or in a request does the same through its `AfterConnect`, and one left over in the
timer through `ConnectTimeOut`. As long as a `Connect` is accepted only when none of them is left,
the next one is accepted only once its outcome was reported.
-/

namespace TestLibuv.CTcpClient

open Runs

variable {s s' : CTcpClient} {l : Label}

/-- `Connect` is called and returns true. -/
def Accepts (s : CTcpClient) : Label → Prop
  | .connect ip port timeOut isIPv6 => (s.connect ip port timeOut isIPv6).1 = true
  | _ => False

instance (s : CTcpClient) : ∀ l, Decidable (s.Accepts l)
  | .connect .. => inferInstanceAs (Decidable (_ = true))
  | .close | .shutdown | .send _ | .doEvent _ | .connectTimeOut | .afterConnect .. | .afterRecv _
  | .afterRecvError _ | .afterSend _ | .afterShutDown | .afterHandleCloseBegin
  | .afterHandleCloseEnd | .timerClosed | .looperClose => .isFalse id

/-- A `Connect` is accepted with no endgame of the handle to come, outside its close callback, with
no request pending and no `CONNECT` event in the queue; on a closed handle also with the timer not
running. -/
def Alone (s : CTcpClient) (l : Label) : Prop :=
  s.Accepts l → s.tcphandle.phase ≠ .closing ∧ s.tcphandle.phase ≠ .reclosing
    ∧ s.inCloseCb = false ∧ s.tcphandle.connectReq = none ∧ s.queued = []
    ∧ (s.tcphandle.phase = .closed → s.connectTimer.armed = none)

instance (s : CTcpClient) (l : Label) : Decidable (s.Alone l) :=
  inferInstanceAs (Decidable (_ → _))

/-- How many calls of `AfterHandleClose` are over. -/
def closed (s : CTcpClient) : ℕ := s.closes.length - s.inCloseCb.toNat

/-- The outcome of the `Connect` accepted in `t` was reported by the time of `u`: by `AfterConnect`
or `ConnectTimeOut`, or by the close callback of a handle that was still open in `t`. -/
def Answered (t u : CTcpClient) : Prop :=
  t.attempts ∈ u.reported ∨ t.tcphandle.isClosing = false ∧ t.closed < u.closed

/-- What is read from is connected and open, what is connected waits for no request, and a close
callback is one of those made. -/
structure Steady (s : CTcpClient) : Prop where
  looper : s.looper = true
  connection : s.tcphandle.connection = true → s.tcphandle.connectReq = none
  reading : s.tcphandle.reading = true → s.tcphandle.connection = true
    ∧ s.tcphandle.isClosing = false ∧ s.connectStatus = .connected
  closeCb : s.inCloseCb = true →
    s.tcphandle.phase = .closed ∧ s.tcphandle.connectReq = none ∧ s.closes ≠ []

theorem steady_attached (head : UInt32) (id : ℤ) : Steady (attached head id) := by
  constructor <;> simp [attached, attachLooper, new, UvTcp.init, UvTcp.blank]

theorem Steady.quiet (h : Steady s) (hc : s.tcphandle.isClosing = true) :
    s.tcphandle.reading = false := by
  by_contra hr
  have hopen := (h.reading (by simpa using hr)).2.1
  simp [hc] at hopen

/-- The handle is closed, or written to, and otherwise the client goes on. -/
theorem Steady.shut (h : Steady s) (hl : s'.looper = s.looper)
    (hc : s'.tcphandle.connection = s.tcphandle.connection)
    (hq : s'.tcphandle.connectReq = s.tcphandle.connectReq)
    (hr : s'.tcphandle.reading = false) (hcb : s'.inCloseCb = s.inCloseCb)
    (hcloses : s'.closes = s.closes)
    (hp : s.tcphandle.phase = .closed → s'.tcphandle.phase = .closed) : Steady s' := by
  refine ⟨hl.trans h.looper, ?_, by simp [hr], ?_⟩
  · rw [hc, hq]
    exact h.connection
  · rw [hcb, hq, hcloses]
    exact fun hin => ⟨hp (h.closeCb hin).1, (h.closeCb hin).2⟩

theorem phase_close_of_closed {h : UvTcp (List UInt8)} (hp : h.phase = .closed) :
    h.close.phase = .closed := by
  rw [show h.close = h from if_pos (by rw [UvTcp.isClosing, hp]; rfl)]
  exact hp

theorem steady_step (h : Steady s) (hs : step s l = some s') : Steady s' := by
  have hreading : s.tcphandle.close.reading = false := s.tcphandle.reading_close h.quiet
  cases step_trans hs with
  | refused _ => exact h
  | connect hst _ _ =>
    refine ⟨h.looper, h.connection, fun hr => ?_, h.closeCb⟩
    have hc := (h.reading hr).2.2
    simp [hc] at hst
  | connectAlone _ _ hl => simp [h.looper] at hl
  | connectStarts hcb _ _ _ _ hconn =>
    refine ⟨h.looper, fun hc => ?_, fun hr => ?_, fun hc => ?_⟩
    · simp [hconn] at hc
    · have hc := (h.reading hr).1
      simp [hconn] at hc
    · simp [hcb] at hc
  | closeCloses _ _ _ =>
    exact h.shut rfl (by simp) (by simp) hreading rfl rfl phase_close_of_closed
  | shutdownEvent _ _ =>
    obtain ⟨hp, hreq, hrd⟩ := s.tcphandle.shutdown_frame 0
    have hconn : (s.tcphandle.shutdown 0).2.connection = s.tcphandle.connection := by
      unfold UvTcp.shutdown
      split_ifs <;> rfl
    refine ⟨h.looper, ?_, fun hr => ?_, fun hc => ?_⟩
    · show (s.tcphandle.shutdown 0).2.connection = true → _
      rw [hconn, hreq]
      exact h.connection
    · obtain ⟨h₁, h₂, h₃⟩ := h.reading (hrd.symm.trans hr)
      exact ⟨hconn.trans h₁, by rwa [UvTcp.isClosing, hp], h₃⟩
    · exact ⟨hp.trans (h.closeCb hc).1, hreq.trans (h.closeCb hc).2.1, (h.closeCb hc).2.2⟩
  | connectTimeOut _ =>
    exact h.shut rfl (by simp) (by simp) hreading rfl rfl phase_close_of_closed
  | looperClose =>
    exact h.shut rfl (by simp) (by simp) hreading rfl rfl phase_close_of_closed
  | @recvError nread _ =>
    have hoff : (s.tcphandle.readError nread).close.reading = false :=
      UvTcp.reading_close _ fun _ => rfl
    exact h.shut rfl (UvTcp.connection_close _) (UvTcp.connectReq_close _) hoff rfl rfl
      fun hp => phase_close_of_closed hp
  | shutdownCloses _ =>
    exact h.shut rfl (UvTcp.connection_close _) (UvTcp.connectReq_close _) hreading rfl rfl
      fun hp => phase_close_of_closed hp
  | connectCancelled _ hst hk =>
    refine ⟨h.looper, fun _ => by simp, fun hr => ?_, fun hc => ?_⟩
    · have hc := (h.reading (by simpa using hr)).2.2
      simp [hst] at hc
    · simp [(h.closeCb hc).2.1] at hk
  | connectError hk _ =>
    refine ⟨h.looper, fun _ => by simp, fun hr => ?_, fun hc => ?_⟩
    · have hnone := h.connection (h.reading (by simpa using hr)).1
      simp [hk] at hnone
    · simp [(h.closeCb hc).2.1] at hk
  | connected hk hopen =>
    refine ⟨h.looper, fun _ => by simp, fun _ => ⟨rfl, ?_, rfl⟩, fun hc => ?_⟩
    · exact (s.tcphandle.isClosing_connected 0).trans hopen
    · simp [(h.closeCb hc).2.1] at hk
  | closeBegin hc _ hidle =>
    have hreq : s.tcphandle.connectReq = none := UvTcp.connectReq_of_idle _ hidle
    have hoff := h.quiet hc
    refine ⟨h.looper, h.connection, fun hr => ?_, fun _ => ⟨rfl, hreq, by simp⟩⟩
    exact absurd (hoff.symm.trans hr) (by simp)
  | closeEnd hcb =>
    refine ⟨h.looper, h.connection, fun hr => ?_, fun hc => by simp at hc⟩
    have hopen := (h.reading hr).2.1
    simp [UvTcp.isClosing, (h.closeCb hcb).1, UvPhase.isClosing] at hopen
  | _ => exact ⟨h.looper, h.connection, h.reading, h.closeCb⟩

/-! ## The attempt in use -/

theorem accepted_step (hl : Accepts s l) (h : Steady s) (hs : step s l = some s') :
    (s.connectStatus = .none ∨ s.connectStatus = .connectError) ∧ s.isWaitClosed = false
      ∧ s'.connectStatus = .connecting ∧ s'.attempts = s.attempts + 1
      ∧ s'.queued = s.queued ++ [s.attempts] ∧ s'.reports = s.reports
      ∧ s'.tcphandle = s.tcphandle ∧ s'.inCloseCb = s.inCloseCb
      ∧ s'.connectTimer = s.connectTimer := by
  cases l with
  | connect ip port timeOut isIPv6 =>
    unfold step at hs
    split_ifs at hs
    obtain rfl := Option.some.inj hs
    simp only [Accepts, CTcpClient.connect] at hl ⊢
    split_ifs at hl ⊢ with hst hw hlo
    · refine ⟨by tauto, by simpa using hw, rfl, rfl, ?_, rfl, rfl, rfl, rfl⟩
      rw [queued_pushEvent]
      rfl
    · exact absurd h.looper (by simpa using hlo)
  | _ => exact absurd hl id

/-- A step that is no accepted `Connect` starts no attempt, and a request made is that of an
event taken from the queue. -/
theorem refused_step (hl : ¬ Accepts s l) (h : Steady s) (hs : step s l = some s') :
    s'.attempts = s.attempts ∧ s'.queued.Sublist s.queued
      ∧ ∀ k, s'.tcphandle.connectReq = some k → s.tcphandle.connectReq = some k ∨ k ∈ s.queued := by
  cases step_trans hs with
  | connect hst hw hlo =>
    refine absurd ?_ hl
    simp only [Accepts, CTcpClient.connect]
    rw [if_neg (by tauto), if_neg (by simp [hw]), if_pos hlo]
  | connectAlone _ _ hlo => exact absurd h.looper (by simp [hlo])
  | close | shutdown =>
    refine ⟨rfl, ?_, fun _ => .inl⟩
    rw [queued_pushEvent, if_neg (by simp), List.append_nil]
  | send _ =>
    refine ⟨rfl, ?_, fun _ => .inl⟩
    rw [pushSend, queued_pushEvent, if_neg (by simp), List.append_nil]
    exact List.Sublist.refl _
  | connectStarts _ he ht _ _ _ =>
    refine ⟨rfl, queued_sublist he, fun k hk => .inr ?_⟩
    obtain rfl := Option.some.inj hk
    simp [queued_cons he ht]
  | connectBadAddr he _ _ | connectFails he _ _ _ | closeRefused he _ _ | writeFaults he _ _
  | writeFails he _ _ | writeTakes he _ _ | otherEvent he _ =>
    exact ⟨rfl, queued_sublist he, fun _ => .inl⟩
  | closeCloses he _ _ =>
    exact ⟨rfl, queued_sublist he, fun k hk => .inl (by simpa using hk)⟩
  | shutdownEvent he _ =>
    refine ⟨rfl, queued_sublist he, fun k hk => .inl ?_⟩
    rwa [(s.tcphandle.shutdown_frame 0).2.1] at hk
  | connectTimeOut _ | looperClose | recvError _ =>
    exact ⟨rfl, List.Sublist.refl _, fun k hk => .inl (by simpa using hk)⟩
  | connectCancelled _ _ _ | connectError _ _ | connected _ _ =>
    exact ⟨rfl, List.Sublist.refl _, fun k hk => by simp at hk⟩
  | shutdownCloses _ =>
    exact ⟨rfl, List.Sublist.refl _, fun k hk => .inl ((UvTcp.connectReq_close _).symm.trans hk)⟩
  | _ => exact ⟨rfl, List.Sublist.refl _, fun _ => .inl⟩

/-- Only the attempt accepted last is in the queue or pending. -/
structure Latest (s : CTcpClient) : Prop where
  pending : ∀ k, s.tcphandle.connectReq = some k → k + 1 = s.attempts
  queued : ∀ k ∈ s.queued, k + 1 = s.attempts

theorem latest_attached (head : UInt32) (id : ℤ) : Latest (attached head id) := by
  constructor <;> simp [attached, attachLooper, new, UvTcp.init, UvTcp.blank, queued]

theorem latest_step (h : Latest s) (ht : Steady s) (hl : Alone s l) (hs : step s l = some s') :
    Latest s' := by
  by_cases ha : Accepts s l
  · obtain ⟨-, -, -, hreq, hq, -⟩ := hl ha
    obtain ⟨-, -, -, hat, hq', -, hth, -⟩ := accepted_step ha ht hs
    refine ⟨fun k hk => ?_, fun k hk => ?_⟩
    · rw [hth, hreq] at hk
      simp at hk
    · rw [hq', hq] at hk
      rw [List.mem_singleton.1 hk, hat]
  · obtain ⟨hat, hq, hreq⟩ := refused_step ha ht hs
    refine ⟨fun k hk => ?_, fun k hk => hat ▸ h.queued k (hq.subset hk)⟩
    rcases hreq k hk with hk | hk
    · exact hat ▸ h.pending k hk
    · exact hat ▸ h.queued k hk

/-! ## Until the outcome is known -/

theorem closed_step (hs : step s l = some s') : s.closed ≤ s'.closed := by
  unfold closed
  cases step_trans hs with
  | closeBegin _ _ _ => simp
  | closeEnd _ => simp
  | _ => exact le_rfl

theorem reported_step (hs : step s l = some s') : s.reported ⊆ s'.reported := by
  unfold reported
  cases step_trans hs with
  | connectTimeOut _ | connectError _ _ | connected _ _ => simp
  | _ => exact List.Subset.refl _

theorem answered_step {t : CTcpClient} (h : Answered t s) (hs : step s l = some s') :
    Answered t s' :=
  h.imp (fun hr => reported_step hs hr) fun ⟨hopen, hlt⟩ => ⟨hopen, hlt.trans_le (closed_step hs)⟩

/-- The attempt accepted in `t` is the last one, and the status tells `Connect` so. If the handle
was closed in `t`, it has had no request complete since, and the timer runs for that attempt or not
at all. -/
structure Outstanding (t u : CTcpClient) : Prop where
  last : u.attempts = t.attempts + 1
  status : u.connectStatus = .connecting
    ∨ u.connectStatus = .connectTimeOut ∧ t.tcphandle.isClosing = false
  still : t.tcphandle.isClosing = true → u.tcphandle.phase = .closed ∧ u.inCloseCb = false
    ∧ ∀ k, u.connectTimer.armed = some k → k = t.attempts

/-- What the steps behind the `Connect` accepted in `t` keep. -/
structure Turn (t u : CTcpClient) : Prop where
  steady : Steady u
  latest : Latest u
  closes : t.closed ≤ u.closed
  outcome : Answered t u ∨ Outstanding t u

section Outstanding

variable {t : CTcpClient}

theorem Outstanding.refuses (h : Outstanding t s) : ¬ Accepts s l := by
  cases l with
  | connect ip port timeOut isIPv6 =>
    simp only [Accepts, CTcpClient.connect]
    rcases h.status with hst | ⟨hst, -⟩ <;> simp [hst]
  | _ => exact id

theorem Outstanding.not_idle (h : Outstanding t s) :
    s.connectStatus ≠ .none ∧ s.connectStatus ≠ .connectError ∧ s.connectStatus ≠ .connected := by
  rcases h.status with hst | ⟨hst, -⟩ <;> simp [hst]

theorem Outstanding.report (h : Outstanding t s) {k : ℕ} {x : TcpStatus} (hk : k + 1 = s.attempts)
    (hr : s'.reports = s.reports ++ [(k, x)]) : Answered t s' := by
  have hnum : k = t.attempts := by
    have hlast := h.last
    omega
  refine .inl ?_
  simp [reported, hr, hnum]

/-- The client goes on with the attempt. -/
theorem Outstanding.keep (h : Outstanding t s) (ha : s'.attempts = s.attempts)
    (hst : s'.connectStatus = s.connectStatus) (hcb : s'.inCloseCb = s.inCloseCb)
    (hp : s.tcphandle.phase = .closed → s'.tcphandle.phase = .closed)
    (harm : ∀ k, s'.connectTimer.armed = some k →
      s.connectTimer.armed = some k ∨ k + 1 = s.attempts) : Outstanding t s' := by
  refine ⟨ha.trans h.last, hst ▸ h.status, fun hc => ?_⟩
  obtain ⟨hclosed, hout, htimer⟩ := h.still hc
  refine ⟨hp hclosed, hcb.trans hout, fun k hk => ?_⟩
  rcases harm k hk with hk | hk
  · exact htimer k hk
  · have hlast := h.last
    omega

/-- The handle was open when the attempt was accepted, and the status still tells of it. -/
theorem Outstanding.of_open (ho : t.tcphandle.isClosing = false)
    (ha : s'.attempts = t.attempts + 1)
    (hst : s'.connectStatus = .connecting ∨ s'.connectStatus = .connectTimeOut) :
    Outstanding t s' :=
  ⟨ha, hst.imp_right fun hst => ⟨hst, ho⟩, fun hc => by simp [ho] at hc⟩

theorem outstanding_step (h : Turn t s) (ho : Outstanding t s) (hs : step s l = some s') :
    Answered t s' ∨ Outstanding t s' := by
  have hkeep : ∀ {j : ℕ}, s.connectTimer.close.armed = some j →
      s.connectTimer.armed = some j ∨ j + 1 = s.attempts :=
    fun hj => .inl (UvTimer.armed_close _ hj).2
  cases step_trans hs with
  | connect hst _ _ | connectAlone hst _ _ =>
    exact absurd hst (not_or.2 ⟨ho.not_idle.1, ho.not_idle.2.1⟩)
  | connectStarts _ he ht _ _ _ =>
    refine .inr (ho.keep rfl rfl rfl id fun k hk => .inr ?_)
    obtain rfl : _ = k := Option.some.inj hk
    exact h.latest.queued _ (by simp [queued_cons he ht])
  | closeCloses _ _ _ => exact .inr (ho.keep rfl rfl rfl phase_close_of_closed fun _ => .inl)
  | shutdownCloses _ =>
    exact .inr (ho.keep rfl rfl rfl (fun hp => phase_close_of_closed hp) fun _ => .inl)
  | looperClose => exact .inr (ho.keep rfl rfl rfl phase_close_of_closed fun _ => hkeep)
  | shutdownEvent _ _ =>
    exact .inr (ho.keep rfl rfl rfl (fun hp => (s.tcphandle.shutdown_frame 0).1.trans hp)
      fun _ => .inl)
  | connectTimeOut hk =>
    rcases hc : t.tcphandle.isClosing with _ | _
    · exact .inr (.of_open hc ho.last (.inr rfl))
    · have hnum := (ho.still hc).2.2 _ hk
      exact .inl (ho.report (hnum ▸ ho.last.symm) rfl)
  | connectCancelled _ hst _ =>
    rcases hc : t.tcphandle.isClosing with _ | _
    · exact .inr (.of_open hc ho.last (.inr hst))
    · rcases ho.status with hst' | ⟨-, hopen⟩
      · simp [hst] at hst'
      · simp [hc] at hopen
  | connectError hk _ => exact .inl (ho.report (h.latest.pending _ hk) rfl)
  | connected hk _ => exact .inl (ho.report (h.latest.pending _ hk) rfl)
  | recvError hrd => exact absurd (h.steady.reading hrd).2.2 ho.not_idle.2.2
  | closeBegin _ hne _ =>
    rcases hc : t.tcphandle.isClosing with _ | _
    · exact .inr (.of_open hc ho.last (ho.status.imp_right And.left))
    · exact absurd (ho.still hc).1 hne
  | closeEnd hcb =>
    rcases hc : t.tcphandle.isClosing with _ | _
    · have hle := h.closes
      have hpos := List.length_pos_iff.2 (h.steady.closeCb hcb).2.2
      refine .inl (.inr ⟨hc, ?_⟩)
      simp only [closed, hcb, Bool.toNat_true, Bool.toNat_false] at hle ⊢
      omega
    · have hout := (ho.still hc).2.1
      simp [hcb] at hout
  | timerClosed _ =>
    exact .inr (ho.keep rfl rfl rfl id fun k hk => by simp [UvTimer.finish, UvTimer.stop] at hk)
  | _ => exact .inr (ho.keep rfl rfl rfl id fun _ => .inl)

theorem turn_step (h : Turn t s) (hl : Alone s l) (hs : step s l = some s') : Turn t s' := by
  refine ⟨steady_step h.steady hs, latest_step h.latest h.steady hl hs,
    h.closes.trans (closed_step hs), ?_⟩
  rcases h.outcome with ho | ho
  · exact .inl (answered_step ho hs)
  · exact outstanding_step h ho hs

end Outstanding

/-- The `Connect` that is accepted begins its turn. -/
theorem turn_accepted {t : CTcpClient} (ht : Steady t) (hlast : Latest t) (ha : Accepts t l)
    (hl : Alone t l) (hs : step t l = some s') : Turn t s' := by
  obtain ⟨-, -, hst, hat, -, -, hth, hcb, htimer⟩ := accepted_step ha ht hs
  obtain ⟨hp, hp', hout, -, -, harm⟩ := hl ha
  refine ⟨steady_step ht hs, latest_step hlast ht hl hs, closed_step hs,
    .inr ⟨hat, .inl hst, fun hc => ?_⟩⟩
  have hphase : t.tcphandle.phase = .closed := by
    rcases hphase : t.tcphandle.phase <;>
      simp_all [UvTcp.isClosing, UvPhase.isClosing]
  rw [hth, hcb, htimer, harm hphase]
  exact ⟨hphase, hout, fun k hk => by simp at hk⟩

/-- In a run whose accepted `Connect`s are alone, the next one is accepted only when the outcome
of the one before was reported, and a close callback that ends behind it is that of a handle that
was open then, or comes behind the report. -/
theorem connect_turns {pre mid : List Label} {l : Label} {head : UInt32} {id : ℤ}
    {t t' u : CTcpClient} (ht : run step (attached head id) pre = some t) (ha : Accepts t l)
    (hs : step t l = some t') (hu : run step t' mid = some u)
    (hm : Meets step Alone (attached head id) (pre ++ l :: mid)) :
    (∀ l', Accepts u l' → Answered t u)
      ∧ ∀ u', step u .afterHandleCloseEnd = some u' →
        t.tcphandle.isClosing = false ∨ t.attempts ∈ u.reported := by
  have hall := meets_iff_split.1 hm
  have hpre : Steady t ∧ Latest t := by
    refine invariant_of_meets (I := fun s => Steady s ∧ Latest s) (C := Alone)
      (fun s a s' h hl hs => ?_) ⟨steady_attached head id, latest_attached head id⟩ ?_ ht
    · exact ⟨steady_step h.1 hs, latest_step h.2 h.1 hl hs⟩
    · refine meets_iff_split.2 fun pre' a post v heq hv => hall pre' a (post ++ l :: mid) v ?_ hv
      simp [heq]
  have hturn : Turn t u := by
    refine invariant_of_meets (C := Alone) (fun _ _ _ h hl hs => turn_step h hl hs)
      (turn_accepted hpre.1 hpre.2 ha (hall pre l mid t rfl ht) hs) ?_ hu
    refine meets_iff_split.2 fun pre' a post v heq hv => ?_
    refine hall (pre ++ l :: pre') a post v (by simp [heq]) ?_
    exact run_append_eq_some.2 ⟨t, ht, run_cons_eq_some.2 ⟨t', hs, hv⟩⟩
  refine ⟨fun l' ha' => ?_, fun u' hu' => ?_⟩
  · rcases hturn.outcome with ho | ho
    · exact ho
    · exact absurd ha' ho.refuses
  · have hin : u.inCloseCb = true := by
      by_contra hcb
      simp [step, act, hcb] at hu'
    rcases hc : t.tcphandle.isClosing with _ | _
    · exact .inl rfl
    · rcases hturn.outcome with (hr | ⟨hopen, -⟩) | ho
      · exact .inr hr
      · simp [hc] at hopen
      · have hout := (ho.still hc).2.1
        simp [hin] at hout

/-- An attempt fails; the next one can follow. -/
def refusedOnce : List Label :=
  [.connect "127.0.0.1" 12345 30 false, .doEvent .ok, .afterConnect uvEconnrefused 0, .timerClosed]

theorem connect_turns_refusedOnce : ∃ t t' u,
    run step (attached defPackHeadFlag 1000) refusedOnce = some t
      ∧ step t (.connect "127.0.0.1" 12345 30 false) = some t'
      ∧ run step t' [.doEvent .ok, .afterConnect 0 0] = some u
      ∧ (∀ l', Accepts u l' → Answered t u)
      ∧ ∀ u', step u .afterHandleCloseEnd = some u' →
        t.tcphandle.isClosing = false ∨ t.attempts ∈ u.reported := by
  obtain ⟨u, hu⟩ := Option.isSome_iff_exists.1
    (show (run step (attached defPackHeadFlag 1000) (refusedOnce
      ++ .connect "127.0.0.1" 12345 30 false :: [.doEvent .ok, .afterConnect 0 0])).isSome from rfl)
  obtain ⟨t, ht, htu⟩ := run_append_eq_some.1 hu
  obtain ⟨t', hs, hu⟩ := run_cons_eq_some.1 htu
  have hrun : (run step (attached defPackHeadFlag 1000) refusedOnce).map
      (fun s => (s.connect "127.0.0.1" 12345 30 false).1) = some true := rfl
  rw [ht] at hrun
  have ha : Accepts t (.connect "127.0.0.1" 12345 30 false) := Option.some.inj hrun
  exact ⟨t, t', u, ht, hs, hu, connect_turns ht ha hs hu (by decide)⟩

/-- The peer ends the connection. -/
def peerEnds : List Label :=
  [.connect "127.0.0.1" 12345 30 false, .doEvent .ok, .afterConnect 0 0, .timerClosed,
    .afterRecvError uvEof]

/-- A `Connect` accepted while the handle is closing loses its status to `AfterHandleClose`, and the
next one is accepted with the outcome unknown. -/
theorem connect_overwritten : ¬ ∀ (pre mid : List Label) (l l' : Label) (t t' u : CTcpClient),
    run step (attached defPackHeadFlag 1000) pre = some t → Accepts t l → step t l = some t' →
      run step t' mid = some u → Accepts u l' → Answered t u := by
  intro h
  obtain ⟨t, ht⟩ := Option.isSome_iff_exists.1
    (show (run step (attached defPackHeadFlag 1000) peerEnds).isSome from rfl)
  have hsees : (run step (attached defPackHeadFlag 1000) peerEnds).map
      (fun t => (t.attempts, t.tcphandle.isClosing, (t.connect "127.0.0.1" 12345 30 false).1,
        (run step t [.connect "127.0.0.1" 12345 30 false, .afterHandleCloseBegin,
          .afterHandleCloseEnd]).map
            fun u => (u.reported, (u.connect "127.0.0.1" 12345 30 false).1)))
      = some (1, true, true, some ([0], true)) := rfl
  rw [ht, Option.map_some, Option.some.injEq] at hsees
  simp only [Prod.mk.injEq] at hsees
  obtain ⟨hat, hclosing, hacc, hlater⟩ := hsees
  obtain ⟨u, hu, hsees⟩ := Option.map_eq_some_iff.1 hlater
  simp only [Prod.mk.injEq] at hsees
  obtain ⟨t', hs, hmid⟩ := run_cons_eq_some.1 hu
  have hl : Accepts t (.connect "127.0.0.1" 12345 30 false) := hacc
  have hl' : Accepts u (.connect "127.0.0.1" 12345 30 false) := hsees.2
  rcases h _ _ _ _ _ _ _ ht hl hs hmid hl' with hin | hopen
  · simp [hsees.1, hat] at hin
  · simp [hclosing] at hopen

end TestLibuv.CTcpClient
