import TestLibuv.Proofs.ClientStep

/-!
# Connecting again

The handle is initialised once, by `AttachLooper`, and closed on five paths, after which `Connect`
can be accepted again. So `uv_tcp_connect` is called on a live handle exactly as long as none of
the five has run.
-/

namespace TestLibuv.CTcpClient

open Runs

variable {s s' : CTcpClient} {l : Label}

/-- A `CONNECT` event whose address is valid is dispatched. -/
def CallsConnect (s : CTcpClient) : Label → Prop
  | .doEvent r => ∃ e rest, s.events = e :: rest ∧ e.event.type = .connect ∧ r.ipAddr = 0
  | _ => False

/-- The step calls `uv_close` on the TCP handle, unless it finds it closing. -/
def Closes (s : CTcpClient) : Label → Prop
  | .doEvent _ => (∃ e rest, s.events = e :: rest ∧ e.event.type = .close) ∧ s.Closeable
  | .afterShutDown => s.Closeable
  | .afterRecvError _ | .connectTimeOut | .looperClose => True
  | _ => False

theorem head_type {e : ClientEvent} {rest : List ClientEvent} {type : UvEventType}
    (he : s.events = e :: rest)
    (h : ∃ e rest, s.events = e :: rest ∧ e.event.type = type) : e.event.type = type := by
  obtain ⟨e', rest', he', ht⟩ := h
  obtain ⟨rfl, -⟩ := List.cons_eq_cons.1 (he.symm.trans he')
  exact ht

/-- Without a closing step the handle stays in use. -/
theorem live_step (h : s.tcphandle.live = true) (hl : ¬ Closes s l) (hs : step s l = some s') :
    s'.tcphandle.live = true := by
  have hactive : s.tcphandle.phase = .active := by simpa [UvTcp.live] using h
  cases step_trans hs with
  | closeCloses he ht hc => exact absurd ⟨⟨_, _, he, ht⟩, hc⟩ hl
  | shutdownCloses hc => exact absurd hc hl
  | connectTimeOut _ | recvError _ | looperClose => exact absurd trivial hl
  | shutdownEvent _ _ => simp [UvTcp.live, (s.tcphandle.shutdown_frame 0).1, hactive]
  | connectCancelled _ _ _ | connectError _ _ | connected _ _ => simp [UvTcp.live, hactive]
  | closeBegin hc _ _ => simp [UvTcp.isClosing, hactive, UvPhase.isClosing] at hc
  | _ => exact h

/-- Closing is for good. -/
theorem closing_step (h : s.tcphandle.isClosing = true) (hs : step s l = some s') :
    s'.tcphandle.isClosing = true := by
  cases step_trans hs with
  | closeCloses _ _ _ | connectTimeOut _ | looperClose | recvError _ => simp
  | shutdownCloses _ => exact s.tcphandle.isClosing_close
  | shutdownEvent _ _ =>
    rw [UvTcp.isClosing, (s.tcphandle.shutdown_frame 0).1]
    exact h
  | connectCancelled _ _ _ | connectError _ _ => simpa using h
  | connected _ hc => simp [h] at hc
  | closeBegin _ _ _ => rfl
  | _ => exact h

theorem closing_of_closes (hl : Closes s l) (hs : step s l = some s') :
    s'.tcphandle.isClosing = true := by
  cases step_trans hs with
  | closeCloses _ _ _ | connectTimeOut _ | looperClose | recvError _ => simp
  | shutdownCloses _ => exact s.tcphandle.isClosing_close
  | closeRefused _ _ hc => exact absurd hl.2 hc
  | shutdownRefused hc => exact absurd hl hc
  | connectBadAddr he ht _ | connectFails he ht _ _ | connectStarts _ he ht _ _ _
  | shutdownEvent he ht | writeFaults he ht _ | writeFails he ht _ | writeTakes he ht _
  | otherEvent he ht =>
    have htype := head_type he hl.1
    simp [ht] at htype
  | refused hu =>
    cases l <;> first | exact absurd hu id | exact absurd hl id
  | _ => exact absurd hl id

theorem calls_step (hs : step s l = some s') :
    CallsConnect s l ∧ s'.connectCalls = s.connectCalls ++ [s.tcphandle]
      ∨ ¬ CallsConnect s l ∧ s'.connectCalls = s.connectCalls := by
  cases step_trans hs with
  | connectFails he ht hip _ => exact .inl ⟨⟨_, _, he, ht, hip⟩, rfl⟩
  | connectStarts _ he ht hip _ _ => exact .inl ⟨⟨_, _, he, ht, hip⟩, rfl⟩
  | connectBadAddr _ _ hip => exact .inr ⟨fun ⟨_, _, _, _, h⟩ => hip h, rfl⟩
  | closeRefused he ht _ | closeCloses he ht _ | shutdownEvent he ht | writeFaults he ht _
  | writeFails he ht _ | writeTakes he ht _ | otherEvent he ht =>
    refine .inr ⟨fun ⟨e, rest, he', ht', _⟩ => ?_, rfl⟩
    have htype := head_type he ⟨e, rest, he', ht'⟩
    simp [ht] at htype
  | refused hu =>
    refine .inr ⟨?_, rfl⟩
    cases l <;> first | exact absurd hu id | exact id
  | _ => exact .inr ⟨id, rfl⟩

/-- The handle is in use exactly as long as no step has closed it. -/
theorem live_iff {as : List Label} {head : UInt32} {id : ℤ}
    (hr : run step (attached head id) as = some s) : s.tcphandle.live = true
      ↔ Meets step (fun s l => ¬ Closes s l) (attached head id) as := by
  rcases run_meets_or (I := fun _ => True) (fun _ _ _ _ _ => trivial)
    (fun _ _ _ _ h hl hs => live_step h hl hs)
    (fun _ _ _ _ hl hs => closing_of_closes (not_not.1 hl) hs)
    (fun _ _ _ _ h hs => closing_step h hs) trivial rfl hr with ⟨hm, hk⟩ | ⟨hm, hb⟩
  · exact iff_of_true hk hm
  · refine iff_of_false (fun hlive => ?_) hm
    have hactive : s.tcphandle.phase = .active := by simpa [UvTcp.live] using hlive
    simp [UvTcp.isClosing, hactive, UvPhase.isClosing] at hb

theorem mem_calls_step (hs : step s l = some s') {h : UvTcp (List UInt8)} :
    h ∈ s'.connectCalls ↔ h ∈ s.connectCalls ∨ CallsConnect s l ∧ h = s.tcphandle := by
  rcases calls_step hs with ⟨hc, heq⟩ | ⟨hc, heq⟩ <;> rw [heq]
  · simp [hc]
  · simp [hc]

theorem calls_live_iff {as : List Label} {head : UInt32} {id : ℤ}
    (hr : run step (attached head id) as = some s) :
    (∀ h ∈ s.connectCalls, h.live = true) ↔ Meets step
      (fun s l => CallsConnect s l → s.tcphandle.live = true) (attached head id) as := by
  have hkeep : ∀ (s : CTcpClient) l s', True → (∀ h ∈ s.connectCalls, h.live = true) →
      (CallsConnect s l → s.tcphandle.live = true) → step s l = some s' →
      ∀ h ∈ s'.connectCalls, h.live = true := by
    intro s l s' _ hall hl hs h hin
    rcases (mem_calls_step hs).1 hin with hin | ⟨hc, rfl⟩
    · exact hall h hin
    · exact hl hc
  have hbreak : ∀ (s : CTcpClient) l s', True → ¬ (CallsConnect s l → s.tcphandle.live = true) →
      step s l = some s' → ¬ ∀ h ∈ s'.connectCalls, h.live = true := by
    intro s l s' _ hl hs hall
    exact hl fun hc => hall _ ((mem_calls_step hs).2 (.inr ⟨hc, rfl⟩))
  have hstay : ∀ (s : CTcpClient) l s', True → (¬ ∀ h ∈ s.connectCalls, h.live = true) →
      step s l = some s' → ¬ ∀ h ∈ s'.connectCalls, h.live = true := by
    intro s l s' _ hnot hs hall
    exact hnot fun h hin => hall h ((mem_calls_step hs).2 (.inl hin))
  rcases run_meets_or (I := fun _ => True) (fun _ _ _ _ _ => trivial) hkeep hbreak hstay trivial
    (fun _ hin => by simp [attached, attachLooper, new] at hin) hr with ⟨hm, hk⟩ | ⟨hm, hb⟩
  · exact iff_of_true hk hm
  · exact iff_of_false hb hm

/-- In every run, `uv_tcp_connect` was called only on a live handle exactly if every such call came
before the steps that close the handle. -/
theorem connect_live_iff {as : List Label} {head : UInt32} {id : ℤ} {s : CTcpClient}
    (hr : run step (attached head id) as = some s) :
    (∀ h ∈ s.connectCalls, h.live = true) ↔
      ∀ pre l post t, as = pre ++ l :: post → run step (attached head id) pre = some t →
        CallsConnect t l → Meets step (fun s l => ¬ Closes s l) (attached head id) pre := by
  rw [calls_live_iff hr, meets_iff_split]
  constructor
  · intro h pre l post t has hpre hc
    exact (live_iff hpre).1 (h pre l post t has hpre hc)
  · intro h pre l post t has hpre hc
    exact (live_iff hpre).2 (h pre l post t has hpre hc)

/-- A connection is made, closed, and made again. -/
def reconnect : List Label :=
  [.connect "127.0.0.1" 12345 30 false, .doEvent .ok, .afterConnect 0 0, .timerClosed, .close,
    .doEvent .ok, .afterHandleCloseBegin, .afterHandleCloseEnd,
    .connect "127.0.0.1" 12345 30 false, .doEvent .ok]

theorem connect_live_reconnect : ∃ s, run step (attached defPackHeadFlag 1000) reconnect = some s
    ∧ ((∀ h ∈ s.connectCalls, h.live = true) ↔
      ∀ pre l post t, reconnect = pre ++ l :: post →
        run step (attached defPackHeadFlag 1000) pre = some t → CallsConnect t l →
          Meets step (fun s l => ¬ Closes s l) (attached defPackHeadFlag 1000) pre) := by
  obtain ⟨s, hs⟩ := Option.isSome_iff_exists.1
    (show (run step (attached defPackHeadFlag 1000) reconnect).isSome from rfl)
  exact ⟨s, hs, connect_live_iff hs⟩

/-- A `Connect` accepted after the handle was closed calls `uv_tcp_connect` on the closed handle. -/
theorem connect_on_closed : ¬ ∀ (as : List Label) (s : CTcpClient),
    run step (attached defPackHeadFlag 1000) as = some s →
      ∀ h ∈ s.connectCalls, h.live = true := by
  intro h
  obtain ⟨s, hs⟩ := Option.isSome_iff_exists.1
    (show (run step (attached defPackHeadFlag 1000) reconnect).isSome from rfl)
  have hcalls : (run step (attached defPackHeadFlag 1000) reconnect).map
      (fun s => s.connectCalls.map UvTcp.live) = some [true, false] := rfl
  rw [hs, Option.map_some, Option.some.injEq] at hcalls
  have hlive : ∀ b ∈ s.connectCalls.map UvTcp.live, b = true := by simpa using h _ s hs
  rw [hcalls] at hlive
  simp at hlive

end TestLibuv.CTcpClient
