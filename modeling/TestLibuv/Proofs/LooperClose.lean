import TestLibuv.Proofs.LoopHandlesStep
import TestLibuv.Proofs.SessionIds

/-!
# The close of a looper

An object opens a handle only when it is attached, and a server one for each connection while its
own handle is open, so behind the walk no handle is open again, and every session that was live
waits for its close callback or was reported.
-/

namespace TestLibuv

open Runs

namespace UvLoop

variable {s s' t : UvLoop} {l : Label} {h h' : UvHandle} {o : HandleData}

/-! ## What the runs keep -/

/-- User code attaches nothing once `Close` was called, and neither `uv_accept` nor `uv_read_start`
fails. -/
def Assumed (s : UvLoop) : Label → Prop
  | .attachClient _ _ _ | .attachServer _ _ | .attachUdp _ => s.isClosed = false
  | .server _ l => l.Accepts
  | _ => True

instance (s : UvLoop) : ∀ l, Decidable (s.Assumed l)
  | .attachClient _ _ _ | .attachServer _ _ | .attachUdp _ =>
    inferInstanceAs (Decidable (s.isClosed = false))
  | .server _ l => inferInstanceAs (Decidable l.Accepts)
  | .close | .closeSend | .asyncCB | .closeWakeup | .eventWakeup | .closeEndgame | .eventEndgame
  | .client _ _ | .udp _ _ | .unlinked _ => .isTrue trivial

theorem sound_init : Sound init := by
  refine ⟨tracked_init, fun j v hv => ?_, fun _ => ⟨rfl, fun j v hv => ?_⟩, ?_⟩
  · simp [init] at hv
  · simp [init] at hv
  · simp [init, UvAsync.init]

theorem sound_wakeup (hs : Sound s) :
    Sound { s with asyncLooperClose := s.asyncLooperClose.wakeup } :=
  ⟨hs.toTracked.closeWakeup, hs.handled, hs.full, by simp [UvAsync.wakeup]⟩

/-- A server as it takes its step, with the counter that every server counts up. -/
theorem Sound.counted (hs : Sound s) {j : ℕ} {v : CTcpServer} (hv : s.servers j = some v) :
    ({ v with sId := s.sId } : CTcpServer).Handled :=
  (hs.handled j v hv).of_eq _ rfl rfl rfl rfl

/-- What a server keeps that is attached or takes a step. -/
theorem Sound.setServer (hs : Sound s) {j : ℕ} {w : CTcpServer} {sId : ℤ} {ids : ℕ}
    (ht : Tracked ({ s with sId, ids }.setServer j w)) (hw : w.Handled)
    (hfull : ids < 2 ^ 31 → s.ids ≤ ids ∧ sId = ids ∧ w.Full ∧ w.sId ≤ sId) :
    Sound ({ s with sId, ids }.setServer j w) := by
  refine ⟨ht, fun j' v hv => ?_, fun hlt => ?_, hs.sent⟩
  · rcases update_eq_some hv with ⟨-, rfl⟩ | ⟨-, hv⟩
    · exact hw
    · exact hs.handled j' v hv
  · obtain ⟨hle, hid, hwfull, hwid⟩ := hfull hlt
    refine ⟨hid, fun j' v hv => ?_⟩
    rcases update_eq_some hv with ⟨-, rfl⟩ | ⟨-, hv⟩
    · exact ⟨hwfull, hwid⟩
    · obtain ⟨hsid, hold⟩ := hs.full (hle.trans_lt hlt)
      refine ⟨(hold j' v hv).1, (hold j' v hv).2.trans ?_⟩
      show s.sId ≤ sId
      rw [hsid, hid]
      exact_mod_cast hle

theorem full_stepServer (hs : Sound s) {j : ℕ} {v w : CTcpServer} {l : CTcpServer.Label}
    (hv : s.servers j = some v) (hstep : { v with sId := s.sId }.step l = some w)
    (hlt : s.ids + (w.accepted.length - v.accepted.length) < 2 ^ 31) :
    w.sId = ((s.ids + (w.accepted.length - v.accepted.length) : ℕ) : ℤ) ∧ w.Full := by
  obtain ⟨hsid, hfull⟩ := hs.full ((Nat.le_add_right _ _).trans_lt hlt)
  obtain ⟨hvfull, hvid⟩ := hfull j v hv
  have hhandled := hs.counted hv
  have hkeep := CTcpServer.full_step hhandled.owned hhandled.tied
    (hvfull.of_eq rfl rfl rfl rfl hvid) hstep
  rcases CTcpServer.ids_step hstep with ⟨hid, hacc⟩ | ⟨hid, hacc⟩
  · have hacc : w.accepted = v.accepted := hacc
    rw [hid, hacc, Nat.sub_self, Nat.add_zero]
    exact ⟨hsid, hkeep fun hmore => absurd (hacc ▸ hmore) (lt_irrefl _)⟩
  · have hacc : w.accepted.length = v.accepted.length + 1 := hacc
    have hadd : s.ids + (w.accepted.length - v.accepted.length) = s.ids + 1 := by omega
    rw [hadd] at hlt ⊢
    rw [CTcpServer.createSessionId_eq hsid hlt] at hid
    refine ⟨by rw [hid]; push_cast; rfl, hkeep fun _ => ?_⟩
    show s.sId < w.sId
    rw [hid, hsid]
    omega

theorem sound_step (hs : Sound s) (ha : Assumed s l ∧ ClosesOnce s l)
    (hstep : step s l = some t) : Sound t := by
  have ht := tracked_step hs.toTracked ha.2 hstep
  cases step_trans hstep with
  | @attachServer j packhead _ =>
    have hs' : Sound { s with
        data := Function.update s.data (.tcpServerHandle j) (some (.tcpServer j)) } :=
      ⟨hs.toTracked.setData rfl, hs.handled, hs.full, hs.sent⟩
    refine hs'.setServer ht (CTcpServer.handled_started packhead) fun hlt => ?_
    have hid := (hs.full hlt).1
    refine ⟨le_rfl, hid, CTcpServer.full_started packhead, ?_⟩
    show (0 : ℤ) ≤ s.sId
    omega
  | close =>
    unfold UvLoop.close at ht ⊢
    split_ifs at ht ⊢
    · exact hs
    · exact ⟨ht, hs.handled, hs.full, fun _ => rfl⟩
  | closeSend => exact ⟨ht, hs.handled, hs.full, fun _ => rfl⟩
  | asyncCB _ _ =>
    have hw := sound_wakeup hs
    exact (walked_foldl hw hw.queued.nodup fun h hh => hh).sound
  | closeWakeup => exact sound_wakeup hs
  | @server j l v w hv _ hw =>
    have hs' : Sound (s.stepObject (.server j l) v.events.length w.events.length) :=
      ⟨hs.toTracked.stepObject ha.2 _ _, hs.handled, hs.full, hs.sent⟩
    refine hs'.setServer ht (CTcpServer.handled_step (hs.counted hv) ha.1 hw) fun hlt => ?_
    obtain ⟨hid, hfull⟩ := full_stepServer hs hv hw hlt
    exact ⟨Nat.le_add_right _ _, hid, hfull, le_rfl⟩
  | _ => exact ⟨ht, hs.handled, hs.full, hs.sent⟩

/-! ## Behind the walk -/

/-- `Close` was called, and no handle but the loop's own is open. -/
structure AllShut (s : UvLoop) : Prop where
  closed : s.isClosed = true
  phase : ∀ h, h.internal = false → s.phase h ≠ .active

theorem AllShut.server (h : AllShut s) {j : ℕ} {v : CTcpServer} (hv : s.servers j = some v) :
    v.Shut := by
  refine ⟨?_, fun c x hx => ?_⟩
  · have hphase := h.phase (.tcpServerHandle j) rfl
    rwa [UvLoop.phase, hv] at hphase
  · have hphase := h.phase (.sessionTcpHandle j c) rfl
    rw [UvLoop.phase, hv] at hphase
    rwa [← CTcpServer.handlePhase_of_cells hx]

/-- A step opens no handle. -/
theorem AllShut.of_phase (h : AllShut s) (hclosed : t.isClosed = s.isClosed)
    (hphase : ∀ h', t.phase h' = .active → s.phase h' = .active) : AllShut t :=
  ⟨hclosed.trans h.closed, fun h' hint hactive => h.phase h' hint (hphase h' hactive)⟩

theorem AllShut.stepClient (h : AllShut s) {i : ℕ} {l : CTcpClient.Label} {p q : CTcpClient}
    (hp : s.clients i = some p) (htcp : q.tcphandle.phase = .active → p.tcphandle.phase = .active)
    (htimer : q.connectTimer.phase = .active → p.connectTimer.phase = .active) :
    AllShut (s.stepClient i l p q) := by
  refine h.of_phase rfl fun h' => ?_
  rw [UvLoop.stepClient, phase_setClient, phase_stepObject]
  split_ifs with htcp' htimer'
  · rw [htcp']
    simpa [UvLoop.phase, hp] using htcp
  · rw [htimer']
    simpa [UvLoop.phase, hp] using htimer
  · exact id

theorem AllShut.stepUdp (h : AllShut s) {k : ℕ} {l : CUvUdp.Label} {u w : CUvUdp}
    (hu : s.udps k = some u)
    (hudp : w.udpHandle.phase = u.udpHandle.phase ∨ w.udpHandle.phase = .closed) :
    AllShut (s.stepUdp k l u w) := by
  refine h.of_phase rfl fun h' => ?_
  rw [UvLoop.stepUdp, phase_setUdp, phase_stepObject]
  split_ifs with hk
  · intro hphase
    rcases hudp with hsame | hend
    · simpa [hk, UvLoop.phase, hu] using hsame ▸ hphase
    · simp [hend] at hphase
  · exact id

theorem AllShut.stepServer (h : AllShut s) {j : ℕ} {l : CTcpServer.Label} {v w : CTcpServer}
    (hw : w.Shut) : AllShut (s.stepServer j l v w) := by
  refine ⟨h.closed, fun h' hint => ?_⟩
  by_cases hj : h' = .tcpServerHandle j
  · subst hj
    simpa [UvLoop.stepServer, UvLoop.phase] using hw.server
  by_cases hc : ∃ c, h' = .sessionTcpHandle j c
  · obtain ⟨c, rfl⟩ := hc
    intro hphase
    have hphase : w.handlePhase c = .active := by
      simpa [UvLoop.stepServer, UvLoop.phase] using hphase
    obtain ⟨x, hx, hxp⟩ := CTcpServer.cells_of_registered (by rw [hphase]; rfl)
    exact hw.ctxs c x hx (hxp.trans hphase)
  · rw [phase_stepServer_of_ne hj fun c hh => hc ⟨c, hh⟩]
    exact h.phase h' hint

theorem AllShut.closeSend (h : AllShut s) : AllShut s.closeSend :=
  ⟨rfl, fun h' hint => phase_closeSend ▸ h.phase h' hint⟩

theorem allShut_step (h : AllShut s) (ha : Assumed s l) (hstep : step s l = some t) :
    AllShut t := by
  cases step_trans hstep with
  | attachClient packhead clientid _ | attachServer packhead _ | attachUdp k =>
    exact absurd (h.closed.symm.trans ha) (by simp)
  | close => rwa [close, if_pos h.closed]
  | closeSend => exact h.closeSend
  | asyncCB _ hactive => exact absurd hactive (h.phase .asyncLooperClose rfl)
  | closeWakeup => exact h.of_phase rfl fun h' hp => phase_closeWakeup ▸ hp
  | eventWakeup => exact h.of_phase rfl fun h' hp => phase_eventWakeup ▸ hp
  | closeEndgame _ =>
    refine h.of_phase rfl fun h' hp => ?_
    rw [phase_closeEndgame] at hp
    split_ifs at hp
    exact hp
  | eventEndgame _ =>
    refine h.of_phase rfl fun h' hp => ?_
    rw [phase_eventEndgame] at hp
    split_ifs at hp
    exact hp
  | client hp hq =>
    obtain ⟨htcp, htimer⟩ := CTcpClient.handles_step hq
    exact h.stepClient hp htcp htimer
  | @server j l v w hv hl hw =>
    exact h.stepServer (CTcpServer.shut_step ((h.server hv).setId s.sId) hl hw)
  | udp hu hw => exact h.stepUdp hu (CUvUdp.phase_step hw)
  | unlinked _ _ => exact h.of_phase rfl fun h' hp => by cases h' <;> exact hp

/-- A session of a server waits for the close callback of its handle, or was reported closed. -/
def Wound (s : UvLoop) (j : ℕ) (id : ℤ) (a c : ℕ) : Prop :=
  ∃ w, s.servers j = some w ∧ (w.Winding id a c ∨ w.Reported id a c)

theorem ends_server_step (hs : Sound s) (hshut : AllShut s) {j : ℕ} {v w : CTcpServer}
    {l : CTcpServer.Label} (hv : s.servers j = some v) (hl : l.Accepts)
    (hstep : { v with sId := s.sId }.step l = some w) {id : ℤ} {a c : ℕ}
    (h : v.Winding id a c ∨ v.Reported id a c) : w.Winding id a c ∨ w.Reported id a c := by
  have hh := hs.counted hv
  rcases h with hw | hr
  · exact CTcpServer.winding_step hh.owned hh.tied hh.named hl hw hstep
  · exact .inr (CTcpServer.reported_step (hr.setId s.sId) ((hshut.server hv).setId s.sId) hstep)

theorem wound_step (hs : Sound s) (hshut : AllShut s) (ha : Assumed s l)
    (hstep : step s l = some t) {j : ℕ} {id : ℤ} {a c : ℕ} (h : Wound s j id a c) :
    Wound t j id a c := by
  obtain ⟨v, hv, hw⟩ := h
  cases step_trans hstep with
  | attachClient packhead clientid _ | attachServer packhead _ | attachUdp k =>
    exact absurd (hshut.closed.symm.trans ha) (by simp)
  | close =>
    rw [close, if_pos hshut.closed]
    exact ⟨v, hv, hw⟩
  | asyncCB _ hactive => exact absurd hactive (hshut.phase .asyncLooperClose rfl)
  | @server j' l v' w hv' _ hstep' =>
    by_cases hj : j = j'
    · subst hj
      obtain rfl := Option.some.inj (hv.symm.trans hv')
      exact ⟨w, Function.update_self _ _ _, ends_server_step hs hshut hv ha hstep' hw⟩
    · exact ⟨v, (Function.update_of_ne hj _ _).trans hv, hw⟩
  | _ => exact ⟨v, hv, hw⟩

/-- The close callback reports the session. -/
theorem wound_handleClosed (hs : Sound s) (hshut : AllShut s) {j : ℕ} {id : ℤ} {a c : ℕ}
    (h : Wound s j id a c) (hstep : step s (.server j (.handleClosed c)) = some t) :
    ∃ w, t.servers j = some w ∧ w.Reported id a c := by
  obtain ⟨v, hv, hends⟩ := h
  cases step_trans hstep with
  | @server j' l v' w hv' _ hw =>
    obtain rfl := Option.some.inj (hv.symm.trans hv')
    have hh := hs.counted hv
    refine ⟨w, Function.update_self _ _ _, ?_⟩
    rcases hends with hwind | hrep
    · exact (CTcpServer.OwnsCtx.handleClosed_ends hh.owned hh.named hwind.1 hw).toReported
    · exact CTcpServer.reported_step (hrep.setId s.sId) ((hshut.server hv).setId s.sId) hw

/-- What holds in every state behind the walk that led to `t`. -/
structure Behind (t s : UvLoop) : Prop where
  sound : Sound s
  shut : AllShut s
  wound : ∀ j v id a c, t.servers j = some v → v.OwnsCtx id a c → Wound s j id a c

theorem behind_step (h : Behind t s) (ha : Assumed s l ∧ ClosesOnce s l)
    (hstep : step s l = some s') : Behind t s' :=
  ⟨sound_step h.sound ha hstep, allShut_step h.shut ha.1 hstep, fun j v id a c hv ho =>
    wound_step h.sound h.shut ha.1 hstep (h.wound j v id a c hv ho)⟩

theorem AllShut.closing (h : AllShut s) (hs : Sound s) {x : UvHandle} (hx : x ∈ s.handleQueue)
    (hint : x.internal = false) : s.phase x = .closing := by
  have hreg := (hs.queued.mem x).1 hx
  have hne := h.phase x hint
  rcases hp : s.phase x <;> simp [hp, UvPhase.registered] at hreg hne ⊢

/-- The handle of a session in the map is one the loop has. -/
theorem Sound.session_mem (hs : Sound s) {j : ℕ} {v : CTcpServer} (hv : s.servers j = some v)
    {id : ℤ} {a c : ℕ} (ho : v.OwnsCtx id a c) : .sessionTcpHandle j c ∈ s.handleQueue := by
  obtain ⟨x, hx, hreg⟩ := (hs.handled j v hv).registered id a c ho
  refine (hs.queued.mem _).2 ?_
  rw [phase, hv]
  rwa [← CTcpServer.handlePhase_of_cells hx] at hreg

/-- Where every open handle was closed, each session in a map waits for its close callback. -/
theorem AllShut.winding (h : AllShut s) (hs : Sound s) {j : ℕ} {v : CTcpServer}
    (hv : s.servers j = some v) {id : ℤ} {a c : ℕ} (ho : v.OwnsCtx id a c) :
    v.Winding id a c := by
  obtain ⟨x, hx, hreg⟩ := (hs.handled j v hv).registered id a c ho
  have hcl := h.closing hs (hs.session_mem hv ho) rfl
  rw [UvLoop.phase, hv] at hcl
  have hcl : x.sessionTcpHandle.phase = .closing :=
    (CTcpServer.handlePhase_of_cells hx).symm.trans hcl
  obtain ⟨b, p, hn⟩ := (hs.handled j v hv).named c x hx hreg
  exact ⟨ho, x, hx, hcl, hn.callback hcl⟩

/-- The walk of `AsyncCB`. -/
theorem walked_asyncCB (hs : Sound s) : Walked
    { s with asyncLooperClose := s.asyncLooperClose.wakeup }
    { s with asyncLooperClose := s.asyncLooperClose.wakeup }.asyncCB s.handleQueue :=
  walked_foldl (sound_wakeup hs) hs.queued.nodup fun _ hh => hh

theorem isOpen_wakeup (h : UvHandle) :
    ({ s with asyncLooperClose := s.asyncLooperClose.wakeup } : UvLoop).isOpen h = s.isOpen h := by
  cases h <;> rfl

theorem owner_wakeup
    (ho : ({ s with asyncLooperClose := s.asyncLooperClose.wakeup } : UvLoop).Owner h o) :
    s.Owner h o :=
  Owner.of_sessions (t := { s with asyncLooperClose := s.asyncLooperClose.wakeup })
    (fun _ v hv => ⟨v, hv, rfl⟩) ho

theorem allShut_asyncCB (hs : Sound s) (hclosed : s.isClosed = true) :
    AllShut { s with asyncLooperClose := s.asyncLooperClose.wakeup }.asyncCB := by
  have hw := walked_asyncCB hs
  refine ⟨hw.rest.isClosed.trans hclosed, fun h hint => ?_⟩
  rw [hw.phase]
  split_ifs with hh
  · simp
  · intro hactive
    refine hh ⟨?_, by simp [isOpen, hint, hactive]⟩
    exact ((sound_wakeup hs).queued.mem h).2 (by rw [hactive]; rfl)

/-- What the walk of `AsyncCB` does to the handles, and what holds in every state behind it: a
session that was live waits for its close callback or was reported. -/
structure Reaches (s t : UvLoop) : Prop where
  fault : t.fault = false
  closing : ∀ h ∈ t.handleQueue, h.internal = false → t.phase h = .closing
  closes : ∃ cs, t.walkCloses = s.walkCloses ++ cs
    ∧ cs.map WalkClose.handle = s.handleQueue.filter s.isOpen
    ∧ ∀ e ∈ cs, e.wasClosing = false ∧ s.Owner e.handle e.owner ∧ e.cb = e.owner.closeCb
  later : ∀ bs u, run step t bs = some u → Meets step Assumed t bs → Meets step ClosesOnce t bs →
    (∀ h, u.isOpen h = false)
      ∧ ∀ h ∈ u.handleQueue, h.internal = false → u.phase h = .closing
  reported : ∀ j v a, t.servers j = some v → v.sessions.Live a → ∃ id c, v.OwnsCtx id a c
    ∧ ∀ bs u, run step t bs = some u → Meets step Assumed t bs → Meets step ClosesOnce t bs →
      (∃ w, u.servers j = some w ∧ (.sessionTcpHandle j c ∈ u.handleQueue ∧ w.Winding id a c
        ∨ w.Reported id a c))
      ∧ ∀ u', step u (.server j (.handleClosed c)) = some u' →
        ∃ w, u'.servers j = some w ∧ w.Reported id a c

/-- A client, a server with a session and a socket, closed by the looper. -/
def attachAll : List Label :=
  [.attachClient 0 defPackHeadFlag 1000, .attachServer 0 defPackHeadFlag, .attachUdp 0,
    .server 0 (.acceptConnection 0 ⟨0, 0, 0⟩), .close]

/-- A looper that is open, with a server attached to it. -/
structure Hosts (s : UvLoop) (j : ℕ) (v : CTcpServer) : Prop where
  server : s.servers j = some v
  sId : v.sId = s.sId
  fault : s.fault = false
  isClosed : s.isClosed = false
  looperClose : s.asyncLooperClose = .init
  eventHandle : s.asyncEventHandle.closing = false

theorem hosts_attachServer (j : ℕ) (packhead : UInt32) :
    Hosts (init.attachServer j packhead) j (.started packhead) :=
  ⟨Function.update_self _ _ _, rfl, rfl, rfl, rfl, rfl⟩

theorem Hosts.step {j : ℕ} {v w : CTcpServer} {l : CTcpServer.Label} (h : Hosts s j v)
    (hl : l ≠ .asyncCB) (hw : v.step l = some w) :
    ∃ t, UvLoop.step s (.server j l) = some t ∧ Hosts t j w := by
  have hv : ({ v with sId := s.sId } : CTcpServer) = v := by rw [← h.sId]
  have hwalks : (Label.server j l).walks = false := by
    cases l with
    | asyncCB => exact absurd rfl hl
    | _ => rfl
  refine ⟨s.stepServer j l v w, ?_, Function.update_self _ _ _, rfl, h.fault, h.isClosed,
    h.looperClose, ?_⟩
  · simp [UvLoop.step, h.fault, hwalks, h.eventHandle, act, h.server, hv, hw]
  · show (if _ then s.asyncEventHandle.send else s.asyncEventHandle).closing = false
    split_ifs <;> exact h.eventHandle

/-- A server alone, on a looper. -/
theorem Hosts.run {j : ℕ} : ∀ {ls : List CTcpServer.Label} {s : UvLoop} {v w : CTcpServer},
    Hosts s j v → (∀ l ∈ ls, l ≠ .asyncCB) → Runs.run CTcpServer.step v ls = some w →
      ∃ t, Runs.run UvLoop.step s (ls.map (.server j)) = some t ∧ Hosts t j w
  | [], s, v, w, h, _, hr => by
    rw [run_nil, Option.some.injEq] at hr
    exact ⟨s, rfl, hr ▸ h⟩
  | l :: ls, s, v, w, h, hls, hr => by
    obtain ⟨u, hu, hr⟩ := run_cons_eq_some.1 hr
    obtain ⟨s', hs', hstep⟩ := h.step (hls l (by simp)) hu
    obtain ⟨t, ht, hlast⟩ := hstep.run (fun l' hl' => hls l' (by simp [hl'])) hr
    exact ⟨t, run_cons_eq_some.2 ⟨s', hs', ht⟩, hlast⟩

/-- `Close`, and the walk of `AsyncCB`. -/
theorem Hosts.close {j : ℕ} {v : CTcpServer} (h : Hosts s j v) :
    UvLoop.step s .close = some s.closeSend ∧ ∃ t w, UvLoop.step s.closeSend .asyncCB = some t
      ∧ t.servers j = some w ∧ w.sessions = v.sessions
      ∧ w.clientSessionMap = v.clientSessionMap := by
  have hkeeps : ∀ t : UvLoop, t.servers = s.servers → (t.asyncCB.servers j).isSome = true
      ∧ ∀ w, t.asyncCB.servers j = some w → w.sessions = v.sessions
        ∧ w.clientSessionMap = v.clientSessionMap := by
    intro t ht
    refine asyncCB_keeps (P := fun t => (t.servers j).isSome = true ∧ ∀ w,
      t.servers j = some w → w.sessions = v.sessions ∧ w.clientSessionMap = v.clientSessionMap)
      (fun u x cb hu => ⟨?_, fun w hw => ?_⟩) (fun u _ hu => hu) (fun u hu => hu) ?_
    · exact (alive_uvClose (o := .tcpServer j) x cb).trans hu.1
    · obtain ⟨v', hv', hcases⟩ := server_uvClose hw
      have hsame := hu.2 v' hv'
      rcases hcases with rfl | rfl | ⟨c, -, rfl⟩ <;> exact hsame
    · rw [ht, h.server]
      exact ⟨rfl, fun w hw => Option.some.inj hw ▸ ⟨rfl, rfl⟩⟩
  obtain ⟨hsome, hall⟩ := hkeeps
    { s.closeSend with asyncLooperClose := s.closeSend.asyncLooperClose.wakeup } rfl
  obtain ⟨w, hw⟩ := Option.isSome_iff_exists.1 hsome
  refine ⟨by simp [UvLoop.step, Label.walks, Label.dispatches, h.fault, act, UvLoop.close,
    h.isClosed], _, w, ?_, hw, hall w hw⟩
  have hactive : s.closeSend.asyncLooperClose.asyncSent = true
      ∧ s.closeSend.asyncLooperClose.phase = .active := by
    rw [closeSend, h.looperClose]
    exact ⟨rfl, rfl⟩
  have hfault : s.closeSend.fault = false := h.fault
  simp only [UvLoop.step, Label.walks, Label.dispatches, hfault, act, hactive]
  rfl

theorem accepts_comeRound : ∀ l ∈ TcpServers.comeRound ++ [.acceptConnection 0 ⟨0, 0, 0⟩],
    l.Accepts ∧ l ≠ .asyncCB := by
  have hvisit : ∀ l ∈ CTcpServer.visit, l.Accepts ∧ l ≠ .asyncCB := by decide
  have haccept : CTcpServer.Label.Accepts (.acceptConnection 0 ⟨0, 0, 0⟩)
      ∧ CTcpServer.Label.acceptConnection 0 ⟨0, 0, 0⟩ ≠ .asyncCB := by decide
  intro l hl
  simp only [TcpServers.comeRound, List.cons_append, List.mem_cons, List.mem_append,
    List.mem_flatten, List.not_mem_nil, or_false] at hl
  rcases hl with rfl | ⟨visit, hmem, hl⟩ | rfl
  · exact haccept
  · rw [List.eq_of_mem_replicate hmem] at hl
    exact hvisit l hl
  · exact haccept

end UvLoop

end TestLibuv
