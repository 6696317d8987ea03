import TestLibuv.Proofs.ClientStep
import TestLibuv.Proofs.ContextOwnership

/-!
# Shutdown requests

`uv_shutdown` refuses a handle that is not writable, and nobody looks at what it returns. The handle
of a session is connected before there is a session, so it is writable, or waits for the callback of
a shutdown, or is closing. The handle of a client need not be connected when its `SHUTDOWN` event
is dispatched, and then nothing comes of the request; nor does `AfterShutDown` close it unless the
status is one of two.
-/

namespace TestLibuv

open CMem Runs

namespace UvTcp

variable {Write : Type*} {h : UvTcp Write}

/-- The handle waits for the callback of a shutdown, or is closing. -/
def Shut (h : UvTcp Write) : Prop := h.shutdownReq.isSome = true ∨ h.isClosing = true

theorem Shut.of_eq {h' : UvTcp Write} (hs : h.Shut) (hreq : h'.shutdownReq = h.shutdownReq)
    (hcl : h.isClosing = true → h'.isClosing = true) : h'.Shut := hs.imp (hreq ▸ ·) hcl

@[simp] theorem shutdownReq_close (h : UvTcp Write) : h.close.shutdownReq = h.shutdownReq := by
  unfold close
  split_ifs <;> rfl

@[simp] theorem shutdownReq_connected (h : UvTcp Write) (status : ℤ) :
    (h.connected status).shutdownReq = h.shutdownReq := by
  unfold connected
  split_ifs <;> rfl

theorem shut_close (h : UvTcp Write) : h.close.Shut := .inr h.isClosing_close

theorem shutdown_cases (h : UvTcp Write) (req : ℕ) :
    h.writable = false ∧ (h.shutdown req).2 = h ∨ h.writable = true
      ∧ (h.shutdown req).2 = { h with writable := false, shutdownReq := some req } := by
  unfold shutdown
  split_ifs with hw
  · exact .inl ⟨by simpa using hw, rfl⟩
  · exact .inr ⟨by simpa using hw, rfl⟩

theorem Shut.shutdown (hs : h.Shut) (req : ℕ) : (h.shutdown req).2.Shut := by
  rcases h.shutdown_cases req with ⟨-, heq⟩ | ⟨-, heq⟩ <;> rw [heq]
  · exact hs
  · exact .inl rfl

@[simp] theorem writable_shutdown (h : UvTcp Write) (req : ℕ) :
    (h.shutdown req).2.writable = false := by
  rcases h.shutdown_cases req with ⟨hw, heq⟩ | ⟨-, heq⟩ <;> simp [*]

theorem shutdownReq_of_ends (he : h.ends = true) : h.shutdownReq = none :=
  (h.idle_eq_true.1 (h.idle_of_ends he)).2.1

/-- A shutdown of the handle is taken, or there is one already, or the handle is closing. -/
def Answers (h : UvTcp Write) : Prop := h.writable = true ∨ h.Shut

theorem Answers.shutdown (ha : h.Answers) (req : ℕ) : (h.shutdown req).2.Answers := by
  rcases h.shutdown_cases req with ⟨-, heq⟩ | ⟨-, heq⟩ <;> rw [heq]
  · exact ha
  · exact .inr (.inl rfl)

theorem writable_of_close (hw : h.close.writable = true) : h.writable = true := by
  unfold UvTcp.close at hw
  split_ifs at hw
  exact hw

/-- Only an open handle is writable. -/
def OpenToWrites (h : UvTcp Write) : Prop := h.writable = true → h.isClosing = false

theorem OpenToWrites.close (ho : h.OpenToWrites) : h.close.OpenToWrites := by
  unfold UvTcp.close
  split_ifs with hc
  · exact ho
  · intro hw
    simp at hw

theorem OpenToWrites.shutdown (ho : h.OpenToWrites) (req : ℕ) :
    (h.shutdown req).2.OpenToWrites := by
  rcases h.shutdown_cases req with ⟨-, heq⟩ | ⟨-, heq⟩ <;> rw [heq]
  · exact ho
  · intro hw
    simp at hw

theorem OpenToWrites.connected (ho : h.OpenToWrites) {status : ℤ}
    (hst : ¬ (status = 0 ∧ h.isClosing = true)) : (h.connected status).OpenToWrites := by
  intro hw
  rw [UvTcp.isClosing_connected]
  unfold UvTcp.connected at hw
  split_ifs at hw with hz
  · simpa [hz] using hst
  · exact ho hw

theorem OpenToWrites.finish (ho : h.OpenToWrites) (hc : h.isClosing = true) :
    h.finish.OpenToWrites := by
  intro hw
  simp [ho hw] at hc

end UvTcp

/-! ## The client -/

namespace CTcpClient

variable {s s' : CTcpClient} {l : Label}

/-- The step dispatches a `SHUTDOWN` event to an open handle. -/
def Shuts (s : CTcpClient) (l : Label) : Prop :=
  (∃ r, l = .doEvent r) ∧ (∃ e ∈ s.events.head?, e.event.type = .shutdown)
    ∧ s.tcphandle.isClosing = false

/-- A `SHUTDOWN` event is dispatched to an open handle only if that is writable or waits for the
callback of a shutdown, and `AfterShutDown` finds the handle closing or gets to `uv_close`. -/
def KeepsShutdown (s : CTcpClient) (l : Label) : Prop :=
  (s.Shuts l → s.tcphandle.writable = true ∨ s.tcphandle.shutdownReq.isSome = true)
    ∧ (l = .afterShutDown → s.tcphandle.isClosing = true ∨ s.Closeable)

/-- The handle of the client that waits for a shutdown stays so until `AfterShutDown` closes it. -/
theorem shut_step (h : s.tcphandle.Shut) (hk : s.KeepsShutdown l) (hs : step s l = some s') :
    s'.tcphandle.Shut := by
  cases step_trans hs with
  | closeCloses _ _ _ | connectTimeOut _ | recvError _ | looperClose => exact UvTcp.shut_close _
  | shutdownEvent _ _ => exact h.shutdown 0
  | connectCancelled _ _ _ | connectError _ _ | connected _ _ =>
    exact h.of_eq (by simp) fun hc => by simpa [UvTcp.isClosing] using hc
  | shutdownRefused hno => exact .inr ((hk.2 rfl).resolve_right hno)
  | shutdownCloses _ => exact .inr s.tcphandle.isClosing_close
  | closeBegin _ _ _ => exact .inr rfl
  | _ => exact h

theorem open_of_afterConnect {status readStart : ℤ}
    (hs : step s (.afterConnect status readStart) = some s') :
    ¬ (status = 0 ∧ s.tcphandle.isClosing = true) := by
  intro h
  unfold step act loopAct at hs
  simp [h] at hs

theorem afterShutDown_step (hs : step s .afterShutDown = some s') :
    s.tcphandle.shutdownReq.isSome = true
      ∧ (s'.tcphandle.Shut ↔ s.tcphandle.isClosing = true ∨ s.Closeable) := by
  simp only [step, act, loopAct] at hs
  split_ifs at hs with hf hc he
  obtain rfl := Option.some.inj hs
  simp only [UvTcp.shutdownEnds, Bool.and_eq_true] at he
  refine ⟨he.1.2, ?_⟩
  by_cases hcl : s.Closeable
  · refine iff_of_true (.inr ?_) (.inr hcl)
    rw [afterShutDown, closeinl_pos hcl]
    exact s.tcphandle.isClosing_close
  · rw [afterShutDown, closeinl_neg hcl]
    simp [UvTcp.Shut, UvTcp.isClosing, hcl]

theorem openToWrites_step (h : s.tcphandle.OpenToWrites) (hs : step s l = some s') :
    s'.tcphandle.OpenToWrites := by
  cases step_trans hs with
  | closeCloses _ _ _ | connectTimeOut _ | looperClose | shutdownCloses _ => exact h.close
  | recvError _ => exact UvTcp.OpenToWrites.close (h := s.tcphandle.readError _) h
  | shutdownEvent _ _ => exact h.shutdown 0
  | connectCancelled _ _ _ | connectError _ _ => exact h.connected (open_of_afterConnect hs)
  | connected _ _ => exact h.connected (open_of_afterConnect hs)
  | closeBegin hc _ _ => exact h.finish hc
  | _ => exact h

/-- A shutdown that is waited for comes of a `SHUTDOWN` event, dispatched to an open handle. -/
theorem shuts_of_step (h : s.tcphandle.OpenToWrites) (hs : step s l = some s')
    (hno : ¬ s.tcphandle.shutdownReq.isSome = true)
    (hreq : s'.tcphandle.shutdownReq.isSome = true) : s.Shuts l := by
  cases step_trans hs with
  | @shutdownEvent e rest r he ht =>
    rcases s.tcphandle.shutdown_cases 0 with ⟨-, heq⟩ | ⟨hw, -⟩
    · rw [heq] at hreq
      exact absurd hreq hno
    · exact ⟨⟨r, rfl⟩, ⟨e, by simp [he], ht⟩, h hw⟩
  | closeCloses _ _ _ | connectTimeOut _ | recvError _ | looperClose | connectCancelled _ _ _
  | connectError _ _ | connected _ _ => simp_all [UvTcp.readError]
  | shutdownRefused _ | shutdownCloses _ => simp at hreq
  | _ => exact absurd hreq hno

/-- A `SHUTDOWN` event on an open handle is kept where the handle is writable, or was shut down. -/
theorem shut_of_shuts (h : s.Shuts l) (hs : step s l = some s') :
    s'.tcphandle.Shut ↔ s.tcphandle.writable = true ∨ s.tcphandle.shutdownReq.isSome = true := by
  obtain ⟨⟨r, rfl⟩, ⟨e, he, ht⟩, hopen⟩ := h
  cases step_trans hs with
  | shutdownEvent _ _ =>
    rcases s.tcphandle.shutdown_cases 0 with ⟨hw, heq⟩ | ⟨hw, heq⟩
    · simp [UvTcp.Shut, heq, hw, hopen]
    · simp [UvTcp.Shut, heq, hw]
  | refused hu => exact absurd hu id
  | _ => simp_all

/-- In a run of a client all shutdowns are kept: once a `SHUTDOWN` event was dispatched to an open
handle, that waits for the callback or is closing in every later state. -/
def ShutdownsKept (s : CTcpClient) (as : List Label) : Prop :=
  ∀ pre l mid post t u, as = pre ++ l :: (mid ++ post) → run step s pre = some t → t.Shuts l →
    run step t (l :: mid) = some u → u.tcphandle.Shut

theorem shutdowns_kept_iff {as : List Label} (h : s.tcphandle.OpenToWrites)
    (hno : ¬ s.tcphandle.shutdownReq.isSome = true) (hr : run step s as = some s') :
    ShutdownsKept s as ↔ Meets step KeepsShutdown s as := by
  constructor
  · intro hkept
    refine meets_iff_split.2 fun pre l post t has ht => ?_
    subst has
    obtain ⟨t', ht', hr⟩ := run_append_eq_some.1 hr
    obtain rfl := Option.some.inj (ht.symm.trans ht')
    obtain ⟨u, hu, -⟩ := run_cons_eq_some.1 hr
    refine ⟨fun hl => (shut_of_shuts hl hu).1 ?_, ?_⟩
    · exact hkept pre l [] post t u rfl ht hl (run_cons_eq_some.2 ⟨u, hu, rfl⟩)
    · rintro rfl
      -- the request came of an event that a step before dispatched
      obtain ⟨pre, k, mid, v, v', rfl, hv, hstep, hv0, hv1⟩ :=
        exists_turn (P := fun s : CTcpClient => s.tcphandle.shutdownReq.isSome = true) hno
          (afterShutDown_step hu).1 ht
      have hopen : v.tcphandle.OpenToWrites :=
        invariant (I := fun s : CTcpClient => s.tcphandle.OpenToWrites)
          (fun _ _ _ => openToWrites_step) h hv
      refine (afterShutDown_step hu).2.1 ?_
      refine hkept pre k (mid ++ [.afterShutDown]) post v u (by simp) hv
        (shuts_of_step hopen hstep hv0 hv1) ?_
      rw [run_append_eq_some] at ht
      obtain ⟨v'', hv'', ht⟩ := ht
      obtain rfl := Option.some.inj (hv.symm.trans hv'')
      rw [← List.cons_append, run_append_eq_some]
      exact ⟨t, ht, run_cons_eq_some.2 ⟨u, hu, rfl⟩⟩
  · intro hmeets pre l mid post t u has ht hl hu
    subst has
    obtain ⟨t', ht', hu⟩ := run_cons_eq_some.1 hu
    have hk := hmeets.behind ht
    have hshut := (shut_of_shuts hl ht').2 (hk.1.1 hl)
    exact invariant_of_meets (I := fun s : CTcpClient => s.tcphandle.Shut)
      (fun _ _ _ => shut_step) hshut (hk.2 t' ht').left hu

end CTcpClient

/-! ## The sessions -/

namespace CTcpServer

variable {s s' t : CTcpServer} {l : Label} {a c : ℕ}

/-- A shutdown is waited for on the handle of the session that it names, and the handle of every
session answers one, and takes writes only while it is open. -/
structure Answering (s : CTcpServer) : Prop where
  named : ∀ c x a, s.ctxs.cells c = some x → x.sessionTcpHandle.shutdownReq = some a →
    ∃ p, s.sessions.cells a = some p ∧ p.clientSessionCtx = c
  answers : ∀ a p x, s.sessions.cells a = some p → s.ctxs.cells p.clientSessionCtx = some x →
    x.sessionTcpHandle.Answers
  opens : ∀ a p x, s.sessions.cells a = some p → s.ctxs.cells p.clientSessionCtx = some x →
    x.sessionTcpHandle.OpenToWrites

/-- The session is an old one, and its handle takes no more writes. -/
structure Refuses (s : CTcpServer) (a : ℕ) : Prop where
  lt : a < s.sessions.next
  writable : ∀ p x, s.sessions.cells a = some p → s.ctxs.cells p.clientSessionCtx = some x →
    x.sessionTcpHandle.writable = false

/-- What a step leaves of the handle of a context. -/
structure HandleKept (s : CTcpServer) (c : ℕ) (h h' : UvTcp ℕ) : Prop where
  writable : h'.writable = true → h.writable = true
  answers : h.Answers → h'.Answers
  opens : h.OpenToWrites → h'.OpenToWrites
  named : ∀ a, h'.shutdownReq = some a → h.shutdownReq = some a
    ∨ ∃ p, s.sessions.cells a = some p ∧ p.clientSessionCtx = c

theorem HandleKept.refl (s : CTcpServer) (c : ℕ) (h : UvTcp ℕ) : HandleKept s c h h :=
  ⟨id, id, id, fun _ => .inl⟩

theorem HandleKept.of_eq {h h' : UvTcp ℕ} (hw : h'.writable = h.writable)
    (hreq : h'.shutdownReq = h.shutdownReq) (hp : h'.phase = h.phase) : HandleKept s c h h' where
  writable hw' := hw ▸ hw'
  answers := Or.imp (hw ▸ ·) fun hs => hs.of_eq hreq fun hc => by
    rwa [UvTcp.isClosing, hp]
  opens ho hw' := by
    rw [UvTcp.isClosing, hp]
    exact ho (hw ▸ hw')
  named a ha := .inl (hreq ▸ ha)

theorem HandleKept.trans {h h' h'' : UvTcp ℕ} (hk : HandleKept s c h h')
    (hs : t.sessions = s.sessions) (hk' : HandleKept t c h' h'') : HandleKept s c h h'' where
  writable hw := hk.writable (hk'.writable hw)
  answers ha := hk'.answers (hk.answers ha)
  opens ho := hk'.opens (hk.opens ho)
  named a ha := by
    rcases hk'.named a ha with ha | hp
    · exact hk.named a ha
    · exact .inr (hs ▸ hp)

theorem handleKept_close (s : CTcpServer) (c : ℕ) (h : UvTcp ℕ) : HandleKept s c h h.close :=
  ⟨UvTcp.writable_of_close, fun _ => .inr h.shut_close, UvTcp.OpenToWrites.close,
    fun a ha => .inl (by simpa using ha)⟩

/-- What a step leaves of the sessions and of their handles. -/
structure HandlesKept (s s' : CTcpServer) : Prop where
  next : s.sessions.next ≤ s'.sessions.next
  sessions : ∀ a p', s'.sessions.cells a = some p' → (∃ p, s.sessions.cells a = some p
      ∧ p'.clientSessionCtx = p.clientSessionCtx)
    ∨ s.sessions.next ≤ a ∧ ∀ x', s'.ctxs.cells p'.clientSessionCtx = some x' →
      x'.sessionTcpHandle.Answers ∧ x'.sessionTcpHandle.OpenToWrites
  kept : ∀ a p, s.sessions.cells a = some p → (∃ p', s'.sessions.cells a = some p'
      ∧ p'.clientSessionCtx = p.clientSessionCtx)
    ∨ ∀ x', s'.ctxs.cells p.clientSessionCtx = some x' → x'.sessionTcpHandle.shutdownReq = none
  ctxs : ∀ c x', s'.ctxs.cells c = some x' → (∃ x, s.ctxs.cells c = some x
      ∧ HandleKept s c x.sessionTcpHandle x'.sessionTcpHandle)
    ∨ x'.sessionTcpHandle.shutdownReq = none
      ∧ ∀ a p, s.sessions.cells a = some p → p.clientSessionCtx ≠ c

theorem Answering.of_kept (h : Answering s) (hk : HandlesKept s s') : Answering s' where
  named c x' a hx' ha := by
    rcases hk.ctxs c x' hx' with ⟨x, hx, hkept⟩ | ⟨hnone, -⟩
    · obtain ⟨p, hp, rfl⟩ := (hkept.named a ha).elim (h.named c x a hx) id
      rcases hk.kept a p hp with hp' | hnone
      · exact hp'
      · simp [hnone x' hx'] at ha
    · simp [hnone] at ha
  answers a p' x' hp' hx' := by
    rcases hk.sessions a p' hp' with ⟨p, hp, hpc⟩ | ⟨-, hnew⟩
    · rcases hk.ctxs _ x' hx' with ⟨x, hx, hkept⟩ | ⟨-, hspare⟩
      · exact hkept.answers (h.answers a p x hp (hpc ▸ hx))
      · exact absurd hpc.symm (hspare a p hp)
    · exact (hnew x' hx').1
  opens a p' x' hp' hx' := by
    rcases hk.sessions a p' hp' with ⟨p, hp, hpc⟩ | ⟨-, hnew⟩
    · rcases hk.ctxs _ x' hx' with ⟨x, hx, hkept⟩ | ⟨-, hspare⟩
      · exact hkept.opens (h.opens a p x hp (hpc ▸ hx))
      · exact absurd hpc.symm (hspare a p hp)
    · exact (hnew x' hx').2

theorem Refuses.of_kept (h : Refuses s a) (hk : HandlesKept s s') : Refuses s' a where
  lt := h.lt.trans_le hk.next
  writable p' x' hp' hx' := by
    rcases hk.sessions a p' hp' with ⟨p, hp, hpc⟩ | ⟨hnew, -⟩
    · rcases hk.ctxs _ x' hx' with ⟨x, hx, hkept⟩ | ⟨-, hspare⟩
      · have hno := h.writable p x hp (hpc ▸ hx)
        by_contra hw
        simp [hkept.writable (by simpa using hw)] at hno
      · exact absurd hpc.symm (hspare a p hp)
    · exact absurd h.lt (not_lt.2 hnew)

/-- What leaves the sessions alone, and little of the contexts' handles. -/
theorem HandlesKept.of_ctxs (hs : s'.sessions = s.sessions)
    (hctxs : ∀ c x', s'.ctxs.cells c = some x' → ∃ x, s.ctxs.cells c = some x
      ∧ HandleKept s c x.sessionTcpHandle x'.sessionTcpHandle) : HandlesKept s s' where
  next := by rw [hs]
  sessions a p' hp' := .inl ⟨p', hs ▸ hp', rfl⟩
  kept a p hp := .inl ⟨p, hs ▸ hp, rfl⟩
  ctxs c x' hx' := .inl (hctxs c x' hx')

theorem handleKept_setCtx {d : ℕ} {x x' y' : TcpSessionCtx} (hx : s.ctxs.cells c = some x)
    (hy' : (s.setCtx c x').ctxs.cells d = some y')
    (hk : HandleKept s c x.sessionTcpHandle x'.sessionTcpHandle) : ∃ y, s.ctxs.cells d = some y
      ∧ HandleKept s d y.sessionTcpHandle y'.sessionTcpHandle := by
  rw [cells_setCtx hx] at hy'
  split_ifs at hy' with hdc
  · obtain rfl := Option.some.inj hy'
    exact ⟨x, hdc ▸ hx, hdc ▸ hk⟩
  · exact ⟨y', hy', .refl s d _⟩

theorem Move.handleKept (hm : Move s l s') (hl : ∀ c, l ≠ .afterShutDown c) {x' : TcpSessionCtx}
    (hx' : s'.ctxs.cells c = some x') : ∃ x, s.ctxs.cells c = some x
      ∧ HandleKept s c x.sessionTcpHandle x'.sessionTcpHandle := by
  cases hm with
  | rest _ _ _ _ => exact ⟨x', hx', .refl s c _⟩
  | close hx _ _ _ => exact handleKept_setCtx hx hx' (handleKept_close s _ _)
  | @shutdown _ d a x p hx hp hpc =>
    refine handleKept_setCtx hx hx' ⟨by simp, fun ha => ha.shutdown a,
      fun ho => ho.shutdown a, fun b hb => ?_⟩
    rcases x.sessionTcpHandle.shutdown_cases a with ⟨-, heq⟩ | ⟨-, heq⟩ <;> rw [heq] at hb
    · exact .inl hb
    · obtain rfl := Option.some.inj hb
      exact .inr ⟨p, hp, hpc⟩
  | readError hx => exact handleKept_setCtx hx hx' (.of_eq rfl rfl rfl)
  | @write _ d a p buff res b t hp hpc hsend =>
    obtain ⟨w, u, q, base, x, htake, -, -, hx, hout⟩ := sendinl_spec hsend
    have hctxs : u.ctxs = s.ctxs := by simpa [htake] using takeParam_ctxs s
    rcases hout with ⟨-, rfl⟩ | ⟨-, -, rfl⟩
    · exact ⟨x', hctxs ▸ hx', .refl s c _⟩
    · rw [hctxs] at hx
      simp only [setCtx, hctxs] at hx'
      exact handleKept_setCtx hx hx' (.of_eq rfl rfl rfl)
  | @sent d i w x t hx _ hsent =>
    rcases CTcpClientSession.afterSend_spec hsent with ⟨-, rfl⟩ | ⟨-, rfl⟩ <;>
      exact handleKept_setCtx hx hx' (.of_eq rfl rfl rfl)
  | shutdownDone _ => exact absurd rfl (hl _)
  | @finish d x hx he =>
    exact handleKept_setCtx hx hx' ⟨id, fun _ => .inr (.inr rfl),
      fun ho => ho.finish (UvTcp.isClosing_of_ends _ he), fun _ => .inl⟩

theorem Moves.handlesKept (hm : Moves l s s') (hl : ∀ c, l ≠ .afterShutDown c) :
    HandlesKept s s' := by
  refine .of_ctxs hm.frame.sessions ?_
  induction hm with
  | refl => exact fun c x hx => ⟨x, hx, .refl s c _⟩
  | tail hms hm ih =>
    intro c x'' hx''
    obtain ⟨x', hx', hk'⟩ := hm.handleKept hl hx''
    obtain ⟨x, hx, hk⟩ := ih c x' hx'
    exact ⟨x, hx, hk.trans (Moves.frame hms).sessions hk'⟩

theorem HandlesKept.refl (s : CTcpServer) : HandlesKept s s :=
  .of_ctxs rfl fun c x hx => ⟨x, hx, .refl s c _⟩

/-- What differs in neither the sessions nor the contexts. -/
theorem HandlesKept.congr (h : HandlesKept s t) (hs : s'.sessions = t.sessions)
    (hc : s'.ctxs = t.ctxs) : HandlesKept s s' where
  next := hs ▸ h.next
  sessions a p' hp' := hc ▸ h.sessions a p' (hs ▸ hp')
  kept a p hp := hs ▸ hc ▸ h.kept a p hp
  ctxs c x' hx' := h.ctxs c x' (hc ▸ hx')

/-- A session that is marked closed. -/
theorem HandlesKept.markClosed (h : HandlesKept s t) (hs : t.sessions = s.sessions) (a : ℕ)
    (cbs : List ServerCb) : HandlesKept s ({ t with
      sessions := t.sessions.modify a fun p => { p with isclosed := true } }.report cbs) where
  next := h.next
  sessions b p' hp' := by
    obtain ⟨p, hp, hpc⟩ := modify_isclosed hp'
    exact .inl ⟨p, hs ▸ hp, hpc⟩
  kept b p hp := .inl (cells_markClosed a (hs ▸ hp))
  ctxs := h.ctxs

/-- A spare context waits for no shutdown. -/
theorem Answering.spare (h : Answering s) (hc : ∀ a p, s.sessions.cells a = some p →
    p.clientSessionCtx ≠ c) {x : TcpSessionCtx} (hx : s.ctxs.cells c = some x) :
    x.sessionTcpHandle.shutdownReq = none := by
  by_contra hne
  obtain ⟨a, ha⟩ := Option.ne_none_iff_exists'.1 hne
  obtain ⟨p, hp, hpc⟩ := h.named c x a hx ha
  exact hc a p hp hpc

/-- The contexts behind `AcceptConnection`'s: the others are as they were, and the one it takes is
no session's and waits for no shutdown. -/
theorem Answering.takeCtx (h : Answering s) (htied : Tied s) (ho : Owned s)
    (ht : s.takeCtx = (c, t)) : t.sessions = s.sessions
      ∧ (∀ a p, s.sessions.cells a = some p → p.clientSessionCtx ≠ c)
      ∧ (∀ x, t.ctxs.cells c = some x → x.sessionTcpHandle.shutdownReq = none)
      ∧ ∀ d x, d ≠ c → t.ctxs.cells d = some x → s.ctxs.cells d = some x := by
  obtain ⟨-, hspare, -⟩ := htied.takeCtx ho ht
  rcases takeCtx_cases ht with ⟨-, rfl, rfl⟩ | ⟨rest, -, rfl⟩
  · refine ⟨rfl, hspare.notOwned, fun x hx => ?_, fun d x hd hx => ?_⟩
    · obtain rfl := Option.some.inj ((Heap.cells_alloc.trans (if_pos rfl)).symm.trans hx)
      rfl
    · exact (Heap.cells_alloc.trans (if_neg hd)).symm.trans hx
  · refine ⟨rfl, hspare.notOwned, fun x hx => ?_, fun d x hd hx => ?_⟩
    · obtain ⟨y, hy, rfl⟩ :=
        Option.map_eq_some_iff.1 ((Heap.cells_modify.trans (if_pos rfl)).symm.trans hx)
      exact (h.spare hspare.notOwned hy : y.sessionTcpHandle.shutdownReq = none)
    · exact (Heap.cells_modify.trans (if_neg hd)).symm.trans hx

theorem GivenBack.shutdownReq {r : AcceptResults} {x x' : TcpSessionCtx} {n : ℕ}
    {inits : List UvPhase} (h : GivenBack s r x x' n inits)
    (hx : x.sessionTcpHandle.shutdownReq = none) : x'.sessionTcpHandle.shutdownReq = none := by
  cases h with
  | noInit _ => exact hx
  | noAccept _ _ => rfl
  | noRead _ _ _ => simp [UvTcp.init, UvTcp.accept, UvTcp.blank]

/-- `AfterShutDown` closes the handle of the session that the request names. -/
theorem Answering.afterShutDown (h : Answering s) {r : Except CallFault CTcpServer}
    (hr : s.act (.afterShutDown c) = some r) (hs : r = .ok s') : HandlesKept s s' := by
  obtain ⟨x, hx, hr⟩ := Option.bind_eq_some_iff.1 hr
  split_ifs at hr with he
  obtain ⟨a, ha, rfl⟩ := Option.map_eq_some_iff.1 hr
  obtain ⟨p, hp, rfl⟩ := h.named c x a hx ha
  set x₀ : TcpSessionCtx := { x with
    sessionTcpHandle := { x.sessionTcpHandle with shutdownReq := none } }
  have hctx : (s.setCtx p.clientSessionCtx x₀).ctxs.cells p.clientSessionCtx = some x₀ :=
    (cells_setCtx hx _ _).trans (if_pos rfl)
  have hsession : (s.setCtx p.clientSessionCtx x₀).session a = .ok p := session_of_cells hp
  simp only [CTcpClientSession.afterShutDown, CTcpClientSession.closeinl, hsession, bind,
    Except.bind, ctx_of_cells hctx] at hs
  obtain rfl := Except.ok.inj hs
  have hclosed : ∀ th : UvTcp ℕ, th.isClosing = true → th.shutdownReq = none →
      (th.writable = true → x.sessionTcpHandle.writable = true) →
      (x.sessionTcpHandle.OpenToWrites → th.OpenToWrites) →
      HandleKept s p.clientSessionCtx x.sessionTcpHandle th := fun th hc hnone hw ho =>
    ⟨hw, fun _ => .inr (.inr hc), ho, fun b hb => by simp [hnone] at hb⟩
  refine .of_ctxs ?_ fun d y' hy' => ?_
  · unfold CTcpClientSession.closeHandle
    split_ifs <;> rfl
  · unfold CTcpClientSession.closeHandle at hy'
    split_ifs at hy' with hcl
    · exact handleKept_setCtx hx hy' (hclosed _ hcl rfl id id)
    · rw [cells_setCtx hctx] at hy'
      split_ifs at hy' with hd
      · obtain rfl := Option.some.inj hy'
        subst hd
        exact ⟨x, hx, hclosed _ x₀.sessionTcpHandle.isClosing_close
          (x₀.sessionTcpHandle.shutdownReq_close.trans rfl) UvTcp.writable_of_close
          (UvTcp.OpenToWrites.close (h := x₀.sessionTcpHandle))⟩
      · rw [cells_setCtx hx, if_neg hd] at hy'
        exact ⟨y', hy', .refl s d _⟩

/-- A session is deleted whose handle waits for no shutdown. -/
theorem HandlesKept.deleteSession (h : HandlesKept s t) {v : CTcpServer} {a : ℕ}
    {p : CTcpClientSession} {x : TcpSessionCtx} (hp : t.sessions.cells a = some p)
    (hpc : p.clientSessionCtx = c) (hx : t.ctxs.cells c = some x)
    (hnone : x.sessionTcpHandle.shutdownReq = none) (hv : t.recycle c = .ok v) {id : ℤ} :
    HandlesKept s { v with
      sessions := v.sessions.free a, clientSessionMap := v.clientSessionMap.erase id } := by
  have hsessions : v.sessions = t.sessions := by
    rcases recycle_cases hv with ⟨-, rfl⟩ | ⟨rfl, -⟩ <;> rfl
  have hctxs : ∀ d y, v.ctxs.cells d = some y → t.ctxs.cells d = some y := by
    intro d y hy
    rcases recycle_cases hv with ⟨-, rfl⟩ | ⟨rfl, -⟩
    · exact hy
    · rw [Heap.cells_free] at hy
      split_ifs at hy
      exact hy
  refine ⟨hsessions ▸ h.next, fun b p' hp' => ?_, fun b q hq => ?_, fun d y' hy' =>
    h.ctxs d y' (hctxs d y' hy')⟩
  · rw [Heap.cells_free, hsessions] at hp'
    split_ifs at hp'
    exact (h.sessions b p' hp').imp_right fun hnew =>
      ⟨hnew.1, fun y' hy' => hnew.2 y' (hctxs _ y' hy')⟩
  · rcases h.kept b q hq with ⟨q', hq', hqc⟩ | hnone'
    · by_cases hb : b = a
      · subst hb
        obtain rfl := Option.some.inj (hq'.symm.trans hp)
        refine .inr fun y' hy' => ?_
        rw [← hqc, hpc] at hy'
        obtain rfl := Option.some.inj ((hctxs _ y' hy').symm.trans hx)
        exact hnone
      · refine .inl ⟨q', ?_, hqc⟩
        exact (Heap.cells_free.trans (if_neg hb)).trans (hsessions ▸ hq')
    · exact .inr fun y' hy' => hnone' y' (hctxs _ y' hy')

theorem handlesKept_step (ho : Owners s) (h : Answering s) (hs : step s l = some s') :
    HandlesKept s s' := by
  by_cases hl : ∃ c, l = .afterShutDown c
  · obtain ⟨c, rfl⟩ := hl
    obtain ⟨r, hr, rfl⟩ := step_act hs (by simp)
    rcases r with f | t
    · exact .congr (.refl s) rfl rfl
    · exact h.afterShutDown hr rfl
  have hl : ∀ c, l ≠ .afterShutDown c := fun c hc => hl ⟨c, hc⟩
  obtain ⟨-, ht⟩ := step_trans hs
  cases ht with
  | deadTarget _ _ _ | inCall => exact .congr (.refl s) rfl rfl
  | moves hm => exact Moves.handlesKept hm hl
  | push hm _ | pop hm => exact (Moves.handlesKept hm hl).congr rfl rfl
  | @giveBack c r t x x' n inits errmsg htake hx hback =>
    obtain ⟨hsessions, hspare, hnone, hother⟩ := h.takeCtx ho.tied ho.owned htake
    refine ⟨hsessions ▸ le_rfl, fun a p' hp' => .inl ⟨p', hsessions ▸ hp', rfl⟩,
      fun a p hp => .inl ⟨p, hsessions ▸ hp, rfl⟩, fun d y' hy' => ?_⟩
    have hy' : (t.setCtx c x').ctxs.cells d = some y' := hy'
    rw [cells_setCtx hx] at hy'
    split_ifs at hy' with hd
    · obtain rfl := Option.some.inj hy'
      exact .inr ⟨hback.shutdownReq (hnone x hx), hd ▸ hspare⟩
    · exact .inl ⟨y', hother d y' hd hy', .refl s d _⟩
  | @accept c r t x htake hx _ _ =>
    obtain ⟨hsessions, hspare, -, hother⟩ := h.takeCtx ho.tied ho.owned htake
    refine ⟨hsessions ▸ Nat.le_succ _, fun a p' hp' => ?_, fun a p hp => ?_, fun d y' hy' => ?_⟩
    · have hp' : (t.sessions.alloc ⟨c, false⟩).cells a = some p' := hp'
      rw [Heap.cells_alloc, hsessions] at hp'
      split_ifs at hp' with ha
      · obtain rfl := Option.some.inj hp'
        refine .inr ⟨ha.ge, fun y' hy' => ?_⟩
        obtain rfl := Option.some.inj (((cells_setCtx hx _ c).trans (if_pos rfl)).symm.trans hy')
        exact ⟨.inl rfl, fun _ => rfl⟩
      · exact .inl ⟨p', hp', rfl⟩
    · refine .inl ⟨p, ?_, rfl⟩
      exact (Heap.cells_alloc.trans (if_neg (hsessions ▸ Heap.lt_next hp).ne)).trans
        (hsessions ▸ hp)
    · have hy' : (t.setCtx c _).ctxs.cells d = some y' := hy'
      rw [cells_setCtx hx] at hy'
      split_ifs at hy' with hd
      · obtain rfl := Option.some.inj hy'
        exact .inr ⟨rfl, hd ▸ hspare⟩
      · exact .inl ⟨y', hother d y' hd hy', .refl s d _⟩
  | @recv c data x y a p packet log _ _ _ _ hy _ =>
    refine .of_ctxs rfl fun d y' hy' => ?_
    exact handleKept_setCtx hy hy' (.refl s _ _)
  | closedAlone hm _ _ _ _ _ =>
    exact ((Moves.handlesKept hm hl).markClosed (Moves.frame hm).sessions _ []).congr rfl rfl
  | @sessionEnds c v x a b p q hx he _ _ hp hpc hmap hq hcl hv =>
    obtain ⟨rfl, hqc, hv⟩ := ho.owned.ended_self hp hpc hmap hq hcl hv
    have hfinish : Move s (.handleClosed c) _ := .finish hx he
    have hend : HandlesKept s (s.ended c x b b) :=
      (Moves.handlesKept (.single hfinish) hl).markClosed (Move.frame hfinish).sessions b _
    have hnone : x.sessionTcpHandle.shutdownReq = none := UvTcp.shutdownReq_of_ends he
    exact hend.deleteSession hq hqc (cells_ended hx) hnone hv

/-- What a run keeps for the sessions' shutdowns. -/
structure Attentive (s : CTcpServer) : Prop where
  owners : Owners s
  answering : Answering s

theorem attentive_step (h : Attentive s) (hs : step s l = some s') : Attentive s' :=
  ⟨owners_step h.owners hs, h.answering.of_kept (handlesKept_step h.owners h.answering hs)⟩

theorem attentive_run {as : List Label} {packhead : UInt32}
    (hr : run step (started packhead) as = some s) : Attentive s :=
  invariant (fun _ _ _ => attentive_step) ⟨owners_started packhead,
    fun c x a hx => by simp [started, Heap.empty] at hx,
    fun a p x hp => by simp [started, Heap.empty] at hp,
    fun a p x hp => by simp [started, Heap.empty] at hp⟩ hr

/-- The step dispatches a `SHUTDOWN` event to a session. -/
def Shuts (s : CTcpServer) (l : Label) (a : ℕ) : Prop :=
  (∃ res, l = .asyncEvent res) ∧ s.draining = true ∧ s.sessions.Live a
    ∧ ∃ e ∈ s.events.head?, e.type = .shutdown ∧ e.data = some (.session a)

/-- Behind its `SHUTDOWN` event a session's handle takes no more writes. -/
theorem Attentive.refuses (h : Attentive s) (hl : s.Shuts l a) (hs : step s l = some s') :
    Refuses s' a := by
  obtain ⟨⟨res, rfl⟩, hdrain, hlive, e, he, htype, hdata⟩ := hl
  have hf := fault_of_step hs
  obtain ⟨rest, hev⟩ : ∃ rest, s.events = e :: rest :=
    ⟨s.events.tail, (List.cons_head?_tail he).symm⟩
  obtain ⟨p, hp⟩ := hlive.cells
  obtain ⟨x, hx⟩ := h.owners.tied.paired a p hp
  have hnotDead : s.deadTarget e = none := by
    unfold deadTarget
    rw [hdata]
    exact if_pos hlive
  simp only [step_asyncEvent hf, drain, hdrain, if_true, hev, hnotDead, dispatch, hdata,
    CTcpClientSession.doEvent, htype, CTcpClientSession.shutdowinl, session_of_cells hp, bind,
    Except.bind, ctx_of_cells hx.ctx, Option.some.injEq] at hs
  subst hs
  refine ⟨hlive.lt_next, fun q y hq hy => ?_⟩
  obtain rfl : q = p := Option.some.inj (hq.symm.trans hp)
  have hy : (s.setCtx q.clientSessionCtx _).ctxs.cells q.clientSessionCtx = some y := hy
  rw [cells_setCtx hx.ctx, if_pos rfl] at hy
  obtain rfl := Option.some.inj hy
  exact x.sessionTcpHandle.writable_shutdown a

end CTcpServer

/-- A client keeps its shutdowns in exactly the runs whose `SHUTDOWN` events find an open handle
writable or shut down already, and whose `AfterShutDown`s find the handle closing or get to
`uv_close`. A session keeps them in every run: behind its `SHUTDOWN` event the handle waits for the
callback or is closing, as long as there is the session. -/
theorem shutdowns_kept (packhead : UInt32) : (∀ id as s,
      run CTcpClient.step (.attached packhead id) as = some s →
        (CTcpClient.ShutdownsKept (.attached packhead id) as
          ↔ Meets CTcpClient.step CTcpClient.KeepsShutdown (.attached packhead id) as))
    ∧ ∀ pre l mid t u a, run CTcpServer.step (.started packhead) pre = some t →
      t.Shuts l a → run CTcpServer.step t (l :: mid) = some u →
        ∀ p x, u.sessions.cells a = some p → u.ctxs.cells p.clientSessionCtx = some x →
          x.sessionTcpHandle.Shut := by
  constructor
  · intro id as s hr
    have hinit : (CTcpClient.attached packhead id).tcphandle = .init := rfl
    refine CTcpClient.shutdowns_kept_iff ?_ ?_ hr <;>
      simp [hinit, UvTcp.OpenToWrites, UvTcp.init, UvTcp.blank]
  · intro pre l mid t u a ht hl hu p x hp hx
    obtain ⟨t', ht', hu⟩ := run_cons_eq_some.1 hu
    have h := CTcpServer.attentive_run ht
    obtain ⟨hatt, href⟩ := invariant (I := fun s : CTcpServer => s.Attentive ∧ s.Refuses a)
      (fun s l s' hI hs => ⟨CTcpServer.attentive_step hI.1 hs,
        hI.2.of_kept (CTcpServer.handlesKept_step hI.1.owners hI.1.answering hs)⟩)
      ⟨CTcpServer.attentive_step h ht', h.refuses hl ht'⟩ hu
    have hno := href.writable p x hp hx
    exact (hatt.answering.answers a p x hp hx).resolve_left (by simp [hno])

/-- A shutdown asked for while the client is connecting. -/
theorem connecting_loses_shutdown : ¬ ∀ packhead id as s,
    run CTcpClient.step (.attached packhead id) as = some s →
      CTcpClient.ShutdownsKept (.attached packhead id) as := by
  intro h
  obtain ⟨t, ht, hshuts, u, hu, hno⟩ : ∃ t, run CTcpClient.step (.attached defPackHeadFlag 1000)
      [.connect "127.0.0.1" 12345 30 false, .doEvent .ok, .shutdown] = some t
        ∧ t.Shuts (.doEvent .ok) ∧ ∃ u, run CTcpClient.step t [.doEvent .ok] = some u
          ∧ ¬ u.tcphandle.Shut :=
    ⟨_, rfl, ⟨⟨_, rfl⟩, ⟨_, rfl, rfl⟩, rfl⟩, _, rfl, by rintro (h | h) <;> cases h⟩
  have hr := run_append_eq_some.2 ⟨t, ht, hu⟩
  exact hno (h _ _ _ u hr _ _ [] [] t u rfl ht hshuts hu)

end TestLibuv
