import TestLibuv.LoopHandles
import TestLibuv.Proofs.SessionClosing

/-!
# The walk over the handles

The `data` of every handle in the queue names the object the handle is of, so the walk has each
object close its own, with its own close callback, and leaves alone what is closing.
-/

namespace TestLibuv

open Runs

theorem UvAsync.phase_close {h : UvAsync} (hactive : h.phase = .active) :
    h.close.phase = .closing := by
  unfold UvAsync.phase at hactive ⊢
  split_ifs at hactive with hclosed hclosing
  exact (if_neg hclosed).trans (if_pos rfl)

@[simp] theorem UvAsync.phase_finish (h : UvAsync) : h.finish.phase = .closed := if_pos rfl

/-- The object a handle is of, where that is not a session. -/
def UvHandle.object : UvHandle → Option HandleData
  | .wqAsync => none
  | .asyncLooperClose | .asyncEventHandle => some .looper
  | .tcphandle i | .connectTimer i => some (.tcpClient i)
  | .tcpServerHandle j => some (.tcpServer j)
  | .sessionTcpHandle _ _ => none
  | .udpHandle k => some (.uvUdp k)

namespace CTcpServer

variable {v : CTcpServer} {c d : ℕ}

theorem handlePhase_uvClose_of_ne (hdc : d ≠ c) (cb : CloseCb) :
    (v.uvClose c cb).handlePhase d = v.handlePhase d := by
  unfold handlePhase uvClose
  rw [Heap.cells_modify, if_neg hdc]

theorem handlePhase_uvClose_self (hactive : v.handlePhase c = .active) (cb : CloseCb) :
    (v.uvClose c cb).handlePhase c = .closing := by
  unfold handlePhase uvClose at *
  rw [Heap.cells_modify, if_pos rfl]
  rcases hx : v.ctxs.cells c with _ | x
  · simp [hx] at hactive
  · rw [hx] at hactive
    have hphase : x.sessionTcpHandle.phase = .active := hactive
    exact x.sessionTcpHandle.phase_close (by rw [UvTcp.isClosing, hphase]; rfl)

theorem handlePhase_of_cells {x : TcpSessionCtx} (hx : v.ctxs.cells c = some x) :
    v.handlePhase c = x.sessionTcpHandle.phase := by
  unfold handlePhase
  rw [hx]
  rfl

theorem cells_of_registered (hreg : (v.handlePhase c).registered = true) :
    ∃ x, v.ctxs.cells c = some x ∧ x.sessionTcpHandle.phase = v.handlePhase c := by
  rcases hx : v.ctxs.cells c with _ | x
  · simp [handlePhase, hx, UvPhase.registered] at hreg
  · exact ⟨x, rfl, (handlePhase_of_cells hx).symm⟩

theorem uvClose_eq {x : TcpSessionCtx} (hx : v.ctxs.cells c = some x)
    (hopen : x.sessionTcpHandle.isClosing = false) :
    v.uvClose c .afterClientClose = CTcpClientSession.closeHandle v c x := by
  have hmodify : v.ctxs.modify c (fun x => { x with
        sessionTcpHandle := x.sessionTcpHandle.close
        afterClientClose := decide (CloseCb.afterClientClose = .afterClientClose) })
      = v.ctxs.modify c fun _ => { x with
        sessionTcpHandle := x.sessionTcpHandle.close, afterClientClose := true } := by
    unfold Heap.modify
    congr 1
    funext d
    split_ifs with hdc
    · rw [hdc, hx]
      rfl
    · rfl
  unfold uvClose CTcpClientSession.closeHandle setCtx
  rw [hopen, hmodify]
  rfl

/-- What every run of the server keeps while `uv_accept` and `uv_read_start` do not fail. -/
structure Handled (v : CTcpServer) : Prop where
  owned : Owned v
  tied : Tied v
  named : AllNamed v
  registered : AllRegistered v

theorem handled_started (packhead : UInt32) : Handled (started packhead) :=
  ⟨owned_started packhead, tied_started packhead, allNamed_started packhead,
    allRegistered_started packhead⟩

theorem handled_step {l : Label} {w : CTcpServer} (h : Handled v) (hl : l.Accepts)
    (hs : step v l = some w) : Handled w :=
  ⟨owned_step h.owned hs, tied_step h.owned h.tied hs,
    allNamed_step h.owned h.tied h.named hl hs, allRegistered_step h.owned h.named h.registered hs⟩

theorem Handled.of_eq (h : Handled v) (w : CTcpServer)
    (hidle : w.idleTcpClientCtxList = v.idleTcpClientCtxList)
    (hmap : w.clientSessionMap = v.clientSessionMap) (hctxs : w.ctxs = v.ctxs)
    (hsessions : w.sessions = v.sessions) : Handled w := by
  refine ⟨h.owned.of_eq hmap hidle hctxs hsessions, h.tied.of_eq hidle hsessions hctxs,
    h.named.of_eq hctxs hsessions, ?_⟩
  rintro id a c ⟨hid, p, hp, hpc⟩
  rw [hctxs]
  exact h.registered id a c ⟨hmap ▸ hid, p, hsessions ▸ hp, hpc⟩

/-- The close of a registered handle with the close callback of its session. -/
theorem moves_uvClose {l : Label} (h : AllNamed v) (hactive : v.handlePhase c = .active) :
    Moves l v (v.uvClose c .afterClientClose) := by
  obtain ⟨x, hx, hphase⟩ := cells_of_registered (v := v) (c := c) (by rw [hactive]; rfl)
  rw [hactive] at hphase
  rw [uvClose_eq hx (by rw [UvTcp.isClosing, hphase]; rfl)]
  obtain ⟨a, p, hn⟩ := h c x hx (by rw [hphase]; rfl)
  exact moves_closeHandle hx hn.session (.inl hn.ctx)

theorem Handled.uvClose (h : Handled v) (hactive : v.handlePhase c = .active) :
    Handled (v.uvClose c .afterClientClose) := by
  have hm : Moves .asyncCB v _ := moves_uvClose h.named hactive
  refine ⟨h.owned.frame hm.frame, h.tied.moves hm, h.named.moves h.tied hm, ?_⟩
  rintro id a d ⟨hid, p, hp, hpd⟩
  obtain ⟨x, hx, hreg⟩ := h.registered id a d ⟨hid, p, hp, hpd⟩
  rw [← handlePhase_of_cells hx] at hreg
  have hreg' : ((v.uvClose c .afterClientClose).handlePhase d).registered = true := by
    by_cases hdc : d = c
    · rw [hdc, handlePhase_uvClose_self hactive]
      rfl
    · rwa [handlePhase_uvClose_of_ne hdc]
  obtain ⟨y, hy, hphase⟩ := cells_of_registered hreg'
  exact ⟨y, hy, hphase ▸ hreg'⟩

end CTcpServer

namespace UvLoop

variable {s s' t : UvLoop} {l : Label} {h h' : UvHandle} {o : HandleData}

/-! ## One object of many -/

section Update

variable {α β : Type*} {f : ℕ → Option α} {i j : ℕ}

/-- What a read of one object gives when another is changed, or a part of it that is not read. -/
theorem elim_update (g : α → α) (b : β) (k : α → β) (hk : j = i → ∀ x, k (g x) = k x) :
    (Function.update f i ((f i).map g) j).elim b k = (f j).elim b k := by
  by_cases hji : j = i
  · subst hji
    rw [Function.update_self]
    rcases f j with _ | x
    · rfl
    · exact hk rfl x
  · rw [Function.update_of_ne hji]

/-- What a read of the object changed gives, if it gave `a` before. -/
theorem elim_update_self (g : α → α) {b : β} {k : α → β} {a a' : β}
    (ha : (f i).elim b k = a) (hb : b ≠ a) (hk : ∀ x, k x = a → k (g x) = a') :
    (Function.update f i ((f i).map g) i).elim b k = a' := by
  rw [Function.update_self]
  rcases hx : f i with _ | x
  · rw [hx] at ha
    exact absurd ha hb
  · rw [hx] at ha
    exact hk x ha

theorem isSome_update (g : α → α) :
    (Function.update f i ((f i).map g) j).isSome = (f j).isSome := by
  by_cases hji : j = i
  · subst hji
    rw [Function.update_self, Option.isSome_map]
  · rw [Function.update_of_ne hji]

theorem update_eq_some {x y : α} (h : Function.update f i (some x) j = some y) :
    j = i ∧ y = x ∨ j ≠ i ∧ f j = some y := by
  by_cases hji : j = i
  · rw [hji, Function.update_self] at h
    exact .inl ⟨hji, (Option.some.inj h).symm⟩
  · rw [Function.update_of_ne hji] at h
    exact .inr ⟨hji, h⟩

theorem update_map_eq_some {g : α → α} {y : α}
    (h : Function.update f i ((f i).map g) j = some y) :
    ∃ x, f j = some x ∧ (y = x ∨ j = i ∧ y = g x) := by
  by_cases hji : j = i
  · subst hji
    rw [Function.update_self] at h
    obtain ⟨x, hx, rfl⟩ := Option.map_eq_some_iff.1 h
    exact ⟨x, hx, .inr ⟨rfl, rfl⟩⟩
  · rw [Function.update_of_ne hji] at h
    exact ⟨y, h, .inl rfl⟩

end Update

/-! ## `uv_close` on one handle -/

theorem phase_uvClose_of_ne (hne : h' ≠ h) (cb : CloseCb) :
    (s.uvClose h cb).phase h' = s.phase h' := by
  cases h with
  | wqAsync => rfl
  | asyncLooperClose => cases h' <;> first | exact absurd rfl hne | rfl
  | asyncEventHandle => cases h' <;> first | exact absurd rfl hne | rfl
  | tcphandle i =>
    cases h' with
    | tcphandle i' => exact elim_update _ _ _ fun hi => absurd (congrArg _ hi) hne
    | connectTimer i' => exact elim_update _ _ _ fun _ _ => rfl
    | _ => rfl
  | connectTimer i =>
    cases h' with
    | tcphandle i' => exact elim_update _ _ _ fun _ _ => rfl
    | connectTimer i' => exact elim_update _ _ _ fun hi => absurd (congrArg _ hi) hne
    | _ => rfl
  | tcpServerHandle j =>
    cases h' with
    | tcpServerHandle j' => exact elim_update _ _ _ fun hj => absurd (congrArg _ hj) hne
    | sessionTcpHandle j' c => exact elim_update _ _ _ fun _ _ => rfl
    | _ => rfl
  | sessionTcpHandle j c =>
    cases h' with
    | tcpServerHandle j' => exact elim_update _ _ _ fun _ _ => rfl
    | sessionTcpHandle j' c' =>
      refine elim_update _ _ _ fun hj v =>
        CTcpServer.handlePhase_uvClose_of_ne (fun hc => hne ?_) cb
      rw [hj, hc]
    | _ => rfl
  | udpHandle k =>
    cases h' with
    | udpHandle k' => exact elim_update _ _ _ fun hk => absurd (congrArg _ hk) hne
    | _ => rfl

theorem phase_uvClose_self (hactive : s.phase h = .active) (hint : h.internal = false)
    (cb : CloseCb) : (s.uvClose h cb).phase h = .closing := by
  cases h with
  | wqAsync => simp [UvHandle.internal] at hint
  | asyncLooperClose => exact UvAsync.phase_close hactive
  | asyncEventHandle => exact UvAsync.phase_close hactive
  | tcphandle i =>
    refine elim_update_self _ hactive (by simp) fun p hp => p.tcphandle.phase_close ?_
    rw [UvTcp.isClosing, hp]
    rfl
  | connectTimer i =>
    refine elim_update_self _ hactive (by simp) fun p hp => ?_
    simp [UvTimer.close, UvTimer.isClosing, hp, UvPhase.isClosing]
  | tcpServerHandle j => exact elim_update_self _ hactive (by simp) fun _ _ => rfl
  | sessionTcpHandle j c =>
    exact elim_update_self _ hactive (by simp) fun v hv => CTcpServer.handlePhase_uvClose_self hv cb
  | udpHandle k =>
    refine elim_update_self _ hactive (by simp) fun u hu => ?_
    simp [UvUdp.close, UvUdp.isClosing, hu, UvPhase.isClosing]

theorem alive_uvClose (h : UvHandle) (cb : CloseCb) :
    (s.uvClose h cb).alive o = s.alive o := by
  cases o with
  | looper => rfl
  | tcpClient i =>
    cases h with
    | tcphandle i' | connectTimer i' => exact isSome_update _
    | _ => rfl
  | tcpServer j =>
    cases h with
    | tcpServerHandle j' | sessionTcpHandle j' c' => exact isSome_update _
    | _ => rfl
  | tcpClientSession j a =>
    cases h with
    | tcpServerHandle j' | sessionTcpHandle j' c' => exact elim_update _ _ _ fun _ _ => rfl
    | _ => rfl
  | uvUdp k =>
    cases h with
    | udpHandle k' => exact isSome_update _
    | _ => rfl

theorem server_uvClose {h : UvHandle} {cb : CloseCb} {j : ℕ} {w : CTcpServer}
    (hw : (s.uvClose h cb).servers j = some w) : ∃ v, s.servers j = some v ∧ (w = v
      ∨ w = { v with tcpServerHandle := .closing }
      ∨ ∃ c, h = .sessionTcpHandle j c ∧ w = v.uvClose c cb) := by
  cases h with
  | tcpServerHandle j' =>
    obtain ⟨v, hv, rfl | ⟨rfl, rfl⟩⟩ := update_map_eq_some hw
    · exact ⟨w, hv, .inl rfl⟩
    · exact ⟨v, hv, .inr (.inl rfl)⟩
  | sessionTcpHandle j' c =>
    obtain ⟨v, hv, rfl | ⟨rfl, rfl⟩⟩ := update_map_eq_some hw
    · exact ⟨w, hv, .inl rfl⟩
    · exact ⟨v, hv, .inr (.inr ⟨c, rfl, rfl⟩)⟩
  | _ => exact ⟨w, hw, .inl rfl⟩

/-- What each `uv_close` keeps is kept by the walk, if it is about the objects alone. -/
theorem walk_keeps {P : UvLoop → Prop} (hclose : ∀ s h cb, P s → P (s.uvClose h cb))
    (hlog : ∀ s ws, P s → P { s with walkCloses := ws })
    (hfault : ∀ s, P s → P { s with fault := true }) :
    ∀ {hs : List UvHandle} {s : UvLoop}, P s → P (hs.foldl walkOne s)
  | [], _, h => h
  | x :: hs, s, h => by
    rw [List.foldl_cons]
    refine walk_keeps hclose hlog hfault ?_
    unfold walkOne
    split_ifs
    · exact h
    · unfold closeWalkCB
      split
      · split_ifs
        · unfold onHandleClose
          split_ifs
          · exact h
          · exact hlog _ _ (hclose s x _ h)
        · exact hfault s h
      · exact hfault s h

theorem asyncCB_keeps {P : UvLoop → Prop} (hclose : ∀ s h cb, P s → P (s.uvClose h cb))
    (hlog : ∀ s ws, P s → P { s with walkCloses := ws })
    (hfault : ∀ s, P s → P { s with fault := true }) (h : P s) : P s.asyncCB :=
  walk_keeps hclose hlog hfault h

/-! ## What every run keeps -/

/-- The object a handle is of. -/
inductive Owner (s : UvLoop) : UvHandle → HandleData → Prop
  | object {h : UvHandle} {o : HandleData} : h.object = some o → Owner s h o
  | session {j a : ℕ} {v : CTcpServer} {p : CTcpClientSession} : s.servers j = some v →
      v.sessions.cells a = some p →
      Owner s (.sessionTcpHandle j p.clientSessionCtx) (.tcpClientSession j a)

/-- The queue has the registered handles, once each. -/
structure Queued (s : UvLoop) : Prop where
  nodup : s.handleQueue.Nodup
  mem : ∀ h, h ∈ s.handleQueue ↔ (s.phase h).registered = true

/-- The loop finds its handles, and in them their objects. -/
structure Tracked (s : UvLoop) : Prop where
  queued : Queued s
  data : ∀ h o, h.object = some o → s.alive o = true → s.data h = some o
  udps : ∀ k, s.data (.udpHandle k) = some (.uvUdp k)
  once : s.closedAgain = 0

/-- What holds besides while neither `uv_accept` nor `uv_read_start` fails. -/
structure Sound (s : UvLoop) : Prop extends Tracked s where
  handled : ∀ j v, s.servers j = some v → v.Handled
  full : s.ids < 2 ^ 31 → s.sId = s.ids ∧ ∀ j v, s.servers j = some v → v.Full ∧ v.sId ≤ s.sId
  sent : s.asyncLooperClose.asyncSent = true → s.isClosed = true

theorem isSome_of_phase {α : Type*} {f : Option α} {k : α → UvPhase}
    (hreg : (f.elim .blank k).registered = true) : f.isSome = true := by
  rcases f with _ | x
  · simp [UvPhase.registered] at hreg
  · rfl

/-- The object of a registered handle is there. -/
theorem alive_of_registered (hreg : (s.phase h).registered = true) (ho : h.object = some o) :
    s.alive o = true := by
  cases h with
  | wqAsync | sessionTcpHandle j c => simp [UvHandle.object] at ho
  | asyncLooperClose | asyncEventHandle =>
    obtain rfl := Option.some.inj ho
    rfl
  | tcphandle i | connectTimer i | tcpServerHandle j | udpHandle k =>
    obtain rfl := Option.some.inj ho
    exact isSome_of_phase hreg

theorem handleData_eq (ho : h.object = some o) : s.handleData h = s.data h := by
  cases h with
  | sessionTcpHandle j c => simp [UvHandle.object] at ho
  | _ => rfl

/-- The `data` of a registered handle names the object it is of, which is there. -/
theorem Sound.owner (hs : Sound s) (hreg : (s.phase h).registered = true)
    (hint : h.internal = false) :
    ∃ o, s.handleData h = some o ∧ s.alive o = true ∧ s.Owner h o := by
  rcases ho : h.object with _ | o
  · cases h with
    | sessionTcpHandle j c =>
      rcases hv : s.servers j with _ | v
      · simp [phase, hv, UvPhase.registered] at hreg
      have hreg : (v.handlePhase c).registered = true := by simpa [phase, hv] using hreg
      obtain ⟨x, hx, hphase⟩ := CTcpServer.cells_of_registered hreg
      obtain ⟨a, p, hn⟩ := (hs.handled j v hv).named c x hx (hphase ▸ hreg)
      refine ⟨.tcpClientSession j a, ?_, ?_, hn.ctx ▸ .session hv hn.session⟩
      · simp [handleData, hv, CTcpServer.handleData, hx, hn.handleData]
      · simp [alive, hv, Heap.live_of_cells hn.session]
    | wqAsync => simp [UvHandle.internal] at hint
    | _ => simp [UvHandle.object] at ho
  · have halive := alive_of_registered hreg ho
    exact ⟨o, (handleData_eq ho).trans (hs.data h o ho halive), halive, .object ho⟩

/-! ## The walk -/

/-- A handle's object is told by the sessions that the servers have. -/
theorem Owner.of_sessions (hserver : ∀ j w, t.servers j = some w →
    ∃ v, s.servers j = some v ∧ v.sessions = w.sessions) (ho : t.Owner h o) : s.Owner h o := by
  cases ho with
  | object ho => exact .object ho
  | session hw hp =>
    obtain ⟨v, hv, hsessions⟩ := hserver _ _ hw
    exact .session hv (hsessions ▸ hp)

/-- What the walk keeps when it closes a handle. -/
structure SameRest (s t : UvLoop) : Prop where
  data : t.data = s.data
  queue : t.handleQueue = s.handleQueue
  isClosed : t.isClosed = s.isClosed
  closedAgain : t.closedAgain = s.closedAgain
  sent : t.asyncLooperClose.asyncSent = s.asyncLooperClose.asyncSent
  sId : t.sId = s.sId
  ids : t.ids = s.ids
  fault : t.fault = s.fault

theorem sameRest_uvClose (h : UvHandle) (cb : CloseCb) : SameRest s (s.uvClose h cb) := by
  cases h <;> exact ⟨rfl, rfl, rfl, rfl, rfl, rfl, rfl, rfl⟩

theorem SameRest.trans (h : SameRest s t) (h' : SameRest t s') : SameRest s s' :=
  ⟨h'.data.trans h.data, h'.queue.trans h.queue, h'.isClosed.trans h.isClosed,
    h'.closedAgain.trans h.closedAgain, h'.sent.trans h.sent, h'.sId.trans h.sId,
    h'.ids.trans h.ids, h'.fault.trans h.fault⟩

/-- A walk reads the calls of `uv_close` and the fault nowhere. -/
theorem Tracked.log (ht : Tracked s) (walkCloses : List WalkClose) (fault : Bool) :
    Tracked { s with walkCloses, fault } := by
  refine ⟨⟨ht.queued.nodup, fun h => (ht.queued.mem h).trans ?_⟩, fun h o ho hthere => ?_, ht.udps,
    ht.once⟩
  · cases h <;> rfl
  · refine ht.data h o ho (Eq.trans ?_ hthere)
    cases o <;> rfl

theorem Tracked.uvClose (ht : Tracked s) (hactive : s.phase h = .active)
    (hint : h.internal = false) (cb : CloseCb) : Tracked (s.uvClose h cb) := by
  have hrest := sameRest_uvClose (s := s) h cb
  refine ⟨⟨hrest.queue ▸ ht.queued.nodup, fun h' => ?_⟩, fun h' o ho hthere => ?_,
    hrest.data ▸ ht.udps, hrest.closedAgain.trans ht.once⟩
  · rw [hrest.queue, ht.queued.mem]
    by_cases hh : h' = h
    · rw [hh, phase_uvClose_self hactive hint, hactive]
      rfl
    · rw [phase_uvClose_of_ne hh]
  · rw [hrest.data]
    exact ht.data h' o ho (alive_uvClose h cb ▸ hthere)

/-- A handle in the queue that is not closing is open. -/
theorem Tracked.active (ht : Tracked s) (hmem : h ∈ s.handleQueue)
    (hclosing : (s.phase h).isClosing = false) : s.phase h = .active := by
  have hreg := (ht.queued.mem h).1 hmem
  rcases hp : s.phase h <;> simp [hp, UvPhase.isClosing, UvPhase.registered] at hclosing hreg ⊢

theorem Tracked.walkOne (ht : Tracked s) (hmem : h ∈ s.handleQueue) : Tracked (s.walkOne h) := by
  unfold UvLoop.walkOne
  split_ifs with hint
  · exact ht
  · unfold closeWalkCB
    split
    · split_ifs
      · unfold onHandleClose
        split_ifs with hclosing
        · exact ht
        · have hactive := ht.active hmem (by simpa using hclosing)
          exact (ht.uvClose hactive (by simpa using hint) _).log _ _
      · exact ht.log s.walkCloses true
    · exact ht.log s.walkCloses true

theorem handleQueue_walkOne (s : UvLoop) (h : UvHandle) :
    (s.walkOne h).handleQueue = s.handleQueue := by
  unfold walkOne
  split_ifs
  · rfl
  · unfold closeWalkCB
    split
    · split_ifs
      · unfold onHandleClose
        split_ifs
        · rfl
        · exact (sameRest_uvClose h _).queue
      · rfl
    · rfl

theorem Tracked.foldl : ∀ {hs : List UvHandle} {s : UvLoop}, Tracked s →
    (∀ h ∈ hs, h ∈ s.handleQueue) → Tracked (hs.foldl UvLoop.walkOne s)
  | [], _, ht, _ => ht
  | h :: hs, s, ht, hmem => by
    refine (ht.walkOne (hmem h (by simp))).foldl fun h' hh => ?_
    rw [handleQueue_walkOne]
    exact hmem h' (by simp [hh])

/-- An object that closes its handle. -/
theorem Sound.uvClose (hs : Sound s) (hactive : s.phase h = .active) (hint : h.internal = false)
    (ho : s.Owner h o) : Sound (s.uvClose h o.closeCb) := by
  have hrest := sameRest_uvClose (s := s) h o.closeCb
  have hserver : ∀ {j w}, (s.uvClose h o.closeCb).servers j = some w → ∃ v, s.servers j = some v
      ∧ w.Handled ∧ (v.Full → w.Full) ∧ w.sId = v.sId := by
    intro j w hw
    obtain ⟨v, hv, rfl | rfl | ⟨c, rfl, rfl⟩⟩ := server_uvClose hw
    · exact ⟨w, hv, hs.handled j w hv, id, rfl⟩
    · exact ⟨v, hv, (hs.handled j v hv).of_eq _ rfl rfl rfl rfl,
        fun hf => hf.of_eq rfl rfl rfl rfl le_rfl, rfl⟩
    · have hc : v.handlePhase c = .active := by simpa [phase, hv] using hactive
      cases ho with
      | object ho => simp [UvHandle.object] at ho
      | session hv' hp =>
        have hm : CTcpServer.Moves .asyncCB v _ :=
          CTcpServer.moves_uvClose (hs.handled j v hv).named hc
        exact ⟨v, hv, (hs.handled j v hv).uvClose hc, fun hf => hf.frame hm.frame, rfl⟩
  refine ⟨hs.toTracked.uvClose hactive hint o.closeCb, fun j w hw => ?_, fun hlt => ?_, ?_⟩
  · obtain ⟨v, -, hw', -⟩ := hserver hw
    exact hw'
  · obtain ⟨hid, hfull⟩ := hs.full (hrest.ids ▸ hlt)
    rw [hrest.sId, hrest.ids]
    refine ⟨hid, fun j w hw => ?_⟩
    obtain ⟨v, hv, -, hkeep, hsid⟩ := hserver hw
    exact ⟨hkeep (hfull j v hv).1, hsid ▸ (hfull j v hv).2⟩
  · rw [hrest.sent, hrest.isClosed]
    exact hs.sent

/-- What the walk does with the handles of a list: each that was open is closed by the object it is
of, with the callback of that. -/
structure Walked (s t : UvLoop) (hs : List UvHandle) : Prop where
  sound : Sound t
  rest : SameRest s t
  phase : ∀ h, t.phase h = if h ∈ hs ∧ s.isOpen h = true then .closing else s.phase h
  owner : ∀ h o, t.Owner h o → s.Owner h o
  closes : ∃ cs, t.walkCloses = s.walkCloses ++ cs ∧ cs.map WalkClose.handle = hs.filter s.isOpen
    ∧ ∀ e ∈ cs, e.wasClosing = false ∧ s.Owner e.handle e.owner ∧ e.cb = e.owner.closeCb

theorem Walked.refl (hs : Sound s) : Walked s s [] :=
  ⟨hs, ⟨rfl, rfl, rfl, rfl, rfl, rfl, rfl, rfl⟩, fun h => by simp, fun _ _ ho => ho,
    [], by simp, rfl, by simp⟩

/-- A handle that the walk leaves alone. -/
theorem Walked.skip (hs : Sound s) (hopen : s.isOpen h = false) : Walked s s [h] := by
  refine ⟨hs, ⟨rfl, rfl, rfl, rfl, rfl, rfl, rfl, rfl⟩, fun h' => ?_, fun _ _ ho => ho, [], by simp,
    by simp [hopen], by simp⟩
  rw [if_neg]
  rintro ⟨hmem, hh⟩
  rw [List.mem_singleton.1 hmem, hopen] at hh
  exact absurd hh (by simp)

theorem walked_walkOne (hs : Sound s) (hmem : h ∈ s.handleQueue) : Walked s (s.walkOne h) [h] := by
  unfold walkOne
  split_ifs with hint
  · exact .skip hs (by simp [isOpen, hint])
  have hint : h.internal = false := by simpa using hint
  have hreg := (hs.queued.mem h).1 hmem
  obtain ⟨o, hdata, halive, ho⟩ := hs.owner hreg hint
  simp only [closeWalkCB, hdata, halive, if_true, onHandleClose]
  split_ifs with hclosing
  · refine .skip hs ?_
    rcases hp : s.phase h <;> simp [isOpen, hp, UvPhase.isClosing] at hclosing ⊢
  have hclosing : (s.phase h).isClosing = false := by simpa using hclosing
  have hactive := hs.active hmem hclosing
  have hopen : s.isOpen h = true := by simp [isOpen, hint, hactive]
  have hsound := hs.uvClose hactive hint ho
  have hrest := sameRest_uvClose (s := s) h o.closeCb
  have hphase : ∀ h' cs, ({ s.uvClose h o.closeCb with walkCloses := cs } : UvLoop).phase h'
      = (s.uvClose h o.closeCb).phase h' := fun h' cs => by cases h' <;> rfl
  refine ⟨?_, ⟨hrest.data, hrest.queue, hrest.isClosed, hrest.closedAgain, hrest.sent, hrest.sId,
    hrest.ids, hrest.fault⟩, fun h' => ?_, fun h' o' ho' => ?_, [_], rfl, by simp [hopen], ?_⟩
  · exact ⟨hsound.toTracked.log _ _, hsound.handled, hsound.full, hsound.sent⟩
  · rw [hphase]
    by_cases hh : h' = h
    · rw [hh, phase_uvClose_self hactive hint, if_pos ⟨List.mem_singleton_self h, hopen⟩]
    · rw [phase_uvClose_of_ne hh, if_neg fun hmem => hh (List.mem_singleton.1 hmem.1)]
  · refine ho'.of_sessions fun j w hw => ?_
    obtain ⟨v, hv, hcases⟩ := server_uvClose (h := h) hw
    refine ⟨v, hv, ?_⟩
    rcases hcases with rfl | rfl | ⟨c, -, rfl⟩ <;> rfl
  · intro e he
    rw [List.mem_singleton.1 he]
    exact ⟨hclosing, ho, rfl⟩

theorem Walked.cons {hs : List UvHandle} (h₁ : Walked s t [h]) (h₂ : Walked t s' hs)
    (hnot : h ∉ hs) : Walked s s' (h :: hs) := by
  have hother : ∀ h', h' ≠ h → t.phase h' = s.phase h' := by
    intro h' hh
    rw [h₁.phase, if_neg fun hmem => hh (List.mem_singleton.1 hmem.1)]
  have hopen : ∀ h', h' ≠ h → t.isOpen h' = s.isOpen h' := by
    intro h' hh
    rw [isOpen, isOpen, hother h' hh]
  refine ⟨h₂.sound, h₁.rest.trans h₂.rest, fun h' => ?_, fun h' o ho => h₁.owner h' o
    (h₂.owner h' o ho), ?_⟩
  · rw [h₂.phase]
    by_cases hh : h' = h
    · subst hh
      rw [if_neg fun hmem => hnot hmem.1, h₁.phase]
      simp
    · rw [hother h' hh, hopen h' hh]
      simp [hh]
  · obtain ⟨cs₁, hcs₁, hmap₁, hall₁⟩ := h₁.closes
    obtain ⟨cs₂, hcs₂, hmap₂, hall₂⟩ := h₂.closes
    refine ⟨cs₁ ++ cs₂, by rw [hcs₂, hcs₁, List.append_assoc], ?_, fun e he => ?_⟩
    · have hfilter : hs.filter t.isOpen = hs.filter s.isOpen :=
        List.filter_congr fun h' hmem => hopen h' fun hh => hnot (hh ▸ hmem)
      rw [List.map_append, hmap₁, hmap₂, hfilter, ← List.filter_append, List.singleton_append]
    · rcases List.mem_append.1 he with he | he
      · exact hall₁ e he
      · obtain ⟨hcl, ho, hcb⟩ := hall₂ e he
        exact ⟨hcl, h₁.owner _ _ ho, hcb⟩

theorem walked_foldl : ∀ {hs : List UvHandle} {s : UvLoop}, Sound s → hs.Nodup →
    (∀ h ∈ hs, h ∈ s.handleQueue) → Walked s (hs.foldl walkOne s) hs
  | [], _, h, _, _ => .refl h
  | h :: hs, s, hsound, hnodup, hmem => by
    obtain ⟨hnot, hnodup⟩ := List.nodup_cons.1 hnodup
    have h₁ := walked_walkOne hsound (hmem h (by simp))
    refine h₁.cons (walked_foldl h₁.sound hnodup fun h' hh => ?_) hnot
    rw [h₁.rest.queue]
    exact hmem h' (by simp [hh])

end UvLoop

end TestLibuv
