import Mathlib.Logic.Relation
import TestLibuv.Lib.Runs
import TestLibuv.TcpServer

/-!
# What the server's functions leave alone

Most of them neither start a session nor end one nor pass on bytes; `Frame` says what such a
function keeps, and `Move` what it can do. The rest do so in one place each, behind others that do
not.
-/

namespace TestLibuv

open CMem

namespace UvTcp

variable {Write : Type*} (h : UvTcp Write)

/-- A handle that is closing, or was closed, reads nothing. -/
def Quiet : Prop := h.isClosing = true → h.reading = false

theorem not_reading_close : h.close.reading = true → h.reading = true := by
  unfold close
  split_ifs
  · exact id
  · simp

variable {h} {h' : UvTcp Write}

theorem Quiet.congr (hq : h.Quiet) (hp : h'.phase = h.phase) (hr : h'.reading = h.reading) :
    h'.Quiet := fun hc => hr.trans (hq (by rwa [isClosing, ← hp]))

theorem Quiet.close (hq : h.Quiet) : h.close.Quiet := fun _ => h.reading_close hq

end UvTcp

namespace CTcpServer

variable {s s' s'' : CTcpServer} {c a : ℕ}

/-- What most functions keep of a context. -/
structure CtxKept (x x' : TcpSessionCtx) : Prop where
  packet : x'.packet = x.packet
  handleData : x'.handleData = x.handleData
  parentClientSession : x'.parentClientSession = x.parentClientSession
  conn : x'.conn = x.conn
  clientid : x'.clientid = x.clientid
  reading : x'.sessionTcpHandle.reading = true → x.sessionTcpHandle.reading = true
  quiet : x.sessionTcpHandle.Quiet → x'.sessionTcpHandle.Quiet

theorem CtxKept.refl (x : TcpSessionCtx) : CtxKept x x := ⟨rfl, rfl, rfl, rfl, rfl, id, id⟩

theorem CtxKept.trans {x x' x'' : TcpSessionCtx} (h : CtxKept x x') (h' : CtxKept x' x'') :
    CtxKept x x'' :=
  ⟨h'.packet.trans h.packet, h'.handleData.trans h.handleData,
    h'.parentClientSession.trans h.parentClientSession, h'.conn.trans h.conn,
    h'.clientid.trans h.clientid, fun hr => h.reading (h'.reading hr),
    fun hq => h'.quiet (h.quiet hq)⟩

theorem ctxKept_handle (x : TcpSessionCtx) {th : UvTcp ℕ} (b : Bool)
    (hr : th.reading = true → x.sessionTcpHandle.reading = true)
    (hq : x.sessionTcpHandle.Quiet → th.Quiet) :
    CtxKept x { x with sessionTcpHandle := th, afterClientClose := b } :=
  ⟨rfl, rfl, rfl, rfl, rfl, hr, hq⟩

/-- What most functions keep of the server: sessions and events, contexts but for their handles,
and the history of the connections. -/
structure Frame (s s' : CTcpServer) : Prop where
  head : s'.packetHead = s.packetHead
  sId : s'.sId = s.sId
  map : s'.clientSessionMap = s.clientSessionMap
  idle : s'.idleTcpClientCtxList = s.idleTcpClientCtxList
  sessions : s'.sessions = s.sessions
  events : s'.events = s.events
  conns : s'.conns = s.conns
  accepted : s'.accepted = s.accepted
  arrivals : s'.arrivals = s.arrivals
  callbacks : s'.callbacks = s.callbacks
  maps : s'.maps = s.maps
  inits : s'.inits = s.inits
  fault : s'.fault = s.fault
  next : s'.ctxs.next = s.ctxs.next
  ctxs : ∀ c, Option.Rel CtxKept (s.ctxs.cells c) (s'.ctxs.cells c)

theorem rel_ctxKept_refl : ∀ o : Option TcpSessionCtx, Option.Rel CtxKept o o
  | none => .none
  | some x => .some (.refl x)

theorem rel_ctxKept_trans : ∀ {o o' o'' : Option TcpSessionCtx}, Option.Rel CtxKept o o' →
    Option.Rel CtxKept o' o'' → Option.Rel CtxKept o o''
  | _, _, _, .some h, .some h' => .some (h.trans h')
  | _, _, _, .none, .none => .none

/-- The fields no part of `Frame` is about. -/
theorem Frame.of_rest (s : CTcpServer) (isClosed draining : Bool) (errmsg : ErrMsg)
    (tcpServerHandle : UvPhase) (writeparamList : List ℕ) (params : Heap (WriteParam ℕ))
    (writes : List (ℕ × List UInt8)) : Frame s { s with
      isClosed, draining, errmsg, tcpServerHandle, writeparamList, params, writes } :=
  ⟨rfl, rfl, rfl, rfl, rfl, rfl, rfl, rfl, rfl, rfl, rfl, rfl, rfl, rfl,
    fun _ => rel_ctxKept_refl _⟩

theorem Frame.refl (s : CTcpServer) : Frame s s := .of_rest s _ _ _ _ _ _ _

theorem Frame.trans (h : Frame s s') (h' : Frame s' s'') : Frame s s'' where
  head := h'.head.trans h.head
  sId := h'.sId.trans h.sId
  map := h'.map.trans h.map
  idle := h'.idle.trans h.idle
  sessions := h'.sessions.trans h.sessions
  events := h'.events.trans h.events
  conns := h'.conns.trans h.conns
  accepted := h'.accepted.trans h.accepted
  arrivals := h'.arrivals.trans h.arrivals
  callbacks := h'.callbacks.trans h.callbacks
  maps := h'.maps.trans h.maps
  inits := h'.inits.trans h.inits
  fault := h'.fault.trans h.fault
  next := h'.next.trans h.next
  ctxs c := rel_ctxKept_trans (h.ctxs c) (h'.ctxs c)

theorem Frame.ctx_some (h : Frame s s') {x : TcpSessionCtx} (hx : s.ctxs.cells c = some x) :
    ∃ x', s'.ctxs.cells c = some x' ∧ CtxKept x x' := by
  have hc := h.ctxs c
  rw [hx] at hc
  rcases hx' : s'.ctxs.cells c with _ | x' <;> rw [hx'] at hc <;> cases hc
  exact ⟨x', rfl, ‹_›⟩

theorem Frame.ctx_of_some (h : Frame s s') {x' : TcpSessionCtx}
    (hx' : s'.ctxs.cells c = some x') : ∃ x, s.ctxs.cells c = some x ∧ CtxKept x x' := by
  have hc := h.ctxs c
  rw [hx'] at hc
  rcases hx : s.ctxs.cells c with _ | x <;> rw [hx] at hc <;> cases hc
  exact ⟨x, rfl, ‹_›⟩

/-- `insert` leaves the session that is under the id. -/
theorem getElem?_insertSession (m : Std.TreeMap ℤ ℕ) (k id : ℤ) (a : ℕ) :
    (m.insertIfNew k a)[id]? = if id = k ∧ m[k]? = none then some a else m[id]? := by
  rw [Std.TreeMap.getElem?_insertIfNew]
  refine if_congr ?_ rfl rfl
  rw [compare_eq_iff_eq, eq_comm, ← Std.TreeMap.isSome_getElem?_iff_mem,
    Option.not_isSome_iff_eq_none]

theorem getElem?_eraseSession (m : Std.TreeMap ℤ ℕ) (k id : ℤ) :
    (m.erase k)[id]? = if id = k then none else m[id]? := by
  rw [Std.TreeMap.getElem?_erase]
  refine if_congr ?_ rfl rfl
  rw [compare_eq_iff_eq, eq_comm]

theorem ctx_eq_ok {x : TcpSessionCtx} (h : s.ctx c = .ok x) : s.ctxs.cells c = some x := by
  unfold ctx at h
  split at h <;> simp_all

theorem session_eq_ok {p : CTcpClientSession} (h : s.session a = .ok p) :
    s.sessions.cells a = some p := by
  unfold session at h
  split at h <;> simp_all

theorem follow_eq_ok {o : Option ℕ} {p : CTcpClientSession} (h : s.follow o = .ok (a, p)) :
    o = some a ∧ s.sessions.cells a = some p := by
  unfold follow at h
  rcases o with _ | b
  · simp at h
  · rcases hb : s.session b with e | q <;> simp only [hb, Except.map] at h
    · simp at h
    · obtain ⟨rfl, rfl⟩ := Prod.mk.inj (Except.ok.inj h)
      exact ⟨rfl, session_eq_ok hb⟩

theorem ctx_of_cells {x : TcpSessionCtx} (hx : s.ctxs.cells c = some x) : s.ctx c = .ok x := by
  unfold ctx
  rw [hx]

theorem session_of_cells {p : CTcpClientSession} (hp : s.sessions.cells a = some p) :
    s.session a = .ok p := by
  unfold session
  rw [hp]

theorem follow_of_cells {o : Option ℕ} {p : CTcpClientSession} (ho : o = some a)
    (hp : s.sessions.cells a = some p) : s.follow o = .ok (a, p) := by
  simp only [follow, ho, session_of_cells hp, Except.map]

theorem cells_setCtx {x : TcpSessionCtx} (hx : s.ctxs.cells c = some x) (x' : TcpSessionCtx)
    (d : ℕ) : (s.setCtx c x').ctxs.cells d = if d = c then some x' else s.ctxs.cells d := by
  simp only [setCtx, Heap.cells_modify]
  split_ifs with hdc
  · rw [hdc, hx]
    rfl
  · rfl

theorem frame_setCtx {x x' : TcpSessionCtx} (hx : s.ctxs.cells c = some x) (hk : CtxKept x x') :
    Frame s (s.setCtx c x') := by
  refine ⟨rfl, rfl, rfl, rfl, rfl, rfl, rfl, rfl, rfl, rfl, rfl, rfl, rfl, rfl, fun d => ?_⟩
  rw [cells_setCtx hx]
  split_ifs with hdc
  · rw [hdc, hx]
    exact .some hk
  · exact rel_ctxKept_refl _

theorem frame_takeParam (s : CTcpServer) : Frame s s.takeParam.2 := by
  unfold takeParam
  split <;> exact .of_rest s _ _ _ _ _ _ _

theorem param_eq_ok {w : ℕ} {p : WriteParam ℕ} (h : s.param w = .ok p) :
    s.params.cells w = some p := by
  unfold param at h
  split at h <;> simp_all

/-- What `sendinl` does with the `write_param` it takes: it holds the bytes, and goes back to the
list or is what a new request of the handle refers to. -/
theorem sendinl_spec {buff : List UInt8} {res : ℤ} {b : Bool}
    (h : s.sendinl buff c res = .ok (b, s')) : ∃ w t p base x, s.takeParam = (w, t)
      ∧ t.params.cells w = some p
      ∧ memcpy (p.buf.reserve (toU32 buff.length)).base 0 buff = .ok base
      ∧ t.ctxs.cells c = some x
      ∧ (b = false ∧ s' = { t with
            params := t.params.modify w fun _ =>
              ⟨⟨base, toU32 buff.length⟩, x.parentClientSession⟩
            writeparamList := t.writeparamList ++ [w]
            errmsg := .text "send data error." }
        ∨ b = true ∧ x.sessionTcpHandle.writable = true ∧ s' = { t.setCtx c { x with
              sessionTcpHandle := { x.sessionTcpHandle with
                writeReqs := x.sessionTcpHandle.writeReqs ++ [w] } } with
            params := t.params.modify w fun _ =>
              ⟨⟨base, toU32 buff.length⟩, x.parentClientSession⟩
            writes := t.writes ++ [(c, base.take (toU32 buff.length).toNat)] }) := by
  unfold sendinl at h
  rcases ht : s.takeParam with ⟨w, t⟩
  rw [ht] at h
  obtain ⟨p, hp, h⟩ := bind_eq_ok h
  dsimp only at h
  rcases hm : memcpy (p.buf.reserve (toU32 buff.length)).base 0 buff with f | base <;>
    simp only [hm] at h
  · exact absurd h throw_ne_ok
  obtain ⟨x, hx, h⟩ := bind_eq_ok h
  refine ⟨w, t, p, base, x, rfl, param_eq_ok hp, hm, ctx_eq_ok hx, ?_⟩
  rcases x.sessionTcpHandle.write_eq w res with hne | ⟨hw, heq⟩
  · rw [if_pos hne] at h
    obtain ⟨rfl, rfl⟩ := Prod.mk.inj (Except.ok.inj h)
    exact .inl ⟨rfl, rfl⟩
  · rw [heq, if_neg (by simp)] at h
    obtain ⟨rfl, rfl⟩ := Prod.mk.inj (Except.ok.inj h)
    exact .inr ⟨rfl, hw, rfl⟩

theorem frame_sendinl {buff : List UInt8} {res : ℤ} {b : Bool}
    (h : s.sendinl buff c res = .ok (b, s')) : Frame s s' := by
  obtain ⟨w, t, p, base, x, ht, -, -, hx, hs⟩ := sendinl_spec h
  have hframe := frame_takeParam s
  rw [ht] at hframe
  refine hframe.trans ?_
  rcases hs with ⟨-, rfl⟩ | ⟨-, -, rfl⟩
  · exact .of_rest _ _ _ _ _ _ _ _
  · have hkept : CtxKept x { x with
        sessionTcpHandle := { x.sessionTcpHandle with
          writeReqs := x.sessionTcpHandle.writeReqs ++ [w] } } :=
      ctxKept_handle x x.afterClientClose id id
    exact (frame_setCtx hx hkept).trans (.of_rest _ _ _ _ _ _ _ _)

end CTcpServer

open CTcpServer

namespace CTcpClientSession

variable {s s' : CTcpServer} {c a : ℕ} {x : TcpSessionCtx}

theorem closeHandle_eq (s : CTcpServer) (c : ℕ) (x : TcpSessionCtx) :
    x.sessionTcpHandle.isClosing = true ∧ closeHandle s c x = s
      ∨ x.sessionTcpHandle.isClosing = false ∧ closeHandle s c x = s.setCtx c { x with
          sessionTcpHandle := x.sessionTcpHandle.close, afterClientClose := true } := by
  unfold closeHandle
  split_ifs with hc
  · exact .inl ⟨hc, rfl⟩
  · exact .inr ⟨by simpa using hc, rfl⟩

/-- `AfterSend` frees the `write_param` of its request or puts it on the list. -/
theorem afterSend_spec {w : ℕ} (h : afterSend s w = .ok s') :
    maxListSize < s.writeparamList.length ∧ s' = { s with params := s.params.free w }
      ∨ s.writeparamList.length ≤ maxListSize
        ∧ s' = { s with writeparamList := s.writeparamList ++ [w] } := by
  obtain ⟨q, -, h⟩ := bind_eq_ok h
  obtain ⟨p, -, h⟩ := bind_eq_ok h
  obtain ⟨x, -, h⟩ := bind_eq_ok h
  obtain rfl := Except.ok.inj h
  split_ifs with hlong
  · exact .inl ⟨hlong, rfl⟩
  · exact .inr ⟨not_lt.1 hlong, rfl⟩

theorem frame_afterSend {w : ℕ} (h : afterSend s w = .ok s') : Frame s s' := by
  rcases afterSend_spec h with ⟨-, rfl⟩ | ⟨-, rfl⟩ <;> exact .of_rest _ _ _ _ _ _ _ _

end CTcpClientSession

namespace CTcpServer

variable {s s' : CTcpServer} {c a : ℕ} {l : Label}

/-! ## What they do -/

/-- The one thing that such a function does in a step, or one of the things. -/
inductive Move (s : CTcpServer) : Label → CTcpServer → Prop
  | rest {l : Label} (isClosed draining : Bool) (errmsg : ErrMsg) {tcpServerHandle : UvPhase} :
      tcpServerHandle = s.tcpServerHandle ∨ l = .asyncCB ∨ l = .afterServerClose →
      Move s l { s with isClosed, draining, errmsg, tcpServerHandle }
  | close {l : Label} {c a : ℕ} {x : TcpSessionCtx} {p : CTcpClientSession} :
      s.ctxs.cells c = some x → s.sessions.cells a = some p →
      p.clientSessionCtx = c ∨ x.handleData = some a →
      x.sessionTcpHandle.isClosing = false → Move s l (s.setCtx c { x with
        sessionTcpHandle := x.sessionTcpHandle.close, afterClientClose := true })
  | shutdown {l : Label} {c a : ℕ} {x : TcpSessionCtx} {p : CTcpClientSession} :
      s.ctxs.cells c = some x → s.sessions.cells a = some p → p.clientSessionCtx = c →
      Move s l (s.setCtx c { x with
        sessionTcpHandle := (x.sessionTcpHandle.shutdown a).2 })
  | readError {l : Label} {c : ℕ} {x : TcpSessionCtx} {nread : ℤ} : s.ctxs.cells c = some x →
      Move s l (s.setCtx c { x with sessionTcpHandle := x.sessionTcpHandle.readError nread })
  | write {l : Label} {c a : ℕ} {p : CTcpClientSession} {buff : List UInt8} {res : ℤ} {b : Bool}
      {t : CTcpServer} : s.sessions.cells a = some p → p.clientSessionCtx = c →
      s.sendinl buff c res = .ok (b, t) → Move s l t
  | sent {c i w : ℕ} {x : TcpSessionCtx} {t : CTcpServer} : s.ctxs.cells c = some x →
      x.sessionTcpHandle.writeReqs[i]? = some w →
      CTcpClientSession.afterSend (s.setCtx c { x with
        sessionTcpHandle := { x.sessionTcpHandle with
          writeReqs := x.sessionTcpHandle.writeReqs.eraseIdx i } }) w = .ok t →
      Move s (.afterSend c i) t
  | shutdownDone {c : ℕ} {x : TcpSessionCtx} : s.ctxs.cells c = some x →
      Move s (.afterShutDown c) (s.setCtx c { x with
        sessionTcpHandle := { x.sessionTcpHandle with shutdownReq := none } })
  | finish {c : ℕ} {x : TcpSessionCtx} : s.ctxs.cells c = some x →
      x.sessionTcpHandle.ends = true → Move s (.handleClosed c)
        (s.setCtx c { x with sessionTcpHandle := x.sessionTcpHandle.finish })

/-- Such things one after the other. -/
abbrev Moves (l : Label) : CTcpServer → CTcpServer → Prop :=
  Relation.ReflTransGen fun s s' => Move s l s'

theorem frame_finish {x : TcpSessionCtx} (hx : s.ctxs.cells c = some x)
    (he : x.sessionTcpHandle.ends = true) :
    Frame s (s.setCtx c { x with sessionTcpHandle := x.sessionTcpHandle.finish }) :=
  frame_setCtx hx (ctxKept_handle x x.afterClientClose id
    fun hq _ => hq (x.sessionTcpHandle.isClosing_of_ends he))

theorem Move.frame (h : Move s l s') : Frame s s' := by
  cases h with
  | rest _ _ _ _ => exact .of_rest s _ _ _ _ _ _ _
  | @close _ c a x p hx _ _ _ =>
    exact frame_setCtx hx (ctxKept_handle x true x.sessionTcpHandle.not_reading_close
      UvTcp.Quiet.close)
  | @shutdown _ c a x p hx _ _ =>
    obtain ⟨hphase, -, hread⟩ := x.sessionTcpHandle.shutdown_frame a
    exact frame_setCtx hx (ctxKept_handle x x.afterClientClose (fun hr => hread ▸ hr)
      fun hq => hq.congr hphase hread)
  | @readError _ c x nread hx =>
    exact frame_setCtx hx (ctxKept_handle x x.afterClientClose
      (fun hr => by simp [UvTcp.readError] at hr) fun _ _ => rfl)
  | write _ _ hsend => exact frame_sendinl hsend
  | @sent c i w x t hx _ hsent =>
    have hkept : CtxKept x { x with
        sessionTcpHandle := { x.sessionTcpHandle with
          writeReqs := x.sessionTcpHandle.writeReqs.eraseIdx i } } :=
      ctxKept_handle x x.afterClientClose id id
    exact (frame_setCtx hx hkept).trans (CTcpClientSession.frame_afterSend hsent)
  | @shutdownDone c x hx => exact frame_setCtx hx (ctxKept_handle x x.afterClientClose id id)
  | finish hx he => exact frame_finish hx he

theorem Moves.frame (h : Moves l s s') : Frame s s' := by
  induction h with
  | refl => exact .refl s
  | tail _ hm ih => exact ih.trans hm.frame

/-- What becomes of the phase of a context's handle and of whose close callback it has: a session
closes only its own handle or one that names it. -/
inductive Phased (s : CTcpServer) (l : Label) (c : ℕ) (x x' : TcpSessionCtx) : Prop
  | same : x'.sessionTcpHandle.phase = x.sessionTcpHandle.phase →
      x'.afterClientClose = x.afterClientClose → Phased s l c x x'
  | closes {a : ℕ} {p : CTcpClientSession} : s.sessions.cells a = some p →
      p.clientSessionCtx = c ∨ x.handleData = some a → x.sessionTcpHandle.isClosing = false →
      x'.sessionTcpHandle.phase = .closing → x'.afterClientClose = true → Phased s l c x x'
  | ended : l = .handleClosed c → x'.sessionTcpHandle.phase = .closed → Phased s l c x x'

theorem phased_setCtx {d : ℕ} {y y' x' : TcpSessionCtx} (hy : s.ctxs.cells d = some y)
    (hx' : (s.setCtx d y').ctxs.cells c = some x') (hp : Phased s l d y y') :
    ∃ x, s.ctxs.cells c = some x ∧ Phased s l c x x' := by
  rw [cells_setCtx hy] at hx'
  split_ifs at hx' with hcd
  · obtain rfl := Option.some.inj hx'
    exact ⟨y, hcd ▸ hy, hcd ▸ hp⟩
  · exact ⟨x', hx', .same rfl rfl⟩

theorem takeParam_ctxs (s : CTcpServer) : s.takeParam.2.ctxs = s.ctxs := by
  unfold takeParam
  split <;> rfl

theorem phased_sendinl {buff : List UInt8} {res : ℤ} {b : Bool} {d : ℕ} {x' : TcpSessionCtx}
    (h : s.sendinl buff d res = .ok (b, s')) (hx' : s'.ctxs.cells c = some x') :
    ∃ x, s.ctxs.cells c = some x ∧ Phased s l c x x' := by
  obtain ⟨w, t, p, base, y, ht, -, -, hy, hs⟩ := sendinl_spec h
  obtain rfl : t = s.takeParam.2 := by rw [ht]
  rw [takeParam_ctxs] at hy
  rcases hs with ⟨-, rfl⟩ | ⟨-, -, rfl⟩
  · exact ⟨x', (takeParam_ctxs s) ▸ hx', .same rfl rfl⟩
  · simp only [setCtx, takeParam_ctxs] at hx'
    exact phased_setCtx hy hx' (.same rfl rfl)

theorem Move.phased (h : Move s l s') {x' : TcpSessionCtx} (hx' : s'.ctxs.cells c = some x') :
    ∃ x, s.ctxs.cells c = some x ∧ Phased s l c x x' := by
  cases h with
  | rest _ _ _ _ => exact ⟨x', hx', .same rfl rfl⟩
  | @close _ d a x p hx hp hc hopen =>
    exact phased_setCtx hx hx' (.closes hp hc hopen (x.sessionTcpHandle.phase_close hopen) rfl)
  | @shutdown _ d a x p hx _ _ =>
    exact phased_setCtx hx hx' (.same (x.sessionTcpHandle.shutdown_frame a).1 rfl)
  | readError hx | shutdownDone hx => exact phased_setCtx hx hx' (.same rfl rfl)
  | write _ _ hsend => exact phased_sendinl hsend hx'
  | @sent d i w x t hx _ hsent =>
    rcases CTcpClientSession.afterSend_spec hsent with ⟨-, rfl⟩ | ⟨-, rfl⟩ <;>
      exact phased_setCtx hx hx' (.same rfl rfl)
  | finish hx _ => exact phased_setCtx hx hx' (.ended rfl rfl)

theorem moves_closeHandle {x : TcpSessionCtx} {p : CTcpClientSession}
    (hx : s.ctxs.cells c = some x) (hp : s.sessions.cells a = some p)
    (hc : p.clientSessionCtx = c ∨ x.handleData = some a) :
    Moves l s (CTcpClientSession.closeHandle s c x) := by
  rcases CTcpClientSession.closeHandle_eq s c x with ⟨-, heq⟩ | ⟨hopen, heq⟩ <;> rw [heq]
  exact .single (.close hx hp hc hopen)

theorem moves_closeinl (h : CTcpClientSession.closeinl s a = .ok s') : Moves l s s' := by
  obtain ⟨p, hp, h⟩ := bind_eq_ok h
  obtain ⟨x, hx, h⟩ := bind_eq_ok h
  exact Except.ok.inj h ▸ moves_closeHandle (ctx_eq_ok hx) (session_eq_ok hp) (.inl rfl)

theorem moves_shutdowinl (h : CTcpClientSession.shutdowinl s a = .ok s') : Moves l s s' := by
  obtain ⟨p, hp, h⟩ := bind_eq_ok h
  obtain ⟨x, hx, h⟩ := bind_eq_ok h
  exact Except.ok.inj h ▸ .single (.shutdown (ctx_eq_ok hx) (session_eq_ok hp) rfl)

theorem moves_send {buff : List UInt8} {res : ℤ}
    (h : CTcpClientSession.send s a buff res = .ok s') : Moves l s s' := by
  obtain ⟨p, hp, h⟩ := bind_eq_ok h
  obtain ⟨⟨b, t⟩, hsend, h⟩ := bind_eq_ok h
  exact Except.ok.inj h ▸ .single (.write (session_eq_ok hp) rfl hsend)

theorem moves_broadcastLoop {buff : List UInt8} : ∀ {m : List (ℤ × ℕ)} {ex res : List ℤ}
    {s s' : CTcpServer}, broadcastLoop buff m ex res s = .ok s' → Moves l s s'
  | [], _, _, s, _, h => Except.ok.inj h ▸ .refl
  | (id, a) :: m, ex, res, s, s', h => by
    unfold broadcastLoop at h
    split_ifs at h
    · exact moves_broadcastLoop h
    · obtain ⟨p, hp, h⟩ := bind_eq_ok h
      obtain ⟨⟨b, t⟩, hsend, h⟩ := bind_eq_ok h
      exact .head (.write (session_eq_ok hp) rfl hsend) (moves_broadcastLoop h)

theorem moves_dispatch {e : UvEvent ServerObj} {res : List ℤ} (h : s.dispatch e res = .ok s') :
    Moves l s s' := by
  unfold dispatch at h
  split at h
  · unfold doEvent at h
    split at h
    · exact moves_broadcastLoop h
    · exact Except.ok.inj h ▸ .refl
  · unfold CTcpClientSession.doEvent at h
    split at h
    · exact moves_closeinl h
    · exact moves_shutdowinl h
    · exact Except.ok.inj h ▸ .refl
  · simp at h

theorem moves_walk : ∀ {n c : ℕ} {s s' : CTcpServer}, walk c n s = .ok s' → Moves l s s'
  | 0, _, s, _, h => Except.ok.inj h ▸ .refl
  | n + 1, c, s, s', h => by
    unfold walk at h
    split at h
    · exact moves_walk h
    · rename_i x hx
      split at h
      · exact moves_walk h
      · exact moves_walk h
      · exact moves_walk h
      · obtain ⟨⟨a, p⟩, hap, h⟩ := bind_eq_ok h
        obtain ⟨ha, hp⟩ := follow_eq_ok hap
        exact (moves_closeHandle hx hp (.inr ha)).trans (moves_walk h)
      · obtain ⟨⟨a, p⟩, hap, h⟩ := bind_eq_ok h
        obtain ⟨ha, hp⟩ := follow_eq_ok hap
        exact (moves_closeHandle hx hp (.inr ha)).trans (moves_walk h)

end CTcpServer

end TestLibuv
