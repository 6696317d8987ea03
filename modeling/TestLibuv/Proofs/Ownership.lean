import Mathlib.Data.List.Nodup
import TestLibuv.Proofs.ServerStep

/-!
# Who owns a context

A session in the map is open, has its context to itself, and is found under its context's id; the
context of no such session is on the idle list. So the session that `CTcpClientSessionHandleClose`
deletes is the one whose handle was closed.
-/

namespace TestLibuv.CTcpServer

open CMem Runs

variable {s s' t : CTcpServer} {l : Label} {c : ℕ}

/-- The session in the map under an id, with its context. -/
structure Mapped (s : CTcpServer) (id : ℤ) (a : ℕ) (p : CTcpClientSession) (x : TcpSessionCtx) :
    Prop where
  session : s.sessions.cells a = some p
  opened : p.isclosed = false
  ctx : s.ctxs.cells p.clientSessionCtx = some x
  clientid : x.clientid = id
  handleData : x.handleData = some a
  notIdle : p.clientSessionCtx ∉ s.idleTcpClientCtxList

structure Owned (s : CTcpServer) : Prop where
  mapped : ∀ id a, s.clientSessionMap[id]? = some a → ∃ p x, Mapped s id a p x
  idle_nodup : s.idleTcpClientCtxList.Nodup
  idle_lt : ∀ c ∈ s.idleTcpClientCtxList, c < s.ctxs.next

/-- A context that is no mapped session's, nor on the idle list. -/
structure Unowned (s : CTcpServer) (c : ℕ) : Prop where
  notIdle : c ∉ s.idleTcpClientCtxList
  lt : c < s.ctxs.next
  notMapped : ∀ id a p x, s.clientSessionMap[id]? = some a → Mapped s id a p x →
    p.clientSessionCtx ≠ c

/-- A session that is marked closed keeps its context. -/
theorem modify_isclosed {h : Heap CTcpClientSession} {a b : ℕ} {p' : CTcpClientSession}
    (hp : (h.modify a fun p => { p with isclosed := true }).cells b = some p') :
    ∃ p, h.cells b = some p ∧ p'.clientSessionCtx = p.clientSessionCtx := by
  rw [Heap.cells_modify] at hp
  split_ifs at hp
  · obtain ⟨p, hold, rfl⟩ := Option.map_eq_some_iff.1 hp
    exact ⟨p, hold, rfl⟩
  · exact ⟨p', hp, rfl⟩

theorem cells_markClosed {h : Heap CTcpClientSession} (a : ℕ) {b : ℕ} {p : CTcpClientSession}
    (hp : h.cells b = some p) :
    ∃ q, (h.modify a fun p => { p with isclosed := true }).cells b = some q
      ∧ q.clientSessionCtx = p.clientSessionCtx := by
  rw [Heap.cells_modify, hp]
  split_ifs
  · exact ⟨{ p with isclosed := true }, rfl, rfl⟩
  · exact ⟨p, rfl, rfl⟩

theorem Owned.frame (h : Owned s) (hf : Frame s s') : Owned s' where
  mapped id a ha := by
    obtain ⟨p, x, hm⟩ := h.mapped id a (hf.map ▸ ha)
    obtain ⟨x', hx', hk⟩ := hf.ctx_some hm.ctx
    exact ⟨p, x', hf.sessions ▸ hm.session, hm.opened, hx', hk.clientid.trans hm.clientid,
      hk.handleData.trans hm.handleData, hf.idle ▸ hm.notIdle⟩
  idle_nodup := hf.idle ▸ h.idle_nodup
  idle_lt c hc := hf.next ▸ h.idle_lt c (hf.idle ▸ hc)

theorem Owned.of_eq (h : Owned s) (hmap : s'.clientSessionMap = s.clientSessionMap)
    (hidle : s'.idleTcpClientCtxList = s.idleTcpClientCtxList) (hctxs : s'.ctxs = s.ctxs)
    (hsessions : s'.sessions = s.sessions) : Owned s' where
  mapped id a ha := by
    obtain ⟨p, x, hm⟩ := h.mapped id a (hmap ▸ ha)
    exact ⟨p, x, hsessions ▸ hm.session, hm.opened, hctxs ▸ hm.ctx, hm.clientid, hm.handleData,
      hidle ▸ hm.notIdle⟩
  idle_nodup := hidle ▸ h.idle_nodup
  idle_lt c hc := hctxs ▸ h.idle_lt c (hidle ▸ hc)

theorem Unowned.of_eq (h : Unowned s c) (hmap : s'.clientSessionMap = s.clientSessionMap)
    (hidle : s'.idleTcpClientCtxList = s.idleTcpClientCtxList) (hctxs : s'.ctxs = s.ctxs)
    (hsessions : s'.sessions = s.sessions) : Unowned s' c where
  notIdle := hidle ▸ h.notIdle
  lt := hctxs ▸ h.lt
  notMapped id a p x ha hm := h.notMapped id a p x (hmap ▸ ha) ⟨hsessions ▸ hm.session, hm.opened,
    hctxs ▸ hm.ctx, hm.clientid, hm.handleData, hidle ▸ hm.notIdle⟩

/-- The context that `AcceptConnection` takes is nobody's. -/
theorem Owned.takeCtx (h : Owned s) (ht : s.takeCtx = (c, t)) : Owned t ∧ Unowned t c := by
  rcases takeCtx_cases ht with ⟨hi, rfl, rfl⟩ | ⟨rest, hi, rfl⟩
  · have hmap : ∀ id a, s.clientSessionMap[id]? = some a → ∃ p x,
        Mapped { s with ctxs := s.ctxs.alloc allocTcpSessionCtx } id a p x := by
      intro id a ha
      obtain ⟨p, x, hm⟩ := h.mapped id a ha
      refine ⟨p, x, hm.session, hm.opened, ?_, hm.clientid, hm.handleData, hm.notIdle⟩
      rw [Heap.cells_alloc, if_neg (Heap.lt_next hm.ctx).ne]
      exact hm.ctx
    refine ⟨⟨hmap, h.idle_nodup, fun c hc => ?_⟩, by simp [hi], Nat.lt_succ_self _, ?_⟩
    · exact Nat.lt_succ_of_lt (h.idle_lt c hc)
    · intro id a p x ha hm
      obtain ⟨p', x', hm'⟩ := h.mapped id a ha
      obtain rfl := Option.some.inj (hm'.session.symm.trans hm.session)
      exact (Heap.lt_next hm'.ctx).ne
  · have hnd := h.idle_nodup
    rw [hi, List.nodup_cons] at hnd
    have hne : ∀ {id a p x}, Mapped s id a p x → p.clientSessionCtx ≠ c := by
      rintro id a p x hm rfl
      exact hm.notIdle (by simp [hi])
    refine ⟨⟨fun id a ha => ?_, hnd.2, fun d hd => h.idle_lt d (by simp [hi, hd])⟩, hnd.1,
      h.idle_lt c (by simp [hi]), fun id a p x ha hm => ?_⟩
    · obtain ⟨p, x, hm⟩ := h.mapped id a ha
      refine ⟨p, x, hm.session, hm.opened, ?_, hm.clientid, hm.handleData, fun hin => ?_⟩
      · rw [Heap.cells_modify, if_neg (hne hm)]
        exact hm.ctx
      · exact hm.notIdle (by simp [hi, hin])
    · obtain ⟨p', x', hm'⟩ := h.mapped id a ha
      obtain rfl := Option.some.inj (hm'.session.symm.trans hm.session)
      exact hne hm'

theorem Owned.giveBack (h : Owned s) (hc : Unowned s c) (x' : TcpSessionCtx) (errmsg : ErrMsg)
    (inits : List UvPhase) (conns : ℕ) : Owned { s.setCtx c x' with
      idleTcpClientCtxList := s.idleTcpClientCtxList ++ [c], errmsg, inits, conns } where
  mapped id a ha := by
    obtain ⟨p, x, hm⟩ := h.mapped id a ha
    have hne := hc.notMapped id a p x ha hm
    refine ⟨p, x, hm.session, hm.opened, ?_, hm.clientid, hm.handleData, ?_⟩
    · exact (Heap.cells_modify.trans (if_neg hne)).trans hm.ctx
    · simpa [hne] using hm.notIdle
  idle_nodup := h.idle_nodup.append (List.nodup_singleton c) (by simpa using hc.notIdle)
  idle_lt d hd := by
    rcases List.mem_append.1 hd with hd | hd
    · exact h.idle_lt d hd
    · rw [List.mem_singleton.1 hd]
      exact hc.lt

theorem Owned.newSession (h : Owned s) (hc : Unowned s c) (hy : ∃ y, s.ctxs.cells c = some y)
    (x : TcpSessionCtx) (conn : ℕ) : Owned (s.newSession c x conn) where
  mapped id a ha := by
    have hmap : s.clientSessionMap[id]? = some a
        ∨ id = s.createSessionId ∧ a = s.sessions.next := by
      have ha' : (s.clientSessionMap.insertIfNew s.createSessionId s.sessions.next)[id]?
        = some a := ha
      rw [getElem?_insertSession] at ha'
      split_ifs at ha' with hk
      · exact .inr ⟨hk.1, (Option.some.inj ha').symm⟩
      · exact .inl ha'
    rcases hmap with hold | ⟨rfl, rfl⟩
    · obtain ⟨p, x', hm⟩ := h.mapped id a hold
      have hne := hc.notMapped id a p x' hold hm
      refine ⟨p, x', ?_, hm.opened, ?_, hm.clientid, hm.handleData, hm.notIdle⟩
      · exact (Heap.cells_alloc.trans (if_neg (Heap.lt_next hm.session).ne)).trans hm.session
      · exact (Heap.cells_modify.trans (if_neg hne)).trans hm.ctx
    · refine ⟨⟨c, false⟩, _, Heap.cells_alloc.trans (if_pos rfl), rfl,
        (Heap.cells_modify.trans (if_pos rfl)).trans (by rw [hy.choose_spec]; rfl), rfl, rfl,
        hc.notIdle⟩
  idle_nodup := h.idle_nodup
  idle_lt := h.idle_lt

theorem Owned.recv (h : Owned s) {y : TcpSessionCtx} (hy : s.ctxs.cells c = some y)
    (packet : PacketSync) (arrivals : List (ℕ × List UInt8)) (cbs : List ServerCb) :
    Owned ({ s.setCtx c { y with packet } with arrivals }.report cbs) where
  mapped id a ha := by
    obtain ⟨p, x, hm⟩ := h.mapped id a ha
    by_cases hpc : p.clientSessionCtx = c
    · obtain rfl : x = y := Option.some.inj (hm.ctx.symm.trans (hpc ▸ hy))
      refine ⟨p, { x with packet }, hm.session, hm.opened, ?_, hm.clientid, hm.handleData,
        hm.notIdle⟩
      exact (Heap.cells_modify.trans (if_pos hpc)).trans (by rw [hm.ctx]; rfl)
    · refine ⟨p, x, hm.session, hm.opened, ?_, hm.clientid, hm.handleData, hm.notIdle⟩
      exact (Heap.cells_modify.trans (if_neg hpc)).trans hm.ctx
  idle_nodup := h.idle_nodup
  idle_lt := h.idle_lt

/-- A mapped session that is not the one of a handle has another context. -/
theorem Mapped.ctx_ne {id : ℤ} {a b : ℕ} {p : CTcpClientSession} {x y : TcpSessionCtx}
    (hm : Mapped s id a p x) (hy : s.ctxs.cells c = some y) (hb : y.handleData = some b)
    (hab : a ≠ b) : p.clientSessionCtx ≠ c := by
  rintro rfl
  obtain rfl := Option.some.inj (hm.ctx.symm.trans hy)
  exact hab (Option.some.inj (hm.handleData.symm.trans hb))

/-- The session whose handle was closed, if it is in the map, is there under its context's id. -/
theorem Mapped.of_handle {id : ℤ} {a : ℕ} {p q : CTcpClientSession} {x y : TcpSessionCtx}
    (hm : Mapped s id a p x) (hq : s.sessions.cells a = some q) (hqc : q.clientSessionCtx = c)
    (hy : s.ctxs.cells c = some y) : id = y.clientid := by
  obtain rfl := Option.some.inj (hm.session.symm.trans hq)
  obtain rfl := Option.some.inj (hm.ctx.symm.trans (hqc ▸ hy))
  exact hm.clientid.symm

theorem Owned.closedAlone (h : Owned s) {a : ℕ} {p : CTcpClientSession} {x : TcpSessionCtx}
    (hp : s.sessions.cells a = some p) (hpc : p.clientSessionCtx = c)
    (hx : s.ctxs.cells c = some x) (hmap : s.clientSessionMap[x.clientid]? = none) :
    Owned { s with sessions := s.sessions.modify a fun p => { p with isclosed := true } } where
  mapped id b hb := by
    obtain ⟨q, y, hm⟩ := h.mapped id b hb
    have hba : b ≠ a := by
      rintro rfl
      rw [hm.of_handle hp hpc hx, hmap] at hb
      simp at hb
    refine ⟨q, y, ?_, hm.opened, hm.ctx, hm.clientid, hm.handleData, hm.notIdle⟩
    exact (Heap.cells_modify.trans (if_neg hba)).trans hm.session
  idle_nodup := h.idle_nodup
  idle_lt := h.idle_lt

/-- The session deleted is the one whose handle was closed. -/
theorem Owned.ends_self (h : Owned s) {id : ℤ} {a b : ℕ} {q : CTcpClientSession}
    (hmap : s.clientSessionMap[id]? = some b)
    (hq : (s.sessions.modify a fun p => { p with isclosed := true }).cells b = some q)
    (hcl : q.isclosed = true) : b = a := by
  by_contra hne
  obtain ⟨p, x, hm⟩ := h.mapped id b hmap
  rw [Heap.cells_modify, if_neg hne, hm.session, Option.some.injEq] at hq
  rw [← hq, hm.opened] at hcl
  simp at hcl

/-- So is its context the one recycled. -/
theorem Owned.ended_self (h : Owned s) {v : CTcpServer} {x : TcpSessionCtx} {a b : ℕ}
    {p q : CTcpClientSession} (hp : s.sessions.cells a = some p) (hpc : p.clientSessionCtx = c)
    (hmap : s.clientSessionMap[x.clientid]? = some b)
    (hq : (s.ended c x a b).sessions.cells b = some q) (hcl : q.isclosed = true)
    (hv : (s.ended c x a b).recycle q.clientSessionCtx = .ok v) :
    b = a ∧ q.clientSessionCtx = c ∧ (s.ended c x a b).recycle c = .ok v := by
  obtain rfl := h.ends_self hmap hq hcl
  obtain ⟨p', hp', hqc⟩ := modify_isclosed hq
  obtain rfl := Option.some.inj (hp'.symm.trans hp)
  rw [hqc, hpc] at hv
  exact ⟨rfl, hqc.trans hpc, hv⟩

/-- What a deletion does to the map, and the recycling to the contexts. -/
theorem Owned.sessionEnds (h : Owned s) {t v : CTcpServer} {a : ℕ} {p : CTcpClientSession}
    {x : TcpSessionCtx} (hp : s.sessions.cells a = some p) (hpc : p.clientSessionCtx = c)
    (hx : s.ctxs.cells c = some x) (ha : x.handleData = some a)
    (hmap : s.clientSessionMap[x.clientid]? = some a) (hv : t.recycle c = .ok v)
    (ht : t.clientSessionMap = s.clientSessionMap
      ∧ t.idleTcpClientCtxList = s.idleTcpClientCtxList ∧ t.ctxs = s.ctxs
      ∧ t.sessions = s.sessions.modify a fun p => { p with isclosed := true }) : Owned { v with
      sessions := v.sessions.free a
      clientSessionMap := v.clientSessionMap.erase x.clientid } := by
  obtain ⟨htm, hti, htc, hts⟩ := ht
  have hrest : ∀ id b, (s.clientSessionMap.erase x.clientid)[id]? = some b →
      ∃ q y, Mapped s id b q y ∧ b ≠ a ∧ q.clientSessionCtx ≠ c := by
    intro id b hb
    rw [getElem?_eraseSession] at hb
    split_ifs at hb with hid
    obtain ⟨q, y, hm⟩ := h.mapped id b hb
    have hba : b ≠ a := by
      rintro rfl
      exact hid (hm.of_handle hp hpc hx)
    exact ⟨q, y, hm, hba, hm.ctx_ne hx ha hba⟩
  have hkept : ∀ {id b q y}, Mapped s id b q y → b ≠ a →
      (t.sessions.free a).cells b = some q := by
    intro id b q y hm hba
    rw [Heap.cells_free, if_neg hba, hts, Heap.cells_modify, if_neg hba]
    exact hm.session
  obtain ⟨p', x', hm⟩ := h.mapped _ _ hmap
  obtain rfl := Option.some.inj (hm.session.symm.trans hp)
  have hnot : c ∉ s.idleTcpClientCtxList := hpc ▸ hm.notIdle
  rcases recycle_cases hv with ⟨-, rfl⟩ | ⟨rfl, -⟩
  · refine ⟨fun id b hb => ?_, ?_, fun d hd => ?_⟩
    · obtain ⟨q, y, hm, hba, hqc⟩ := hrest id b (htm ▸ hb)
      refine ⟨q, y, hkept hm hba, hm.opened, ?_, hm.clientid, hm.handleData, ?_⟩
      · show t.ctxs.cells _ = _
        rw [htc]
        exact hm.ctx
      · show _ ∉ t.idleTcpClientCtxList ++ [c]
        rw [hti]
        simpa [hqc] using hm.notIdle
    · show (t.idleTcpClientCtxList ++ [c]).Nodup
      rw [hti]
      exact h.idle_nodup.append (List.nodup_singleton c) (by simpa using hnot)
    · have hd : d ∈ t.idleTcpClientCtxList ++ [c] := hd
      show d < t.ctxs.next
      rw [hti] at hd
      rw [htc]
      rcases List.mem_append.1 hd with hd | hd
      · exact h.idle_lt d hd
      · rw [List.mem_singleton.1 hd]
        exact Heap.lt_next hx
  · refine ⟨fun id b hb => ?_, ?_, fun d hd => ?_⟩
    · obtain ⟨q, y, hm, hba, hqc⟩ := hrest id b (htm ▸ hb)
      refine ⟨q, y, hkept hm hba, hm.opened, ?_, hm.clientid, hm.handleData, ?_⟩
      · show (t.ctxs.free c).cells _ = _
        rw [Heap.cells_free, if_neg hqc, htc]
        exact hm.ctx
      · show _ ∉ t.idleTcpClientCtxList
        rw [hti]
        exact hm.notIdle
    · show t.idleTcpClientCtxList.Nodup
      rw [hti]
      exact h.idle_nodup
    · show d < t.ctxs.next
      rw [htc]
      exact h.idle_lt d (hti ▸ hd)

theorem owned_started (packhead : UInt32) : Owned (started packhead) where
  mapped id a ha := by simp [started] at ha
  idle_nodup := List.nodup_nil
  idle_lt := by simp [started]

theorem owned_step (h : Owned s) (hs : step s l = some s') : Owned s' := by
  obtain ⟨-, ht⟩ := step_trans hs
  cases ht with
  | deadTarget _ _ _ | inCall => exact h.of_eq rfl rfl rfl rfl
  | moves hm => exact h.frame hm.frame
  | push hm _ | pop hm => exact (h.frame hm.frame).of_eq rfl rfl rfl rfl
  | giveBack errmsg htake _ _ =>
    obtain ⟨ht, hc⟩ := h.takeCtx htake
    exact ht.giveBack hc _ errmsg _ _
  | @accept c r t x htake hx _ _ =>
    obtain ⟨ht, hc⟩ := h.takeCtx htake
    exact Owned.newSession (s := { t with
      inits := s.inits ++ [x.sessionTcpHandle.phase], conns := s.conns + 1 })
      (ht.of_eq rfl rfl rfl rfl) (hc.of_eq rfl rfl rfl rfl) ⟨x, hx⟩ _ _
  | recv _ _ _ _ hy _ => exact h.recv hy _ _ _
  | closedAlone hm hx ha hp hpc hmap =>
    have hf := hm.frame
    obtain ⟨x', hx', hk⟩ := hf.ctx_some hx
    refine (h.frame hf).closedAlone (hf.sessions ▸ hp) hpc hx' ?_
    rw [hf.map, hk.clientid, hmap]
  | sessionEnds hx he _ ha hp hpc hmap hq hcl hv =>
    obtain ⟨rfl, -, hv⟩ := h.ended_self hp hpc hmap hq hcl hv
    have hf := frame_finish hx he
    obtain ⟨x', hx', hk⟩ := hf.ctx_some hx
    have hend := (h.frame hf).sessionEnds (hf.sessions ▸ hp) hpc hx'
      (hk.handleData.trans ha) (by rw [hf.map, hk.clientid, hmap]) hv
      ⟨rfl, rfl, rfl, rfl⟩
    rwa [hk.clientid] at hend

end TestLibuv.CTcpServer
