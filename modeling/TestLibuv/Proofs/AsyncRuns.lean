import TestLibuv.Async
import TestLibuv.Looper
import TestLibuv.Proofs.HandleTable
import TestLibuv.Proofs.PendingQueue

/-!
# Async handles across threads

Whatever threads send, and whenever they do, a request of an async handle is in one place at most:
on its way to the completion port, in it, or in the queue of the loop. It is in one exactly while
the flag of the handle is set, so no wakeup is lost and no request is put into the queue twice. The
handles behave as `UvAsync` says.
-/

namespace TestLibuv

open DList Runs

namespace UvAsync

/-- What an event means for the handle; none where the handle cannot take it. A handle that was
never initialised is `none`. -/
def event : Option UvAsync → AsyncEvent → Option (Option UvAsync)
  | none, .init _ => some (some .init)
  | some h, .init _ => if h.closed then some (some .init) else none
  | some h, .send _ => if h.closed then none else some (some h.send)
  | some h, .wakeup _ cb =>
    if h.asyncSent && (cb.isNone || !h.closing) then some (some h.wakeup) else none
  | some h, .closing _ => if h.closing then none else some (some h.close)
  | some h, .close _ _ => if h.ends then some (some h.finish) else none
  | none, _ => none

/-- A handle with these flags that was not sent on once it was closed. -/
def flags (asyncSent closing closed : Bool) : UvAsync :=
  ⟨asyncSent, closing, closed, closing && !closed && !asyncSent⟩

end UvAsync

namespace AsyncLoop

/-- The events of one handle, in order. -/
def events (s : AsyncLoop) (a : ℕ) : List AsyncEvent := s.trace.filter fun e => e.handle = a

/-- The handle as the looper sees it. -/
def uvAsync (s : AsyncLoop) (a : ℕ) : Option UvAsync :=
  if (s.base a).ref then
    some (.flags (s.asyncs a).asyncSent (s.base a).closing (s.base a).closed)
  else none

/-- The requests that wait to be processed, wherever they are. -/
def inFlight (s : AsyncLoop) (todo pending : List ℕ) : List ℕ :=
  s.posting ++ (s.iocp ++ (todo ++ pending))

/-- What holds in every state: of the handles in use, the requests the pass has still to come to and
those in the queue. -/
structure Sound (s : AsyncLoop) (todo pending handles : List ℕ) : Prop where
  table : s.toHandleTable.Sound handles
  reqs : s.reqs.Holds s.pass todo pending
  nodup : (s.inFlight todo pending).Nodup
  flight : ∀ a, a ∈ s.inFlight todo pending ↔ (s.asyncs a).asyncSent = true
  sent : ∀ a, (s.asyncs a).asyncSent = true → a ∈ handles
  queued : ∀ a, (s.base a).endgameQueued = true →
    a ∈ handles ∧ ((s.base a).closing = true ∨ s.inClose = some a)
  due : ∀ a ∈ handles, (s.base a).closing = true →
    (s.asyncs a).asyncSent = true ∨ (s.base a).endgameQueued = true
  inClose : ∀ a, s.inClose = some a → a ∈ handles ∧ (s.base a).closing = false
    ∧ ((s.asyncs a).asyncSent = true ∨ (s.base a).endgameQueued = true)
  active : ∀ a ∈ handles, (s.base a).closing = false → (s.base a).active = true

/-- The step is none of the handles', or is one of one handle and as `UvAsync` has it. -/
def Moves (s s' : AsyncLoop) : Prop :=
  s'.trace = s.trace ∧ (∀ a, s'.uvAsync a = s.uvAsync a)
    ∨ ∃ e, s'.trace = s.trace ++ [e] ∧ (∀ a, a ≠ e.handle → s'.uvAsync a = s.uvAsync a)
      ∧ UvAsync.event (s.uvAsync e.handle) e = some (s'.uvAsync e.handle)

variable {s s' : AsyncLoop} {todo pending handles : List ℕ} {a b : ℕ} {l : Label}

section Steps

theorem Sound.not_sent (hs : s.Sound todo pending handles) (ha : a ∉ handles) :
    (s.asyncs a).asyncSent = false := by
  rw [Bool.eq_false_iff]
  exact fun h => ha (hs.sent a h)

theorem Sound.asyncInit (hs : s.Sound todo pending handles) {cb : Option ℕ}
    (ho : s.Obliging (.init a cb)) :
    (s.asyncInit a cb).Sound todo pending (handles ++ [a]) ∧ s.Moves (s.asyncInit a cb) := by
  have ha : a ∉ handles := fun h => by
    obtain ⟨hr, hcd⟩ := (hs.table.mem a).1 h
    rw [ho.2 hr] at hcd
    exact absurd hcd (by simp)
  have hoff := hs.not_sent ha
  have hq : (s.base a).endgameQueued = false := by
    rw [Bool.eq_false_iff]
    exact fun h => ha (hs.queued a h).1
  have hin : s.inClose ≠ some a := fun h => ha (hs.inClose a h).1
  have hasync : ∀ b, (s.asyncInit a cb).asyncs b = if b = a then ⟨false, cb⟩ else s.asyncs b := by
    intro b
    simp [AsyncLoop.asyncInit, log, setAsync, Function.update_apply]
  have hsent : ∀ b, ((s.asyncInit a cb).asyncs b).asyncSent = (s.asyncs b).asyncSent := by
    intro b
    rw [hasync]
    split_ifs with hb
    · rw [hb, hoff]
    · rfl
  have hbase : ∀ b, (s.asyncInit a cb).base b = if b = a then
      { s.base b with
        ref := true, active := true, closing := false, closed := false, endgameQueued := false }
      else s.base b := by
    intro b
    by_cases hb : b = a <;> simp [AsyncLoop.asyncInit, log, setAsync, hb]
  have hmem : ∀ b ∈ handles, b ≠ a := fun b hb he => ha (he ▸ hb)
  refine ⟨⟨?_, hs.reqs, hs.nodup, fun b => ?_, fun b hb => ?_, fun b hb => ?_, fun b hb hc => ?_,
    fun b hb => ?_, fun b hb hc => ?_⟩, .inr ⟨.init a, rfl, fun b hb => ?_, ?_⟩⟩
  · exact (hs.table.handleInit ha ho.1 hq).handleStart (by simp) (by simp)
  · rw [hsent]
    exact hs.flight b
  · rw [hsent] at hb
    exact List.mem_append_left _ (hs.sent b hb)
  · rw [hbase] at hb ⊢
    split_ifs at hb ⊢ with hba
    obtain ⟨h₁, h₂⟩ := hs.queued b hb
    exact ⟨List.mem_append_left _ h₁, h₂⟩
  · rw [hsent, hbase]
    rw [hbase] at hc
    split_ifs at hc ⊢ with hba
    exact hs.due b ((List.mem_append.1 hb).resolve_right (by simpa using hba)) hc
  · obtain ⟨h₁, h₂⟩ := hs.inClose b hb
    rw [hsent, hbase, if_neg (hmem b h₁)]
    exact ⟨List.mem_append_left _ h₁, h₂⟩
  · rw [hbase] at hc ⊢
    split_ifs at hc ⊢ with hba
    · rfl
    · exact hs.active b ((List.mem_append.1 hb).resolve_right (by simpa using hba)) hc
  · have hba : b ≠ a := hb
    simp [uvAsync, hbase, hasync, hba]
  · have hnew : (s.asyncInit a cb).uvAsync a = some .init := by
      simp [uvAsync, hbase, hasync, UvAsync.init, UvAsync.flags]
    change UvAsync.event (s.uvAsync a) (.init a) = some ((s.asyncInit a cb).uvAsync a)
    rw [hnew, uvAsync]
    split_ifs with hr
    · simp [UvAsync.event, UvAsync.flags, ho.2 hr]
    · rfl

/-- The flag of a handle is set. -/
theorem asyncs_asyncSend : (s.asyncSend a).asyncs b
    = if b = a then { s.asyncs b with asyncSent := true } else s.asyncs b := by
  by_cases hb : b = a <;> simp [AsyncLoop.asyncSend, log, setAsync, hb]

theorem Sound.asyncSend (hs : s.Sound todo pending handles) (ho : s.Obliging (.send a)) :
    (s.asyncSend a).Sound todo pending handles ∧ s.Moves (s.asyncSend a) := by
  have ha : a ∈ handles := (hs.table.mem a).2 ho
  have hsent : ∀ b, ((s.asyncSend a).asyncs b).asyncSent = true
      ↔ b = a ∨ (s.asyncs b).asyncSent = true := by
    intro b
    rw [asyncs_asyncSend]
    split_ifs with hb <;> simp [hb]
  have hflight : (s.asyncSend a).inFlight todo pending
      = (if (s.asyncs a).asyncSent then s.posting else s.posting ++ [a])
        ++ (s.iocp ++ (todo ++ pending)) := rfl
  have hperm : (s.asyncs a).asyncSent = false →
      ((s.asyncSend a).inFlight todo pending).Perm (a :: s.inFlight todo pending) := by
    intro hoff
    rw [hflight, if_neg (by simp [hoff]), List.append_assoc]
    exact List.perm_middle
  have hkeep : (s.asyncs a).asyncSent = true →
      (s.asyncSend a).inFlight todo pending = s.inFlight todo pending := by
    intro hon
    rw [hflight, if_pos hon]
    rfl
  refine ⟨⟨hs.table, hs.reqs, ?_, fun b => ?_, fun b hb => ?_, hs.queued, fun b hb hc => ?_,
    fun b hb => ?_, hs.active⟩, .inr ⟨.send a, rfl, fun b hb => ?_, ?_⟩⟩
  · rcases hon : (s.asyncs a).asyncSent with _ | _
    · rw [(hperm hon).nodup_iff, List.nodup_cons, hs.flight, hon]
      exact ⟨by simp, hs.nodup⟩
    · rw [hkeep hon]
      exact hs.nodup
  · rw [hsent]
    rcases hon : (s.asyncs a).asyncSent with _ | _
    · rw [(hperm hon).mem_iff, List.mem_cons, hs.flight]
    · rw [hkeep hon, hs.flight]
      exact ⟨.inr, fun h => h.elim (fun he => he ▸ hon) id⟩
  · rcases (hsent b).1 hb with rfl | hb
    · exact ha
    · exact hs.sent b hb
  · exact (hs.due b hb hc).imp_left fun h => (hsent b).2 (.inr h)
  · obtain ⟨h₁, h₂, h₃⟩ := hs.inClose b hb
    exact ⟨h₁, h₂, h₃.imp_left fun h => (hsent b).2 (.inr h)⟩
  · have hba : b ≠ a := hb
    rw [uvAsync, asyncs_asyncSend, if_neg hba]
    rfl
  · have hold : s.uvAsync a
        = some (.flags (s.asyncs a).asyncSent (s.base a).closing (s.base a).closed) := if_pos ho.1
    have hnew : (s.asyncSend a).uvAsync a
        = some (.flags true (s.base a).closing (s.base a).closed) := by
      rw [uvAsync, asyncs_asyncSend, if_pos rfl]
      exact if_pos ho.1
    change UvAsync.event (s.uvAsync a) (.send a) = _
    rw [hold]
    simp [AsyncEvent.handle, hnew, UvAsync.event, ho.2, UvAsync.send, UvAsync.flags]

/-- A request goes on to the next place. -/
theorem Sound.of_perm {todo' pending' : List ℕ} (hs : s.Sound todo pending handles)
    (htable : s'.toHandleTable = s.toHandleTable) (hasync : s'.asyncs = s.asyncs)
    (hclose : s'.inClose = s.inClose) (hreqs : s'.reqs.Holds s'.pass todo' pending')
    (hperm : (s'.inFlight todo' pending').Perm (s.inFlight todo pending)) :
    s'.Sound todo' pending' handles where
  table := by rw [htable]; exact hs.table
  reqs := hreqs
  nodup := hperm.nodup_iff.2 hs.nodup
  flight b := by rw [hperm.mem_iff, hasync, hs.flight]
  sent := by rw [hasync]; exact hs.sent
  queued := by rw [htable, hclose]; exact hs.queued
  due := by rw [htable, hasync]; exact hs.due
  inClose := by rw [htable, hasync, hclose]; exact hs.inClose
  active := by rw [htable]; exact hs.active

/-- What does not touch a handle is none of its steps. -/
theorem moves_of_same (htrace : s'.trace = s.trace) (htable : s'.toHandleTable = s.toHandleTable)
    (hasync : s'.asyncs = s.asyncs) : s.Moves s' := by
  refine .inl ⟨htrace, fun b => ?_⟩
  rw [uvAsync, htable, hasync]
  rfl

theorem Sound.postCompletion (hs : s.Sound todo pending handles) (ha : a ∈ s.posting) :
    (s.postCompletion a).Sound todo pending handles := by
  refine hs.of_perm rfl rfl rfl hs.reqs ?_
  have hperm : (s.posting.erase a ++ (s.iocp ++ [a] ++ (todo ++ pending))).Perm
      (a :: s.posting.erase a ++ (s.iocp ++ (todo ++ pending))) := by
    rw [List.append_assoc, List.singleton_append, List.cons_append]
    exact (List.Perm.append_left _ List.perm_middle).trans List.perm_middle
  exact hperm.trans ((List.perm_cons_erase ha).symm.append_right _)

theorem holds_foldl_insert : ∀ {rs pending : List ℕ} {q : PendingReqs} {pass : Option ReqsPass},
    q.Holds pass todo pending → (rs ++ (todo ++ pending)).Nodup →
    (rs.foldl PendingReqs.insertPendingReq q).Holds pass todo (pending ++ rs)
  | [], pending, _, _, hq, _ => by simpa using hq
  | r :: rs, pending, q, pass, hq, hnodup => by
    rw [List.cons_append, List.nodup_cons, List.mem_append, not_or] at hnodup
    have hrest : (rs ++ (todo ++ (pending ++ [r]))).Nodup := by
      have hperm : (rs ++ (todo ++ (pending ++ [r]))).Perm (r :: (rs ++ (todo ++ pending))) := by
        rw [← List.append_assoc todo, ← List.append_assoc rs]
        exact List.perm_append_singleton r _
      rw [hperm.nodup_iff, List.nodup_cons, List.mem_append, not_or]
      exact hnodup
    have := holds_foldl_insert (hq.insertPendingReq hnodup.1.2) hrest
    simpa using this

theorem Sound.poll {n : ℕ} (hs : s.Sound todo pending handles) :
    (s.poll n).Sound todo (pending ++ s.iocp.take n) handles := by
  have htake : (s.iocp.take n ++ (todo ++ pending)).Nodup := by
    have hsub : (s.iocp.take n ++ (todo ++ pending)).Sublist (s.inFlight todo pending) :=
      (((List.take_sublist n s.iocp).append_right _).trans (List.sublist_append_right _ _))
    exact hs.nodup.sublist hsub
  refine hs.of_perm rfl rfl rfl (holds_foldl_insert hs.reqs htake) ?_
  refine List.Perm.append_left _ ?_
  have hperm : (s.iocp.drop n ++ (todo ++ (pending ++ s.iocp.take n))).Perm
      (s.iocp.take n ++ s.iocp.drop n ++ (todo ++ pending)) := by
    rw [← List.append_assoc todo, ← List.append_assoc, List.append_assoc (s.iocp.take n)]
    exact List.perm_append_comm
  rwa [List.take_append_drop] at hperm

theorem Sound.beginPass {p : ReqsPass} {q : PendingReqs} (hs : s.Sound todo pending handles)
    (hp : s.pass = none) (hb : s.reqs.beginPass = some (p, q)) :
    { s with pass := some p, reqs := q }.Sound pending [] handles := by
  have hreqs := hs.reqs
  rw [hp] at hreqs
  obtain rfl := hreqs.idle rfl
  refine hs.of_perm rfl rfl rfl (hreqs.beginPass hb).1 ?_
  simp [inFlight]

theorem base_close {cb : Option ℕ} (hc : (s.base a).closing = false) :
    (s.close a cb).base b = if b = a then
      { s.base b with
        closeCb := cb
        endgameQueued := (s.base b).endgameQueued || !(s.asyncs b).asyncSent }
      else s.base b := by
  by_cases hb : b = a
  · subst hb
    rcases hon : (s.asyncs b).asyncSent with _ | _ <;>
      simp [AsyncLoop.close, hc, hon, HandleTable.setBase]
  · rcases hon : (s.asyncs a).asyncSent with _ | _ <;>
      simp [AsyncLoop.close, hc, hon, hb, HandleTable.setBase]

theorem Sound.close {cb : Option ℕ} (hs : s.Sound todo pending handles) (hin : s.inClose = none)
    (ho : s.Obliging (.close a cb)) :
    (s.close a cb).Sound todo pending handles ∧ s.Moves (s.close a cb) := by
  rcases hc : (s.base a).closing with _ | _
  · have ha : a ∈ handles := (hs.table.mem a).2 ⟨ho, by
      rw [Bool.eq_false_iff]
      intro hcd
      rw [hs.table.closed a hcd] at hc
      exact absurd hc (by simp)⟩
    have hbase : ∀ b, (s.close a cb).base b = _ := fun b => base_close hc
    have hrest : (s.close a cb).asyncs = s.asyncs ∧ (s.close a cb).inClose = some a
        ∧ (s.close a cb).trace = s.trace ∧ (s.close a cb).reqs = s.reqs
        ∧ (s.close a cb).pass = s.pass
        ∧ (s.close a cb).inFlight todo pending = s.inFlight todo pending := by
      rcases hon : (s.asyncs a).asyncSent with _ | _ <;>
        simp [AsyncLoop.close, hc, hon, inFlight]
    obtain ⟨hasync, hclose, htrace, hreqs, hpass, hflight⟩ := hrest
    have htable : (s.close a cb).toHandleTable.Sound handles := by
      have hset := hs.table.setCloseCb ha hc cb
      rcases hon : (s.asyncs a).asyncSent with _ | _
      · simpa [AsyncLoop.close, hc, hon] using hset.wantEndgame ha
      · simpa [AsyncLoop.close, hc, hon] using hset
    refine ⟨⟨htable, by rw [hreqs, hpass]; exact hs.reqs, by rw [hflight]; exact hs.nodup,
      by rw [hflight, hasync]; exact hs.flight, by rw [hasync]; exact hs.sent, fun b hb => ?_,
      fun b hb hcb => ?_, fun b hb => ?_, fun b hb hcb => ?_⟩, .inl ⟨htrace, fun b => ?_⟩⟩
    · rw [hbase] at hb ⊢
      rw [hclose]
      split_ifs at hb ⊢ with hba
      · exact ⟨hba ▸ ha, .inr (by rw [hba])⟩
      · obtain ⟨h₁, h₂⟩ := hs.queued b hb
        exact ⟨h₁, .inl (h₂.resolve_right (by simp [hin]))⟩
    · rw [hbase] at hcb ⊢
      rw [hasync]
      split_ifs at hcb ⊢ with hba
      · rw [hba, hc] at hcb
        exact absurd hcb (by simp)
      · exact hs.due b hb hcb
    · rw [hclose, Option.some.injEq] at hb
      subst hb
      rw [hbase, if_pos rfl, hasync]
      refine ⟨ha, hc, ?_⟩
      rcases (s.asyncs a).asyncSent with _ | _ <;> simp
    · rw [hbase] at hcb ⊢
      split_ifs at hcb ⊢
      · exact hs.active b hb hcb
      · exact hs.active b hb hcb
    · rw [uvAsync, uvAsync, hasync, hbase]
      split_ifs <;> rfl
  · have hsame : s.close a cb = s := if_pos hc
    rw [hsame]
    exact ⟨hs, moves_of_same rfl rfl rfl⟩

theorem Sound.closing (hs : s.Sound todo pending handles) (hin : s.inClose = some a) :
    (s.closing a).Sound todo pending handles ∧ s.Moves (s.closing a) := by
  obtain ⟨ha, hc, hdue⟩ := hs.inClose a hin
  have hbase : ∀ b, (s.closing a).base b
      = if b = a then { s.base b with closing := true, active := false } else s.base b :=
    fun b => s.base_handleClosing a b
  refine ⟨⟨hs.table.handleClosing ha hc, hs.reqs, hs.nodup, hs.flight, hs.sent, fun b hb => ?_,
    fun b hb hcb => ?_, fun b hb => ?_, fun b hb hcb => ?_⟩,
    .inr ⟨.closing a, rfl, fun b hb => ?_, ?_⟩⟩
  · rw [hbase] at hb ⊢
    split_ifs at hb ⊢ with hba
    · exact ⟨hba ▸ ha, .inl rfl⟩
    · obtain ⟨h₁, h₂⟩ := hs.queued b hb
      refine ⟨h₁, .inl (h₂.resolve_right fun he => hba ?_)⟩
      exact (Option.some.inj (hin.symm.trans he)).symm
  · rw [hbase] at hcb ⊢
    split_ifs at hcb ⊢ with hba
    · exact hba ▸ hdue
    · exact hs.due b hb hcb
  · exact absurd hb (by simp [AsyncLoop.closing, log])
  · rw [hbase] at hcb ⊢
    split_ifs at hcb ⊢
    exact hs.active b hb hcb
  · have hba : b ≠ a := hb
    rw [uvAsync, hbase, if_neg hba]
    rfl
  · have hr := ((hs.table.mem a).1 ha).1
    have hcd := ((hs.table.mem a).1 ha).2
    have hold : s.uvAsync a = some (.flags (s.asyncs a).asyncSent false false) := by
      rw [uvAsync, if_pos hr, hc, hcd]
    have hnew : (s.closing a).uvAsync a = some (.flags (s.asyncs a).asyncSent true false) := by
      rw [uvAsync, hbase, if_pos rfl]
      simp only [hr, hcd, if_true]
      rfl
    change UvAsync.event (s.uvAsync a) (.closing a) = some ((s.closing a).uvAsync a)
    rw [hold, hnew]
    rfl

theorem asyncs_processAsyncWakeupReq : (s.processAsyncWakeupReq a).asyncs b
    = if b = a then { s.asyncs b with asyncSent := false } else s.asyncs b := by
  rcases hc : (s.base a).closing with _ | _ <;> by_cases hb : b = a <;>
    simp [processAsyncWakeupReq, setAsync, log, hc, hb]

theorem base_processAsyncWakeupReq : (s.processAsyncWakeupReq a).base b
    = if b = a then
      { s.base b with endgameQueued := (s.base b).endgameQueued || (s.base b).closing }
      else s.base b := by
  rcases hx : s.base a with ⟨_, _, closing, _, _, _⟩
  cases closing <;> by_cases hb : b = a <;> simp [processAsyncWakeupReq, setAsync, log, hx, hb]

/-- The callback the wakeup calls. -/
theorem trace_processAsyncWakeupReq : (s.processAsyncWakeupReq a).trace = s.trace
    ++ [.wakeup a (if (s.base a).closing then none else (s.asyncs a).asyncCb)] := by
  rcases hc : (s.base a).closing with _ | _ <;> simp [processAsyncWakeupReq, setAsync, log, hc]

theorem rest_processAsyncWakeupReq : (s.processAsyncWakeupReq a).reqs = s.reqs
    ∧ (s.processAsyncWakeupReq a).pass = s.pass
    ∧ (s.processAsyncWakeupReq a).inClose = s.inClose
    ∧ (s.processAsyncWakeupReq a).inFlight todo pending = s.inFlight todo pending := by
  rcases hc : (s.base a).closing with _ | _ <;>
    simp [processAsyncWakeupReq, setAsync, log, hc, inFlight]

theorem Sound.wakeup {p : ReqsPass} (hs : s.Sound (a :: todo) pending handles)
    (hin : s.inClose = none) (hreqs : s.reqs.Holds (some p) todo pending) :
    ({ s with pass := some p }.processAsyncWakeupReq a).Sound todo pending handles
      ∧ s.Moves ({ s with pass := some p }.processAsyncWakeupReq a) := by
  obtain ⟨u, hu⟩ : ∃ u, { s with pass := some p }.processAsyncWakeupReq a = u := ⟨_, rfl⟩
  have hasync : ∀ b, u.asyncs b
      = if b = a then { s.asyncs b with asyncSent := false } else s.asyncs b :=
    fun b => hu ▸ asyncs_processAsyncWakeupReq
  have hbase : ∀ b, u.base b = if b = a then
      { s.base b with endgameQueued := (s.base b).endgameQueued || (s.base b).closing }
      else s.base b := fun b => hu ▸ base_processAsyncWakeupReq
  have htrace : u.trace = s.trace
      ++ [.wakeup a (if (s.base a).closing then none else (s.asyncs a).asyncCb)] :=
    hu ▸ trace_processAsyncWakeupReq
  obtain ⟨hr, hp, hclose, hflight⟩ : u.reqs = s.reqs ∧ u.pass = some p ∧ u.inClose = s.inClose
      ∧ u.inFlight todo pending = s.inFlight todo pending := hu ▸ rest_processAsyncWakeupReq
  have hperm : (s.inFlight (a :: todo) pending).Perm (a :: s.inFlight todo pending) := by
    rw [inFlight, List.cons_append]
    exact (List.Perm.append_left _ List.perm_middle).trans List.perm_middle
  have hnodup := hperm.nodup_iff.1 hs.nodup
  rw [List.nodup_cons] at hnodup
  have hon : (s.asyncs a).asyncSent = true := (hs.flight a).1 (hperm.mem_iff.2 List.mem_cons_self)
  have ha := hs.sent a hon
  obtain ⟨hra, hcda⟩ := (hs.table.mem a).1 ha
  have htable : u.toHandleTable.Sound handles := by
    rw [← hu]
    rcases hc : (s.base a).closing with _ | _
    · simpa [processAsyncWakeupReq, setAsync, log, hc] using hs.table
    · simpa [processAsyncWakeupReq, setAsync, log, hc] using hs.table.wantEndgame ha
  rw [hu]
  refine ⟨⟨htable, by rw [hr, hp]; exact hreqs, hflight ▸ hnodup.2, fun b => ?_, fun b hb => ?_,
    fun b hb => ?_, fun b hb hcb => ?_, fun b hb => ?_, fun b hb hcb => ?_⟩,
    .inr ⟨_, htrace, fun b hb => ?_, ?_⟩⟩
  · have hold := hs.flight b
    rw [hperm.mem_iff, List.mem_cons] at hold
    rw [hflight, hasync]
    split_ifs with hb
    · subst hb
      exact iff_of_false hnodup.1 (by simp)
    · rw [← hold]
      exact ⟨.inr, fun h => h.resolve_left hb⟩
  · rw [hasync] at hb
    split_ifs at hb
    exact hs.sent b hb
  · rw [hbase] at hb ⊢
    rw [hclose]
    split_ifs at hb ⊢ with hba
    · rw [Bool.or_eq_true] at hb
      rcases hb with hb | hb
      · exact hs.queued b hb
      · exact ⟨hba ▸ ha, .inl hb⟩
    · exact hs.queued b hb
  · rw [hbase] at hcb ⊢
    rw [hasync]
    split_ifs at hcb ⊢ with hba
    · have hcb : (s.base b).closing = true := hcb
      exact .inr (by simp [hcb])
    · exact hs.due b hb hcb
  · rw [hclose, hin] at hb
    exact absurd hb (by simp)
  · rw [hbase] at hcb ⊢
    split_ifs at hcb ⊢
    · exact hs.active b hb hcb
    · exact hs.active b hb hcb
  · have hba : b ≠ a := hb
    rw [uvAsync, uvAsync, hasync, hbase, if_neg hba, if_neg hba]
  · have hold : s.uvAsync a = some (.flags true (s.base a).closing false) := by
      rw [uvAsync, if_pos hra, hon, hcda]
    have hnew : u.uvAsync a = some (.flags false (s.base a).closing false) := by
      rw [uvAsync, hasync, hbase, if_pos rfl, if_pos rfl]
      simp [hra, hcda]
    simp only [AsyncEvent.handle]
    rw [hold, hnew]
    rcases (s.base a).closing with _ | _ <;>
      simp [UvAsync.event, UvAsync.wakeup, UvAsync.flags]

theorem Sound.processReq {p : ReqsPass} (hs : s.Sound todo pending handles)
    (hin : s.inClose = none) (hp : s.pass = some p) :
    (∃ todo', (s.processReq p).Sound todo' pending handles) ∧ s.Moves (s.processReq p) := by
  have hround := (hp ▸ hs.reqs).round
  unfold AsyncLoop.processReq
  rcases hr : p.round s.reqs with _ | ⟨x, p'⟩ <;> rw [hr] at hround
  · subst hround
    exact ⟨⟨[], hs.of_perm rfl rfl rfl ((hp ▸ hs.reqs).endPass) (.refl _)⟩,
      moves_of_same rfl rfl rfl⟩
  · obtain ⟨rest, rfl, hreqs⟩ := hround
    obtain ⟨hsound, hmoves⟩ := hs.wakeup hin hreqs
    exact ⟨⟨rest, hsound⟩, hmoves⟩

theorem Sound.processEndgame (hs : s.Sound todo pending handles) (hin : s.inClose = none)
    (hstep : s.processEndgame = some s') :
    (∃ handles', s'.Sound todo pending handles') ∧ s.Moves s' := by
  unfold AsyncLoop.processEndgame at hstep
  rcases hq : s.endgameHandles with _ | ⟨a, rest⟩
  · rw [hq] at hstep
    exact absurd hstep (by simp)
  rw [hq, Option.some.injEq] at hstep
  obtain ⟨ha, hc⟩ := hs.queued a ((hs.table.queued a).1 (hq ▸ List.mem_cons_self))
  have hc : (s.base a).closing = true := hc.resolve_right (by simp [hin])
  obtain ⟨hra, hcda⟩ := (hs.table.mem a).1 ha
  have hpop := hs.table.popEndgame hq ha
  have hdue := hs.due a ha hc
  have hnone : ∀ {b}, s.inClose = some b → False := fun h => by
    rw [hin] at h
    exact absurd h (by simp)
  have hbase : ∀ b, (s.popEndgame a rest).base b
      = if b = a then { s.base b with endgameQueued := false } else s.base b :=
    fun b => s.base_popEndgame a b
  rcases hon : (s.asyncs a).asyncSent with _ | _
  · -- the handle is closed
    have hs' : s' = { s with
        toHandleTable := (s.popEndgame a rest).handleClose a
        trace := s.trace ++ [.close a (s.base a).closeCb] } := by
      rw [← hstep]
      simp [asyncEndgame, hc, hon, log]
    have hbase' : ∀ b, s'.base b = if b = a then
        { s.base b with endgameQueued := false, closed := true } else s.base b := by
      intro b
      rw [hs']
      by_cases hb : b = a <;> simp [hb]
    have hasync : s'.asyncs = s.asyncs := by rw [hs']
    have hclose : s'.inClose = s.inClose := by rw [hs']
    have hmem : ∀ b ∈ handles.erase a, b ≠ a ∧ b ∈ handles :=
      fun b hb => hs.table.base_nodup.mem_erase_iff.1 hb
    refine ⟨⟨handles.erase a, ?_, by rw [hs']; exact hs.reqs, by rw [hs']; exact hs.nodup,
      by rw [hs']; exact hs.flight, fun b hb => ?_, fun b hb => ?_, fun b hb hcb => ?_,
      fun b hb => (hnone (hclose ▸ hb)).elim, fun b hb hcb => ?_⟩,
      .inr ⟨.close a (s.base a).closeCb, by rw [hs'], fun b hb => ?_, ?_⟩⟩
    · rw [hs']
      exact hpop.handleClose ha (by rw [hbase, if_pos rfl]; exact hc)
    · rw [hasync] at hb
      refine hs.table.base_nodup.mem_erase_iff.2 ⟨?_, hs.sent b hb⟩
      rintro rfl
      rw [hon] at hb
      exact absurd hb (by simp)
    · rw [hbase'] at hb ⊢
      split_ifs at hb ⊢ with hba
      obtain ⟨h₁, h₂⟩ := hs.queued b hb
      exact ⟨hs.table.base_nodup.mem_erase_iff.2 ⟨hba, h₁⟩, .inl (h₂.resolve_right hnone)⟩
    · obtain ⟨hba, hb⟩ := hmem b hb
      rw [hbase', if_neg hba] at hcb ⊢
      rw [hasync]
      exact hs.due b hb hcb
    · obtain ⟨hba, hb⟩ := hmem b hb
      rw [hbase', if_neg hba] at hcb ⊢
      exact hs.active b hb hcb
    · have hba : b ≠ a := hb
      rw [uvAsync, uvAsync, hasync, hbase', if_neg hba]
    · have hold : s.uvAsync a = some (.flags false true false) := by
        rw [uvAsync, if_pos hra, hon, hc, hcda]
      have hnew : s'.uvAsync a = some (.flags false true true) := by
        rw [uvAsync, hasync, hbase', if_pos rfl, hon, hc]
        exact if_pos hra
      simp only [AsyncEvent.handle]
      rw [hold, hnew]
      rfl
  · -- its request is still to come
    have hs' : s' = { s with toHandleTable := s.popEndgame a rest } := by
      rw [← hstep]
      simp [asyncEndgame, hon]
    subst hs'
    refine ⟨⟨handles, hpop, hs.reqs, hs.nodup, hs.flight, hs.sent, fun b hb => ?_,
      fun b hb hcb => ?_, fun b hb => (hnone hb).elim, fun b hb hcb => ?_⟩,
      .inl ⟨rfl, fun b => ?_⟩⟩
    · have hb : ((s.popEndgame a rest).base b).endgameQueued = true := hb
      change b ∈ handles ∧ (((s.popEndgame a rest).base b).closing = true ∨ _)
      rw [hbase] at hb ⊢
      split_ifs at hb ⊢
      exact hs.queued b hb
    · have hcb : ((s.popEndgame a rest).base b).closing = true := hcb
      change (s.asyncs b).asyncSent = true ∨ ((s.popEndgame a rest).base b).endgameQueued = true
      rw [hbase] at hcb ⊢
      split_ifs at hcb ⊢ with hba
      · exact .inl (hba ▸ hon)
      · exact hs.due b hb hcb
    · have hcb : ((s.popEndgame a rest).base b).closing = false := hcb
      change ((s.popEndgame a rest).base b).active = true
      rw [hbase] at hcb ⊢
      split_ifs at hcb ⊢
      · exact hs.active b hb hcb
      · exact hs.active b hb hcb
    · change (if ((s.popEndgame a rest).base b).ref = true then some (UvAsync.flags _
        ((s.popEndgame a rest).base b).closing ((s.popEndgame a rest).base b).closed) else none) = _
      rw [hbase, uvAsync]
      split_ifs <;> rfl

/-- Every step keeps what holds, and is a step of one handle at most. -/
theorem Sound.step (hs : s.Sound todo pending handles) (ho : s.Obliging l)
    (hstep : s.step l = some s') :
    (∃ todo' pending' handles', s'.Sound todo' pending' handles') ∧ s.Moves s' := by
  cases l with
  | init a cb =>
    rw [AsyncLoop.step] at hstep
    split_ifs at hstep
    rw [Option.some.injEq] at hstep
    subst hstep
    obtain ⟨h, hm⟩ := hs.asyncInit ho
    exact ⟨⟨_, _, _, h⟩, hm⟩
  | send a =>
    rw [AsyncLoop.step, Option.some.injEq] at hstep
    subst hstep
    obtain ⟨h, hm⟩ := hs.asyncSend ho
    exact ⟨⟨_, _, _, h⟩, hm⟩
  | close a cb =>
    rw [AsyncLoop.step] at hstep
    split_ifs at hstep with hin
    rw [Option.some.injEq] at hstep
    subst hstep
    obtain ⟨h, hm⟩ := hs.close hin ho
    exact ⟨⟨_, _, _, h⟩, hm⟩
  | post a =>
    rw [AsyncLoop.step] at hstep
    split_ifs at hstep with ha
    rw [Option.some.injEq] at hstep
    subst hstep
    exact ⟨⟨_, _, _, hs.postCompletion ha⟩, moves_of_same rfl rfl rfl⟩
  | closing =>
    obtain ⟨a, hin, rfl⟩ := Option.map_eq_some_iff.1 hstep
    obtain ⟨h, hm⟩ := hs.closing hin
    exact ⟨⟨_, _, _, h⟩, hm⟩
  | poll n =>
    rw [AsyncLoop.step] at hstep
    split_ifs at hstep
    rw [Option.some.injEq] at hstep
    subst hstep
    exact ⟨⟨_, _, _, hs.poll⟩, moves_of_same rfl rfl rfl⟩
  | beginPass =>
    rw [AsyncLoop.step] at hstep
    split_ifs at hstep with hp
    obtain ⟨⟨p, q⟩, hb, rfl⟩ := Option.map_eq_some_iff.1 hstep
    exact ⟨⟨_, _, _, hs.beginPass hp.2 hb⟩, moves_of_same rfl rfl rfl⟩
  | round =>
    rw [AsyncLoop.step] at hstep
    split_ifs at hstep with hin
    obtain ⟨p, hp, rfl⟩ := Option.map_eq_some_iff.1 hstep
    obtain ⟨⟨_, h⟩, hm⟩ := hs.processReq hin hp
    exact ⟨⟨_, _, _, h⟩, hm⟩
  | endgame =>
    rw [AsyncLoop.step] at hstep
    split_ifs at hstep with hin
    obtain ⟨⟨_, h⟩, hm⟩ := hs.processEndgame hin.1 hstep
    exact ⟨⟨_, _, _, h⟩, hm⟩

end Steps

/-- Every handle has behaved as `UvAsync` says. -/
def Traced (s : AsyncLoop) : Prop :=
  ∀ a, run UvAsync.event none (s.events a) = some (s.uvAsync a)

theorem Traced.move (ht : s.Traced) (hm : s.Moves s') : s'.Traced := by
  intro a
  rcases hm with ⟨htrace, hsame⟩ | ⟨e, htrace, hother, hevent⟩
  · rw [events, htrace, hsame]
    exact ht a
  · rw [events, htrace]
    exact run_filter_concat ht hother hevent a

theorem sound_init : init.Sound [] [] [] where
  table := HandleTable.sound_init
  reqs := ⟨TailQueue.queue_nil, fun p hp => by simp [init] at hp, fun _ => rfl, .nil⟩
  nodup := .nil
  flight a := by simp [inFlight, init]
  sent a ha := by simp [init] at ha
  queued a ha := by simp [init, HandleTable.init] at ha
  due a ha := by simp at ha
  inClose a ha := by simp [init] at ha
  active a ha := by simp at ha

theorem traced_init : init.Traced := fun _ => rfl

section Runs

variable {ls : List Label}

theorem sound_of_run (ho : Meets step Obliging init ls) (hr : run step init ls = some s) :
    (∃ todo pending handles, s.Sound todo pending handles) ∧ s.Traced :=
  invariant_of_meets
    (I := fun s : AsyncLoop => (∃ todo pending handles, s.Sound todo pending handles) ∧ s.Traced)
    (fun _ _ _ ⟨⟨_, _, _, hs⟩, ht⟩ ho hstep =>
      let ⟨hs', hm⟩ := hs.step ho hstep
      ⟨hs', ht.move hm⟩)
    ⟨⟨[], [], [], sound_init⟩, traced_init⟩ ho hr

/-- Whatever threads send and however that falls together with the loop, a request is in one place
at most, and in one exactly while the flag of its handle is set. So the queue of the loop is never
given a request that it has already, and no flag stays set without a wakeup to come. -/
theorem inFlight_of_run (ho : Meets step Obliging init ls) (hr : run step init ls = some s) :
    ∃ todo pending, s.reqs.Holds s.pass todo pending
      ∧ (s.posting ++ (s.iocp ++ (todo ++ pending))).Nodup
      ∧ ∀ a, a ∈ s.posting ++ (s.iocp ++ (todo ++ pending))
        ↔ (s.asyncs a).asyncSent = true := by
  obtain ⟨⟨todo, pending, handles, hs⟩, -⟩ := sound_of_run ho hr
  exact ⟨todo, pending, hs.reqs, hs.nodup, hs.flight⟩

/-- A thread sends twice before the loop polls, another while the callback of the first wakeup runs,
and the callback closes the handle. -/
def racyRun : List Label :=
  [.init 1 (some 7), .init 2 none, .send 1, .send 1, .post 1, .poll 1, .beginPass, .round, .send 1,
    .close 1 (some 9), .post 1, .closing, .round, .poll 1, .beginPass, .round]

theorem meets_racyRun : Meets step Obliging init racyRun := by decide

theorem isSome_racyRun : (run step init racyRun).isSome = true := by decide

/-- The loop after that, with the endgame of the handle to come. -/
def racyLoop : AsyncLoop := (run step init racyRun).get isSome_racyRun

theorem run_racyRun : run step init racyRun = some racyLoop := (Option.some_get _).symm

theorem inFlight_of_racyRun :
    ∃ todo pending, racyLoop.reqs.Holds racyLoop.pass todo pending
      ∧ (racyLoop.posting ++ (racyLoop.iocp ++ (todo ++ pending))).Nodup
      ∧ ∀ a, a ∈ racyLoop.posting ++ (racyLoop.iocp ++ (todo ++ pending))
        ↔ (racyLoop.asyncs a).asyncSent = true :=
  inFlight_of_run meets_racyRun run_racyRun

/-- Every handle behaves as the model of the looper has it: the flag, whether it is closing and
whether it is closed are what its events make of them, and each event is one that it can take. So it
is woken only after a send since the wakeup before, its flag is off only where a wakeup came after
the last send, it calls its callback only while it is not closing, and it is closed once, with no
request of it on its way. -/
theorem uvAsync_of_run (ho : Meets step Obliging init ls) (hr : run step init ls = some s) (a : ℕ) :
    run UvAsync.event none (s.events a) = some (s.uvAsync a) :=
  (sound_of_run ho hr).2 a

theorem uvAsync_of_racyRun :
    run UvAsync.event none (racyLoop.events 1) = some (racyLoop.uvAsync 1) :=
  uvAsync_of_run meets_racyRun run_racyRun 1

/-- The handle queue has the handles that are initialised and not closed. With fewer than the
counter can count the loop is alive exactly while there are any, and those that are closing wait for
a wakeup or for their endgame. -/
theorem alive_of_run (ho : Meets step Obliging init ls) (hr : run step init ls = some s) :
    ∃ handles, s.links.Ring handleQueueHead handles
      ∧ (∀ a, a ∈ handles ↔ (s.base a).ref = true ∧ (s.base a).closed = false)
      ∧ (∀ a ∈ handles, (s.base a).closing = true →
        (s.asyncs a).asyncSent = true ∨ a ∈ s.endgameHandles)
      ∧ (handles.length < 2 ^ 32 → (s.loopAlive = true ↔ handles ≠ [])) := by
  obtain ⟨⟨todo, pending, handles, hs⟩, -⟩ := sound_of_run ho hr
  refine ⟨handles, hs.table.ring, hs.table.mem, fun a ha hc => ?_, fun hlt => ?_⟩
  · rw [hs.table.queued]
    exact hs.due a ha hc
  · have hcounts : ∀ a ∈ handles, (s.base a).counts = true := by
      intro a ha
      rcases hc : (s.base a).closing with _ | _
      · simp [HandleBase.counts, hs.active a ha hc, ((hs.table.mem a).1 ha).1]
      · simp [HandleBase.counts, hc]
    rw [hs.table.alive hlt]
    constructor
    · rintro (⟨a, ha, -⟩ | ⟨a, ha⟩)
      · exact List.ne_nil_of_mem ha
      · exact List.ne_nil_of_mem (hs.queued a ha).1
    · intro hne
      obtain ⟨a, ha⟩ := List.exists_mem_of_ne_nil _ hne
      exact .inl ⟨a, ha, hcounts a ha⟩

theorem alive_of_racyRun :
    ∃ handles, racyLoop.links.Ring handleQueueHead handles
      ∧ (∀ a, a ∈ handles ↔ (racyLoop.base a).ref = true ∧ (racyLoop.base a).closed = false)
      ∧ (∀ a ∈ handles, (racyLoop.base a).closing = true →
        (racyLoop.asyncs a).asyncSent = true ∨ a ∈ racyLoop.endgameHandles)
      ∧ (handles.length < 2 ^ 32 → (racyLoop.loopAlive = true ↔ handles ≠ [])) :=
  alive_of_run meets_racyRun run_racyRun

end Runs

end AsyncLoop

end TestLibuv
