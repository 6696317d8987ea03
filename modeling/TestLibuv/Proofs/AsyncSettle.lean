import TestLibuv.Proofs.AsyncRuns

/-!
# Every send is answered

Left to itself, with no further calls of user code, the loop comes to an end of its work however the
steps of its thread and those of the senders fall together. By then every handle that was sent to
was woken once, and every handle that was closing is closed and had its close callback.
-/

namespace TestLibuv

open DList Runs

namespace AsyncLoop

/-- The handle is closing, or `uv_close` is at work on it. -/
def willClose (s : AsyncLoop) (a : ℕ) : Bool := (s.base a).closing || s.inClose = some a

/-- How many wakeups of the handle with this callback are to come. -/
def owedWakeup (s : AsyncLoop) (a : ℕ) (cb : Option ℕ) : ℕ :=
  if (s.asyncs a).asyncSent ∧ cb = (if s.willClose a then none else (s.asyncs a).asyncCb) then 1
  else 0

/-- How many close callbacks of the handle are to come. -/
def owedClose (s : AsyncLoop) (a : ℕ) (cb : Option ℕ) : ℕ :=
  if (s.base a).ref ∧ (s.base a).closed = false ∧ s.willClose a ∧ cb = (s.base a).closeCb then 1
  else 0

/-- What was to come came or still is to. -/
structure Answers (s s' : AsyncLoop) (es : List AsyncEvent) : Prop where
  trace : s'.trace = s.trace ++ es
  wakeup : ∀ a cb, s.owedWakeup a cb = es.count (.wakeup a cb) + s'.owedWakeup a cb
  close : ∀ a cb, s.owedClose a cb = es.count (.close a cb) + s'.owedClose a cb

/-- A bound on the steps until the work of the loop is done. -/
def work (s : AsyncLoop) (todo pending : List ℕ) : ℕ :=
  6 * s.posting.length + 5 * s.iocp.length + 4 * pending.length + 2 * todo.length
    + s.pass.toList.length + s.inClose.toList.length + s.endgameHandles.length

variable {s s' : AsyncLoop} {todo pending handles : List ℕ} {a b : ℕ} {l : Label}
  {es es' : List AsyncEvent}

theorem Answers.refl (s : AsyncLoop) : s.Answers s [] :=
  ⟨(List.append_nil _).symm, fun _ _ => (Nat.zero_add _).symm, fun _ _ => (Nat.zero_add _).symm⟩

theorem Answers.trans {t : AsyncLoop} (h : s.Answers s' es) (h' : s'.Answers t es') :
    s.Answers t (es ++ es') where
  trace := by rw [h'.trace, h.trace, List.append_assoc]
  wakeup a cb := by rw [h.wakeup, h'.wakeup, List.count_append, Nat.add_assoc]
  close a cb := by rw [h.close, h'.close, List.count_append, Nat.add_assoc]

theorem answers_of_same (htrace : s'.trace = s.trace)
    (htable : s'.toHandleTable = s.toHandleTable) (hasync : s'.asyncs = s.asyncs)
    (hclose : s'.inClose = s.inClose) : s.Answers s' [] where
  trace := by rw [htrace, List.append_nil]
  wakeup a cb := by simp [owedWakeup, willClose, htable, hasync, hclose]
  close a cb := by simp [owedClose, willClose, htable, hclose]

theorem count_event (e e' : AsyncEvent) : [e].count e' = if e' = e then 1 else 0 := by
  rw [List.count_singleton]
  exact if_congr (beq_iff_eq.trans eq_comm) rfl rfl

theorem answers_closing (hin : s.inClose = some a) :
    s.Answers (s.closing a) [.closing a] := by
  have hbase : ∀ b, (s.closing a).base b
      = if b = a then { s.base b with closing := true, active := false } else s.base b :=
    fun b => s.base_handleClosing a b
  have hwill : ∀ b, (s.closing a).willClose b = s.willClose b := by
    intro b
    have hnone : (s.closing a).inClose = none := rfl
    rw [willClose, willClose, hbase, hnone, hin]
    split_ifs with hb
    · simp [hb]
    · simp [Ne.symm hb]
  have hasync : (s.closing a).asyncs = s.asyncs := rfl
  refine ⟨rfl, fun b cb => ?_, fun b cb => ?_⟩
  · simp [owedWakeup, hwill, hasync]
  · rw [owedClose, owedClose, hwill, hbase]
    split_ifs <;> simp_all

theorem Sound.answers_wakeup {p : ReqsPass} (hs : s.Sound (a :: todo) pending handles)
    (hin : s.inClose = none) : s.Answers ({ s with pass := some p }.processAsyncWakeupReq a)
      [.wakeup a (if (s.base a).closing then none else (s.asyncs a).asyncCb)] := by
  obtain ⟨u, hu⟩ : ∃ u, { s with pass := some p }.processAsyncWakeupReq a = u := ⟨_, rfl⟩
  have hasync : ∀ b, u.asyncs b
      = if b = a then { s.asyncs b with asyncSent := false } else s.asyncs b :=
    fun b => hu ▸ asyncs_processAsyncWakeupReq
  have hbase : ∀ b, u.base b = if b = a then
      { s.base b with endgameQueued := (s.base b).endgameQueued || (s.base b).closing }
      else s.base b := fun b => hu ▸ base_processAsyncWakeupReq
  have htrace : u.trace = s.trace
      ++ [.wakeup a (if (s.base a).closing then none else (s.asyncs a).asyncCb)] :=
    hu ▸ trace_processAsyncWakeupReq
  have hclose : u.inClose = s.inClose :=
    hu ▸ (@rest_processAsyncWakeupReq _ todo pending a).2.2.1
  have hon : (s.asyncs a).asyncSent = true := (hs.flight a).1 (by simp [inFlight])
  have hwill : ∀ b, u.willClose b = s.willClose b := by
    intro b
    rw [willClose, willClose, hbase, hclose]
    split_ifs <;> rfl
  have hwa : s.willClose a = (s.base a).closing := by simp [willClose, hin]
  rw [hu]
  refine ⟨htrace, fun b cb => ?_, fun b cb => ?_⟩
  · rw [owedWakeup, owedWakeup, hwill, hasync, count_event]
    split_ifs <;> simp_all
  · rw [owedClose, owedClose, hwill, hbase, count_event]
    split_ifs <;> simp_all

/-- The endgame of a handle closes it, or leaves that to the wakeup that is on its way. -/
theorem Sound.answers_endgame (hs : s.Sound todo pending handles) (hin : s.inClose = none)
    (hstep : s.processEndgame = some s') : ∃ es, s.Answers s' es := by
  unfold AsyncLoop.processEndgame at hstep
  rcases hq : s.endgameHandles with _ | ⟨a, rest⟩
  · rw [hq] at hstep
    exact absurd hstep (by simp)
  rw [hq, Option.some.injEq] at hstep
  obtain ⟨ha, hc⟩ := hs.queued a ((hs.table.queued a).1 (hq ▸ List.mem_cons_self))
  have hc : (s.base a).closing = true := hc.resolve_right (by simp [hin])
  obtain ⟨hra, hcda⟩ := (hs.table.mem a).1 ha
  rcases hon : (s.asyncs a).asyncSent with _ | _
  · have hs' : s' = { s with
        toHandleTable := (s.popEndgame a rest).handleClose a
        trace := s.trace ++ [.close a (s.base a).closeCb] } := by
      rw [← hstep]
      simp [asyncEndgame, hc, hon, log]
    have hbase : ∀ b, s'.base b = if b = a then
        { s.base b with endgameQueued := false, closed := true } else s.base b := by
      intro b
      rw [hs']
      by_cases hb : b = a <;> simp [hb]
    have hasync : s'.asyncs = s.asyncs := by rw [hs']
    have hclose : s'.inClose = s.inClose := by rw [hs']
    have hwill : ∀ b, s'.willClose b = s.willClose b := by
      intro b
      rw [willClose, willClose, hbase, hclose]
      split_ifs <;> rfl
    have hwa : s.willClose a = true := by simp [willClose, hc]
    refine ⟨[.close a (s.base a).closeCb], by rw [hs'], fun b cb => ?_, fun b cb => ?_⟩
    · rw [owedWakeup, owedWakeup, hwill, hasync, count_event]
      simp
    · rw [owedClose, owedClose, hwill, hbase, count_event]
      by_cases hb : b = a
      · subst hb
        simp [hra, hcda, hwa]
      · simp [hb]
  · have hs' : s' = { s with toHandleTable := s.popEndgame a rest } := by
      rw [← hstep]
      simp [asyncEndgame, hon]
    have hbase : ∀ b, s'.base b
        = if b = a then { s.base b with endgameQueued := false } else s.base b :=
      fun b => hs' ▸ s.base_popEndgame a b
    have hwill : ∀ b, s'.willClose b = s.willClose b := by
      intro b
      rw [willClose, willClose, hbase, hs']
      split_ifs <;> rfl
    refine ⟨[], by rw [hs', List.append_nil], fun b cb => ?_, fun b cb => ?_⟩
    · rw [owedWakeup, owedWakeup, hwill, hs']
      simp
    · rw [owedClose, owedClose, hwill, hbase]
      split_ifs <;> simp_all

theorem work_processAsyncWakeupReq {p : ReqsPass} :
    ({ s with pass := some p }.processAsyncWakeupReq a).work todo pending
      ≤ 6 * s.posting.length + 5 * s.iocp.length + 4 * pending.length + 2 * todo.length + 1
        + s.inClose.toList.length + (s.endgameHandles.length + 1) := by
  rcases hc : (s.base a).closing with _ | _
  · simp [processAsyncWakeupReq, hc, setAsync, log, work]
  · have hle := HandleTable.length_wantEndgame s.toHandleTable a
    simp [processAsyncWakeupReq, hc, setAsync, log, work]
    omega

theorem work_asyncEndgame {t : HandleTable} :
    ({ s with toHandleTable := t }.asyncEndgame a).work todo pending
      = { s with toHandleTable := t }.work todo pending := by
  unfold asyncEndgame
  split_ifs <;> rfl

/-- A step of the loop or of a sender answers what it takes up, and leaves less to do. -/
theorem Sound.quiet (hs : s.Sound todo pending handles) (hl : l.isCall = false)
    (hstep : s.step l = some s') : ∃ todo' pending' handles' es,
      s'.Sound todo' pending' handles' ∧ s.Answers s' es
        ∧ s'.work todo' pending' < s.work todo pending := by
  cases l with
  | init a cb | send a | close a cb => simp [Label.isCall] at hl
  | post a =>
    rw [AsyncLoop.step] at hstep
    split_ifs at hstep with ha
    rw [Option.some.injEq] at hstep
    subst hstep
    refine ⟨_, _, _, [], hs.postCompletion ha, answers_of_same rfl rfl rfl rfl, ?_⟩
    have hlen := List.length_erase_add_one ha
    simp only [work, AsyncLoop.postCompletion, List.length_append, List.length_singleton]
    omega
  | closing =>
    obtain ⟨a, hin, rfl⟩ := Option.map_eq_some_iff.1 hstep
    refine ⟨_, _, _, _, (hs.closing hin).1, answers_closing hin, ?_⟩
    simp [work, AsyncLoop.closing, log, hin]
  | poll n =>
    rw [AsyncLoop.step] at hstep
    split_ifs at hstep with hn
    rw [Option.some.injEq] at hstep
    subst hstep
    refine ⟨_, _, _, [], hs.poll, answers_of_same rfl rfl rfl rfl, ?_⟩
    simp only [work, AsyncLoop.poll, List.length_append, List.length_take, List.length_drop]
    omega
  | beginPass =>
    rw [AsyncLoop.step] at hstep
    split_ifs at hstep with hp
    obtain ⟨⟨p, q⟩, hb, rfl⟩ := Option.map_eq_some_iff.1 hstep
    have hreqs := hs.reqs
    rw [hp.2] at hreqs
    have hne := List.length_pos_iff.2 (hreqs.beginPass hb).2
    refine ⟨_, _, _, [], hs.beginPass hp.2 hb, answers_of_same rfl rfl rfl rfl, ?_⟩
    simp only [work, hp.2, hreqs.idle rfl, Option.toList_some, Option.toList_none,
      List.length_singleton, List.length_nil]
    omega
  | round =>
    rw [AsyncLoop.step] at hstep
    split_ifs at hstep with hin
    obtain ⟨p, hp, rfl⟩ := Option.map_eq_some_iff.1 hstep
    have hreqs := hp ▸ hs.reqs
    have hround := hreqs.round
    unfold AsyncLoop.processReq
    rcases hr : p.round s.reqs with _ | ⟨x, p'⟩ <;> rw [hr] at hround
    · subst hround
      refine ⟨[], pending, handles, [], hs.of_perm rfl rfl rfl hreqs.endPass (.refl _),
        answers_of_same rfl rfl rfl rfl, ?_⟩
      simp [work, hp]
    · obtain ⟨rest, rfl, hreqs'⟩ := hround
      refine ⟨rest, pending, handles, _, (hs.wakeup hin hreqs').1, hs.answers_wakeup hin, ?_⟩
      refine work_processAsyncWakeupReq.trans_lt ?_
      simp only [work, hp, Option.toList_some, List.length_cons]
      omega
  | endgame =>
    rw [AsyncLoop.step] at hstep
    split_ifs at hstep with hin
    obtain ⟨⟨handles', hs'⟩, -⟩ := hs.processEndgame hin.1 hstep
    obtain ⟨es, hes⟩ := hs.answers_endgame hin.1 hstep
    refine ⟨todo, pending, handles', es, hs', hes, ?_⟩
    unfold AsyncLoop.processEndgame at hstep
    rcases hq : s.endgameHandles with _ | ⟨a, rest⟩
    · rw [hq] at hstep
      exact absurd hstep (by simp)
    rw [hq, Option.some.injEq] at hstep
    rw [← hstep, work_asyncEndgame]
    simp [work, HandleTable.popEndgame, hq]

/-- The run without calls answers what it comes to, and is no longer than the work it had. -/
theorem Sound.quiet_run : ∀ {ls : List Label} {s : AsyncLoop} {todo pending handles : List ℕ},
    s.Sound todo pending handles → (∀ l ∈ ls, l.isCall = false) →
    run AsyncLoop.step s ls = some s' → ∃ todo' pending' handles' es,
      s'.Sound todo' pending' handles' ∧ s.Answers s' es
        ∧ ls.length + s'.work todo' pending' ≤ s.work todo pending
  | [], s, todo, pending, handles, hs, _, hr => by
    rw [run_nil, Option.some.injEq] at hr
    subst hr
    exact ⟨todo, pending, handles, [], hs, .refl s, by simp⟩
  | l :: ls, s, todo, pending, handles, hs, hl, hr => by
    obtain ⟨t, ht, hr⟩ := run_cons_eq_some.1 hr
    obtain ⟨hl, hls⟩ := List.forall_mem_cons.1 hl
    obtain ⟨_, _, _, es, hst, hes, hlt⟩ := hs.quiet hl ht
    obtain ⟨todo', pending', handles', es', hs', hes', hle⟩ := hst.quiet_run hls hr
    refine ⟨todo', pending', handles', es ++ es', hs', hes.trans hes', ?_⟩
    rw [List.length_cons]
    omega

/-- Where neither the loop nor a sender can go on, nothing is left to do. -/
theorem Sound.idle_of_stuck (hs : s.Sound todo pending handles)
    (hstuck : ∀ l : Label, l.isCall = false → s.step l = none) :
    s.inClose = none ∧ s.pass = none ∧ s.inFlight todo pending = [] ∧ s.endgameHandles = [] := by
  have hin : s.inClose = none := by
    simpa [AsyncLoop.step] using hstuck .closing rfl
  have hpass : s.pass = none := by
    simpa [AsyncLoop.step, hin] using hstuck .round rfl
  have hposting : s.posting = [] := by
    rcases hp : s.posting with _ | ⟨a, as⟩
    · rfl
    · simpa [AsyncLoop.step, hp] using hstuck (.post a) rfl
  have hiocp : s.iocp = [] := by
    rcases hi : s.iocp with _ | ⟨a, as⟩
    · rfl
    · simpa [AsyncLoop.step, hi, hin, hpass] using hstuck (.poll 1) rfl
  have hpending : pending = [] := by
    have := hstuck .beginPass rfl
    rw [AsyncLoop.step, if_pos ⟨hin, hpass⟩, Option.map_eq_none_iff] at this
    exact hs.reqs.beginPass_eq_none.1 this
  have hends : s.endgameHandles = [] := by
    rcases he : s.endgameHandles with _ | ⟨a, as⟩
    · rfl
    · simpa [AsyncLoop.step, hin, hpass, AsyncLoop.processEndgame, he] using hstuck .endgame rfl
  exact ⟨hin, hpass, by simp [inFlight, hposting, hiocp, hpending, hs.reqs.idle hpass], hends⟩

/-- Once user code makes no more calls the steps of the loop and of the senders come to an end, in
whatever order they are taken. Where they have, no request is on its way and every closing handle is
closed; and meanwhile each handle that had been sent to was woken once, with its callback unless it
was closing, and each that was closing had its close callback once. -/
theorem settles_of_run {ls : List Label} (ho : Meets step Obliging init ls)
    (hr : run step init ls = some s) :
    ∃ n, ∀ ls' s', (∀ l ∈ ls', l.isCall = false) → run step s ls' = some s' →
      ls'.length ≤ n ∧ ((∀ l : Label, l.isCall = false → s'.step l = none) →
        (∀ a, (s'.asyncs a).asyncSent = false)
        ∧ (∀ a, (s'.base a).closing = true → (s'.base a).closed = true)
        ∧ ∃ es, s'.trace = s.trace ++ es
          ∧ (∀ a cb, es.count (.wakeup a cb) = s.owedWakeup a cb)
          ∧ ∀ a cb, es.count (.close a cb) = s.owedClose a cb) := by
  obtain ⟨⟨todo, pending, handles, hs⟩, -⟩ := sound_of_run ho hr
  refine ⟨s.work todo pending, fun ls' s' hls hr' => ?_⟩
  obtain ⟨todo', pending', handles', es, hs', hes, hle⟩ := hs.quiet_run hls hr'
  refine ⟨by omega, fun hstuck => ?_⟩
  obtain ⟨hin, -, hflight, hends⟩ := hs'.idle_of_stuck hstuck
  have hsent : ∀ a, (s'.asyncs a).asyncSent = false := by
    intro a
    rw [Bool.eq_false_iff, Ne, ← hs'.flight, hflight]
    exact List.not_mem_nil
  have hclosed : ∀ a, (s'.base a).closing = true → (s'.base a).closed = true := by
    intro a hc
    rcases hcd : (s'.base a).closed with _ | _
    · have ha := (hs'.table.mem a).2 ⟨(hs'.table.closing a hc).1, hcd⟩
      rcases hs'.due a ha hc with h | h
      · rw [hsent a] at h
        exact absurd h (by simp)
      · rw [← hs'.table.queued, hends] at h
        exact absurd h List.not_mem_nil
    · rfl
  refine ⟨hsent, hclosed, es, hes.trace, fun a cb => ?_, fun a cb => ?_⟩
  · have hnone : s'.owedWakeup a cb = 0 := by simp [owedWakeup, hsent a]
    rw [hes.wakeup, hnone, Nat.add_zero]
  · have hnone : s'.owedClose a cb = 0 := by
      rw [owedClose, if_neg]
      rintro ⟨-, hcd, hw, -⟩
      rw [willClose, hin, Bool.or_eq_true] at hw
      rw [hclosed a (hw.resolve_right (by simp))] at hcd
      exact absurd hcd (by simp)
    rw [hes.close, hnone, Nat.add_zero]

theorem settles_of_racyRun :
    ∃ n, ∀ ls' s', (∀ l ∈ ls', l.isCall = false) → run step racyLoop ls' = some s' →
      ls'.length ≤ n ∧ ((∀ l : Label, l.isCall = false → s'.step l = none) →
        (∀ a, (s'.asyncs a).asyncSent = false)
        ∧ (∀ a, (s'.base a).closing = true → (s'.base a).closed = true)
        ∧ ∃ es, s'.trace = racyLoop.trace ++ es
          ∧ (∀ a cb, es.count (.wakeup a cb) = racyLoop.owedWakeup a cb)
          ∧ ∀ a cb, es.count (.close a cb) = racyLoop.owedClose a cb) :=
  settles_of_run meets_racyRun run_racyRun

end AsyncLoop

end TestLibuv
