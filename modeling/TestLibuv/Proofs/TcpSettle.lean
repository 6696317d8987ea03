import TestLibuv.Proofs.TcpRuns

/-!
# A loop whose handles are closing comes to an end

Once every TCP handle is closing and user code calls nothing more, the loop comes to an end of its
work, whatever order its steps are taken in. By then the system has no request, each request that
user code gave was called back once, and each handle is closed and had its close callback once.
-/

namespace TestLibuv

open Runs

namespace TcpLoop

variable {s s' : TcpLoop} {todo pending handles : List ℕ} {a b req : ℕ} {l : Label}
  {es es' : List TcpEvent} {t u : HandleTable}

/-- Every handle is closing, or closed. -/
def Closing (s : TcpLoop) : Prop := ∀ a, (s.base a).ref = true → (s.base a).closing = true

/-- How many close callbacks of the handle are to come. -/
def owedClose (s : TcpLoop) (a : ℕ) (cb : Option ℕ) : ℕ :=
  if (s.base a).ref ∧ (s.base a).closing ∧ (s.base a).closed = false ∧ cb = (s.base a).closeCb
    then 1
  else 0

/-- What was to come came or still is to. -/
structure Answers (s s' : TcpLoop) (es : List TcpEvent) : Prop where
  trace : s'.trace = s.trace ++ es
  taken : es.filterMap TcpEvent.taken = []
  closing : s.Closing → s'.Closing
  close : ∀ a cb, s.owedClose a cb = es.count (.close a cb) + s'.owedClose a cb

/-- A bound on the steps until the work of the loop is done. -/
def left (s : TcpLoop) (todo pending : List ℕ) : ℕ :=
  7 * s.kernel.length + 6 * pending.length + 4 * todo.length + s.pass.toList.length
    + 2 * s.work.toList.length + 2 * s.busy.length + s.endgameHandles.length

theorem Answers.refl (s : TcpLoop) : s.Answers s [] :=
  ⟨(List.append_nil _).symm, rfl, id, fun _ _ => (Nat.zero_add _).symm⟩

theorem Answers.trans {s'' : TcpLoop} (h : s.Answers s' es) (h' : s'.Answers s'' es') :
    s.Answers s'' (es ++ es') where
  trace := by rw [h'.trace, h.trace, List.append_assoc]
  taken := by rw [List.filterMap_append, h.taken, h'.taken, List.append_nil]
  closing := h'.closing ∘ h.closing
  close a cb := by rw [h.close, h'.close, List.count_append, Nat.add_assoc]

/-- No handle is closed, and none is changed in what its closing depends on. -/
def Keeps (t u : HandleTable) : Prop := ∀ a, (u.base a).ref = (t.base a).ref
  ∧ (u.base a).closing = (t.base a).closing ∧ (u.base a).closed = (t.base a).closed
  ∧ (u.base a).closeCb = (t.base a).closeCb

theorem keeps_popEndgame {rest : List ℕ} : Keeps t (t.popEndgame a rest) := by
  intro b
  by_cases hb : b = a <;> simp [hb]

theorem keeps_stopped : Keeps s.toHandleTable (s.stopped a) := by
  intro b
  by_cases hb : b = a
  · subst hb
    rw [base_stopped]
    exact ⟨rfl, rfl, rfl, rfl⟩
  · rw [base_stopped_ne hb]
    exact ⟨rfl, rfl, rfl, rfl⟩

theorem keeps_released : Keeps s.toHandleTable (s.released a) := by
  intro b
  by_cases hb : b = a
  · subst hb
    rw [base_released]
    exact ⟨rfl, rfl, rfl, rfl⟩
  · rw [base_released_ne hb]
    exact ⟨rfl, rfl, rfl, rfl⟩

theorem keeps_writtenTable : Keeps s.toHandleTable (s.writtenTable a) := by
  intro b
  rw [base_writtenTable]
  split_ifs <;> exact ⟨rfl, rfl, rfl, rfl⟩

theorem Keeps.trans {v : HandleTable} (h : Keeps t u) (h' : Keeps u v) : Keeps t v := by
  intro a
  obtain ⟨h₁, h₂, h₃, h₄⟩ := h a
  obtain ⟨h₁', h₂', h₃', h₄'⟩ := h' a
  exact ⟨h₁'.trans h₁, h₂'.trans h₂, h₃'.trans h₃, h₄'.trans h₄⟩

theorem Keeps.answers (hk : Keeps s.toHandleTable s'.toHandleTable)
    (htrace : s'.trace = s.trace ++ es) (htaken : es.filterMap TcpEvent.taken = [])
    (hclose : ∀ a cb, .close a cb ∉ es) : s.Answers s' es where
  trace := htrace
  taken := htaken
  closing hc a hr := by
    rw [(hk a).1] at hr
    rw [(hk a).2.1]
    exact hc a hr
  close a cb := by
    obtain ⟨h₁, h₂, h₃, h₄⟩ := hk a
    rw [List.count_eq_zero.2 (hclose a cb), Nat.zero_add, owedClose, owedClose, h₁, h₂, h₃, h₄]

theorem endgameHandles_stopped : (s.stopped a).endgameHandles = s.endgameHandles := by
  unfold stopped
  split_ifs
  · exact HandleTable.endgameHandles_handleStop _ _
  · rfl

theorem length_released : (s.released a).endgameHandles.length ≤ s.endgameHandles.length + 1 := by
  unfold released
  split_ifs
  · exact HandleTable.length_wantEndgame _ _
  · omega

/-- A handle comes into the list once. -/
theorem length_writtenTable :
    (s.writtenTable a).endgameHandles.length ≤ s.endgameHandles.length + 1 := by
  have hle := HandleTable.length_wantEndgame s.toHandleTable a
  have htwice : ((s.wantEndgame a).wantEndgame a).endgameHandles
      = (s.wantEndgame a).endgameHandles := by
    rw [HandleTable.endgameHandles_wantEndgame, if_pos (by simp)]
  unfold writtenTable
  dsimp only
  split_ifs
  · rw [htwice]
    exact hle
  · exact hle
  · exact hle
  · omega

/-! ## One step -/

theorem Sound.not_reading (hs : s.Sound todo pending handles) (hc : s.Closing) (ha : a ∈ handles) :
    (s.tcps a).reading = false := by
  rw [Bool.eq_false_iff]
  intro hon
  have hopen : (s.base a).closing = false := ((hs.ok a ha).reading hon).1
  rw [hc a ((hs.table.mem a).1 ha).1] at hopen
  exact absurd hopen (by simp)

theorem poll_frame : ∀ {done : List (ℕ × ℤ)} {s : TcpLoop}, (done.map Prod.fst).Nodup →
    (∀ c ∈ done, c.1 ∈ s.kernel) → (s.poll done).toHandleTable = s.toHandleTable
      ∧ (s.poll done).trace = s.trace ∧ (s.poll done).work = s.work ∧ (s.poll done).pass = s.pass
      ∧ (s.poll done).busy = s.busy
      ∧ (s.poll done).kernel.length + done.length = s.kernel.length
  | [], _, _, _ => ⟨rfl, rfl, rfl, rfl, rfl, rfl⟩
  | c :: done, s, hnodup, hmem => by
    rw [List.map_cons, List.nodup_cons] at hnodup
    have hrest : ∀ d ∈ done, d.1 ∈ (s.complete c).kernel := by
      intro d hd
      have hne : d.1 ≠ c.1 := fun he => hnodup.1 (he ▸ List.mem_map_of_mem hd)
      exact (List.mem_erase_of_ne hne).2 (hmem d (List.mem_cons_of_mem _ hd))
    obtain ⟨h₁, h₂, h₃, h₄, h₅, h₆⟩ := poll_frame hnodup.2 hrest
    refine ⟨h₁, h₂, h₃, h₄, h₅, ?_⟩
    have hlen : (s.complete c).kernel.length + 1 = s.kernel.length :=
      List.length_erase_add_one (hmem c List.mem_cons_self)
    rw [List.length_cons, ← hlen, ← h₆]
    exact (Nat.add_assoc _ _ _).symm

theorem Sound.quiet_round {p : ReqsPass} (hs : s.Sound todo pending handles) (hc : s.Closing)
    (hidle : s.work = none) (hp : s.pass = some p) (res : ℤ) : ∃ todo' es,
      (s.processReq p res).Sound todo' pending handles ∧ s.Answers (s.processReq p res) es
        ∧ (s.processReq p res).left todo' pending < s.left todo pending := by
  have hround := (hp ▸ hs.census.reqs).round
  unfold TcpLoop.processReq
  rcases hr : p.round s.reqs with _ | ⟨req, p'⟩ <;> rw [hr] at hround
  · subst hround
    have hreqs : s.reqs.Holds (some p) [] pending := hp ▸ hs.census.reqs
    have hend : ({ s with pass := none } : TcpLoop).Sound [] pending handles ∧ _ :=
      hs.same rfl rfl rfl rfl rfl rfl hreqs.endPass (.refl _) (.of_eq rfl hs.census.status)
    refine ⟨[], [], hend.1, Keeps.answers (fun a => ⟨rfl, rfl, rfl, rfl⟩) (List.append_nil _).symm rfl
      (by simp), ?_⟩
    simp [left, hp]
  obtain ⟨rest, rfl, hreqs⟩ := hround
  obtain ⟨-, hno, hread⟩ := hs.head
  have hbusy : (s.reqOf req).type ≠ .read → (s.busy.erase req).length + 1 = s.busy.length :=
    fun ht => List.length_erase_add_one (hread.resolve_right fun h => ht h.2.1)
  dsimp only
  rcases ht : (s.reqOf req).type with _ | _ | _ | _
  · obtain ⟨hs', -⟩ := hs.connected hidle hreqs ht res
    have hlen := hbusy (by simp [ht])
    refine ⟨rest, _, hs', Keeps.answers ?_ (by rw [processTcpConnectReq_eq]) rfl (by simp), ?_⟩
    · rw [processTcpConnectReq_eq]
      exact keeps_stopped (s := { s with pass := some p' })
    · rw [processTcpConnectReq_eq]
      simp only [left, hidle, hp, endgameHandles_stopped, Option.toList_some, Option.toList_none,
        List.length_cons, List.length_nil]
      omega
  · have hnot : req ∉ s.busy := fun hb => (hs.census.user req hb).2.2 ht
    obtain ⟨hin, -, hh⟩ := hread.resolve_left hnot
    have hoff := hs.not_reading hc hin
    rw [hh]
    obtain ⟨hs', -⟩ := hs.readReq hin hidle hreqs
    by_cases hst : (s.reqOf req).status = 0
    · have heq := processTcpReadReq_of_ok (s := { s with pass := some p' }) (a := req) hst
      refine ⟨rest, [], hs', Keeps.answers (fun a => ?_) ?_ rfl (by simp), ?_⟩
      · rw [heq]
        exact ⟨rfl, rfl, rfl, rfl⟩
      · rw [heq, List.append_nil]
      · rw [heq]
        simp only [left, hidle, hp, Option.toList_some, Option.toList_none, List.length_cons,
          List.length_nil]
        omega
    · have heq := processTcpReadReq_of_idle (s := { s with pass := some p' }) (a := req) hst hoff
      have hle := length_released (s := { s with pass := some p' }) (a := req)
      refine ⟨rest, [], hs', Keeps.answers ?_ ?_ rfl (by simp), ?_⟩
      · rw [heq]
        exact keeps_released (s := { s with pass := some p' })
      · rw [heq, List.append_nil]
      · rw [heq]
        simp only [left, hidle, hp, Option.toList_some, Option.toList_none, List.length_cons,
          List.length_nil] at hle ⊢
        omega
  · obtain ⟨hs', -⟩ := hs.written hidle hreqs ht
    have hlen := hbusy (by simp [ht])
    refine ⟨rest, _, hs', Keeps.answers ?_ (by rw [processTcpWriteReq_eq]) rfl (by simp), ?_⟩
    · rw [processTcpWriteReq_eq]
      exact keeps_stopped (s := { s with pass := some p' })
    · rw [processTcpWriteReq_eq]
      simp only [left, hidle, hp, endgameHandles_stopped, Option.toList_some, Option.toList_none,
        List.length_cons, List.length_nil]
      omega
  · exact absurd ht hno

theorem Sound.quiet_proceed {w : TcpWork} (hs : s.Sound todo pending handles) (hc : s.Closing)
    (hw : s.work = some w) (r : Submit) : (s.proceed r w).Sound todo pending handles
      ∧ s.Answers (s.proceed r w) [] ∧ (s.proceed r w).left todo pending < s.left todo pending := by
  have hoff := hs.not_reading hc (hs.work w hw)
  refine ⟨(hs.behind hw (fun _ => hoff) r).1, ?_⟩
  -- the endgame of the handle may become due
  have hdone : ∀ {u : TcpLoop} {t : HandleTable} {f : ℕ → TcpHandle},
      u = { s with toHandleTable := t, tcps := f, work := none } → Keeps s.toHandleTable t →
      t.endgameHandles.length ≤ s.endgameHandles.length + 1 →
      s.Answers u [] ∧ u.left todo pending < s.left todo pending := by
    rintro u t f rfl hk hle
    refine ⟨Keeps.answers hk (List.append_nil _).symm rfl (by simp), ?_⟩
    simp only [left, hw, Option.toList_some, Option.toList_none, List.length_cons, List.length_nil]
    omega
  cases w with
  | done a => exact hdone (proceed_done s a r) keeps_released length_released
  | read a again =>
    exact hdone ((proceed_read hoff r).trans (proceed_done s a r)) keeps_released length_released
  | write a => exact hdone (proceed_write s a r) keeps_writtenTable length_writtenTable
  | shutdown a => exact hdone (proceed_shutdown s a r) keeps_released length_released

theorem Sound.quiet_endgame {res : ℤ} (hs : s.Sound todo pending handles) (hidle : s.work = none)
    (hstep : s.processEndgame res = some s') : ∃ handles' es, s'.Sound todo pending handles'
      ∧ s.Answers s' es ∧ s'.left todo pending < s.left todo pending := by
  unfold TcpLoop.processEndgame at hstep
  rcases hq : s.endgameHandles with _ | ⟨a, rest⟩
  · rw [hq] at hstep
    exact absurd hstep (by simp)
  rw [hq, Option.some.injEq] at hstep
  have ha : a ∈ handles := hs.queued a ((hs.table.queued a).1 (hq ▸ List.mem_cons_self))
  have hok := hs.ok a ha
  by_cases hsh : (s.tcps a).shutdownReq.isSome = true ∧ (s.tcps a).writeReqsPending = 0
  · obtain ⟨req, hr⟩ := Option.isSome_iff_exists.1 hsh.1
    obtain ⟨hs', -⟩ := hs.shutDown hidle hq hr hsh.2 res
    have hc : (s.tcps a).connection = true := hok.shutdownReq hsh.1
    have hone : s.own a .shutdown = [req] :=
      (hok.shutDown (by simp [view, hidle]) hr hsh.2 a 0).2.1
    have hlen : (s.busy.erase req).length + 1 = s.busy.length :=
      List.length_erase_add_one (mem_own.1 (hone ▸ List.mem_singleton_self req)).1
    have heq := (tcpEndgame_of_shutdown (s := { s with toHandleTable := s.popEndgame a rest }) hr
      ⟨hc, hsh.2⟩ res).symm.trans hstep
    rw [hstep] at hs'
    refine ⟨handles, _, hs', Keeps.answers ?_ (by rw [← heq]) rfl (by simp), ?_⟩
    · rw [← heq]
      exact keeps_popEndgame.trans keeps_stopped
    · rw [← heq]
      simp only [left, hidle, hq, endgameHandles_stopped, HandleTable.popEndgame,
        Option.toList_some, Option.toList_none, List.length_cons, List.length_nil]
      omega
  have hends := (tcpEndgame_of_not (s := { s with toHandleTable := s.popEndgame a rest }) (a := a)
    (fun h hz => hsh ⟨h, hz⟩) res).symm.trans hstep
  rw [← hends, tcpEnds]
  have hclosing : ((s.popEndgame a rest).base a).closing = (s.base a).closing := by simp
  have hcb : ((s.popEndgame a rest).base a).closeCb = (s.base a).closeCb := by simp
  rw [hclosing]
  split_ifs with hcl
  · rw [hcb]
    refine ⟨_, _, (hs.closed hidle hq hcl.1 hcl.2 rfl).1, ⟨rfl, rfl, fun hc b hb => ?_,
      fun b cb => ?_⟩, ?_⟩
    · by_cases hba : b = a
      · simp [log, hba, hcl.1]
      · simp [log, hba] at hb ⊢
        exact hc b hb
    · obtain ⟨href, hopen⟩ := (hs.table.mem a).1 ha
      rw [List.count_singleton]
      by_cases hba : b = a
      · subst hba
        by_cases hcb' : cb = (s.base b).closeCb
        · simp [owedClose, log, href, hopen, hcl.1, hcb']
        · simp [owedClose, log, hcb', Ne.symm hcb']
      · simp [owedClose, log, hba, Ne.symm hba]
    · simp [left, hq, log, HandleTable.popEndgame, HandleTable.handleClose, HandleTable.setBase,
        HandleTable.activeHandleRm]
  · refine ⟨handles, [], (hs.popEndgame hidle hq hcl fun h hz => hsh ⟨h, hz⟩).1,
      Keeps.answers keeps_popEndgame (List.append_nil _).symm rfl (by simp), ?_⟩
    simp [left, hq, HandleTable.popEndgame]

/-- A step of the loop answers what it takes up, and leaves less to do. -/
theorem Sound.quiet (hs : s.Sound todo pending handles) (hc : s.Closing) (hl : l.isCall = false)
    (hstep : s.step l = some s') : ∃ todo' pending' handles' es,
      s'.Sound todo' pending' handles' ∧ s.Answers s' es
        ∧ s'.left todo' pending' < s.left todo pending := by
  rw [TcpLoop.step] at hstep
  split_ifs at hstep with hp
  cases l with
  | init a | connect a req r | accept a | readStart a r | write a req r | shutdown a req
  | close a cb => simp [Label.isCall] at hl
  | poll done =>
    rw [TcpLoop.act] at hstep
    split_ifs at hstep with hd
    rw [Option.some.injEq] at hstep
    subst hstep
    obtain ⟨-, -, hpos, -, hnodup, hmem⟩ := hd
    obtain ⟨htable, htrace, hwork, hpass, hbusy, hkernel⟩ := poll_frame hnodup hmem
    refine ⟨_, _, _, [], (hs.poll hnodup hmem hp).1, ?_, ?_⟩
    · exact Keeps.answers (fun a => by simp [htable]) (by simp [htrace]) rfl (by simp)
    · rw [left, left, htable, hwork, hpass, hbusy, List.length_append, List.length_map]
      omega
  | beginPass =>
    rw [TcpLoop.act] at hstep
    split_ifs at hstep with hd
    obtain ⟨⟨p, q⟩, hb, rfl⟩ := Option.map_eq_some_iff.1 hstep
    have hreqs := hs.census.reqs
    rw [hd.2] at hreqs
    have hne := List.length_pos_iff.2 (hreqs.beginPass hb).2
    refine ⟨_, _, _, [], (hs.beginPass hd.2 hb).1,
      Keeps.answers (fun a => ⟨rfl, rfl, rfl, rfl⟩) (List.append_nil _).symm rfl (by simp), ?_⟩
    simp only [left, hd.2, hreqs.idle rfl, Option.toList_some, Option.toList_none,
      List.length_singleton, List.length_nil]
    omega
  | round res =>
    rw [TcpLoop.act] at hstep
    split_ifs at hstep with hidle
    obtain ⟨p, hpass, rfl⟩ := Option.map_eq_some_iff.1 hstep
    obtain ⟨todo', es, h⟩ := hs.quiet_round hc hidle hpass res
    exact ⟨todo', pending, handles, es, h⟩
  | recv r =>
    rw [TcpLoop.act] at hstep
    rcases hw : s.work with _ | (b | ⟨b, again⟩ | b | b) <;> rw [hw] at hstep <;>
      simp only [reduceCtorEq] at hstep
    split_ifs at hstep with hread
    have hoff := hs.not_reading hc (hs.work _ hw)
    have hon : (s.tcps b).reading = true := (Bool.and_eq_true_iff.1 hread).2
    rw [show (s.tcps b).reading = false from hoff] at hon
    exact absurd hon (by simp)
  | proceed r =>
    obtain ⟨w, hw, hstep⟩ := Option.bind_eq_some_iff.1 hstep
    split_ifs at hstep
    rw [Option.some.injEq] at hstep
    exact hstep ▸ ⟨todo, pending, handles, [], hs.quiet_proceed hc hw r⟩
  | endgame res =>
    rw [TcpLoop.act] at hstep
    split_ifs at hstep with hidle
    obtain ⟨handles', es, h⟩ := hs.quiet_endgame hidle.1 hstep
    exact ⟨todo, pending, handles', es, h⟩

/-! ## Whole runs -/

/-- The run without calls answers what it comes to, and is no longer than the work it had. -/
theorem Sound.quiet_run : ∀ {ls : List Label} {s : TcpLoop} {todo pending handles : List ℕ},
    s.Sound todo pending handles → s.Closing → (∀ l ∈ ls, l.isCall = false) →
    run TcpLoop.step s ls = some s' → ∃ todo' pending' handles' es,
      s'.Sound todo' pending' handles' ∧ s.Answers s' es
        ∧ ls.length + s'.left todo' pending' ≤ s.left todo pending
  | [], s, todo, pending, handles, hs, _, _, hr => by
    rw [run_nil, Option.some.injEq] at hr
    subst hr
    exact ⟨todo, pending, handles, [], hs, .refl s, by simp⟩
  | l :: ls, s, todo, pending, handles, hs, hc, hl, hr => by
    obtain ⟨t, ht, hr⟩ := run_cons_eq_some.1 hr
    obtain ⟨hl, hls⟩ := List.forall_mem_cons.1 hl
    obtain ⟨_, _, _, es, hst, hes, hlt⟩ := hs.quiet hc hl ht
    obtain ⟨todo', pending', handles', es', hs', hes', hle⟩ :=
      hst.quiet_run (hes.closing hc) hls hr
    refine ⟨todo', pending', handles', es ++ es', hs', hes.trans hes', ?_⟩
    rw [List.length_cons]
    omega

/-- Where the loop cannot go on, nothing is left to do. -/
theorem Sound.idle_of_stuck (hs : s.Sound todo pending handles) (hc : s.Closing)
    (hstuck : ∀ l : Label, l.isCall = false → s.step l = none) :
    s.work = none ∧ s.kernel = [] ∧ s.flight todo pending = [] ∧ s.endgameHandles = [] := by
  have hwork : s.work = none := by
    rcases hw : s.work with _ | w
    · rfl
    · have hoff := hs.not_reading hc (hs.work w hw)
      have hreads : s.reads w = false := by
        cases w with
        | read a again => exact Bool.and_eq_false_iff.2 (.inr hoff)
        | done a | write a | shutdown a => rfl
      simpa [TcpLoop.step, TcpLoop.act, Label.proper, Submit.proper, hw, hreads]
        using hstuck (.proceed .queued) rfl
  have hpass : s.pass = none := by
    simpa [TcpLoop.step, TcpLoop.act, Label.proper, hwork] using hstuck (.round 0) rfl
  have hkernel : s.kernel = [] := by
    rcases hk : s.kernel with _ | ⟨a, as⟩
    · rfl
    · simpa [TcpLoop.step, TcpLoop.act, Label.proper, hwork, hpass, hk]
        using hstuck (.poll [(a, 0)]) rfl
  have hpending : pending = [] := by
    have := hstuck .beginPass rfl
    simp only [TcpLoop.step, TcpLoop.act, Label.proper, if_true, hwork, hpass, and_self,
      Option.map_eq_none_iff] at this
    exact hs.census.reqs.beginPass_eq_none.1 this
  have hends : s.endgameHandles = [] := by
    rcases he : s.endgameHandles with _ | ⟨a, as⟩
    · rfl
    · simpa [TcpLoop.step, TcpLoop.act, Label.proper, hwork, hpass, TcpLoop.processEndgame, he]
        using hstuck (.endgame 0) rfl
  exact ⟨hwork, hkernel, by simp [flight, hkernel, hpending, hs.census.reqs.idle hpass], hends⟩

/-- With nothing left to do no handle is left. -/
theorem Sound.handles_of_idle (hs : s.Sound todo pending handles) (hc : s.Closing)
    (hwork : s.work = none) (hflight : s.flight todo pending = []) (hends : s.endgameHandles = []) :
    handles = [] := by
  rw [List.eq_nil_iff_forall_not_mem]
  intro a ha
  have hok := hs.ok a ha
  have hqueued : (s.base a).endgameQueued ≠ true := by
    intro hq
    rw [← hs.table.queued, hends] at hq
    exact List.not_mem_nil hq
  have hown : ∀ t, t ≠ .shutdown → s.own a t = [] := by
    intro t ht
    rw [List.eq_nil_iff_forall_not_mem]
    intro r hr
    obtain ⟨hb, -, htype⟩ := mem_own.1 hr
    have hin := (hs.census.under r hb).2 (htype ▸ ht)
    rw [hflight] at hin
    exact List.not_mem_nil hin
  have hnone : (s.view (s.flight todo pending) a).work = none := by simp [view, hwork]
  have hwrites : (s.tcps a).writeReqsPending = 0 := by
    have := hok.writeReqsPending
    rw [hnone] at this
    simpa [view, hown] using this
  have hsh : (s.tcps a).shutdownReq = none := by
    rw [← Option.not_isSome_iff_eq_none]
    exact fun h => hqueued (hok.dueShutdown h (by simp [hnone]) hwrites)
  have hshutdowns : s.own a .shutdown = [] := by
    have hshut := hok.shutdowns
    rw [hnone] at hshut
    simpa [view, hsh] using hshut
  have hpend := hok.reqsPending
  rw [hnone] at hpend
  have hz : (s.tcps a).reqsPending = 0 := by
    simpa [view, TcpView.count, hown, hshutdowns, hflight] using hpend
  exact hqueued (hok.due (hc a ((hs.table.mem a).1 ha).1) hz)

/-- Once every handle is closing and user code makes no more calls the steps of the loop come to an
end, in whatever order they are taken. Where they have, the loop is not alive, the system has no
request, and every handle is closed; and meanwhile each request that waited was called back once,
and each handle that was not closed had its close callback once. -/
theorem closes_of_run {ls : List Label} (ho : Meets step Obliging init ls)
    (hr : run step init ls = some s) (hc : s.Closing) :
    ∃ n, ∀ ls' s', (∀ l ∈ ls', l.isCall = false) → run step s ls' = some s' →
      ls'.length ≤ n ∧ ((∀ l : Label, l.isCall = false → s'.step l = none) →
        s'.loopAlive = false ∧ s'.kernel = []
        ∧ (∀ a, (s'.base a).ref = true → (s'.base a).closed = true)
        ∧ ∃ es, s'.trace = s.trace ++ es
          ∧ (es.filterMap TcpEvent.calledBack).Perm s.busy
          ∧ ∀ a cb, es.count (.close a cb) = s.owedClose a cb) := by
  obtain ⟨⟨todo, pending, handles, hs⟩, -⟩ := sound_of_run ho hr
  refine ⟨s.left todo pending, fun ls' s' hls hr' => ?_⟩
  obtain ⟨todo', pending', handles', es, hs', hes, hle⟩ := hs.quiet_run hc hls hr'
  refine ⟨by omega, fun hstuck => ?_⟩
  have hc' := hes.closing hc
  obtain ⟨hwork, hkernel, hflight, hends⟩ := hs'.idle_of_stuck hc' hstuck
  obtain rfl := hs'.handles_of_idle hc' hwork hflight hends
  have hbusy : s'.busy = [] := by
    rw [List.eq_nil_iff_forall_not_mem]
    exact fun r hr => List.not_mem_nil (hs'.census.user r hr).2.1
  have hclosed : ∀ a, (s'.base a).ref = true → (s'.base a).closed = true := by
    intro a hr
    rcases hcd : (s'.base a).closed with _ | _
    · exact absurd ((hs'.table.mem a).2 ⟨hr, hcd⟩) List.not_mem_nil
    · rfl
  refine ⟨?_, hkernel, hclosed, es, hes.trace, ?_, fun a cb => ?_⟩
  · have hactive : s'.activeHandles = 0 := hs'.table.count
    simp [loopAlive, HandleTable.loopAlive, hs'.census.activeReqs, hbusy, hactive, hends]
  · have hacc := hs'.census.account
    rw [hes.trace, List.filterMap_append, List.filterMap_append, hes.taken, hbusy, List.append_nil,
      List.append_nil] at hacc
    exact (List.perm_append_left_iff _).1 (hacc.symm.trans hs.census.account)
  · have hnone : s'.owedClose a cb = 0 := by
      rw [owedClose, if_neg]
      rintro ⟨hr, -, hcd, -⟩
      rw [hclosed a hr] at hcd
      exact absurd hcd (by simp)
    rw [hes.close, hnone, Nat.add_zero]

/-- The other handle is closed as well. -/
def closingRun : List Label := hastyRun ++ [.close 2 none]

theorem meets_closingRun : Meets step Obliging init closingRun := by decide

theorem isSome_closingRun : (run step init closingRun).isSome = true := by decide

/-- The loop after that. -/
def closingLoop : TcpLoop := (run step init closingRun).get isSome_closingRun

theorem run_closingRun : run step init closingRun = some closingLoop := (Option.some_get _).symm

theorem closing_closingLoop : closingLoop.Closing
  | 0 | 1 | 2 => by decide
  | a + 3 => fun hr => by
    have hnone : (closingLoop.base (a + 3)).ref = false := rfl
    rw [hnone] at hr
    exact absurd hr (by simp)

theorem closes_of_closingRun :
    ∃ n, ∀ ls' s', (∀ l ∈ ls', l.isCall = false) → run step closingLoop ls' = some s' →
      ls'.length ≤ n ∧ ((∀ l : Label, l.isCall = false → s'.step l = none) →
        s'.loopAlive = false ∧ s'.kernel = []
        ∧ (∀ a, (s'.base a).ref = true → (s'.base a).closed = true)
        ∧ ∃ es, s'.trace = closingLoop.trace ++ es
          ∧ (es.filterMap TcpEvent.calledBack).Perm closingLoop.busy
          ∧ ∀ a cb, es.count (.close a cb) = closingLoop.owedClose a cb) :=
  closes_of_run meets_closingRun run_closingRun closing_closingLoop

end TcpLoop

end TestLibuv
