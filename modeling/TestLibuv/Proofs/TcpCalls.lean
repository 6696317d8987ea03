import TestLibuv.Proofs.TcpSound

/-!
# What user code does to TCP handles

Each call gives the handle a request, or is one step of the handle, or has no effect. So it keeps
what holds of the loop.
-/

namespace TestLibuv

namespace TcpLoop

variable {s s' : TcpLoop} {todo todo' pending pending' handles : List ℕ} {a b req : ℕ}

/-- A handle that user code may name is in use. -/
theorem Sound.mem_handles (hs : s.Sound todo pending handles) (ho : s.Open a) : a ∈ handles := by
  refine (hs.table.mem a).2 ⟨ho.1, ?_⟩
  rw [Bool.eq_false_iff]
  intro hcd
  have hcl := hs.table.closed a hcd
  simp [ho.2] at hcl

theorem Sound.not_mem_of_free (hs : s.Sound todo pending handles) (hf : s.Free req) :
    req ∉ handles := by
  intro hin
  obtain ⟨hr, hcd⟩ := (hs.table.mem req).1 hin
  simp [hf.2.1 hr] at hcd

theorem Sound.not_flight (hs : s.Sound todo pending handles) (hf : s.Free req) :
    req ∉ s.flight todo pending := hs.census.not_flight hf.2.2 (hs.not_mem_of_free hf)

/-! ## Calls that give a request -/

/-- A call gives a request to a handle, which becomes as `v` has it. -/
theorem Sound.take {t : TcpReqType} {e : TcpEvent} {v : TcpView}
    (hs : s.Sound todo pending handles) (ha : a ∈ handles) (hf : s.Free req) (hread : t ≠ .read)
    (ht : Takes s s' a req t) (hbase : ∀ b, b ≠ a → s'.base b = s.base b)
    (htcps : ∀ b, b ≠ a → s'.tcps b = s.tcps b) (hwork : s'.work = s.work)
    (htable : s'.toHandleTable.Sound handles) (hreqs : s'.reqs.Holds s'.pass todo' pending')
    (hperm : (s'.flight todo' pending').Perm
      (if t = .shutdown then s.flight todo pending else req :: s.flight todo pending))
    (hv : v = ⟨s'.base a, s'.tcps a, s.own a .connect ++ (if t = .connect then [req] else []),
      s.own a .write ++ (if t = .write then [req] else []),
      s.own a .shutdown ++ (if t = .shutdown then [req] else []),
      decide (a ∈ s.flight todo pending), s.work.filter fun w => w.handle = a⟩)
    (hok : v.Ok) (htrace : s'.trace = s.trace ++ [e]) (he : e.handle = a)
    (hevent : UvTcp.event (s.uvTcp a) e = some v.uvTcp) :
    s'.Sound todo' pending' handles ∧ s.Moves s' := by
  have hreq := hs.not_mem_of_free hf
  have helse : Elsewhere s s' a := by
    refine ⟨hbase, htcps, fun b t' hb => ?_, .inl hwork⟩
    rw [own_take ht, if_neg fun h => hb h.1.symm, List.append_nil]
  have hmem : ∀ b ∈ handles, b ∈ s'.flight todo' pending' ↔ b ∈ s.flight todo pending := by
    intro b hb
    have hbr : b ≠ req := fun h => hreq (h ▸ hb)
    rw [hperm.mem_iff]
    split_ifs <;> simp [hbr]
  have hview : s'.view (s'.flight todo' pending') a = v := by
    rw [hv]
    ext1
    · rfl
    · rfl
    · exact (own_take ht a _).trans (by simp)
    · exact (own_take ht a _).trans (by simp)
    · exact (own_take ht a _).trans (by simp)
    · exact decide_eq_decide.2 (hmem a ha)
    · exact congrArg (Option.filter fun w => decide (w.handle = a)) hwork
  exact hs.one helse ha htable (hs.census.take ht hreq ha hread hreqs hperm)
    (fun b hb _ => hmem b hb) hview hok (.inr ⟨e, he, htrace, hevent⟩)

theorem Sound.write (hs : s.Sound todo pending handles) (hf : s.Free req) {r : Submit}
    (hr : r.proper = true) : ∃ pending', (s.write a req r).Sound todo pending' handles
      ∧ s.Moves (s.write a req r) := by
  rcases hw : (s.tcps a).writable with _ | _
  · have hsame : s.write a req r = s := by simp [TcpLoop.write, hw]
    rw [hsame]
    exact ⟨pending, hs, .inl ⟨rfl, fun _ => rfl⟩⟩
  have ha : a ∈ handles := by
    by_contra ha
    simp [(hs.shut a ha).2] at hw
  have hok := hs.ok a ha
  obtain ⟨-, hcl, -⟩ := hok.writable hw
  obtain ⟨hok', hevent⟩ := hok.write hw req
  have hact := hok.active hcl
  let t : TcpLoop := { s with
    toHandleTable := s.started a
    tcps := Function.update s.tcps a { s.tcps a with
      reqsPending := (s.tcps a).reqsPending + 1
      writeReqsPending := (s.tcps a).writeReqsPending + 1
      activecnt := (s.tcps a).activecnt + 1 }
    reqOf := Function.update s.reqOf req ⟨.write, a, 0⟩
    activeReqs := s.activeReqs + 1
    busy := s.busy ++ [req] }
  have heq : s.write a req r = (t.submit req r).log (.write a req) := by
    simp only [TcpLoop.write, hw, registerHandleReq, increaseActiveCount_eq, setTcp, setReq, t]
    simp [started]
  obtain ⟨pending', hreqs, hperm⟩ :=
    holds_submit (s := t) hs.census.reqs (hs.not_flight hf) r
  rw [heq]
  refine ⟨pending', hs.take (t := .write) ha hf (by simp) ⟨?_, ?_, hf.2.2, ?_, ?_, fun q hq => ?_,
    ?_, .write a req, rfl, rfl, ?_⟩ (fun b hb => ?_) (fun b hb => ?_) ?_ ?_ hreqs hperm ?_ hok' ?_
    rfl (hevent a)⟩
  · simp [log, t]
  · simp [log, t]
  · simp [log, t]
  · simp [log, t]
  · simp [log, reqOf_submit_ne _ _ _ hq, t, hq]
  · exact status_submit _ _ _ hr (by simp [t])
  · simp [log, t]
  · simp [log, t, base_started_ne hb]
  · simp [log, t, hb]
  · simp [log, t]
  · simpa [log, t] using sound_started hs.table ha hcl
  · simp [log, t, base_started hact, TcpView.write, view]
  · simp [log, t]

theorem own_connect_of_not_taken (ht : s.taken a = false) :
    (s.tcps a).connection = false ∧ s.own a .connect = [] := by
  rw [taken, Bool.or_eq_false_iff, List.any_eq_false] at ht
  exact ⟨ht.1, List.filter_eq_nil_iff.2 ht.2⟩

theorem Sound.connect (hs : s.Sound todo pending handles) (ho : s.Open a) (hf : s.Free req)
    (ht : s.taken a = false) {r : Submit} (hr : r.proper = true)
    (heq : s.tcpConnect a req (some r) = ((({ s with
      toHandleTable := s.started a
      tcps := Function.update s.tcps a { s.tcps a with
        reqsPending := (s.tcps a).reqsPending + 1, activecnt := (s.tcps a).activecnt + 1 }
      reqOf := Function.update s.reqOf req ⟨.connect, a, 0⟩
      activeReqs := s.activeReqs + 1
      busy := s.busy ++ [req] } : TcpLoop).submit req r).log (.connect a req))) :
    ∃ pending', (s.tcpConnect a req (some r)).Sound todo pending' handles
      ∧ s.Moves (s.tcpConnect a req (some r)) := by
  have ha := hs.mem_handles ho
  have hok := hs.ok a ha
  obtain ⟨hc, hno⟩ := own_connect_of_not_taken ht
  obtain ⟨hok', hevent⟩ : ((s.view (s.flight todo pending) a).connect req).Ok ∧ _ :=
    hok.connect hno hc
  have hact := hok.active ho.2
  let t : TcpLoop := { s with
    toHandleTable := s.started a
    tcps := Function.update s.tcps a { s.tcps a with
      reqsPending := (s.tcps a).reqsPending + 1, activecnt := (s.tcps a).activecnt + 1 }
    reqOf := Function.update s.reqOf req ⟨.connect, a, 0⟩
    activeReqs := s.activeReqs + 1
    busy := s.busy ++ [req] }
  obtain ⟨pending', hreqs, hperm⟩ :=
    holds_submit (s := t) hs.census.reqs (hs.not_flight hf) r
  rw [heq]
  refine ⟨pending', hs.take (t := .connect) ha hf (by simp) ⟨?_, ?_, hf.2.2, ?_, ?_,
    fun q hq => ?_, ?_, .connect a req, rfl, rfl, ?_⟩ (fun b hb => ?_) (fun b hb => ?_) ?_ ?_ hreqs
    hperm ?_ hok' ?_ rfl (hevent a)⟩
  · simp [log]
  · simp [log]
  · simp [log]
  · simp [log]
  · simp [log, reqOf_submit_ne _ _ _ hq, hq]
  · exact status_submit _ _ _ hr (by simp)
  · simp [log]
  · simp [log, base_started_ne hb]
  · simp [log, hb]
  · simp [log]
  · simpa [log] using sound_started hs.table ha ho.2
  · simp [log, base_started hact, TcpView.connect, view]
  · simp [log]

theorem Sound.tcpConnect (hs : s.Sound todo pending handles) {r : Option Submit}
    (ho : s.Obliging (.connect a req r)) (hr : r.all Submit.proper = true)
    (ht : ¬ (s.taken a = true ∧ (r = some .bypass ∨ r = some .queued))) :
    ∃ pending', (s.tcpConnect a req r).Sound todo pending' handles
      ∧ s.Moves (s.tcpConnect a req r) := by
  rcases r with _ | r
  · exact ⟨pending, hs, .inl ⟨rfl, fun _ => rfl⟩⟩
  obtain ⟨hopen, hf⟩ := ho.resolve_left (by simp)
  cases r with
  | failed err =>
    have hreq : req ∉ s.busy ++ handles := by
      simp [hf.2.2, hs.not_mem_of_free hf]
    have hsame : SameReqs s (s.tcpConnect a req (some (.failed err))) (s.busy ++ handles) := by
      refine ⟨fun q hq => ?_, fun q hq => ?_, fun q => ?_⟩
      · have hqr : q ≠ req := fun he => hreq (he ▸ hq)
        simp [TcpLoop.tcpConnect, setReq, hqr]
      · have hqr : q ≠ req := fun he => hreq (he ▸ hq)
        simp [TcpLoop.tcpConnect, setReq, hqr]
      · by_cases hqr : q = req
        · simp [TcpLoop.tcpConnect, setReq, hqr]
        · simpa [TcpLoop.tcpConnect, setReq, hqr] using hs.census.status q
    have hfailed : (s.tcpConnect a req (some (.failed err))).Sound todo pending handles
        ∧ s.Still (s.tcpConnect a req (some (.failed err))) :=
      hs.same rfl rfl rfl rfl rfl rfl hs.census.reqs (.refl _) hsame
    exact ⟨pending, hfailed.1, .inl hfailed.2⟩
  | bypass =>
    refine hs.connect hopen hf (by simpa using ht) (by simpa using hr) ?_
    simp [TcpLoop.tcpConnect, registerHandleReq, increaseActiveCount_eq, setTcp, setReq, started]
  | queued =>
    refine hs.connect hopen hf (by simpa using ht) (by simpa using hr) ?_
    simp [TcpLoop.tcpConnect, registerHandleReq, increaseActiveCount_eq, setTcp, setReq, started]

/-- The endgame of the handle is due at once. -/
theorem Sound.shutdown (hs : s.Sound todo pending handles) (hf : s.Free req) :
    (s.shutdown a req).Sound todo pending handles ∧ s.Moves (s.shutdown a req) := by
  rcases hw : (s.tcps a).writable with _ | _
  · have hsame : s.shutdown a req = s := by simp [TcpLoop.shutdown, hw]
    rw [hsame]
    exact ⟨hs, .inl ⟨rfl, fun _ => rfl⟩⟩
  have ha : a ∈ handles := by
    by_contra ha
    simp [(hs.shut a ha).2] at hw
  have hok := hs.ok a ha
  obtain ⟨-, hcl, -⟩ := hok.writable hw
  obtain ⟨hok', hevent⟩ := hok.shutdown hw req
  have hact := hok.active hcl
  have heq : s.shutdown a req = { s with
      toHandleTable := (s.started a).wantEndgame a
      tcps := Function.update s.tcps a { s.tcps a with
        writable := false
        shutdownReq := some req
        reqsPending := (s.tcps a).reqsPending + 1
        activecnt := (s.tcps a).activecnt + 1 }
      reqOf := Function.update s.reqOf req ⟨.shutdown, a, 0⟩
      activeReqs := s.activeReqs + 1
      busy := s.busy ++ [req]
      trace := s.trace ++ [.shutdown a req] } := by
    simp [TcpLoop.shutdown, hw, registerHandleReq, increaseActiveCount_eq, setTcp, setReq, started,
      log]
  rw [heq]
  refine hs.take (t := .shutdown) ha hf (by simp) ⟨rfl, rfl, hf.2.2, ?_, ?_, fun q hq => ?_,
    ?_, .shutdown a req, rfl, rfl, rfl⟩ (fun b hb => ?_) (fun b hb => ?_) rfl ?_ hs.census.reqs
    (.refl _) ?_ hok' rfl rfl (hevent a)
  · simp
  · simp
  · simp [hq]
  · simp
  · simp [base_started_ne hb, hb]
  · simp [hb]
  · exact (sound_started hs.table ha hcl).wantEndgame ha
  · simp [base_started hact, TcpView.shutdown, view]

/-! ## Other calls -/

theorem view_accept (flight : List ℕ) :
    (s.tcpAccept a).view flight a = (s.view flight a).accept := by
  ext1
  · rfl
  · simp [TcpLoop.tcpAccept, setTcp, log, view, TcpView.accept]
  all_goals rfl

theorem Sound.accept (hs : s.Sound todo pending handles) (ho : s.Open a)
    (ht : s.taken a = false) :
    (s.tcpAccept a).Sound todo pending handles ∧ s.Moves (s.tcpAccept a) := by
  have ha := hs.mem_handles ho
  obtain ⟨hc, hno⟩ := own_connect_of_not_taken ht
  obtain ⟨hok, hevent⟩ := (hs.ok a ha).accept ho.2 hno hc
  have hacc : SameAccount s (s.tcpAccept a) :=
    ⟨by simp [TcpLoop.tcpAccept, setTcp, log, TcpEvent.taken],
      by simp [TcpLoop.tcpAccept, setTcp, log, TcpEvent.calledBack], rfl, rfl⟩
  refine hs.one ⟨fun b hb => rfl, fun b hb => ?_, fun b t hb => rfl, .inl rfl⟩ ha hs.table
    (hs.census.same hacc hs.census.reqs (.refl _) (.of_eq rfl hs.census.status))
    (fun b _ _ => .rfl) (view_accept _) hok (.inr ⟨.accept a, rfl, rfl, hevent a⟩)
  simp [TcpLoop.tcpAccept, setTcp, log, hb]

/-- A read request is given to the system, which is none that user code gave. -/
theorem Census.submitRead (hc : s.Census todo pending handles) (ha : a ∈ handles)
    (hidle : a ∉ s.flight todo pending) {t : TcpLoop} (hacc : SameAccount s s')
    (hreqOf : t.reqOf = Function.update s.reqOf a { s.reqOf a with status := 0 })
    (hsame : t.reqs = s.reqs ∧ t.pass = s.pass ∧ t.kernel = s.kernel) {r : Submit}
    (hr : r.proper = true) (hs' : s'.reqs = (t.submit a r).reqs ∧ s'.pass = t.pass
      ∧ s'.kernel = (t.submit a r).kernel ∧ s'.reqOf = (t.submit a r).reqOf) :
    ∃ pending', s'.Census todo pending' handles
      ∧ (s'.flight todo pending').Perm (a :: s.flight todo pending)
      ∧ ∀ b t, s'.own b t = s.own b t := by
  obtain ⟨hreqs, hpass, hkernel⟩ := hsame
  obtain ⟨hreqs', hpass', hkernel', hreqOf'⟩ := hs'
  have hflight : t.flight todo pending = s.flight todo pending := by rw [flight, hkernel]; rfl
  have hholds : t.reqs.Holds t.pass todo pending := by
    rw [hreqs, hpass]
    exact hc.reqs
  obtain ⟨pending', hq, hperm⟩ := holds_submit hholds (hflight ▸ hidle) r
  have hsub : (t.submit a r).pass = t.pass := by cases r <;> rfl
  have hperm' : (s'.flight todo pending').Perm (a :: s.flight todo pending) := by
    rw [flight, hkernel', ← hflight]
    exact hperm
  have hsame : SameReqs s s' (s.busy ++ handles) := by
    refine ⟨fun q _ => ?_, fun q _ => ?_, fun q => ?_⟩
    · rw [hreqOf', type_submit, hreqOf]
      by_cases hqa : q = a <;> simp [hqa]
    · rw [hreqOf', handle_submit, hreqOf]
      by_cases hqa : q = a <;> simp [hqa]
    · rw [hreqOf']
      refine status_submit _ _ _ hr ?_
      rw [hreqOf]
      by_cases hqa : q = a
      · simp [hqa]
      · simpa [hqa] using hc.status q
  refine ⟨pending', hc.read hacc ?_ ha hsame ?_ fun q hq => ?_, hperm',
    own_same hacc.busy hsame fun r => List.mem_append_left handles⟩
  · rw [hreqs', hpass', ← hsub]
    exact hq
  · exact hperm'.nodup_iff.2 (List.nodup_cons.2 ⟨hidle, hc.nodup⟩)
  · rw [hperm'.mem_iff, List.mem_cons]
    exact or_iff_right hq

theorem tcpQueueRead_eq (s : TcpLoop) (a : ℕ) (r : Submit) :
    s.tcpQueueRead a r = TcpLoop.submit { s with
      reqOf := Function.update s.reqOf a { s.reqOf a with status := 0 }
      tcps := Function.update s.tcps a { s.tcps a with
        readPending := (s.tcps a).readPending || !r.isFailed
        reqsPending := (s.tcps a).reqsPending + 1 } } a r := by
  cases r <;> simp [tcpQueueRead, setReq, setTcp, Submit.isFailed]

theorem Sound.readStart (hs : s.Sound todo pending handles) (ho : (s.tcps a).started = false)
    {r : Submit} (hr : r.proper = true) :
    ∃ pending', (s.readStart a r).Sound todo pending' handles ∧ s.Moves (s.readStart a r) := by
  by_cases hgo : (s.tcps a).reading = false ∧ (s.tcps a).readable = true
  swap
  · have hsame : s.readStart a r = s := by
      rcases hon : (s.tcps a).reading with _ | _
      · simp [TcpLoop.readStart, hon, show (s.tcps a).readable = false by simpa [hon] using hgo]
      · simp [TcpLoop.readStart, hon]
    rw [hsame]
    exact ⟨pending, hs, .inl ⟨rfl, fun _ => rfl⟩⟩
  obtain ⟨hoff, hrd⟩ := hgo
  have ha : a ∈ handles := by
    by_contra ha
    simp [(hs.shut a ha).1] at hrd
  have hok := hs.ok a ha
  obtain ⟨-, hcl⟩ := hok.readable hrd
  obtain ⟨hok', hevent⟩ := hok.readStart ho hrd r.isFailed
  have hact := hok.active hcl
  have hidle : a ∉ s.flight todo pending := by
    intro hin
    have hst := (hok.inFlight (decide_eq_true hin)).1
    simp [view, ho] at hst
  have hpend : (s.tcps a).readPending = false := by
    rw [Bool.eq_false_iff]
    exact fun hon => hidle (of_decide_eq_true (hok.readPending hon))
  let t : TcpLoop := { s with
    toHandleTable := s.started a
    reqOf := Function.update s.reqOf a { s.reqOf a with status := 0 }
    tcps := Function.update s.tcps a { s.tcps a with
      reading := true
      started := true
      activecnt := (s.tcps a).activecnt + 1
      readPending := (s.tcps a).readPending || !r.isFailed
      reqsPending := (s.tcps a).reqsPending + 1 } }
  have heq : s.readStart a r = (t.submit a r).log (.readStart a) := by
    simp [TcpLoop.readStart, hoff, hrd, increaseActiveCount_eq, setTcp, hpend, tcpQueueRead_eq, t,
      started]
  have hacc : SameAccount s (s.readStart a r) :=
    ⟨by simp [heq, log, t, TcpEvent.taken], by simp [heq, log, t, TcpEvent.calledBack],
      by simp [heq, log, t], by simp [heq, log, t]⟩
  obtain ⟨pending', hcensus, hperm, hown⟩ := hs.census.submitRead ha hidle (t := t) hacc rfl
    ⟨rfl, rfl, rfl⟩ hr (by
      rw [heq]
      cases r <;> exact ⟨rfl, rfl, rfl, rfl⟩)
  refine ⟨pending', hs.one (v := (s.view _ a).startReading.queueRead r.isFailed)
    ⟨fun b hb => ?_, fun b hb => ?_, fun b t _ => hown b t, .inl ?_⟩ ha ?_ hcensus
    (fun b _ hb => ?_) ?_ hok' (.inr ⟨.readStart a, rfl, ?_, hevent a⟩)⟩
  · simp [heq, log, t, base_started_ne hb]
  · simp [heq, log, t, hb]
  · simp [heq, log, t]
  · simpa [heq, log, t] using sound_started hs.table ha hcl
  · rw [hperm.mem_iff, List.mem_cons]
    exact or_iff_right hb
  · ext1
    · simp [view, heq, log, t, base_started hact, TcpView.startReading, TcpView.queueRead]
    · simp [view, heq, log, t, TcpView.startReading, TcpView.queueRead]
    · exact hown a _
    · exact hown a _
    · exact hown a _
    · exact decide_eq_true (hperm.mem_iff.2 List.mem_cons_self)
    · simp [view, heq, log, t, TcpView.startReading, TcpView.queueRead]
  · simp [heq, log, t]

/-- What `uv_close` does to the handles of the loop. -/
def closingTable (s : TcpLoop) (a : ℕ) (cb : Option ℕ) : HandleTable :=
  let t := s.setBase a { s.base a with closeCb := cb }
  let t := if (s.tcps a).reading = true ∧ (s.tcps a).activecnt - 1 = 0 then t.handleStop a else t
  let t := t.handleClosing a
  if (s.tcps a).reqsPending = 0 then t.wantEndgame a else t

theorem close_eq {cb : Option ℕ} (hcl : (s.base a).closing = false) : s.close a cb = { s with
    toHandleTable := s.closingTable a cb
    tcps := Function.update s.tcps a { s.tcps a with
      reading := false
      readable := false
      writable := false
      activecnt := (s.tcps a).activecnt - (s.tcps a).reading.toNat }
    trace := s.trace ++ [.closing a] } := by
  rcases hon : (s.tcps a).reading with _ | _
  · by_cases hz : (s.tcps a).reqsPending = 0 <;>
      simp [TcpLoop.close, hcl, tcpClose, hon, hz, setTcp, log, closingTable]
  · by_cases hz : (s.tcps a).reqsPending = 0 <;> by_cases hone : (s.tcps a).activecnt - 1 = 0 <;>
      simp [TcpLoop.close, hcl, tcpClose, hon, hz, hone, setTcp, log, closingTable,
        decreaseActiveCount_eq, stopped]

theorem base_closingTable {cb : Option ℕ} : (s.closingTable a cb).base b = if b = a then
    { s.base b with
      closeCb := cb
      closing := true
      active := false
      endgameQueued := (s.base b).endgameQueued || decide ((s.tcps b).reqsPending = 0) }
    else s.base b := by
  unfold closingTable
  dsimp only
  by_cases hb : b = a
  · subst hb
    split_ifs <;> simp_all
  · split_ifs <;> simp [hb]

theorem sound_closingTable {cb : Option ℕ} (hs : s.toHandleTable.Sound handles) (ha : a ∈ handles)
    (hcl : (s.base a).closing = false) : (s.closingTable a cb).Sound handles := by
  have hset := hs.setCloseCb ha hcl cb
  unfold closingTable
  dsimp only
  have hclosing : ∀ {t : HandleTable}, t.Sound handles → (t.base a).closing = false →
      (if (s.tcps a).reqsPending = 0 then (t.handleClosing a).wantEndgame a
        else t.handleClosing a).Sound handles := by
    intro t ht hcl
    split_ifs
    · exact (ht.handleClosing ha hcl).wantEndgame ha
    · exact ht.handleClosing ha hcl
  by_cases hstop : (s.tcps a).reading = true ∧ (s.tcps a).activecnt - 1 = 0
  · rw [if_pos hstop]
    exact hclosing (hset.handleStop ha (by simp [hcl])) (by simp [hcl])
  · rw [if_neg hstop]
    exact hclosing hset (by simp [hcl])

theorem Sound.close {cb : Option ℕ} (hs : s.Sound todo pending handles)
    (ho : (s.base a).ref = true) :
    (s.close a cb).Sound todo pending handles ∧ s.Moves (s.close a cb) := by
  rcases hcl : (s.base a).closing with _ | _
  swap
  · have hsame : s.close a cb = s := by simp [TcpLoop.close, hcl]
    rw [hsame]
    exact ⟨hs, .inl ⟨rfl, fun _ => rfl⟩⟩
  have ha := hs.mem_handles ⟨ho, hcl⟩
  obtain ⟨hok, hevent⟩ := (hs.ok a ha).close hcl cb
  have heq : s.close a cb = _ := close_eq hcl
  have hacc : SameAccount s (s.close a cb) :=
    ⟨by simp [heq, TcpEvent.taken], by simp [heq, TcpEvent.calledBack], by rw [heq], by rw [heq]⟩
  have hreqOf : (s.close a cb).reqOf = s.reqOf := by rw [heq]
  have hsame : SameReqs s (s.close a cb) (s.busy ++ handles) := .of_eq hreqOf hs.census.status
  have hflight : (s.close a cb).flight todo pending = s.flight todo pending := by rw [heq]; rfl
  have hown := own_same hacc.busy hsame fun r => List.mem_append_left handles
  have hbase : ∀ b, (s.close a cb).base b = (s.closingTable a cb).base b := fun b => by rw [heq]
  refine hs.one (v := (s.view _ a).close cb) ⟨fun b hb => ?_, fun b hb => ?_, fun b t _ => hown b t,
    .inl (by rw [heq])⟩ ha ?_ (hs.census.same hacc ?_ (by rw [hflight]) hsame)
    (fun b _ _ => by rw [hflight]) ?_ hok (.inr ⟨.closing a, rfl, by rw [heq], hevent a⟩)
  · rw [hbase, base_closingTable, if_neg hb]
  · simp [heq, hb]
  · rw [heq]
    exact sound_closingTable hs.table ha hcl
  · rw [heq]
    exact hs.census.reqs
  · ext1
    · exact (hbase a).trans (base_closingTable.trans (if_pos rfl))
    · simp [view, heq, TcpView.close]
    · exact hown a _
    · exact hown a _
    · exact hown a _
    · rw [hflight]
      rfl
    · simp [view, heq, TcpView.close]

/-! ## New handles -/

theorem Sound.not_owns (hs : s.Sound todo pending handles) (ha : a ∉ handles) (t : TcpReqType) :
    s.own a t = [] := by
  rw [List.eq_nil_iff_forall_not_mem]
  intro r hr
  obtain ⟨hbusy, hra, -⟩ := mem_own.1 hr
  exact ha (hra ▸ (hs.census.user r hbusy).2.1)

/-- A handle is new: its address was never one, or the handle there is closed. -/
theorem Sound.tcpInit (hs : s.Sound todo pending handles) (hf : s.Free a) :
    (s.tcpInit a).Sound todo pending (handles ++ [a]) ∧ s.Moves (s.tcpInit a) := by
  have ha := hs.not_mem_of_free hf
  have hflight := hs.not_flight hf
  have hq : (s.base a).endgameQueued = false := by
    rw [Bool.eq_false_iff]
    exact fun h => ha (hs.queued a h)
  have hreqOf : ∀ q, q ≠ a → (s.tcpInit a).reqOf q = s.reqOf q := by
    intro q hq
    simp [TcpLoop.tcpInit, log, setTcp, setReq, hq]
  have hbusy : ∀ q ∈ s.busy, q ≠ a := fun q hq he => hf.2.2 (he ▸ hq)
  have hown : ∀ b t, (s.tcpInit a).own b t = s.own b t := by
    intro b t
    refine List.filter_congr fun q hq => ?_
    rw [waits, waits, hreqOf q (hbusy q hq)]
  have hbase : ∀ b, b ≠ a → (s.tcpInit a).base b = s.base b := by
    intro b hb
    simp [TcpLoop.tcpInit, log, setTcp, setReq, hb]
  have htcps : ∀ b, b ≠ a → (s.tcpInit a).tcps b = s.tcps b := by
    intro b hb
    simp [TcpLoop.tcpInit, log, setTcp, setReq, hb]
  have hview : ∀ b, b ≠ a → ∀ flight, (s.tcpInit a).view flight b = s.view flight b := by
    intro b hb flight
    ext1
    · exact hbase b hb
    · exact htcps b hb
    · exact hown b _
    · exact hown b _
    · exact hown b _
    · rfl
    · rfl
  have hwork : s.work.filter (fun w => w.handle = a) = none := by
    rcases hw : s.work with _ | w
    · rfl
    · have hne : w.handle ≠ a := fun he => ha (he ▸ hs.work w hw)
      simp [Option.filter, hne]
  have hnew : (s.tcpInit a).view (s.flight todo pending) a = .init (s.base a) := by
    ext1
    · simp [view, TcpLoop.tcpInit, log, setTcp, setReq, TcpView.init]
    · simp [view, TcpLoop.tcpInit, log, setTcp, setReq, TcpView.init]
    · exact (hown a _).trans (hs.not_owns ha _)
    · exact (hown a _).trans (hs.not_owns ha _)
    · exact (hown a _).trans (hs.not_owns ha _)
    · exact decide_eq_false hflight
    · exact hwork
  refine ⟨⟨hs.table.handleInit ha hf.1 hq, ⟨hs.census.reqs, hs.census.nodup, hs.census.busy,
    fun q hq => ?_, fun q hq => ?_, fun q hq hn => ?_, fun b hb => ?_, fun q => ?_,
    hs.census.activeReqs, ?_⟩, fun b hb => ?_, fun b hb => ?_, fun w hw => ?_, fun b hb => ?_⟩,
    .inr ⟨.init a, rfl, fun b hb => ?_, ?_⟩⟩
  · obtain ⟨h₁, h₂, h₃⟩ := hs.census.user q hq
    rw [hreqOf q (hbusy q hq)]
    exact ⟨by simp [h₁, hbusy q hq], List.mem_append_left _ h₂, h₃⟩
  · rw [hreqOf q (hbusy q hq)]
    exact hs.census.under q hq
  · exact List.mem_append_left _ (hs.census.reads q hq hn)
  · by_cases hba : b = a
    · subst hba
      simp [TcpLoop.tcpInit, log, setTcp, setReq]
    · rw [hreqOf b hba]
      exact hs.census.ofHandle b ((List.mem_append.1 hb).resolve_right (by simpa using hba))
  · by_cases hqa : q = a
    · subst hqa
      simp [TcpLoop.tcpInit, log, setTcp, setReq]
    · rw [hreqOf q hqa]
      exact hs.census.status q
  · simpa [TcpLoop.tcpInit, log, setTcp, setReq, List.filterMap_cons, TcpEvent.taken,
      TcpEvent.calledBack] using hs.census.account
  · by_cases hba : b = a
    · subst hba
      exact hnew ▸ TcpView.ok_init _
    · exact hview b hba _ ▸
        hs.ok b ((List.mem_append.1 hb).resolve_right (by simpa using hba))
  · by_cases hba : b = a
    · simp [hba]
    · rw [hbase b hba] at hb
      exact List.mem_append_left _ (hs.queued b hb)
  · exact List.mem_append_left _ (hs.work w hw)
  · rw [List.mem_append, List.mem_singleton, not_or] at hb
    rw [htcps b hb.2]
    exact hs.shut b hb.1
  · exact congrArg TcpView.uvTcp (hview b hb [])
  · have hnone : s.uvTcp a = none ∨ ∃ h, s.uvTcp a = some h ∧ h.phase = .closed := by
      rcases hr : (s.base a).ref with _ | _
      · simp [uvTcp, TcpView.uvTcp, view, hr]
      · simp [uvTcp, TcpView.uvTcp, view, hr, TcpView.phase, hf.2.1 hr]
    have hinit : (s.tcpInit a).uvTcp a = some .init :=
      (congrArg TcpView.uvTcp hnew).trans (TcpView.uvTcp_init _)
    simp only [TcpEvent.handle]
    rw [hinit]
    rcases hnone with hn | ⟨h, hn, hp⟩
    · rw [hn]
      rfl
    · rw [hn]
      simp [UvTcp.event, hp]

end TcpLoop

end TestLibuv
