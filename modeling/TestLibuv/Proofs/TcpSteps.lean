import TestLibuv.Proofs.TcpCalls

/-!
# What the loop does to TCP handles

Completions come into the queue, a pass takes them out one by one, and the endgames follow. A
request that user code gave is called back there, and the read request of a handle is posted again
as long as it reads.
-/

namespace TestLibuv

namespace TcpLoop

variable {s s' : TcpLoop} {todo todo' pending pending' handles rest : List ℕ} {a b req : ℕ}

/-! ## Completions -/

theorem Sound.complete (hs : s.Sound todo pending handles) {c : ℕ × ℤ} (hc : c.1 ∈ s.kernel)
    (hst : properStatus c.2 = true) :
    (s.complete c).Sound todo (pending ++ [c.1]) handles ∧ s.Still (s.complete c) := by
  have hnot : c.1 ∉ todo ++ pending := fun hin =>
    (List.nodup_append.1 hs.census.nodup).2.2 c.1 hc c.1 hin rfl
  refine hs.same rfl rfl rfl rfl rfl rfl (hs.census.reqs.insertPendingReq hnot) ?_
    ⟨fun q _ => ?_, fun q _ => ?_, fun q => ?_⟩
  · have hperm : (s.kernel.erase c.1 ++ (todo ++ (pending ++ [c.1]))).Perm
        (c.1 :: s.kernel.erase c.1 ++ (todo ++ pending)) := by
      rw [← List.append_assoc todo, ← List.append_assoc]
      exact List.perm_append_singleton _ _
    exact hperm.trans ((List.perm_cons_erase hc).symm.append_right _)
  · by_cases hq : q = c.1 <;> simp [TcpLoop.complete, setReq, hq]
  · by_cases hq : q = c.1 <;> simp [TcpLoop.complete, setReq, hq]
  · by_cases hq : q = c.1
    · simpa [TcpLoop.complete, setReq, hq] using hst
    · simpa [TcpLoop.complete, setReq, hq] using hs.census.status q

theorem Sound.poll : ∀ {done : List (ℕ × ℤ)} {s : TcpLoop} {pending : List ℕ},
    s.Sound todo pending handles → (done.map Prod.fst).Nodup → (∀ c ∈ done, c.1 ∈ s.kernel) →
    (done.all fun c => properStatus c.2) = true →
    (s.poll done).Sound todo (pending ++ done.map Prod.fst) handles ∧ s.Still (s.poll done)
  | [], _, _, hs, _, _, _ => ⟨by rwa [List.map_nil, List.append_nil], rfl, fun _ => rfl⟩
  | c :: done, s, pending, hs, hnodup, hmem, hst => by
    rw [List.map_cons, List.nodup_cons] at hnodup
    rw [List.all_cons, Bool.and_eq_true] at hst
    obtain ⟨hs', hstill⟩ := hs.complete (hmem c List.mem_cons_self) hst.1
    have hrest : ∀ d ∈ done, d.1 ∈ (s.complete c).kernel := by
      intro d hd
      have hne : d.1 ≠ c.1 := fun he => hnodup.1 (he ▸ List.mem_map_of_mem hd)
      exact (List.mem_erase_of_ne hne).2 (hmem d (List.mem_cons_of_mem _ hd))
    obtain ⟨hs'', htrace, hsame⟩ := hs'.poll hnodup.2 hrest hst.2
    rw [List.append_assoc] at hs''
    exact ⟨hs'', htrace.trans hstill.1, fun b => (hsame b).trans (hstill.2 b)⟩

theorem Sound.beginPass {p : ReqsPass} {q : PendingReqs} (hs : s.Sound todo pending handles)
    (hp : s.pass = none) (hb : s.reqs.beginPass = some (p, q)) :
    { s with pass := some p, reqs := q }.Sound pending [] handles
      ∧ s.Still { s with pass := some p, reqs := q } := by
  have hreqs := hs.census.reqs
  rw [hp] at hreqs
  obtain rfl := hreqs.idle rfl
  refine hs.same rfl rfl rfl rfl rfl rfl (hreqs.beginPass hb).1 ?_ (.of_eq rfl hs.census.status)
  simp [flight]

/-! ## Requests that are called back -/

theorem unregisterHandleReq_eq (s : TcpLoop) (a req : ℕ) : s.unregisterHandleReq a req = { s with
    toHandleTable := s.stopped a
    tcps := Function.update s.tcps a
      { s.tcps a with activecnt := (s.tcps a).activecnt - 1 }
    activeReqs := s.activeReqs - 1
    busy := s.busy.erase req } := by
  rw [unregisterHandleReq, decreaseActiveCount_eq]

/-- A request is called back, and its handle becomes as `v` has it. -/
theorem Sound.finish {t : TcpReqType} {e : TcpEvent} {v : TcpView} {r : ℕ}
    (hs : s.Sound todo pending handles) (hf : Finishes s s' r) (htype : (s.reqOf r).type = t)
    (hhandle : (s.reqOf r).handle = a) (hbase : ∀ b, b ≠ a → s'.base b = s.base b)
    (htcps : ∀ b, b ≠ a → s'.tcps b = s.tcps b) (hidle : s.work = none) {w : TcpWork}
    (hwork : s'.work = some w) (hw : w.handle = a) (htable : s'.toHandleTable.Sound handles)
    (hreqs : s'.reqs.Holds s'.pass todo' pending')
    (hperm : (s.flight todo pending).Perm (if (s.reqOf r).type = .shutdown then
      s'.flight todo' pending' else r :: s'.flight todo' pending'))
    (hv : v = ⟨s'.base a, s'.tcps a,
      if t = .connect then (s.own a .connect).erase r else s.own a .connect,
      if t = .write then (s.own a .write).erase r else s.own a .write,
      if t = .shutdown then (s.own a .shutdown).erase r else s.own a .shutdown,
      decide (a ∈ s.flight todo pending), some w⟩)
    (hok : v.Ok) (htrace : s'.trace = s.trace ++ [e]) (he : e.handle = a)
    (hevent : UvTcp.event (s.uvTcp a) e = some v.uvTcp) :
    s'.Sound todo' pending' handles ∧ s.Moves s' := by
  obtain ⟨hreq, ha, -⟩ := hs.census.user r hf.isBusy
  rw [hhandle] at ha
  have hown : ∀ b t', ¬ (b = a ∧ t' = t) → s'.own b t' = s.own b t' := by
    intro b t' hne
    rw [own_finish hf hs.census.busy]
    refine List.erase_of_not_mem fun hin => hne ?_
    obtain ⟨-, hb, ht⟩ := mem_own.1 hin
    exact ⟨hb.symm.trans hhandle, ht.symm.trans htype⟩
  have hone : ∀ t', s'.own a t' = if t = t' then (s.own a t').erase r else s.own a t' := by
    intro t'
    split_ifs with ht
    · exact own_finish hf hs.census.busy a t'
    · exact hown a t' fun h => ht h.2.symm
  have hmem : ∀ b ∈ handles, b ∈ s'.flight todo' pending' ↔ b ∈ s.flight todo pending := by
    intro b hb
    have hbr : b ≠ r := fun h => hreq (h ▸ hb)
    rw [hperm.mem_iff]
    split_ifs <;> simp [hbr]
  have hview : s'.view (s'.flight todo' pending') a = v := by
    rw [hv]
    ext1
    · rfl
    · rfl
    · exact hone _
    · exact hone _
    · exact hone _
    · exact decide_eq_decide.2 (hmem a ha)
    · simp [view, hwork, hw]
  refine hs.one ⟨hbase, htcps, fun b t' hb => hown b t' fun h => hb h.1, .inr ⟨fun x hx => ?_,
    fun x hx => ?_⟩⟩ ha htable (hs.census.finish hf hreqs hperm) (fun b hb _ => hmem b hb) hview hok
    (.inr ⟨e, he, htrace, hevent⟩)
  · rw [hwork, Option.some.injEq] at hx
    exact hx ▸ hw
  · rw [hidle] at hx
    exact absurd hx (by simp)

/-- Where a request is that the pass takes, and that user code gave. -/
theorem Sound.head (hs : s.Sound (req :: todo) pending handles) :
    (s.flight (req :: todo) pending).Perm (req :: s.flight todo pending)
      ∧ (s.reqOf req).type ≠ .shutdown
      ∧ (req ∈ s.busy ∨ req ∈ handles ∧ (s.reqOf req).type = .read
        ∧ (s.reqOf req).handle = req) := by
  have hperm : (s.flight (req :: todo) pending).Perm (req :: s.flight todo pending) :=
    List.perm_middle
  have hin : req ∈ s.flight (req :: todo) pending := hperm.mem_iff.2 List.mem_cons_self
  by_cases hb : req ∈ s.busy
  · exact ⟨hperm, (hs.census.under req hb).1 hin, .inl hb⟩
  · have hh := hs.census.reads req hin hb
    obtain ⟨ht, ha⟩ := hs.census.ofHandle req hh
    exact ⟨hperm, by simp [ht], .inr ⟨hh, ht, ha⟩⟩

/-- What the callback of a write is given. -/
def writeStatus (s : TcpLoop) (req : ℕ) : ℤ :=
  if (s.reqOf req).status = uvEconnaborted then uvEcanceled else (s.reqOf req).status

theorem processTcpWriteReq_eq (s : TcpLoop) (a req : ℕ) : s.processTcpWriteReq a req = { s with
    toHandleTable := s.stopped a
    tcps := Function.update s.tcps a { s.tcps a with activecnt := (s.tcps a).activecnt - 1 }
    activeReqs := s.activeReqs - 1
    busy := s.busy.erase req
    work := some (.write a)
    trace := s.trace ++ [.written a req (s.writeStatus req)] } := by
  simp [processTcpWriteReq, unregisterHandleReq_eq, log, writeStatus]

theorem Sound.written {p : ReqsPass} (hs : s.Sound (req :: todo) pending handles)
    (hidle : s.work = none) (hreqs : s.reqs.Holds (some p) todo pending)
    (ht : (s.reqOf req).type = .write) :
    let s' := { s with pass := some p }.processTcpWriteReq (s.reqOf req).handle req
    s'.Sound todo pending handles ∧ s.Moves s' := by
  intro s'
  obtain ⟨hperm, -, hbusy⟩ := hs.head
  have hb : req ∈ s.busy := hbusy.resolve_right (by simp [ht])
  obtain ⟨a, ha⟩ : ∃ a, (s.reqOf req).handle = a := ⟨_, rfl⟩
  have hin : a ∈ handles := ha ▸ (hs.census.user req hb).2.1
  have hr : req ∈ (s.view (s.flight (req :: todo) pending) a).writes := mem_own.2 ⟨hb, ha, ht⟩
  have hnone : (s.view (s.flight (req :: todo) pending) a).work = none := by simp [view, hidle]
  obtain ⟨hok, hevent⟩ := (hs.ok a hin).written hnone hr a (s.writeStatus req)
  have heq := processTcpWriteReq_eq { s with pass := some p } a req
  simp only [s', ha]
  rw [heq]
  refine hs.finish (r := req) ⟨rfl, rfl, hb, rfl, _, rfl, rfl, rfl⟩ ht ha (fun b hb => ?_)
    (fun b hb => ?_) hidle rfl rfl ?_ hreqs ?_ ?_ hok rfl rfl hevent
  · exact base_stopped_ne hb
  · simp [hb]
  · exact sound_stopped hs.table hin
  · rw [if_neg (by simp [ht])]
    exact hperm
  · ext1
    · exact base_stopped.symm
    all_goals simp [TcpView.written, TcpView.decreaseActive, view]

/-- What the callback of a connection request is given. -/
def connectStatus (s : TcpLoop) (a req : ℕ) (res : ℤ) : ℤ :=
  if (s.reqOf req).status = 0 then if (s.base a).closing then uvEcanceled else res
  else (s.reqOf req).status

theorem connectStatus_eq_zero {res : ℤ} : s.connectStatus a req res = 0
    ↔ (s.reqOf req).status = 0 ∧ (s.base a).closing = false ∧ res = 0 := by
  unfold connectStatus
  split_ifs with hz hc
  · simp [hc, uvEcanceled]
  · simp [hz, hc]
  · simp [hz]

theorem processTcpConnectReq_eq (s : TcpLoop) (a req : ℕ) (res : ℤ) :
    s.processTcpConnectReq a req res = { s with
      toHandleTable := s.stopped a
      tcps := Function.update s.tcps a { s.tcps a with
        activecnt := (s.tcps a).activecnt - 1
        connection := (s.tcps a).connection || decide (s.connectStatus a req res = 0)
        readable := (s.tcps a).readable || decide (s.connectStatus a req res = 0)
        writable := (s.tcps a).writable || decide (s.connectStatus a req res = 0) }
      activeReqs := s.activeReqs - 1
      busy := s.busy.erase req
      work := some (.done a)
      trace := s.trace ++ [.connected a req (s.connectStatus a req res)] } := by
  have hclosing : ((s.stopped a).base a).closing = (s.base a).closing := by rw [base_stopped]
  have hfold : (if (s.reqOf req).status = 0 then
      if (s.base a).closing = true then uvEcanceled else res
      else (s.reqOf req).status) = s.connectStatus a req res := rfl
  by_cases hst : s.connectStatus a req res = 0
  · have hall := connectStatus_eq_zero.1 hst
    rw [hst]
    simp [processTcpConnectReq, unregisterHandleReq_eq, log, setTcp, hclosing, hall]
  · have hno := mt connectStatus_eq_zero.2 hst
    simp [processTcpConnectReq, unregisterHandleReq_eq, log, hclosing, hno, hst, hfold]

theorem Sound.connected {p : ReqsPass} (hs : s.Sound (req :: todo) pending handles)
    (hidle : s.work = none) (hreqs : s.reqs.Holds (some p) todo pending)
    (ht : (s.reqOf req).type = .connect) (res : ℤ) :
    let s' := { s with pass := some p }.processTcpConnectReq (s.reqOf req).handle req res
    s'.Sound todo pending handles ∧ s.Moves s' := by
  intro s'
  obtain ⟨hperm, -, hbusy⟩ := hs.head
  have hb : req ∈ s.busy := hbusy.resolve_right (by simp [ht])
  obtain ⟨a, ha⟩ : ∃ a, (s.reqOf req).handle = a := ⟨_, rfl⟩
  have hin : a ∈ handles := ha ▸ (hs.census.user req hb).2.1
  have hok := hs.ok a hin
  have hr : (s.view (s.flight (req :: todo) pending) a).connects = [req] := by
    have hmem : req ∈ s.own a .connect := mem_own.2 ⟨hb, ha, ht⟩
    obtain ⟨x, hx⟩ := List.length_eq_one_iff.1
      (le_antisymm hok.connects.1 (List.length_pos_of_mem hmem))
    have hx : s.own a .connect = [x] := hx
    rw [hx, List.mem_singleton] at hmem
    exact hx.trans (by rw [hmem])
  have hnone : (s.view (s.flight (req :: todo) pending) a).work = none := by simp [view, hidle]
  have heq := processTcpConnectReq_eq { s with pass := some p } a req res
  simp only [s', ha]
  obtain ⟨hok', hevent⟩ := hok.connected hnone hr
    (fun h => (connectStatus_eq_zero.1 h).2.1) a
  rw [heq]
  refine hs.finish (r := req) ⟨rfl, rfl, hb, rfl, _, rfl, rfl, rfl⟩ ht ha (fun b hb => ?_)
    (fun b hb => ?_) hidle rfl rfl ?_ hreqs ?_ ?_ hok' rfl rfl hevent
  · exact base_stopped_ne hb
  · simp [hb]
  · exact sound_stopped hs.table hin
  · rw [if_neg (by simp [ht])]
    exact hperm
  · have hr : s.own a .connect = [req] := hr
    have hstatus : ({ s with pass := some p } : TcpLoop).connectStatus a req res
        = s.connectStatus a req res := rfl
    ext1
    · exact base_stopped.symm
    all_goals simp [TcpView.connected, TcpView.decreaseActive, view, hr, hstatus]

/-! ## Reads -/

/-- The event is none of a request that user code gave. -/
def Quiet (e : TcpEvent) : Prop := e.taken = none ∧ e.calledBack = none

/-- The loop goes on at a handle, and no request that user code gave is concerned. -/
structure Goes (s s' : TcpLoop) (a : ℕ) : Prop where
  base : ∀ b, b ≠ a → s'.base b = s.base b
  tcps : ∀ b, b ≠ a → s'.tcps b = s.tcps b
  busy : s'.busy = s.busy
  activeReqs : s'.activeReqs = s.activeReqs
  reqOf : s'.reqOf = s.reqOf
  kernel : s'.kernel = s.kernel
  reqs : s'.reqs = s.reqs
  work : (∀ w, s'.work = some w → w.handle = a) ∧ ∀ w, s.work = some w → w.handle = a

theorem Goes.own (h : Goes s s' a) (b : ℕ) (t : TcpReqType) : s'.own b t = s.own b t := by
  rw [TcpLoop.own, TcpLoop.own, h.busy]
  exact List.filter_congr fun q _ => by rw [waits, waits, h.reqOf]

theorem Goes.filter_work (h : Goes s s' a) : s'.work.filter (fun w => w.handle = a) = s'.work := by
  rcases hw : s'.work with _ | w
  · rfl
  · simp [Option.filter, h.work.1 w hw]

theorem Sound.goes {v : TcpView} (hs : s.Sound todo pending handles) (hg : Goes s s' a)
    (ha : a ∈ handles) (htable : s'.toHandleTable.Sound handles)
    (hreqs : s'.reqs.Holds s'.pass todo' pending)
    (hflight : (s.flight todo pending).Perm (s'.flight todo' pending)
      ∨ (s.flight todo pending).Perm (a :: s'.flight todo' pending))
    (hv : v = ⟨s'.base a, s'.tcps a, s.own a .connect, s.own a .write, s.own a .shutdown,
      decide (a ∈ s'.flight todo' pending), s'.work⟩) (hok : v.Ok)
    (hmove : s'.trace = s.trace ∧ v.uvTcp = s.uvTcp a ∨ ∃ e : TcpEvent, e.handle = a ∧ Quiet e
      ∧ s'.trace = s.trace ++ [e] ∧ UvTcp.event (s.uvTcp a) e = some v.uvTcp) :
    s'.Sound todo' pending handles ∧ s.Moves s' := by
  have hacc : SameAccount s s' := by
    rcases hmove with ⟨htrace, -⟩ | ⟨e, -, ⟨htaken, hcalled⟩, htrace, -⟩
    · exact ⟨by rw [htrace], by rw [htrace], hg.busy, hg.activeReqs⟩
    · exact ⟨by simp [htrace, htaken],
        by simp [htrace, hcalled], hg.busy, hg.activeReqs⟩
  have hmem : ∀ r, r ≠ a → (r ∈ s'.flight todo' pending ↔ r ∈ s.flight todo pending) := by
    intro r hr
    rcases hflight with hp | hp
    · exact hp.symm.mem_iff
    · rw [hp.mem_iff, List.mem_cons]
      exact (or_iff_right hr).symm
  have hnodup : (s'.flight todo' pending).Nodup := by
    rcases hflight with hp | hp
    · exact hp.nodup_iff.1 hs.census.nodup
    · exact (List.nodup_cons.1 (hp.nodup_iff.1 hs.census.nodup)).2
  refine hs.one ⟨hg.base, hg.tcps, fun b t _ => hg.own b t, .inr hg.work⟩ ha htable
    (hs.census.read hacc hreqs ha (.of_eq hg.reqOf hs.census.status) hnodup hmem)
    (fun b _ hb => hmem b hb) ?_ hok (hmove.imp_right fun ⟨e, he, _, h⟩ => ⟨e, he, h⟩)
  rw [hv]
  ext1
  · rfl
  · rfl
  · exact hg.own a _
  · exact hg.own a _
  · exact hg.own a _
  · rfl
  · exact hg.filter_work

theorem properStatus_readError {err : ℤ} (hst : properStatus err = true) (hne : err ≠ 0) :
    (if err = uvEconnaborted then uvEconnreset else err) < 0
      ∧ true = decide ((if err = uvEconnaborted then uvEconnreset else err) ≠ uvEof) := by
  simp only [properStatus, Bool.and_eq_true, decide_eq_true_eq] at hst
  split_ifs
  · simp [uvEconnreset, uvEof]
  · exact ⟨by omega, by simpa using hst.2⟩

/-- What becomes of the error of a read. -/
def readStatus (s : TcpLoop) (a : ℕ) : ℤ :=
  if (s.reqOf a).status = uvEconnaborted then uvEconnreset else (s.reqOf a).status

/-- The nonblocking reads begin. -/
theorem processTcpReadReq_of_ok (hst : (s.reqOf a).status = 0) : s.processTcpReadReq a = { s with
    tcps := Function.update s.tcps a { s.tcps a with readPending := false }
    work := some (.read a true) } := by
  simp [processTcpReadReq, setTcp, hst]

/-- No one waits for the error. -/
theorem processTcpReadReq_of_idle (hst : (s.reqOf a).status ≠ 0)
    (hoff : (s.tcps a).reading = false) : s.processTcpReadReq a = { s with
      toHandleTable := s.released a
      tcps := Function.update s.tcps a { s.tcps a with
        readPending := false, reqsPending := (s.tcps a).reqsPending - 1 } } := by
  simp [processTcpReadReq, setTcp, hst, hoff, decreasePendingReqCount_eq, released]

/-- The error ends reading. -/
theorem processTcpReadReq_of_reading (hst : (s.reqOf a).status ≠ 0)
    (hon : (s.tcps a).reading = true) : s.processTcpReadReq a = { s with
      toHandleTable := s.stopped a
      tcps := Function.update s.tcps a { s.tcps a with
        readPending := false, reading := false, activecnt := (s.tcps a).activecnt - 1 }
      work := some (.done a)
      trace := s.trace ++ [.readError a (s.readStatus a)] } := by
  simp [processTcpReadReq, setTcp, hst, hon, decreaseActiveCount_eq, stopped, log, readStatus]

theorem Sound.readReq {p : ReqsPass} (hs : s.Sound (a :: todo) pending handles) (ha : a ∈ handles)
    (hidle : s.work = none) (hreqs : s.reqs.Holds (some p) todo pending) :
    ({ s with pass := some p }.processTcpReadReq a).Sound todo pending handles
      ∧ s.Moves ({ s with pass := some p }.processTcpReadReq a) := by
  obtain ⟨s', hs'⟩ : ∃ s', { s with pass := some p }.processTcpReadReq a = s' := ⟨_, rfl⟩
  obtain ⟨hperm, -, -⟩ := hs.head
  have hok := hs.ok a ha
  have hnone : (s.view (s.flight (a :: todo) pending) a).work = none := by simp [view, hidle]
  have hin : (s.view (s.flight (a :: todo) pending) a).inFlight = true :=
    decide_eq_true (hperm.mem_iff.2 List.mem_cons_self)
  have hout : a ∉ s.flight todo pending :=
    (List.nodup_cons.1 (hperm.nodup_iff.1 hs.census.nodup)).1
  have hnw : ∀ {P : TcpWork → Prop} w, s.work = some w → P w := fun w hw => by
    rw [hidle] at hw
    exact absurd hw (by simp)
  rw [hs']
  by_cases hst : (s.reqOf a).status = 0
  · have heq := hs'.symm.trans
      (processTcpReadReq_of_ok (s := { s with pass := some p }) (a := a) hst)
    have hok' := hok.readReq hnone hin (w := .read a true) ⟨rfl, rfl⟩ (.inl rfl)
    rw [heq]
    refine hs.goes (a := a) ⟨fun b _ => rfl, fun b hb => ?_, rfl, rfl, rfl, rfl, rfl,
      fun w hw => ?_, hnw⟩ ha hs.table hreqs (.inr hperm) ?_ hok' (.inl ⟨rfl, rfl⟩)
    · simp [hb]
    · rw [← Option.some.inj hw]
      rfl
    · ext1
      · rfl
      · simp [TcpView.readReq, view]
      · rfl
      · rfl
      · rfl
      · exact (decide_eq_false hout).symm
      · rfl
  rcases hon : (s.tcps a).reading with _ | _
  · have heq := hs'.symm.trans
      (processTcpReadReq_of_idle (s := { s with pass := some p }) (a := a) hst hon)
    have hok' := (hok.readReq hnone hin (w := .done a) ⟨rfl, rfl⟩ (.inr hon)).release rfl
      ⟨rfl, rfl⟩ (by simp [TcpView.readReq, view, hon])
    rw [heq]
    refine hs.goes (a := a) ⟨fun b hb => base_released_ne hb, fun b hb => ?_, rfl, rfl, rfl, rfl,
      rfl, hnw, hnw⟩ ha (sound_released hs.table ha) hreqs (.inr hperm) ?_ hok' (.inl ⟨rfl, rfl⟩)
    · simp [hb]
    · ext1
      · exact base_released.symm
      · simp [TcpView.readReq, TcpView.release, view]
      · rfl
      · rfl
      · rfl
      · exact (decide_eq_false hout).symm
      · exact hidle.symm
  · have heq := hs'.symm.trans
      (processTcpReadReq_of_reading (s := { s with pass := some p }) (a := a) hst hon)
    obtain ⟨hneg, heof⟩ := properStatus_readError (hs.census.status a) hst
    obtain ⟨hstop, hevent⟩ := hok.stopReading hon true
    have hok' := hstop.readReq hnone hin (w := .done a) ⟨rfl, rfl⟩ (.inr rfl)
    rw [heq]
    refine hs.goes (a := a) ⟨fun b hb => base_stopped_ne hb, fun b hb => ?_, rfl, rfl, rfl, rfl,
      rfl, fun w hw => ?_, hnw⟩ ha (sound_stopped hs.table ha) hreqs (.inr hperm) ?_ hok'
      (.inr ⟨_, rfl, ⟨rfl, rfl⟩, rfl, hevent a _ hneg heof⟩)
    · simp [hb]
    · rw [← Option.some.inj hw]
      rfl
    · ext1
      · exact base_stopped.symm
      · simp [TcpView.readReq, TcpView.stopReading, TcpView.decreaseActive, view]
      · rfl
      · rfl
      · rfl
      · exact (decide_eq_false hout).symm
      · rfl

theorem Sound.recv (hs : s.Sound todo pending handles) {again : Bool}
    (hw : s.work = some (.read a again)) (hon : (s.tcps a).reading = true) {r : RecvResult}
    (hr : (Label.recv r).proper = true) :
    (s.recv a r).Sound todo pending handles ∧ s.Moves (s.recv a r) := by
  have ha : a ∈ handles := hs.work _ hw
  have hok := hs.ok a ha
  have hwork : (s.view (s.flight todo pending) a).work = some (.read a again) := by
    simp [view, hw, TcpWork.handle]
  have hold : ∀ w, s.work = some w → w.handle = a := fun w h => by
    rw [hw, Option.some.injEq] at h
    exact h ▸ rfl
  -- the loop goes on, and reading does too
  have hgoes : ∀ full, ({ s with work := some (.read a full) }.log (.recv a)).Sound todo pending
      handles ∧ s.Moves ({ s with work := some (.read a full) }.log (.recv a)) := by
    intro full
    have hok' : { s.view (s.flight todo pending) a with work := some (.read a full) }.Ok :=
      hok.inRead_work hwork rfl rfl
    have hevent : UvTcp.event (s.uvTcp a) (.recv a) = some (s.uvTcp a) := by
      have hused : (s.base a).ref = true := hok.used.1
      simp [uvTcp, TcpView.uvTcp, view, hused, UvTcp.event, hon]
    refine hs.goes (a := a) ⟨fun b _ => rfl, fun b _ => rfl, rfl, rfl, rfl, rfl, rfl,
      fun w h => ?_, hold⟩ ha hs.table hs.census.reqs (.inl (.refl _)) ?_ hok'
      (.inr ⟨.recv a, rfl, ⟨rfl, rfl⟩, rfl, hevent⟩)
    · rw [← Option.some.inj h]
      rfl
    · rfl
  -- reading ends
  have hends : ∀ {readable nread} {u : TcpLoop}, nread < 0 →
      readable = decide (nread ≠ uvEof) → u = { s with
        toHandleTable := s.stopped a
        tcps := Function.update s.tcps a { s.tcps a with
          reading := false
          readable := (s.tcps a).readable && readable
          activecnt := (s.tcps a).activecnt - 1 }
        work := some (.read a false)
        trace := s.trace ++ [.readError a nread] } →
      u.Sound todo pending handles ∧ s.Moves u := by
    rintro readable nread u hneg heof rfl
    obtain ⟨hstop, hevent⟩ := hok.stopReading hon readable
    have hok' : { TcpView.stopReading _ _ with work := some (.read a false) }.Ok :=
      hstop.inRead_work hwork rfl rfl
    refine hs.goes (a := a) ⟨fun b hb => base_stopped_ne hb, fun b hb => ?_, rfl, rfl, rfl, rfl,
      rfl, fun w h => ?_, hold⟩ ha (sound_stopped hs.table ha) hs.census.reqs (.inl (.refl _)) ?_
      hok' (.inr ⟨_, rfl, ⟨rfl, rfl⟩, rfl, hevent a _ hneg heof⟩)
    · simp [hb]
    · rw [← Option.some.inj h]
      rfl
    · ext1
      · exact base_stopped.symm
      · simp [TcpView.stopReading, TcpView.decreaseActive, view]
      all_goals rfl
  cases r with
  | bytes full => exact hgoes full
  | wouldBlock => exact hgoes false
  | eof =>
    refine @hends false uvEof _ (by decide) (by simp) ?_
    simp [TcpLoop.recv, setTcp, decreaseActiveCount_eq, stopped, log]
  | error err =>
    have hst : err ≠ 0 ∧ properStatus err = true := by simpa [Label.proper] using hr
    obtain ⟨hneg, heof⟩ := properStatus_readError hst.2 hst.1
    refine hends hneg heof ?_
    simp [TcpLoop.recv, setTcp, decreaseActiveCount_eq, stopped, log]

/-! ## Behind a callback -/

/-- What `uv_process_tcp_write_req` does to the handles of the loop behind its callback. -/
def writtenTable (s : TcpLoop) (a : ℕ) : HandleTable :=
  let t := if (s.tcps a).shutdownReq.isSome ∧ (s.tcps a).writeReqsPending - 1 = 0 then
    s.wantEndgame a else s.toHandleTable
  if (s.base a).closing = true ∧ (s.tcps a).reqsPending - 1 = 0 then t.wantEndgame a else t

theorem base_writtenTable : (s.writtenTable a).base b = if b = a then
    { s.base b with
      endgameQueued := (s.base b).endgameQueued
        || ((s.tcps b).shutdownReq.isSome && decide ((s.tcps b).writeReqsPending - 1 = 0))
        || ((s.base b).closing && decide ((s.tcps b).reqsPending - 1 = 0)) }
    else s.base b := by
  unfold writtenTable
  dsimp only
  by_cases hb : b = a
  · subst hb
    rcases hx : s.base b with ⟨_, _, closing, _, _, _⟩
    cases closing <;> split_ifs <;> simp_all
  · split_ifs <;> simp [hb]

theorem sound_writtenTable (hs : s.toHandleTable.Sound handles) (ha : a ∈ handles) :
    (s.writtenTable a).Sound handles := by
  unfold writtenTable
  dsimp only
  split_ifs
  · exact (hs.wantEndgame ha).wantEndgame ha
  · exact hs.wantEndgame ha
  · exact hs.wantEndgame ha
  · exact hs

theorem proceed_done (s : TcpLoop) (a : ℕ) (r : Submit) : s.proceed r (.done a) = { s with
    toHandleTable := s.released a
    tcps := Function.update s.tcps a { s.tcps a with reqsPending := (s.tcps a).reqsPending - 1 }
    work := none } := by
  simp [TcpLoop.proceed, decreasePendingReqCount_eq, released]

theorem proceed_read {again : Bool} (hoff : (s.tcps a).reading = false) (r : Submit) :
    s.proceed r (.read a again) = s.proceed r (.done a) := by
  simp [TcpLoop.proceed, hoff]

theorem proceed_write (s : TcpLoop) (a : ℕ) (r : Submit) : s.proceed r (.write a) = { s with
    toHandleTable := s.writtenTable a
    tcps := Function.update s.tcps a { s.tcps a with
      writeReqsPending := (s.tcps a).writeReqsPending - 1
      reqsPending := (s.tcps a).reqsPending - 1 }
    work := none } := by
  by_cases hz : (s.tcps a).shutdownReq.isSome = true ∧ (s.tcps a).writeReqsPending - 1 = 0 <;>
    simp [TcpLoop.proceed, setTcp, hz, decreasePendingReqCount_eq, released, writtenTable]

theorem proceed_shutdown (s : TcpLoop) (a : ℕ) (r : Submit) :
    s.proceed r (.shutdown a) = { s with
      toHandleTable := s.released a
      tcps := Function.update s.tcps a { s.tcps a with
        shutdownReq := none, reqsPending := (s.tcps a).reqsPending - 1 }
      work := none } := by
  simp [TcpLoop.proceed, setTcp, decreasePendingReqCount_eq, released]

/-- The read request of a handle that reads is posted again. -/
theorem Sound.readAgain (hs : s.Sound todo pending handles) {again : Bool}
    (hw : s.work = some (.read a again)) (hon : (s.tcps a).reading = true) {r : Submit}
    (hr : r.proper = true) : ∃ pending', (s.proceed r (.read a again)).Sound todo pending' handles
      ∧ s.Moves (s.proceed r (.read a again)) := by
  have ha : a ∈ handles := hs.work _ hw
  have hok := hs.ok a ha
  have hwork : (s.view (s.flight todo pending) a).work = some (.read a again) := by
    simp [view, hw, TcpWork.handle]
  obtain ⟨hcl, -, -⟩ := hok.reading hon
  have hcl : (s.base a).closing = false := hcl
  have hidle : a ∉ s.flight todo pending := by
    intro hin
    have hno := (hok.inFlight (decide_eq_true hin)).2
    simp [hwork, TcpWork.isRead] at hno
  have hpend : (s.tcps a).readPending = false := by
    rw [Bool.eq_false_iff]
    exact fun hp => hidle (of_decide_eq_true (hok.readPending hp))
  let t : TcpLoop := { s with
    reqOf := Function.update s.reqOf a { s.reqOf a with status := 0 }
    tcps := Function.update s.tcps a { s.tcps a with
      readPending := (s.tcps a).readPending || !r.isFailed
      reqsPending := (s.tcps a).reqsPending + 1 - 1 }
    work := none }
  have heq : s.proceed r (.read a again) = t.submit a r := by
    cases r <;> simp [TcpLoop.proceed, hon, hpend, tcpQueueRead_eq, decreasePendingReqCount_eq, t,
      released, submit, setReq, hcl, Submit.isFailed]
  have hacc : SameAccount s (t.submit a r) := ⟨by simp [t], by simp [t], by simp [t], by simp [t]⟩
  obtain ⟨pending', hcensus, hperm, hown⟩ := hs.census.submitRead ha hidle (t := t) hacc rfl
    ⟨rfl, rfl, rfl⟩ hr ⟨rfl, by cases r <;> rfl, rfl, rfl⟩
  have hok' := hok.releaseRead hwork rfl r.isFailed
  rw [if_pos (show (s.view (s.flight todo pending) a).tcp.reading = true from hon)] at hok'
  rw [heq]
  refine ⟨pending', hs.one ⟨fun b hb => by simp [t], fun b hb => by simp [t, hb],
    fun b t _ => hown b t, .inr ⟨fun w h => ?_, fun w h => ?_⟩⟩ ha (by simpa [t] using hs.table)
    hcensus (fun b _ hb => ?_) ?_ hok' (.inl ⟨by simp [t], rfl⟩)⟩
  · simp [t] at h
  · rw [hw, Option.some.injEq] at h
    exact h ▸ rfl
  · rw [hperm.mem_iff, List.mem_cons]
    exact or_iff_right hb
  · ext1
    · rcases hb : s.base a with ⟨_, _, closing, _, _, _⟩
      obtain rfl : closing = false := by simpa [hb] using hcl
      simp [view, t, TcpView.release, TcpView.queueRead, hb]
    · simp [view, t, TcpView.release, TcpView.queueRead]
    · exact hown a _
    · exact hown a _
    · exact hown a _
    · exact decide_eq_true (hperm.mem_iff.2 List.mem_cons_self)
    · simp [view, t, TcpView.release]

/-- No read is posted. -/
theorem Sound.behind (hs : s.Sound todo pending handles) {w : TcpWork} (hw : s.work = some w)
    (hoff : w.isRead = true → (s.tcps w.handle).reading = false) (r : Submit) :
    (s.proceed r w).Sound todo pending handles ∧ s.Moves (s.proceed r w) := by
  obtain ⟨a, haw⟩ : ∃ a, w.handle = a := ⟨_, rfl⟩
  have ha : a ∈ handles := haw ▸ hs.work _ hw
  have hok := hs.ok a ha
  have hwork : (s.view (s.flight todo pending) a).work = some w := by simp [view, hw, haw]
  have hold : ∀ x, s.work = some x → x.handle = a := fun x h => by
    rw [hw, Option.some.injEq] at h
    exact h ▸ haw
  -- the callback is done, and the handle has one request less
  have hdone : ∀ (f : TcpHandle) {v : TcpView} {t : HandleTable} {u : TcpLoop},
      t.Sound handles → (∀ b, b ≠ a → t.base b = s.base b) →
      u = { s with toHandleTable := t, tcps := Function.update s.tcps a f, work := none } →
      v = ⟨t.base a, f, s.own a .connect, s.own a .write, s.own a .shutdown,
        decide (a ∈ s.flight todo pending), none⟩ → v.Ok → v.uvTcp = s.uvTcp a →
      u.Sound todo pending handles ∧ s.Moves u := by
    rintro f v t u ht hbase rfl hv hok' hsame
    refine hs.goes (a := a) ⟨hbase, fun b hb => ?_, rfl, rfl, rfl, rfl, rfl, fun x h => ?_, hold⟩
      ha ht hs.census.reqs (.inl (.refl _)) ?_ hok' (.inl ⟨rfl, hsame⟩)
    · simp [hb]
    · exact absurd h (by simp)
    · rw [hv]
      ext1
      · rfl
      · simp
      all_goals rfl
  cases w with
  | done b =>
    obtain rfl : b = a := haw
    refine hdone _ (sound_released hs.table ha) (fun b hb => base_released_ne hb)
      (proceed_done s b r) ?_ (hok.release hwork ⟨rfl, rfl⟩ fun hon => ?_) rfl
    · ext1
      · exact base_released.symm
      all_goals rfl
    · exact (hok.reading hon).2.2.resolve_right (by simp [hwork, TcpWork.isRead])
  | read b again =>
    obtain rfl : b = a := haw
    have hoff : (s.tcps b).reading = false := hoff rfl
    have hok' := hok.releaseRead hwork rfl false
    rw [if_neg (by simp [view, hoff])] at hok'
    refine hdone _ (sound_released hs.table ha) (fun b hb => base_released_ne hb)
      ((proceed_read hoff r).trans (proceed_done s b r)) ?_ hok' rfl
    ext1
    · exact base_released.symm
    all_goals rfl
  | write b =>
    obtain rfl : b = a := haw
    refine hdone _ (sound_writtenTable hs.table ha) (fun b hb => ?_) (proceed_write s b r) ?_
      (hok.releaseWrite hwork) rfl
    · rw [base_writtenTable, if_neg hb]
    · ext1
      · exact (base_writtenTable.trans (if_pos rfl)).symm
      all_goals rfl
  | shutdown b =>
    obtain rfl : b = a := haw
    refine hdone _ (sound_released hs.table ha) (fun b hb => base_released_ne hb)
      (proceed_shutdown s b r) ?_ (hok.releaseShutdown hwork) rfl
    ext1
    · exact base_released.symm
    all_goals rfl

theorem Sound.proceed (hs : s.Sound todo pending handles) {w : TcpWork} (hw : s.work = some w)
    {r : Submit} (hr : r.proper = true) : ∃ pending', (s.proceed r w).Sound todo pending' handles
      ∧ s.Moves (s.proceed r w) := by
  by_cases hon : w.isRead = true ∧ (s.tcps w.handle).reading = true
  · cases w with
    | read a again => exact hs.readAgain hw hon.2 hr
    | done a | write a | shutdown a => simp [TcpWork.isRead] at hon
  · exact ⟨pending, hs.behind hw (by simpa using hon) r⟩

theorem Sound.processReq {p : ReqsPass} (hs : s.Sound todo pending handles) (hidle : s.work = none)
    (hp : s.pass = some p) (res : ℤ) :
    (∃ todo', (s.processReq p res).Sound todo' pending handles) ∧ s.Moves (s.processReq p res) := by
  have hround := (hp ▸ hs.census.reqs).round
  unfold TcpLoop.processReq
  rcases hr : p.round s.reqs with _ | ⟨req, p'⟩ <;> rw [hr] at hround
  · subst hround
    have hreqs : s.reqs.Holds (some p) [] pending := hp ▸ hs.census.reqs
    have hend : ({ s with pass := none } : TcpLoop).Sound [] pending handles ∧ _ :=
      hs.same rfl rfl rfl rfl rfl rfl hreqs.endPass (.refl _) (.of_eq rfl hs.census.status)
    exact ⟨⟨[], hend.1⟩, .inl hend.2⟩
  · obtain ⟨rest, rfl, hreqs⟩ := hround
    obtain ⟨-, hno, hread⟩ := hs.head
    dsimp only
    rcases ht : (s.reqOf req).type with _ | _ | _ | _
    · obtain ⟨hs', hm⟩ := hs.connected hidle hreqs ht res
      exact ⟨⟨rest, hs'⟩, hm⟩
    · have hbusy : req ∉ s.busy := fun hb => (hs.census.user req hb).2.2 ht
      obtain ⟨hin, -, hh⟩ := hread.resolve_left hbusy
      obtain ⟨hs', hm⟩ := hs.readReq hin hidle hreqs
      rw [hh]
      exact ⟨⟨rest, hs'⟩, hm⟩
    · obtain ⟨hs', hm⟩ := hs.written hidle hreqs ht
      exact ⟨⟨rest, hs'⟩, hm⟩
    · exact absurd ht hno

/-! ## Endgames -/

theorem Sound.popEndgame (hs : s.Sound todo pending handles) (hidle : s.work = none)
    (hq : s.endgameHandles = a :: rest)
    (hno : ¬ ((s.base a).closing = true ∧ (s.tcps a).reqsPending = 0))
    (hsh : (s.tcps a).shutdownReq.isSome = true → (s.tcps a).writeReqsPending ≠ 0) :
    { s with toHandleTable := s.popEndgame a rest }.Sound todo pending handles
      ∧ s.Moves { s with toHandleTable := s.popEndgame a rest } := by
  have ha : a ∈ handles := hs.queued a ((hs.table.queued a).1 (hq ▸ List.mem_cons_self))
  have hnone : ∀ w, s.work = some w → w.handle = a := fun w hw => by
    rw [hidle] at hw
    exact absurd hw (by simp)
  refine hs.goes (a := a) ⟨fun b hb => ?_, fun b _ => rfl, rfl, rfl, rfl, rfl, rfl, hnone, hnone⟩
    ha (hs.table.popEndgame hq ha) hs.census.reqs (.inl (.refl _)) ?_
    ((hs.ok a ha).popped hno hsh) (.inl ⟨rfl, rfl⟩)
  · simp [hb]
  · ext1
    · simp [view, TcpView.popped]
    · rfl
    · rfl
    · rfl
    · rfl
    · rfl
    · simp [view, TcpView.popped, hidle]

theorem tcpEndgame_of_shutdown (hr : (s.tcps a).shutdownReq = some req)
    (hgo : (s.tcps a).connection = true ∧ (s.tcps a).writeReqsPending = 0) (res : ℤ) :
    s.tcpEndgame a res = { s with
      toHandleTable := s.stopped a
      tcps := Function.update s.tcps a { s.tcps a with activecnt := (s.tcps a).activecnt - 1 }
      activeReqs := s.activeReqs - 1
      busy := s.busy.erase req
      work := some (.shutdown a)
      trace := s.trace ++
        [.shutdownDone a req (if (s.base a).closing then uvEcanceled else res)] } := by
  have hclosing : ((s.stopped a).base a).closing = (s.base a).closing := by rw [base_stopped]
  rw [tcpEndgame, hr]
  dsimp only
  rw [if_pos hgo]
  simp only [unregisterHandleReq_eq, hclosing, log]

theorem tcpEndgame_of_not
    (hno : (s.tcps a).shutdownReq.isSome = true → (s.tcps a).writeReqsPending ≠ 0) (res : ℤ) :
    s.tcpEndgame a res = s.tcpEnds a := by
  rw [tcpEndgame]
  rcases hr : (s.tcps a).shutdownReq with _ | req
  · rfl
  · simp [hno (by simp [hr])]

/-- The shutdown request is called back. -/
theorem Sound.shutDown (hs : s.Sound todo pending handles) (hidle : s.work = none)
    (hq : s.endgameHandles = a :: rest) (hr : (s.tcps a).shutdownReq = some req)
    (hz : (s.tcps a).writeReqsPending = 0) (res : ℤ) :
    let s' := { s with toHandleTable := s.popEndgame a rest }.tcpEndgame a res
    s'.Sound todo pending handles ∧ s.Moves s' := by
  intro s'
  have ha : a ∈ handles := hs.queued a ((hs.table.queued a).1 (hq ▸ List.mem_cons_self))
  have hok := hs.ok a ha
  have hc : (s.tcps a).connection = true := hok.shutdownReq (by simp [view, hr])
  have hnone : (s.view (s.flight todo pending) a).work = none := by simp [view, hidle]
  let t : TcpLoop := { s with toHandleTable := s.popEndgame a rest }
  have ht : t.toHandleTable.Sound handles := hs.table.popEndgame hq ha
  have hclosing : (t.base a).closing = (s.base a).closing := by simp [t]
  have heq := tcpEndgame_of_shutdown (s := t) hr ⟨hc, hz⟩ res
  rw [hclosing] at heq
  obtain ⟨hok', hone, hevent⟩ := hok.shutDown hnone hr hz a
    (if (s.base a).closing then uvEcanceled else res)
  have hmem : req ∈ s.own a .shutdown := by
    have hone : s.own a .shutdown = [req] := hone
    simp [hone]
  obtain ⟨hb, hh, htype⟩ := mem_own.1 hmem
  rw [show s' = _ from heq]
  refine hs.finish (r := req) ⟨rfl, rfl, hb, rfl, _, rfl, rfl, rfl⟩ htype hh (fun b hb => ?_)
    (fun b hb => ?_) hidle rfl rfl ?_ hs.census.reqs ?_ ?_ hok' rfl rfl hevent
  · show (t.stopped a).base b = s.base b
    rw [base_stopped_ne hb]
    simp [t, hb]
  · simp [t, hb]
  · exact sound_stopped ht ha
  · rw [if_pos htype]
    exact .refl _
  · have hone : s.own a .shutdown = [req] := hone
    ext1
    · have hpop : t.base a = (s.view (s.flight todo pending) a).popped.base := by
        simp [t, TcpView.popped, view]
      show _ = (t.stopped a).base a
      rw [base_stopped, hpop]
      rfl
    all_goals simp [t, TcpView.shutDown, TcpView.popped, TcpView.decreaseActive, view, hone]

/-- The handle is closed. -/
theorem Sound.closed (hs : s.Sound todo pending handles) (hidle : s.work = none)
    (hq : s.endgameHandles = a :: rest) (hcl : (s.base a).closing = true)
    (hz : (s.tcps a).reqsPending = 0) {s' : TcpLoop} (hs' : s' = { s with
      toHandleTable := (s.popEndgame a rest).handleClose a
      trace := s.trace ++ [.close a (s.base a).closeCb] }) :
    s'.Sound todo pending (handles.erase a) ∧ s.Moves s' := by
  have ha : a ∈ handles := hs.queued a ((hs.table.queued a).1 (hq ▸ List.mem_cons_self))
  obtain ⟨hc, hw, hsh, hin, -, hevent⟩ := (hs.ok a ha).ends hcl hz
  have hown : ∀ t, t ≠ .read → s.own a t = [] := by
    intro t ht
    cases t with
    | connect => exact hc
    | read => exact absurd rfl ht
    | write => exact hw
    | shutdown => exact hsh
  have hno : ∀ r ∈ s.busy, (s.reqOf r).handle ≠ a := by
    intro r hr hra
    have hmem : r ∈ s.own a (s.reqOf r).type := mem_own.2 ⟨hr, hra, rfl⟩
    rw [hown _ (hs.census.user r hr).2.2] at hmem
    exact List.not_mem_nil hmem
  have hout : a ∉ s.flight todo pending := of_decide_eq_false hin
  have hmem : ∀ b ∈ handles.erase a, b ≠ a ∧ b ∈ handles :=
    fun b hb => hs.table.base_nodup.mem_erase_iff.1 hb
  have hmem' : ∀ b ∈ handles, b ≠ a → b ∈ handles.erase a :=
    fun b hb hne => hs.table.base_nodup.mem_erase_iff.2 ⟨hne, hb⟩
  have hbase : ∀ b, b ≠ a → s'.base b = s.base b := by
    intro b hb
    simp [hs', hb]
  have hview : ∀ b, b ≠ a → ∀ flight, s'.view flight b = s.view flight b := by
    intro b hb flight
    ext1
    · exact hbase b hb
    all_goals rw [hs']; rfl
  have hcensus := hs.census
  refine ⟨⟨?_, ⟨by rw [hs']; exact hcensus.reqs, by rw [hs']; exact hcensus.nodup,
    by rw [hs']; exact hcensus.busy, fun r hr => ?_, by rw [hs']; exact hcensus.under,
    fun r hr hn => ?_, fun b hb => ?_, by rw [hs']; exact hcensus.status,
    by rw [hs']; exact hcensus.activeReqs, ?_⟩, fun b hb => ?_, fun b hb => ?_, fun w hw => ?_,
    fun b hb => ?_⟩, .inr ⟨.close a (s.base a).closeCb, by rw [hs'], fun b hb => ?_, ?_⟩⟩
  · rw [hs']
    exact (hs.table.popEndgame hq ha).handleClose ha (by simp [hcl])
  · rw [hs'] at hr ⊢
    obtain ⟨h₁, h₂, h₃⟩ := hcensus.user r hr
    exact ⟨fun h => h₁ (hmem r h).2, hmem' _ h₂ (hno r hr), h₃⟩
  · rw [hs'] at hr hn
    have hra : r ≠ a := fun he => hout (he ▸ hr)
    exact hmem' r (hcensus.reads r hr hn) hra
  · rw [hs']
    exact hcensus.ofHandle b (hmem b hb).2
  · rw [hs']
    simpa [List.filterMap_cons, TcpEvent.taken, TcpEvent.calledBack] using hcensus.account
  · obtain ⟨hne, hb⟩ := hmem b hb
    have hflight : s'.flight todo pending = s.flight todo pending := by rw [hs']; rfl
    rw [hflight, hview b hne]
    exact hs.ok b hb
  · by_cases hba : b = a
    · subst hba
      simp [hs'] at hb
    · rw [hbase b hba] at hb
      exact hmem' b (hs.queued b hb) hba
  · rw [hs'] at hw
    exact absurd hw (by simp [hidle])
  · by_cases hba : b = a
    · subst hba
      rw [hs']
      have hrd := mt (hs.ok b ha).readable
      have hwr := mt (hs.ok b ha).writable
      simp only [view, hcl] at hrd hwr
      simp_all
    · have hb' : b ∉ handles := fun h => hb (hmem' b h hba)
      rw [hs']
      exact hs.shut b hb'
  · exact congrArg TcpView.uvTcp (hview b hb [])
  · have hnew : s'.uvTcp a = TcpView.uvTcp { s.view (s.flight todo pending) a with
        base := { (s.view (s.flight todo pending) a).base with closed := true } } := by
      have hba : s'.base a = { s.base a with endgameQueued := false, closed := true } := by
        simp [hs']
      have htcps : s'.tcps = s.tcps := by rw [hs']
      have hsame : ∀ t, s'.own a t = s.own a t := fun t => by rw [hs']; rfl
      simp [uvTcp, TcpView.uvTcp, view, TcpView.phase, hba, htcps, hsame]
    rw [TcpEvent.handle, hnew]
    exact hevent a _

theorem Sound.processEndgame (hs : s.Sound todo pending handles) (hidle : s.work = none)
    {res : ℤ} (hstep : s.processEndgame res = some s') :
    (∃ handles', s'.Sound todo pending handles') ∧ s.Moves s' := by
  unfold TcpLoop.processEndgame at hstep
  rcases hq : s.endgameHandles with _ | ⟨a, rest⟩
  · rw [hq] at hstep
    exact absurd hstep (by simp)
  rw [hq, Option.some.injEq] at hstep
  have ha : a ∈ handles := hs.queued a ((hs.table.queued a).1 (hq ▸ List.mem_cons_self))
  have hok := hs.ok a ha
  by_cases hsh : (s.tcps a).shutdownReq.isSome = true ∧ (s.tcps a).writeReqsPending = 0
  · obtain ⟨req, hr⟩ := Option.isSome_iff_exists.1 hsh.1
    obtain ⟨hs', hm⟩ := hs.shutDown hidle hq hr hsh.2 res
    exact hstep ▸ ⟨⟨handles, hs'⟩, hm⟩
  have hends := (tcpEndgame_of_not (s := { s with toHandleTable := s.popEndgame a rest }) (a := a)
    (fun h hz => hsh ⟨h, hz⟩) res).symm.trans hstep
  rw [← hends, tcpEnds]
  have hclosing : ((s.popEndgame a rest).base a).closing = (s.base a).closing := by simp
  have hcb : ((s.popEndgame a rest).base a).closeCb = (s.base a).closeCb := by simp
  rw [hclosing]
  split_ifs with hc
  · obtain ⟨hs', hm⟩ := hs.closed hidle hq hc.1 hc.2 rfl
    rw [hcb]
    exact ⟨⟨_, hs'⟩, hm⟩
  · obtain ⟨hs', hm⟩ := hs.popEndgame hidle hq hc fun h hz => hsh ⟨h, hz⟩
    exact ⟨⟨_, hs'⟩, hm⟩

end TcpLoop

end TestLibuv
