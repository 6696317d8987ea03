import TestLibuv.Proofs.TcpCensus

/-!
# What holds of a loop with TCP handles

Every step of the loop and every call of user code concerns one handle at most. The requests stay
accounted for, and the handles keep what `TcpView.Ok` says.
-/

namespace TestLibuv

namespace TcpLoop

variable {s s' : TcpLoop} {todo todo' pending pending' handles : List ℕ} {a b req : ℕ}

/-- What concerns one handle. -/
def view (s : TcpLoop) (flight : List ℕ) (a : ℕ) : TcpView where
  base := s.base a
  tcp := s.tcps a
  connects := s.own a .connect
  writes := s.own a .write
  shutdowns := s.own a .shutdown
  inFlight := a ∈ flight
  work := s.work.filter fun w => w.handle = a

/-- The handle as its user sees it. -/
def uvTcp (s : TcpLoop) (a : ℕ) : Option (UvTcp ℕ) := (s.view [] a).uvTcp

/-- What holds in every state. -/
structure Sound (s : TcpLoop) (todo pending handles : List ℕ) : Prop where
  table : s.toHandleTable.Sound handles
  census : s.Census todo pending handles
  ok : ∀ a ∈ handles, (s.view (s.flight todo pending) a).Ok
  queued : ∀ a, (s.base a).endgameQueued = true → a ∈ handles
  work : ∀ w, s.work = some w → w.handle ∈ handles
  shut : ∀ a, a ∉ handles → (s.tcps a).readable = false ∧ (s.tcps a).writable = false

/-- The users of the handles see nothing of the step. -/
def Still (s s' : TcpLoop) : Prop := s'.trace = s.trace ∧ ∀ a, s'.uvTcp a = s.uvTcp a

/-- The step is none of the handles', or is one of one handle and as `UvTcp` has it. -/
def Moves (s s' : TcpLoop) : Prop :=
  s.Still s' ∨ ∃ e, s'.trace = s.trace ++ [e]
    ∧ (∀ a, a ≠ e.handle → s'.uvTcp a = s.uvTcp a)
    ∧ UvTcp.event (s.uvTcp e.handle) e = some (s'.uvTcp e.handle)

/-- What a step leaves alone that is one handle's. -/
structure Elsewhere (s s' : TcpLoop) (a : ℕ) : Prop where
  base : ∀ b, b ≠ a → s'.base b = s.base b
  tcps : ∀ b, b ≠ a → s'.tcps b = s.tcps b
  own : ∀ b t, b ≠ a → s'.own b t = s.own b t
  work : s'.work = s.work
    ∨ (∀ w, s'.work = some w → w.handle = a) ∧ ∀ w, s.work = some w → w.handle = a

theorem Elsewhere.filter_work (h : Elsewhere s s' a) (hb : b ≠ a) :
    s'.work.filter (fun w => w.handle = b) = s.work.filter fun w => w.handle = b := by
  rcases h.work with hw | ⟨hw', hw⟩
  · rw [hw]
  · have hnone : ∀ {o : Option TcpWork}, (∀ w, o = some w → w.handle = a) →
        o.filter (fun w => w.handle = b) = none := by
      intro o ho
      rcases o with _ | w
      · rfl
      · have hne : w.handle ≠ b := fun he => hb (he ▸ ho w rfl)
        simp [Option.filter, hne]
    rw [hnone hw', hnone hw]

theorem Elsewhere.uvTcp (h : Elsewhere s s' a) (hb : b ≠ a) : s'.uvTcp b = s.uvTcp b := by
  have hview : s'.view [] b = s.view [] b := by
    ext1
    · exact h.base b hb
    · exact h.tcps b hb
    · exact h.own b _ hb
    · exact h.own b _ hb
    · exact h.own b _ hb
    · rfl
    · exact h.filter_work hb
  rw [TcpLoop.uvTcp, hview]
  rfl

/-- A step of one handle, which becomes as `v` has it: its user sees nothing of it, or it is as
`UvTcp` has it. -/
theorem Sound.one {v : TcpView} (hs : s.Sound todo pending handles) (helse : Elsewhere s s' a)
    (ha : a ∈ handles) (htable : s'.toHandleTable.Sound handles)
    (hcensus : s'.Census todo' pending' handles)
    (hflight : ∀ b ∈ handles, b ≠ a →
      (b ∈ s'.flight todo' pending' ↔ b ∈ s.flight todo pending))
    (hview : s'.view (s'.flight todo' pending') a = v) (hok : v.Ok)
    (hmove : s'.trace = s.trace ∧ v.uvTcp = s.uvTcp a ∨ ∃ e : TcpEvent, e.handle = a
      ∧ s'.trace = s.trace ++ [e] ∧ UvTcp.event (s.uvTcp a) e = some v.uvTcp) :
    s'.Sound todo' pending' handles ∧ s.Moves s' := by
  subst hview
  constructor
  · refine ⟨htable, hcensus, fun b hb => ?_, fun b hb => ?_, fun w hw => ?_, fun b hb => ?_⟩
    · by_cases hba : b = a
      · exact hba ▸ hok
      · have hview : s'.view (s'.flight todo' pending') b
            = s.view (s.flight todo pending) b := by
          ext1
          · exact helse.base b hba
          · exact helse.tcps b hba
          · exact helse.own b _ hba
          · exact helse.own b _ hba
          · exact helse.own b _ hba
          · exact decide_eq_decide.2 (hflight b hb hba)
          · exact helse.filter_work hba
        rw [hview]
        exact hs.ok b hb
    · by_cases hba : b = a
      · exact hba ▸ ha
      · rw [helse.base b hba] at hb
        exact hs.queued b hb
    · rcases helse.work with h | ⟨h, -⟩
      · exact hs.work w (h ▸ hw)
      · exact h w hw ▸ ha
    · rw [helse.tcps b fun he => hb (he ▸ ha)]
      exact hs.shut b hb
  · rcases hmove with ⟨htrace, hv⟩ | ⟨e, rfl, htrace, hv⟩
    · refine .inl ⟨htrace, fun b => ?_⟩
      by_cases hb : b = a
      · exact hb ▸ hv
      · exact helse.uvTcp hb
    · exact .inr ⟨e, htrace, fun _ hb => helse.uvTcp hb, hv⟩

/-- No handle changes. -/
theorem Sound.same (hs : s.Sound todo pending handles)
    (htable : s'.toHandleTable = s.toHandleTable) (htcps : s'.tcps = s.tcps)
    (hwork : s'.work = s.work) (htrace : s'.trace = s.trace) (hbusy : s'.busy = s.busy)
    (hactive : s'.activeReqs = s.activeReqs) (hreqs : s'.reqs.Holds s'.pass todo' pending')
    (hperm : (s'.flight todo' pending').Perm (s.flight todo pending))
    (hsame : SameReqs s s' (s.busy ++ handles)) :
    s'.Sound todo' pending' handles ∧ s.Still s' := by
  have hview : ∀ b flight flight', (b ∈ flight' ↔ b ∈ flight) →
      s'.view flight' b = s.view flight b := by
    intro b flight flight' hb
    have hown := own_same hbusy hsame (fun r => List.mem_append_left handles) b
    ext1
    · exact congrFun (congrArg HandleTable.base htable) b
    · exact congrFun htcps b
    · exact hown _
    · exact hown _
    · exact hown _
    · exact decide_eq_decide.2 hb
    · exact congrArg (Option.filter fun w => decide (w.handle = b)) hwork
  have hacc : SameAccount s s' := ⟨by rw [htrace], by rw [htrace], hbusy, hactive⟩
  refine ⟨⟨?_, hs.census.same hacc hreqs hperm hsame, fun b hb => ?_, ?_, ?_, ?_⟩, htrace,
    fun b => congrArg TcpView.uvTcp (hview b [] [] .rfl)⟩
  · rw [htable]
    exact hs.table
  · rw [hview b _ _ hperm.mem_iff]
    exact hs.ok b hb
  · rw [htable]
    exact hs.queued
  · rw [hwork]
    exact hs.work
  · rw [htcps]
    exact hs.shut

/-! ## The macros -/

/-- The handle counts as active, as it does with a request or while it reads. -/
def started (s : TcpLoop) (a : ℕ) : HandleTable :=
  if (s.tcps a).activecnt = 0 then s.handleStart a else s.toHandleTable

/-- The handle counts as active while the counter is not 0. -/
def stopped (s : TcpLoop) (a : ℕ) : HandleTable :=
  if (s.tcps a).activecnt - 1 = 0 ∧ (s.base a).closing = false then s.handleStop a
  else s.toHandleTable

/-- The endgame is due where the handle waits for no other request. -/
def released (s : TcpLoop) (a : ℕ) : HandleTable :=
  if (s.base a).closing = true ∧ (s.tcps a).reqsPending - 1 = 0 then s.wantEndgame a
  else s.toHandleTable

theorem increaseActiveCount_eq (s : TcpLoop) (a : ℕ) : s.increaseActiveCount a = { s with
    toHandleTable := s.started a
    tcps := Function.update s.tcps a
      { s.tcps a with activecnt := (s.tcps a).activecnt + 1 } } := by
  unfold increaseActiveCount started setTcp
  dsimp only
  split_ifs <;> rfl

theorem decreaseActiveCount_eq (s : TcpLoop) (a : ℕ) : s.decreaseActiveCount a = { s with
    toHandleTable := s.stopped a
    tcps := Function.update s.tcps a
      { s.tcps a with activecnt := (s.tcps a).activecnt - 1 } } := by
  unfold decreaseActiveCount stopped setTcp
  simp only [Function.update_self]
  split_ifs <;> rfl

theorem decreasePendingReqCount_eq (s : TcpLoop) (a : ℕ) : s.decreasePendingReqCount a = { s with
    toHandleTable := s.released a
    tcps := Function.update s.tcps a
      { s.tcps a with reqsPending := (s.tcps a).reqsPending - 1 } } := by
  unfold decreasePendingReqCount released setTcp
  simp only [Function.update_self]
  split_ifs <;> rfl

section Table

variable (hs : s.toHandleTable.Sound handles) (ha : a ∈ handles)
include hs ha

theorem sound_started (hcl : (s.base a).closing = false) : (s.started a).Sound handles := by
  unfold started
  split_ifs
  · exact hs.handleStart ha hcl
  · exact hs

theorem sound_stopped : (s.stopped a).Sound handles := by
  unfold stopped
  split_ifs with h
  · exact hs.handleStop ha h.2
  · exact hs

theorem sound_released : (s.released a).Sound handles := by
  unfold released
  split_ifs
  · exact hs.wantEndgame ha
  · exact hs

end Table

theorem base_started_ne (hb : b ≠ a) : (s.started a).base b = s.base b := by
  unfold started
  split_ifs
  · simp [hb]
  · rfl

theorem base_stopped_ne (hb : b ≠ a) : (s.stopped a).base b = s.base b := by
  unfold stopped
  split_ifs
  · simp [hb]
  · rfl

theorem base_released_ne (hb : b ≠ a) : (s.released a).base b = s.base b := by
  unfold released
  split_ifs
  · simp [hb]
  · rfl

theorem base_started (hact : (s.base a).active = true ↔ 0 < (s.tcps a).activecnt) :
    (s.started a).base a = { s.base a with active := true } := by
  unfold started
  split_ifs with hz
  · simp
  · have hon := hact.2 (by omega)
    rcases hx : s.base a with ⟨_, _, _, _, _, _⟩
    simp_all

theorem base_stopped : (s.stopped a).base a = { s.base a with
    active := (s.base a).active
      && ((s.base a).closing || decide ((s.tcps a).activecnt - 1 ≠ 0)) } := by
  unfold stopped
  split_ifs with hz
  · simp [hz]
  · rcases hx : s.base a with ⟨_, _, closing, _, _, _⟩
    cases closing <;> simp_all

theorem base_released : (s.released a).base a = { s.base a with
    endgameQueued := (s.base a).endgameQueued
      || ((s.base a).closing && decide ((s.tcps a).reqsPending - 1 = 0)) } := by
  unfold released
  split_ifs with hz
  · simp [hz]
  · rcases hx : s.base a with ⟨_, _, closing, _, _, _⟩
    cases closing <;> simp_all

/-! ## Submitted requests -/

/-- A request that was submitted is with the system or waits to be processed. -/
theorem holds_submit (h : s.reqs.Holds s.pass todo pending)
    (hr : req ∉ s.flight todo pending) (r : Submit) : ∃ pending',
      (s.submit req r).reqs.Holds (s.submit req r).pass todo pending'
        ∧ ((s.submit req r).flight todo pending').Perm (req :: s.flight todo pending) := by
  have hnot : req ∉ todo ++ pending := fun hin => hr (List.mem_append_right _ hin)
  have hins : (s.kernel ++ (todo ++ (pending ++ [req]))).Perm
      (req :: (s.kernel ++ (todo ++ pending))) := by
    rw [← List.append_assoc todo, ← List.append_assoc s.kernel]
    exact List.perm_append_singleton req _
  cases r with
  | bypass => exact ⟨pending ++ [req], h.insertPendingReq hnot, hins⟩
  | failed err => exact ⟨pending ++ [req], h.insertPendingReq hnot, hins⟩
  | queued =>
    refine ⟨pending, h, ?_⟩
    show (s.kernel ++ [req] ++ (todo ++ pending)).Perm _
    rw [List.append_assoc]
    exact List.perm_middle

section Submit

variable (s) (req) (r : Submit)

@[simp] theorem toHandleTable_submit : (s.submit req r).toHandleTable = s.toHandleTable := by
  cases r <;> rfl

@[simp] theorem tcps_submit : (s.submit req r).tcps = s.tcps := by cases r <;> rfl

@[simp] theorem activeReqs_submit : (s.submit req r).activeReqs = s.activeReqs := by cases r <;> rfl

@[simp] theorem work_submit : (s.submit req r).work = s.work := by cases r <;> rfl

@[simp] theorem busy_submit : (s.submit req r).busy = s.busy := by cases r <;> rfl

@[simp] theorem trace_submit : (s.submit req r).trace = s.trace := by cases r <;> rfl

@[simp] theorem type_submit (q : ℕ) : ((s.submit req r).reqOf q).type = (s.reqOf q).type := by
  cases r <;> by_cases hq : q = req <;> simp [submit, setReq, hq]

@[simp] theorem handle_submit (q : ℕ) :
    ((s.submit req r).reqOf q).handle = (s.reqOf q).handle := by
  cases r <;> by_cases hq : q = req <;> simp [submit, setReq, hq]

theorem reqOf_submit_ne {q : ℕ} (hq : q ≠ req) : (s.submit req r).reqOf q = s.reqOf q := by
  cases r <;> simp [submit, setReq, hq]

theorem status_submit (hr : r.proper = true) {q : ℕ}
    (hq : properStatus (s.reqOf q).status = true) :
    properStatus ((s.submit req r).reqOf q).status = true := by
  cases r with
  | failed err =>
    by_cases hqr : q = req
    · simpa [submit, setReq, hqr] using (Bool.and_eq_true_iff.1 hr).2
    · simpa [submit, setReq, hqr] using hq
  | _ => exact hq

end Submit

end TcpLoop

end TestLibuv
