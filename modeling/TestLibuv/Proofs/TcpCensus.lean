import TestLibuv.Proofs.HandleTable
import TestLibuv.Proofs.PendingQueue
import TestLibuv.Proofs.TcpViews

/-!
# Where the requests are

A request that user code gave is with the system, or waits to be processed, or is a shutdown that
waits for its endgame, till its callback is made; there is one for each it gave. The read request of
a handle is in such a place at most once.
-/

namespace TestLibuv

namespace TcpLoop

variable {s s' : TcpLoop} {todo todo' pending pending' handles : List ℕ} {a b r : ℕ}

@[simp] theorem properStatus_zero : properStatus 0 = true := rfl

/-- The requests that the system has or that wait to be processed. -/
def flight (s : TcpLoop) (todo pending : List ℕ) : List ℕ := s.kernel ++ (todo ++ pending)

/-- The requests of one type that a handle waits for. -/
def own (s : TcpLoop) (a : ℕ) (t : TcpReqType) : List ℕ := s.busy.filter (s.waits a t)

/-- What holds of the requests: of the handles in use, the requests the pass has still to come to
and those in the queue. -/
structure Census (s : TcpLoop) (todo pending handles : List ℕ) : Prop where
  reqs : s.reqs.Holds s.pass todo pending
  nodup : (s.flight todo pending).Nodup
  busy : s.busy.Nodup
  user : ∀ r ∈ s.busy, r ∉ handles ∧ (s.reqOf r).handle ∈ handles ∧ (s.reqOf r).type ≠ .read
  under : ∀ r ∈ s.busy, r ∈ s.flight todo pending ↔ (s.reqOf r).type ≠ .shutdown
  reads : ∀ r ∈ s.flight todo pending, r ∉ s.busy → r ∈ handles
  ofHandle : ∀ a ∈ handles, (s.reqOf a).type = .read ∧ (s.reqOf a).handle = a
  status : ∀ r, properStatus (s.reqOf r).status = true
  activeReqs : s.activeReqs = s.busy.length
  account : (s.trace.filterMap TcpEvent.taken).Perm
    (s.trace.filterMap TcpEvent.calledBack ++ s.busy)

/-- The requests are what they were, but for their errors. -/
structure SameReqs (s s' : TcpLoop) (rs : List ℕ) : Prop where
  type : ∀ r ∈ rs, (s'.reqOf r).type = (s.reqOf r).type
  handle : ∀ r ∈ rs, (s'.reqOf r).handle = (s.reqOf r).handle
  status : ∀ r, properStatus (s'.reqOf r).status = true

theorem SameReqs.of_eq {rs : List ℕ} (h : s'.reqOf = s.reqOf)
    (hst : ∀ r, properStatus (s.reqOf r).status = true) : SameReqs s s' rs :=
  ⟨fun _ _ => by rw [h], fun _ _ => by rw [h], fun r => by rw [h]; exact hst r⟩

/-- Nothing is taken nor called back. -/
structure SameAccount (s s' : TcpLoop) : Prop where
  taken : s'.trace.filterMap TcpEvent.taken = s.trace.filterMap TcpEvent.taken
  calledBack : s'.trace.filterMap TcpEvent.calledBack = s.trace.filterMap TcpEvent.calledBack
  busy : s'.busy = s.busy
  activeReqs : s'.activeReqs = s.activeReqs

theorem Census.not_flight (h : s.Census todo pending handles) (hbusy : r ∉ s.busy)
    (hr : r ∉ handles) : r ∉ s.flight todo pending := fun hin => hr (h.reads r hin hbusy)

/-- The requests moved on, and none was taken or called back. -/
theorem Census.same (h : s.Census todo pending handles) (hacc : SameAccount s s')
    (hreqs : s'.reqs.Holds s'.pass todo' pending')
    (hperm : (s'.flight todo' pending').Perm (s.flight todo pending))
    (hsame : SameReqs s s' (s.busy ++ handles)) : s'.Census todo' pending' handles where
  reqs := hreqs
  nodup := hperm.nodup_iff.2 h.nodup
  busy := by rw [hacc.busy]; exact h.busy
  user r hr := by
    rw [hacc.busy] at hr
    have hin := List.mem_append_left handles hr
    rw [hsame.type r hin, hsame.handle r hin]
    exact h.user r hr
  under r hr := by
    rw [hacc.busy] at hr
    rw [hperm.mem_iff, hsame.type r (List.mem_append_left _ hr)]
    exact h.under r hr
  reads r hr hn := by
    rw [hacc.busy] at hn
    exact h.reads r (hperm.mem_iff.1 hr) hn
  ofHandle a ha := by
    have hin := List.mem_append_right s.busy ha
    rw [hsame.type a hin, hsame.handle a hin]
    exact h.ofHandle a ha
  status := hsame.status
  activeReqs := by rw [hacc.activeReqs, hacc.busy, h.activeReqs]
  account := by rw [hacc.taken, hacc.calledBack, hacc.busy]; exact h.account

/-- A read request is given to the system, or comes back. -/
theorem Census.read (h : s.Census todo pending handles) (hacc : SameAccount s s')
    (hreqs : s'.reqs.Holds s'.pass todo' pending') (ha : a ∈ handles)
    (hsame : SameReqs s s' (s.busy ++ handles))
    (hnodup : (s'.flight todo' pending').Nodup)
    (hmem : ∀ r, r ≠ a → (r ∈ s'.flight todo' pending' ↔ r ∈ s.flight todo pending)) :
    s'.Census todo' pending' handles where
  reqs := hreqs
  nodup := hnodup
  busy := by rw [hacc.busy]; exact h.busy
  user r hr := by
    rw [hacc.busy] at hr
    have hin := List.mem_append_left handles hr
    rw [hsame.type r hin, hsame.handle r hin]
    exact h.user r hr
  under r hr := by
    rw [hacc.busy] at hr
    have hra : r ≠ a := fun he => (h.user r hr).1 (he ▸ ha)
    rw [hmem r hra, hsame.type r (List.mem_append_left _ hr)]
    exact h.under r hr
  reads r hr hn := by
    rw [hacc.busy] at hn
    by_cases hra : r = a
    · exact hra ▸ ha
    · exact h.reads r ((hmem r hra).1 hr) hn
  ofHandle a ha := by
    have hin := List.mem_append_right s.busy ha
    rw [hsame.type a hin, hsame.handle a hin]
    exact h.ofHandle a ha
  status := hsame.status
  activeReqs := by rw [hacc.activeReqs, hacc.busy, h.activeReqs]
  account := by rw [hacc.taken, hacc.calledBack, hacc.busy]; exact h.account

/-- User code gave a request, for a handle. -/
structure Takes (s s' : TcpLoop) (a r : ℕ) (t : TcpReqType) : Prop where
  busy : s'.busy = s.busy ++ [r]
  activeReqs : s'.activeReqs = s.activeReqs + 1
  notBusy : r ∉ s.busy
  type : (s'.reqOf r).type = t
  handle : (s'.reqOf r).handle = a
  others : ∀ q, q ≠ r → s'.reqOf q = s.reqOf q
  status : properStatus (s'.reqOf r).status = true
  event : ∃ e : TcpEvent, e.taken = some r ∧ e.calledBack = none ∧ s'.trace = s.trace ++ [e]

theorem Census.take {t : TcpReqType} (h : s.Census todo pending handles) (ht : Takes s s' a r t)
    (hr : r ∉ handles) (ha : a ∈ handles) (hread : t ≠ .read)
    (hreqs : s'.reqs.Holds s'.pass todo' pending')
    (hperm : (s'.flight todo' pending').Perm
      (if t = .shutdown then s.flight todo pending else r :: s.flight todo pending)) :
    s'.Census todo' pending' handles := by
  have hnot := h.not_flight ht.notBusy hr
  have hold : ∀ q ∈ s.busy, s'.reqOf q = s.reqOf q :=
    fun q hq => ht.others q fun he => ht.notBusy (he ▸ hq)
  have hmem : ∀ q, q ≠ r → (q ∈ s'.flight todo' pending' ↔ q ∈ s.flight todo pending) := by
    intro q hq
    rw [hperm.mem_iff]
    split_ifs <;> simp [hq]
  refine ⟨hreqs, ?_, ?_, fun q hq => ?_, fun q hq => ?_, fun q hq hn => ?_, fun b hb => ?_,
    fun q => ?_, ?_, ?_⟩
  · rw [hperm.nodup_iff]
    split_ifs
    · exact h.nodup
    · exact List.nodup_cons.2 ⟨hnot, h.nodup⟩
  · rw [ht.busy, ← List.concat_eq_append]
    exact h.busy.concat ht.notBusy
  · rw [ht.busy, List.mem_append, List.mem_singleton] at hq
    rcases hq with hq | rfl
    · rw [hold q hq]
      exact h.user q hq
    · rw [ht.type, ht.handle]
      exact ⟨hr, ha, hread⟩
  · rw [ht.busy, List.mem_append, List.mem_singleton] at hq
    rcases hq with hq | rfl
    · rw [hmem q fun he => ht.notBusy (he ▸ hq), hold q hq]
      exact h.under q hq
    · rw [hperm.mem_iff, ht.type]
      split_ifs with hsh
      · exact iff_of_false hnot (by simp [hsh])
      · simp [hsh]
  · rw [ht.busy, List.mem_append, List.mem_singleton, not_or] at hn
    exact h.reads q ((hmem q hn.2).1 hq) hn.1
  · rw [ht.others b fun he => hr (he ▸ hb)]
    exact h.ofHandle b hb
  · by_cases hq : q = r
    · rw [hq]
      exact ht.status
    · rw [ht.others q hq]
      exact h.status q
  · rw [ht.activeReqs, ht.busy, List.length_append, h.activeReqs]
    rfl
  · obtain ⟨e, htk, hcb, htrace⟩ := ht.event
    rw [htrace, ht.busy, List.filterMap_append, List.filterMap_append]
    simp only [List.filterMap_cons, htk, hcb, List.filterMap_nil, List.append_nil]
    rw [← List.append_assoc]
    exact h.account.append_right [r]

/-- The callback of a request is made. -/
structure Finishes (s s' : TcpLoop) (r : ℕ) : Prop where
  busy : s'.busy = s.busy.erase r
  activeReqs : s'.activeReqs = s.activeReqs - 1
  isBusy : r ∈ s.busy
  reqOf : s'.reqOf = s.reqOf
  event : ∃ e : TcpEvent, e.taken = none ∧ e.calledBack = some r ∧ s'.trace = s.trace ++ [e]

theorem Census.finish (h : s.Census todo pending handles) (hf : Finishes s s' r)
    (hreqs : s'.reqs.Holds s'.pass todo' pending')
    (hperm : (s.flight todo pending).Perm (if (s.reqOf r).type = .shutdown then
      s'.flight todo' pending' else r :: s'.flight todo' pending')) :
    s'.Census todo' pending' handles := by
  have hsub : ∀ q ∈ s'.busy, q ∈ s.busy ∧ q ≠ r := by
    intro q hq
    rw [hf.busy, h.busy.mem_erase_iff] at hq
    exact ⟨hq.2, hq.1⟩
  have hmem : ∀ q, q ≠ r → (q ∈ s'.flight todo' pending' ↔ q ∈ s.flight todo pending) := by
    intro q hq
    rw [hperm.mem_iff]
    split_ifs <;> simp [hq]
  refine ⟨hreqs, ?_, ?_, fun q hq => ?_, fun q hq => ?_, fun q hq hn => ?_, ?_, ?_, ?_, ?_⟩
  · have hnodup := hperm.nodup_iff.1 h.nodup
    split_ifs at hnodup
    · exact hnodup
    · exact (List.nodup_cons.1 hnodup).2
  · rw [hf.busy]
    exact h.busy.erase r
  · rw [hf.reqOf]
    exact h.user q (hsub q hq).1
  · rw [hmem q (hsub q hq).2, hf.reqOf]
    exact h.under q (hsub q hq).1
  · have hqr : q ≠ r := by
      rintro rfl
      -- a request that is called back has left the places it can be in
      have hnodup := hperm.nodup_iff.1 h.nodup
      by_cases hsh : (s.reqOf q).type = .shutdown
      · rw [if_pos hsh] at hperm
        exact absurd (hperm.mem_iff.2 hq) (mt (h.under q hf.isBusy).1 (by simp [hsh]))
      · rw [if_neg hsh] at hnodup
        exact (List.nodup_cons.1 hnodup).1 hq
    refine h.reads q ((hmem q hqr).1 hq) fun hin => hn ?_
    rw [hf.busy, h.busy.mem_erase_iff]
    exact ⟨hqr, hin⟩
  · rw [hf.reqOf]
    exact h.ofHandle
  · rw [hf.reqOf]
    exact h.status
  · rw [hf.activeReqs, hf.busy, List.length_erase_of_mem hf.isBusy, h.activeReqs]
  · obtain ⟨e, htk, hcb, htrace⟩ := hf.event
    rw [htrace, hf.busy, List.filterMap_append, List.filterMap_append]
    simp only [List.filterMap_cons, htk, hcb, List.filterMap_nil, List.append_nil]
    refine h.account.trans ?_
    rw [List.append_assoc]
    exact (List.perm_cons_erase hf.isBusy).append_left _

/-! ## The requests of a handle -/

theorem mem_own {t : TcpReqType} : r ∈ s.own a t
    ↔ r ∈ s.busy ∧ (s.reqOf r).handle = a ∧ (s.reqOf r).type = t := by
  simp [own, waits]

theorem own_same (hbusy : s'.busy = s.busy) {rs : List ℕ} (hsame : SameReqs s s' rs)
    (hsub : ∀ r ∈ s.busy, r ∈ rs) (a : ℕ) (t : TcpReqType) : s'.own a t = s.own a t := by
  unfold own
  rw [hbusy]
  refine List.filter_congr fun r hr => ?_
  rw [waits, waits, hsame.type r (hsub r hr), hsame.handle r (hsub r hr)]

theorem own_take {t : TcpReqType} (ht : Takes s s' a r t) (b : ℕ) (t' : TcpReqType) :
    s'.own b t' = s.own b t' ++ if a = b ∧ t = t' then [r] else [] := by
  unfold own
  rw [ht.busy, List.filter_append, List.filter_singleton]
  have hold : s.busy.filter (s'.waits b t') = s.busy.filter (s.waits b t') := by
    refine List.filter_congr fun q hq => ?_
    rw [waits, waits, ht.others q fun he => ht.notBusy (he ▸ hq)]
  rw [hold, waits, ht.type, ht.handle]
  congr 1
  by_cases hab : a = b <;> by_cases htt : t = t' <;> simp [hab, htt]

theorem own_finish (hf : Finishes s s' r) (hbusy : s.busy.Nodup) (b : ℕ) (t : TcpReqType) :
    s'.own b t = (s.own b t).erase r := by
  unfold own
  rw [hf.busy, hbusy.erase_eq_filter, (hbusy.filter _).erase_eq_filter, List.filter_filter,
    List.filter_filter]
  refine List.filter_congr fun q _ => ?_
  rw [waits, waits, hf.reqOf, Bool.and_comm]

end TcpLoop

end TestLibuv
