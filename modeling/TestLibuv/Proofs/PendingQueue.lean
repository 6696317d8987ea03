import TestLibuv.Lib.Runs
import TestLibuv.ReqInl

/-!
# No pending request is lost

Requests come into the queue in any order while `uv_process_reqs` is at work on the ones it has
taken. As long as no request is put in that is there already, every request is processed as often as
it was put in, in that order.
-/

namespace TestLibuv

open TailQueue

variable {q q' : PendingReqs} {p : ReqsPass} {pass : Option ReqsPass} {todo pending : List ℕ}
  {r t : ℕ}

namespace PendingReqs

/-- The requests in the queue, and those the pass has still to come to. -/
structure Holds (q : PendingReqs) (pass : Option ReqsPass) (todo pending : List ℕ) : Prop where
  queue : Queue q.nextReq q.tail pending
  rest : ∀ p, pass = some p → Rest q.nextReq p.first p.next todo
  idle : pass = none → todo = []
  nodup : (todo ++ pending).Nodup

theorem insertPendingReq_of_none (h : q.tail = none) : (q.insertPendingReq r).tail = some r
    ∧ (q.insertPendingReq r).nextReq = Function.update q.nextReq r (some r) := by
  simp [insertPendingReq, setNext, h]

theorem insertPendingReq_of_some (h : q.tail = some t) (hne : t ≠ r) :
    (q.insertPendingReq r).tail = some r ∧ (q.insertPendingReq r).nextReq
      = Function.update (Function.update q.nextReq r (q.nextReq t)) t (some r) := by
  simp [insertPendingReq, setNext, h, hne]

/-- What an insertion writes to. -/
theorem nextReq_insertPendingReq {a : ℕ} (hr : a ≠ r) (ht : q.tail ≠ some a) :
    (q.insertPendingReq r).nextReq a = q.nextReq a := by
  rcases hq : q.tail with _ | t
  · simp [(insertPendingReq_of_none hq).2, hr]
  · have hat : a ≠ t := fun he => ht (by rw [hq, he])
    by_cases htr : t = r
    · subst htr
      simp [insertPendingReq, setNext, hq, hr]
    · simp [(insertPendingReq_of_some hq htr).2, hr, hat]

theorem queue_insertPendingReq (hq : Queue q.nextReq q.tail pending) (hr : r ∉ pending) :
    Queue (q.insertPendingReq r).nextReq (q.insertPendingReq r).tail (pending ++ [r]) := by
  rcases ht : q.tail with _ | t
  · obtain rfl : pending = [] := hq.tail_eq_none.1 ht
    obtain ⟨htail, hnext⟩ := insertPendingReq_of_none (r := r) ht
    rw [htail]
    exact queue_singleton (by simp [hnext])
  · have hmem : t ∈ pending := List.mem_of_getLast? (hq.last.trans ht)
    have htr : t ≠ r := fun he => hr (he ▸ hmem)
    obtain ⟨htail, hnext⟩ := insertPendingReq_of_some ht htr
    rw [htail]
    refine (ht ▸ hq).concat hr (fun a ha hat => ?_) ?_ ?_
    · have har : a ≠ r := fun he => hr (he ▸ ha)
      simp [hnext, har, hat]
    · simp [hnext]
    · simp [hnext, htr.symm]

theorem Holds.insertPendingReq (h : q.Holds pass todo pending) (hr : r ∉ todo ++ pending) :
    (q.insertPendingReq r).Holds pass todo (pending ++ [r]) := by
  rw [List.mem_append, not_or] at hr
  refine ⟨queue_insertPendingReq h.queue hr.2, fun p hp => ?_, h.idle, ?_⟩
  · refine (h.rest p hp).congr fun a ha => nextReq_insertPendingReq (fun he => hr.1 (he ▸ ha)) ?_
    intro htail
    have hmem : a ∈ pending := List.mem_of_getLast? (h.queue.last.trans htail)
    exact (List.nodup_append.1 h.nodup).2.2 a ha a hmem rfl
  · rw [← List.append_assoc, ← List.concat_eq_append]
    exact h.nodup.concat (by simp [hr.1, hr.2])

/-- The pass takes the queue. -/
theorem Holds.beginPass (h : q.Holds none todo pending) (hb : q.beginPass = some (p, q')) :
    q'.Holds (some p) pending [] ∧ pending ≠ [] := by
  obtain ⟨t, ht, he⟩ := Option.map_eq_some_iff.1 hb
  rw [Prod.mk.injEq] at he
  obtain ⟨rfl, rfl⟩ := he
  have hq : Queue q.nextReq (some t) pending := ht ▸ h.queue
  refine ⟨⟨queue_nil, fun p hp => ?_, fun hn => by simp at hn, ?_⟩, fun he => ?_⟩
  · rw [Option.some.injEq] at hp
    exact hp ▸ hq.rest
  · simpa using hq.nodup
  · rw [he] at hq
    simpa using hq.last

theorem Holds.beginPass_eq_none (h : q.Holds pass todo pending) :
    q.beginPass = none ↔ pending = [] := by
  rw [PendingReqs.beginPass, Option.map_eq_none_iff, h.queue.tail_eq_none]

/-- A round takes the first of the requests to come. -/
theorem Holds.round (h : q.Holds (some p) todo pending) : match p.round q with
    | none => todo = []
    | some (r, p') => ∃ rest, todo = r :: rest ∧ q.Holds (some p') rest pending := by
  have hrest := h.rest p rfl
  rcases todo with _ | ⟨r, rest⟩
  · rw [ReqsPass.round, hrest.cur_eq_none.2 rfl]
    rfl
  · obtain ⟨hcur, hstep⟩ := hrest.step
    rw [ReqsPass.round, hcur]
    refine ⟨rest, rfl, h.queue, fun p' hp' => ?_, fun hn => by simp at hn, ?_⟩
    · rw [Option.some.injEq] at hp'
      subst hp'
      simpa using hstep
    · exact (List.nodup_cons.1 h.nodup).2

theorem Holds.endPass (h : q.Holds (some p) [] pending) : q.Holds none [] pending :=
  ⟨h.queue, fun p' hp' => by simp at hp', fun _ => rfl, h.nodup⟩

end PendingReqs

namespace ReqLoop

open Runs

variable {s s' : ReqLoop} {i : ReqStep}

/-- A request is put in only when it was processed as often as it was put in. -/
def Obliging (s : ReqLoop) : ReqStep → Prop
  | .insertPendingReq req => s.processed.count req = s.inserted.count req
  | _ => True

instance decidableObliging : ∀ (s : ReqLoop) (i : ReqStep), Decidable (s.Obliging i)
  | s, .insertPendingReq req => inferInstanceAs (Decidable (s.processed.count req = _))
  | _, .beginPass | _, .round => .isTrue trivial

/-- What was put in is what was processed, what the pass has still to come to, and the queue. -/
def Fifo (s : ReqLoop) : Prop :=
  ∃ todo pending, s.inserted = s.processed ++ (todo ++ pending)
    ∧ s.reqs.Holds s.pass todo pending

theorem fifo_init (nextReq : ℕ → Option ℕ) : (init nextReq).Fifo :=
  ⟨[], [], rfl, queue_nil, fun p hp => by simp [init] at hp, fun _ => rfl, .nil⟩

theorem Fifo.step (hf : s.Fifo) (hi : s.Obliging i) (hstep : s.step i = some s') : s'.Fifo := by
  obtain ⟨todo, pending, hall, hq⟩ := hf
  cases i with
  | insertPendingReq r =>
    rw [ReqLoop.step, Option.some.injEq] at hstep
    subst hstep
    have hr : r ∉ todo ++ pending := by
      rw [← List.count_eq_zero]
      have hi : s.processed.count r = s.inserted.count r := hi
      rw [hall, List.count_append] at hi
      omega
    exact ⟨todo, pending ++ [r], by simp [hall], hq.insertPendingReq hr⟩
  | beginPass =>
    rw [ReqLoop.step] at hstep
    split_ifs at hstep with hp
    obtain ⟨⟨p, q⟩, hb, rfl⟩ := Option.map_eq_some_iff.1 hstep
    rw [hp] at hq
    obtain rfl := hq.idle rfl
    exact ⟨pending, [], by simp [hall], (hq.beginPass hb).1⟩
  | round =>
    obtain ⟨p, hp, rfl⟩ := Option.map_eq_some_iff.1 hstep
    rw [hp] at hq
    have hround := hq.round
    rcases hr : p.round s.reqs with _ | ⟨r, p'⟩
    · rw [hr] at hround
      subst hround
      exact ⟨[], pending, by simpa using hall, hq.endPass⟩
    · rw [hr] at hround
      obtain ⟨rest, rfl, hq'⟩ := hround
      exact ⟨rest, pending, by simp [hall], hq'⟩

/-- However insertions and the rounds of `uv_process_reqs` follow each other, the requests are
processed in the order they were put in, none is lost and none is processed twice; and where the
queue is empty and no pass is on its way all of them were. -/
theorem fifo_of_run {nextReq : ℕ → Option ℕ} {is : List ReqStep}
    (hi : Meets step Obliging (init nextReq) is) (hr : run step (init nextReq) is = some s) :
    (∃ todo pending, s.inserted = s.processed ++ (todo ++ pending)
      ∧ s.reqs.Holds s.pass todo pending)
      ∧ (s.pass = none → s.reqs.tail = none → s.processed = s.inserted) := by
  have hf : s.Fifo :=
    invariant_of_meets (fun _ _ _ hs hc hstep => hs.step hc hstep) (fifo_init nextReq) hi hr
  refine ⟨hf, fun hp ht => ?_⟩
  obtain ⟨todo, pending, hall, hq⟩ := hf
  rw [hall, hq.idle hp, hq.queue.tail_eq_none.1 ht]
  simp

/-- A request comes back into the queue from its own callback. -/
def againRun : List ReqStep :=
  [.insertPendingReq 1, .insertPendingReq 2, .beginPass, .round, .insertPendingReq 1, .round,
    .round]

theorem isSome_againRun : (run step (init fun _ => none) againRun).isSome = true := by decide

/-- The loop after that. -/
def againLoop : ReqLoop := (run step (init fun _ => none) againRun).get isSome_againRun

theorem fifo_of_againRun :
    (∃ todo pending, againLoop.inserted = againLoop.processed ++ (todo ++ pending)
      ∧ againLoop.reqs.Holds againLoop.pass todo pending)
      ∧ (againLoop.pass = none → againLoop.reqs.tail = none →
        againLoop.processed = againLoop.inserted) :=
  fifo_of_run (by decide) (Option.some_get isSome_againRun).symm

end ReqLoop

end TestLibuv
