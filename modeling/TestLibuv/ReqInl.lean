import TestLibuv.Lib.TailQueue

/-!
# The pending requests of a loop

`uv_insert_pending_req` and the loop of `uv_process_reqs` in `req-inl.h`. A request is known by its
address. The loop is kept as what it knows between two rounds, since the callbacks of a round and
other threads put requests into the queue meanwhile.
-/

namespace TestLibuv

/-- `pending_reqs_tail` of the loop, and `next_req` of every request. -/
structure PendingReqs where
  tail : Option ℕ
  nextReq : ℕ → Option ℕ

/-- The variables `first` and `next` of `uv_process_reqs`. -/
structure ReqsPass where
  first : Option ℕ
  next : Option ℕ
  deriving DecidableEq, Repr

namespace PendingReqs

def setNext (q : PendingReqs) (req : ℕ) (n : Option ℕ) : PendingReqs :=
  { q with nextReq := Function.update q.nextReq req n }

/-- `uv_insert_pending_req` -/
def insertPendingReq (q : PendingReqs) (req : ℕ) : PendingReqs :=
  let q := q.setNext req none
  match q.tail with
  | some t =>
    let q := q.setNext req (q.nextReq t)
    let q := q.setNext t (some req)
    { q with tail := some req }
  | none =>
    let q := q.setNext req (some req)
    { q with tail := some req }

/-- `uv_process_reqs` before its loop; with no pending request it returns 0. -/
def beginPass (q : PendingReqs) : Option (ReqsPass × PendingReqs) :=
  q.tail.map fun t => (⟨q.nextReq t, q.nextReq t⟩, { q with tail := none })

end PendingReqs

/-- A round of `uv_process_reqs` up to its `switch`: the request, and what comes behind it. -/
def ReqsPass.round (p : ReqsPass) (q : PendingReqs) : Option (ℕ × ReqsPass) :=
  p.next.map fun req =>
    (req, ⟨p.first, if q.nextReq req ≠ p.first then q.nextReq req else none⟩)

/-- What happens to the pending requests: a request is put in, or `uv_process_reqs` goes on. -/
inductive ReqStep
  | insertPendingReq (req : ℕ)
  | beginPass
  | round
  deriving DecidableEq, Repr

/-- The pending requests of a loop, with those that were put in and those that were processed. -/
structure ReqLoop where
  reqs : PendingReqs
  pass : Option ReqsPass
  inserted : List ℕ
  processed : List ℕ

namespace ReqLoop

def init (nextReq : ℕ → Option ℕ) : ReqLoop := ⟨⟨none, nextReq⟩, none, [], []⟩

/-- One step; the loop of `uv_process_reqs` ends in a round of its own. -/
def step (s : ReqLoop) : ReqStep → Option ReqLoop
  | .insertPendingReq req =>
    some { s with reqs := s.reqs.insertPendingReq req, inserted := s.inserted ++ [req] }
  | .beginPass =>
    if s.pass = none then s.reqs.beginPass.map fun r => { s with pass := some r.1, reqs := r.2 }
    else none
  | .round =>
    s.pass.map fun p =>
      match p.round s.reqs with
      | none => { s with pass := none }
      | some (req, p) => { s with pass := some p, processed := s.processed ++ [req] }

end ReqLoop

end TestLibuv
