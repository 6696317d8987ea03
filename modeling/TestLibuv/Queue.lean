import TestLibuv.Lib.DList

/-!
# The handle queue in memory

The macros of `queue.h` that the vendored libuv uses on Windows, and `uv_walk` over them. A `QUEUE`
is known by its address, and that of a handle stands for the handle. The callback of the walk is a
parameter: which handles it has initialised or closed, in the memory it finds.
-/

namespace TestLibuv

open DList

/-- `QUEUE_INIT` -/
def queueInit (m : Links) (q : ℕ) : Links := (m.setNext q q).setPrev q q

/-- `QUEUE_EMPTY` -/
def queueEmpty (m : Links) (q : ℕ) : Bool := q = m.next q

/-- `QUEUE_SPLIT` -/
def queueSplit (m : Links) (h q n : ℕ) : Links :=
  let m := m.setPrev n (m.prev h)
  let m := m.setNext (m.prev n) n
  let m := m.setNext n q
  let m := m.setPrev h (m.prev q)
  let m := m.setNext (m.prev h) h
  m.setPrev q n

/-- `QUEUE_MOVE` -/
def queueMove (m : Links) (h n : ℕ) : Links :=
  if queueEmpty m h then queueInit m n else queueSplit m h (m.next h) n

/-- `QUEUE_INSERT_TAIL` -/
def queueInsertTail (m : Links) (h q : ℕ) : Links :=
  let m := m.setNext q h
  let m := m.setPrev q (m.prev h)
  let m := m.setNext (m.prev q) q
  m.setPrev h q

/-- `QUEUE_REMOVE` -/
def queueRemove (m : Links) (q : ℕ) : Links :=
  let m := m.setNext (m.prev q) (m.next q)
  m.setPrev (m.next q) (m.prev q)

/-- What a callback does to the handle queue: `uv__handle_init` and `uv__handle_close`. -/
inductive QueueCall
  | handleInit (q : ℕ)
  | handleClose (q : ℕ)
  deriving DecidableEq, Repr

/-- A call of the callback: the handle, and what the callback did. -/
structure Visit where
  handle : ℕ
  calls : List QueueCall
  deriving DecidableEq, Repr

def QueueCall.run (handleQueue : ℕ) (m : Links) : QueueCall → Links
  | handleInit q => queueInsertTail m handleQueue q
  | handleClose q => queueRemove m q

section Walk

variable (internal : ℕ → Bool) (walkCb : ℕ → Links → List QueueCall) (handleQueue queue : ℕ)

/-- The loop of `uv_walk`, at most `n` rounds: the handles the callback was called for. -/
def walkLoop : ℕ → Links → Option (List Visit × Links)
  | 0, m => if queueEmpty m queue then some ([], m) else none
  | n + 1, m =>
    if queueEmpty m queue then some ([], m)
    else
      let q := m.next queue
      let m := queueRemove m q
      let m := queueInsertTail m handleQueue q
      if internal q then walkLoop n m
      else
        let cs := walkCb q m
        (walkLoop n (cs.foldl (QueueCall.run handleQueue) m)).map fun r => (⟨q, cs⟩ :: r.1, r.2)

/-- `uv_walk`, with the local `queue` at its address. -/
def uvWalk (n : ℕ) (m : Links) : Option (List Visit × Links) :=
  walkLoop internal walkCb handleQueue queue n (queueMove m handleQueue queue)

end Walk

end TestLibuv
