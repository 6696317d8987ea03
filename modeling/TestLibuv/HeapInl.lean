import Mathlib.Algebra.Group.Nat.Defs
import TestLibuv.Lib.While

/-!
# The heap of timers

`heap-inl.h` of the vendored libuv: a binary min heap of nodes that are linked by pointers. A node
is known by its address, and the memory of the nodes is part of the state. What the code reads
through a null pointer is a fault. The loops are bounded by the width of `nelts`, an `unsigned
int`; one that is not over by then has no result.
-/

namespace TestLibuv

open While

/-- `struct heap_node`. -/
structure HeapNode where
  left : Option ℕ
  right : Option ℕ
  parent : Option ℕ
  deriving DecidableEq, Repr

/-- `struct heap`, and the nodes at their addresses. -/
structure UvHeap where
  min : Option ℕ
  nelts : ℕ
  node : ℕ → HeapNode

/-- A null pointer was read through. -/
inductive NullDeref
  | nullDeref
  deriving DecidableEq, Repr

/-- What a `struct heap_node**` points at. -/
inductive HeapSlot
  | min
  | left (a : ℕ)
  | right (a : ℕ)
  deriving DecidableEq, Repr

/-- Iterations for a loop over the bits of an `unsigned int`. -/
def uintBits : ℕ := 32

/-- The loop that takes `n` apart into the path to its position, lowest bit first turn, and the
number of turns. -/
def heapPath : ℕ → ℕ → ℕ → ℕ → ℕ × ℕ
  | 0, _, path, k => (path, k)
  | m + 1, n, path, k =>
    if 2 ≤ n then heapPath m (n / 2) (2 * path % 2 ^ 32 + n % 2) (k + 1) else (path, k)

namespace UvHeap

/-- `heap_init`. -/
def init (node : ℕ → HeapNode) : UvHeap := ⟨none, 0, node⟩

def setNode (h : UvHeap) (a : ℕ) (x : HeapNode) : UvHeap :=
  { h with node := fun b => if b = a then x else h.node b }

def setLeft (h : UvHeap) (a : ℕ) (p : Option ℕ) : UvHeap := h.setNode a { h.node a with left := p }

def setRight (h : UvHeap) (a : ℕ) (p : Option ℕ) : UvHeap :=
  h.setNode a { h.node a with right := p }

def setParent (h : UvHeap) (a : ℕ) (p : Option ℕ) : UvHeap :=
  h.setNode a { h.node a with parent := p }

/-- `if (a != NULL) a->parent = p`. -/
def setParentOf (h : UvHeap) (a : Option ℕ) (p : Option ℕ) : UvHeap :=
  match a with
  | some a => h.setParent a p
  | none => h

def read (h : UvHeap) : HeapSlot → Option ℕ
  | .min => h.min
  | .left a => (h.node a).left
  | .right a => (h.node a).right

def write (h : UvHeap) (s : HeapSlot) (p : Option ℕ) : UvHeap :=
  match s with
  | .min => { h with min := p }
  | .left a => h.setLeft a p
  | .right a => h.setRight a p

/-- The pointer to `a` above it is made to point to `b`, whose `parent` is that of `a`. -/
def relink (h : UvHeap) (a b : ℕ) (parent : Option ℕ) : UvHeap :=
  match parent with
  | none => { h with min := some b }
  | some g => if (h.node g).left = some a then h.setLeft g (some b) else h.setRight g (some b)

/-- `heap_node_swap`, before the pointer to the parent is changed. -/
def exchange (h : UvHeap) (parent child : ℕ) : UvHeap :=
  let t := h.node parent
  let h := h.setNode parent (h.node child)
  let h := h.setNode child t
  let h := h.setParent parent (some child)
  let left := (h.node child).left = some child
  let h := if left then h.setLeft child (some parent) else h.setRight child (some parent)
  let h := h.setParentOf (if left then (h.node child).right else (h.node child).left) (some child)
  let h := h.setParentOf (h.node parent).left (some parent)
  h.setParentOf (h.node parent).right (some parent)

/-- `heap_node_swap`. -/
def nodeSwap (h : UvHeap) (parent child : ℕ) : UvHeap :=
  let h := h.exchange parent child
  h.relink parent child (h.node child).parent

/-- The turns of a path from `child`, lowest bit first: the slot of the node before the last turn,
and the slot the path leads to. -/
def walk (h : UvHeap) : ℕ → ℕ → HeapSlot → HeapSlot → Except NullDeref (HeapSlot × HeapSlot)
  | 0, _, parent, child => .ok (parent, child)
  | k + 1, path, _, child =>
    match h.read child with
    | none => .error .nullDeref
    | some a => h.walk k (path / 2) child (if path % 2 = 1 then .right a else .left a)

/-- `child` takes the place of `node`, in `heap_remove`. -/
def replace (h : UvHeap) (node child : ℕ) : UvHeap :=
  let h := h.setNode child (h.node node)
  let h := h.setParentOf (h.node child).left (some child)
  let h := h.setParentOf (h.node child).right (some child)
  h.relink node child (h.node node).parent

variable (less : ℕ → ℕ → Bool)

/-- `x->parent != NULL && less_than(x, x->parent)` -/
def canRise (x : ℕ) (h : UvHeap) : Bool := (h.node x).parent.elim false (less x)

/-- `heap_node_swap(heap, x->parent, x)` -/
def rise (x : ℕ) (h : UvHeap) : Except NullDeref UvHeap :=
  match (h.node x).parent with
  | some p => .ok (h.nodeSwap p x)
  | none => .error .nullDeref

/-- The smallest of a node and its children. -/
def smallest (x : ℕ) (h : UvHeap) : ℕ :=
  let s := x
  let s := (h.node x).left.elim s fun l => if less l s then l else s
  (h.node x).right.elim s fun r => if less r s then r else s

/-- `heap_insert`. -/
def insert (h : UvHeap) (newnode : ℕ) : Option (Except NullDeref UvHeap) :=
  let h := h.setNode newnode ⟨none, none, none⟩
  let (path, k) := heapPath uintBits ((1 + h.nelts) % 2 ^ 32) 0 0
  match h.walk k path .min .min with
  | .error e => some (.error e)
  | .ok (parent, child) =>
    let h := h.setParent newnode (h.read parent)
    let h := h.write child (some newnode)
    let h := { h with nelts := (h.nelts + 1) % 2 ^ 32 }
    whileFuel (canRise less newnode) (rise newnode) uintBits h

/-- The rest of `heap_remove`, after the node `child` has taken the place of the removed one: the
walk down, and the walk up. -/
def sift (h : UvHeap) (child : ℕ) : Option (Except NullDeref UvHeap) :=
  match whileFuel (fun h => smallest less child h != child)
      (fun h => .ok (h.nodeSwap child (smallest less child h))) uintBits h with
  | some (.ok h) => whileFuel (canRise less child) (rise child) uintBits h
  | r => r

/-- `heap_remove`. -/
def remove (h : UvHeap) (node : ℕ) : Option (Except NullDeref UvHeap) :=
  if h.nelts = 0 then some (.ok h)
  else
    let (path, k) := heapPath uintBits h.nelts 0 0
    match h.walk k path .min .min with
    | .error e => some (.error e)
    | .ok (_, max) =>
      let h := { h with nelts := h.nelts - 1 }
      match h.read max with
      | none => some (.error .nullDeref)
      | some child =>
        let h := h.write max none
        if child = node then
          some (.ok (if h.min = some child then { h with min := none } else h))
        else
          sift less (h.replace node child) child

/-- `heap_dequeue`. -/
def dequeue (h : UvHeap) : Option (Except NullDeref UvHeap) :=
  match h.min with
  | some a => remove less h a
  | none => if h.nelts = 0 then some (.ok h) else some (.error .nullDeref)

end UvHeap

end TestLibuv
