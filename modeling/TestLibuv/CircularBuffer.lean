import TestLibuv.Lib.Ring

/-!
# `PodCircularBuffer`

The ring buffer of `uv_utils.h`, for elements of any type. Its block and the arrays of the caller
are lists, every `memcpy` and `assert` is checked, and the `int`s are integers: none of them leaves
the range between the capacity, the count and their negatives. `write` and `read` are cut into the
cases they distinguish.
-/

namespace TestLibuv

open Ring

/-- An access outside an array, or an `assert` that fails. -/
inductive RingFault
  | outOfBounds
  | assertion
  deriving DecidableEq, Repr

/-- `class PodCircularBuffer`, with the block `m_pBuf` points to. -/
structure PodCircularBuffer (T : Type) where
  bEmpty : Bool
  bFull : Bool
  pBuf : List T
  nBufSize : ℤ
  nReadPos : ℤ
  nWritePos : ℤ
  deriving DecidableEq, Repr

namespace PodCircularBuffer

variable {T : Type}

/-- `memcpy(&dst[i], &src[j], count * sizeof(T))`. -/
def memcpy (dst : List T) (i : ℤ) (src : List T) (j count : ℤ) : Except RingFault (List T) :=
  if 0 ≤ i ∧ 0 ≤ j ∧ 0 ≤ count ∧ i + count ≤ dst.length ∧ j + count ≤ src.length then
    .ok (blit dst i.toNat ((src.drop j.toNat).take count.toNat))
  else .error .outOfBounds

def assert (b : Bool) : Except RingFault Unit := if b then .ok () else .error .assertion

/-- `PodCircularBuffer::PodCircularBuffer`, given the array that `new T[capacity]` makes. -/
def new (contents : List T) : PodCircularBuffer T where
  bEmpty := true
  bFull := false
  pBuf := contents
  nBufSize := contents.length
  nReadPos := 0
  nWritePos := 0

def full (s : PodCircularBuffer T) : Bool := s.bFull

def empty (s : PodCircularBuffer T) : Bool := s.bEmpty

def clear (s : PodCircularBuffer T) : PodCircularBuffer T :=
  { s with nReadPos := 0, nWritePos := 0, bEmpty := true, bFull := false }

def size (s : PodCircularBuffer T) : ℤ :=
  if s.bEmpty then 0
  else if s.bFull then s.nBufSize
  else if s.nReadPos < s.nWritePos then s.nWritePos - s.nReadPos
  else s.nBufSize - s.nReadPos + s.nWritePos

/-- `assert(m_nReadPos <= m_nBufSize)` and `assert(m_nWritePos <= m_nBufSize)`. -/
def assertPos (s : PodCircularBuffer T) : Except RingFault Unit := do
  assert (decide (s.nReadPos ≤ s.nBufSize))
  assert (decide (s.nWritePos ≤ s.nBufSize))

/-! ## `write` -/

/-- The positions are equal, as when the buffer is empty. -/
def writeEmpty (s : PodCircularBuffer T) (buf : List T) (count : ℤ) :
    Except RingFault (ℤ × PodCircularBuffer T) :=
  let leftcount := s.nBufSize - s.nWritePos
  if leftcount > count then do
    let pBuf ← memcpy s.pBuf s.nWritePos buf 0 count
    return (count, { s with pBuf, nWritePos := s.nWritePos + count })
  else do
    let pBuf ← memcpy s.pBuf s.nWritePos buf 0 leftcount
    let nWritePos := if s.nReadPos > count - leftcount then count - leftcount else s.nWritePos
    let pBuf ← memcpy pBuf 0 buf leftcount nWritePos
    let s := { s with pBuf, nWritePos, bFull := decide (nWritePos = s.nReadPos) }
    return (leftcount + nWritePos, s)

/-- The elements lie between the positions. -/
def writeAhead (s : PodCircularBuffer T) (buf : List T) (count : ℤ) :
    Except RingFault (ℤ × PodCircularBuffer T) :=
  let leftcount := s.nBufSize - s.nWritePos
  if leftcount > count then do
    let pBuf ← memcpy s.pBuf s.nWritePos buf 0 count
    let nWritePos := s.nWritePos + count
    let s := { s with pBuf, nWritePos, bFull := decide (s.nReadPos = nWritePos) }
    s.assertPos
    return (count, s)
  else do
    let pBuf ← memcpy s.pBuf s.nWritePos buf 0 leftcount
    let nWritePos := if s.nReadPos ≥ count - leftcount then count - leftcount else s.nReadPos
    let pBuf ← memcpy pBuf 0 buf leftcount nWritePos
    let s := { s with pBuf, nWritePos, bFull := decide (s.nReadPos = nWritePos) }
    s.assertPos
    return (leftcount + nWritePos, s)

/-- The room lies between the positions. -/
def writeBehind (s : PodCircularBuffer T) (buf : List T) (count : ℤ) :
    Except RingFault (ℤ × PodCircularBuffer T) :=
  let leftcount := s.nReadPos - s.nWritePos
  if leftcount > count then do
    let pBuf ← memcpy s.pBuf s.nWritePos buf 0 count
    let nWritePos := s.nWritePos + count
    let s := { s with pBuf, nWritePos, bFull := decide (s.nReadPos = nWritePos) }
    s.assertPos
    return (count, s)
  else do
    let pBuf ← memcpy s.pBuf s.nWritePos buf 0 leftcount
    let nWritePos := s.nWritePos + leftcount
    let s := { s with pBuf, nWritePos, bFull := decide (s.nReadPos = nWritePos) }
    assert s.bFull
    s.assertPos
    return (leftcount, s)

/-- `PodCircularBuffer::write`. -/
def write (s : PodCircularBuffer T) (buf : List T) (count : ℤ) :
    Except RingFault (ℤ × PodCircularBuffer T) :=
  if count ≤ 0 then .ok (0, s)
  else if s.bFull then .ok (0, s)
  else
    let s := { s with bEmpty := false }
    if s.nReadPos = s.nWritePos then s.writeEmpty buf count
    else if s.nReadPos < s.nWritePos then s.writeAhead buf count
    else s.writeBehind buf count

/-! ## `read` -/

/-- The positions are equal, as when the buffer is full. -/
def readFull (s : PodCircularBuffer T) (buf : List T) (count : ℤ) :
    Except RingFault (ℤ × List T × PodCircularBuffer T) :=
  let leftcount := s.nBufSize - s.nReadPos
  if leftcount > count then do
    let buf ← memcpy buf 0 s.pBuf s.nReadPos count
    let nReadPos := s.nReadPos + count
    return (count, buf, { s with nReadPos, bEmpty := decide (nReadPos = s.nWritePos) })
  else do
    let buf ← memcpy buf 0 s.pBuf s.nReadPos leftcount
    let nReadPos := if s.nWritePos > count - leftcount then count - leftcount else s.nWritePos
    let buf ← memcpy buf leftcount s.pBuf 0 nReadPos
    let s := { s with nReadPos, bEmpty := decide (nReadPos = s.nWritePos) }
    return (leftcount + nReadPos, buf, s)

/-- The elements lie between the positions. -/
def readAhead (s : PodCircularBuffer T) (buf : List T) (count : ℤ) :
    Except RingFault (ℤ × List T × PodCircularBuffer T) := do
  let leftcount := s.nWritePos - s.nReadPos
  let c := if leftcount > count then count else leftcount
  let buf ← memcpy buf 0 s.pBuf s.nReadPos c
  let nReadPos := s.nReadPos + c
  let s := { s with nReadPos, bEmpty := decide (nReadPos = s.nWritePos) }
  s.assertPos
  return (c, buf, s)

/-- The room lies between the positions. -/
def readBehind (s : PodCircularBuffer T) (buf : List T) (count : ℤ) :
    Except RingFault (ℤ × List T × PodCircularBuffer T) :=
  let leftcount := s.nBufSize - s.nReadPos
  if leftcount > count then do
    let buf ← memcpy buf 0 s.pBuf s.nReadPos count
    let nReadPos := s.nReadPos + count
    let s := { s with nReadPos, bEmpty := decide (nReadPos = s.nWritePos) }
    s.assertPos
    return (count, buf, s)
  else do
    let buf ← memcpy buf 0 s.pBuf s.nReadPos leftcount
    let nReadPos := if s.nWritePos ≥ count - leftcount then count - leftcount else s.nWritePos
    let buf ← memcpy buf leftcount s.pBuf 0 nReadPos
    let s := { s with nReadPos, bEmpty := decide (nReadPos = s.nWritePos) }
    s.assertPos
    return (leftcount + nReadPos, buf, s)

/-- `PodCircularBuffer::read`, with the caller's array as it leaves it. -/
def read (s : PodCircularBuffer T) (buf : List T) (count : ℤ) :
    Except RingFault (ℤ × List T × PodCircularBuffer T) :=
  if count ≤ 0 then .ok (0, buf, s)
  else if s.bEmpty then .ok (0, buf, s)
  else
    let s := { s with bFull := false }
    if s.nReadPos = s.nWritePos then s.readFull buf count
    else if s.nReadPos < s.nWritePos then s.readAhead buf count
    else s.readBehind buf count

/-! ## Sequences of calls -/

/-- A call, with the caller's array. -/
inductive Call (T : Type)
  | write (buf : List T) (count : ℤ)
  | read (buf : List T) (count : ℤ)
  | clear
  deriving DecidableEq, Repr

/-- What the caller sees of a call: what it returns, the array behind it, and what `size`, `empty`
and `full` then say. -/
structure Seen (T : Type) where
  ret : ℤ
  buf : List T
  size : ℤ
  empty : Bool
  full : Bool
  deriving DecidableEq, Repr

def call (s : PodCircularBuffer T) : Call T → Except RingFault (ℤ × List T × PodCircularBuffer T)
  | .write buf count => (s.write buf count).map fun r => (r.1, buf, r.2)
  | .read buf count => s.read buf count
  | .clear => .ok (0, [], s.clear)

/-- What is seen of a sequence of calls. -/
def calls : PodCircularBuffer T → List (Call T) → Except RingFault (List (Seen T))
  | _, [] => .ok []
  | s, c :: cs => do
    let (ret, buf, s) ← s.call c
    let rest ← s.calls cs
    return ⟨ret, buf, s.size, s.empty, s.full⟩ :: rest

end PodCircularBuffer

end TestLibuv
