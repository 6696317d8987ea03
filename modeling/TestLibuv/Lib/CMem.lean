import Mathlib.Algebra.Group.Int.Defs
import Mathlib.Algebra.Group.Nat.Defs
import Mathlib.Data.List.Basic
import Mathlib.Data.Int.Order.Basic

/-!
# The arithmetic and the memory of a 32-bit C program

An `int` is an integer in `[-2^31, 2^31)`, with addition undefined outside it; conversion to and
from `uint32_t` is modulo `2^32`. A block is the list of its bytes, little-endian, and an access
outside it is undefined. What the language leaves undefined is a `Fault`.
-/

namespace CMem

/-- Behaviour the language leaves undefined. -/
inductive Fault
  | intOverflow
  | outOfBounds
  deriving DecidableEq, Repr

/-- `a + b` on `int`. -/
def intAdd (a b : ℤ) : Except Fault ℤ :=
  if -2 ^ 31 ≤ a + b ∧ a + b < 2 ^ 31 then .ok (a + b) else .error .intOverflow

/-- An `int` converted to `uint32_t`. -/
def toU32 (a : ℤ) : UInt32 := UInt32.ofInt a

/-- A `uint32_t` converted to `int`. -/
def ofU32 (u : UInt32) : ℤ := if u.toNat < 2 ^ 31 then u.toNat else u.toNat - 2 ^ 32

/-- A block of `n` bytes. Its contents are indeterminate, which zero stands for. -/
def malloc (n : ℕ) : List UInt8 := List.replicate n 0

/-- The block grown or cut to `n` bytes. -/
def realloc (base : List UInt8) (n : ℕ) : List UInt8 :=
  base.take n ++ malloc (n - base.length)

/-- `memcpy(base + off, src, n)` with `n` the length of `src`. -/
def memcpy (base : List UInt8) (off : ℤ) (src : List UInt8) : Except Fault (List UInt8) :=
  if 0 ≤ off ∧ off.toNat + src.length ≤ base.length then
    .ok (base.take off.toNat ++ (src ++ base.drop (off.toNat + src.length)))
  else .error .outOfBounds

/-- The first `n` bytes of a block, as a `memcpy` from it reads them. -/
def loadN (src : List UInt8) (n : ℕ) : Except Fault (List UInt8) :=
  if n ≤ src.length then .ok (src.take n) else .error .outOfBounds

/-- `memmove(base, base + k, n)`. -/
def memmove (base : List UInt8) (k n : ℕ) : Except Fault (List UInt8) :=
  if k + n ≤ base.length then .ok ((base.drop k).take n ++ base.drop n) else .error .outOfBounds

/-- The two bytes of a `uint16_t`. -/
def u16Bytes (x : UInt16) : List UInt8 := [.ofNat (x.toNat % 256), .ofNat (x.toNat / 256)]

/-- The four bytes of a `uint32_t`. -/
def u32Bytes (x : UInt32) : List UInt8 :=
  [.ofNat (x.toNat % 256), .ofNat (x.toNat / 256 % 256), .ofNat (x.toNat / 65536 % 256),
    .ofNat (x.toNat / 16777216 % 256)]

/-- The `uint32_t` the first four bytes spell. -/
def u32Of : List UInt8 → Option UInt32
  | b₀ :: b₁ :: b₂ :: b₃ :: _ =>
    some (.ofNat (b₀.toNat + 256 * b₁.toNat + 65536 * b₂.toNat + 16777216 * b₃.toNat))
  | _ => none

/-- `*(uint32_t*)(base + off)`. -/
def loadU32 (base : List UInt8) (off : ℕ) : Except Fault UInt32 :=
  match u32Of (base.drop off) with
  | some x => .ok x
  | none => .error .outOfBounds

/-- A computation that succeeds is one whose parts do. -/
theorem bind_eq_ok {ε : Type*} {α β : Type*} {x : Except ε α} {f : α → Except ε β} {b : β}
    (h : x.bind f = .ok b) : ∃ a, x = .ok a ∧ f a = .ok b := by
  rcases x with e | a
  · simp [Except.bind] at h
  · exact ⟨a, rfl, h⟩

theorem throw_ne_ok {ε α : Type*} {e : ε} {a : α} : (throw e : Except ε α) ≠ .ok a := by
  simp [throw, throwThe, MonadExceptOf.throw]

theorem intAdd_ok {a b : ℤ} (h : -2 ^ 31 ≤ a + b) (h' : a + b < 2 ^ 31) :
    intAdd a b = .ok (a + b) := if_pos ⟨h, h'⟩

theorem intAdd_overflow {a b : ℤ} (h : 2 ^ 31 ≤ a + b) : intAdd a b = .error .intOverflow :=
  if_neg fun h' => absurd h'.2 (not_lt.2 h)

theorem toNat_toU32 {a : ℤ} (h : 0 ≤ a) (h' : a < 2 ^ 32) : (toU32 a).toNat = a.toNat := by
  unfold toU32 UInt32.ofInt
  rw [UInt32.toNat_ofNat']
  omega

theorem toU32_ofU32 (u : UInt32) : toU32 (ofU32 u) = u := by
  have hu := u.toNat_lt
  unfold toU32 UInt32.ofInt ofU32
  rw [← UInt32.toNat_inj, UInt32.toNat_ofNat']
  split_ifs <;> omega

theorem ofU32_of_lt {u : UInt32} (h : u.toNat < 2 ^ 31) : ofU32 u = u.toNat := if_pos h

@[simp] theorem length_malloc (n : ℕ) : (malloc n).length = n := List.length_replicate

theorem length_realloc {base : List UInt8} {n : ℕ} (h : base.length ≤ n) :
    (realloc base n).length = n := by
  simp only [realloc, List.length_append, List.length_take, length_malloc]
  omega

theorem take_realloc {base : List UInt8} {n k : ℕ} (hk : k ≤ base.length) (hn : base.length ≤ n) :
    (realloc base n).take k = base.take k := by
  rw [realloc, List.take_of_length_le hn, List.take_append_of_le_length hk]

theorem memcpy_ok {base : List UInt8} {off : ℤ} (src : List UInt8) (h : 0 ≤ off)
    (h' : off.toNat + src.length ≤ base.length) : memcpy base off src
      = .ok (base.take off.toNat ++ (src ++ base.drop (off.toNat + src.length))) := if_pos ⟨h, h'⟩

theorem loadN_ok {src : List UInt8} {n : ℕ} (h : n ≤ src.length) :
    loadN src n = .ok (src.take n) := if_pos h

theorem memmove_ok {base : List UInt8} {k n : ℕ} (h : k + n ≤ base.length) :
    memmove base k n = .ok ((base.drop k).take n ++ base.drop n) := if_pos h

@[simp] theorem length_u16Bytes (x : UInt16) : (u16Bytes x).length = 2 := rfl

@[simp] theorem length_u32Bytes (x : UInt32) : (u32Bytes x).length = 4 := rfl

theorem u32Of_u32Bytes (x : UInt32) (r : List UInt8) : u32Of (u32Bytes x ++ r) = some x := by
  have hx := x.toNat_lt
  simp only [u32Bytes, List.cons_append, u32Of, UInt8.toNat_ofNat', Option.some.injEq]
  rw [← UInt32.toNat_inj, UInt32.toNat_ofNat']
  omega

theorem u32Of_isSome : ∀ {b : List UInt8}, 4 ≤ b.length → ∃ x, u32Of b = some x
  | _ :: _ :: _ :: _ :: _, _ => ⟨_, rfl⟩
  | [], h | [_], h | [_, _], h | [_, _, _], h => by simp at h

theorem length_of_u32Of : ∀ {b : List UInt8} {x : UInt32}, u32Of b = some x → 4 ≤ b.length
  | _ :: _ :: _ :: _ :: _, _, _ => by simp
  | [], _, h | [_], _, h | [_, _], _, h | [_, _, _], _, h => by simp [u32Of] at h

/-- What four bytes spell does not depend on the bytes behind them. -/
theorem u32Of_append : ∀ {b : List UInt8} {x : UInt32}, u32Of b = some x →
    ∀ c, u32Of (b ++ c) = some x
  | _ :: _ :: _ :: _ :: _, _, h, _ => h
  | [], _, h, _ | [_], _, h, _ | [_, _], _, h, _ | [_, _, _], _, h, _ => by simp [u32Of] at h

theorem u32Of_drop_take {b : List UInt8} {off n : ℕ} (h : off + 4 ≤ n) (hn : n ≤ b.length) :
    u32Of ((b.take n).drop off) = u32Of (b.drop off) := by
  obtain ⟨x, hx⟩ := u32Of_isSome (b := (b.take n).drop off) (by
    rw [List.length_drop, List.length_take]
    omega)
  have happ : b.drop off = (b.take n).drop off ++ b.drop n := by
    rw [← List.drop_append_of_le_length (by rw [List.length_take]; omega), List.take_append_drop]
  rw [happ, hx, u32Of_append hx]

theorem loadU32_ok {base : List UInt8} {off : ℕ} {x : UInt32} (h : u32Of (base.drop off) = some x) :
    loadU32 base off = .ok x := by
  rw [loadU32, h]

end CMem
