import Mathlib.Logic.Equiv.Basic
import TestLibuv.HeapInl

/-!
# The links of the heap

`Linked n f h` says that the pointers of `h` make `f 1` to `f n` a complete binary tree, `f i` at
position `i`. An exchange of two nodes by `heap_node_swap` is an exchange of their positions, and
the path of a position leads to the pointer that position hangs from.
-/

namespace TestLibuv

namespace UvHeap

variable {h : UvHeap} {a b c p x : ℕ} {q par : Option ℕ} {n : ℕ} {f : ℕ → ℕ}

section Writes

@[simp] theorem node_setNode {y : HeapNode} :
    (h.setNode a y).node b = if b = a then y else h.node b := rfl

@[simp] theorem min_setNode {y : HeapNode} : (h.setNode a y).min = h.min := rfl

@[simp] theorem nelts_setNode {y : HeapNode} : (h.setNode a y).nelts = h.nelts := rfl

theorem setNode_setNode {y z : HeapNode} : (h.setNode a y).setNode a z = h.setNode a z := by
  simp only [setNode, mk.injEq, true_and]
  funext b
  split_ifs <;> rfl

theorem node_setLeft : (h.setLeft a q).node b
    = if b = a then { h.node b with left := q } else h.node b := by
  unfold setLeft
  rw [node_setNode]
  split_ifs with hb
  · rw [hb]
  · rfl

theorem node_setRight : (h.setRight a q).node b
    = if b = a then { h.node b with right := q } else h.node b := by
  unfold setRight
  rw [node_setNode]
  split_ifs with hb
  · rw [hb]
  · rfl

theorem node_setParent : (h.setParent a q).node b
    = if b = a then { h.node b with parent := q } else h.node b := by
  unfold setParent
  rw [node_setNode]
  split_ifs with hb
  · rw [hb]
  · rfl

@[simp] theorem min_setLeft : (h.setLeft a q).min = h.min := rfl

@[simp] theorem min_setRight : (h.setRight a q).min = h.min := rfl

@[simp] theorem min_setParent : (h.setParent a q).min = h.min := rfl

@[simp] theorem nelts_setLeft : (h.setLeft a q).nelts = h.nelts := rfl

@[simp] theorem nelts_setRight : (h.setRight a q).nelts = h.nelts := rfl

@[simp] theorem nelts_setParent : (h.setParent a q).nelts = h.nelts := rfl

theorem node_setParentOf : (h.setParentOf par q).node b
    = if par = some b then { h.node b with parent := q } else h.node b := by
  rcases par with _ | a
  · rfl
  · simp only [setParentOf, node_setParent, Option.some.injEq, eq_comm]

@[simp] theorem min_setParentOf : (h.setParentOf par q).min = h.min := by
  cases par <;> rfl

@[simp] theorem nelts_setParentOf : (h.setParentOf par q).nelts = h.nelts := by
  cases par <;> rfl

theorem node_relink : (h.relink a b par).node c
    = if par = some c then
        if (h.node c).left = some a then { h.node c with left := some b }
        else { h.node c with right := some b }
      else h.node c := by
  rcases par with _ | g
  · rfl
  · by_cases hc : c = g
    · subst hc
      unfold relink
      simp only [if_true]
      split_ifs <;> simp [node_setLeft, node_setRight]
    · have hg : ¬(some g = some c) := by simpa using Ne.symm hc
      rw [if_neg hg]
      unfold relink
      simp only
      split_ifs <;> simp [node_setLeft, node_setRight, hc]

theorem left_relink : ((h.relink a b par).node c).left
    = if par = some c ∧ (h.node c).left = some a then some b else (h.node c).left := by
  rw [node_relink]
  split_ifs <;> first | rfl | simp_all

theorem right_relink : ((h.relink a b par).node c).right
    = if par = some c ∧ (h.node c).left ≠ some a then some b else (h.node c).right := by
  rw [node_relink]
  split_ifs <;> first | rfl | simp_all

@[simp] theorem parent_relink : ((h.relink a b par).node c).parent = (h.node c).parent := by
  rw [node_relink]
  split_ifs <;> rfl

@[simp] theorem left_setParentOf : ((h.setParentOf par q).node b).left = (h.node b).left := by
  rw [node_setParentOf]
  split_ifs <;> rfl

@[simp] theorem right_setParentOf : ((h.setParentOf par q).node b).right = (h.node b).right := by
  rw [node_setParentOf]
  split_ifs <;> rfl

theorem parent_setParentOf : ((h.setParentOf par q).node b).parent
    = if par = some b then q else (h.node b).parent := by
  rw [node_setParentOf]
  split_ifs <;> rfl

@[simp] theorem min_relink :
    (h.relink a b par).min = if par = none then some b else h.min := by
  rcases par with _ | g
  · rfl
  · unfold relink
    simp only
    split_ifs <;> simp_all

@[simp] theorem nelts_relink : (h.relink a b par).nelts = h.nelts := by
  rcases par with _ | g
  · rfl
  · unfold relink
    simp only
    split_ifs <;> rfl

end Writes

section Swap

/-- The child of `p` that is not `x`. -/
def sibling (h : UvHeap) (p x : ℕ) : Option ℕ :=
  if (h.node p).left = some x then (h.node p).right else (h.node p).left

/-- Nothing but the link between them leads from `p` or its child `x` to either. -/
structure Apart (h : UvHeap) (p x : ℕ) : Prop where
  ne : x ≠ p
  above : (h.node p).parent ≠ some p ∧ (h.node p).parent ≠ some x
  beside : h.sibling p x ≠ some p ∧ h.sibling p x ≠ some x
  left : (h.node x).left ≠ some p ∧ (h.node x).left ≠ some x
  right : (h.node x).right ≠ some p ∧ (h.node x).right ≠ some x

/-- What the exchange makes of the two nodes and of those around them. -/
def exchanged (h : UvHeap) (p x b : ℕ) : HeapNode :=
  if b = p then ⟨(h.node x).left, (h.node x).right, some x⟩
  else if b = x then
    if (h.node p).left = some x then { h.node p with left := some p }
    else { h.node p with right := some p }
  else if (h.node x).right = some b ∨ (h.node x).left = some b then
    { h.node b with parent := some p }
  else if h.sibling p x = some b then { h.node b with parent := some x }
  else h.node b

theorem node_exchange (ha : Apart h p x) : (h.exchange p x).node b = h.exchanged p x b := by
  obtain ⟨hne, ⟨hp, hp'⟩, ⟨hs, hs'⟩, ⟨hl, hl'⟩, hr, hr'⟩ := ha
  have hne' := hne.symm
  unfold sibling at hs hs'
  unfold exchange exchanged sibling
  by_cases hleft : (h.node p).left = some x
  · rw [if_pos hleft] at hs hs'
    by_cases hbp : b = p
    · simp [node_setParentOf, node_setParent, node_setLeft, *]
    by_cases hbx : b = x
    · simp [node_setParentOf, node_setParent, node_setLeft, *]
    simp only [node_setParentOf, node_setParent, node_setLeft, node_setNode, *, if_true, if_false]
    split_ifs <;> simp_all
  · rw [if_neg hleft] at hs hs'
    by_cases hbp : b = p
    · simp [node_setParentOf, node_setParent, node_setRight, *]
    by_cases hbx : b = x
    · simp [node_setParentOf, node_setParent, node_setRight, *]
    simp only [node_setParentOf, node_setParent, node_setRight, node_setNode, *, if_true, if_false]
    split_ifs <;> simp_all

theorem min_exchange : (h.exchange p x).min = h.min := by
  simp only [exchange, min_setParentOf, apply_ite UvHeap.min, min_setLeft, min_setRight,
    min_setParent, min_setNode, ite_self]

@[simp] theorem nelts_nodeSwap : (h.nodeSwap p x).nelts = h.nelts := by
  simp only [nodeSwap, nelts_relink, exchange, nelts_setParentOf, apply_ite UvHeap.nelts,
    nelts_setLeft, nelts_setRight, nelts_setParent, nelts_setNode, ite_self]

theorem nodeSwap_eq (ha : Apart h p x) :
    h.nodeSwap p x = (h.exchange p x).relink p x (h.node p).parent := by
  have hx : ((h.exchange p x).node x).parent = (h.node p).parent := by
    rw [node_exchange ha, exchanged, if_neg ha.ne, if_pos rfl]
    split_ifs <;> rfl
  rw [nodeSwap, hx]

variable (ha : Apart h p x)
include ha

theorem left_nodeSwap : ((h.nodeSwap p x).node b).left =
    if b = p then (h.node x).left
    else if b = x then if (h.node p).left = some x then some p else (h.node p).left
    else if (h.node p).parent = some b ∧ (h.node b).left = some p then some x
    else (h.node b).left := by
  obtain ⟨-, ⟨hp, hp'⟩, -⟩ := id ha
  rw [nodeSwap_eq ha, left_relink, node_exchange ha, exchanged]
  by_cases hbp : b = p
  · simp only [hbp, if_true, hp, false_and, if_false]
  by_cases hbx : b = x
  · simp only [hbx, if_true, hp', false_and, if_false, ha.ne]
    split_ifs <;> rfl
  · simp only [hbp, hbx, if_false]
    split_ifs <;> rfl

theorem right_nodeSwap : ((h.nodeSwap p x).node b).right =
    if b = p then (h.node x).right
    else if b = x then if (h.node p).left = some x then (h.node p).right else some p
    else if (h.node p).parent = some b ∧ (h.node b).left ≠ some p then some x
    else (h.node b).right := by
  obtain ⟨-, ⟨hp, hp'⟩, -⟩ := id ha
  rw [nodeSwap_eq ha, right_relink, node_exchange ha, exchanged]
  by_cases hbp : b = p
  · simp only [hbp, if_true, hp, false_and, if_false]
  by_cases hbx : b = x
  · simp only [hbx, if_true, hp', false_and, if_false, ha.ne]
    split_ifs <;> rfl
  · simp only [hbp, hbx, if_false]
    split_ifs <;> rfl

theorem parent_nodeSwap : ((h.nodeSwap p x).node b).parent =
    if b = p then some x
    else if b = x then (h.node p).parent
    else if (h.node x).right = some b ∨ (h.node x).left = some b then some p
    else if h.sibling p x = some b then some x
    else (h.node b).parent := by
  rw [nodeSwap_eq ha, parent_relink, node_exchange ha, exchanged]
  split_ifs <;> rfl

theorem min_nodeSwap :
    (h.nodeSwap p x).min = if (h.node p).parent = none then some x else h.min := by
  rw [nodeSwap_eq ha, min_relink, min_exchange]

end Swap

/-- The node at a position, if it is taken. -/
def slot (n : ℕ) (f : ℕ → ℕ) (k : ℕ) : Option ℕ := if 1 ≤ k ∧ k ≤ n then some (f k) else none

/-- The nodes `f 1` to `f n` are linked as a complete binary tree. -/
structure Linked (n : ℕ) (f : ℕ → ℕ) (h : UvHeap) : Prop where
  inj : ∀ i j, 1 ≤ i → i ≤ n → 1 ≤ j → j ≤ n → f i = f j → i = j
  min : h.min = slot n f 1
  left : ∀ i, 1 ≤ i → i ≤ n → (h.node (f i)).left = slot n f (2 * i)
  right : ∀ i, 1 ≤ i → i ≤ n → (h.node (f i)).right = slot n f (2 * i + 1)
  parent : ∀ i, 1 ≤ i → i ≤ n → (h.node (f i)).parent = slot n f (i / 2)

section Linked

variable {i k : ℕ}

theorem slot_of_le (hk : 1 ≤ k) (hn : k ≤ n) : slot n f k = some (f k) := if_pos ⟨hk, hn⟩

theorem slot_eq_none : slot n f k = none ↔ k = 0 ∨ n < k := by
  unfold slot
  split_ifs with hk
  · simp only [false_iff]
    omega
  · simp only [true_iff]
    omega

theorem slot_swap (hi : 1 ≤ i) (hin : i ≤ n) (hc : 1 ≤ c) (hcn : c ≤ n) :
    slot n (f ∘ Equiv.swap i c) k =
      if k = i then some (f c) else if k = c then some (f i) else slot n f k := by
  unfold slot
  rw [Function.comp_apply, Equiv.swap_apply_def]
  split_ifs <;> first | rfl | omega

variable (hL : Linked n f h)
include hL

theorem Linked.slot_eq (hi : 1 ≤ i) (hin : i ≤ n) : slot n f k = some (f i) ↔ k = i := by
  constructor
  · intro hk
    unfold slot at hk
    split_ifs at hk with hr
    exact hL.inj k i hr.1 hr.2 hi hin (Option.some.inj hk)
  · rintro rfl
    exact slot_of_le hi hin

theorem Linked.eq_iff (hi : 1 ≤ i) (hin : i ≤ n) (hk : 1 ≤ k) (hkn : k ≤ n) :
    f i = f k ↔ i = k := ⟨hL.inj i k hi hin hk hkn, congrArg f⟩

theorem Linked.sibling (hi : 1 ≤ i) (hin : i ≤ n) (hc : 1 ≤ c) (hcn : c ≤ n) :
    h.sibling (f i) (f c) = if 2 * i = c then slot n f (2 * i + 1) else slot n f (2 * i) := by
  simp only [UvHeap.sibling, hL.left i hi hin, hL.right i hi hin, hL.slot_eq hc hcn]

theorem Linked.apart (hi : 1 ≤ i) (hin : i ≤ n) (hc : 1 ≤ c) (hcn : c ≤ n) (hci : c / 2 = i) :
    Apart h (f i) (f c) := by
  constructor
  · rw [Ne, hL.eq_iff hc hcn hi hin]
    omega
  · rw [hL.parent i hi hin, Ne, Ne, hL.slot_eq hi hin, hL.slot_eq hc hcn]
    omega
  · rw [hL.sibling hi hin hc hcn]
    split_ifs <;> rw [Ne, Ne, hL.slot_eq hi hin, hL.slot_eq hc hcn] <;> omega
  · rw [hL.left c hc hcn, Ne, Ne, hL.slot_eq hi hin, hL.slot_eq hc hcn]
    omega
  · rw [hL.right c hc hcn, Ne, Ne, hL.slot_eq hi hin, hL.slot_eq hc hcn]
    omega

/-- The two change places, and nothing else does. -/
theorem Linked.nodeSwap (hi : 1 ≤ i) (hin : i ≤ n) (hc : 1 ≤ c) (hcn : c ≤ n) (hci : c / 2 = i) :
    Linked n (f ∘ Equiv.swap i c) (h.nodeSwap (f i) (f c)) := by
  have ha := hL.apart hi hin hc hcn hci
  have hmove : ∀ k, slot n (f ∘ Equiv.swap i c) k =
      if k = i then some (f c) else if k = c then some (f i) else slot n f k :=
    fun k => slot_swap hi hin hc hcn
  refine ⟨?_, ?_, ?_, ?_, ?_⟩
  · intro j k hj hjn hk hkn hjk
    refine (Equiv.swap i c).injective (hL.inj _ _ ?_ ?_ ?_ ?_ hjk) <;>
      rw [Equiv.swap_apply_def] <;> split_ifs <;> omega
  · simp only [min_nodeSwap ha, hL.parent i hi hin, hmove, hL.min, slot_eq_none]
    split_ifs <;> first | rfl | omega
  · intro k hk hkn
    rw [left_nodeSwap ha, hmove, Function.comp_apply, Equiv.swap_apply_def]
    by_cases hki : k = i
    · simp only [hki, if_true, ha.ne, if_false, hL.left i hi hin, hL.slot_eq hc hcn]
      split_ifs <;> first | rfl | omega
    by_cases hkc : k = c
    · simp only [hkc, if_true, hL.left c hc hcn]
      split_ifs <;> first | rfl | omega
    · simp only [hki, hkc, if_false, hL.eq_iff hk hkn hi hin, hL.eq_iff hk hkn hc hcn,
        hL.parent i hi hin, hL.left k hk hkn, hL.slot_eq hk hkn, hL.slot_eq hi hin]
      split_ifs <;> first | rfl | omega
  · intro k hk hkn
    rw [right_nodeSwap ha, hmove, Function.comp_apply, Equiv.swap_apply_def]
    by_cases hki : k = i
    · simp only [hki, if_true, ha.ne, if_false, hL.left i hi hin, hL.right i hi hin,
        hL.slot_eq hc hcn]
      split_ifs <;> first | rfl | omega
    by_cases hkc : k = c
    · simp only [hkc, if_true, hL.right c hc hcn]
      split_ifs <;> first | rfl | omega
    · simp only [hki, hkc, if_false, hL.eq_iff hk hkn hi hin, hL.eq_iff hk hkn hc hcn, Ne,
        hL.parent i hi hin, hL.left k hk hkn, hL.right k hk hkn, hL.slot_eq hk hkn,
        hL.slot_eq hi hin]
      split_ifs <;> first | rfl | omega
  · intro k hk hkn
    rw [parent_nodeSwap ha, hmove, Function.comp_apply, Equiv.swap_apply_def,
      hL.sibling hi hin hc hcn]
    by_cases hki : k = i
    · simp only [hki, if_true, ha.ne, if_false, hL.parent i hi hin]
      split_ifs <;> first | rfl | omega
    by_cases hkc : k = c
    · simp only [hkc, if_true]
      split_ifs <;> first | rfl | omega
    · simp only [hki, hkc, if_false, hL.eq_iff hk hkn hi hin, hL.eq_iff hk hkn hc hcn,
        hL.left c hc hcn, hL.right c hc hcn, hL.parent k hk hkn, hL.slot_eq hk hkn,
        apply_ite (· = some (f k))]
      split_ifs <;> first | rfl | omega

end Linked

section Paths

variable {k m path N i j : ℕ}

/-- The position a path leads to, from position `q`. -/
def descend : ℕ → ℕ → ℕ → ℕ
  | 0, _, q => q
  | k + 1, path, q => descend k (path / 2) (2 * q + path % 2)

theorem le_descend : ∀ k path q, q ≤ descend k path q
  | 0, _, _ => le_rfl
  | k + 1, path, q => by
    have := le_descend k (path / 2) (2 * q + path % 2)
    rw [descend]
    omega

/-- The path taken from `n` leads to `n`. -/
theorem descend_heapPath : ∀ (m n path k : ℕ), 1 ≤ n → n < 2 ^ m → path < 2 ^ k →
    2 ^ k * n < 2 ^ 32 →
    descend (heapPath m n path k).2 (heapPath m n path k).1 1 = descend k path n
  | 0, n, path, k, hn, hm, _, _ => by
    rw [Nat.pow_zero] at hm
    omega
  | m + 1, n, path, k, hn, hm, hp, hk => by
    unfold heapPath
    split_ifs with h2
    · have hpow : 2 ^ k * 2 ≤ 2 ^ k * n := Nat.mul_le_mul_left _ h2
      have hhalf : 2 ^ (k + 1) * (n / 2) ≤ 2 ^ k * n := by
        rw [Nat.pow_succ, Nat.mul_assoc]
        exact Nat.mul_le_mul_left _ (Nat.mul_div_le n 2)
      rw [Nat.mod_eq_of_lt (by omega)]
      rw [descend_heapPath m (n / 2) (2 * path + n % 2) (k + 1) (by omega)
        (by rw [Nat.pow_succ] at hm; omega) (by rw [Nat.pow_succ]; omega) (by omega)]
      rw [descend]
      congr 1 <;> omega
    · have h1 : n = 1 := by omega
      rw [h1]

/-- The pointer a position hangs from. -/
def slotOf (f : ℕ → ℕ) (j : ℕ) : HeapSlot :=
  if j ≤ 1 then .min else if j % 2 = 0 then .left (f (j / 2)) else .right (f (j / 2))

theorem Linked.read_slotOf (hL : Linked n f h) (hj : 1 ≤ j) (hn : j / 2 ≤ n) :
    h.read (slotOf f j) = slot n f j := by
  unfold slotOf
  split_ifs with h1 h2
  · have : j = 1 := by omega
    rw [this]
    exact hL.min
  · rw [read, hL.left _ (by omega) hn]
    congr 1
    omega
  · rw [read, hL.right _ (by omega) hn]
    congr 1
    omega

theorem Linked.walk (hL : Linked n f h) : ∀ (k path q : ℕ), 1 ≤ q → descend k path q / 2 ≤ n →
    h.walk k path (slotOf f (q / 2)) (slotOf f q)
      = .ok (slotOf f (descend k path q / 2), slotOf f (descend k path q))
  | 0, _, _, _, _ => rfl
  | k + 1, path, q, hq, hn => by
    have hle := le_descend k (path / 2) (2 * q + path % 2)
    rw [descend] at hn ⊢
    have hqn : q ≤ n := by omega
    have hhalf : (2 * q + path % 2) / 2 = q := by omega
    have hnext : (if path % 2 = 1 then HeapSlot.right (f q) else .left (f q))
        = slotOf f (2 * q + path % 2) := by
      rw [slotOf, if_neg (by omega : ¬2 * q + path % 2 ≤ 1), hhalf]
      split_ifs <;> first | rfl | omega
    rw [UvHeap.walk, hL.read_slotOf hq (by omega), slot_of_le hq hqn]
    simp only
    rw [hnext]
    have hrec := hL.walk k (path / 2) (2 * q + path % 2) (by omega) hn
    rw [hhalf] at hrec
    exact hrec

/-- Where the loops of `heap_insert` and `heap_remove` come to. -/
theorem Linked.walk_heapPath (hL : Linked n f h) (hN : 1 ≤ N) (hn : N / 2 ≤ n) (hlt : N < 2 ^ 32) :
    h.walk (heapPath uintBits N 0 0).2 (heapPath uintBits N 0 0).1 .min .min
      = .ok (slotOf f (N / 2), slotOf f N) := by
  have hd := descend_heapPath uintBits N 0 0 hN hlt (by simp) (by simpa using hlt)
  rw [descend] at hd
  have hw := hL.walk (heapPath uintBits N 0 0).2 (heapPath uintBits N 0 0).1 1 le_rfl (by rwa [hd])
  rwa [hd] at hw

end Paths

section Ends

variable {i j k : ℕ} {s : HeapSlot}

theorem left_write : ((h.write s q).node b).left = if s = .left b then q else (h.node b).left := by
  rcases s with _ | a | a
  · rfl
  · simp only [write, node_setLeft, HeapSlot.left.injEq, @eq_comm _ a]
    split_ifs <;> rfl
  · simp only [write, node_setRight, reduceCtorEq, if_false]
    split_ifs <;> rfl

theorem right_write :
    ((h.write s q).node b).right = if s = .right b then q else (h.node b).right := by
  rcases s with _ | a | a
  · rfl
  · simp only [write, node_setLeft, reduceCtorEq, if_false]
    split_ifs <;> rfl
  · simp only [write, node_setRight, HeapSlot.right.injEq, @eq_comm _ a]
    split_ifs <;> rfl

@[simp] theorem parent_write : ((h.write s q).node b).parent = (h.node b).parent := by
  rcases s with _ | a | a <;> simp only [write, node_setLeft, node_setRight] <;> split_ifs <;> rfl

theorem min_write : (h.write s q).min = if s = .min then q else h.min := by
  cases s <;> rfl

@[simp] theorem nelts_write : (h.write s q).nelts = h.nelts := by
  cases s <;> rfl

theorem slotOf_eq_min (hj : 1 ≤ j) : slotOf f j = .min ↔ j = 1 := by
  unfold slotOf
  split_ifs <;> simp <;> omega

theorem slotOf_eq_left (hL : Linked n f h) (hj : 1 ≤ j) (hn : j / 2 ≤ n) (hk : 1 ≤ k)
    (hkn : k ≤ n) : slotOf f j = .left (f k) ↔ j = 2 * k := by
  unfold slotOf
  split_ifs with h1 h2
  · simp only [false_iff]
    omega
  · rw [HeapSlot.left.injEq, hL.eq_iff (by omega) hn hk hkn]
    omega
  · simp only [false_iff]
    omega

theorem slotOf_eq_right (hL : Linked n f h) (hj : 1 ≤ j) (hn : j / 2 ≤ n) (hk : 1 ≤ k)
    (hkn : k ≤ n) : slotOf f j = .right (f k) ↔ j = 2 * k + 1 := by
  unfold slotOf
  split_ifs with h1 h2
  · simp only [false_iff]
    omega
  · simp only [false_iff]
    omega
  · rw [HeapSlot.right.injEq, hL.eq_iff (by omega) hn hk hkn]
    omega

theorem slot_push : slot (n + 1) (Function.update f (n + 1) x) k
    = if k = n + 1 then some x else slot n f k := by
  unfold slot
  by_cases hk : k = n + 1
  · rw [if_pos (by omega), if_pos hk, hk, Function.update_self]
  · rw [Function.update_of_ne hk]
    split_ifs <;> first | rfl | omega

theorem slot_pop : slot n f k = if k = n + 1 then none else slot (n + 1) f k := by
  unfold slot
  split_ifs <;> first | rfl | omega

theorem slot_update (hi : 1 ≤ i) (hin : i ≤ n) : slot n (Function.update f i x) k
    = if k = i then some x else slot n f k := by
  unfold slot
  by_cases hk : k = i
  · rw [if_pos (by omega), if_pos hk, hk, Function.update_self]
  · rw [if_neg hk, Function.update_of_ne hk]

theorem Linked.setNode_fresh (hL : Linked n f h) (hx : ∀ i, 1 ≤ i → i ≤ n → f i ≠ x)
    {y : HeapNode} : Linked n f (h.setNode x y) where
  inj := hL.inj
  min := hL.min
  left i hi hin := by rw [node_setNode, if_neg (hx i hi hin), hL.left i hi hin]
  right i hi hin := by rw [node_setNode, if_neg (hx i hi hin), hL.right i hi hin]
  parent i hi hin := by rw [node_setNode, if_neg (hx i hi hin), hL.parent i hi hin]

theorem Linked.setNelts (hL : Linked n f h) (m : ℕ) : Linked n f { h with nelts := m } :=
  ⟨hL.inj, hL.min, hL.left, hL.right, hL.parent⟩

/-- A node without children becomes the last. -/
theorem Linked.push (hL : Linked n f h) (hx : ∀ i, 1 ≤ i → i ≤ n → f i ≠ x)
    (hleft : (h.node x).left = none) (hright : (h.node x).right = none)
    (hparent : (h.node x).parent = slot n f ((n + 1) / 2)) :
    Linked (n + 1) (Function.update f (n + 1) x) (h.write (slotOf f (n + 1)) (some x)) := by
  have hval : ∀ i, 1 ≤ i → i ≤ n → Function.update f (n + 1) x i = f i :=
    fun i _ hin => Function.update_of_ne (by omega) _ _
  have hlast : Function.update f (n + 1) x (n + 1) = x := Function.update_self _ _ _
  have hnew : ∀ i, 1 ≤ i → i ≤ n + 1 → i = n + 1 ∨ i ≤ n := by omega
  refine ⟨?_, ?_, ?_, ?_, ?_⟩
  · intro i j hi hin hj hjn hij
    rcases hnew i hi hin with rfl | hin' <;> rcases hnew j hj hjn with rfl | hjn'
    · rfl
    · rw [hlast, hval j hj hjn'] at hij
      exact absurd hij.symm (hx j hj hjn')
    · rw [hlast, hval i hi hin'] at hij
      exact absurd hij (hx i hi hin')
    · rw [hval i hi hin', hval j hj hjn'] at hij
      exact hL.inj i j hi hin' hj hjn' hij
  · rw [min_write, slot_push, hL.min]
    simp only [slotOf_eq_min (by omega : 1 ≤ n + 1), @eq_comm _ 1]
  · intro i hi hin
    rw [left_write, slot_push]
    rcases hnew i hi hin with rfl | hin'
    · rw [hlast, hleft, if_neg, if_neg (by omega), slot_eq_none.2 (by omega)]
      unfold slotOf
      split_ifs with h1 h2
      · simp
      · rw [HeapSlot.left.injEq]
        exact hx _ (by omega) (by omega)
      · simp
    · simp only [hval i hi hin', slotOf_eq_left hL (by omega : 1 ≤ n + 1) (by omega) hi hin',
        hL.left i hi hin', @eq_comm _ (n + 1)]
  · intro i hi hin
    rw [right_write, slot_push]
    rcases hnew i hi hin with rfl | hin'
    · rw [hlast, hright, if_neg, if_neg (by omega), slot_eq_none.2 (by omega)]
      unfold slotOf
      split_ifs with h1 h2
      · simp
      · simp
      · rw [HeapSlot.right.injEq]
        exact hx _ (by omega) (by omega)
    · simp only [hval i hi hin', slotOf_eq_right hL (by omega : 1 ≤ n + 1) (by omega) hi hin',
        hL.right i hi hin', @eq_comm _ (n + 1)]
  · intro i hi hin
    rw [parent_write, slot_push, if_neg (by omega)]
    rcases hnew i hi hin with rfl | hin'
    · rw [hlast, hparent]
    · rw [hval i hi hin', hL.parent i hi hin']

/-- The pointer to the last node is cleared. -/
theorem Linked.pop (hL : Linked (n + 1) f h) : Linked n f (h.write (slotOf f (n + 1)) none) := by
  refine ⟨fun i j hi hin hj hjn => hL.inj i j hi (by omega) hj (by omega), ?_, ?_, ?_, ?_⟩
  · rw [min_write, slot_pop, hL.min]
    simp only [slotOf_eq_min (by omega : 1 ≤ n + 1), @eq_comm _ 1]
  · intro i hi hin
    rw [left_write, slot_pop, hL.left i hi (by omega)]
    simp only [slotOf_eq_left hL (by omega : 1 ≤ n + 1) (by omega) hi (by omega : i ≤ n + 1),
      @eq_comm _ (n + 1)]
  · intro i hi hin
    rw [right_write, slot_pop, hL.right i hi (by omega)]
    simp only [slotOf_eq_right hL (by omega : 1 ≤ n + 1) (by omega) hi (by omega : i ≤ n + 1),
      @eq_comm _ (n + 1)]
  · intro i hi hin
    rw [parent_write, slot_pop, hL.parent i hi (by omega), if_neg (by omega)]

/-- A node outside takes the place of one inside. -/
theorem Linked.replace (hL : Linked n f h) (hx : ∀ k, 1 ≤ k → k ≤ n → f k ≠ x) (hi : 1 ≤ i)
    (hin : i ≤ n) : Linked n (Function.update f i x) (h.replace (f i) x) := by
  have hne : f i ≠ x := hx i hi hin
  have hslot : ∀ k, slot n f k ≠ some x := by
    intro k hk
    unfold slot at hk
    split_ifs at hk with hr
    exact hx k hr.1 hr.2 (Option.some.inj hk)
  have hself : ∀ k, slot n f k = some (f i) ↔ k = i := fun k => hL.slot_eq hi hin
  have hl : (h.node (f i)).left = slot n f (2 * i) := hL.left i hi hin
  have hr : (h.node (f i)).right = slot n f (2 * i + 1) := hL.right i hi hin
  have hp : (h.node (f i)).parent = slot n f (i / 2) := hL.parent i hi hin
  have hnode : h.replace (f i) x = (((h.setNode x (h.node (f i))).setParentOf (slot n f (2 * i))
      (some x)).setParentOf (slot n f (2 * i + 1)) (some x)).relink (f i) x (slot n f (i / 2)) := by
    unfold UvHeap.replace
    have h1 : 2 * i ≠ i := by omega
    have h2 : 2 * i + 1 ≠ i := by omega
    simp only [node_setNode, if_true, hl, node_setParentOf, hslot, if_false, hr, hself, h1, h2, hne,
      hp]
  refine ⟨?_, ?_, ?_, ?_, ?_⟩
  · intro j k hj hjn hk hkn hjk
    by_cases hji : j = i <;> by_cases hki : k = i
    · omega
    · rw [hji, Function.update_self, Function.update_of_ne hki] at hjk
      exact absurd hjk.symm (hx k hk hkn)
    · rw [hki, Function.update_self, Function.update_of_ne hji] at hjk
      exact absurd hjk (hx j hj hjn)
    · rw [Function.update_of_ne hji, Function.update_of_ne hki] at hjk
      exact hL.inj j k hj hjn hk hkn hjk
  · rw [hnode, min_relink, min_setParentOf, min_setParentOf, min_setNode, slot_update hi hin,
      hL.min]
    simp only [slot_eq_none]
    split_ifs <;> first | rfl | omega
  · intro k hk hkn
    rw [hnode, left_relink, left_setParentOf, left_setParentOf, node_setNode, slot_update hi hin]
    by_cases hki : k = i
    · rw [hki, Function.update_self]
      simp only [hslot, false_and, if_false, if_true, hl]
      rw [if_neg (by omega)]
    · rw [Function.update_of_ne hki]
      simp only [hx k hk hkn, if_false, hL.left k hk hkn, hL.slot_eq hk hkn, hself]
      split_ifs <;> first | rfl | omega
  · intro k hk hkn
    rw [hnode, right_relink, right_setParentOf, right_setParentOf, left_setParentOf,
      left_setParentOf, node_setNode, slot_update hi hin]
    by_cases hki : k = i
    · rw [hki, Function.update_self]
      simp only [hslot, false_and, if_false, if_true, hr]
      rw [if_neg (by omega)]
    · rw [Function.update_of_ne hki]
      simp only [hx k hk hkn, if_false, hL.left k hk hkn, hL.right k hk hkn, hL.slot_eq hk hkn, Ne,
        hself]
      split_ifs <;> first | rfl | omega
  · intro k hk hkn
    rw [hnode, parent_relink, parent_setParentOf, parent_setParentOf, node_setNode,
      slot_update hi hin]
    by_cases hki : k = i
    · rw [hki, Function.update_self]
      simp only [hslot, if_false, if_true, hp]
      rw [if_neg (by omega)]
    · rw [Function.update_of_ne hki]
      simp only [hx k hk hkn, if_false, hL.slot_eq hk hkn, hL.parent k hk hkn]
      split_ifs <;> first | rfl | omega

end Ends

end UvHeap

end TestLibuv
