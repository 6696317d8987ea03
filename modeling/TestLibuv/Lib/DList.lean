import Mathlib.Data.List.Chain
import Mathlib.Data.List.Nodup

/-!
# Circular doubly linked lists

Nodes with a pointer to the next and one to the previous node, and a ring of them: a head, which is
a node as the others are, and the nodes behind it in order. What is written to nodes outside a path
does not change it.
-/

namespace DList

/-- The two pointers of every node. -/
structure Links where
  next : ℕ → ℕ
  prev : ℕ → ℕ

namespace Links

def setNext (m : Links) (a b : ℕ) : Links :=
  { m with next := fun c => if c = a then b else m.next c }

def setPrev (m : Links) (a b : ℕ) : Links :=
  { m with prev := fun c => if c = a then b else m.prev c }

/-- The nodes follow each other. -/
def Linked (m : Links) (a b : ℕ) : Prop := m.next a = b ∧ m.prev b = a

/-- Every node of the list follows the one before. -/
def Path (m : Links) (l : List ℕ) : Prop := l.IsChain m.Linked

/-- The nodes behind `h` are those of `xs`. -/
structure Ring (m : Links) (h : ℕ) (xs : List ℕ) : Prop where
  nodup : (h :: xs).Nodup
  path : m.Path (h :: xs ++ [h])

variable {m m' : Links} {a b c h : ℕ} {l xs ys : List ℕ}

@[simp] theorem next_setNext : (m.setNext a b).next c = if c = a then b else m.next c := rfl

@[simp] theorem prev_setNext : (m.setNext a b).prev c = m.prev c := rfl

@[simp] theorem next_setPrev : (m.setPrev a b).next c = m.next c := rfl

@[simp] theorem prev_setPrev : (m.setPrev a b).prev c = if c = a then b else m.prev c := rfl

theorem Path.congr : ∀ {l : List ℕ}, m.Path l → (∀ a ∈ l.dropLast, m'.next a = m.next a) →
    (∀ b ∈ l.tail, m'.prev b = m.prev b) → m'.Path l
  | [], _, _, _ => .nil
  | [_], _, _, _ => .singleton _
  | a :: b :: l, hp, hnext, hprev => by
    obtain ⟨⟨hab, hba⟩, hrest⟩ := List.isChain_cons_cons.1 hp
    rw [List.dropLast_cons_cons, List.forall_mem_cons] at hnext
    rw [List.tail_cons, List.forall_mem_cons] at hprev
    exact List.isChain_cons_cons.2 ⟨⟨hnext.1.trans hab, hprev.1.trans hba⟩,
      Path.congr hrest hnext.2 hprev.2⟩

/-- A ring that is not written to stays as it is. -/
theorem Ring.congr (hr : m.Ring h xs) (hnext : ∀ a ∈ h :: xs, m'.next a = m.next a)
    (hprev : ∀ a ∈ h :: xs, m'.prev a = m.prev a) : m'.Ring h xs := by
  refine ⟨hr.nodup, hr.path.congr (fun a ha => hnext a ?_) fun a ha => hprev a ?_⟩
  · rwa [List.dropLast_concat] at ha
  · rw [List.cons_append, List.tail_cons, List.mem_append, List.mem_singleton] at ha
    rcases ha with ha | rfl
    · exact List.mem_cons_of_mem _ ha
    · exact List.mem_cons_self

theorem path_append_cons : m.Path (xs ++ c :: ys) ↔ m.Path (xs ++ [c]) ∧ m.Path (c :: ys) :=
  List.isChain_split

theorem path_cons_cons : m.Path (a :: b :: l) ↔ m.Linked a b ∧ m.Path (b :: l) :=
  List.isChain_cons_cons

/-- The last node of a ring, which is the head where there is no other. -/
theorem Ring.exists_last (hr : m.Ring h xs) : ∃ ys, h :: xs = ys ++ [m.prev h] ∧ m.prev h ∉ ys
    ∧ m.Path (ys ++ [m.prev h]) ∧ m.next (m.prev h) = h := by
  obtain ⟨ys, p, hys⟩ : ∃ ys p, h :: xs = ys ++ [p] :=
    ⟨_, _, (List.dropLast_concat_getLast (List.cons_ne_nil h xs)).symm⟩
  have hpath := hr.path
  rw [hys, List.append_assoc, List.singleton_append, path_append_cons, path_cons_cons] at hpath
  obtain ⟨hold, ⟨hnext, hprev⟩, -⟩ := hpath
  have hnodup := hr.nodup
  rw [hys, List.nodup_append] at hnodup
  rw [hprev]
  exact ⟨ys, hys, fun hp => hnodup.2.2 p hp p (List.mem_singleton_self p) rfl, hold, hnext⟩

theorem Ring.next_head (hr : m.Ring h (a :: xs)) : m.next h = a ∧ m.prev a = h :=
  (path_cons_cons.1 hr.path).1

theorem Ring.next_eq_self (hr : m.Ring h xs) : m.next h = h ↔ xs = [] := by
  rcases xs with _ | ⟨a, xs⟩
  · exact iff_of_true (path_cons_cons.1 hr.path).1.1 rfl
  · have hne : a ≠ h := fun he => (List.nodup_cons.1 hr.nodup).1 (he ▸ List.mem_cons_self)
    rw [hr.next_head.1]
    simp [hne]

theorem ring_nil (hnext : m.next h = h) (hprev : m.prev h = h) : m.Ring h [] :=
  ⟨List.nodup_singleton h, path_cons_cons.2 ⟨⟨hnext, hprev⟩, .singleton h⟩⟩

end Links

end DList
