import Mathlib.Data.List.Chain
import Mathlib.Data.List.Nodup
import Mathlib.Logic.Function.Basic

/-!
# Queues with a pointer to the last node

A queue is a circle of nodes, each with a pointer to the next, and is known by its last node, whose
next is the first. A pass over the nodes of a queue that was given up needs to know the first, to
see where it ends; nodes that it has behind it may be written to.
-/

namespace TailQueue

variable {next next' : ℕ → Option ℕ} {tail first cur : Option ℕ} {a b q : ℕ} {l xs : List ℕ}

/-- Every node of the list points to the one after it. -/
def Path (next : ℕ → Option ℕ) (l : List ℕ) : Prop := l.IsChain fun a b => next a = some b

/-- The nodes of the queue, the first in front. -/
structure Queue (next : ℕ → Option ℕ) (tail : Option ℕ) (xs : List ℕ) : Prop where
  nodup : xs.Nodup
  last : xs.getLast? = tail
  path : Path next (xs ++ xs.head?.toList)

/-- The nodes a pass has still to come to, from `cur` on. -/
structure Rest (next : ℕ → Option ℕ) (first cur : Option ℕ) (xs : List ℕ) : Prop where
  nodup : xs.Nodup
  head : xs.head? = cur
  path : Path next (xs ++ first.toList)
  isFirst : xs ≠ [] → ∃ a, first = some a ∧ a ∉ xs.tail

theorem Path.congr : ∀ {l : List ℕ}, Path next l → (∀ a ∈ l.dropLast, next' a = next a) →
    Path next' l
  | [], _, _ => .nil
  | [_], _, _ => .singleton _
  | a :: b :: l, hp, h => by
    obtain ⟨hab, hrest⟩ := List.isChain_cons_cons.1 hp
    rw [List.dropLast_cons_cons, List.forall_mem_cons] at h
    exact List.isChain_cons_cons.2 ⟨h.1.trans hab, Path.congr hrest h.2⟩

theorem path_append_cons {as bs : List ℕ} :
    Path next (as ++ a :: bs) ↔ Path next (as ++ [a]) ∧ Path next (a :: bs) :=
  List.isChain_split

theorem path_cons_cons : Path next (a :: b :: l) ↔ next a = some b ∧ Path next (b :: l) :=
  List.isChain_cons_cons

theorem queue_nil : Queue next none [] := ⟨.nil, rfl, .nil⟩

theorem Queue.tail_eq_none (hq : Queue next tail xs) : tail = none ↔ xs = [] := by
  rw [← hq.last, List.getLast?_eq_none_iff]

/-- What is written to other nodes does not change a queue. -/
theorem Queue.congr (hq : Queue next tail xs) (h : ∀ a ∈ xs, next' a = next a) :
    Queue next' tail xs := by
  refine ⟨hq.nodup, hq.last, hq.path.congr fun a ha => h a ?_⟩
  rcases xs with _ | ⟨x, xs⟩
  · simp at ha
  · rwa [List.head?_cons, Option.toList_some, List.dropLast_concat] at ha

theorem Rest.congr (hr : Rest next first cur xs) (h : ∀ a ∈ xs, next' a = next a) :
    Rest next' first cur xs := by
  refine ⟨hr.nodup, hr.head, hr.path.congr fun a ha => h a ?_, hr.isFirst⟩
  rcases first with _ | f
  · rw [Option.toList_none, List.append_nil] at ha
    exact (List.dropLast_sublist _).subset ha
  · rwa [Option.toList_some, List.dropLast_concat] at ha

/-- The first node of a queue is put in. -/
theorem queue_singleton (h : next q = some q) : Queue next (some q) [q] :=
  ⟨List.nodup_singleton q, rfl, path_cons_cons.2 ⟨h, .singleton q⟩⟩

/-- A node is put behind the last. -/
theorem Queue.concat {t : ℕ} (hq : Queue next (some t) xs) (hnew : q ∉ xs)
    (hold : ∀ a ∈ xs, a ≠ t → next' a = next a) (ht : next' t = some q)
    (hback : next' q = next t) : Queue next' (some q) (xs ++ [q]) := by
  obtain ⟨hnodup, hlast, hpath⟩ := hq
  obtain ⟨ys, rfl⟩ : ∃ ys, xs = ys ++ [t] := List.getLast?_eq_some_iff.1 hlast
  have htys : t ∉ ys := fun hm =>
    (List.nodup_append.1 hnodup).2.2 t hm t (List.mem_singleton_self t) rfl
  obtain ⟨x, hx⟩ : ∃ x, (ys ++ [t]).head? = some x := by
    rcases ys with _ | ⟨y, ys⟩
    · exact ⟨t, rfl⟩
    · exact ⟨y, rfl⟩
  have hx' : (ys ++ [t] ++ [q]).head? = some x := by
    rw [List.head?_append, hx]
    rfl
  rw [hx, Option.toList_some, List.append_assoc, List.singleton_append, path_append_cons,
    path_cons_cons] at hpath
  obtain ⟨hin, hclose, -⟩ := hpath
  refine ⟨?_, List.getLast?_concat, ?_⟩
  · rw [← List.concat_eq_append]
    exact hnodup.concat hnew
  · have hsplit : ys ++ [t] ++ [q] ++ [x] = ys ++ t :: q :: [x] := by simp
    rw [hx', Option.toList_some, hsplit, path_append_cons, path_cons_cons, path_cons_cons]
    refine ⟨hin.congr fun a ha => ?_, ht, hback.trans hclose, .singleton x⟩
    rw [List.dropLast_concat] at ha
    exact hold a (List.mem_append_left _ ha) fun he => htys (he ▸ ha)

/-- A queue that is given up leaves all its nodes to the pass. -/
theorem Queue.rest {t : ℕ} (hq : Queue next (some t) xs) : Rest next (next t) (next t) xs := by
  obtain ⟨hnodup, hlast, hpath⟩ := hq
  obtain ⟨ys, hys⟩ : ∃ ys, xs = ys ++ [t] := List.getLast?_eq_some_iff.1 hlast
  obtain ⟨x, zs, hzs⟩ : ∃ x zs, xs = x :: zs := by
    rcases xs with _ | ⟨x, zs⟩
    · simp at hlast
    · exact ⟨x, zs, rfl⟩
  have hclose : next t = some x := by
    have hpath' := hpath
    rw [hzs, List.head?_cons, Option.toList_some, ← hzs, hys, List.append_assoc,
      List.singleton_append, path_append_cons, path_cons_cons] at hpath'
    exact hpath'.2.1
  subst hzs
  rw [hclose]
  exact ⟨hnodup, rfl, hpath, fun _ => ⟨x, rfl, (List.nodup_cons.1 hnodup).1⟩⟩

/-- The pass comes to the next node, which it reads off the one it is at. -/
theorem Rest.step (hr : Rest next first cur (a :: xs)) : cur = some a
    ∧ Rest next first (if next a = first then none else next a) xs := by
  obtain ⟨hnodup, hhead, hpath, hfirst⟩ := hr
  obtain ⟨f, rfl, hf⟩ := hfirst (List.cons_ne_nil _ _)
  refine ⟨hhead.symm, ?_⟩
  rcases xs with _ | ⟨b, xs⟩
  · have he : next a = some f := (path_cons_cons.1 hpath).1
    rw [if_pos he]
    exact ⟨.nil, rfl, .singleton f, fun h => absurd rfl h⟩
  · obtain ⟨hab, hpath⟩ := path_cons_cons.1 hpath
    have hbf : ¬next a = some f := by
      rw [hab, Option.some.injEq]
      exact fun he => hf (by simp [he])
    rw [if_neg hbf, hab]
    refine ⟨(List.nodup_cons.1 hnodup).2, rfl, hpath, fun _ => ⟨f, rfl, fun hm => hf ?_⟩⟩
    exact List.mem_of_mem_tail hm

theorem Rest.cur_eq_none (hr : Rest next first cur xs) : cur = none ↔ xs = [] := by
  rw [← hr.head, List.head?_eq_none_iff]

end TailQueue
