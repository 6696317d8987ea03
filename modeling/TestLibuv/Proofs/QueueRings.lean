import TestLibuv.Queue

/-!
# The macros of the queue on rings

What each macro does to the nodes behind a head, as a list.
-/

namespace TestLibuv

open DList DList.Links

variable {m : Links} {h q n c : ℕ} {xs ys : List ℕ}

theorem ring_queueInit : (queueInit m q).Ring q [] :=
  ring_nil (by simp [queueInit]) (by simp [queueInit])

theorem queueEmpty_iff (hr : m.Ring h xs) : queueEmpty m h = true ↔ xs = [] := by
  rw [queueEmpty, decide_eq_true_eq, eq_comm, hr.next_eq_self]

@[simp] theorem next_queueInsertTail : (queueInsertTail m h q).next c
    = if c = m.prev h then q else if c = q then h else m.next c := by
  simp [queueInsertTail]

@[simp] theorem prev_queueInsertTail : (queueInsertTail m h q).prev c
    = if c = h then q else if c = q then m.prev h else m.prev c := by
  simp [queueInsertTail]

@[simp] theorem next_queueRemove :
    (queueRemove m q).next c = if c = m.prev q then m.next q else m.next c := rfl

@[simp] theorem prev_queueRemove :
    (queueRemove m q).prev c = if c = m.next q then m.prev q else m.prev c := by
  simp [queueRemove]

/-- A node goes behind the last. -/
theorem ring_queueInsertTail (hr : m.Ring h xs) (hq : q ∉ h :: xs) :
    (queueInsertTail m h q).Ring h (xs ++ [q]) := by
  obtain ⟨ys, hys, hlast, hold, -⟩ := hr.exists_last
  have hne : ∀ a ∈ h :: xs, a ≠ q := fun a ha he => hq (he ▸ ha)
  have hp : m.prev h ≠ q := hne _ (hys ▸ List.mem_concat_self)
  have hnodup := List.nodup_cons.1 hr.nodup
  refine ⟨?_, ?_⟩
  · rw [← List.cons_append, ← List.concat_eq_append]
    exact hr.nodup.concat hq
  · have hsplit : h :: (xs ++ [q]) ++ [h] = ys ++ m.prev h :: q :: [h] := by
      rw [← List.cons_append, hys]
      simp
    rw [hsplit, path_append_cons, path_cons_cons, path_cons_cons]
    refine ⟨hold.congr (fun a ha => ?_) fun a ha => ?_, ⟨?_, ?_⟩, ⟨?_, ?_⟩, .singleton h⟩
    · rw [List.dropLast_concat] at ha
      have ha' : a ∈ h :: xs := hys ▸ List.mem_append_left _ ha
      have hap : a ≠ m.prev h := fun he => hlast (he ▸ ha)
      rw [next_queueInsertTail, if_neg hap, if_neg (hne a ha')]
    · rw [← hys, List.tail_cons] at ha
      have hah : a ≠ h := fun he => hnodup.1 (he ▸ ha)
      rw [prev_queueInsertTail, if_neg hah, if_neg (hne a (List.mem_cons_of_mem _ ha))]
    · rw [next_queueInsertTail, if_pos rfl]
    · rw [prev_queueInsertTail, if_neg (hne h List.mem_cons_self).symm, if_pos rfl]
    · rw [next_queueInsertTail, if_neg hp.symm, if_pos rfl]
    · rw [prev_queueInsertTail, if_pos rfl]

/-- The two nodes around one of a ring, and the paths to the first and from the second. -/
theorem Ring.exists_around (hr : m.Ring h (xs ++ q :: ys)) : ∃ as bs,
    h :: xs = as ++ [m.prev q] ∧ ys ++ [h] = m.next q :: bs
      ∧ m.Path (as ++ [m.prev q]) ∧ m.Path (m.next q :: bs) := by
  obtain ⟨as, p, has⟩ : ∃ as p, h :: xs = as ++ [p] :=
    ⟨_, _, (List.dropLast_concat_getLast (List.cons_ne_nil h xs)).symm⟩
  obtain ⟨b, bs, hbs⟩ : ∃ b bs, ys ++ [h] = b :: bs := by
    rcases ys with _ | ⟨y, ys⟩
    · exact ⟨h, [], rfl⟩
    · exact ⟨y, ys ++ [h], rfl⟩
  have hpath := hr.path
  have hsplit : h :: (xs ++ q :: ys) ++ [h] = as ++ p :: q :: b :: bs := by
    have : h :: (xs ++ q :: ys) ++ [h] = h :: xs ++ q :: (ys ++ [h]) := by simp
    rw [this, has, hbs]
    simp
  rw [hsplit, path_append_cons, path_cons_cons, path_cons_cons] at hpath
  obtain ⟨hl, ⟨-, hprev⟩, ⟨hnext, -⟩, hr⟩ := hpath
  rw [hprev, hnext]
  exact ⟨as, bs, has, hbs, hl, hr⟩

/-- A node is taken out. -/
theorem ring_queueRemove (hr : m.Ring h (xs ++ q :: ys)) :
    (queueRemove m q).Ring h (xs ++ ys) := by
  obtain ⟨as, bs, has, hbs, hl, hr'⟩ := Ring.exists_around hr
  have hnodup : (h :: xs ++ (q :: ys)).Nodup := hr.nodup
  obtain ⟨hn₁, hn₂, hdisj⟩ := List.nodup_append.1 hnodup
  rw [List.nodup_cons] at hn₂
  have hh : h ∉ ys := fun hy => hdisj h List.mem_cons_self h (List.mem_cons_of_mem _ hy) rfl
  have hn₃ : (ys ++ [h]).Nodup := by
    rw [← List.concat_eq_append]
    exact hn₂.2.concat hh
  rw [has, List.nodup_append] at hn₁
  rw [hbs, List.nodup_cons] at hn₃
  refine ⟨?_, ?_⟩
  · rw [← List.cons_append, List.nodup_append]
    exact ⟨(List.nodup_append.1 hnodup).1, hn₂.2,
      fun a ha b hb => hdisj a ha b (List.mem_cons_of_mem _ hb)⟩
  · have hsplit : h :: (xs ++ ys) ++ [h] = as ++ m.prev q :: m.next q :: bs := by
      have : h :: (xs ++ ys) ++ [h] = h :: xs ++ (ys ++ [h]) := by simp
      rw [this, has, hbs]
      simp
    have hp : m.prev q ∈ h :: xs := has ▸ List.mem_concat_self
    have hn : m.next q = h ∨ m.next q ∈ ys := by
      have : m.next q ∈ ys ++ [h] := hbs ▸ List.mem_cons_self
      rw [List.mem_append, List.mem_singleton] at this
      exact this.symm
    rw [hsplit, path_append_cons, path_cons_cons]
    refine ⟨hl.congr (fun a ha => ?_) fun a ha => ?_, ⟨?_, ?_⟩,
      hr'.congr (fun a ha => ?_) fun a ha => ?_⟩
    · rw [List.dropLast_concat] at ha
      exact if_neg fun he => hn₁.2.2 a ha _ (List.mem_singleton_self _) he
    · rw [← has, List.tail_cons] at ha
      have han : a ≠ m.next q := by
        rintro rfl
        rcases hn with he | hy
        · exact (List.nodup_cons.1 (List.nodup_append.1 hnodup).1).1 (he ▸ ha)
        · exact hdisj _ (List.mem_cons_of_mem _ ha) _ (List.mem_cons_of_mem _ hy) rfl
      rw [prev_queueRemove, if_neg han]
    · rw [next_queueRemove, if_pos rfl]
    · rw [prev_queueRemove, if_pos rfl]
    · rw [← hbs, List.dropLast_concat] at ha
      exact if_neg fun he => hdisj _ hp _ (List.mem_cons_of_mem _ ha) he.symm
    · rw [List.tail_cons] at ha
      have han : a ≠ m.next q := fun he => hn₃.1 (he ▸ ha)
      rw [prev_queueRemove, if_neg han]

theorem next_queueSplit (hqn : q ≠ n) (hback : m.prev q = h) : (queueSplit m h q n).next c
    = if c = h then h else if c = n then q else if c = m.prev h then n else m.next c := by
  simp [queueSplit, hqn, hback]

theorem prev_queueSplit (hqn : q ≠ n) (hback : m.prev q = h) : (queueSplit m h q n).prev c
    = if c = q then n else if c = h then h else if c = n then m.prev h else m.prev c := by
  simp [queueSplit, hqn, hback]

/-- The nodes behind `h` move behind `n`. -/
theorem ring_queueMove (hr : m.Ring h xs) (hn : n ∉ h :: xs) :
    (queueMove m h n).Ring n xs ∧ (queueMove m h n).Ring h [] := by
  have hne : ∀ a ∈ h :: xs, a ≠ n := fun a ha he => hn (he ▸ ha)
  rcases xs with _ | ⟨q, rest⟩
  · have he : queueMove m h n = queueInit m n := if_pos ((queueEmpty_iff hr).2 rfl)
    rw [he]
    refine ⟨ring_queueInit, hr.congr (fun a ha => ?_) fun a ha => ?_⟩ <;>
      simp [queueInit, hne a ha]
  obtain ⟨hfirst, hback⟩ := hr.next_head
  have he : queueMove m h n = queueSplit m h q n := by
    have hfalse : ¬queueEmpty m h = true := fun h' => by simpa using (queueEmpty_iff hr).1 h'
    rw [queueMove, if_neg hfalse, hfirst]
  obtain ⟨hh, hnodup⟩ := List.nodup_cons.1 hr.nodup
  have hah : ∀ a ∈ q :: rest, a ≠ h := fun a ha hah => hh (hah ▸ ha)
  have hqn : q ≠ n := hne q (by simp)
  obtain ⟨ys, hys, hlast, hold, -⟩ := hr.exists_last
  obtain ⟨zs, rfl⟩ : ∃ zs, ys = h :: zs := by
    rcases ys with _ | ⟨y, zs⟩
    · simp at hys
    · exact ⟨zs, by rw [(List.cons_eq_cons.1 hys).1]⟩
  have hzs : q :: rest = zs ++ [m.prev h] := (List.cons_eq_cons.1 hys).2
  have hp : m.prev h ∈ q :: rest := hzs ▸ List.mem_concat_self
  have hnext : ∀ c, (queueSplit m h q n).next c = if c = h then h else if c = n then q
      else if c = m.prev h then n else m.next c := fun c => next_queueSplit hqn hback
  have hprev : ∀ c, (queueSplit m h q n).prev c = if c = q then n else if c = h then h
      else if c = n then m.prev h else m.prev c := fun c => prev_queueSplit hqn hback
  rw [he]
  refine ⟨⟨List.nodup_cons.2 ⟨fun hm => hn (List.mem_cons_of_mem _ hm), hnodup⟩, ?_⟩, ?_⟩
  · have hbehind : m.Path (q :: rest) := by
      have := hr.path
      rw [List.cons_append, List.cons_append, path_cons_cons, ← List.cons_append] at this
      exact this.2.left_of_append
    have hin : (queueSplit m h q n).Path (q :: rest) := by
      refine hbehind.congr (fun a ha => ?_) fun a ha => ?_
      · have ha' : a ∈ q :: rest := (List.dropLast_sublist _).subset ha
        rw [hzs, List.dropLast_concat] at ha
        have hap : a ≠ m.prev h := fun he => hlast (List.mem_cons_of_mem _ (he ▸ ha))
        rw [hnext, if_neg (hah a ha'), if_neg (hne a (List.mem_cons_of_mem _ ha')), if_neg hap]
      · rw [List.tail_cons] at ha
        have ha' : a ∈ q :: rest := List.mem_cons_of_mem _ ha
        have haq : a ≠ q := fun he => (List.nodup_cons.1 hnodup).1 (he ▸ ha)
        rw [hprev, if_neg haq, if_neg (hah a ha'), if_neg (hne a (List.mem_cons_of_mem _ ha'))]
    have hsplit : n :: q :: rest ++ [n] = (n :: zs) ++ m.prev h :: [n] := by
      rw [hzs]
      simp
    rw [hsplit, path_append_cons, List.cons_append, ← hzs, path_cons_cons, path_cons_cons]
    refine ⟨⟨⟨?_, ?_⟩, hin⟩, ⟨?_, ?_⟩, .singleton n⟩
    · rw [hnext, if_neg (hne h List.mem_cons_self).symm, if_pos rfl]
    · rw [hprev, if_pos rfl]
    · rw [hnext, if_neg (hah _ hp), if_neg (hne _ (List.mem_cons_of_mem _ hp)), if_pos rfl]
    · rw [hprev, if_neg hqn.symm, if_neg (hne h List.mem_cons_self).symm, if_pos rfl]
  · refine ring_nil ?_ ?_
    · rw [hnext, if_pos rfl]
    · rw [hprev, if_neg (hah q List.mem_cons_self).symm, if_pos rfl]

end TestLibuv
