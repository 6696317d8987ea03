import Mathlib.Data.Finset.Basic
import Mathlib.Data.Finset.Insert
import TestLibuv.LoopHandles
import TestLibuv.Proofs.QueueRings

/-!
# The walk over the handles

`uv_walk` moves the handle queue behind a local head and takes one handle after the other back to
the queue of the loop before it calls the callback, so a callback may initialise and close handles,
those the walk has not come to among them. Two rings without a common node describe the memory at
any time: the handles to come, and those the loop has again.
-/

namespace TestLibuv

open DList DList.Links

/-- The nodes behind `h` and those behind `h'`, with no node in both. -/
structure Rings (m : Links) (h : ℕ) (xs : List ℕ) (h' : ℕ) (ys : List ℕ) : Prop where
  fst : m.Ring h xs
  snd : m.Ring h' ys
  disjoint : (h :: xs).Disjoint (h' :: ys)

namespace QueueCall

/-- The handles to come and those in the queue of the loop, after a call. -/
def apply (l : List ℕ × List ℕ) : QueueCall → List ℕ × List ℕ
  | handleInit q => (l.1, l.2 ++ [q])
  | handleClose q => (l.1.erase q, l.2.erase q)

/-- A handle is initialised that is in no queue, or closed that is in one. -/
def Allowed (h h' : ℕ) (l : List ℕ × List ℕ) : QueueCall → Prop
  | handleInit q => q ∉ h :: l.1 ∧ q ∉ h' :: l.2
  | handleClose q => q ∈ l.1 ∨ q ∈ l.2

/-- Every call is allowed where it is made. -/
def AllAllowed (h h' : ℕ) : List ℕ × List ℕ → List QueueCall → Prop
  | _, [] => True
  | l, c :: cs => Allowed h h' l c ∧ AllAllowed h h' (c.apply l) cs

/-- The handles of the loop after a call. -/
def after (S : Finset ℕ) : QueueCall → Finset ℕ
  | handleInit q => insert q S
  | handleClose q => S.erase q

end QueueCall

variable {m : Links} {h h' q : ℕ} {xs ys : List ℕ}

theorem Rings.symm (hr : Rings m h xs h' ys) : Rings m h' ys h xs :=
  ⟨hr.snd, hr.fst, hr.disjoint.symm⟩

theorem Rings.insertTail (hr : Rings m h xs h' ys) (hx : q ∉ h :: xs) (hy : q ∉ h' :: ys) :
    Rings (queueInsertTail m h' q) h xs h' (ys ++ [q]) := by
  obtain ⟨zs, hzs, -⟩ := hr.snd.exists_last
  have hp : m.prev h' ∈ h' :: ys := hzs ▸ List.mem_concat_self
  refine ⟨hr.fst.congr (fun a ha => ?_) fun a ha => ?_, ring_queueInsertTail hr.snd hy, ?_⟩
  · have hap : a ≠ m.prev h' := fun he => hr.disjoint ha (he ▸ hp)
    have haq : a ≠ q := fun he => hx (he ▸ ha)
    rw [next_queueInsertTail, if_neg hap, if_neg haq]
  · have hah : a ≠ h' := fun he => hr.disjoint ha (he ▸ List.mem_cons_self)
    have haq : a ≠ q := fun he => hx (he ▸ ha)
    rw [prev_queueInsertTail, if_neg hah, if_neg haq]
  · rw [← List.cons_append]
    intro a ha hb
    rcases List.mem_append.1 hb with hb | hb
    · exact hr.disjoint ha hb
    · exact hx (List.mem_singleton.1 hb ▸ ha)

theorem Rings.remove (hr : Rings m h xs h' ys) (hq : q ∈ xs) :
    Rings (queueRemove m q) h (xs.erase q) h' (ys.erase q) := by
  obtain ⟨as, bs, rfl⟩ := List.append_of_mem hq
  have hfst := hr.fst
  obtain ⟨cs, ds, hcs, hds, -⟩ := Ring.exists_around hfst
  have hp : m.prev q ∈ h :: (as ++ q :: bs) := by
    have : m.prev q ∈ h :: as := hcs ▸ List.mem_concat_self
    rcases List.mem_cons.1 this with he | ha
    · exact he ▸ List.mem_cons_self
    · exact List.mem_cons_of_mem _ (List.mem_append_left _ ha)
  have hn : m.next q ∈ h :: (as ++ q :: bs) := by
    have : m.next q ∈ bs ++ [h] := hds ▸ List.mem_cons_self
    rcases List.mem_append.1 this with hb | he
    · exact List.mem_cons_of_mem _ (List.mem_append_right _ (List.mem_cons_of_mem _ hb))
    · exact List.mem_singleton.1 he ▸ List.mem_cons_self
  have hqa : q ∉ as := by
    have := (List.nodup_cons.1 hfst.nodup).2
    rw [List.nodup_append] at this
    exact fun ha => this.2.2 q ha q List.mem_cons_self rfl
  have hqy : q ∉ ys := fun hy => hr.disjoint
    (List.mem_cons_of_mem _ (List.mem_append_right _ List.mem_cons_self))
    (List.mem_cons_of_mem _ hy)
  rw [List.erase_append_right _ hqa, List.erase_cons_head, List.erase_of_not_mem hqy]
  refine ⟨ring_queueRemove hfst, hr.snd.congr (fun a ha => ?_) fun a ha => ?_, ?_⟩
  · have hap : a ≠ m.prev q := fun he => hr.disjoint hp (he ▸ ha)
    rw [next_queueRemove, if_neg hap]
  · have han : a ≠ m.next q := fun he => hr.disjoint hn (he ▸ ha)
    rw [prev_queueRemove, if_neg han]
  · intro a ha hb
    refine hr.disjoint ?_ hb
    rcases List.mem_cons.1 ha with rfl | ha
    · exact List.mem_cons_self
    · rcases List.mem_append.1 ha with ha | ha
      · exact List.mem_cons_of_mem _ (List.mem_append_left _ ha)
      · exact List.mem_cons_of_mem _ (List.mem_append_right _ (List.mem_cons_of_mem _ ha))

theorem Rings.call {c : QueueCall} (hr : Rings m h xs h' ys) (hc : c.Allowed h h' (xs, ys)) :
    Rings (c.run h' m) h (c.apply (xs, ys)).1 h' (c.apply (xs, ys)).2 := by
  cases c with
  | handleInit q => exact hr.insertTail hc.1 hc.2
  | handleClose q =>
    rcases hc with hq | hq
    · exact hr.remove hq
    · exact (hr.symm.remove hq).symm

theorem Rings.calls : ∀ {cs : List QueueCall} {m : Links} {l : List ℕ × List ℕ},
    Rings m h l.1 h' l.2 → QueueCall.AllAllowed h h' l cs →
    Rings (cs.foldl (QueueCall.run h') m) h (cs.foldl QueueCall.apply l).1 h'
      (cs.foldl QueueCall.apply l).2
  | [], _, _, hr, _ => hr
  | c :: cs, m, l, hr, hcs => by
    have hr' := hr.call hcs.1
    exact Rings.calls (m := c.run h' m) (l := c.apply l) hr' hcs.2

/-- The calls leave no more handles to come. -/
theorem sublist_calls : ∀ (cs : List QueueCall) (l : List ℕ × List ℕ),
    (cs.foldl QueueCall.apply l).1.Sublist l.1
  | [], _ => .refl _
  | .handleInit _ :: cs, _ => sublist_calls cs _
  | .handleClose _ :: cs, _ => (sublist_calls cs _).trans List.erase_sublist

/-- A handle the walk was to come to and no longer is was closed. -/
theorem closed_of_calls {x : ℕ} : ∀ {cs : List QueueCall} {l : List ℕ × List ℕ}, x ∈ l.1 →
    x ∉ (cs.foldl QueueCall.apply l).1 → .handleClose x ∈ cs
  | [], _, hx, hnot => absurd hx hnot
  | .handleInit q :: _, l, hx, hnot => List.mem_cons_of_mem _
    (closed_of_calls (l := QueueCall.apply l (.handleInit q)) hx hnot)
  | .handleClose q :: _, l, hx, hnot => by
    by_cases hq : x = q
    · exact hq ▸ List.mem_cons_self
    · have hx' : x ∈ l.1.erase q := (List.mem_erase_of_ne hq).2 hx
      exact List.mem_cons_of_mem _
        (closed_of_calls (l := QueueCall.apply l (.handleClose q)) hx' hnot)

theorem Rings.mem_call {S : Finset ℕ} {l : List ℕ × List ℕ} (hr : Rings m h l.1 h' l.2)
    (hS : ∀ x, x ∈ S ↔ x ∈ l.1 ∨ x ∈ l.2) (c : QueueCall) (x : ℕ) :
    x ∈ c.after S ↔ x ∈ (c.apply l).1 ∨ x ∈ (c.apply l).2 := by
  cases c with
  | handleInit q =>
    simp only [QueueCall.after, QueueCall.apply, Finset.mem_insert, hS, List.mem_append,
      List.mem_singleton]
    tauto
  | handleClose q =>
    have h₁ := (List.nodup_cons.1 hr.fst.nodup).2
    have h₂ := (List.nodup_cons.1 hr.snd.nodup).2
    simp only [QueueCall.after, QueueCall.apply, Finset.mem_erase, hS, h₁.mem_erase_iff,
      h₂.mem_erase_iff]
    tauto

theorem Rings.mem_calls : ∀ {cs : List QueueCall} {m : Links} {l : List ℕ × List ℕ} {S : Finset ℕ},
    Rings m h l.1 h' l.2 → QueueCall.AllAllowed h h' l cs → (∀ x, x ∈ S ↔ x ∈ l.1 ∨ x ∈ l.2) →
    ∀ x, x ∈ cs.foldl QueueCall.after S
      ↔ x ∈ (cs.foldl QueueCall.apply l).1 ∨ x ∈ (cs.foldl QueueCall.apply l).2
  | [], _, _, _, _, _, hS => hS
  | c :: cs, m, l, S, hr, hcs, hS => by
    have hr' := hr.call hcs.1
    exact Rings.mem_calls (m := c.run h' m) (l := c.apply l) hr' hcs.2 (hr.mem_call hS c)

theorem Rings.ofMove (hr : m.Ring h xs) (hq : h' ∉ h :: xs) :
    Rings (queueMove m h h') h' xs h [] := by
  obtain ⟨hmoved, hempty⟩ := ring_queueMove hr hq
  refine ⟨hmoved, hempty, fun a ha hb => ?_⟩
  rw [List.mem_singleton] at hb
  subst hb
  rcases List.mem_cons.1 ha with rfl | ha
  · exact hq List.mem_cons_self
  · exact (List.nodup_cons.1 hr.nodup).1 ha

/-- The walk takes the first of the handles to come, and puts it back behind the others. -/
theorem Rings.take (hr : Rings m h (q :: xs) h' ys) : m.next h = q ∧ queueEmpty m h = false
    ∧ Rings (queueInsertTail (queueRemove m q) h' q) h xs h' (ys ++ [q]) := by
  have he : queueEmpty m h = false := by
    rw [Bool.eq_false_iff, Ne, queueEmpty_iff hr.fst]
    simp
  have hnodup := hr.fst.nodup
  simp only [List.nodup_cons, List.mem_cons, not_or] at hnodup
  have hout : q ∉ h' :: ys := fun hy => hr.disjoint (by simp) hy
  have hqy : q ∉ ys := fun hy => hout (List.mem_cons_of_mem _ hy)
  have hrem := hr.remove List.mem_cons_self
  rw [List.erase_cons_head, List.erase_of_not_mem hqy] at hrem
  exact ⟨hr.fst.next_head.1, he,
    hrem.insertTail (by simp [Ne.symm hnodup.1.1, hnodup.2.1]) hout⟩

section Walk

variable {internal : ℕ → Bool} {walkCb : ℕ → Links → List QueueCall} {handleQueue queue : ℕ}

/-- The callback initialises and closes handles where it may. It finds its handle behind the others
that the loop has again. -/
def WalkObliging (walkCb : ℕ → Links → List QueueCall) (handleQueue queue : ℕ) : Prop :=
  ∀ q m xs ys, Rings m queue xs handleQueue (ys ++ [q]) →
    QueueCall.AllAllowed queue handleQueue (xs, ys ++ [q]) (walkCb q m)

/-- The loop of the walk, from any state it comes to. -/
theorem walkLoop_spec (hcb : WalkObliging walkCb handleQueue queue) :
    ∀ {n : ℕ} {m : Links} {xs ys : List ℕ} {S : Finset ℕ}, Rings m queue xs handleQueue ys →
      (∀ x, x ∈ S ↔ x ∈ xs ∨ x ∈ ys) → xs.length ≤ n →
      ∃ visits m' ys', walkLoop internal walkCb handleQueue queue n m = some (visits, m')
        ∧ m'.Ring handleQueue ys' ∧ (visits.map Visit.handle).Sublist xs
        ∧ (∀ v ∈ visits, internal v.handle = false)
        ∧ (∀ x ∈ xs, x ∈ visits.map Visit.handle ∨ internal x = true
          ∨ ∃ v ∈ visits, .handleClose x ∈ v.calls ∧ [v.handle, x].Sublist xs)
        ∧ ∀ x, x ∈ ys' ↔ x ∈ (visits.flatMap Visit.calls).foldl QueueCall.after S
  | n, m, [], ys, S, hr, hS, _ => by
    have he := (queueEmpty_iff hr.fst).2 rfl
    refine ⟨[], m, ys, ?_, hr.snd, .refl _, by simp, by simp, fun x => by simp [hS]⟩
    cases n <;> simp [walkLoop, he]
  | 0, _, _ :: _, _, _, _, _, hn => by simp at hn
  | n + 1, m, q :: xs, ys, S, hr, hS, hn => by
    obtain ⟨hfirst, he, hr₁⟩ := hr.take
    have hS₁ : ∀ x, x ∈ S ↔ x ∈ xs ∨ x ∈ ys ++ [q] := by
      intro x
      simp only [hS, List.mem_cons, List.mem_append, List.not_mem_nil, or_false]
      tauto
    have hn' : xs.length ≤ n := by simpa using hn
    rcases hi : internal q with _ | _
    · obtain ⟨cs, hcs⟩ : ∃ cs, walkCb q (queueInsertTail (queueRemove m q) handleQueue q) = cs :=
        ⟨_, rfl⟩
      have hall := hcs ▸ hcb q _ _ _ hr₁
      have hlen := (sublist_calls cs (xs, ys ++ [q])).length_le.trans hn'
      obtain ⟨visits, m', ys', hrun, hring, hsub, hext, hcov, hmem⟩ :=
        walkLoop_spec hcb (hr₁.calls (l := (xs, ys ++ [q])) hall)
          (hr₁.mem_calls (l := (xs, ys ++ [q])) hall hS₁) hlen
      refine ⟨⟨q, cs⟩ :: visits, m', ys', ?_, hring, ?_, ?_, ?_, fun x => ?_⟩
      · simp only [walkLoop, he, Bool.false_eq_true, if_false, hfirst, hi, hcs, hrun,
          Option.map_some]
      · exact List.Sublist.cons_cons _ (hsub.trans (sublist_calls cs _))
      · exact List.forall_mem_cons.2 ⟨hi, hext⟩
      · intro x hx
        rcases List.mem_cons.1 hx with rfl | hx
        · exact .inl (by simp)
        by_cases hstill : x ∈ (cs.foldl QueueCall.apply (xs, ys ++ [q])).1
        · rcases hcov x hstill with hv | hint | ⟨v, hv, hc, hbefore⟩
          · exact .inl (List.mem_cons_of_mem _ hv)
          · exact .inr (.inl hint)
          · exact .inr (.inr ⟨v, List.mem_cons_of_mem _ hv, hc,
              (hbefore.trans (sublist_calls cs _)).cons q⟩)
        · exact .inr (.inr ⟨⟨q, cs⟩, List.mem_cons_self,
            closed_of_calls (l := (xs, ys ++ [q])) hx hstill,
            (List.singleton_sublist.2 hx).cons_cons q⟩)
      · rw [hmem, List.flatMap_cons, List.foldl_append]
    · obtain ⟨visits, m', ys', hrun, hring, hsub, hext, hcov, hmem⟩ :=
        walkLoop_spec hcb hr₁ hS₁ hn'
      refine ⟨visits, m', ys', ?_, hring, hsub.cons _, hext, ?_, hmem⟩
      · simp only [walkLoop, he, Bool.false_eq_true, if_false, hfirst, hi, if_true, hrun]
      · refine List.forall_mem_cons.2 ⟨.inr (.inl hi), fun x hx => ?_⟩
        refine (hcov x hx).imp_right (Or.imp_right ?_)
        rintro ⟨v, hv, hc, hbefore⟩
        exact ⟨v, hv, hc, hbefore.cons q⟩

/-- `uv_walk` comes to its end, whatever handles the callback initialises and closes. It calls the
callback for handles that were in the queue, in their order and each once, and leaves out no other
than internal ones and those closed in a callback for one before them; and every handle that is
initialised and not closed is in the queue of the loop again. -/
theorem uvWalk_spec (hcb : WalkObliging walkCb handleQueue queue) (hr : m.Ring handleQueue xs)
    (hq : queue ∉ handleQueue :: xs) {n : ℕ} (hn : xs.length ≤ n) :
    ∃ visits m' ys, uvWalk internal walkCb handleQueue queue n m = some (visits, m')
      ∧ m'.Ring handleQueue ys ∧ (visits.map Visit.handle).Sublist xs
      ∧ (∀ v ∈ visits, internal v.handle = false)
      ∧ (∀ x ∈ xs, x ∈ visits.map Visit.handle ∨ internal x = true
        ∨ ∃ v ∈ visits, .handleClose x ∈ v.calls ∧ [v.handle, x].Sublist xs)
      ∧ ∀ x, x ∈ ys ↔ x ∈ (visits.flatMap Visit.calls).foldl QueueCall.after xs.toFinset := by
  exact walkLoop_spec hcb (Rings.ofMove hr hq) (fun x => by simp) hn

/-- The loop of the walk, where the callback leaves the queue alone. -/
theorem walkLoop_quiet : ∀ {n : ℕ} {m : Links} {xs ys : List ℕ}, Rings m queue xs handleQueue ys →
    xs.length ≤ n → ∃ m', walkLoop internal (fun _ _ => []) handleQueue queue n m
        = some ((xs.filter fun q => !internal q).map (⟨·, []⟩), m')
      ∧ m'.Ring handleQueue (ys ++ xs)
  | n, m, [], ys, hr, _ => by
    have he := (queueEmpty_iff hr.fst).2 rfl
    refine ⟨m, ?_, by simpa using hr.snd⟩
    cases n <;> simp [walkLoop, he]
  | 0, _, _ :: _, _, _, hn => by simp at hn
  | n + 1, m, q :: xs, ys, hr, hn => by
    obtain ⟨hfirst, he, hr₁⟩ := hr.take
    obtain ⟨m', hrun, hring⟩ := walkLoop_quiet hr₁ (by simpa using hn : xs.length ≤ n)
    refine ⟨m', ?_, by simpa using hring⟩
    rcases hi : internal q with _ | _ <;>
      simp [walkLoop, he, hfirst, hi, hrun]

/-- With a callback that leaves the queue alone the walk comes to every handle but the internal
ones, in the order of the queue, and leaves the queue as it was. -/
theorem uvWalk_quiet (hr : m.Ring handleQueue xs) (hq : queue ∉ handleQueue :: xs) {n : ℕ}
    (hn : xs.length ≤ n) : ∃ m', uvWalk internal (fun _ _ => []) handleQueue queue n m
        = some ((xs.filter fun q => !internal q).map (⟨·, []⟩), m')
      ∧ m'.Ring handleQueue xs :=
  walkLoop_quiet (Rings.ofMove hr hq) hn

end Walk

/-- Handles that were initialised one after the other. -/
theorem ring_initialised (m : Links) : ∀ {xs : List ℕ}, (h :: xs).Nodup →
    (xs.foldl (fun m q => queueInsertTail m h q) (queueInit m h)).Ring h xs := by
  intro xs
  induction xs using List.reverseRecOn with
  | nil => exact fun _ => ring_queueInit
  | append_singleton xs q ih =>
    intro hnodup
    rw [← List.cons_append, List.nodup_append] at hnodup
    rw [List.foldl_concat]
    exact ring_queueInsertTail (ih hnodup.1) fun hq =>
      hnodup.2.2 q hq q (List.mem_singleton_self q) rfl

/-- The handles at 1 to 4, the first of them internal. -/
def fourHandles : Links :=
  [1, 2, 3, 4].foldl (fun m q => queueInsertTail m 0 q) (queueInit ⟨fun _ => 0, fun _ => 0⟩ 0)

/-- A callback that closes the handle the walk would come to next. -/
def closeNext (queue : ℕ) (_ : ℕ) (m : Links) : List QueueCall :=
  if queueEmpty m queue then [] else [.handleClose (m.next queue)]

theorem walkObliging_closeNext : WalkObliging (closeNext h) h' h := by
  intro q m xs ys hr
  rcases xs with _ | ⟨x, xs⟩
  · have he : queueEmpty m h = true := (queueEmpty_iff hr.fst).2 rfl
    simp [closeNext, he, QueueCall.AllAllowed]
  · obtain ⟨hfirst, he, -⟩ := hr.take
    simp [closeNext, he, hfirst, QueueCall.AllAllowed, QueueCall.Allowed]

theorem uvWalk_fourHandles :
    ∃ visits m' ys, uvWalk (fun q => q = 1) (closeNext 9) 0 9 4 fourHandles = some (visits, m')
      ∧ m'.Ring 0 ys ∧ (visits.map Visit.handle).Sublist [1, 2, 3, 4]
      ∧ (∀ v ∈ visits, decide (v.handle = 1) = false)
      ∧ (∀ x ∈ [1, 2, 3, 4], x ∈ visits.map Visit.handle ∨ decide (x = 1) = true
        ∨ ∃ v ∈ visits, .handleClose x ∈ v.calls ∧ [v.handle, x].Sublist [1, 2, 3, 4])
      ∧ ∀ x, x ∈ ys ↔ x ∈ (visits.flatMap Visit.calls).foldl QueueCall.after
        [1, 2, 3, 4].toFinset :=
  uvWalk_spec walkObliging_closeNext (ring_initialised _ (by simp)) (by simp) (by simp)

namespace UvLoop

@[simp] theorem handleQueue_closeWalkCB (s : UvLoop) (x : UvHandle) :
    (s.closeWalkCB x).handleQueue = s.handleQueue := by
  unfold closeWalkCB onHandleClose
  split
  · split_ifs
    · rfl
    · cases x <;> rfl
    · rfl
  · rfl

theorem foldl_walkOne (hs : List UvHandle) (s : UvLoop) :
    hs.foldl walkOne s = (hs.filter fun x => !x.internal).foldl closeWalkCB s := by
  induction hs generalizing s with
  | nil => rfl
  | cons x hs ih =>
    rcases hx : x.internal with _ | _ <;> simp [walkOne, hx, ih]

theorem handleQueue_foldl_closeWalkCB : ∀ (hs : List UvHandle) (s : UvLoop),
    (hs.foldl closeWalkCB s).handleQueue = s.handleQueue
  | [], _ => rfl
  | x :: hs, s => (handleQueue_foldl_closeWalkCB hs (s.closeWalkCB x)).trans
    (handleQueue_closeWalkCB s x)

/-- The walk of the looper in memory: `uv_walk` calls `CloseWalkCB` as `UvLoop.uvWalk` says, and
leaves the handle queue that it says. `name` is the handle at an address. -/
theorem uvWalk_of_ring {s : UvLoop} {addr : UvHandle → ℕ} {name : ℕ → UvHandle}
    {handleQueue queue n : ℕ} (hname : ∀ x ∈ s.handleQueue, name (addr x) = x)
    (hr : m.Ring handleQueue (s.handleQueue.map addr))
    (hq : queue ∉ handleQueue :: s.handleQueue.map addr) (hn : s.handleQueue.length ≤ n) :
    ∃ visits m', TestLibuv.uvWalk (fun q => (name q).internal) (fun _ _ => []) handleQueue queue n m
        = some (visits, m')
      ∧ visits.foldl (fun s v => s.closeWalkCB (name v.handle)) s = s.uvWalk
      ∧ m'.Ring handleQueue (s.uvWalk.handleQueue.map addr) := by
  have hn' : (s.handleQueue.map addr).length ≤ n := by simpa using hn
  obtain ⟨m', hrun, hring⟩ : ∃ m', TestLibuv.uvWalk (fun q => (name q).internal) _ _ _ n m
    = some (_, m') ∧ _ := uvWalk_quiet hr hq hn'
  have hwalk : s.uvWalk = (s.handleQueue.filter fun x => !x.internal).foldl closeWalkCB s :=
    foldl_walkOne s.handleQueue s
  have hfilter : (s.handleQueue.map addr).filter (fun q => !(name q).internal)
      = (s.handleQueue.filter fun x => !x.internal).map addr := by
    rw [List.filter_map]
    refine congrArg _ (List.filter_congr fun x hx => ?_)
    rw [Function.comp_apply, hname x hx]
  refine ⟨_, m', hrun, ?_, ?_⟩
  · rw [hfilter, hwalk, List.foldl_map, List.foldl_map]
    exact List.foldl_ext _ _ s fun t x hx => by
      rw [hname x (List.mem_filter.1 hx).1]
  · rwa [hwalk, handleQueue_foldl_closeWalkCB]

/-- Where the handles of a looper with nothing attached are. -/
def looperAddr : UvHandle → ℕ
  | .wqAsync => 1
  | .asyncLooperClose => 2
  | _ => 3

def looperName : ℕ → UvHandle
  | 1 => .wqAsync
  | 2 => .asyncLooperClose
  | _ => .asyncEventHandle

theorem uvWalk_of_initialised :
    ∃ visits m', TestLibuv.uvWalk (fun q => (looperName q).internal) (fun _ _ => []) 0 9 3
        ([1, 2, 3].foldl (fun m q => queueInsertTail m 0 q) (queueInit ⟨fun _ => 0, fun _ => 0⟩ 0))
        = some (visits, m')
      ∧ visits.foldl (fun s v => s.closeWalkCB (looperName v.handle)) init = init.uvWalk
      ∧ m'.Ring 0 (init.uvWalk.handleQueue.map looperAddr) :=
  uvWalk_of_ring (by simp [init, looperAddr, looperName]) (ring_initialised _ (by simp))
    (by simp [init, looperAddr]) (by simp [init])

end UvLoop

end TestLibuv
