import TestLibuv.HandleInl
import TestLibuv.Proofs.QueueRings

/-!
# The handles of a loop

What the flags, the counter, the handle queue and the list of endgames have to do with each other,
whatever kinds of handles there are, and how each function of `handle-inl.h` keeps it.
-/

namespace TestLibuv

open DList DList.Links

/-- The handle keeps its loop alive. -/
def HandleBase.counts (b : HandleBase) : Bool := b.closing || b.active && b.ref

namespace HandleTable

/-- The handles that are initialised and not closed, in the order they were initialised in. -/
structure Sound (t : HandleTable) (handles : List ℕ) : Prop where
  ring : t.links.Ring handleQueueHead handles
  mem : ∀ a, a ∈ handles ↔ (t.base a).ref = true ∧ (t.base a).closed = false
  queued : ∀ a, a ∈ t.endgameHandles ↔ (t.base a).endgameQueued = true
  nodup : t.endgameHandles.Nodup
  count : t.activeHandles = UInt32.ofNat (handles.countP fun a => (t.base a).counts)
  closed : ∀ a, (t.base a).closed = true → (t.base a).closing = true
  closing : ∀ a, (t.base a).closing = true → (t.base a).ref = true ∧ (t.base a).active = false

variable {t u : HandleTable} {handles rest : List ℕ} {a b : ℕ}

section Fields

variable (t) (a b)

@[simp] theorem base_setBase {x : HandleBase} :
    (t.setBase a x).base b = if b = a then x else t.base b := by
  simp [setBase, Function.update_apply]

@[simp] theorem base_handleInit : (t.handleInit a).base b = if b = a then
    { t.base b with
      ref := true, active := false, closing := false, closed := false, endgameQueued := false }
    else t.base b := by
  by_cases hb : b = a <;> simp [handleInit, setBase, hb]

@[simp] theorem base_handleStart : (t.handleStart a).base b
    = if b = a then { t.base b with active := true } else t.base b := by
  rcases hx : t.base a with ⟨r, act, _, _, _, _⟩
  cases r <;> cases act <;> by_cases hb : b = a <;>
    simp [handleStart, setBase, activeHandleAdd, hx, hb]

@[simp] theorem base_handleStop : (t.handleStop a).base b
    = if b = a then { t.base b with active := false } else t.base b := by
  rcases hx : t.base a with ⟨r, act, _, _, _, _⟩
  cases r <;> cases act <;> by_cases hb : b = a <;>
    simp [handleStop, setBase, activeHandleRm, hx, hb]

@[simp] theorem base_handleClosing : (t.handleClosing a).base b
    = if b = a then { t.base b with closing := true, active := false } else t.base b := by
  by_cases hb : b = a <;> simp only [handleClosing] <;> split_ifs <;>
    simp [setBase, activeHandleAdd, hb]

@[simp] theorem base_wantEndgame : (t.wantEndgame a).base b
    = if b = a then { t.base b with endgameQueued := true } else t.base b := by
  rcases hx : t.base a with ⟨_, _, _, _, queued, _⟩
  cases queued <;> by_cases hb : b = a <;> simp [wantEndgame, setBase, hx, hb]

@[simp] theorem base_handleClose : (t.handleClose a).base b
    = if b = a then { t.base b with closed := true } else t.base b := by
  by_cases hb : b = a <;> simp [handleClose, setBase, activeHandleRm, hb]

@[simp] theorem base_popEndgame : (t.popEndgame a rest).base b
    = if b = a then { t.base b with endgameQueued := false } else t.base b := by
  by_cases hb : b = a <;> simp [popEndgame, setBase, hb]

@[simp] theorem links_handleStart : (t.handleStart a).links = t.links := by
  unfold handleStart
  dsimp only
  split_ifs <;> rfl

@[simp] theorem links_handleStop : (t.handleStop a).links = t.links := by
  unfold handleStop
  dsimp only
  split_ifs <;> rfl

@[simp] theorem links_handleClosing : (t.handleClosing a).links = t.links := by
  unfold handleClosing
  dsimp only
  split_ifs <;> rfl

@[simp] theorem links_wantEndgame : (t.wantEndgame a).links = t.links := by
  unfold wantEndgame
  split_ifs <;> rfl

@[simp] theorem endgameHandles_handleStart :
    (t.handleStart a).endgameHandles = t.endgameHandles := by
  unfold handleStart
  dsimp only
  split_ifs <;> rfl

@[simp] theorem endgameHandles_handleStop : (t.handleStop a).endgameHandles = t.endgameHandles := by
  unfold handleStop
  dsimp only
  split_ifs <;> rfl

@[simp] theorem endgameHandles_handleClosing :
    (t.handleClosing a).endgameHandles = t.endgameHandles := by
  unfold handleClosing
  dsimp only
  split_ifs <;> rfl

theorem endgameHandles_wantEndgame : (t.wantEndgame a).endgameHandles
    = if (t.base a).endgameQueued then t.endgameHandles else a :: t.endgameHandles := by
  unfold wantEndgame
  split_ifs <;> rfl

theorem length_wantEndgame :
    (t.wantEndgame a).endgameHandles.length ≤ t.endgameHandles.length + 1 := by
  rw [endgameHandles_wantEndgame]
  split_ifs
  · omega
  · rw [List.length_cons]

@[simp] theorem activeHandles_wantEndgame : (t.wantEndgame a).activeHandles = t.activeHandles := by
  unfold wantEndgame
  split_ifs <;> rfl

theorem activeHandles_handleStart : (t.handleStart a).activeHandles
    = if !(t.base a).active && (t.base a).ref then t.activeHandles + 1 else t.activeHandles := by
  rcases hx : t.base a with ⟨r, act, _, _, _, _⟩
  cases r <;> cases act <;> simp [handleStart, setBase, activeHandleAdd, hx]

theorem activeHandles_handleStop : (t.handleStop a).activeHandles
    = if (t.base a).active && (t.base a).ref then t.activeHandles - 1 else t.activeHandles := by
  rcases hx : t.base a with ⟨r, act, _, _, _, _⟩
  cases r <;> cases act <;> simp [handleStop, setBase, activeHandleRm, hx]

theorem activeHandles_handleClosing : (t.handleClosing a).activeHandles
    = if (t.base a).active && (t.base a).ref then t.activeHandles else t.activeHandles + 1 := by
  rcases hx : t.base a with ⟨r, act, _, _, _, _⟩
  cases r <;> cases act <;> simp [handleClosing, setBase, activeHandleAdd, hx]

end Fields

section Counter

theorem countP_of_change {f g : ℕ → Bool} : ∀ {l : List ℕ}, l.Nodup → a ∈ l →
    (∀ b, b ≠ a → g b = f b) →
    l.countP g + (if f a then 1 else 0) = l.countP f + if g a then 1 else 0
  | b :: l, hnodup, ha, h => by
    obtain ⟨hb, hnodup⟩ := List.nodup_cons.1 hnodup
    rw [List.countP_cons, List.countP_cons]
    by_cases hba : b = a
    · subst hba
      have hrest : l.countP g = l.countP f := List.countP_congr fun x hx => by
        rw [h x fun he => hb (he ▸ hx)]
      omega
    · have ih := countP_of_change hnodup ((List.mem_cons.1 ha).resolve_left (Ne.symm hba)) h
      rw [h b hba]
      omega

theorem Sound.base_nodup (hs : t.Sound handles) : handles.Nodup :=
  (List.nodup_cons.1 hs.ring.nodup).2

/-- One handle counts now, or no longer does. -/
theorem Sound.count_change (hs : t.Sound handles) (ha : a ∈ handles)
    (hbase : ∀ b, b ≠ a → u.base b = t.base b)
    (hact : u.activeHandles + (if (t.base a).counts then 1 else 0)
      = t.activeHandles + if (u.base a).counts then 1 else 0) :
    u.activeHandles = UInt32.ofNat (handles.countP fun a => (u.base a).counts) := by
  have hcount := congrArg UInt32.ofNat <| countP_of_change (a := a) hs.base_nodup ha
    (f := fun a => (t.base a).counts) (g := fun a => (u.base a).counts)
    fun b hb => congrArg HandleBase.counts (hbase b hb)
  rw [UInt32.ofNat_add, UInt32.ofNat_add, ← hs.count] at hcount
  have hif : ∀ c : Bool, UInt32.ofNat (if c then 1 else 0) = if c then 1 else 0 := by
    intro c
    cases c <;> rfl
  rw [hif, hif, ← hact] at hcount
  exact (add_right_cancel hcount).symm

end Counter

section Keep

/-- One handle changed, and stays in the queue. -/
theorem Sound.change (hs : t.Sound handles) (ha : a ∈ handles)
    (hbase : ∀ b, b ≠ a → u.base b = t.base b) (hlinks : u.links = t.links)
    (hfix : (u.base a).ref = (t.base a).ref ∧ (u.base a).closed = (t.base a).closed)
    (hcl : (u.base a).closing = true → (u.base a).active = false)
    (hcd : (t.base a).closing = true → (u.base a).closing = true)
    (hends : u.endgameHandles.Nodup ∧ ∀ b, b ∈ u.endgameHandles ↔ (u.base b).endgameQueued = true)
    (hact : u.activeHandles + (if (t.base a).counts then 1 else 0)
      = t.activeHandles + if (u.base a).counts then 1 else 0) : u.Sound handles where
  ring := by rw [hlinks]; exact hs.ring
  mem b := by
    by_cases hb : b = a
    · rw [hb, hfix.1, hfix.2, hs.mem]
    · rw [hbase b hb, hs.mem]
  queued := hends.2
  nodup := hends.1
  count := hs.count_change ha hbase hact
  closed b := by
    by_cases hb : b = a
    · subst hb
      rw [hfix.2]
      exact fun h => hcd (hs.closed b h)
    · rw [hbase b hb]
      exact hs.closed b
  closing b := by
    by_cases hb : b = a
    · subst hb
      rw [hfix.1]
      exact fun h => ⟨((hs.mem b).1 ha).1, hcl h⟩
    · rw [hbase b hb]
      exact hs.closing b

theorem Sound.handleStart (hs : t.Sound handles) (ha : a ∈ handles)
    (hcl : (t.base a).closing = false) : (t.handleStart a).Sound handles := by
  refine hs.change ha (fun b hb => ?_) (t.links_handleStart a) ?_ ?_ ?_ ⟨?_, fun b => ?_⟩ ?_
  · simp [hb]
  · simp
  · simp [hcl]
  · simp
  · simpa using hs.nodup
  · rw [endgameHandles_handleStart, hs.queued, base_handleStart]
    split_ifs <;> rfl
  · rw [activeHandles_handleStart]
    rcases hx : t.base a with ⟨r, act, _, _, _, _⟩
    rw [hx] at hcl
    cases r <;> cases act <;> simp_all [HandleBase.counts]

theorem Sound.handleStop (hs : t.Sound handles) (ha : a ∈ handles)
    (hcl : (t.base a).closing = false) : (t.handleStop a).Sound handles := by
  refine hs.change ha (fun b hb => ?_) (t.links_handleStop a) ?_ ?_ ?_ ⟨?_, fun b => ?_⟩ ?_
  · simp [hb]
  · simp
  · simp
  · simp
  · simpa using hs.nodup
  · rw [endgameHandles_handleStop, hs.queued, base_handleStop]
    split_ifs <;> rfl
  · rw [activeHandles_handleStop]
    rcases hx : t.base a with ⟨r, act, _, _, _, _⟩
    rw [hx] at hcl
    cases r <;> cases act <;> simp_all [HandleBase.counts]

theorem Sound.handleClosing (hs : t.Sound handles) (ha : a ∈ handles)
    (hcl : (t.base a).closing = false) : (t.handleClosing a).Sound handles := by
  refine hs.change ha (fun b hb => ?_) (t.links_handleClosing a) ?_ ?_ ?_ ⟨?_, fun b => ?_⟩ ?_
  · simp [hb]
  · simp
  · simp
  · simp
  · simpa using hs.nodup
  · rw [endgameHandles_handleClosing, hs.queued, base_handleClosing]
    split_ifs <;> rfl
  · rw [activeHandles_handleClosing]
    rcases hx : t.base a with ⟨r, act, _, _, _, _⟩
    rw [hx] at hcl
    cases r <;> cases act <;> simp_all [HandleBase.counts]

theorem Sound.setCloseCb (hs : t.Sound handles) (ha : a ∈ handles)
    (hcl : (t.base a).closing = false) (cb : Option ℕ) :
    (t.setBase a { t.base a with closeCb := cb }).Sound handles := by
  refine hs.change ha (fun b hb => ?_) rfl ?_ ?_ ?_ ⟨hs.nodup, fun b => ?_⟩ ?_
  · simp [hb]
  · simp
  · simp [hcl]
  · simp
  · rw [base_setBase]
    split_ifs with hb
    · rw [hb]
      exact hs.queued a
    · exact hs.queued b
  · rw [base_setBase, if_pos rfl]
    rfl

theorem Sound.wantEndgame (hs : t.Sound handles) (ha : a ∈ handles) :
    (t.wantEndgame a).Sound handles := by
  have hcl := hs.closing a
  refine hs.change ha (fun b hb => ?_) (t.links_wantEndgame a) ?_ ?_ ?_ ⟨?_, fun b => ?_⟩ ?_
  · simp [hb]
  · simp
  · simpa using fun h => (hcl h).2
  · simp
  · rw [endgameHandles_wantEndgame]
    split_ifs with hq
    · exact hs.nodup
    · exact List.nodup_cons.2 ⟨fun h => hq ((hs.queued a).1 h), hs.nodup⟩
  · rw [endgameHandles_wantEndgame, base_wantEndgame]
    split_ifs with hq hb hb
    · simp [hb, hs.queued, hq]
    · exact hs.queued b
    · simp [hb]
    · simp [hb, hs.queued]
  · rw [activeHandles_wantEndgame, base_wantEndgame, if_pos rfl]
    rfl

theorem Sound.popEndgame (hs : t.Sound handles) (hq : t.endgameHandles = a :: rest)
    (ha : a ∈ handles) : (t.popEndgame a rest).Sound handles := by
  have hcl := hs.closing a
  obtain ⟨hna, hnodup⟩ := List.nodup_cons.1 (hq ▸ hs.nodup)
  refine hs.change ha (fun b hb => ?_) rfl ?_ ?_ ?_ ⟨hnodup, fun b => ?_⟩ ?_
  · simp [hb]
  · simp
  · simpa using fun h => (hcl h).2
  · simp
  · have hold := hs.queued b
    rw [hq, List.mem_cons] at hold
    rw [base_popEndgame]
    split_ifs with hb
    · subst hb
      exact iff_of_false hna (by simp)
    · rw [← hold]
      exact ⟨.inr, fun h => h.resolve_left hb⟩
  · rw [base_popEndgame, if_pos rfl]
    rfl

/-- A handle is initialised that is not in use. -/
theorem Sound.handleInit (hs : t.Sound handles) (ha : a ∉ handles) (hhead : a ≠ handleQueueHead)
    (hq : (t.base a).endgameQueued = false) : (t.handleInit a).Sound (handles ++ [a]) where
  ring := ring_queueInsertTail hs.ring (by simp [ha, hhead])
  mem b := by
    rw [base_handleInit, List.mem_append, List.mem_singleton]
    split_ifs with hb
    · simp [hb]
    · simp [hb, hs.mem]
  queued b := by
    have hold := hs.queued b
    rw [base_handleInit]
    split_ifs with hb
    · subst hb
      rw [hq] at hold
      exact hold.trans (by simp)
    · exact hold
  nodup := hs.nodup
  count := by
    have hnew : ((t.handleInit a).base a).counts = false := by simp [HandleBase.counts]
    have hrest : handles.countP (fun b => ((t.handleInit a).base b).counts)
        = handles.countP fun b => (t.base b).counts := List.countP_congr fun b hb => by
      have hba : b ≠ a := fun he => ha (he ▸ hb)
      simp [hba]
    rw [List.countP_append, List.countP_singleton, hnew, hrest]
    exact hs.count
  closed b := by
    rw [base_handleInit]
    split_ifs
    · simp
    · exact hs.closed b
  closing b := by
    rw [base_handleInit]
    split_ifs
    · simp
    · exact hs.closing b

/-- A closing handle is closed. -/
theorem Sound.handleClose (hs : t.Sound handles) (ha : a ∈ handles)
    (hcl : (t.base a).closing = true) : (t.handleClose a).Sound (handles.erase a) where
  ring := by
    obtain ⟨as, bs, rfl⟩ := List.append_of_mem ha
    have hna : a ∉ as := by
      have := hs.base_nodup
      rw [List.nodup_append] at this
      exact fun h => this.2.2 a h a List.mem_cons_self rfl
    rw [List.erase_append_right _ hna, List.erase_cons_head]
    exact ring_queueRemove hs.ring
  mem b := by
    rw [hs.base_nodup.mem_erase_iff, base_handleClose, hs.mem]
    split_ifs with hb <;> simp [hb]
  queued b := by
    have hends : (t.handleClose a).endgameHandles = t.endgameHandles := rfl
    rw [hends, hs.queued, base_handleClose]
    split_ifs <;> rfl
  nodup := hs.nodup
  count := by
    have hcounts : (t.base a).counts = true := by simp [HandleBase.counts, hcl]
    have hsame : (fun b => ((t.handleClose a).base b).counts) = fun b => (t.base b).counts := by
      funext b
      rw [base_handleClose]
      split_ifs <;> rfl
    have hcount := (List.perm_cons_erase ha).countP_eq fun b => (t.base b).counts
    rw [List.countP_cons, hcounts, if_pos rfl] at hcount
    have hact : (t.handleClose a).activeHandles = t.activeHandles - 1 := rfl
    rw [hsame, hact, hs.count, hcount, UInt32.ofNat_add]
    exact add_sub_cancel_right _ 1
  closed b := by
    rw [base_handleClose]
    split_ifs with hb
    · exact fun _ => hb ▸ hcl
    · exact hs.closed b
  closing b := by
    rw [base_handleClose]
    split_ifs <;> exact hs.closing b

theorem sound_init : init.Sound [] where
  ring := ring_queueInit
  mem a := by simp [init]
  queued a := by simp [init]
  nodup := .nil
  count := rfl
  closed a := by simp [init]
  closing a := by simp [init]

end Keep

/-- With fewer handles than the counter can count, the loop is alive exactly while a handle keeps it
so or waits for its endgame. -/
theorem Sound.alive (hs : t.Sound handles) (hlt : handles.length < 2 ^ 32) :
    t.loopAlive = true ↔ (∃ a ∈ handles, (t.base a).counts = true)
      ∨ ∃ a, (t.base a).endgameQueued = true := by
  have hpos : t.activeHandles > 0 ↔ 0 < handles.countP fun a => (t.base a).counts := by
    have hle := List.countP_le_length (p := fun a => (t.base a).counts) (l := handles)
    have hsize : handles.countP (fun a => (t.base a).counts) < UInt32.size := hle.trans_lt hlt
    rw [hs.count, gt_iff_lt, UInt32.lt_iff_toNat_lt, UInt32.toNat_ofNat_of_lt' hsize]
    rfl
  have hne : (∃ a, (t.base a).endgameQueued = true) ↔ t.endgameHandles ≠ [] := by
    rw [← List.isEmpty_eq_false_iff, List.isEmpty_eq_false_iff_exists_mem]
    exact exists_congr fun a => (hs.queued a).symm
  rw [loopAlive, Bool.or_eq_true, decide_eq_true_eq, hpos, List.countP_pos_iff, hne, bne_iff_ne]

end HandleTable

end TestLibuv
