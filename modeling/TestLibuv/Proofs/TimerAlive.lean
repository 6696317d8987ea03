import Mathlib.Data.Finset.Card
import TestLibuv.Proofs.TimerRuns

/-!
# How long timers keep a loop alive

`active_handles` counts the timers in use that keep the loop alive and the closing timers whose
callback is to come, and these wait in the list of endgames, each once. The loop is alive, as far as
timers go, exactly while there are any.
-/

namespace TestLibuv

namespace TimerTable

/-- The closing timers wait for their endgames, each once. -/
structure Waiting (t : TimerTable) : Prop where
  queued : ∀ a, a ∈ t.endgameHandles ↔ (t.timers a).endgameQueued = true
  nodup : t.endgameHandles.Nodup
  bound : ∀ a ∈ t.endgameHandles, a < timerLimit
  closing : ∀ a, (t.timers a).endgameQueued = true
    ↔ (t.timers a).closing = true ∧ (t.timers a).closed = false
  closed : ∀ a, (t.timers a).closed = true → (t.timers a).closing = true

/-- The counter is that of the timers in `S`, which are in use, and of those that wait. -/
structure Counted (t : TimerTable) (S : Finset ℕ) : Prop extends Waiting t where
  inUse : ∀ a, a ∈ S ↔ (t.timers a).active = true ∧ (t.timers a).ref = true
  limit : ∀ a ∈ S, a < timerLimit
  count : t.activeHandles.toNat = S.card + t.endgameHandles.length

variable {t u : TimerTable} {S : Finset ℕ} {a : ℕ} {c : TimerCall}

section Fields

theorem activeHandles_handleStop : (t.handleStop a).activeHandles
    = if (t.timers a).active = true ∧ (t.timers a).ref = true then t.activeHandles - 1
      else t.activeHandles := by
  rcases ha : (t.timers a).active with _ | _ <;> rcases hr : (t.timers a).ref with _ | _ <;>
    simp [TimerTable.handleStop, ha, hr, setTimer, activeHandleRm]

theorem activeHandles_handleStart : (t.handleStart a).activeHandles
    = if (t.timers a).active = false ∧ (t.timers a).ref = true then t.activeHandles + 1
      else t.activeHandles := by
  rcases ha : (t.timers a).active with _ | _ <;> rcases hr : (t.timers a).ref with _ | _ <;>
    simp [TimerTable.handleStart, ha, hr, setTimer, activeHandleAdd]

@[simp] theorem endgameHandles_handleStop : (t.handleStop a).endgameHandles = t.endgameHandles := by
  rcases ha : (t.timers a).active with _ | _ <;> rcases hr : (t.timers a).ref with _ | _ <;>
    simp [TimerTable.handleStop, ha, hr, setTimer, activeHandleRm]

@[simp] theorem endgameHandles_handleStart :
    (t.handleStart a).endgameHandles = t.endgameHandles := by
  rcases ha : (t.timers a).active with _ | _ <;> rcases hr : (t.timers a).ref with _ | _ <;>
    simp [TimerTable.handleStart, ha, hr, setTimer, activeHandleAdd]

end Fields

section Counter

theorem card_le_of_bound (h : ∀ a ∈ S, a < timerLimit) : S.card ≤ timerLimit := by
  have hsub : S ⊆ Finset.range timerLimit := fun b hb => Finset.mem_range.2 (h b hb)
  exact (Finset.card_le_card hsub).trans (Finset.card_range _).le

theorem Waiting.length_le (hw : t.Waiting) : t.endgameHandles.length ≤ timerLimit := by
  rw [← List.toFinset_card_of_nodup hw.nodup]
  exact card_le_of_bound fun b hb => hw.bound b (List.mem_toFinset.1 hb)

/-- The counter does not wrap. -/
theorem toNat_add_one {x : UInt32} {n m : ℕ} (hx : x.toNat = n + m) (hn : n ≤ timerLimit)
    (hm : m ≤ timerLimit) : (x + 1).toNat = n + m + 1 := by
  unfold timerLimit at hn hm
  rw [UInt32.toNat_add, UInt32.toNat_one]
  omega

theorem toNat_sub_one {x : UInt32} {n : ℕ} (hx : x.toNat = n + 1) : (x - 1).toNat = n := by
  rw [UInt32.toNat_sub_of_le, UInt32.toNat_one, hx]
  · omega
  · rw [UInt32.le_iff_toNat_le, UInt32.toNat_one, hx]
    omega

end Counter

section Keep

theorem Waiting.congr (hw : t.Waiting)
    (hflags : ∀ a, (u.timers a).endgameQueued = (t.timers a).endgameQueued
      ∧ (u.timers a).closing = (t.timers a).closing ∧ (u.timers a).closed = (t.timers a).closed)
    (hend : u.endgameHandles = t.endgameHandles) : u.Waiting where
  queued a := by rw [hend, (hflags a).1, hw.queued]
  nodup := by rw [hend]; exact hw.nodup
  bound := by rw [hend]; exact hw.bound
  closing a := by rw [(hflags a).1, (hflags a).2.1, (hflags a).2.2, hw.closing]
  closed a := by rw [(hflags a).2.1, (hflags a).2.2]; exact hw.closed a

/-- Neither flags nor counts changed. -/
theorem Counted.congr (hc : t.Counted S)
    (hflags : ∀ a, (u.timers a).active = (t.timers a).active ∧ (u.timers a).ref = (t.timers a).ref
      ∧ (u.timers a).endgameQueued = (t.timers a).endgameQueued
      ∧ (u.timers a).closing = (t.timers a).closing ∧ (u.timers a).closed = (t.timers a).closed)
    (hact : u.activeHandles = t.activeHandles) (hend : u.endgameHandles = t.endgameHandles) :
    u.Counted S where
  toWaiting := hc.toWaiting.congr (fun a => (hflags a).2.2) hend
  inUse a := by rw [(hflags a).1, (hflags a).2.1, hc.inUse]
  limit := hc.limit
  count := by rw [hact, hend, hc.count]

theorem Counted.handleStop (hc : t.Counted S) (a : ℕ) : (t.handleStop a).Counted (S.erase a) where
  toWaiting := by
    refine hc.toWaiting.congr (fun b => ?_) endgameHandles_handleStop
    rw [timers_handleStop]
    split_ifs <;> exact ⟨rfl, rfl, rfl⟩
  inUse b := by
    rw [Finset.mem_erase, hc.inUse, timers_handleStop]
    split_ifs with hb <;> simp [hb]
  limit b hb := hc.limit b (Finset.mem_of_mem_erase hb)
  count := by
    rw [activeHandles_handleStop, endgameHandles_handleStop]
    split_ifs with ha
    · have hS := Finset.card_erase_add_one ((hc.inUse a).2 ha)
      refine toNat_sub_one ?_
      rw [hc.count]
      omega
    · rw [Finset.erase_eq_of_notMem fun h => ha ((hc.inUse a).1 h), hc.count]

/-- A timer that is not in use is started. -/
theorem Counted.handleStart (hc : t.Counted S) (hoff : (t.timers a).active = false)
    (ha : a < timerLimit) : ∃ S', (t.handleStart a).Counted S' := by
  have haS : a ∉ S := fun h => by
    have := ((hc.inUse a).1 h).1
    rw [hoff] at this
    exact absurd this (by simp)
  have hw : (t.handleStart a).Waiting := by
    refine hc.toWaiting.congr (fun b => ?_) endgameHandles_handleStart
    rw [timers_handleStart]
    split_ifs <;> exact ⟨rfl, rfl, rfl⟩
  rcases hr : (t.timers a).ref with _ | _
  · refine ⟨S, hw, fun b => ?_, hc.limit, ?_⟩
    · rw [hc.inUse, timers_handleStart]
      split_ifs with hb
      · simp [hb, hoff, hr]
      · rfl
    · rw [activeHandles_handleStart, hr, if_neg (by simp), endgameHandles_handleStart, hc.count]
  · refine ⟨insert a S, hw, fun b => ?_, ?_, ?_⟩
    · rw [Finset.mem_insert, hc.inUse, timers_handleStart]
      split_ifs with hb
      · simp [hb, hr]
      · simp [hb]
    · intro b hb
      rcases Finset.mem_insert.1 hb with rfl | hb
      · exact ha
      · exact hc.limit b hb
    · rw [activeHandles_handleStart, if_pos ⟨hoff, hr⟩, endgameHandles_handleStart,
        toNat_add_one hc.count (card_le_of_bound hc.limit) hc.length_le,
        Finset.card_insert_of_notMem haS]
      omega

theorem Counted.start (hc : t.Counted S) (ha : a < timerLimit) (cb timeout repeat_ : ℕ) :
    ∃ S', (t.start a (some cb) timeout repeat_).Counted S' := by
  have hset : ((t.handleStop a).setStart a cb timeout repeat_).Counted (S.erase a) := by
    refine (hc.handleStop a).congr (fun b => ?_) rfl rfl
    rw [timers_setStart]
    split_ifs with hb
    · rw [hb]
      exact ⟨rfl, rfl, rfl, rfl, rfl⟩
    · exact ⟨rfl, rfl, rfl, rfl, rfl⟩
  exact hset.handleStart (by simp) ha

theorem Counted.close (hc : t.Counted S) (ha : a < timerLimit) : ∃ S', (t.close a).Counted S' := by
  by_cases hcl : (t.timers a).closing
  · rw [TimerTable.close, if_pos hcl]
    exact ⟨S, hc⟩
  have hstop := hc.handleStop a
  have hq : (t.timers a).endgameQueued = false := by
    rw [Bool.eq_false_iff, Ne, hc.closing]
    exact fun h => hcl h.1
  have hnot : a ∉ t.endgameHandles := fun h => by
    rw [hc.queued, hq] at h
    exact absurd h (by simp)
  have hcd : (t.timers a).closed = false := by
    rw [Bool.eq_false_iff]
    exact fun h => hcl (hc.closed a h)
  have htimers : ∀ b, (t.close a).timers b = if b = a then
      { t.timers b with active := false, closing := true, endgameQueued := true }
      else t.timers b := by
    intro b
    simp only [TimerTable.close, hcl, Bool.false_eq_true, if_false, timers_wantEndgame,
      timers_handleClosing, timers_handleStop]
    split_ifs <;> rfl
  have hoff : ((t.handleStop a).timers a).active = false := by simp
  have hact : (t.close a).activeHandles = (t.handleStop a).activeHandles + 1
      ∧ (t.close a).endgameHandles = a :: t.endgameHandles := by
    simp [TimerTable.close, hcl, handleClosing, wantEndgame, hq, setTimer, activeHandleAdd]
  refine ⟨S.erase a, ⟨?_, ?_, ?_, ?_, ?_⟩, ?_, hstop.limit, ?_⟩
  · intro b
    rw [hact.2, List.mem_cons, hc.queued, htimers]
    split_ifs with hb <;> simp [hb]
  · rw [hact.2]
    exact List.nodup_cons.2 ⟨hnot, hc.nodup⟩
  · rw [hact.2, List.forall_mem_cons]
    exact ⟨ha, hc.bound⟩
  · intro b
    rw [htimers]
    split_ifs with hb
    · simp [hb, hcd]
    · exact hc.closing b
  · intro b
    rw [htimers]
    split_ifs with hb
    · simp
    · exact hc.closed b
  · intro b
    rw [hstop.inUse, timers_handleStop, htimers]
    split_ifs <;> rfl
  · rw [hact.1, hact.2, toNat_add_one hstop.count (card_le_of_bound hstop.limit) hstop.length_le,
      List.length_cons, endgameHandles_handleStop]
    omega

theorem Counted.call (hc : t.Counted S) (hcall : t.Allowed c) : ∃ S', (t.call c).Counted S' := by
  cases c with
  | init a =>
    have hoff := hcall.2.1
    have hwait : (t.timers a).endgameQueued = false := by
      rw [Bool.eq_false_iff, Ne, hc.closing]
      rintro ⟨h₁, h₂⟩
      rw [hcall.2.2 h₁] at h₂
      exact absurd h₂ (by simp)
    refine ⟨S, ⟨fun b => ?_, hc.nodup, hc.bound, fun b => ?_, fun b => ?_⟩, fun b => ?_, hc.limit,
      hc.count⟩
    all_goals simp only [TimerTable.call, timerInit, timers_setTimer]
    · exact (hc.queued b).trans (by split_ifs with hb <;> simp [hb, hwait])
    · split_ifs with hb
      · simp
      · exact hc.closing b
    · split_ifs with hb
      · simp
      · exact hc.closed b
    · rw [hc.inUse]
      split_ifs with hb
      · simp [hb, hoff]
      · rfl
  | start a cb timeout repeat_ =>
    rcases cb with _ | cb
    · exact ⟨S, hc⟩
    · exact hc.start hcall.1 cb timeout repeat_
  | stop a => exact ⟨_, hc.handleStop a⟩
  | again a =>
    rw [TimerTable.call, again]
    split_ifs
    · exact ⟨S, hc⟩
    · rcases (t.timers a).timerCb with _ | cb
      · exact ⟨S, hc⟩
      · exact hc.start hcall.1 cb _ _
  | setRepeat a repeat_ =>
    refine ⟨S, hc.congr (fun b => ?_) rfl rfl⟩
    simp only [TimerTable.call, setRepeat, timers_setTimer]
    split_ifs with hb
    · rw [hb]
      exact ⟨rfl, rfl, rfl, rfl, rfl⟩
    · exact ⟨rfl, rfl, rfl, rfl, rfl⟩
  | close a => exact hc.close hcall.1

theorem Counted.endgame (hc : t.Counted S) : ∃ S', t.endgame.Counted S' := by
  rcases hq : t.endgameHandles with _ | ⟨a, rest⟩
  · rw [TimerTable.endgame, hq]
    exact ⟨S, hc⟩
  have hstop := hc.handleStop a
  obtain ⟨hna, hnodup⟩ := List.nodup_cons.1 (hq ▸ hc.nodup)
  obtain ⟨ha, hbound⟩ := List.forall_mem_cons.1 (hq ▸ hc.bound)
  have hwait := (hc.closing a).1 ((hc.queued a).1 (hq ▸ List.mem_cons_self))
  have htimers : ∀ b, t.endgame.timers b = if b = a then
      { t.timers b with active := false, closed := true, endgameQueued := false }
      else t.timers b := by
    intro b
    simp only [TimerTable.endgame, hq, timers_handleClose, timers_handleStop, timers_popEndgame]
    split_ifs <;> rfl
  have hend : t.endgame.endgameHandles = rest := by
    have hclose : t.endgame.endgameHandles
        = ((t.popEndgame a rest).handleStop a).endgameHandles := by
      simp only [TimerTable.endgame, hq]
      rfl
    rw [hclose, endgameHandles_handleStop]
    rfl
  have hact : t.endgame.activeHandles = (t.handleStop a).activeHandles - 1 := by
    have hclose : t.endgame.activeHandles
        = ((t.popEndgame a rest).handleStop a).activeHandles - 1 := by
      simp only [TimerTable.endgame, hq]
      rfl
    rw [hclose, activeHandles_handleStop, activeHandles_handleStop, timers_popEndgame, if_pos rfl]
    rfl
  refine ⟨S.erase a, ⟨fun b => ?_, hend ▸ hnodup, hend ▸ hbound, fun b => ?_, fun b => ?_⟩,
    fun b => ?_, hstop.limit, ?_⟩
  · have hold := hc.queued b
    rw [hq, List.mem_cons] at hold
    rw [hend, htimers]
    split_ifs with hb
    · simp [hb, hna]
    · simpa [hb] using hold
  · rw [htimers]
    split_ifs with hb
    · simp
    · exact hc.closing b
  · rw [htimers]
    split_ifs with hb
    · simp [hb, hwait.1]
    · exact hc.closed b
  · rw [hstop.inUse, timers_handleStop, htimers]
    split_ifs <;> rfl
  · have hcount := hstop.count
    rw [endgameHandles_handleStop, hq, List.length_cons, ← Nat.add_assoc] at hcount
    rw [hact, hend, toNat_sub_one hcount]

end Keep

/-- The loop is alive exactly while a timer keeps it so or waits to be closed. -/
theorem Counted.alive (hc : t.Counted S) : t.loopAlive = true
    ↔ ∃ a, (t.timers a).active = true ∧ (t.timers a).ref = true
      ∨ (t.timers a).closing = true ∧ (t.timers a).closed = false := by
  have hpos : t.activeHandles > 0 ↔ 0 < S.card + t.endgameHandles.length := by
    rw [← hc.count]
    exact UInt32.lt_iff_toNat_lt
  have hmem : ∀ a, (t.timers a).closing = true ∧ (t.timers a).closed = false
      ↔ a ∈ t.endgameHandles := fun a => by rw [hc.queued, hc.closing]
  simp only [loopAlive, Bool.or_eq_true, decide_eq_true_eq, hpos, bne_iff_ne, ne_eq]
  constructor
  · intro h
    by_cases hq : t.endgameHandles = []
    · have hS : 0 < S.card := by simpa [hq] using h
      obtain ⟨a, ha⟩ := Finset.card_pos.1 hS
      exact ⟨a, .inl ((hc.inUse a).1 ha)⟩
    · obtain ⟨a, ha⟩ := List.exists_mem_of_ne_nil _ hq
      exact ⟨a, .inr ((hmem a).2 ha)⟩
  · rintro ⟨a, ha | ha⟩
    · have := Finset.card_pos.2 ⟨a, (hc.inUse a).2 ha⟩
      exact .inl (by omega)
    · exact .inr (List.ne_nil_of_mem ((hmem a).1 ha))

end TimerTable

namespace TimerLoop

variable {timerCb : ℕ → ℕ → TimerLoop → List TimerCall} {l l' : TimerLoop} {n : ℕ}

theorem counted_calls : ∀ {cs : List TimerCall} {t : TimerTable} {S : Finset ℕ}, t.Counted S →
    t.AllAllowed cs → ∃ S', (t.calls cs).Counted S'
  | [], _, S, hc, _ => ⟨S, hc⟩
  | c :: cs, t, S, hc, hcs => by
    obtain ⟨S₁, hc₁⟩ := hc.call hcs.1
    obtain ⟨S', hc'⟩ := counted_calls hc₁ hcs.2
    exact ⟨S', hc'⟩

theorem counted_init (time : ℕ) : (TimerTable.init time).Counted ∅ := by
  refine ⟨⟨fun a => ?_, List.nodup_nil, ?_, fun a => ?_, fun a => ?_⟩, fun a => ?_, ?_, rfl⟩ <;>
    simp [TimerTable.init]

/-- What holds of the table in every state. -/
theorem counted_step (hcb : Obliging timerCb) {i : TimerStep} (hs : l.Sound)
    (hc : ∃ S, l.Counted S) (hstep : step timerCb l i = some l') : ∃ S, l'.Counted S := by
  obtain ⟨S, hc⟩ := hc
  cases i with
  | call c =>
    rw [step] at hstep
    split_ifs at hstep with hcall
    obtain ⟨heap, hrun, -⟩ := hs.call hcall
    rw [hrun, result_pure, Option.some.injEq] at hstep
    exact hstep ▸ hc.call hcall
  | updateTime time =>
    rw [step] at hstep
    split_ifs at hstep
    rw [Option.some.injEq] at hstep
    exact hstep ▸ ⟨S, hc.congr (fun a => by simp) rfl rfl⟩
  | runTimers n =>
    rcases hs.runTimers hcb (n := n) with hgo | ⟨fired, l'', hret, -⟩
    · rw [step, hgo] at hstep
      simp [result] at hstep
    · rw [step, hret, result_pure, Option.map_some, Option.some.injEq] at hstep
      exact hstep ▸ hs.runTimers_keeps (P := fun t => ∃ S, t.Counted S)
        (fun _ _ hcs hc => hc.elim fun _ hc => counted_calls hc hcs) hcb ⟨S, hc⟩ hret
  | processEndgame =>
    obtain ⟨heap, hrun, -⟩ := hs.processEndgame
    rw [step, hrun, result_pure, Option.map_some, Option.some.injEq] at hstep
    exact hstep ▸ hc.endgame

theorem counted_of_reachable (hcb : Obliging timerCb) {time : ℕ} {node : ℕ → HeapNode}
    (hr : Runs.Reachable (step timerCb) (init time node) l) : ∃ S, l.Counted S :=
  (hr.invariant (I := fun l => l.Sound ∧ ∃ S, l.Counted S)
    (fun _ _ _ h hstep => ⟨h.1.step hcb hstep, counted_step hcb h.1 h.2 hstep⟩)
    ⟨sound_init time node, ∅, counted_init time⟩).2

/-- In every state the loop is alive exactly while a timer keeps it so or waits to be closed, and
each that waits does so once. -/
theorem alive_of_reachable (hcb : Obliging timerCb) {time : ℕ} {node : ℕ → HeapNode}
    (hr : Runs.Reachable (step timerCb) (init time node) l) :
    (l.loopAlive = true ↔ ∃ a, (l.timers a).active = true ∧ (l.timers a).ref = true
        ∨ (l.timers a).closing = true ∧ (l.timers a).closed = false)
      ∧ l.endgameHandles.Nodup
      ∧ ∀ a, a ∈ l.endgameHandles ↔ (l.timers a).closing = true ∧ (l.timers a).closed = false := by
  obtain ⟨S, hc⟩ := counted_of_reachable hcb hr
  exact ⟨hc.alive, hc.nodup, fun a => (hc.queued a).trans (hc.closing a)⟩

theorem alive_of_twoTimers :
    (twoTimersLoop.loopAlive = true
        ↔ ∃ a, (twoTimersLoop.timers a).active = true ∧ (twoTimersLoop.timers a).ref = true
          ∨ (twoTimersLoop.timers a).closing = true ∧ (twoTimersLoop.timers a).closed = false)
      ∧ twoTimersLoop.endgameHandles.Nodup
      ∧ ∀ a, a ∈ twoTimersLoop.endgameHandles
        ↔ (twoTimersLoop.timers a).closing = true ∧ (twoTimersLoop.timers a).closed = false :=
  alive_of_reachable obliging_startsAgain reachable_twoTimers

end TimerLoop

end TestLibuv
