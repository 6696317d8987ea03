import TestLibuv.Proofs.HeapOrder
import TestLibuv.Proofs.TimerTable

/-!
# The heap holds the timers in use

`Sound`: the heap holds the active timers, by their timeouts and, where these are equal, in the
order they were started. Every call keeps that, comes to its end, and does to the table what `call`
says.
-/

namespace TestLibuv

namespace TimerLoop

/-- The heap holds the active timers, and each has a callback. -/
structure Sound (l : TimerLoop) : Prop where
  heap : ∃ S, l.heap.IsHeap l.timerKey S ∧ ∀ a, a ∈ S ↔ (l.timers a).active = true
  armed : l.Armed

variable {l : TimerLoop} {a cb timeout repeat_ : ℕ}

theorem Sound.stop (hs : l.Sound) (a : ℕ) :
    ∃ heap, l.stop a = pure ⟨l.handleStop a, heap⟩ ∧ Sound ⟨l.handleStop a, heap⟩ := by
  obtain ⟨S, hheap, hS⟩ := hs.heap
  rcases hact : (l.timers a).active with _ | _
  · have hsame : l.handleStop a = l.toTimerTable := by
      simp only [TimerTable.handleStop, hact, Bool.false_eq_true, if_false]
    rw [hsame]
    exact ⟨l.heap, by simp only [TimerLoop.stop, hact, Bool.false_eq_true, if_false], hs⟩
  · obtain ⟨heap, hrun, hheap'⟩ := hheap.remove l.timerLessThan_iff ((hS a).2 hact)
    refine ⟨heap, ?_, ⟨S.erase a, hheap'.congr fun b _ => ?_, fun b => ?_⟩, fun b hb => ?_⟩
    · have hmk : (ExceptT.mk (l.heap.remove l.timerLessThan a) : TimerM UvHeap) = pure heap := hrun
      simp only [TimerLoop.stop, hact, if_true, hmk, pure_bind]
    · simp only [TimerTable.timerKey, TimerTable.timers_handleStop]
      split_ifs <;> rfl
    · simp only [Finset.mem_erase, hS, TimerTable.timers_handleStop]
      split_ifs with hb <;> simp [hb]
    · rw [TimerTable.timers_handleStop] at hb ⊢
      split_ifs at hb ⊢
      · exact hs.armed b hb

theorem Sound.start (hs : l.Sound) (ha : a < timerLimit) (cb timeout repeat_ : ℕ) :
    ∃ heap, l.start a (some cb) timeout repeat_
        = pure (0, ⟨l.toTimerTable.start a (some cb) timeout repeat_, heap⟩)
      ∧ Sound ⟨l.toTimerTable.start a (some cb) timeout repeat_, heap⟩ := by
  obtain ⟨h₁, hstop, hs₁⟩ := hs.stop a
  obtain ⟨S, hheap, hS⟩ := hs₁.heap
  have haS : a ∉ S := by simp [hS]
  -- the timer is outside the heap while its key changes
  have hkeys : ∀ b ∈ S, ((l.handleStop a).setStart a cb timeout repeat_).timerKey b
      = (l.handleStop a).timerKey b := by
    intro b hb
    have hne : b ≠ a := fun he => haS (he ▸ hb)
    simp only [TimerTable.timerKey, TimerTable.timers_setStart, hne, if_false]
  have hcard : S.card ≤ timerLimit := by
    have hsub : S ⊆ Finset.range timerLimit := fun b hb =>
      Finset.mem_range.2 (hs₁.armed b ((hS b).1 hb)).2
    exact (Finset.card_le_card hsub).trans (Finset.card_range _).le
  have hn : h₁.nelts + 1 < 2 ^ 32 := by
    rw [hheap.nelts_eq]
    unfold timerLimit at hcard
    omega
  obtain ⟨h₂, hrun, hheap₂⟩ := (hheap.congr hkeys).insert (TimerTable.timerLessThan_iff _) haS hn
  refine ⟨h₂, ?_, ⟨insert a S, hheap₂.congr fun b _ => ?_, fun b => ?_⟩,
    hs.armed.call (c := .start a (some cb) timeout repeat_) ha⟩
  · have hmk : (ExceptT.mk (h₁.insert
        ((l.handleStop a).setStart a cb timeout repeat_).timerLessThan a) : TimerM UvHeap)
          = pure h₂ := hrun
    simp only [TimerLoop.start, hstop, pure_bind, hmk]
    rfl
  · simp only [TimerTable.timerKey, TimerTable.start, TimerTable.timers_handleStart]
    split_ifs <;> rfl
  · rw [Finset.mem_insert, hS, TimerTable.timers_start, TimerTable.timers_handleStop]
    split_ifs with hb <;> simp [hb]

theorem handleStop_handleStop (t : TimerTable) (a : ℕ) :
    (t.handleStop a).handleStop a = t.handleStop a := by
  have hoff : ((t.handleStop a).timers a).active = false := by simp
  rw [TimerTable.handleStop]
  simp only [hoff, Bool.false_eq_true, if_false]

theorem Sound.again (hs : l.Sound) (ha : a < timerLimit) :
    ∃ r heap, l.again a = pure (r, ⟨l.toTimerTable.again a, heap⟩)
      ∧ Sound ⟨l.toTimerTable.again a, heap⟩ := by
  rcases hcb : (l.timers a).timerCb with _ | cb
  · have hsame : l.toTimerTable.again a = l.toTimerTable := by
      simp only [TimerTable.again, hcb, TimerTable.start, ite_self]
    rw [hsame]
    exact ⟨uvEinval, l.heap, by simp only [TimerLoop.again, hcb], hs⟩
  by_cases hr : (l.timers a).repeat_ = 0
  · have hsame : l.toTimerTable.again a = l.toTimerTable := if_pos hr
    rw [hsame]
    exact ⟨0, l.heap, by simp only [TimerLoop.again, hcb, hr, if_true], hs⟩
  · obtain ⟨h₁, hstop, hs₁⟩ := hs.stop a
    obtain ⟨h₂, hstart, hs₂⟩ := hs₁.start ha cb (l.timers a).repeat_ (l.timers a).repeat_
    have htable : l.toTimerTable.again a
        = (l.handleStop a).start a (some cb) (l.timers a).repeat_ (l.timers a).repeat_ := by
      simp only [TimerTable.again, if_neg hr, hcb, TimerTable.start, handleStop_handleStop]
    refine ⟨0, h₂, ?_, htable ▸ hs₂⟩
    have hrep : ((l.handleStop a).timers a).repeat_ = (l.timers a).repeat_ := by simp
    simp only [TimerLoop.again, hcb, if_neg hr, hstop, pure_bind, hrep, hstart, htable]

/-- The heap does not see what does not change the timers in use or their keys. -/
theorem Sound.congr (hs : l.Sound) {t : TimerTable}
    (ht : ∀ a, (t.timers a).active = (l.timers a).active
      ∧ ((l.timers a).active = true → (t.timers a).timeout = (l.timers a).timeout
        ∧ (t.timers a).startId = (l.timers a).startId
        ∧ (t.timers a).timerCb = (l.timers a).timerCb)) :
    Sound { l with toTimerTable := t } := by
  obtain ⟨S, hheap, hS⟩ := hs.heap
  refine ⟨⟨S, hheap.congr fun a ha => ?_, fun a => by rw [hS, (ht a).1]⟩, fun a ha => ?_⟩
  · obtain ⟨h₁, h₂, -⟩ := (ht a).2 ((hS a).1 ha)
    rw [TimerTable.timerKey, h₁, h₂, TimerTable.timerKey]
  · rw [(ht a).1] at ha
    rw [((ht a).2 ha).2.2]
    exact hs.armed a ha

theorem Sound.close (hs : l.Sound) (a : ℕ) :
    ∃ heap, l.close a = pure ⟨l.toTimerTable.close a, heap⟩
      ∧ Sound ⟨l.toTimerTable.close a, heap⟩ := by
  by_cases hcl : (l.timers a).closing
  · have hsame : l.toTimerTable.close a = l.toTimerTable := if_pos hcl
    rw [hsame]
    exact ⟨l.heap, by simp only [TimerLoop.close, hcl, if_true], hs⟩
  · obtain ⟨heap, hstop, hs₁⟩ := hs.stop a
    have htable : l.toTimerTable.close a = ((l.handleStop a).handleClosing a).wantEndgame a :=
      if_neg hcl
    refine ⟨heap, ?_, hs₁.congr fun b => ?_⟩
    · simp only [TimerLoop.close, hcl, Bool.false_eq_true, if_false, hstop, pure_bind, htable]
    · simp only [htable, TimerTable.timers_wantEndgame, TimerTable.timers_handleClosing,
        TimerTable.timers_handleStop]
      split_ifs <;> simp

/-- A call comes to its end, does to the table what `call` says, and keeps the heap. -/
theorem Sound.call (hs : l.Sound) {c : TimerCall} (hc : l.Allowed c) :
    ∃ heap, l.call c = pure ⟨l.toTimerTable.call c, heap⟩
      ∧ Sound ⟨l.toTimerTable.call c, heap⟩ := by
  cases c with
  | init a =>
    refine ⟨l.heap, rfl, hs.congr fun b => ?_⟩
    have hoff := hc.2.1
    simp only [TimerTable.call, TimerTable.timerInit, TimerTable.timers_setTimer]
    split_ifs with hb
    · simp [hb, hoff]
    · simp
  | start a cb timeout repeat_ =>
    rcases cb with _ | cb
    · exact ⟨l.heap, rfl, hs⟩
    · have ha : a < timerLimit := hc.1
      obtain ⟨heap, hrun, hs'⟩ := hs.start ha cb timeout repeat_
      exact ⟨heap, by simp only [TimerLoop.call, hrun, pure_bind]; rfl, hs'⟩
  | stop a => exact hs.stop a
  | again a =>
    have ha : a < timerLimit := hc.1
    obtain ⟨r, heap, hrun, hs'⟩ := hs.again ha
    exact ⟨heap, by simp only [TimerLoop.call, hrun, pure_bind]; rfl, hs'⟩
  | setRepeat a repeat_ =>
    refine ⟨l.heap, rfl, hs.congr fun b => ?_⟩
    simp only [TimerTable.call, TimerTable.setRepeat, TimerTable.timers_setTimer]
    split_ifs with hb <;> simp [hb]
  | close a => exact hs.close a

theorem Sound.calls : ∀ {cs : List TimerCall} {l : TimerLoop}, l.Sound → l.AllAllowed cs →
    ∃ heap, l.calls cs = pure ⟨l.toTimerTable.calls cs, heap⟩
      ∧ Sound ⟨l.toTimerTable.calls cs, heap⟩
  | [], l, hs, _ => ⟨l.heap, rfl, hs⟩
  | c :: cs, l, hs, hcs => by
    obtain ⟨h₁, hrun, hs₁⟩ := hs.call hcs.1
    obtain ⟨heap, hrest, hs'⟩ := Sound.calls hs₁ hcs.2
    exact ⟨heap, by rw [TimerLoop.calls, hrun, pure_bind, hrest]; rfl, hs'⟩

theorem Sound.processEndgame (hs : l.Sound) :
    ∃ heap, l.processEndgame = pure (l.endgameHandles.head?, ⟨l.endgame, heap⟩)
      ∧ Sound ⟨l.endgame, heap⟩ := by
  rcases hq : l.endgameHandles with _ | ⟨a, rest⟩
  · have hsame : l.endgame = l.toTimerTable := by simp only [TimerTable.endgame, hq]
    rw [hsame]
    exact ⟨l.heap, by simp only [TimerLoop.processEndgame, hq, List.head?_nil], hs⟩
  · have hpop : Sound { l with toTimerTable := l.popEndgame a rest } := by
      refine hs.congr fun b => ?_
      rw [TimerTable.timers_popEndgame]
      split_ifs <;> simp
    obtain ⟨heap, hrun, hs₁⟩ := hpop.stop a
    have htable : l.endgame = ((l.popEndgame a rest).handleStop a).handleClose a := by
      simp only [TimerTable.endgame, hq]
    refine ⟨heap, ?_, ?_⟩
    · simp only [TimerLoop.processEndgame, hq, hrun, pure_bind, htable, List.head?_cons]
    · rw [htable]
      refine hs₁.congr fun b => ?_
      rw [TimerTable.timers_handleClose]
      split_ifs <;> simp

end TimerLoop

end TestLibuv
