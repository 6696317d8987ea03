import Mathlib.Data.List.Nodup
import TestLibuv.Lib.Runs
import TestLibuv.Proofs.TimerHeap

/-!
# Timers over whole runs

A program calls the timers of a loop, the clock goes on, and the loop fires timers and ends closed
ones, in any order. The heap holds the timers in use in every state. A round of `uv__run_timers` is
two calls, `uv_timer_stop` and `uv_timer_again` on the earliest timer, and those its callback makes:
so where no callback starts a timer without a timeout, no round makes a timer due, the loop comes to
its end, and the timers that were due have fired in their order, each once.
-/

namespace TestLibuv

/-- What happens to a loop. -/
inductive TimerStep
  | call (c : TimerCall)
  | updateTime (time : ℕ)
  | runTimers (n : ℕ)
  | processEndgame
  deriving DecidableEq, Repr

namespace TimerLoop

/-- What a computation that neither fails nor goes on forever returns. -/
def result {α : Type} (m : TimerM α) : Option α :=
  match m.run with
  | some (.ok x) => some x
  | _ => none

/-- The calls of a callback are among those it may make. -/
def Obliging (timerCb : ℕ → ℕ → TimerLoop → List TimerCall) : Prop :=
  ∀ cb a l, Sound l → l.AllAllowed (timerCb cb a l)

variable (timerCb : ℕ → ℕ → TimerLoop → List TimerCall)

/-- A step of a program that makes the calls it may, with a clock that does not go back. -/
def step (l : TimerLoop) : TimerStep → Option TimerLoop
  | .call c => if l.Allowed c then result (l.call c) else none
  | .updateTime time =>
    if l.time ≤ time ∧ time < 2 ^ 64 then
      some { l with toTimerTable := { l.toTimerTable with time } }
    else none
  | .runTimers n => (result (l.runTimers timerCb n)).map (·.2)
  | .processEndgame => (result l.processEndgame).map (·.2)

variable {timerCb} {l : TimerLoop} {a n : ℕ}

@[simp] theorem result_pure {α : Type} (x : α) : result (pure x : TimerM α) = some x := rfl

/-- The table after the round that fires `a`. -/
def afterRound (l : TimerLoop) (a : ℕ) (cs : List TimerCall) : TimerTable :=
  l.toTimerTable.calls (.stop a :: .again a :: cs)

/-- One round of `uv__run_timers`. -/
theorem Sound.round (hs : l.Sound) (hcb : Obliging timerCb) (hmin : l.heap.min = some a)
    (hact : (l.timers a).active = true) (hdue : (l.timers a).timeout ≤ l.time) :
    ∃ cs heap, Sound ⟨l.afterRound a cs, heap⟩ ∧ l.AllAllowed (.stop a :: .again a :: cs)
      ∧ (∃ cb l', cs = timerCb cb a l')
      ∧ ∀ n, l.runTimers timerCb (n + 1) = (do
          let (fired, l') ← runTimers timerCb n ⟨l.afterRound a cs, heap⟩
          pure (⟨a, (l.timers a).timeout, (l.timers a).startId, cs⟩ :: fired, l')) := by
  obtain ⟨hsome, ha⟩ := hs.armed a hact
  obtain ⟨cb, hcb'⟩ := Option.isSome_iff_exists.1 hsome
  obtain ⟨h₁, hstop, hs₁⟩ := hs.stop a
  obtain ⟨r, h₂, hagain, hs₂⟩ := hs₁.again ha
  have hkeep : (((l.handleStop a).again a).timers a).timerCb = some cb := by
    have hoff : ((l.handleStop a).timers a).timerCb = some cb := by simp [hcb']
    simp only [TimerTable.again, hoff]
    split_ifs
    · exact hoff
    · simp
  obtain ⟨heap, hcalls, hs₃⟩ := hs₂.calls (hcb cb a _ hs₂)
  refine ⟨_, heap, hs₃, ⟨⟨ha, trivial⟩, ⟨ha, trivial⟩, hcb cb a _ hs₂⟩, ⟨cb, _, rfl⟩, fun n => ?_⟩
  rw [runTimers]
  simp only [hmin, if_neg (not_lt.2 hdue), hstop, hagain, pure_bind, hkeep, hcalls]
  rfl

theorem Sound.min_eq (hs : l.Sound) :
    l.heap.min = none ∧ (∀ b, (l.timers b).active = false)
      ∨ ∃ a, l.heap.min = some a ∧ (l.timers a).active = true
        ∧ ∀ b, (l.timers b).active = true → l.timerKey a ≤ l.timerKey b := by
  obtain ⟨S, hheap, hS⟩ := hs.heap
  rcases hheap.min_eq with ⟨hmin, rfl⟩ | ⟨a, ha, hmin, hle⟩
  · exact .inl ⟨hmin, fun b => by simpa using hS b⟩
  · exact .inr ⟨a, hmin, (hS a).1 ha, fun b hb => hle b ((hS b).2 hb)⟩

/-- The earliest timer is not due: none is. -/
theorem not_due_of_min (hmin : ∀ b, (l.timers b).active = true → l.timerKey a ≤ l.timerKey b)
    (hlt : l.time < (l.timers a).timeout) (b : ℕ) : ¬l.Due b := by
  intro hd
  have hle : (l.timers a).timeout ≤ (l.timers b).timeout := by
    rcases Prod.Lex.toLex_le_toLex.1 (hmin b hd.1) with hlt' | ⟨heq, -⟩
    · exact hlt'.le
    · exact heq.le
  have := hd.2
  omega

/-- A round is the last, or fires the earliest timer. -/
theorem Sound.cases (hs : l.Sound) (hcb : Obliging timerCb) :
    (∀ b, ¬l.Due b) ∧ (∀ n, l.runTimers timerCb (n + 1) = pure ([], l))
      ∨ ∃ a cs heap, l.Due a ∧ (∀ b, (l.timers b).active = true → l.timerKey a ≤ l.timerKey b)
        ∧ Sound ⟨l.afterRound a cs, heap⟩ ∧ l.AllAllowed (.stop a :: .again a :: cs)
        ∧ (∃ cb l', cs = timerCb cb a l')
        ∧ ∀ n, l.runTimers timerCb (n + 1) = (do
          let (fired, l') ← runTimers timerCb n ⟨l.afterRound a cs, heap⟩
          pure (⟨a, (l.timers a).timeout, (l.timers a).startId, cs⟩ :: fired, l')) := by
  rcases hs.min_eq with ⟨hmin, hoff⟩ | ⟨a, hmin, hact, hle⟩
  · refine .inl ⟨fun b hd => ?_, fun n => by simp only [runTimers, hmin]⟩
    rw [TimerTable.Due, hoff b] at hd
    exact absurd hd.1 (by simp)
  by_cases hlt : l.time < (l.timers a).timeout
  · exact .inl ⟨not_due_of_min hle hlt, fun n => by simp only [runTimers, hmin, if_pos hlt]⟩
  · obtain ⟨cs, heap, hs', hcs, hcb', hrun⟩ := hs.round hcb hmin hact (not_lt.1 hlt)
    exact .inr ⟨a, cs, heap, ⟨hact, not_lt.1 hlt⟩, hle, hs', hcs, hcb', hrun⟩

/-- `uv__run_timers` reads through no null pointer; where it returns, no timer is due. -/
theorem Sound.runTimers (hcb : Obliging timerCb) : ∀ {n : ℕ} {l : TimerLoop}, l.Sound →
    l.runTimers timerCb n = .mk none
      ∨ ∃ fired l', l.runTimers timerCb n = pure (fired, l') ∧ l'.Sound ∧ ∀ a, ¬l'.Due a
  | 0, _, _ => .inl rfl
  | n + 1, l, hs => by
    rcases hs.cases hcb with ⟨hnone, hrun⟩ | ⟨a, cs, heap, -, -, hs', -, -, hrun⟩
    · exact .inr ⟨[], l, hrun n, hs, hnone⟩
    · rw [hrun n]
      rcases Sound.runTimers hcb (n := n) hs' with hgo | ⟨fired, l', hret, hs'', hnone⟩
      · rw [hgo]
        exact .inl rfl
      · rw [hret]
        exact .inr ⟨_, l', rfl, hs'', hnone⟩

/-- What the calls a program may make keep of the table, `uv__run_timers` keeps. -/
theorem Sound.runTimers_keeps {P : TimerTable → Prop}
    (hP : ∀ t cs, TimerTable.AllAllowed t cs → P t → P (t.calls cs)) (hcb : Obliging timerCb) :
    ∀ {n : ℕ} {l l' : TimerLoop} {fired : List Firing}, l.Sound → P l.toTimerTable →
      l.runTimers timerCb n = pure (fired, l') → P l'.toTimerTable
  | 0, _, _, _, _, _, hret => by
    have := congrArg result hret
    simp [TimerLoop.runTimers, result] at this
  | n + 1, l, l', fired, hs, hl, hret => by
    rcases hs.cases hcb with ⟨-, hrun⟩ | ⟨a, cs, heap, -, -, hs', hcs, -, hrun⟩
    · rw [hrun n] at hret
      have := congrArg result hret
      simp only [result_pure, Option.some.injEq, Prod.mk.injEq] at this
      exact this.2 ▸ hl
    · rcases hs'.runTimers hcb (n := n) with hgo | ⟨fired', l'', hret', -⟩
      · have := congrArg result hret
        rw [hrun n, hgo] at this
        simp [result] at this
      · have := congrArg result hret
        rw [hrun n, hret', pure_bind, result_pure, result_pure, Option.some.injEq,
          Prod.mk.injEq] at this
        exact this.2 ▸ hs'.runTimers_keeps hP hcb (hP _ _ hcs hl) hret'

theorem sound_init (time : ℕ) (node : ℕ → HeapNode) : (init time node).Sound :=
  ⟨⟨∅, UvHeap.isHeap_init node, fun a => by simp [init, TimerTable.init]⟩,
    fun a ha => by simp [init, TimerTable.init] at ha⟩

theorem Sound.step (hcb : Obliging timerCb) {i : TimerStep} {l' : TimerLoop} (hs : l.Sound)
    (hstep : step timerCb l i = some l') : l'.Sound := by
  cases i with
  | call c =>
    rw [TimerLoop.step] at hstep
    split_ifs at hstep with hc
    obtain ⟨heap, hrun, hs'⟩ := hs.call hc
    rw [hrun, result_pure, Option.some.injEq] at hstep
    exact hstep ▸ hs'
  | updateTime time =>
    rw [TimerLoop.step] at hstep
    split_ifs at hstep
    rw [Option.some.injEq] at hstep
    exact hstep ▸ hs.congr fun a => by simp
  | runTimers n =>
    rcases hs.runTimers hcb (n := n) with hgo | ⟨fired, l'', hret, hs', -⟩
    · rw [TimerLoop.step, hgo] at hstep
      simp [result] at hstep
    · rw [TimerLoop.step, hret, result_pure, Option.map_some, Option.some.injEq] at hstep
      exact hstep ▸ hs'
  | processEndgame =>
    obtain ⟨heap, hrun, hs'⟩ := hs.processEndgame
    rw [TimerLoop.step, hrun, result_pure, Option.map_some, Option.some.injEq] at hstep
    exact hstep ▸ hs'

theorem sound_of_reachable (hcb : Obliging timerCb) {time : ℕ} {node : ℕ → HeapNode}
    (hr : Runs.Reachable (step timerCb) (init time node) l) : l.Sound :=
  hr.invariant (fun _ _ _ hs hstep => hs.step hcb hstep) (sound_init time node)

/-- The timers that are due, with whatever else is in `D`, fire in their order, each once; one that
does not fire was touched by a callback. -/
theorem Sound.fires (hcb : Obliging timerCb) (hlater : ∀ cb a l, ∀ c ∈ timerCb cb a l, c.Later) :
    ∀ {k : ℕ} {l : TimerLoop} {D : Finset ℕ}, l.Sound → l.time < 2 ^ 64 - 1 →
      (∀ a, l.Due a → a ∈ D) → D.card < k →
      ∃ fired l', (∀ n, fired.length < n → l.runTimers timerCb n = pure (fired, l')) ∧ l'.Sound
        ∧ (∀ a, ¬l'.Due a) ∧ (fired.map Firing.handle).Nodup
        ∧ (∀ f ∈ fired, l.Due f.handle ∧ toLex (f.timeout, f.startId) = l.timerKey f.handle)
        ∧ fired.Pairwise (fun f g => l.timerKey f.handle ≤ l.timerKey g.handle)
        ∧ ∀ a, l.Due a → a ∈ fired.map Firing.handle
          ∨ ∃ f ∈ fired, ∃ c ∈ f.calls, c.Touches a := by
  intro k
  induction k with
  | zero => exact fun _ _ _ hk => absurd hk (Nat.not_lt_zero _)
  | succ k ih =>
    intro l D hs htime hD hk
    rcases hs.cases hcb with ⟨hnone, hrun⟩ | ⟨a, cs, heap, hdue, hle, hs', -, ⟨cb, l₁, rfl⟩, hrun⟩
    · refine ⟨[], l, fun n hn => ?_, hs, hnone, List.nodup_nil, by simp, .nil,
        fun a ha => absurd ha (hnone a)⟩
      obtain ⟨m, rfl⟩ : ∃ m, n = m + 1 := ⟨n - 1, by simp at hn; omega⟩
      exact hrun m
    have hcs := hlater cb a l₁
    have hstop : ¬(l.toTimerTable.call (.stop a)).Due a := by
      simp [TimerTable.Due, TimerTable.call]
    -- what is due after the round was due before it, and is not `a`
    have hafter : ∀ b, (l.afterRound a (timerCb cb a l₁)).Due b → b ≠ a ∧ l.Due b
        ∧ (l.afterRound a (timerCb cb a l₁)).timerKey b = l.timerKey b := by
      intro b hb
      have hrest : ∀ c ∈ .again a :: timerCb cb a l₁, c.Later :=
        List.forall_mem_cons.2 ⟨trivial, hcs⟩
      obtain ⟨hb', hkey⟩ := TimerTable.due_calls (t := l.toTimerTable.call (.stop a))
        (by rwa [TimerTable.time_call]) hrest hb
      obtain ⟨hb'', hkey'⟩ := TimerTable.due_call htime (c := .stop a) trivial hb'
      exact ⟨fun he => hstop (he ▸ hb'), hb'', hkey.trans hkey'⟩
    have hcard : (D.erase a).card < k := by
      have := Finset.card_erase_add_one (hD a hdue)
      omega
    have htime' : (⟨l.afterRound a (timerCb cb a l₁), heap⟩ : TimerLoop).time < 2 ^ 64 - 1 := by
      rw [afterRound, TimerTable.time_calls]
      exact htime
    obtain ⟨fired, l', hret, hsound, hnone, hnodup, hfired, hsorted, hall⟩ := ih hs' htime'
      (fun b hb => Finset.mem_erase.2 ⟨(hafter b hb).1, hD b (hafter b hb).2.1⟩) hcard
    refine ⟨⟨a, (l.timers a).timeout, (l.timers a).startId, timerCb cb a l₁⟩ :: fired, l',
      fun n hn => ?_, hsound, hnone, ?_, ?_, ?_, fun b hb => ?_⟩
    · rw [List.length_cons] at hn
      obtain ⟨m, rfl⟩ : ∃ m, n = m + 1 := ⟨n - 1, by omega⟩
      rw [hrun m, hret m (by omega)]
      rfl
    · rw [List.map_cons, List.nodup_cons]
      refine ⟨fun ha => ?_, hnodup⟩
      obtain ⟨f, hf, hfa⟩ := List.mem_map.1 ha
      exact (hafter _ (hfired f hf).1).1 hfa
    · rw [List.forall_mem_cons]
      refine ⟨⟨hdue, rfl⟩, fun f hf => ?_⟩
      obtain ⟨hd, hkey⟩ := hfired f hf
      exact ⟨(hafter _ hd).2.1, hkey.trans (hafter _ hd).2.2⟩
    · rw [List.pairwise_cons]
      refine ⟨fun f hf => hle _ (hafter _ (hfired f hf).1).2.1.1, ?_⟩
      refine hsorted.imp_of_mem fun {f g} hf hg hfg => ?_
      rwa [← (hafter _ (hfired f hf).1).2.2, ← (hafter _ (hfired g hg).1).2.2]
    · by_cases hba : b = a
      · exact .inl (by simp [hba])
      by_cases htouch : ∃ c ∈ timerCb cb a l₁, c.Touches b
      · exact .inr ⟨_, List.mem_cons_self, htouch⟩
      have hstill : (l.afterRound a (timerCb cb a l₁)).Due b := by
        refine hb.calls fun c hc => ?_
        rcases List.mem_cons.1 hc with rfl | hc
        · exact fun he => hba he.symm
        rcases List.mem_cons.1 hc with rfl | hc
        · exact fun he => hba he.symm
        · exact fun he => htouch ⟨c, hc, he⟩
      rcases hall b hstill with hin | ⟨f, hf, hc⟩
      · exact .inl (List.mem_cons_of_mem _ hin)
      · exact .inr ⟨f, List.mem_cons_of_mem _ hf, hc⟩

section Reachable

variable {time : ℕ} {node : ℕ → HeapNode}

/-- In every state the heap is a complete binary tree of the timers in use, ordered by timeout and
start, and what a program may do there comes to its end and does what it is for. -/
theorem heap_of_reachable (hcb : Obliging timerCb)
    (hr : Runs.Reachable (step timerCb) (init time node) l) :
    (∃ S, l.heap.IsHeap l.timerKey S ∧ ∀ a, a ∈ S ↔ (l.timers a).active = true)
      ∧ (∀ c, l.Allowed c → ∃ heap, l.call c = pure ⟨l.toTimerTable.call c, heap⟩)
      ∧ ∃ heap, l.processEndgame = pure (l.endgameHandles.head?, ⟨l.endgame, heap⟩) := by
  have hs := sound_of_reachable hcb hr
  refine ⟨hs.heap, fun c hc => ?_, ?_⟩
  · obtain ⟨heap, hrun, -⟩ := hs.call hc
    exact ⟨heap, hrun⟩
  · obtain ⟨heap, hrun, -⟩ := hs.processEndgame
    exact ⟨heap, hrun⟩

/-- The callback of the first timer starts it again, and that of the second closes it. -/
def startsAgain (cb _a : ℕ) (_l : TimerLoop) : List TimerCall :=
  if cb = 0 then [.start 1 (some 0) 7 0] else [.close 2]

/-- Two timers fire; the second is closed, initialised and closed again, and the clock goes on to
where the first is due once more. -/
def twoTimers : List TimerStep :=
  [.call (.init 1), .call (.start 1 (some 0) 5 0), .call (.init 2), .call (.start 2 (some 1) 3 4),
    .updateTime 6, .runTimers 4, .processEndgame, .call (.init 2), .call (.close 2), .updateTime 20]

theorem isSome_twoTimers : (Runs.run (step startsAgain) (init 0 fun _ => ⟨none, none, none⟩)
    twoTimers).isSome = true := by decide +kernel

/-- The loop after that. -/
def twoTimersLoop : TimerLoop :=
  (Runs.run (step startsAgain) (init 0 fun _ => ⟨none, none, none⟩) twoTimers).get
    isSome_twoTimers

theorem reachable_twoTimers : Runs.Reachable (step startsAgain)
    (init 0 fun _ => ⟨none, none, none⟩) twoTimersLoop := ⟨twoTimers, (Option.some_get _).symm⟩

theorem obliging_startsAgain : Obliging startsAgain := by
  intro cb a l _
  unfold startsAgain
  split_ifs <;> exact ⟨⟨by decide, trivial⟩, trivial⟩

theorem later_startsAgain (cb a : ℕ) (l : TimerLoop) : ∀ c ∈ startsAgain cb a l, c.Later := by
  unfold startsAgain
  split_ifs <;> simp [TimerCall.Later]

theorem heap_of_twoTimers :
    (∃ S, twoTimersLoop.heap.IsHeap twoTimersLoop.timerKey S
        ∧ ∀ a, a ∈ S ↔ (twoTimersLoop.timers a).active = true)
      ∧ (∀ c, twoTimersLoop.Allowed c → ∃ heap,
        twoTimersLoop.call c = pure ⟨twoTimersLoop.toTimerTable.call c, heap⟩)
      ∧ ∃ heap, twoTimersLoop.processEndgame
        = pure (twoTimersLoop.endgameHandles.head?, ⟨twoTimersLoop.endgame, heap⟩) :=
  heap_of_reachable obliging_startsAgain reachable_twoTimers

/-- Where callbacks start timers for later only and the clock can still go on, `uv__run_timers`
returns after one round for each timer that fired and one more. These were due, fire in their order, each once; a timer that was due
and does not fire was touched by a callback; and none is due then. -/
theorem runTimers_of_reachable (hcb : Obliging timerCb)
    (hlater : ∀ cb a l, ∀ c ∈ timerCb cb a l, c.Later)
    (hr : Runs.Reachable (step timerCb) (init time node) l) (htime : l.time < 2 ^ 64 - 1) :
    ∃ fired l', (∀ n, fired.length < n → l.runTimers timerCb n = pure (fired, l'))
      ∧ (∀ a, ¬l'.Due a) ∧ (fired.map Firing.handle).Nodup
      ∧ (∀ f ∈ fired, l.Due f.handle ∧ toLex (f.timeout, f.startId) = l.timerKey f.handle)
      ∧ fired.Pairwise (fun f g => l.timerKey f.handle ≤ l.timerKey g.handle)
      ∧ ∀ a, l.Due a → a ∈ fired.map Firing.handle
        ∨ ∃ f ∈ fired, ∃ c ∈ f.calls, c.Touches a := by
  have hs := sound_of_reachable hcb hr
  obtain ⟨S, -, hS⟩ := hs.heap
  obtain ⟨fired, l', hret, -, hrest⟩ := hs.fires hcb hlater htime
    (fun a ha => (hS a).2 ha.1) (Nat.lt_succ_self S.card)
  exact ⟨fired, l', hret, hrest⟩

theorem runTimers_of_twoTimers :
    ∃ fired l', (∀ n, fired.length < n →
        twoTimersLoop.runTimers startsAgain n = pure (fired, l'))
      ∧ (∀ a, ¬l'.Due a) ∧ (fired.map Firing.handle).Nodup
      ∧ (∀ f ∈ fired, twoTimersLoop.Due f.handle
        ∧ toLex (f.timeout, f.startId) = twoTimersLoop.timerKey f.handle)
      ∧ fired.Pairwise
        (fun f g => twoTimersLoop.timerKey f.handle ≤ twoTimersLoop.timerKey g.handle)
      ∧ ∀ a, twoTimersLoop.Due a → a ∈ fired.map Firing.handle
        ∨ ∃ f ∈ fired, ∃ c ∈ f.calls, c.Touches a :=
  runTimers_of_reachable obliging_startsAgain later_startsAgain reachable_twoTimers
    (by decide +kernel)

/-- The earliest timer in use, and how long the poll waits for it. -/
theorem Sound.nextTimeout (hs : l.Sound) :
    (l.nextTimeout = -1 ∧ ∀ a, (l.timers a).active = false)
      ∨ ∃ a, (l.timers a).active = true
        ∧ (∀ b, (l.timers b).active = true → (l.timers a).timeout ≤ (l.timers b).timeout)
        ∧ l.nextTimeout = (min intMax ((l.timers a).timeout - l.time) : ℕ) := by
  rcases hs.min_eq with ⟨hmin, hoff⟩ | ⟨a, hmin, hact, hle⟩
  · exact .inl ⟨by simp only [TimerLoop.nextTimeout, hmin], hoff⟩
  refine .inr ⟨a, hact, fun b hb => ?_, ?_⟩
  · rcases Prod.Lex.toLex_le_toLex.1 (hle b hb) with hlt | ⟨heq, -⟩
    · exact hlt.le
    · exact heq.le
  · simp only [TimerLoop.nextTimeout, hmin]
    split_ifs with hdue hbig
    · rw [Nat.sub_eq_zero_of_le hdue, Nat.min_zero]
      rfl
    · rw [Nat.min_eq_left hbig.le]
    · rw [Nat.min_eq_right (not_lt.1 hbig)]

/-- The poll waits for no timer exactly where none is in use. Otherwise it waits less than it takes
for any to become due, as long as the earliest takes where that is less than `INT_MAX`, and
`INT_MAX` exactly where none is due before. -/
theorem nextTimeout_of_reachable (hcb : Obliging timerCb)
    (hr : Runs.Reachable (step timerCb) (init time node) l) :
    (l.nextTimeout = -1 ↔ ∀ a, (l.timers a).active = false)
      ∧ ((∃ a, (l.timers a).active = true) → ∃ d : ℕ, l.nextTimeout = d ∧ d ≤ intMax
        ∧ (∀ a k, (l.timers a).active = true → k < d → l.time + k < (l.timers a).timeout)
        ∧ (d < intMax → ∃ a, (l.timers a).active = true
          ∧ (l.timers a).timeout ≤ l.time + d)
        ∧ (d = intMax ↔ ∀ a, (l.timers a).active = true →
          l.time + intMax ≤ (l.timers a).timeout)) := by
  rcases (sound_of_reachable hcb hr).nextTimeout with ⟨hno, hoff⟩ | ⟨a, hact, hfirst, hwait⟩
  · exact ⟨⟨fun _ => hoff, fun _ => hno⟩, fun ⟨a, ha⟩ => by simp [hoff a] at ha⟩
  have hpos : 0 < intMax := by decide
  constructor
  · rw [hwait]
    exact ⟨fun h => by omega, fun hoff => by simp [hoff a] at hact⟩
  · refine fun _ => ⟨_, hwait, Nat.min_le_left _ _, fun b k hb hk => ?_, fun hlt => ⟨a, hact, ?_⟩,
      fun heq b hb => ?_, fun hall => ?_⟩
    · have := hfirst b hb
      omega
    · omega
    · have := hfirst b hb
      omega
    · have := hall a hact
      omega

theorem nextTimeout_of_twoTimers :
    (twoTimersLoop.nextTimeout = -1 ↔ ∀ a, (twoTimersLoop.timers a).active = false)
      ∧ ((∃ a, (twoTimersLoop.timers a).active = true) → ∃ d : ℕ, twoTimersLoop.nextTimeout = d
        ∧ d ≤ intMax
        ∧ (∀ a k, (twoTimersLoop.timers a).active = true → k < d →
          twoTimersLoop.time + k < (twoTimersLoop.timers a).timeout)
        ∧ (d < intMax → ∃ a, (twoTimersLoop.timers a).active = true
          ∧ (twoTimersLoop.timers a).timeout ≤ twoTimersLoop.time + d)
        ∧ (d = intMax ↔ ∀ a, (twoTimersLoop.timers a).active = true →
          twoTimersLoop.time + intMax ≤ (twoTimersLoop.timers a).timeout)) :=
  nextTimeout_of_reachable obliging_startsAgain reachable_twoTimers

end Reachable

end TimerLoop

end TestLibuv
