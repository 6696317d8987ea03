import Mathlib.Data.Prod.Lex
import TestLibuv.Lib.Fairness
import TestLibuv.Proofs.LooperStep

/-!
# Every event once, in order

What has been dispatched followed by what is waiting is what has been pushed, each event sits in
the heap as its maker left it until its handler frees it, and a queue that is not empty has a
wake-up or a drain coming (`Ledger`, `Wakes`). If the loop's thread goes on as long as it can, the
wake-up starts a drain, and a drain, during which nothing is pushed, gets through the queue.
-/

namespace TestLibuv.CLooper

open Runs Fairness

/-- `e` is in the heap as it was pushed, or will be. -/
def Intact (s : CLooper) (e : ℕ) : Prop :=
  ∃ args, (e, args) ∈ s.made ∧ s.events.cells e = some args.event

/-- The handler of `e` has not freed it yet, or has nothing left to do. -/
def Handling (s : CLooper) (e : ℕ) (todo : List EventOp) : Prop :=
  (∃ ops, todo = ops ++ [.freeUvEvent] ∧ .freeUvEvent ∉ ops ∧ s.Intact e
      ∧ s.freed ++ [e] = s.dispatched.map Dispatch.event)
    ∨ todo = [] ∧ s.freed = s.dispatched.map Dispatch.event

/-- The history of the events agrees with the queue and the heap. -/
structure Ledger (s : CLooper) : Prop where
  fault : s.fault = false
  order : s.dispatched.map Dispatch.event ++ s.waiting = s.pushed
  once : s.pushed.Nodup
  intact : ∀ e ∈ s.waiting, s.Intact e
  held : ∀ t e, s.pEvent t = some e → e ∉ s.pushed ∧ s.Intact e
  own : ∀ t u e, s.pEvent t = some e → s.pEvent u = some e → t = u
  below : ∀ e ∈ s.pushed, e < s.events.next
  makers : (s.made.map Prod.fst).Nodup
  makersBelow : ∀ m ∈ s.made, m.1 < s.events.next
  dispatches : ∀ d ∈ s.dispatched, ∃ args, (d.event, args) ∈ s.made ∧ d.target = args.data
    ∧ d.contents = args.event
  uses : ∀ u ∈ s.used, ∃ args, (u.1, args) ∈ s.made ∧ u.2.2 = args.event
  idle : s.workThread.current = none → s.freed = s.dispatched.map Dispatch.event
  busy : ∀ e todo, s.workThread.current = some (e, todo) →
    s.eventQueue.head? = some e ∧ s.Handling e todo

variable {s s' : CLooper} {l : Label}

theorem doEvent_ends_free (o : ILooperEvent) (type : UvEventType) :
    ∃ ops, o.doEvent type = ops ++ [.freeUvEvent] ∧ .freeUvEvent ∉ ops := by
  cases o <;> cases type <;>
    first
    | exact ⟨[], rfl, by simp⟩
    | exact ⟨[_], rfl, by simp⟩

namespace Ledger

/-- The handles, the flags and a move of the thread outside handlers change nothing. -/
theorem frame (h : Ledger s) {w : WorkThread} (hw : w.current = s.workThread.current)
    (a b : UvAsync) (c : Bool) (d : ℕ → Bool) (n m : ℕ) :
    Ledger { s with
      workThread := w, asyncEventHandle := a, asyncLooperClose := b, isClosed := c, inClose := d
      handles := n, closedAgain := m } where
  fault := h.fault
  order := by
    have ho := h.order
    unfold waiting at ho ⊢
    rw [hw]
    exact ho
  once := h.once
  intact := by
    have hi := h.intact
    unfold waiting at hi ⊢
    rw [hw]
    exact hi
  held := h.held
  own := h.own
  below := h.below
  makers := h.makers
  makersBelow := h.makersBelow
  dispatches := h.dispatches
  uses := h.uses
  idle := by
    rw [hw]
    exact h.idle
  busy := by
    rw [hw]
    exact h.busy

theorem createEvent (h : Ledger s) (t : ℕ) (args : EventArgs) :
    Ledger (s.createEvent t args) := by
  have hkeep : ∀ e, s.Intact e → (s.createEvent t args).Intact e := by
    rintro e ⟨a, ha, hc⟩
    refine ⟨a, List.mem_append_left _ ha, ?_⟩
    have hne := (Heap.lt_next hc).ne
    show (s.events.alloc args.event).cells e = _
    rw [Heap.cells_alloc, if_neg hne, hc]
  have hmade : ∀ {e a}, (e, a) ∈ s.made → (e, a) ∈ (s.createEvent t args).made :=
    fun ha => List.mem_append_left _ ha
  have hnew : (s.createEvent t args).Intact s.events.next :=
    ⟨args, by simp [CLooper.createEvent], by simp [CLooper.createEvent, Heap.cells_alloc]⟩
  have hpE : ∀ u, (s.createEvent t args).pEvent u
      = if u = t then some s.events.next else s.pEvent u := fun _ => rfl
  refine ⟨h.fault, h.order, h.once, fun e he => hkeep e (h.intact e he), ?_, ?_, ?_, ?_, ?_, ?_, ?_,
    h.idle, ?_⟩
  · intro u e hu
    rw [hpE] at hu
    split_ifs at hu
    · obtain rfl := Option.some.inj hu
      exact ⟨fun he => absurd (h.below _ he) (lt_irrefl _), hnew⟩
    · exact ⟨(h.held u e hu).1, hkeep e (h.held u e hu).2⟩
  · intro u v e hu hv
    have hlt : ∀ w, s.pEvent w = some e → e < s.events.next := by
      intro w hw
      obtain ⟨-, a, -, hc⟩ := h.held w e hw
      exact Heap.lt_next hc
    rw [hpE] at hu hv
    split_ifs at hu hv with hut hvt hvt
    · rw [hut, hvt]
    · obtain rfl := Option.some.inj hu
      exact absurd (hlt v hv) (lt_irrefl _)
    · obtain rfl := Option.some.inj hv
      exact absurd (hlt u hu) (lt_irrefl _)
    · exact h.own u v e hu hv
  · intro e he
    exact Nat.lt_succ_of_lt (h.below e he)
  · show ((s.made ++ [(s.events.next, args)]).map Prod.fst).Nodup
    rw [List.map_append, List.nodup_append]
    refine ⟨h.makers, by simp, fun a ha b hb hab => ?_⟩
    obtain ⟨m, hm, rfl⟩ := List.mem_map.1 ha
    rw [List.map_singleton, List.mem_singleton] at hb
    exact absurd (hab.trans hb) (h.makersBelow m hm).ne
  · intro m hm
    rcases List.mem_append.1 hm with hm | hm
    · exact Nat.lt_succ_of_lt (h.makersBelow m hm)
    · obtain rfl := List.mem_singleton.1 hm
      exact Nat.lt_succ_self _
  · intro d hd
    obtain ⟨a, ha, hrest⟩ := h.dispatches d hd
    exact ⟨a, hmade ha, hrest⟩
  · intro u hu
    obtain ⟨a, ha, hrest⟩ := h.uses u hu
    exact ⟨a, hmade ha, hrest⟩
  · intro e todo hcur
    obtain ⟨hq, hh⟩ := h.busy e todo hcur
    refine ⟨hq, ?_⟩
    rcases hh with ⟨ops, htodo, hno, hi, hf⟩ | hdone
    · exact .inl ⟨ops, htodo, hno, hkeep e hi, hf⟩
    · exact .inr hdone

theorem pushEvent (h : Ledger s) {t e : ℕ} (hp : s.pEvent t = some e) (hl : s.locked = false) :
    Ledger (s.pushEvent t e) := by
  have hcur : s.workThread.current = none := by
    unfold locked at hl
    unfold WorkThread.current
    split at hl <;> simp_all
  have hw : s.waiting = s.eventQueue := by
    unfold waiting
    rw [hcur]
    rfl
  have hw' : (s.pushEvent t e).waiting = s.waiting ++ [e] := by
    rw [hw]
    unfold waiting
    show (if s.workThread.current.isSome then _ else _) = _
    rw [hcur]
    rfl
  have hpE : ∀ u, (s.pushEvent t e).pEvent u = if u = t then none else s.pEvent u := fun _ => rfl
  obtain ⟨hnew, hi⟩ := h.held t e hp
  refine ⟨h.fault, ?_, ?_, ?_, ?_, ?_, ?_, h.makers, h.makersBelow, h.dispatches, h.uses, h.idle,
    ?_⟩
  · rw [hw', ← List.append_assoc]
    exact congrArg (· ++ [e]) h.order
  · show (s.pushed ++ [e]).Nodup
    rw [List.nodup_append]
    refine ⟨h.once, by simp, fun a ha b hb hab => ?_⟩
    rw [List.mem_singleton.1 hb] at hab
    exact hnew (hab ▸ ha)
  · intro a ha
    rw [hw', List.mem_append, List.mem_singleton] at ha
    rcases ha with ha | rfl
    · exact h.intact a ha
    · exact hi
  · intro u a hu
    rw [hpE] at hu
    split_ifs at hu with hut
    refine ⟨fun ha => ?_, (h.held u a hu).2⟩
    rcases List.mem_append.1 ha with ha | ha
    · exact (h.held u a hu).1 ha
    · obtain rfl := List.mem_singleton.1 ha
      exact hut (h.own u t a hu hp)
  · intro u v a hu hv
    rw [hpE] at hu hv
    split_ifs at hu hv
    exact h.own u v a hu hv
  · intro a ha
    rcases List.mem_append.1 ha with ha | ha
    · exact h.below a ha
    · obtain rfl := List.mem_singleton.1 ha
      obtain ⟨_, -, hc⟩ := hi
      exact Heap.lt_next hc
  · intro a todo ha
    exact absurd ha (by show s.workThread.current ≠ _; rw [hcur]; simp)

theorem dispatch (h : Ledger s) {e : ℕ} {rest : List ℕ} (hw : s.workThread = .draining)
    (hq : s.eventQueue = e :: rest) : Ledger (s.dispatch e) := by
  have hcur : s.workThread.current = none := by rw [hw]; rfl
  have hwait : s.waiting = e :: rest := by
    unfold waiting
    rw [hcur, hq]
    rfl
  obtain ⟨args, hmade, hcell⟩ := h.intact e (by rw [hwait]; exact List.mem_cons_self)
  have hd : s.dispatch e = { s with
      workThread := .handling e (args.data.doEvent args.event.type)
      dispatched := s.dispatched ++ [⟨e, args.data, args.event⟩] } := by
    unfold CLooper.dispatch
    rw [hcell]
    rfl
  have hwait' : (s.dispatch e).waiting = rest := by
    rw [hd]
    show s.eventQueue.tail = rest
    rw [hq]
    rfl
  have hfreed := h.idle hcur
  rw [hd] at hwait' ⊢
  refine ⟨h.fault, ?_, h.once, ?_, h.held, h.own, h.below, h.makers, h.makersBelow, ?_, h.uses,
    by simp [WorkThread.current], ?_⟩
  · rw [hwait', List.map_append, List.append_assoc]
    rw [← h.order, hwait]
    rfl
  · intro a ha
    rw [hwait'] at ha
    exact h.intact a (by rw [hwait]; exact List.mem_cons_of_mem _ ha)
  · intro d hd
    rcases List.mem_append.1 hd with hd | hd
    · exact h.dispatches d hd
    · obtain rfl := List.mem_singleton.1 hd
      exact ⟨args, hmade, rfl, rfl⟩
  · intro a todo ha
    simp only [WorkThread.current, Option.some.injEq, Prod.mk.injEq] at ha
    obtain ⟨rfl, rfl⟩ := ha
    obtain ⟨ops, hops, hno⟩ := doEvent_ends_free args.data args.event.type
    refine ⟨by rw [hq]; rfl, .inl ⟨ops, hops, hno, ⟨args, hmade, hcell⟩, ?_⟩⟩
    rw [List.map_append, hfreed]
    rfl

/-- What the handler of `e` still has to do, and `e`, when it goes on. -/
theorem handling (h : Ledger s) {e : ℕ} {op : EventOp} {todo : List EventOp}
    (hw : s.workThread = .handling e (op :: todo)) : s.eventQueue.head? = some e ∧ s.Intact e
      ∧ s.freed ++ [e] = s.dispatched.map Dispatch.event
      ∧ (op = .freeUvEvent ∧ todo = []
        ∨ op ≠ .freeUvEvent ∧ ∃ ops, todo = ops ++ [.freeUvEvent] ∧ .freeUvEvent ∉ ops) := by
  obtain ⟨hq, hh⟩ := h.busy e (op :: todo) (by rw [hw]; rfl)
  rcases hh with ⟨ops, htodo, hno, hi, hf⟩ | ⟨hnil, -⟩
  · refine ⟨hq, hi, hf, ?_⟩
    rcases ops with _ | ⟨o, ops⟩
    · obtain ⟨rfl, rfl⟩ := List.cons_eq_cons.1 htodo
      exact .inl ⟨rfl, rfl⟩
    · obtain ⟨rfl, rfl⟩ := List.cons_eq_cons.1 htodo
      rw [List.mem_cons, not_or] at hno
      exact .inr ⟨fun h => hno.1 h.symm, ops, rfl, hno.2⟩
  · simp at hnil

theorem waiting_tail {e : ℕ} {todo : List EventOp} (hw : s.workThread = .handling e todo) :
    s.waiting = s.eventQueue.tail := by
  unfold waiting
  rw [hw]
  rfl

theorem free (h : Ledger s) {e : ℕ} {todo : List EventOp}
    (hw : s.workThread = .handling e (.freeUvEvent :: todo)) :
    Ledger (s.handle e .freeUvEvent todo) := by
  obtain ⟨hq, ⟨args, hmade, hcell⟩, hf, hop⟩ := h.handling hw
  obtain rfl : todo = [] := by
    rcases hop with ⟨-, rfl⟩ | ⟨hne, -⟩
    · rfl
    · exact absurd rfl hne
  have hd : s.handle e .freeUvEvent [] = { s with
      workThread := .handling e [], events := s.events.free e, freed := s.freed ++ [e] } := by
    unfold CLooper.handle
    simp only [hcell, ↓reduceIte]
  have hwait := waiting_tail hw
  have hmem : e ∈ s.dispatched.map Dispatch.event := by rw [← hf]; simp
  have hpushed : e ∈ s.pushed := by
    rw [← h.order]
    exact List.mem_append_left _ hmem
  -- the other events stay where they are
  have hkeep : ∀ a, a ≠ e → s.Intact a → ∃ args, (a, args) ∈ s.made
      ∧ (s.events.free e).cells a = some args.event := by
    rintro a hne ⟨args, ha, hc⟩
    exact ⟨args, ha, by rw [Heap.cells_free, if_neg hne, hc]⟩
  rw [hd]
  refine ⟨h.fault, ?_, h.once, ?_, ?_, h.own, h.below, h.makers, h.makersBelow, h.dispatches,
    h.uses, by simp [WorkThread.current], ?_⟩
  · rw [← h.order, hwait]
    rfl
  · intro a ha
    have ha' : a ∈ s.waiting := by rw [hwait]; exact ha
    refine hkeep a ?_ (h.intact a ha')
    rintro rfl
    have hnd := h.once
    rw [← h.order, List.nodup_append] at hnd
    exact hnd.2.2 a hmem a ha' rfl
  · intro t a ha
    obtain ⟨hnot, hi⟩ := h.held t a ha
    exact ⟨hnot, hkeep a (fun hae => hnot (hae ▸ hpushed)) hi⟩
  · intro a todo ha
    simp only [WorkThread.current, Option.some.injEq, Prod.mk.injEq] at ha
    obtain ⟨rfl, rfl⟩ := ha
    exact ⟨hq, .inr ⟨rfl, hf⟩⟩

theorem call (h : Ledger s) {e : ℕ} {op : EventOp} {todo : List EventOp}
    (hw : s.workThread = .handling e (op :: todo)) (hop : op ≠ .freeUvEvent) :
    Ledger (s.handle e op todo) := by
  obtain ⟨hq, ⟨args, hmade, hcell⟩, hf, hor⟩ := h.handling hw
  obtain ⟨ops, rfl, hno⟩ : ∃ ops, todo = ops ++ [EventOp.freeUvEvent]
      ∧ EventOp.freeUvEvent ∉ ops := by
    rcases hor with ⟨rfl, -⟩ | ⟨-, hops⟩
    · exact absurd rfl hop
    · exact hops
  obtain ⟨used, hd, hused⟩ : ∃ used, s.handle e op (ops ++ [.freeUvEvent]) = { s with
      workThread := .handling e (ops ++ [.freeUvEvent]), used := used }
      ∧ ∀ u ∈ used, ∃ args, (u.1, args) ∈ s.made ∧ u.2.2 = args.event := by
    unfold CLooper.handle
    simp only [hcell, if_neg hop]
    by_cases hr : op.reads = true
    · refine ⟨_, if_pos hr, fun u hu => ?_⟩
      rcases List.mem_append.1 hu with hu | hu
      · exact h.uses u hu
      · obtain rfl := List.mem_singleton.1 hu
        exact ⟨args, hmade, rfl⟩
    · exact ⟨s.used, if_neg hr, h.uses⟩
  have hwait := waiting_tail hw
  rw [hd]
  refine ⟨h.fault, ?_, h.once, ?_, h.held, h.own, h.below, h.makers, h.makersBelow, h.dispatches,
    hused, by simp [WorkThread.current], ?_⟩
  · rw [← h.order, hwait]
    rfl
  · intro a ha
    exact h.intact a (by rw [hwait]; exact ha)
  · intro a todo ha
    simp only [WorkThread.current, Option.some.injEq, Prod.mk.injEq] at ha
    obtain ⟨rfl, rfl⟩ := ha
    exact ⟨hq, .inl ⟨ops, rfl, hno, ⟨args, hmade, hcell⟩, hf⟩⟩

theorem pop (h : Ledger s) {e q : ℕ} {rest : List ℕ} (hw : s.workThread = .handling e [])
    (hq : s.eventQueue = q :: rest) :
    Ledger { s with eventQueue := rest, workThread := .draining } := by
  have hwait := waiting_tail hw
  rw [hq] at hwait
  have hf : s.freed = s.dispatched.map Dispatch.event := by
    rcases (h.busy e [] (by rw [hw]; rfl)).2 with ⟨ops, hops, -⟩ | ⟨-, hf⟩
    · simp at hops
    · exact hf
  refine ⟨h.fault, ?_, h.once, ?_, h.held, h.own, h.below, h.makers, h.makersBelow, h.dispatches,
    h.uses, fun _ => hf, by simp [WorkThread.current]⟩
  · rw [← h.order, hwait]
    rfl
  · intro a ha
    exact h.intact a (by rw [hwait]; exact ha)

theorem step (h : Ledger s) (hs : step s l = some s') : Ledger s' := by
  obtain ⟨-, ht⟩ := step_trans hs
  cases ht with
  | createEvent _ => exact h.createEvent _ _
  | pushEvent hp hl => exact h.pushEvent hp hl
  | closeTest c => exact h.frame rfl _ _ _ _ _ _
  | closeSend => exact h.frame rfl _ _ _ _ _ _
  | attach => exact h.frame rfl _ _ _ _ _ _
  | detach => exact h.frame rfl _ _ _ _ _ _
  | eventWakeup hw _ _ => exact h.frame (by rw [hw]; rfl) _ _ _ _ _ _
  | eventWakeupClosing _ => exact h.frame rfl _ _ _ _ _ _
  | lock hw => exact h.frame (by rw [hw]; rfl) _ _ _ _ _ _
  | unlock hw _ => exact h.frame (by rw [hw]; rfl) _ _ _ _ _ _
  | dispatch hw hq => exact h.dispatch hw hq
  | @handle e op todo hw =>
    by_cases hop : op = .freeUvEvent
    · subst hop
      exact h.free hw
    · exact h.call hw hop
  | pop hw hq => exact h.pop hw hq
  | closeWakeup _ _ => exact h.frame rfl _ _ _ _ _ _
  | closeWakeupClosing _ => exact h.frame rfl _ _ _ _ _ _
  | eventEndgame _ => exact h.frame rfl _ _ _ _ _ _
  | closeEndgame _ => exact h.frame rfl _ _ _ _ _ _
  | uvRunReturns hw _ => exact h.frame (by rw [hw]; rfl) _ _ _ _ _ _
  | setClosed hw => exact h.frame (by rw [hw]; rfl) _ _ _ _ _ _

end Ledger

theorem ledger_init : Ledger init := by
  constructor <;> simp [init, CLooper.waiting, WorkThread.current]

/-! ## No wake-up is lost -/

/-- `AsyncCB` closes both handles, none ends before it, and unless it has run, a queue that is not
empty has a wake-up or a drain coming. -/
structure Wakes (s : CLooper) : Prop where
  both : s.asyncLooperClose.closing = true → s.asyncEventHandle.closing = true
  ended : s.asyncEventHandle.closing = false → s.asyncEventHandle.closed = false
    ∧ s.asyncLooperClose.closed = false ∧ s.closedAgain = 0
  gone : s.workThread = .returned ∨ s.workThread = .exited → s.asyncEventHandle.closing = true
  wakes : s.eventQueue ≠ [] → s.asyncEventHandle.closing = false →
    s.asyncEventHandle.asyncSent = true ∨ s.InDrain

/-- The handle counts until it is closing, so the loop is not idle before. -/
theorem Wakes.closing_of_idle (h : Wakes s) (hidle : s.activeHandles = 0) :
    s.asyncEventHandle.closing = true := by
  by_contra hopen
  obtain ⟨he, hc, hagain⟩ := h.ended (by simpa using hopen)
  simp only [activeHandles, he, hc, hagain, Bool.not_false, Bool.toNat_true] at hidle
  omega

theorem inDrain_dispatch (hl : Ledger s) {e : ℕ} {rest : List ℕ}
    (hw : s.workThread = .draining) (hq : s.eventQueue = e :: rest) :
    ∃ target todo ev, s.dispatch e = { s with
      workThread := .handling e todo, dispatched := s.dispatched ++ [⟨e, target, ev⟩] }
      ∧ todo.length ≤ 2 := by
  obtain ⟨args, -, hcell⟩ := hl.intact e (by
    unfold waiting
    rw [hw, hq]
    exact List.mem_cons_self)
  refine ⟨args.data, args.data.doEvent args.event.type, args.event, ?_, ?_⟩
  · unfold CLooper.dispatch
    rw [hcell]
    rfl
  · cases args.data <;> cases args.event.type <;> simp [ILooperEvent.doEvent]

/-- A call of the handler touches neither the queue nor the handles. -/
theorem handle_frame (e : ℕ) (op : EventOp) (todo : List EventOp) :
    (s.handle e op todo).eventQueue = s.eventQueue
      ∧ (s.handle e op todo).asyncEventHandle = s.asyncEventHandle
      ∧ (s.handle e op todo).workThread = .handling e todo
      ∧ (s.handle e op todo).pushed = s.pushed
      ∧ (s.handle e op todo).asyncLooperClose = s.asyncLooperClose
      ∧ (s.handle e op todo).closedAgain = s.closedAgain := by
  rcases hc : s.events.cells e with _ | ev <;> simp only [CLooper.handle, hc] <;> split_ifs <;>
    exact ⟨rfl, rfl, rfl, rfl, rfl, rfl⟩

theorem inDrain_of_handling {e : ℕ} {todo : List EventOp} (hw : s.workThread = .handling e todo) :
    s.InDrain := by
  unfold InDrain
  rw [hw]
  trivial

/-- Once the handle is closing, there is nothing left to keep. -/
theorem wakes_of_closing (hc : s.asyncEventHandle.closing = true) : Wakes s where
  both _ := hc
  ended hopen := absurd (hc.symm.trans hopen) (by simp)
  gone _ := hc
  wakes _ hopen := absurd (hc.symm.trans hopen) (by simp)

theorem Wakes.step (h : Wakes s) (hl : Ledger s) (hs : step s l = some s') : Wakes s' := by
  obtain ⟨-, ht⟩ := step_trans hs
  cases ht with
  | createEvent _ => exact ⟨h.both, h.ended, h.gone, h.wakes⟩
  | pushEvent _ _ => exact ⟨h.both, h.ended, h.gone, fun _ _ => .inl rfl⟩
  | closeTest c => exact ⟨h.both, h.ended, h.gone, h.wakes⟩
  | closeSend => exact ⟨h.both, h.ended, h.gone, h.wakes⟩
  | attach => exact ⟨h.both, h.ended, h.gone, h.wakes⟩
  | detach => exact ⟨h.both, h.ended, h.gone, h.wakes⟩
  | eventWakeup _ _ _ =>
    exact ⟨h.both, h.ended, fun hg => by simp at hg, fun _ _ => .inr trivial⟩
  | eventWakeupClosing hc => exact wakes_of_closing hc
  | lock _ => exact ⟨h.both, h.ended, fun hg => by simp at hg, fun _ _ => .inr trivial⟩
  | unlock _ hq => exact ⟨h.both, h.ended, fun hg => by simp at hg, fun hne => absurd hq hne⟩
  | dispatch hw hq =>
    obtain ⟨target, todo, ev, hd, -⟩ := inDrain_dispatch hl hw hq
    rw [hd]
    exact ⟨h.both, h.ended, fun hg => by simp at hg, fun _ _ => .inr trivial⟩
  | @handle e op todo hw =>
    obtain ⟨-, ha, hw', -, hc, hagain⟩ := handle_frame (s := s) e op todo
    refine ⟨by rw [ha, hc]; exact h.both, by rw [ha, hc, hagain]; exact h.ended,
      fun hg => by simp [hw'] at hg, fun _ _ => .inr ?_⟩
    exact inDrain_of_handling hw'
  | pop _ _ => exact ⟨h.both, h.ended, fun hg => by simp at hg, fun _ _ => .inr trivial⟩
  | closeWakeup _ _ => exact wakes_of_closing rfl
  | closeWakeupClosing _ => exact ⟨h.both, h.ended, h.gone, h.wakes⟩
  | eventEndgame he =>
    have hc := UvAsync.closing_of_ends he
    exact wakes_of_closing hc
  | closeEndgame he =>
    have hc := h.both (UvAsync.closing_of_ends he)
    exact wakes_of_closing hc
  | uvRunReturns _ hidle =>
    have hc := h.closing_of_idle hidle
    exact wakes_of_closing hc
  | setClosed hw =>
    have hc := h.gone (.inl hw)
    exact wakes_of_closing hc

theorem wakes_init : Wakes init := by
  constructor <;> simp [init, UvAsync.init]

theorem sound_step {a : Label} (h : Ledger s ∧ Wakes s) (hs : step s a = some s') :
    Ledger s' ∧ Wakes s' :=
  ⟨h.1.step hs, h.2.step h.1 hs⟩

/-! ## A pushed event is dispatched and freed -/

/-- The steps of the loop's thread while the looper is not being closed. -/
def LoopStep (l : Label) : Prop := l = .eventWakeup ∨ l = .drain

/-- How far the thread is from the end of a drain. Outside one the queue may still grow. -/
def distance (s : CLooper) : ℕ ×ₗ ℕ :=
  match s.workThread with
  | .polling => toLex (2, 0)
  | .asyncEvent => toLex (1, 0)
  | .draining => toLex (0, 4 * s.eventQueue.length)
  | .handling _ todo => toLex (0, 4 * (s.eventQueue.length - 1) + todo.length + 1)
  | .returned | .exited => toLex (0, 0)

/-- `e` has been pushed and not freed, and the looper is not being closed. -/
structure Due (e : ℕ) (s : CLooper) : Prop where
  ledger : Ledger s
  wakes : Wakes s
  opened : s.asyncEventHandle.closing = false
  pushed : e ∈ s.pushed
  unfreed : e ∉ s.freed

/-- `e` has been freed, or the looper is being closed. -/
def Done (e : ℕ) (s : CLooper) : Prop := e ∈ s.freed ∨ s.asyncEventHandle.closing = true

theorem Due.eventQueue_ne_nil {e : ℕ} (h : Due e s) : s.eventQueue ≠ [] := by
  intro hq
  have hmem := h.pushed
  rcases hc : s.workThread.current with _ | ⟨a, todo⟩
  · have hwait : s.waiting = [] := by
      unfold waiting
      rw [hc, hq]
      rfl
    rw [← h.ledger.order, hwait, List.append_nil, ← h.ledger.idle hc] at hmem
    exact h.unfreed hmem
  · have hhead := (h.ledger.busy a todo hc).1
    rw [hq] at hhead
    simp at hhead

theorem done_or_due {e : ℕ} (hl : Ledger s') (hw : Wakes s') (hp : e ∈ s'.pushed) :
    Done e s' ∨ Due e s' := by
  by_cases hf : e ∈ s'.freed
  · exact .inl (.inl hf)
  · by_cases hc : s'.asyncEventHandle.closing = true
    · exact .inl (.inr hc)
    · exact .inr ⟨hl, hw, by simpa using hc, hp, hf⟩

theorem toLex_lt_of_lt {a b c : ℕ} (h : b < c) : toLex (a, b) < toLex (a, c) :=
  Prod.Lex.toLex_lt_toLex.2 (.inr ⟨rfl, h⟩)

theorem toLex_lt_of_fst {a b c d : ℕ} (h : a < b) : toLex (a, c) < toLex (b, d) :=
  Prod.Lex.toLex_lt_toLex.2 (.inl h)

/-- No step takes the thread away from the end of the drain, and its own steps bring it nearer. -/
theorem Due.distance {e : ℕ} (h : Due e s) (ht : Trans s l s') :
    Done e s' ∨ s'.distance ≤ s.distance ∧ (LoopStep l → s'.distance < s.distance) := by
  have hne := h.eventQueue_ne_nil
  cases ht with
  | createEvent _ => exact .inr ⟨le_refl _, by rintro (h | h) <;> simp at h⟩
  | @pushEvent t a _ hl =>
    refine .inr ⟨?_, by rintro (h | h) <;> simp at h⟩
    unfold CLooper.distance
    show (match s.workThread with
      | .polling => toLex (2, 0)
      | .asyncEvent => toLex (1, 0)
      | .draining => toLex (0, 4 * (s.eventQueue ++ [a]).length)
      | .handling _ todo => toLex (0, 4 * ((s.eventQueue ++ [a]).length - 1) + todo.length + 1)
      | .returned | .exited => toLex (0, 0)) ≤ _
    unfold locked at hl
    rcases hw : s.workThread <;> simp_all
  | closeTest c => exact .inr ⟨le_refl _, by rintro (h | h) <;> simp at h⟩
  | closeSend => exact .inr ⟨le_refl _, by rintro (h | h) <;> simp at h⟩
  | attach => exact .inr ⟨le_refl _, by rintro (h | h) <;> simp at h⟩
  | detach => exact .inr ⟨le_refl _, by rintro (h | h) <;> simp at h⟩
  | eventWakeup hw _ _ =>
    have hlt : (toLex (1, 0) : ℕ ×ₗ ℕ) < s.distance := by
      unfold CLooper.distance
      rw [hw]
      exact toLex_lt_of_fst (by omega)
    exact .inr ⟨hlt.le, fun _ => hlt⟩
  | eventWakeupClosing hc => exact absurd (hc.symm.trans h.opened) (by simp)
  | lock hw =>
    have hlt : (toLex (0, 4 * s.eventQueue.length) : ℕ ×ₗ ℕ) < s.distance := by
      unfold CLooper.distance
      rw [hw]
      exact toLex_lt_of_fst (by omega)
    exact .inr ⟨hlt.le, fun _ => hlt⟩
  | unlock _ hq => exact absurd hq hne
  | @dispatch a rest hw hq =>
    obtain ⟨target, todo, ev, hd, hlen⟩ := inDrain_dispatch h.ledger hw hq
    have hlt : (s.dispatch a).distance < s.distance := by
      rw [hd]
      unfold CLooper.distance
      rw [hw]
      refine toLex_lt_of_lt ?_
      rw [hq, List.length_cons]
      omega
    exact .inr ⟨hlt.le, fun _ => hlt⟩
  | @handle a op todo hw =>
    obtain ⟨hq', -, hw', -, -, -⟩ := handle_frame (s := s) a op todo
    have hlt : (s.handle a op todo).distance < s.distance := by
      unfold CLooper.distance
      rw [hw, hw', hq']
      refine toLex_lt_of_lt ?_
      rw [List.length_cons]
      omega
    exact .inr ⟨hlt.le, fun _ => hlt⟩
  | @pop a q rest hw hq =>
    have hlt : (toLex (0, 4 * rest.length) : ℕ ×ₗ ℕ) < s.distance := by
      unfold CLooper.distance
      rw [hw]
      refine toLex_lt_of_lt ?_
      rw [hq, List.length_cons]
      simp
    exact .inr ⟨hlt.le, fun _ => hlt⟩
  | closeWakeup _ _ => exact .inl (.inr rfl)
  | closeWakeupClosing _ => exact .inr ⟨le_refl _, by rintro (h | h) <;> simp at h⟩
  | eventEndgame he =>
    exact absurd ((UvAsync.closing_of_ends he).symm.trans h.opened) (by simp)
  | closeEndgame _ => exact .inr ⟨le_refl _, by rintro (h | h) <;> simp at h⟩
  | uvRunReturns _ hidle =>
    exact absurd ((h.wakes.closing_of_idle hidle).symm.trans h.opened) (by simp)
  | setClosed hw => exact absurd ((h.wakes.gone (.inl hw)).symm.trans h.opened) (by simp)

theorem Due.enabled {e : ℕ} (h : Due e s) : ∃ l, LoopStep l ∧ step s l ≠ none := by
  have hne := h.eventQueue_ne_nil
  have hf : s.fault = false := h.ledger.fault
  have hstep : ∀ l, step s l = s.act l := fun l => by simp [step, hf]
  obtain ⟨q, rest, hq⟩ := List.exists_cons_of_ne_nil hne
  rcases hw : s.workThread with _ | _ | _ | ⟨a, _ | ⟨op, todo⟩⟩ | _ | _
  · refine ⟨.eventWakeup, .inl rfl, ?_⟩
    have hsent : s.asyncEventHandle.asyncSent = true := by
      rcases h.wakes.wakes hne h.opened with hs | hd
      · exact hs
      · simp [InDrain, hw] at hd
    rw [hstep]
    simp [act, eventWakeup, hw, hsent]
  · exact ⟨.drain, .inr rfl, by rw [hstep]; simp [act, drain, hw]⟩
  · exact ⟨.drain, .inr rfl, by rw [hstep]; simp [act, drain, hw, hq]⟩
  · exact ⟨.drain, .inr rfl, by rw [hstep]; simp [act, drain, hw, hq]⟩
  · exact ⟨.drain, .inr rfl, by rw [hstep]; simp [act, drain, hw]⟩
  · exact absurd ((h.wakes.gone (.inl hw)).symm.trans h.opened) (by simp)
  · exact absurd ((h.wakes.gone (.inr hw)).symm.trans h.opened) (by simp)

theorem pushed_mono (hs : step s l = some s') {e : ℕ} (he : e ∈ s.pushed) : e ∈ s'.pushed := by
  obtain ⟨-, ht⟩ := step_trans hs
  cases ht with
  | pushEvent _ _ => exact List.mem_append_left _ he
  | dispatch _ _ =>
    unfold CLooper.dispatch
    split
    · split <;> exact he
    · exact he
  | handle _ => rwa [(handle_frame _ _ _).2.2.2.1]
  | _ => exact he

theorem Due.step {e : ℕ} (h : Due e s) (hs : step s l = some s') :
    Done e s' ∨ Due e s' ∧ s'.distance ≤ s.distance ∧ (LoopStep l → s'.distance < s.distance) := by
  rcases done_or_due (h.ledger.step hs) (h.wakes.step h.ledger hs) (pushed_mono hs h.pushed)
    with hd | hd
  · exact .inl hd
  · rcases h.distance (step_trans hs).2 with hdone | hdist
    · exact .inl hdone
    · exact .inr ⟨hd, hdist⟩

theorem due_leadsTo_done (x : Execution step) (hfair : WeaklyFair x LoopStep) {e n : ℕ}
    (h : Due e (x.state n)) : ∃ m, n ≤ m ∧ Done e (x.state m) :=
  x.leadsTo hfair (r := CLooper.distance)
    (fun _ _ _ h hs => (h.step hs).imp_right fun h => ⟨h.1, h.2.1⟩)
    (fun _ _ _ h hl hs => (h.step hs).imp_right fun h => ⟨h.1, h.2.2 hl⟩)
    (fun _ h => h.enabled) h

/-! ## The result -/

theorem event_buff (args : EventArgs) : args.event.buff = args.pBuff := by
  rcases hp : args.pBuff with _ | b <;> simp only [EventArgs.event, createUvEvent, hp]

/-- Exactly once, first in first out. -/
theorem exactly_once_fifo :
    (∀ s, Reachable step init s →
      s.dispatched.map Dispatch.event ++ s.waiting = s.pushed ∧ s.pushed.Nodup
      ∧ (s.made.map Prod.fst).Nodup
      ∧ (∀ d ∈ s.dispatched, ∃ args, (d.event, args) ∈ s.made ∧ d.target = args.data
        ∧ d.contents = args.event ∧ d.contents.buff = args.pBuff)
      ∧ (∀ u ∈ s.used, ∃ args, (u.1, args) ∈ s.made ∧ u.2.2 = args.event)
      ∧ s.fault = false ∧ s.freed <+: s.dispatched.map Dispatch.event
      ∧ (s.asyncEventHandle.closing = false → s.eventQueue ≠ [] →
        s.asyncEventHandle.asyncSent = true ∨ s.InDrain))
    ∧ ∀ x : Execution step, x.state 0 = init → WeaklyFair x LoopStep →
      (∀ n, (x.state n).asyncEventHandle.closing = false) →
        ∀ n, ∀ e ∈ (x.state n).pushed, ∃ m, n ≤ m ∧ e ∈ (x.state m).freed := by
  refine ⟨fun s hs => ?_, fun x h0 hfair hopen n e he => ?_⟩
  · obtain ⟨hl, hw⟩ := hs.invariant (fun _ _ _ h hs => sound_step h hs) ⟨ledger_init, wakes_init⟩
    refine ⟨hl.order, hl.once, hl.makers, fun d hd => ?_, hl.uses, hl.fault, ?_,
      fun hc hq => hw.wakes hq hc⟩
    · obtain ⟨args, hmade, htarget, hcont⟩ := hl.dispatches d hd
      exact ⟨args, hmade, htarget, hcont, by rw [hcont, event_buff]⟩
    · rcases hc : s.workThread.current with _ | ⟨a, todo⟩
      · rw [hl.idle hc]
      · rcases (hl.busy a todo hc).2 with ⟨ops, -, -, -, hf⟩ | ⟨-, hf⟩
        · rw [← hf]
          exact List.prefix_append _ _
        · rw [hf]
  · obtain ⟨hl, hw⟩ := x.invariant (I := fun s => Ledger s ∧ Wakes s)
      (fun _ _ _ h hs => sound_step h hs) (by rw [h0]; exact ⟨ledger_init, wakes_init⟩) n
    rcases done_or_due hl hw he with (hf | hc) | hdue
    · exact ⟨n, le_refl n, hf⟩
    · exact absurd (hc.symm.trans (hopen n)) (by simp)
    · obtain ⟨m, hm, hf | hc⟩ := due_leadsTo_done x hfair hdue
      · exact ⟨m, hm, hf⟩
      · exact absurd (hc.symm.trans (hopen m)) (by simp)

/-- Two threads send on a client each; the one whose event was made first pushes it last, behind the
wakeup for the other. -/
def twoSends : List Label :=
  [.createEvent 0 ⟨.write, some [1, 2], [], [], .tcpClient 0⟩,
    .createEvent 1 ⟨.write, some [3], [], [], .tcpClient 1⟩, .pushEvent 1, .eventWakeup,
    .pushEvent 0, .drain, .drain, .drain, .drain, .drain, .drain, .drain, .drain, .drain, .drain,
    .eventWakeup, .drain, .drain]

def twoSendsRun : Execution step := .ofRun init twoSends rfl

theorem exactly_once_fifo_twoSends :
    ∀ e < 2, ∃ m, 5 ≤ m ∧ e ∈ (twoSendsRun.state m).freed := by
  intro e he
  refine exactly_once_fifo.2 twoSendsRun rfl (Execution.weaklyFair_ofRun rfl ?_) (fun n => ?_) 5 e
    ((by decide : ∀ e < 2, e ∈ (twoSendsRun.state 5).pushed) e he)
  · rintro _ (rfl | rfl) <;> rfl
  · by_cases hn : n < 18
    · have hall : ∀ n < 18, (twoSendsRun.state n).asyncEventHandle.closing = false := by decide
      exact hall n hn
    · have hend : Runs.run step init twoSends = some (twoSendsRun.state n) :=
        Execution.state_ofRun_end rfl (not_lt.1 hn)
      have hrun : (Runs.run step init twoSends).map (fun s => s.asyncEventHandle.closing)
          = some false := rfl
      rw [hend] at hrun
      exact Option.some.inj hrun

end TestLibuv.CLooper
