import TestLibuv.Proofs.TcpSteps

/-!
# TCP handles over whole runs

Whatever user code does in its callbacks and however the completions come in, each request it gave
is called back once or still waits, the counters of a handle count what it waits for, and each
handle behaves as `UvTcp` has it.
-/

namespace TestLibuv

open Runs

namespace TcpLoop

variable {s s' : TcpLoop} {todo pending handles : List ℕ} {a : ℕ} {l : Label} {ls : List Label}

theorem Sound.act (hs : s.Sound todo pending handles) (ho : s.Obliging l) (hp : l.proper = true)
    (hstep : s.act l = some s') :
    (∃ todo' pending' handles', s'.Sound todo' pending' handles') ∧ s.Moves s' := by
  cases l with
  | init a =>
    rw [TcpLoop.act, Option.some.injEq] at hstep
    obtain ⟨h, hm⟩ := hs.tcpInit ho
    exact hstep ▸ ⟨⟨_, _, _, h⟩, hm⟩
  | connect a req r =>
    rw [TcpLoop.act] at hstep
    split_ifs at hstep with ht
    rw [Option.some.injEq] at hstep
    have hr : r.all Submit.proper = true := by
      rcases r with _ | r
      · rfl
      · exact hp
    obtain ⟨_, h, hm⟩ := hs.tcpConnect ho hr ht
    exact hstep ▸ ⟨⟨_, _, _, h⟩, hm⟩
  | accept a =>
    rw [TcpLoop.act] at hstep
    split_ifs at hstep with ht
    rw [Option.some.injEq] at hstep
    obtain ⟨h, hm⟩ := hs.accept ho (by simpa using ht)
    exact hstep ▸ ⟨⟨_, _, _, h⟩, hm⟩
  | readStart a r =>
    rw [TcpLoop.act, Option.some.injEq] at hstep
    obtain ⟨_, h, hm⟩ := hs.readStart ho hp
    exact hstep ▸ ⟨⟨_, _, _, h⟩, hm⟩
  | write a req r =>
    rw [TcpLoop.act, Option.some.injEq] at hstep
    obtain ⟨_, h, hm⟩ := hs.write ho hp
    exact hstep ▸ ⟨⟨_, _, _, h⟩, hm⟩
  | shutdown a req =>
    rw [TcpLoop.act, Option.some.injEq] at hstep
    obtain ⟨h, hm⟩ := hs.shutdown ho
    exact hstep ▸ ⟨⟨_, _, _, h⟩, hm⟩
  | close a cb =>
    rw [TcpLoop.act, Option.some.injEq] at hstep
    obtain ⟨h, hm⟩ := hs.close ho
    exact hstep ▸ ⟨⟨_, _, _, h⟩, hm⟩
  | poll done =>
    rw [TcpLoop.act] at hstep
    split_ifs at hstep with hd
    rw [Option.some.injEq] at hstep
    obtain ⟨-, -, -, -, hnodup, hmem⟩ := hd
    obtain ⟨h, hm⟩ := hs.poll hnodup hmem hp
    exact hstep ▸ ⟨⟨_, _, _, h⟩, .inl hm⟩
  | beginPass =>
    rw [TcpLoop.act] at hstep
    split_ifs at hstep with hd
    obtain ⟨⟨p, q⟩, hb, rfl⟩ := Option.map_eq_some_iff.1 hstep
    obtain ⟨h, hm⟩ := hs.beginPass hd.2 hb
    exact ⟨⟨_, _, _, h⟩, .inl hm⟩
  | round res =>
    rw [TcpLoop.act] at hstep
    split_ifs at hstep with hidle
    obtain ⟨p, hpass, rfl⟩ := Option.map_eq_some_iff.1 hstep
    obtain ⟨⟨_, h⟩, hm⟩ := hs.processReq hidle hpass res
    exact ⟨⟨_, _, _, h⟩, hm⟩
  | recv r =>
    rw [TcpLoop.act] at hstep
    rcases hw : s.work with _ | (b | ⟨b, again⟩ | b | b) <;> rw [hw] at hstep <;>
      simp only [reduceCtorEq] at hstep
    split_ifs at hstep with hread
    rw [Option.some.injEq] at hstep
    obtain ⟨h, hm⟩ := hs.recv hw (Bool.and_eq_true_iff.1 hread).2 hp
    exact hstep ▸ ⟨⟨_, _, _, h⟩, hm⟩
  | proceed r =>
    obtain ⟨w, hw, hstep⟩ := Option.bind_eq_some_iff.1 hstep
    split_ifs at hstep
    rw [Option.some.injEq] at hstep
    obtain ⟨_, h, hm⟩ := hs.proceed hw hp
    exact hstep ▸ ⟨⟨_, _, _, h⟩, hm⟩
  | endgame res =>
    rw [TcpLoop.act] at hstep
    split_ifs at hstep with hidle
    obtain ⟨⟨_, h⟩, hm⟩ := hs.processEndgame hidle.1 hstep
    exact ⟨⟨_, _, _, h⟩, hm⟩

/-- Every step keeps what holds, and is a step of one handle at most. -/
theorem Sound.step (hs : s.Sound todo pending handles) (ho : s.Obliging l)
    (hstep : s.step l = some s') :
    (∃ todo' pending' handles', s'.Sound todo' pending' handles') ∧ s.Moves s' := by
  rw [TcpLoop.step] at hstep
  split_ifs at hstep with hp
  exact hs.act ho hp hstep

/-- The events of one handle, in order. -/
def events (s : TcpLoop) (a : ℕ) : List TcpEvent := s.trace.filter fun e => e.handle = a

/-- Every handle has behaved as `UvTcp` says. -/
def Traced (s : TcpLoop) : Prop :=
  ∀ a, run UvTcp.event none (s.events a) = some (s.uvTcp a)

theorem Traced.move (ht : s.Traced) (hm : s.Moves s') : s'.Traced := by
  intro a
  rcases hm with ⟨htrace, hsame⟩ | ⟨e, htrace, hother, hevent⟩
  · rw [events, htrace, hsame]
    exact ht a
  · rw [events, htrace]
    exact run_filter_concat ht hother hevent a

theorem sound_init : init.Sound [] [] [] where
  table := HandleTable.sound_init
  census := {
    reqs := ⟨TailQueue.queue_nil, fun p hp => by simp [init] at hp, fun _ => rfl, .nil⟩
    nodup := .nil
    busy := .nil
    user := fun r hr => by simp [init] at hr
    under := fun r hr => by simp [init] at hr
    reads := fun r hr => by simp [init, flight] at hr
    ofHandle := fun a ha => by simp at ha
    status := fun r => rfl
    activeReqs := rfl
    account := .nil }
  ok a ha := by simp at ha
  queued a ha := by simp [init, HandleTable.init] at ha
  work w hw := by simp [init] at hw
  shut a _ := ⟨rfl, rfl⟩

theorem traced_init : init.Traced := fun _ => rfl

theorem sound_of_run (ho : Meets step Obliging init ls) (hr : run step init ls = some s) :
    (∃ todo pending handles, s.Sound todo pending handles) ∧ s.Traced :=
  invariant_of_meets
    (I := fun s : TcpLoop => (∃ todo pending handles, s.Sound todo pending handles) ∧ s.Traced)
    (fun _ _ _ ⟨⟨_, _, _, hs⟩, ht⟩ ho hstep =>
      let ⟨hs', hm⟩ := hs.step ho hstep
      ⟨hs', ht.move hm⟩)
    ⟨⟨[], [], [], sound_init⟩, traced_init⟩ ho hr

/-! ## What holds at the end of a run -/

instance decidableObliging : ∀ (s : TcpLoop) (l : Label), Decidable (s.Obliging l)
  | s, .init a => inferInstanceAs (Decidable (a ≠ handleQueueHead
      ∧ ((s.base a).ref = true → (s.base a).closed = true) ∧ a ∉ s.busy))
  | s, .connect a req r => inferInstanceAs (Decidable (r = none
      ∨ ((s.base a).ref = true ∧ (s.base a).closing = false)
        ∧ req ≠ handleQueueHead ∧ ((s.base req).ref = true → (s.base req).closed = true)
        ∧ req ∉ s.busy))
  | s, .accept a => inferInstanceAs (Decidable ((s.base a).ref = true ∧ (s.base a).closing = false))
  | s, .readStart a _ => inferInstanceAs (Decidable ((s.tcps a).started = false))
  | s, .write _ req _ | s, .shutdown _ req => inferInstanceAs (Decidable (req ≠ handleQueueHead
      ∧ ((s.base req).ref = true → (s.base req).closed = true) ∧ req ∉ s.busy))
  | s, .close a _ => inferInstanceAs (Decidable ((s.base a).ref = true))
  | _, .poll _ | _, .beginPass | _, .round _ | _, .recv _ | _, .proceed _ | _, .endgame _ =>
    .isTrue trivial

/-- The requests that a handle waits for, of whatever type. -/
def waiting (s : TcpLoop) (a : ℕ) : ℕ := s.busy.countP fun r => (s.reqOf r).handle = a

theorem Sound.waiting_eq (hs : s.Sound todo pending handles) (a : ℕ) (flight : List ℕ) :
    s.waiting a = (s.view flight a).count := by
  have hsplit : ∀ rs : List ℕ, (∀ r ∈ rs, (s.reqOf r).type ≠ .read) →
      rs.countP (fun r => (s.reqOf r).handle = a) = rs.countP (s.waits a .connect)
        + rs.countP (s.waits a .write) + rs.countP (s.waits a .shutdown) := by
    intro rs hrs
    induction rs with
    | nil => rfl
    | cons r rs ih =>
      obtain ⟨hr, hrs⟩ := List.forall_mem_cons.1 hrs
      have htype : (s.reqOf r).type = .connect ∨ (s.reqOf r).type = .write
          ∨ (s.reqOf r).type = .shutdown := by
        rcases ht : (s.reqOf r).type with _ | _ | _ | _ <;> simp [ht] at hr ⊢
      simp only [List.countP_cons, ih hrs, waits]
      rcases htype with ht | ht | ht <;> by_cases ha : (s.reqOf r).handle = a <;>
        simp [ht, ha] <;> omega
  simp only [waiting, TcpView.count, view, own, ← List.countP_eq_length_filter]
  exact hsplit s.busy fun r hr => (hs.census.user r hr).2.2

/-- A handle is connected; in the callback it starts to read, writes two buffers and shuts down. In
the callback of the second write, which was done at once, it is closed. -/
def hastyRun : List Label :=
  [.init 1, .init 2, .connect 1 11 (some .queued), .connect 2 12 (some (.failed (-4039))),
    .poll [(11, 0)], .beginPass, .round 0, .readStart 1 .queued, .write 1 12 .queued,
    .write 1 13 .bypass, .shutdown 1 14, .proceed .queued, .round 0, .endgame 0, .beginPass,
    .round 0, .close 1 (some 9), .proceed .queued, .round 0]

theorem meets_hastyRun : Meets step Obliging init hastyRun := by decide

theorem isSome_hastyRun : (run step init hastyRun).isSome = true := by decide

/-- The loop after that, with a read and a write that the system still has. -/
def hastyLoop : TcpLoop := (run step init hastyRun).get isSome_hastyRun

theorem run_hastyRun : run step init hastyRun = some hastyLoop := (Option.some_get _).symm

/-- The requests that user code gave are those that were called back and those that still wait, once
each. One that waits is with the system or to be processed, in one place; or it is a shutdown, which
its handle knows. -/
theorem calledBack_of_run (ho : Meets step Obliging init ls) (hr : run step init ls = some s) :
    (s.trace.filterMap TcpEvent.taken).Perm (s.trace.filterMap TcpEvent.calledBack ++ s.busy)
      ∧ s.busy.Nodup ∧ s.activeReqs = s.busy.length
      ∧ ∃ todo pending, s.reqs.Holds s.pass todo pending
        ∧ (s.kernel ++ (todo ++ pending)).Nodup
        ∧ ∀ req ∈ s.busy, if (s.reqOf req).type = .shutdown then
            req ∉ s.kernel ++ (todo ++ pending)
              ∧ (s.tcps (s.reqOf req).handle).shutdownReq = some req
          else req ∈ s.kernel ++ (todo ++ pending) := by
  obtain ⟨⟨todo, pending, handles, hs⟩, -⟩ := sound_of_run ho hr
  refine ⟨hs.census.account, hs.census.busy, hs.census.activeReqs, todo, pending, hs.census.reqs,
    hs.census.nodup, fun req hreq => ?_⟩
  have hunder := hs.census.under req hreq
  split_ifs with ht
  · refine ⟨fun hin => hunder.1 hin ht, ?_⟩
    have hmem : req ∈ s.own (s.reqOf req).handle .shutdown := mem_own.2 ⟨hreq, rfl, ht⟩
    have hown := (hs.ok _ (hs.census.user req hreq).2.1).shutdowns
    rw [show s.own _ _ = _ from hown] at hmem
    split_ifs at hmem
    · exact absurd hmem List.not_mem_nil
    · exact Option.mem_toList.1 hmem
  · exact hunder.2 ht

theorem calledBack_of_hastyRun :
    (hastyLoop.trace.filterMap TcpEvent.taken).Perm
        (hastyLoop.trace.filterMap TcpEvent.calledBack ++ hastyLoop.busy)
      ∧ hastyLoop.busy.Nodup ∧ hastyLoop.activeReqs = hastyLoop.busy.length
      ∧ ∃ todo pending, hastyLoop.reqs.Holds hastyLoop.pass todo pending
        ∧ (hastyLoop.kernel ++ (todo ++ pending)).Nodup
        ∧ ∀ req ∈ hastyLoop.busy, if (hastyLoop.reqOf req).type = .shutdown then
            req ∉ hastyLoop.kernel ++ (todo ++ pending)
              ∧ (hastyLoop.tcps (hastyLoop.reqOf req).handle).shutdownReq = some req
          else req ∈ hastyLoop.kernel ++ (todo ++ pending) :=
  calledBack_of_run meets_hastyRun run_hastyRun

/-- The counters of a handle that is not closed count what it waits for: its requests, its read
request while it is under way, and the callback that is being made. Reading or a request keeps it
active till it is closing, and once it is closing and waits for nothing its endgame is due. -/
theorem counters_of_run (ho : Meets step Obliging init ls) (hr : run step init ls = some s)
    (hused : (s.base a).ref = true ∧ (s.base a).closed = false) :
    ∃ todo pending, s.reqs.Holds s.pass todo pending
      ∧ (s.tcps a).reqsPending = s.waiting a
        + (if a ∈ s.kernel ++ (todo ++ pending) then 1 else 0)
        + (if s.work.any (fun w => w.handle = a) then 1 else 0)
      ∧ (s.tcps a).writeReqsPending = (s.own a .write).length
        + (if s.work = some (.write a) then 1 else 0)
      ∧ (s.tcps a).activecnt = s.waiting a + (if (s.tcps a).reading then 1 else 0)
      ∧ ((s.base a).closing = false → ((s.base a).active = true ↔ 0 < (s.tcps a).activecnt))
      ∧ ((s.base a).closing = true → (s.tcps a).reqsPending = 0 → a ∈ s.endgameHandles) := by
  obtain ⟨⟨todo, pending, handles, hs⟩, -⟩ := sound_of_run ho hr
  have hok := hs.ok a ((hs.table.mem a).2 hused)
  have hwait := hs.waiting_eq a (s.flight todo pending)
  have htoNat : ∀ b : Bool, b.toNat = if b then 1 else 0 := fun b => by cases b <;> rfl
  refine ⟨todo, pending, hs.census.reqs, ?_, ?_, ?_, hok.active, fun hcl hz => ?_⟩
  · have hpend := hok.reqsPending
    rw [htoNat, htoNat, ← hwait] at hpend
    simpa [view, flight] using hpend
  · have hwrites := hok.writeReqsPending
    have hin : (s.view (s.flight todo pending) a).work.any TcpWork.isWrite = true
        ↔ s.work = some (.write a) := by
      rcases hw : s.work with _ | w
      · simp [view, hw]
      · by_cases hwa : w.handle = a
        · cases w <;> simp_all [view, Option.filter, TcpWork.handle, TcpWork.isWrite]
        · have hne : w ≠ .write a := fun he => hwa (he ▸ rfl)
          simp [view, hw, Option.filter, hwa, hne]
    rw [htoNat] at hwrites
    simp only [hin] at hwrites
    exact hwrites
  · rw [hwait, ← htoNat]
    exact hok.activecnt
  · exact (hs.table.queued a).2 (hok.due hcl hz)

theorem counters_of_hastyRun :
    ∃ todo pending, hastyLoop.reqs.Holds hastyLoop.pass todo pending
      ∧ (hastyLoop.tcps 1).reqsPending = hastyLoop.waiting 1
        + (if 1 ∈ hastyLoop.kernel ++ (todo ++ pending) then 1 else 0)
        + (if hastyLoop.work.any (fun w => w.handle = 1) then 1 else 0)
      ∧ (hastyLoop.tcps 1).writeReqsPending = (hastyLoop.own 1 .write).length
        + (if hastyLoop.work = some (.write 1) then 1 else 0)
      ∧ (hastyLoop.tcps 1).activecnt = hastyLoop.waiting 1
        + (if (hastyLoop.tcps 1).reading then 1 else 0)
      ∧ ((hastyLoop.base 1).closing = false →
        ((hastyLoop.base 1).active = true ↔ 0 < (hastyLoop.tcps 1).activecnt))
      ∧ ((hastyLoop.base 1).closing = true → (hastyLoop.tcps 1).reqsPending = 0 →
        1 ∈ hastyLoop.endgameHandles) :=
  counters_of_run meets_hastyRun run_hastyRun (by decide)

/-- Every handle behaves as the model of the programs has it, whatever the counters, the queue and
the endgames do: its flags and its requests are what its events make of them, and each event is one
that it can take. So its callbacks are made for requests it was given and only once, the shutdown
comes behind every write, it reads only from the start to an error or `uv_close`, and it is closed
once, when no request of it waits. -/
theorem uvTcp_of_run (ho : Meets step Obliging init ls) (hr : run step init ls = some s) (a : ℕ) :
    run UvTcp.event none (s.events a) = some (s.uvTcp a) :=
  (sound_of_run ho hr).2 a

theorem uvTcp_of_hastyRun : run UvTcp.event none (hastyLoop.events 1) = some (hastyLoop.uvTcp 1) :=
  uvTcp_of_run meets_hastyRun run_hastyRun 1

/-- The handle queue has the handles that are initialised and not closed. With fewer than the
counter can count, the loop is alive exactly while a request waits for its callback, a handle reads
or is closing, or an endgame is due. -/
theorem tcpAlive_of_run (ho : Meets step Obliging init ls) (hr : run step init ls = some s) :
    ∃ handles, s.links.Ring handleQueueHead handles
      ∧ (∀ a, a ∈ handles ↔ (s.base a).ref = true ∧ (s.base a).closed = false)
      ∧ (handles.length < 2 ^ 32 → (s.loopAlive = true ↔ s.busy ≠ [] ∨ s.endgameHandles ≠ []
        ∨ ∃ a ∈ handles, (s.base a).closing = true ∨ (s.tcps a).reading = true)) := by
  obtain ⟨⟨todo, pending, handles, hs⟩, -⟩ := sound_of_run ho hr
  refine ⟨handles, hs.table.ring, hs.table.mem, fun hlt => ?_⟩
  have hbusy : s.activeReqs > 0 ↔ s.busy ≠ [] := by
    rw [hs.census.activeReqs, gt_iff_lt, List.length_pos_iff]
  have hends : (∃ a, (s.base a).endgameQueued = true) ↔ s.endgameHandles ≠ [] := by
    rw [← List.isEmpty_eq_false_iff, List.isEmpty_eq_false_iff_exists_mem]
    exact exists_congr fun a => (hs.table.queued a).symm
  have hcounts : ∀ a ∈ handles, (s.base a).counts = true
      ↔ (s.base a).closing = true ∨ (s.base a).closing = false ∧ 0 < (s.tcps a).activecnt := by
    intro a ha
    have href : (s.base a).ref = true := ((hs.table.mem a).1 ha).1
    rcases hcl : (s.base a).closing with _ | _
    · have hact : (s.base a).active = true ↔ 0 < (s.tcps a).activecnt := (hs.ok a ha).active hcl
      simpa [HandleBase.counts, hcl, href] using hact
    · simp [HandleBase.counts, hcl]
  rw [loopAlive, Bool.or_eq_true, decide_eq_true_eq, hbusy, hs.table.alive hlt, hends]
  constructor
  · rintro (h | ⟨a, ha, hc⟩ | h)
    · exact .inl h
    · rcases (hcounts a ha).1 hc with hcl | ⟨-, hpos⟩
      · exact .inr (.inr ⟨a, ha, .inl hcl⟩)
      · have hact := (hs.ok a ha).activecnt
        rw [← hs.waiting_eq] at hact
        have hact : (s.tcps a).activecnt = s.waiting a + (s.tcps a).reading.toNat := hact
        by_cases hon : (s.tcps a).reading = true
        · exact .inr (.inr ⟨a, ha, .inr hon⟩)
        · refine .inl fun hnil => ?_
          simp [waiting, hnil, hon] at hact
          omega
    · exact .inr (.inl h)
  · rintro (h | h | ⟨a, ha, hcl | hon⟩)
    · exact .inl h
    · exact .inr (.inr h)
    · exact .inr (.inl ⟨a, ha, (hcounts a ha).2 (.inl hcl)⟩)
    · refine .inr (.inl ⟨a, ha, (hcounts a ha).2 (.inr ⟨((hs.ok a ha).reading hon).1, ?_⟩)⟩)
      have hact := (hs.ok a ha).activecnt
      have hact : (s.tcps a).activecnt = _ + (s.tcps a).reading.toNat := hact
      rw [hact, hon, Bool.toNat_true]
      omega

theorem tcpAlive_of_hastyRun :
    ∃ handles, hastyLoop.links.Ring handleQueueHead handles
      ∧ (∀ a, a ∈ handles ↔ (hastyLoop.base a).ref = true ∧ (hastyLoop.base a).closed = false)
      ∧ (handles.length < 2 ^ 32 → (hastyLoop.loopAlive = true ↔ hastyLoop.busy ≠ []
        ∨ hastyLoop.endgameHandles ≠ [] ∨ ∃ a ∈ handles,
          (hastyLoop.base a).closing = true ∨ (hastyLoop.tcps a).reading = true)) :=
  tcpAlive_of_run meets_hastyRun run_hastyRun

end TcpLoop

end TestLibuv
