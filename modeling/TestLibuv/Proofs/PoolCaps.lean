import TestLibuv.Proofs.IdleContexts
import TestLibuv.Proofs.WriteParams

/-!
# How long the lists of the pools get

The contexts and the `write_param`s wait on lists for their next use. What is put on one behind
having been taken from it needs no test; a session that ends and a write that is done put on theirs
what was lent out, unless it is longer than `MAXLISTSIZE`. So either list gets to `MAXLISTSIZE + 1`,
and beyond `MAXLISTSIZE` only from there.
-/

namespace TestLibuv.CTcpServer

open CMem Runs

variable {s s' t : CTcpServer} {l : Label} {c n : ℕ}

/-- The step is the close callback of a session's handle, and the context of what it finds in the
map is recycled. -/
def Recycles (s : CTcpServer) : Label → Prop
  | .handleClosed c => ∃ x b, s.ctxs.cells c = some x ∧ x.afterClientClose = true
    ∧ s.clientSessionMap[x.clientid]? = some b
  | _ => False

/-! ## The contexts -/

theorem idle_takeCtx (ht : s.takeCtx = (c, t)) :
    t.idleTcpClientCtxList = s.idleTcpClientCtxList.tail := by
  rcases takeCtx_cases ht with ⟨hi, -, rfl⟩ | ⟨rest, hi, rfl⟩
  · simp [hi]
  · simp [hi]

theorem idle_step (hs : step s l = some s') (hn : Recycles s l →
    s.idleTcpClientCtxList.length ≤ maxListSize → s.idleTcpClientCtxList.length < n) :
    FreeStep n s.idleTcpClientCtxList s'.idleTcpClientCtxList := by
  obtain ⟨-, ht⟩ := step_trans hs
  cases ht with
  | deadTarget _ _ _ | inCall | recv _ _ _ _ _ _ => exact .keep
  | moves hm | push hm _ | pop hm | closedAlone hm _ _ _ _ _ =>
    have hidle := hm.frame.idle
    exact hidle ▸ .keep
  | @giveBack c r t x x' n inits errmsg htake _ _ =>
    show FreeStep _ _ (t.idleTcpClientCtxList ++ [c])
    rw [idle_takeCtx htake]
    exact .takeBack c
  | @accept c r t x htake _ _ _ =>
    show FreeStep _ _ t.idleTcpClientCtxList
    rw [idle_takeCtx htake]
    exact .take
  | @sessionEnds c v x a b p q hx _ hcb _ _ _ hmap _ _ hv =>
    rcases recycle_cases hv with ⟨hle, rfl⟩ | ⟨rfl, -⟩
    · exact .giveBack _ (hn ⟨x, b, hx, hcb, hmap⟩ hle)
    · exact .keep

/-! ## The `write_param`s -/

theorem params_takeParam {w : ℕ} (ht : s.takeParam = (w, t)) :
    t.writeparamList = s.writeparamList.tail := by
  unfold takeParam at ht
  split at ht
  · rename_i hlist
    obtain ⟨-, rfl⟩ := Prod.mk.inj ht
    simp [hlist]
  · rename_i v rest hlist
    obtain ⟨-, rfl⟩ := Prod.mk.inj ht
    simp [hlist]

theorem params_sendinl {buff : List UInt8} {res : ℤ} {b : Bool}
    (h : s.sendinl buff c res = .ok (b, s')) : FreeStep n s.writeparamList s'.writeparamList := by
  obtain ⟨w, t, p, base, x, ht, -, -, -, hs⟩ := sendinl_spec h
  rcases hs with ⟨-, rfl⟩ | ⟨-, -, rfl⟩
  · show FreeStep _ _ (t.writeparamList ++ [w])
    rw [params_takeParam ht]
    exact .takeBack w
  · show FreeStep _ _ t.writeparamList
    rw [params_takeParam ht]
    exact .take

theorem Moves.params (hm : Moves l s s') (hl : ∀ c i, l ≠ .afterSend c i) :
    FreeSteps n s.writeparamList s'.writeparamList := by
  induction hm with
  | refl => exact .refl
  | tail _ hm ih =>
    rcases hm.writes with hsame | ⟨a, p, buff, res, b, -, hsend⟩ | ⟨c, i, x, w, hld, -⟩
    · exact hsame.list ▸ ih
    · exact ih.tail (params_sendinl hsend)
    · exact absurd hld (hl c i)

theorem freeSteps_step (ho : Owners s) (h : Params s) (hs : step s l = some s')
    (hn : ∀ c i, l = .afterSend c i → s.writeparamList.length ≤ maxListSize →
      s.writeparamList.length < n) : FreeSteps n s.writeparamList s'.writeparamList := by
  by_cases hl : ∀ c i, l ≠ .afterSend c i
  · obtain ⟨t, hm, hsame⟩ := moves_sameWrites ho h hs
    exact hsame.list ▸ Moves.params hm hl
  · simp only [not_forall, not_not] at hl
    obtain ⟨c, i, rfl⟩ := hl
    obtain ⟨x, w, -, -, hsent⟩ := h.afterSend_step hs
    rcases CTcpClientSession.afterSend_spec hsent with ⟨-, rfl⟩ | ⟨hle, rfl⟩
    · exact .refl
    · exact .single (.giveBack w (hn c i rfl hle))

/-! ## The cap -/

/-- Neither list is longer than `MAXLISTSIZE`. A destructor that waits forever does so once the
context of its session was recycled, which the state before that call does not show. -/
structure Capped (s : CTcpServer) : Prop where
  idle : s.idleTcpClientCtxList.length ≤ maxListSize
  params : s.writeparamList.length ≤ maxListSize
  waits : ∀ a, s.fault = some (.inCall (.destructorWaits a)) →
    s.idleTcpClientCtxList.length < maxListSize

/-- What a step puts on a list that it did not take from it finds the list not as long as
`MAXLISTSIZE`. -/
structure HasRoom (s : CTcpServer) (l : Label) : Prop where
  idle : Recycles s l → s.idleTcpClientCtxList.length ≠ maxListSize
  params : ∀ c i, l = .afterSend c i → s.writeparamList.length ≠ maxListSize

/-- A close callback that fails, not mildly, has come to recycle a context. -/
theorem recycles_of_fails {f : CallFault} (hf : s.act (.handleClosed c) = some (.error f))
    (hwild : ¬ f.Mild) : Recycles s (.handleClosed c) := by
  obtain ⟨x, hx, hr⟩ := Option.bind_eq_some_iff.1 hf
  split_ifs at hr with he hcb
  · rcases hmap : s.clientSessionMap[x.clientid]? with _ | b
    · have hmild : FailsMildly (CTcpClientSession.afterClientClose (s.setCtx c { x with
          sessionTcpHandle := x.sessionTcpHandle.finish }) c x) := by
        refine (failsMildly_follow _ _).bind fun r => ?_
        dsimp only
        split_ifs
        · unfold cTcpClientSessionHandleClose
          rw [show (s.setCtx c _).clientSessionMap[x.clientid]? = none from hmap]
          exact failsMildly_ok _
        · exact failsMildly_ok _
      exact absurd (hmild f (Option.some.inj hr)) hwild
    · exact ⟨x, b, hx, hcb, hmap⟩
  · cases Option.some.inj hr

theorem takeCtx_fault (ht : s.takeCtx = (c, t)) : t.fault = s.fault := by
  rcases takeCtx_cases ht with ⟨-, -, rfl⟩ | ⟨rest, -, rfl⟩ <;> rfl

/-- A fault in a call is the call's, and all that the step leaves behind. -/
theorem fails_of_fault (hs : step s l = some s') {f : CallFault}
    (hf : s'.fault = some (.inCall f)) :
    Fails s l f ∧ s' = { s with fault := some (.inCall f) } := by
  obtain ⟨hnone, ht⟩ := step_trans hs
  have hsame : s'.fault ≠ s.fault := by
    rw [hf, hnone]
    exact Option.some_ne_none _
  cases ht with
  | deadTarget _ _ _ => cases hf
  | inCall hfails =>
    obtain rfl := ServerFault.inCall.inj (Option.some.inj hf)
    exact ⟨hfails, rfl⟩
  | recv _ _ _ _ _ _ => exact absurd rfl hsame
  | moves hm | push hm _ | pop hm | closedAlone hm _ _ _ _ _ => exact absurd hm.frame.fault hsame
  | giveBack _ htake _ _ | accept htake _ _ _ => exact absurd (takeCtx_fault htake) hsame
  | sessionEnds _ _ _ _ _ _ _ _ _ hv => exact absurd (recycle_frame hv).2.2 hsame

/-- A destructor waits where the close callback has come to recycle a context. -/
theorem recycles_of_waits (ho : Owners s) {a : ℕ} (hf : Fails s l (.destructorWaits a)) :
    Recycles s l := by
  cases hf with
  | dispatch hd => exact False.elim (failsMildly_dispatch s _ _ _ hd)
  | act hact =>
    cases l with
    | handleClosed c => exact recycles_of_fails hact not_false
    | acceptConnection status r =>
      obtain ⟨s', hok⟩ := ho.acceptConnection_ok status r
      simp [act, hok] at hact
    | _ => exact False.elim (failsMildly_act hact ⟨by simp, by simp⟩ _ rfl)

theorem capped_step (ho : Owners s) (hp : Params s) (h : Capped s) (hl : HasRoom s l)
    (hs : step s l = some s') : Capped s' where
  idle := (idle_step hs fun hrec hle => lt_of_le_of_ne hle (hl.idle hrec)).length_le
    (by decide) h.idle
  params := (freeSteps_step ho hp hs fun c i hsent hle =>
    lt_of_le_of_ne hle (hl.params c i hsent)).length_le (by decide) h.params
  waits a hw := by
    obtain ⟨hf, rfl⟩ := fails_of_fault hs hw
    exact lt_of_le_of_ne h.idle (hl.idle (recycles_of_waits ho hf))

theorem not_capped_step (ho : Owners s) (hp : Params s) (h : Capped s) (hl : ¬ HasRoom s l)
    (hs : step s l = some s') : ¬ Capped s' := by
  intro h'
  refine hl ⟨fun hrec hfull => ?_, ?_⟩
  · cases l with
    | handleClosed c =>
      obtain ⟨x, b, hx, hcb, hmap⟩ := hrec
      obtain ⟨r, hr, rfl⟩ := step_act hs (by simp)
      obtain ⟨a, p, -, -, -, rfl⟩ := ho.tied.act_handleClosed hx hcb hr
      obtain ⟨q, y, hm⟩ := ho.owned.mapped _ b hmap
      set u := s.setCtx c { x with sessionTcpHandle := x.sessionTcpHandle.finish }
      have hlive : (s.sessions.modify a fun p => { p with isclosed := true }).Live b :=
        Heap.live_modify.2 (Heap.live_of_cells hm.session)
      obtain ⟨q', hq'⟩ := hlive.cells
      rw [handleClose_short (s := { u with
        sessions := s.sessions.modify a fun p => { p with isclosed := true } }) hmap hq'
        hfull.le] at h'
      split_ifs at h'
      · have hlen : (s.idleTcpClientCtxList ++ [q'.clientSessionCtx]).length ≤ maxListSize := h'.idle
        rw [List.length_append, List.length_singleton] at hlen
        omega
      · -- the destructor waits behind a context that was one too many
        exact absurd (h'.waits b rfl) (by simp [settle, hfull])
    | _ => exact hrec
  · rintro c i rfl hfull
    obtain ⟨x, w, -, -, hsent⟩ := hp.afterSend_step hs
    rcases CTcpClientSession.afterSend_spec hsent with ⟨hlong, -⟩ | ⟨-, rfl⟩
    · exact absurd hlong (not_lt.2 h.params)
    · have hlen : (s.writeparamList ++ [w]).length ≤ maxListSize := h'.params
      rw [List.length_append, List.length_singleton] at hlen
      omega

theorem capped_started (packhead : UInt32) : Capped (started packhead) where
  idle := Nat.zero_le _
  params := Nat.zero_le _
  waits a ha := by simp [started] at ha

/-- The tests keep both lists from growing beyond one more than `MAXLISTSIZE`. -/
theorem lists_le {as : List Label} {packhead : UInt32}
    (hr : run step (started packhead) as = some s) :
    s.idleTcpClientCtxList.length ≤ maxListSize + 1
      ∧ s.writeparamList.length ≤ maxListSize + 1 := by
  have h : (Owners s ∧ Params s) ∧ s.writeparamList.length ≤ maxListSize + 1 := by
    refine invariant (I := fun s => (Owners s ∧ Params s)
      ∧ s.writeparamList.length ≤ maxListSize + 1)
      (fun u l v h hs => ⟨ownersParams_step h.1 hs, ?_⟩)
      ⟨ownersParams_started packhead, Nat.zero_le _⟩ hr
    have hsteps : FreeSteps (maxListSize + 1) u.writeparamList v.writeparamList :=
      freeSteps_step h.1.1 h.1.2 hs fun _ _ _ hle => Nat.lt_succ_of_le hle
    exact hsteps.length_le (Nat.succ_pos _) h.2
  exact ⟨h.1.1.tied.idle_short, h.2⟩

/-- In every state of a run neither list is longer than `MAXLISTSIZE`, exactly if no session ends
and no write is done while the list it puts something on has `MAXLISTSIZE` elements. -/
theorem capped_iff {as : List Label} {packhead : UInt32}
    (hr : run step (started packhead) as = some s) :
    Always step Capped (started packhead) as ↔ Meets step HasRoom (started packhead) as :=
  always_iff_meets (I := fun s => (Owners s ∧ Params s) ∧ Capped s)
    (fun _ _ _ h hl hs => ⟨ownersParams_step h.1 hs, capped_step h.1.1 h.1.2 h.2 hl hs⟩)
    (fun _ h => h.2) (fun _ _ _ h hl hs => not_capped_step h.1.1 h.1.2 h.2 hl hs)
    ⟨ownersParams_started packhead, capped_started packhead⟩ hr

theorem capped_threeSends : ∃ s, run step (started defPackHeadFlag) threeSends = some s
    ∧ (Always step Capped (started defPackHeadFlag) threeSends
      ↔ Meets step HasRoom (started defPackHeadFlag) threeSends) := by
  obtain ⟨s, hs⟩ := Option.isSome_iff_exists.1
    (show (run step (started defPackHeadFlag) threeSends).isSome by decide +kernel)
  exact ⟨s, hs, capped_iff hs⟩

/-- As many messages in flight at once as make the list too long, and then done. -/
def sendsDone : List Label :=
  .acceptConnection 0 ⟨0, 0, 0⟩ :: List.replicate (maxListSize + 1) (.send 0 [1] 0)
    ++ List.replicate (maxListSize + 1) (.afterSend 0 0)

theorem list_overlong : ¬ ∀ (as : List Label) (s : CTcpServer),
    run step (started defPackHeadFlag) as = some s →
      s.idleTcpClientCtxList.length ≤ maxListSize ∧ s.writeparamList.length ≤ maxListSize := by
  intro h
  have hlen : (run step (started defPackHeadFlag) sendsDone).map (·.writeparamList.length)
      = some (maxListSize + 1) := by decide +kernel
  obtain ⟨s, hs, hlen⟩ := Option.map_eq_some_iff.1 hlen
  have hle := (h _ s hs).2
  omega

end TestLibuv.CTcpServer
