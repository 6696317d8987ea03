import TestLibuv.Proofs.ContextOwnership

/-!
# The callbacks of a session

Each session is reported when it is made, then handed packets, then reported closed, and is in the
map under its id from the first callback to the last. A packet is handed on with the session that
its context names, and a close reported for the one that the map has under the context's id; both
are the session whose handle it was.
-/

namespace TestLibuv

open CMem Runs

/-- The session a callback names. -/
def ServerCb.session : ServerCb → Option ℕ
  | .newConn _ a => some a
  | .recv _ a => a
  | .close _ a => some a

namespace CTcpServer

variable {s s' : CTcpServer} {l : Label} {a b : ℕ}

/-- The callbacks that name a session. -/
def callbacksOf (s : CTcpServer) (a : ℕ) : List ServerCb :=
  s.callbacks.filter fun cb => cb.session = some a

/-- What a session that is not closed was told. -/
def story (id : ℤ) (a : ℕ) (packets : List (List UInt8)) : List ServerCb :=
  .newConn id a :: packets.map fun packet => .recv packet (some a)

/-- A session's callbacks are its report, its packets and, once it is deleted, its close, and each
of them finds it in the map under its id. -/
structure Told (s : CTcpServer) : Prop where
  new : ∀ a, s.sessions.next ≤ a → s.callbacksOf a = []
  closed : ∀ a, a < s.sessions.next → ¬ s.sessions.Live a →
    ∃ id packets, s.callbacksOf a = story id a packets ++ [.close id a]
  named : ∀ packet, .recv packet none ∉ s.callbacks
  logged : s.callbacks.length = s.maps.length
  mapped : ∀ cb m (id : ℤ) (a : ℕ), (cb, m) ∈ s.callbacks.zip s.maps →
    cb.session = some a → .newConn id a ∈ s.callbacks → m[id]? = some a

/-- So is a session told of its packets while it is there, and the map has it under its id. -/
structure Protocol (s : CTcpServer) : Prop extends Told s where
  opened : ∀ a, s.sessions.Live a →
    ∃ id packets, s.callbacksOf a = story id a packets ∧ s.clientSessionMap[id]? = some a

theorem mem_callbacksOf {cb : ServerCb} :
    cb ∈ s.callbacksOf a ↔ cb ∈ s.callbacks ∧ cb.session = some a := by
  rw [callbacksOf, List.mem_filter, decide_eq_true_eq]

/-- The id of a session is the one it was reported with. -/
theorem newConn_of_story {id id' : ℤ} {packets : List (List UInt8)}
    (h : s.callbacksOf a = story id a packets) (hin : .newConn id' a ∈ s.callbacks) : id' = id := by
  have hmem : .newConn id' a ∈ s.callbacksOf a := mem_callbacksOf.2 ⟨hin, rfl⟩
  simpa [h, story] using hmem

theorem callbacksOf_append {cbs : List ServerCb} (h : s'.callbacks = s.callbacks ++ cbs) (a : ℕ) :
    s'.callbacksOf a = s.callbacksOf a ++ cbs.filter fun cb => cb.session = some a := by
  rw [callbacksOf, h, List.filter_append, callbacksOf]

theorem Protocol.of_eq (h : Protocol s) (hcb : s'.callbacks = s.callbacks)
    (hnext : s'.sessions.next = s.sessions.next)
    (hlive : ∀ a, s'.sessions.Live a ↔ s.sessions.Live a)
    (hmap : s'.clientSessionMap = s.clientSessionMap) (hmaps : s'.maps = s.maps) :
    Protocol s' where
  new a ha := by
    rw [callbacksOf, hcb]
    exact h.new a (hnext ▸ ha)
  opened a ha := by
    rw [callbacksOf, hcb, hmap]
    exact h.opened a ((hlive a).1 ha)
  closed a ha hdead := by
    rw [callbacksOf, hcb]
    exact h.closed a (hnext ▸ ha) fun hl => hdead ((hlive a).2 hl)
  named := hcb ▸ h.named
  logged := hcb ▸ hmaps ▸ h.logged
  mapped := hcb ▸ hmaps ▸ h.mapped

theorem Protocol.frame (h : Protocol s) (hf : Frame s s') : Protocol s' :=
  h.of_eq hf.callbacks (congrArg Heap.next hf.sessions) (fun a => by rw [hf.sessions]) hf.map
    hf.maps

/-- Callbacks that find a map, where they report none of the sessions that were named before. -/
theorem Protocol.reports (h : Protocol s) {cbs : List ServerCb} {m}
    (hcb : s'.callbacks = s.callbacks ++ cbs) (hmaps : s'.maps = s.maps ++ cbs.map fun _ => m)
    (hold : ∀ (id : ℤ) (a : ℕ), .newConn id a ∈ cbs → s.callbacksOf a = [])
    (hnew : ∀ cb ∈ cbs, ∀ (id : ℤ) (a : ℕ), cb.session = some a →
      .newConn id a ∈ s'.callbacks → m[id]? = some a) :
    s'.callbacks.length = s'.maps.length
      ∧ ∀ cb m (id : ℤ) (a : ℕ), (cb, m) ∈ s'.callbacks.zip s'.maps →
        cb.session = some a → .newConn id a ∈ s'.callbacks → m[id]? = some a := by
  refine ⟨by simp [hcb, hmaps, h.logged], fun cb m' id a hin hsession hid => ?_⟩
  rw [hcb, hmaps, List.zip_append h.logged, List.mem_append] at hin
  rcases hin with hin | hin
  · refine h.mapped cb m' id a hin hsession ?_
    rw [hcb, List.mem_append] at hid
    refine hid.resolve_right fun hid => ?_
    have hmem := mem_callbacksOf.2 ⟨(List.of_mem_zip hin).1, hsession⟩
    simp [hold id a hid] at hmem
  · obtain ⟨hcbs, hm⟩ := List.of_mem_zip hin
    obtain ⟨-, -, rfl⟩ := List.mem_map.1 hm
    exact hnew cb hcbs id a hsession hid

theorem filter_recvs (a b : ℕ) (packets : List (List UInt8)) :
    (packets.map fun packet => ServerCb.recv packet (some a)).filter (fun cb => cb.session = some b)
      = if a = b then packets.map fun packet => .recv packet (some a) else [] := by
  split_ifs with hab
  · rw [List.filter_eq_self]
    simp [ServerCb.session, hab]
  · rw [List.filter_eq_nil_iff]
    simp [ServerCb.session, hab]

/-- A session that is handed packets. -/
theorem Protocol.recv (h : Protocol s) (ha : s.sessions.Live a) (packets : List (List UInt8))
    (hcb : s'.callbacks = s.callbacks ++ packets.map fun packet => .recv packet (some a))
    (hmaps : s'.maps = s.maps
      ++ (packets.map fun packet => ServerCb.recv packet (some a)).map fun _ => s.clientSessionMap)
    (hsessions : s'.sessions = s.sessions) (hmap : s'.clientSessionMap = s.clientSessionMap) :
    Protocol s' := by
  obtain ⟨logged, mapped⟩ := h.reports hcb hmaps (by simp) fun cb hin id b hb hid => by
    obtain ⟨packet, -, rfl⟩ := List.mem_map.1 hin
    obtain rfl := Option.some.inj hb
    obtain ⟨id', old, hstory, hin⟩ := h.opened a ha
    rw [hcb, List.mem_append] at hid
    exact newConn_of_story hstory (hid.resolve_right (by simp)) ▸ hin
  have hother : ∀ b, b ≠ a → s'.callbacksOf b = s.callbacksOf b := by
    intro b hba
    rw [callbacksOf_append hcb, filter_recvs, if_neg (Ne.symm hba), List.append_nil]
  refine ⟨⟨fun b hb => ?_, fun b hb hdead => ?_, fun packet => ?_, logged, mapped⟩, fun b hb => ?_⟩
  · rw [hsessions] at hb
    rw [hother b (ha.lt_next.trans_le hb).ne']
    exact h.new b hb
  · rw [hsessions] at hb hdead
    rw [hother b fun hba => hdead (hba ▸ ha)]
    exact h.closed b hb hdead
  · rw [hcb, List.mem_append]
    rintro (hin | hin)
    · exact h.named packet hin
    · simp at hin
  · rw [hsessions] at hb
    rw [hmap]
    by_cases hba : b = a
    · subst hba
      obtain ⟨id, old, hold, hin⟩ := h.opened b hb
      refine ⟨id, old ++ packets, ?_, hin⟩
      rw [callbacksOf_append hcb, filter_recvs, if_pos rfl, hold, story, story, List.map_append,
        List.cons_append]
    · rw [hother b hba]
      exact h.opened b hb

/-- A session that is made, under an id that is not in use. -/
theorem Protocol.accept (h : Protocol s) (id : ℤ) (hnext : s'.sessions.next = s.sessions.next + 1)
    (hlive : ∀ a, s'.sessions.Live a ↔ a = s.sessions.next ∨ s.sessions.Live a)
    (hcb : s'.callbacks = s.callbacks ++ [.newConn id s.sessions.next])
    (hmaps : s'.maps = s.maps ++ [s'.clientSessionMap])
    (hnew : s'.clientSessionMap[id]? = some s.sessions.next)
    (hold : ∀ (id : ℤ) (a : ℕ), s.clientSessionMap[id]? = some a →
      s'.clientSessionMap[id]? = some a) :
    Protocol s' := by
  have hself : s'.callbacksOf s.sessions.next = story id s.sessions.next [] := by
    rw [callbacksOf_append hcb, h.new _ le_rfl]
    simp [ServerCb.session, story]
  obtain ⟨logged, mapped⟩ := h.reports hcb hmaps
    (fun id' a hin => by
      simp only [List.mem_singleton, ServerCb.newConn.injEq] at hin
      exact hin.2 ▸ h.new _ le_rfl)
    fun cb hin id' b hb hid => by
      rw [List.mem_singleton.1 hin] at hb
      obtain rfl := Option.some.inj hb
      exact newConn_of_story hself hid ▸ hnew
  have hother : ∀ b, b ≠ s.sessions.next → s'.callbacksOf b = s.callbacksOf b := by
    intro b hb
    rw [callbacksOf_append hcb]
    simp [ServerCb.session, Ne.symm hb]
  refine ⟨⟨fun b hb => ?_, fun b hb hdead => ?_, fun packet => ?_, logged, mapped⟩, fun b hb => ?_⟩
  · rw [hother b (by omega)]
    exact h.new b (by omega)
  · have hb' : b ≠ s.sessions.next := fun hb' => hdead ((hlive b).2 (.inl hb'))
    rw [hother b hb']
    exact h.closed b (by omega) fun hb => hdead ((hlive b).2 (.inr hb))
  · rw [hcb, List.mem_append]
    rintro (hin | hin)
    · exact h.named packet hin
    · simp at hin
  · rcases (hlive b).1 hb with rfl | hb
    · exact ⟨id, [], hself, hnew⟩
    · obtain ⟨id', packets, hcbs, hin⟩ := h.opened b hb
      exact ⟨id', packets, (hother b hb.lt_next.ne).trans hcbs, hold _ _ hin⟩

/-- What the report of a session's close adds to the callbacks. -/
structure Closes (s s' : CTcpServer) (id : ℤ) (a : ℕ) : Prop where
  mapped : s.clientSessionMap[id]? = some a
  callbacks : s'.callbacks = s.callbacks ++ [.close id a]
  maps : s'.maps = s.maps ++ [s.clientSessionMap]

theorem Closes.other {id : ℤ} (hc : Closes s s' id a) {b : ℕ} (hb : b ≠ a) :
    s'.callbacksOf b = s.callbacksOf b := by
  rw [callbacksOf_append hc.callbacks]
  simp [ServerCb.session, Ne.symm hb]

/-- The close is the last callback of the session, which was told of under the same id. -/
theorem Closes.self {id : ℤ} (hc : Closes s s' id a) (h : Protocol s) (ha : s.sessions.Live a)
    (hid : ∀ id' : ℤ, s.clientSessionMap[id']? = some a → id' = id) : ∃ packets,
      s.callbacksOf a = story id a packets
        ∧ s'.callbacksOf a = story id a packets ++ [.close id a] := by
  obtain ⟨id', packets, hstory, hin⟩ := h.opened a ha
  obtain rfl := hid id' hin
  refine ⟨packets, hstory, ?_⟩
  rw [callbacksOf_append hc.callbacks, hstory]
  simp [ServerCb.session]

/-- So are the sessions told of where a close is reported, be the session deleted yet or not. -/
theorem Closes.told {id : ℤ} (hc : Closes s s' id a) (h : Protocol s) (ha : s.sessions.Live a)
    (hid : ∀ id' : ℤ, s.clientSessionMap[id']? = some a → id' = id)
    (hnext : s'.sessions.next = s.sessions.next)
    (hlive : ∀ b, b ≠ a → (s'.sessions.Live b ↔ s.sessions.Live b)) : Told s' := by
  obtain ⟨packets, hstory, hself⟩ := hc.self h ha hid
  obtain ⟨logged, mapped⟩ := h.reports hc.callbacks hc.maps (by simp)
      fun cb hcbs id' b hb hid' => by
    rw [List.mem_singleton.1 hcbs] at hb
    obtain rfl := Option.some.inj hb
    rw [hc.callbacks, List.mem_append] at hid'
    exact newConn_of_story hstory (hid'.resolve_right (by simp)) ▸ hc.mapped
  refine ⟨fun b hb => ?_, fun b hb hdead => ?_, fun packet => ?_, logged, mapped⟩
  · rw [hnext] at hb
    rw [hc.other (ha.lt_next.trans_le hb).ne']
    exact h.new b hb
  · by_cases hba : b = a
    · subst hba
      exact ⟨id, packets, hself⟩
    · rw [hc.other hba]
      exact h.closed b (hnext ▸ hb) fun hb => hdead ((hlive b hba).2 hb)
  · rw [hc.callbacks, List.mem_append]
    rintro (hin | hin)
    · exact h.named packet hin
    · simp at hin

/-- A session that is reported closed and deleted under its id. -/
theorem Closes.protocol {id : ℤ} (hc : Closes s s' id a) (h : Protocol s) (ha : s.sessions.Live a)
    (hid : ∀ id' : ℤ, s.clientSessionMap[id']? = some a → id' = id)
    (hnext : s'.sessions.next = s.sessions.next)
    (hlive : ∀ b, s'.sessions.Live b ↔ b ≠ a ∧ s.sessions.Live b)
    (hmap : s'.clientSessionMap = s.clientSessionMap.erase id) : Protocol s' where
  toTold := hc.told h ha hid hnext fun b hb => by simp [hlive, hb]
  opened b hb := by
    obtain ⟨hba, hb⟩ := (hlive b).1 hb
    obtain ⟨id', old, hold, hin⟩ := h.opened b hb
    refine ⟨id', old, (hc.other hba).trans hold, ?_⟩
    rw [hmap, getElem?_eraseSession, if_neg, hin]
    rintro rfl
    rw [hc.mapped] at hin
    exact hba (Option.some.inj hin).symm

theorem protocol_started (packhead : UInt32) : Protocol (started packhead) where
  new _ _ := rfl
  opened a ha := by simp [started, Heap.empty, Heap.Live] at ha
  closed a ha := by simp [started, Heap.empty] at ha
  named := by simp [started]
  logged := rfl
  mapped := by simp [started]

theorem protocol_step (ho : Owners s) (ho' : Owners s') (h : Protocol s)
    (hs : step s l = some s') (hlt : s'.accepted.length < 2 ^ 31) : Protocol s' := by
  obtain ⟨-, ht⟩ := step_trans hs
  cases ht with
  | deadTarget _ _ _ | inCall => exact h.of_eq rfl rfl (fun _ => .rfl) rfl rfl
  | moves hm => exact h.frame hm.frame
  | push hm _ | pop hm => exact (h.frame hm.frame).of_eq rfl rfl (fun _ => .rfl) rfl rfl
  | giveBack _ htake _ _ =>
    have htaken := taken_takeCtx htake
    exact h.of_eq htaken.callbacks (congrArg Heap.next htaken.sessions)
      (fun a => iff_of_eq (congrArg (Heap.Live · a) htaken.sessions)) htaken.map htaken.maps
  | @accept c r t x htake hx _ _ =>
    have htaken := taken_takeCtx htake
    set u := { t with inits := s.inits ++ [x.sessionTcpHandle.phase], conns := s.conns + 1 } with hu
    have hsessions : u.sessions = s.sessions := htaken.sessions
    refine h.accept u.createSessionId ?_ (fun a => ?_) ?_ ?_ ?_ fun id a ha => ?_
    · show u.sessions.next + 1 = _
      rw [hsessions]
    · show (u.sessions.alloc ⟨c, false⟩).Live a ↔ _
      rw [Heap.live_alloc, hsessions]
    · show u.callbacks ++ [.newConn u.createSessionId u.sessions.next] = _
      rw [hsessions, show u.callbacks = s.callbacks from htaken.callbacks]
    · show u.maps ++ [_] = _
      rw [show u.maps = s.maps from htaken.maps]
      rfl
    · rw [← hsessions]
      exact (ho'.full hlt).mapped _ ⟨c, false⟩ _ (Heap.cells_alloc.trans (if_pos rfl))
        ((cells_setCtx (s := u) hx _ c).trans (if_pos rfl))
    · show (u.clientSessionMap.insertIfNew u.createSessionId u.sessions.next)[id]? = _
      rw [show u.clientSessionMap = s.clientSessionMap from htaken.map,
        getElem?_insertSession, if_neg, ha]
      rintro ⟨rfl, hnew⟩
      simp [ha] at hnew
  | @recv c data x y a p packet log hx hr ha hp hy hrecv =>
    obtain ⟨z, hz⟩ := ho.tied.paired a p hp
    obtain rfl := Option.some.inj (hz.ctx.symm.trans hy)
    refine h.recv (Heap.live_of_cells hp) (packet.delivered log) ?_ ?_ rfl rfl <;>
      rw [← hz.parentClientSession] <;> rfl
  | closedAlone hm _ _ _ _ _ =>
    exact (h.frame hm.frame).of_eq rfl rfl (fun a => Heap.live_modify) rfl rfl
  | @sessionEnds c v x a b p q hx he _ ha hp hpc hmap hq hcl hv =>
    obtain rfl := ho.owned.ends_self hmap hq hcl
    obtain ⟨-, hsessions, -⟩ := recycle_frame hv
    have hkept : v.clientSessionMap = s.clientSessionMap
        ∧ v.callbacks = s.callbacks ++ [.close x.clientid b]
        ∧ v.maps = s.maps ++ [s.clientSessionMap] := by
      rcases recycle_cases hv with ⟨-, rfl⟩ | ⟨rfl, -⟩ <;> exact ⟨rfl, rfl, rfl⟩
    refine Closes.protocol ⟨hmap, hkept.2.1, hkept.2.2⟩ h (Heap.live_of_cells hp)
      (fun id hid => ?_) ?_ (fun d => ?_) (by rw [← hkept.1])
    · obtain ⟨p', x', hm⟩ := ho.owned.mapped id b hid
      exact hm.of_handle hp hpc hx
    · show v.sessions.next = _
      rw [hsessions]
      rfl
    · show (v.sessions.free b).Live d ↔ _
      rw [hsessions, Heap.live_free]
      exact and_congr_right fun _ => Heap.live_modify

theorem protocol_of_run {as : List Label} {packhead : UInt32}
    (hr : run step (started packhead) as = some s) (hlt : s.accepted.length < 2 ^ 31) :
    Protocol s := by
  refine (invariant (I := fun s => Owners s ∧ (s.accepted.length < 2 ^ 31 → Protocol s))
    (fun s l s' h hs => ?_) ⟨owners_started packhead, fun _ => protocol_started packhead⟩ hr).2 hlt
  have ho' := owners_step h.1 hs
  exact ⟨ho', fun hlt =>
    protocol_step h.1 ho' (h.2 ((accepted_step hs).trans_lt hlt)) hs hlt⟩

end CTcpServer

end TestLibuv
