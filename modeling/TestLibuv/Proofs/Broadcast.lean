import TestLibuv.Proofs.WriteParams

/-!
# Broadcasts

The walk of `broadcastinl` over the map takes an id off the list as it meets it, only once. The ids
of a map are distinct, so what is left of the list agrees with the whole of it on the ids that are
still to come, and the walk is a walk over the sessions whose ids are not in the list.
-/

namespace TestLibuv

open CMem Runs

/-- A `std::string` of a 32-bit program. -/
structure StdString where
  bytes : List UInt8
  size_lt : bytes.length < 2 ^ 32

namespace CTcpServer

variable {s s' t : CTcpServer}

/-- `sendinl` of the same bytes to each of some sessions, whatever comes of it. -/
def sendEach (buff : List UInt8) : List (ℤ × ℕ) → List ℤ → CTcpServer →
    Except CallFault CTcpServer
  | [], _, s => .ok s
  | (_, a) :: rest, res, s => do
    let p ← s.session a
    let (_, s) ← s.sendinl buff p.clientSessionCtx (res.headD 0)
    sendEach buff rest res.tail s

/-- The sessions of the map whose ids are not in a list. -/
def addressees (s : CTcpServer) (excludeid : List ℤ) : List (ℤ × ℕ) :=
  s.clientSessionMap.toList.filter fun e => e.1 ∉ excludeid

theorem mem_addressees {excludeid : List ℤ} {id : ℤ} {a : ℕ} :
    (id, a) ∈ s.addressees excludeid ↔ s.clientSessionMap[id]? = some a ∧ id ∉ excludeid := by
  simp [addressees, Std.TreeMap.mem_toList_iff_getElem?_eq_some]

theorem pairwise_addressees (s : CTcpServer) (excludeid : List ℤ) :
    ((s.addressees excludeid).map Prod.fst).Pairwise (· < ·) := by
  rw [List.pairwise_map]
  have hord : s.clientSessionMap.toList.Pairwise fun a b => compare a.1 b.1 = .lt :=
    Std.TreeMap.ordered_keys_toList
  exact (hord.imp fun h => compare_lt_iff_lt.1 h).filter _

/-! ## The walk -/

/-- The list the walk has taken ids off decides as the whole one does, on the ids to come. -/
theorem broadcastLoop_eq (buff : List UInt8) (whole : List ℤ) : ∀ (m : List (ℤ × ℕ))
    (left res : List ℤ) (s : CTcpServer), (m.map Prod.fst).Pairwise (· < ·) →
      (∀ e ∈ m, e.1 ∈ left ↔ e.1 ∈ whole) →
      broadcastLoop buff m left res s = sendEach buff (m.filter fun e => e.1 ∉ whole) res s
  | [], _, _, _, _, _ => rfl
  | (id, a) :: m, left, res, s, hord, hleft => by
    obtain ⟨hlt, hord⟩ := List.pairwise_cons.1 hord
    have hrest : ∀ e ∈ m, e.1 ∈ left ↔ e.1 ∈ whole :=
      fun e he => hleft e (List.mem_cons_of_mem _ he)
    have hid : id ∈ left ↔ id ∈ whole := hleft _ (List.mem_cons_self ..)
    unfold broadcastLoop
    split_ifs with hin
    · have herase : ∀ e ∈ m, e.1 ∈ left.erase id ↔ e.1 ∈ whole := by
        intro e he
        have hne : e.1 ≠ id := (hlt e.1 (List.mem_map_of_mem he)).ne'
        rw [List.mem_erase_of_ne hne, hrest e he]
      rw [broadcastLoop_eq buff whole m _ res s hord herase,
        List.filter_cons_of_neg (by simpa using hid.1 hin)]
    · rw [List.filter_cons_of_pos (by simpa using fun h => hin (hid.2 h))]
      simp only [sendEach]
      congr! 2 with p
      congr! 2 with r
      exact broadcastLoop_eq buff whole m left _ r.2 hord hrest

theorem broadcastinl_eq (s : CTcpServer) (buff : List UInt8) (excludeid res : List ℤ) :
    s.broadcastinl buff excludeid res = sendEach buff (s.addressees excludeid) res s := by
  refine broadcastLoop_eq buff excludeid _ excludeid res s ?_ fun e _ => Iff.rfl
  rw [List.pairwise_map]
  have hord : s.clientSessionMap.toList.Pairwise fun a b => compare a.1 b.1 = .lt :=
    Std.TreeMap.ordered_keys_toList
  exact hord.imp fun h => compare_lt_iff_lt.1 h

/-! ## The sends -/

/-- The context whose handle `uv_write` is given the bytes for the session at an address on, if it
takes them, which the result it is to have decides where the handle is writable. -/
def takenBy (s : CTcpServer) (a : ℕ) (res : ℤ) : Option ℕ :=
  (s.sessions.cells a).bind fun p => (s.ctxs.cells p.clientSessionCtx).bind fun x =>
    if x.sessionTcpHandle.writable ∧ res = 0 then some p.clientSessionCtx else none

/-- What `uv_write` takes if each of some sessions is sent the same bytes, each one decided on as
the server stands now. -/
def taken (s : CTcpServer) (buff : List UInt8) : List (ℤ × ℕ) → List ℤ → List (ℕ × List UInt8)
  | [], _ => []
  | (_, a) :: rest, res =>
    (s.takenBy a (res.headD 0)).toList.map (·, buff) ++ s.taken buff rest res.tail

theorem taken_congr (h : ∀ a res, t.takenBy a res = s.takenBy a res) (buff : List UInt8) :
    ∀ (m : List (ℤ × ℕ)) (res : List ℤ), t.taken buff m res = s.taken buff m res
  | [], _ => rfl
  | (id, a) :: m, res => by
    simp only [taken, h]
    rw [taken_congr h buff m]

theorem sendinl_eq {buff : List UInt8} {c : ℕ} {res : ℤ} {b : Bool} {x : TcpSessionCtx}
    (h : s.sendinl buff c res = .ok (b, t)) (hx : s.ctxs.cells c = some x) :
    b = true ↔ x.sessionTcpHandle.writable = true ∧ res = 0 := by
  unfold sendinl at h
  rcases ht : s.takeParam with ⟨w, u⟩
  have hctxs : u.ctxs = s.ctxs := by simpa [ht] using takeParam_ctxs s
  rw [ht] at h
  obtain ⟨p, -, h⟩ := bind_eq_ok h
  dsimp only at h
  rcases hm : memcpy (p.buf.reserve (toU32 buff.length)).base 0 buff with f | base <;>
    simp only [hm] at h
  · exact absurd h throw_ne_ok
  obtain ⟨y, hy, h⟩ := bind_eq_ok h
  obtain rfl : y = x := Option.some.inj ((ctx_eq_ok hy).symm.trans (hctxs ▸ hx))
  rw [← y.sessionTcpHandle.write_eq_zero_iff w res]
  split_ifs at h with hne
  · obtain ⟨rfl, -⟩ := Prod.mk.inj (Except.ok.inj h)
    simp [hne]
  · obtain ⟨rfl, -⟩ := Prod.mk.inj (Except.ok.inj h)
    simpa using hne

/-- A `sendinl` to one session changes nothing that decides on the sends to the sessions. -/
theorem takenBy_sendinl {buff : List UInt8} {c : ℕ} {res : ℤ} {b : Bool}
    (h : s.sendinl buff c res = .ok (b, t)) (a : ℕ) (r : ℤ) : t.takenBy a r = s.takenBy a r := by
  unfold takenBy
  rw [(frame_sendinl h).sessions]
  rcases s.sessions.cells a with _ | p
  · rfl
  obtain ⟨w, u, q, base, x, htake, -, -, hx, hout⟩ := sendinl_spec h
  have hctxs : u.ctxs = s.ctxs := by simpa [htake] using takeParam_ctxs s
  rcases hout with ⟨-, rfl⟩ | ⟨-, -, rfl⟩
  · simp [hctxs]
  · show Option.bind ((u.setCtx c _).ctxs.cells p.clientSessionCtx) _ = _
    rw [cells_setCtx hx, ← hctxs]
    split_ifs with hc
    · simp [hc, hx]
    · rfl

/-- `sendinl` for a session adds what `uv_write` takes, and nothing where it fails. -/
theorem writes_sendinl {buff : List UInt8} {a : ℕ} {p : CTcpClientSession} {res : ℤ} {b : Bool}
    {x : TcpSessionCtx} (hlen : buff.length < 2 ^ 32) (hp : s.sessions.cells a = some p)
    (hx : s.ctxs.cells p.clientSessionCtx = some x)
    (h : s.sendinl buff p.clientSessionCtx res = .ok (b, t)) :
    t.writes = s.writes ++ (s.takenBy a res).toList.map (·, buff) := by
  have hb := sendinl_eq h hx
  have htaken : s.takenBy a res = if b = true then some p.clientSessionCtx else none := by
    simp [takenBy, hp, hx, hb]
  obtain ⟨w, u, q, base, y, htake, -, hm, hy, hout⟩ := sendinl_spec h
  have hwrites : u.writes = s.writes := by
    unfold takeParam at htake
    split at htake <;> (obtain ⟨-, rfl⟩ := Prod.mk.inj htake; rfl)
  rcases hout with ⟨rfl, rfl⟩ | ⟨rfl, -, rfl⟩
  · simp [htaken, hwrites]
  · simp [htaken, hwrites, take_memcpy hlen hm]

/-- Sends to sessions that are alive: each one's outcome is what it would be if it were the only
one. -/
theorem sendEach_writes {buff : List UInt8} (hlen : buff.length < 2 ^ 32) :
    ∀ (m : List (ℤ × ℕ)) (res : List ℤ) {s : CTcpServer}, Tied s → Params s →
      (∀ e ∈ m, s.sessions.Live e.2) →
      ∃ t, sendEach buff m res s = .ok t ∧ t.writes = s.writes ++ s.taken buff m res
  | [], _, s, _, _, _ => ⟨s, rfl, by simp [taken]⟩
  | (id, a) :: m, res, s, ht, h, hm => by
    obtain ⟨p, hp⟩ := (hm _ (List.mem_cons_self ..)).cells
    obtain ⟨x, hx⟩ := ht.paired a p hp
    obtain ⟨⟨b, u⟩, hsend⟩ := h.sendinl_ok hlen hx.ctx (res.headD 0)
    have hmove : Move s .asyncCB u := .write hp rfl hsend
    have hlive : ∀ e ∈ m, u.sessions.Live e.2 := fun e he => by
      rw [hmove.frame.sessions]
      exact hm e (List.mem_cons_of_mem _ he)
    obtain ⟨t, hloop, hwrites⟩ :=
      sendEach_writes hlen m res.tail (ht.move hmove) (h.move ht hmove) hlive
    refine ⟨t, ?_, ?_⟩
    · simp only [sendEach, session_of_cells hp, bind, Except.bind, hsend]
      exact hloop
    · rw [hwrites, writes_sendinl hlen hp hx.ctx hsend, List.append_assoc,
        taken_congr (takenBy_sendinl hsend)]
      rfl

/-- `Broadcast` puts an event in the queue that, whenever it is dispatched, calls `sendinl` with its
bytes once for each session of the map whose id is not in the list, by ascending ids. In a state of
a run none of these calls fails but by its own `uv_write`, and what each of them gives to `uv_write`
is what it would be without the others. -/
theorem broadcast_reaches (senddata : StdString) (excludeid : List ℤ) : ∃ e,
    (∀ s : CTcpServer, (s.broadcast senddata.bytes excludeid).events = s.events ++ [e])
      ∧ (∀ (s : CTcpServer) (res : List ℤ),
        (∀ id a, (id, a) ∈ s.addressees excludeid ↔
          s.clientSessionMap[id]? = some a ∧ id ∉ excludeid)
        ∧ ((s.addressees excludeid).map Prod.fst).Pairwise (· < ·)
        ∧ s.dispatch e res = sendEach senddata.bytes (s.addressees excludeid) res s)
      ∧ ∀ (packhead : UInt32) (s : CTcpServer) (res : List ℤ), Reachable step (started packhead) s →
        ∃ t, s.dispatch e res = .ok t
          ∧ t.writes = s.writes ++ s.taken senddata.bytes (s.addressees excludeid) res := by
  set e : UvEvent ServerObj := { createUvEvent .broadcast (some senddata.bytes) with
    data := some .server, list := excludeid }
  have hbytes : e.bytes = senddata.bytes := by
    have hsize : (toU32 (ofU32 (.ofNat senddata.bytes.length))).toNat = senddata.bytes.length := by
      rw [toU32_ofU32, UInt32.toNat_ofNat', Nat.mod_eq_of_lt senddata.size_lt]
    exact List.take_of_length_le hsize.ge
  have hdispatch : ∀ (s : CTcpServer) (res : List ℤ),
      s.dispatch e res = sendEach senddata.bytes (s.addressees excludeid) res s := by
    intro s res
    rw [← broadcastinl_eq, ← hbytes]
    rfl
  refine ⟨e, fun s => rfl, fun s res => ⟨fun id a => mem_addressees,
    pairwise_addressees s excludeid, hdispatch s res⟩, fun packhead s res hr => ?_⟩
  obtain ⟨as, hr⟩ := hr
  obtain ⟨ho, h⟩ := params_run hr
  rw [hdispatch]
  refine sendEach_writes senddata.size_lt _ res ho.tied h fun e he => ?_
  obtain ⟨p, x, hm⟩ := ho.owned.mapped e.1 e.2 (mem_addressees.1 he).1
  exact Heap.live_of_cells hm.session

end CTcpServer

end TestLibuv
