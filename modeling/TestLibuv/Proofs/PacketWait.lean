import TestLibuv.Proofs.RoundTrip
import TestLibuv.Proofs.WrappedSize

/-!
# Packets that wait

The loop of `OnRecvData` goes on while more than a header is held, so a packet that is a header and
nothing more is cut off only once bytes behind it have come. Every other packet whose size is a
`uint32_t` is cut off by the call that got its last byte.
-/

namespace TestLibuv

open CMem While Framing

/-- What has come of some pieces, one after the other, is a number of whole ones and less than the
next. -/
theorem exists_pieces {β : Type*} : ∀ {ps : List (List β)} {x : List β}, x <+: ps.flatten →
    ∃ n y, x = (ps.take n).flatten ++ y ∧ ∀ p ∈ ps[n]?, y.length < p.length
  | [], x, _ => ⟨0, x, by simp⟩
  | p :: ps, x, h => by
    by_cases hlt : x.length < p.length
    · exact ⟨0, x, by simpa using hlt⟩
    · rw [List.flatten_cons] at h
      obtain ⟨z, rfl⟩ : p <+: x :=
        List.prefix_of_prefix_length_le (List.prefix_append _ _) h (not_lt.1 hlt)
      obtain ⟨n, y, rfl, hy⟩ := exists_pieces ((List.prefix_append_right_inj p).1 h)
      exact ⟨n + 1, y, by simp, by simpa using hy⟩

namespace PacketSync

variable {head : UInt32} {p : List UInt8} {ps cs : List (List UInt8)} {q : PacketSync}
  {log : List (Segment UInt8)}

/-- The verdict on a whole packet whose size is a `uint32_t`, if more than a header is held. -/
theorem WellFormed.verdict (h : WellFormed head p) (hsize : p.length < 2 ^ 32) {z : List UInt8}
    (hlen : 12 < (p ++ z).length) : (headFramer head).verdict (p ++ z) = .frame p.length := by
  obtain ⟨hf, hle, d, hd, hplen⟩ := h
  refine headVerdict_frame_iff.2 ⟨hlen, u32Of_append hf z, ?_, by simp⟩
  rw [packSize, List.drop_append_of_le_length (by omega), u32Of_append hd, Option.map_some,
    toNat_packSize, if_pos (by omega), hplen, add_comm]

/-- Whole packets in front of other bytes are cut off, the last of them only if more than a header
is held when it comes to it. -/
theorem drains_packets {y : List UInt8} : ∀ {ps : List (List UInt8)} {o : List (Segment UInt8)}
    {r : List UInt8}, (∀ p ∈ ps, WellFormed head p ∧ p.length < 2 ^ 32) →
      (∀ p ∈ ps.getLast?, 12 < (p ++ y).length) →
      Drains (headFramer head) (ps.flatten ++ y) o r →
        ∃ o', o = ps.map Segment.frame ++ o' ∧ Drains (headFramer head) y o' r
  | [], o, _, _, _, h => ⟨o, rfl, h⟩
  | p :: ps, o, r, hps, hlast, h => by
    obtain ⟨hwf, hsize⟩ := hps p List.mem_cons_self
    have hlen : 12 < (p ++ (ps.flatten ++ y)).length := by
      rcases ps with _ | ⟨p', ps⟩
      · simpa using hlast p (by simp)
      · have hp := hwf.2.1
        have hp' := (hps p' (by simp)).1.2.1
        simp only [List.flatten_cons, List.length_append]
        omega
    have hv := hwf.verdict hsize hlen
    rw [List.flatten_cons, List.append_assoc] at h
    cases h with
    | wait hv' => simp [hv] at hv'
    | frame hv' hd =>
      rw [hv, Verdict.frame.injEq] at hv'
      subst hv'
      rw [List.drop_left] at hd
      obtain ⟨o', rfl, hd'⟩ := drains_packets (fun q hq => hps q (List.mem_cons_of_mem _ hq))
        (fun q hq => hlast q (List.mem_getLast?_cons hq)) hd
      exact ⟨o', by simp, hd'⟩
    | reject hv' => simp [hv] at hv'

/-- What has come begins with whole packets: they are what is delivered first, and they are all if
no more than a header's length is behind them. -/
theorem delivered_packets {y : List UInt8} (hps : ∀ p ∈ ps, WellFormed head p ∧ p.length < 2 ^ 32)
    (hlast : ∀ p ∈ ps.getLast?, 12 < (p ++ y).length) (hcs : cs.flatten = ps.flatten ++ y)
    (h : (fresh head).feed cs = some (.ok (q, log))) :
    ps <+: q.delivered log ∧ (y.length ≤ 12 → q.delivered log = ps ∧ q.buffered = y) := by
  obtain ⟨-, -, hcb, hf⟩ := (wf_fresh head).feed_sound h
  obtain ⟨o, r, hd, hlead, hclean, heq⟩ := hf.drains_flatten rfl
  rw [buffered_fresh, List.nil_append, hcs] at hd
  obtain ⟨o', rfl, hd'⟩ := drains_packets hps hlast hd
  rw [delivered_of_cb hcb]
  constructor
  · refine List.IsPrefix.trans ?_ (isPrefix_frames_lead log)
    rw [← hlead, lead_append (clean_map_frame ps), frames_append, frames_map_frame]
    exact List.prefix_append _ _
  · intro hy
    obtain ⟨rfl, rfl⟩ := hd'.unique (.wait (headVerdict_short hy))
    rw [List.append_nil] at hclean heq
    obtain ⟨rfl, hr⟩ := heq (hclean.1 (clean_map_frame ps))
    exact ⟨frames_map_frame ps, hr.symm⟩

/-- What is delivered has a size that fits a `uint32_t`. -/
theorem length_delivered (h : (fresh head).feed cs = some (.ok (q, log)))
    (hp : p ∈ q.delivered log) : p.length < 2 ^ 32 := by
  obtain ⟨-, -, hcb, hf⟩ := (wf_fresh head).feed_sound h
  rw [delivered_of_cb hcb, mem_frames] at hp
  obtain ⟨pre, post, hlog⟩ := List.append_of_mem hp
  obtain ⟨-, -, hk, -⟩ := headVerdict_frame_iff.1 (hf.decided hlog).1
  obtain ⟨d, -, hd⟩ := Option.map_eq_some_iff.1 hk
  rw [← hd]
  exact (d + netPackageHeadlen).toNat_lt

/-- The packet at an index of a list has come whole. -/
def Whole (ps : List (List UInt8)) (x : List UInt8) (i : ℕ) : Prop :=
  (ps.take (i + 1)).flatten.length ≤ x.length

/-- The packets that have come whole are delivered, each in its place, and nothing is held where
they are all that has come. -/
def NoneWaits (ps : List (List UInt8)) (x : List UInt8) (delivered : List (List UInt8))
    (realPacketLen : ℤ) : Prop :=
  (∀ i p, ps[i]? = some p → Whole ps x i → delivered[i]? = some p)
    ∧ ∀ n, x = (ps.take n).flatten → delivered = ps.take n ∧ realPacketLen = 0

theorem Whole.of_le {x : List UInt8} {i j : ℕ} (h : Whole ps x i) (hij : j ≤ i) :
    Whole ps x j := by
  have htake : ps.take (j + 1) <+: ps.take (i + 1) := List.take_prefix_take_left (by omega)
  exact htake.flatten.length_le.trans h

theorem flatten_take_succ {i : ℕ} (hp : ps[i]? = some p) :
    (ps.take (i + 1)).flatten = (ps.take i).flatten ++ p := by
  rw [List.take_add_one, hp]
  simp

/-- What has come whole comes before what has not. -/
theorem Whole.lt {y : List UInt8} {n i : ℕ} (hp : ps[i]? = some p)
    (h : Whole ps ((ps.take n).flatten ++ y) i) (hy : ∀ p ∈ ps[n]?, y.length < p.length) :
    i < n := by
  by_contra hn
  obtain ⟨hi, -⟩ := List.getElem?_eq_some_iff.1 hp
  obtain ⟨p', hn'⟩ : ∃ p', ps[n]? = some p' := ⟨_, List.getElem?_eq_getElem (by omega)⟩
  have hlt := hy _ hn'
  have hwhole := h.of_le (not_lt.1 hn)
  rw [Whole, flatten_take_succ hn', List.length_append, List.length_append] at hwhole
  omega

/-- What has come whole has a size that fits a `uint32_t` and, where the bytes end with it, a
payload. -/
def Timely (ps : List (List UInt8)) (x : List UInt8) : Prop :=
  ∀ i p, ps[i]? = some p → Whole ps x i →
    p.length < 2 ^ 32 ∧ (x = (ps.take (i + 1)).flatten → 12 < p.length)

theorem Timely.take {x y : List UInt8} {n i : ℕ} (h : Timely ps x)
    (hx : x = (ps.take n).flatten ++ y) (hp : (ps.take n)[i]? = some p) :
    p.length < 2 ^ 32 ∧ (x = (ps.take (i + 1)).flatten → 12 < p.length) := by
  rw [List.getElem?_take] at hp
  split_ifs at hp with hin
  refine h i p hp ?_
  have htake : ps.take (i + 1) <+: ps.take n := List.take_prefix_take_left (by omega)
  rw [Whole, hx, List.length_append]
  exact htake.flatten.length_le.trans (Nat.le_add_right _ _)

/-- The last of the whole packets that have come is more than a header, or bytes are behind it. -/
theorem Timely.last {x y : List UInt8} {n : ℕ} (h : Timely ps x)
    (hps : ∀ p ∈ ps, WellFormed head p) (hx : x = (ps.take n).flatten ++ y)
    (hp : p ∈ (ps.take n).getLast?) : 12 < (p ++ y).length := by
  have hplen := (hps p (List.mem_of_mem_take (List.mem_of_mem_getLast? hp))).2.1
  rcases y with _ | ⟨b, y⟩
  · rw [List.getLast?_eq_getElem?] at hp
    obtain ⟨hpos, -⟩ := List.getElem?_eq_some_iff.1 hp
    have hall : ps.take ((ps.take n).length - 1 + 1) = ps.take n := by
      rw [Nat.sub_add_cancel (by omega), List.length_take, ← List.take_eq_take_min]
    rw [List.append_nil] at hx ⊢
    exact (h.take (hx.trans (List.append_nil _).symm) hp).2 (hx.trans (by rw [hall]))
  · rw [List.length_append, List.length_cons]
    omega

/-- However a list of packets is cut into chunks, when a call returns no packet waits exactly if
each one that has come whole has a size that fits a `uint32_t` and, where the bytes end with it,
a payload. -/
theorem none_waits_iff (hps : ∀ p ∈ ps, WellFormed head p) (hcs : cs.flatten <+: ps.flatten)
    (h : (fresh head).feed cs = some (.ok (q, log))) :
    NoneWaits ps cs.flatten (q.delivered log) q.realPacketLen ↔ Timely ps cs.flatten := by
  obtain ⟨hwf, -⟩ := (wf_fresh head).feed_sound h
  constructor
  · rintro ⟨hall, hend⟩ i p hp hwhole
    have hsize : ∀ j ≤ i, ∀ p', ps[j]? = some p' → p'.length < 2 ^ 32 := fun j hj p' hp' =>
      length_delivered h (List.mem_of_getElem? (hall j p' hp' (hwhole.of_le hj)))
    refine ⟨hsize i le_rfl p hp, fun hlast => ?_⟩
    by_contra hshort
    have hbefore : ∀ p' ∈ ps.take i, WellFormed head p' ∧ p'.length < 2 ^ 32 := by
      intro p' hp'
      obtain ⟨j, hj⟩ := List.mem_iff_getElem?.1 hp'
      rw [List.getElem?_take] at hj
      split_ifs at hj with hji
      exact ⟨hps p' (List.mem_of_getElem? hj), hsize j hji.le p' hj⟩
    have hplen : 12 ≤ p.length := (hps p (List.mem_of_getElem? hp)).2.1
    have hroom : ∀ p' ∈ (ps.take i).getLast?, 12 < (p' ++ p).length := by
      intro p' hp'
      have hlen := (hbefore p' (List.mem_of_mem_getLast? hp')).1.2.1
      rw [List.length_append]
      omega
    -- the header that is all of the packet is still held
    obtain ⟨-, hrest⟩ :=
      delivered_packets hbefore hroom (hlast.trans (flatten_take_succ hp)) h
    obtain ⟨-, hheld⟩ := hrest (not_lt.1 hshort)
    have hzero := (hend (i + 1) hlast).2
    rw [hwf.realPacketLen_eq, hheld] at hzero
    omega
  · intro hcond
    have hfirst : ∀ n y, cs.flatten = (ps.take n).flatten ++ y → ps.take n <+: q.delivered log
        ∧ (y.length ≤ 12 → q.delivered log = ps.take n ∧ q.buffered = y) := by
      intro n y hx
      refine delivered_packets (fun p hp => ?_) (fun p hp => hcond.last hps hx hp) hx h
      obtain ⟨i, hi⟩ := List.mem_iff_getElem?.1 hp
      exact ⟨hps p (List.mem_of_mem_take hp), (hcond.take hx hi).1⟩
    refine ⟨fun i p hp hwhole => ?_, fun n hx => ?_⟩
    · obtain ⟨n, y, hx, hy⟩ := exists_pieces hcs
      rw [hx] at hwhole
      have hin := hwhole.lt hp hy
      obtain ⟨t, ht⟩ := (hfirst n y hx).1
      obtain ⟨hi, -⟩ := List.getElem?_eq_some_iff.1 hp
      rw [← ht, List.getElem?_append_left (by rw [List.length_take]; omega), List.getElem?_take,
        if_pos hin, hp]
    · obtain ⟨-, hrest⟩ := hfirst n [] (by rw [hx, List.append_nil])
      obtain ⟨hall, hheld⟩ := hrest (Nat.zero_le _)
      exact ⟨hall, by rw [hwf.realPacketLen_eq, hheld]; rfl⟩

/-- What `PacketData` makes of no bytes, and of one. -/
def emptyPacket : List UInt8 := NetPacket.bytes ⟨defPackHeadFlag, 1000, [], by decide⟩
def bytePacket : List UInt8 := NetPacket.bytes ⟨defPackHeadFlag, 1000, [21], by decide⟩

theorem wellFormed_emptyPacket : WellFormed defPackHeadFlag emptyPacket :=
  ⟨rfl, by decide, 0, rfl, rfl⟩

theorem wellFormed_bytePacket : WellFormed defPackHeadFlag bytePacket :=
  ⟨rfl, by decide, 1, rfl, rfl⟩

/-- Both, cut inside the second's header. -/
theorem none_waits_two : ∃ q log,
    (fresh defPackHeadFlag).feed [emptyPacket ++ [0x32], bytePacket.tail] = some (.ok (q, log))
      ∧ NoneWaits [emptyPacket, bytePacket] [emptyPacket ++ [0x32], bytePacket.tail].flatten
        (q.delivered log) q.realPacketLen := by
  have hfirst : ∃ out, Drains (headFramer defPackHeadFlag) ([] ++ (emptyPacket ++ [0x32])) out
      [0x32] := ⟨_, .frame rfl (.wait rfl)⟩
  have hsecond : ∃ out, Drains (headFramer defPackHeadFlag) ([0x32] ++ bytePacket.tail) out
      [] := ⟨_, .frame rfl (.wait rfl)⟩
  obtain ⟨out, hfirst⟩ := hfirst
  obtain ⟨out', hsecond⟩ := hsecond
  obtain ⟨q, hq, -⟩ := (wf_fresh defPackHeadFlag).feed_complete
    ((wf_fresh defPackHeadFlag).fits (by decide)) (.cons hfirst (.cons hsecond (.nil [])))
  refine ⟨q, _, hq, (none_waits_iff (fun p hp => ?_) (by decide) hq).2 ?_⟩
  · rcases List.mem_pair.1 hp with rfl | rfl
    · exact wellFormed_emptyPacket
    · exact wellFormed_bytePacket
  · rintro (_ | _ | i) p hp -
    · obtain rfl := Option.some.inj hp
      exact ⟨by decide, by decide⟩
    · obtain rfl := Option.some.inj hp
      exact ⟨by decide, by decide⟩
    · simp at hp

/-- A packet without payload waits for its successor. -/
theorem emptyPacket_waits : ¬ ∀ (head : UInt32) (ps cs : List (List UInt8)) (q : PacketSync)
    (log : List (Segment UInt8)), (∀ p ∈ ps, WellFormed head p) → cs.flatten <+: ps.flatten →
      (fresh head).feed cs = some (.ok (q, log)) →
        NoneWaits ps cs.flatten (q.delivered log) q.realPacketLen := by
  intro h
  obtain ⟨q, hq, hheld⟩ := (wf_fresh defPackHeadFlag).feed_complete
    ((wf_fresh defPackHeadFlag).fits (by decide)) (.cons (.wait rfl) (.nil ([] ++ emptyPacket)))
  obtain ⟨hwf, -⟩ := (wf_fresh defPackHeadFlag).feed_sound hq
  have hwaits := h _ [emptyPacket] [emptyPacket] q _
    (fun p hp => List.mem_singleton.1 hp ▸ wellFormed_emptyPacket) List.prefix_rfl hq
  have hzero := (hwaits.2 1 rfl).2
  rw [hwf.realPacketLen_eq, hheld] at hzero
  exact absurd hzero (by decide)

end PacketSync

end TestLibuv
