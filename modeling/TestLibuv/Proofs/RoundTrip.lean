import TestLibuv.Proofs.PacketDrain

/-!
# The framing round trip

The encodings of a list of packets, one after the other, drain into those encodings, whatever
prefix of them has arrived: a packet whose bytes are all there is cut off, one that is still
arriving is waited for. Nothing in such a stream is rejected, so however it is cut into chunks the
parser delivers the packets in order and holds the rest.
-/

namespace TestLibuv

open CMem While Framing

variable {head : UInt32}

namespace NetPacket

variable (p : NetPacket)

theorem length_bytes : p.bytes.length = 12 + p.data.length := by
  simp only [bytes, List.length_append, length_u32Bytes]
  omega

theorem toNat_dataSize : p.dataSize.toNat = p.data.length := by
  have := p.length_data
  rw [dataSize, UInt32.toNat_ofNat']
  omega

theorem u32Of_bytes (rest : List UInt8) : u32Of (p.bytes ++ rest) = some p.flag := by
  rw [bytes, List.append_assoc]
  exact u32Of_u32Bytes _ _

theorem packSize_bytes (rest : List UInt8) :
    packSize (p.bytes ++ rest) = some p.bytes.length := by
  have hdrop : (p.bytes ++ rest).drop 8 = u32Bytes p.dataSize ++ (p.data ++ rest) := by
    simp only [bytes, List.append_assoc]
    rfl
  have hlen := p.length_data
  rw [packSize, hdrop, u32Of_u32Bytes, Option.map_some, UInt32.toNat_add, p.toNat_dataSize,
    p.length_bytes, Option.some.injEq, show netPackageHeadlen.toNat = 12 from rfl]
  omega

/-- The verdict on what has arrived of a packet and the bytes behind it. -/
theorem headVerdict_prefix (hflag : p.flag = head) {x rest : List UInt8}
    (hx : x <+: p.bytes ++ rest) :
    headVerdict head x
      = if 12 < x.length ∧ p.bytes.length ≤ x.length then .frame p.bytes.length else .wait := by
  obtain ⟨y, hy⟩ := hx
  by_cases hlen : 12 < x.length
  · have hf : u32Of x = some head := by
      obtain ⟨f, hf⟩ := u32Of_isSome (b := x) (by omega)
      have h := u32Of_append hf y
      rw [hy, p.u32Of_bytes, hflag] at h
      rw [hf, ← h]
    have hk : packSize x = some p.bytes.length := by
      obtain ⟨k, hk⟩ := packSize_isSome hlen
      have h := packSize_append hk hlen y
      rw [hy, p.packSize_bytes] at h
      rw [hk, ← h]
    rw [headVerdict_good hlen hf hk]
    by_cases hle : p.bytes.length ≤ x.length
    · rw [if_pos hle, if_pos ⟨hlen, hle⟩]
    · rw [if_neg hle, if_neg fun h => hle h.2]
  · rw [headVerdict_short (not_lt.1 hlen), if_neg fun h => hlen h.1]

end NetPacket

/-- The bytes of a list of packets. -/
def stream (ps : List NetPacket) : List UInt8 := (ps.map NetPacket.bytes).flatten

theorem stream_cons (p : NetPacket) (ps : List NetPacket) :
    stream (p :: ps) = p.bytes ++ stream ps := rfl

theorem length_le_stream : ∀ {ps : List NetPacket} {p : NetPacket}, p ∈ ps →
    p.bytes.length ≤ (stream ps).length
  | q :: ps, p, h => by
    rw [stream_cons, List.length_append]
    rcases List.mem_cons.1 h with rfl | h
    · exact Nat.le_add_right _ _
    · exact le_trans (length_le_stream h) (Nat.le_add_left _ _)

/-- What has arrived of a stream of packets drains cleanly into the first of them; one that has a
payload is among them once its last byte is there. -/
theorem drains_stream : ∀ {ps : List NetPacket}, (∀ p ∈ ps, p.flag = head) →
    ∀ {x : List UInt8}, x <+: stream ps → ∃ out rest, Drains (headFramer head) x out rest
      ∧ Clean out ∧ frames out <+: ps.map NetPacket.bytes
      ∧ ∀ i p, ps[i]? = some p → p.data ≠ [] → (stream (ps.take (i + 1))).length ≤ x.length →
        i < (frames out).length
  | [], _, x, hx => by
    obtain rfl := List.prefix_nil.1 hx
    exact ⟨[], [], .wait rfl, clean_nil, List.prefix_rfl, fun i p hp => by simp at hp⟩
  | p :: ps, hps, x, hx => by
    have hflag := hps p List.mem_cons_self
    rw [stream_cons] at hx
    have hv := p.headVerdict_prefix hflag hx
    by_cases hfr : 12 < x.length ∧ p.bytes.length ≤ x.length
    · rw [if_pos hfr] at hv
      obtain ⟨z, rfl⟩ : p.bytes <+: x :=
        List.prefix_of_prefix_length_le (List.prefix_append _ _) hx hfr.2
      have hz : z <+: stream ps := by
        rwa [List.prefix_append_right_inj] at hx
      obtain ⟨out, rest, hd, hc, hpre, hall⟩ :=
        drains_stream (fun q hq => hps q (List.mem_cons_of_mem _ hq)) hz
      have hd' := Drains.frame (F := headFramer head) hv (by rwa [List.drop_left])
      rw [List.take_left] at hd'
      refine ⟨_, rest, hd', clean_frame_cons.2 hc, ?_, fun i q hq hne hle => ?_⟩
      · exact List.prefix_cons_inj _ |>.2 hpre
      · rw [frames, List.length_cons]
        rcases i with _ | i
        · exact Nat.succ_pos _
        · rw [List.take_succ_cons, stream_cons, List.length_append, List.length_append] at hle
          exact Nat.succ_lt_succ (hall i q (by simpa using hq) hne (by omega))
    · rw [if_neg hfr] at hv
      refine ⟨[], x, .wait hv, clean_nil, List.nil_prefix, fun i q hq hne hle => ?_⟩
      have hmem : q ∈ (p :: ps).take (i + 1) :=
        List.mem_iff_getElem?.2 ⟨i, by rw [List.getElem?_take_of_succ, hq]⟩
      have hq' := length_le_stream hmem
      have hp' : p.bytes.length ≤ (stream ((p :: ps).take (i + 1))).length :=
        length_le_stream (by simp)
      have hpos := List.length_pos_of_ne_nil hne
      rw [q.length_bytes] at hq'
      exact absurd ⟨by omega, by omega⟩ hfr

/-- Framing round trip. -/
theorem framing_round_trip {ps : List NetPacket} (hps : ∀ p ∈ ps, p.flag = head)
    {cs : List (List UInt8)} (hcs : cs.flatten = stream ps)
    (hfits : (PacketSync.fresh head).Fits cs)
    {received rest : List (List UInt8)} (hsplit : cs = received ++ rest) :
    ∃ q log, (PacketSync.fresh head).feed received = some (.ok (q, log))
      ∧ q.delivered log <+: ps.map NetPacket.bytes
      ∧ (q.delivered log).flatten ++ q.buffered = received.flatten
      ∧ ∀ i p, ps[i]? = some p → p.data ≠ [] →
        (stream (ps.take (i + 1))).length ≤ received.flatten.length →
          i < (q.delivered log).length := by
  subst hsplit
  rw [List.flatten_append] at hcs
  have hpre : received.flatten <+: stream ps := ⟨_, hcs⟩
  obtain ⟨out, r, hd, hc, hfr, hall⟩ := drains_stream hps hpre
  have hf : Feeds (headFramer head) [] received out r := by
    refine .of_drains rfl hd hc fun pre post hpp => ?_
    subst hpp
    rw [List.flatten_append] at hpre
    obtain ⟨o, r', h, -⟩ := drains_stream hps ((List.prefix_append _ _).trans hpre)
    exact ⟨o, r', h⟩
  obtain ⟨q, hq, rfl⟩ := (PacketSync.wf_fresh head).feed_complete hfits.append_left hf
  obtain ⟨-, -, hcb, -⟩ := (PacketSync.wf_fresh head).feed_sound hq
  refine ⟨q, out, hq, ?_⟩
  rw [PacketSync.delivered_of_cb hcb]
  exact ⟨hfr, by rw [hc.flatten_frames, hd.bytes], hall⟩

/-- A packet of one byte cut inside its flag, and the beginning of one without payload. -/
theorem framing_round_trip_cut :
    let ps : List NetPacket :=
      [⟨defPackHeadFlag, 1000, [7], by decide⟩, ⟨defPackHeadFlag, 1001, [], by decide⟩]
    let received : List (List UInt8) :=
      [[0x32, 0xD5], [0x32, 0xD5, 0xE8, 3, 0, 0, 1, 0, 0, 0, 7, 0x32]]
    ∃ q log, (PacketSync.fresh defPackHeadFlag).feed received = some (.ok (q, log))
      ∧ q.delivered log <+: ps.map NetPacket.bytes
      ∧ (q.delivered log).flatten ++ q.buffered = received.flatten
      ∧ ∀ i p, ps[i]? = some p → p.data ≠ [] →
        (stream (ps.take (i + 1))).length ≤ received.flatten.length →
          i < (q.delivered log).length :=
  @framing_round_trip _ _ (by simp) _ (by decide) ((PacketSync.wf_fresh _).fits (by decide)) _
    [[0xD5, 0x32, 0xD5, 0xE9, 3, 0, 0, 0, 0, 0, 0]] rfl

end TestLibuv
