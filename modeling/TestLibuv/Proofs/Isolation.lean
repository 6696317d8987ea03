import TestLibuv.Lib.Runs
import TestLibuv.Proofs.RoundTrip

/-!
# `Init` and what was buffered before it

`Init` sets the head flag and leaves `real_packet_len` alone. A parser that holds nothing when it is
`Init`'ed is like a fresh one to every stream; one that still holds `m` bytes is not, since a packet
whose payload is `m` zeros and a one is not a prefix of those bytes followed by itself, and so it is
not what the parser delivers first.
-/

namespace TestLibuv

open CMem While Framing Runs

namespace PacketSync

variable {p : PacketSync}

theorem Wf.call (h : p.Wf) {c : Call} {q : PacketSync} (hc : p.call c = some q) :
    q.Wf ∧ (p.funcPackageCb = true → q.funcPackageCb = true) := by
  cases c with
  | onPackageCBEvent =>
    obtain rfl := Option.some.inj hc
    exact ⟨⟨h.block, h.nonneg, h.within, h.int⟩, fun _ => rfl⟩
  | init head =>
    obtain rfl := Option.some.inj hc
    exact ⟨⟨h.block, h.nonneg, h.within, h.int⟩, id⟩
  | onRecvData data =>
    rcases hr : p.onRecvData data with _ | e | ⟨q', log⟩
    · simp [PacketSync.call, hr] at hc
    · simp [PacketSync.call, hr] at hc
    · simp only [PacketSync.call, hr, Option.some.injEq] at hc
      subst hc
      obtain ⟨_, _, hok, hwf, -, hcb, -⟩ := h.onRecvData_sound (fits_of_returns hr) hr
      obtain ⟨rfl, rfl⟩ := Prod.mk.inj (Except.ok.inj hok)
      exact ⟨hwf, hcb.trans⟩

theorem wf_reachable (h : Reachable call new.onPackageCBEvent p) :
    p.Wf ∧ p.funcPackageCb = true :=
  h.invariant (I := fun p => p.Wf ∧ p.funcPackageCb = true)
    (fun _ _ _ hs hc => ⟨(hs.1.call hc).1, (hs.1.call hc).2 hs.2⟩)
    ⟨⟨length_malloc _, le_refl _, Nat.zero_le _, show (0 : ℤ) < 2 ^ 31 by decide⟩, rfl⟩

theorem Wf.init (h : p.Wf) (head : UInt32) : (p.init head).Wf :=
  ⟨h.block, h.nonneg, h.within, h.int⟩

theorem Wf.alike_fresh (h : p.Wf) (hcb : p.funcPackageCb = true) (h0 : p.realPacketLen = 0)
    (head : UInt32) : Alike (p.init head) (fresh head) := by
  refine ⟨h.init head, wf_fresh head, rfl, hcb, ?_⟩
  have hbuf : (p.init head).buffered = [] := by
    show p.readData.base.take p.realPacketLen.toNat = []
    rw [h0]
    rfl
  rw [hbuf, buffered_fresh]

end PacketSync

/-- A payload no block of as many bytes can hide. -/
def markedPacket (head : UInt32) (m : ℕ) (h : m + 1 < 2 ^ 31) : NetPacket :=
  ⟨head, 0, malloc m ++ [1], by simpa using h⟩

theorem NetPacket.getElem?_bytes (p : NetPacket) (i : ℕ) : p.bytes[12 + i]? = p.data[i]? := by
  have hb : p.bytes = (u32Bytes p.flag ++ (u32Bytes p.type ++ u32Bytes p.dataSize)) ++ p.data := by
    simp only [NetPacket.bytes, List.append_assoc]
  rw [hb, List.getElem?_append_right (by simp)]
  simp

theorem markedPacket_not_prefix {head : UInt32} {b : List UInt8} (h : b.length + 1 < 2 ^ 31)
    (hb : b ≠ []) : ¬ (markedPacket head b.length h).bytes
      <+: b ++ (markedPacket head b.length h).bytes := by
  rintro ⟨t, ht⟩
  have hpos := List.length_pos_of_ne_nil hb
  -- the byte at `12 + m` is the one at the end of the payload, and at its beginning
  have hlast : (markedPacket head b.length h).bytes[12 + b.length]? = some 1 := by
    rw [NetPacket.getElem?_bytes, markedPacket, List.getElem?_append_right (by simp)]
    simp
  have hfirst : (markedPacket head b.length h).bytes[12 + 0]? = some 0 := by
    rw [NetPacket.getElem?_bytes, markedPacket, List.getElem?_append_left (by simpa using hpos)]
    simp [malloc, hpos]
  have hat := congrArg (·[12 + b.length]?) ht
  rw [List.getElem?_append_left (by rw [NetPacket.length_bytes]; simp [markedPacket]), hlast,
    List.getElem?_append_right (by omega), Nat.add_sub_cancel, ← Nat.add_zero 12, hfirst] at hat
  exact absurd (Option.some.inj hat) (by decide)

theorem NetPacket.drains (p : NetPacket) (hp : p.data ≠ []) :
    Drains (headFramer p.flag) p.bytes [.frame p.bytes] [] := by
  have hpos := List.length_pos_of_ne_nil hp
  have hlen := p.length_bytes
  have hv := p.headVerdict_prefix rfl (List.prefix_append p.bytes [])
  rw [if_pos ⟨by omega, le_refl _⟩] at hv
  have hd := Drains.frame (F := headFramer p.flag) hv (by
    rw [List.drop_length]
    exact .wait rfl)
  rwa [List.take_length] at hd

/-- What a drain delivers first is what the buffer begins with. -/
theorem prefix_of_frames {F : Framer UInt8} {b c r : List UInt8} {o : List (Segment UInt8)}
    (h : Drains F b o r) (ho : frames o = [c]) : c <+: b := by
  cases h with
  | wait _ => simp at ho
  | frame _ _ =>
    rw [frames] at ho
    rw [← (List.cons_eq_cons.1 ho).1]
    exact List.take_prefix _ _
  | reject _ => simp [frames] at ho

namespace PacketSync

variable {p : PacketSync}

theorem Wf.outcome_singleton (h : p.Wf) {c : List UInt8} {o : List (List UInt8)}
    (ho : p.outcome [c] = some (.ok o)) (hcb : p.funcPackageCb = true) :
    ∃ log r, Drains (headFramer p.head) (p.buffered ++ c) log r ∧ frames log = o := by
  obtain ⟨r, hr, hok⟩ := Option.map_eq_some_iff.1 ho
  rcases r with e | ⟨q, log⟩
  · simp [Except.map] at hok
  obtain ⟨-, -, hcb', hf⟩ := h.feed_sound hr
  have hlog : q.delivered log = o := Except.ok.inj hok
  rw [delivered_of_cb (hcb'.trans hcb)] at hlog
  cases hf with
  | cons hd hnil =>
    cases hnil
    rw [List.append_nil] at hlog
    exact ⟨_, _, hd, hlog⟩

theorem outcome_overflow {c : List UInt8} (hlen : 2 ^ 31 ≤ p.realPacketLen + c.length) :
    p.outcome [c] = some (.error .intOverflow) := by
  simp [outcome, feed, onRecvData_overflow hlen, Except.map]

theorem Wf.outcome_ne_error (h : p.Wf) {c : List UInt8} {e : Fault}
    (hlen : p.realPacketLen + c.length < 2 ^ 31) : p.outcome [c] ≠ some (.error e) := by
  intro ho
  rcases hr : p.onRecvData c with _ | r
  · simp [outcome, feed, hr] at ho
  · obtain ⟨q, log, rfl, -⟩ := h.onRecvData_sound hlen hr
    simp [outcome, feed, hr, Except.map] at ho

theorem outcome_fresh_packet {head : UInt32} {pkt : NetPacket} (hflag : pkt.flag = head)
    (hp : pkt.data ≠ []) (hlen : pkt.bytes.length < 2 ^ 31) :
    (fresh head).outcome [pkt.bytes] = some (.ok [pkt.bytes]) := by
  subst hflag
  have hfits : (fresh pkt.flag).Fits [pkt.bytes] := (wf_fresh _).fits (by
    show (0 : ℤ) + _ < _
    simp only [List.flatten_cons, List.flatten_nil, List.append_nil]
    omega)
  obtain ⟨q, hq, -⟩ := (wf_fresh pkt.flag).feed_complete hfits (.cons (pkt.drains hp) (.nil _))
  obtain ⟨-, -, hcb, -⟩ := (wf_fresh pkt.flag).feed_sound hq
  simp only [outcome, hq, Option.map_some, Except.map, delivered_of_cb (hcb.trans rfl)]
  rfl

/-- A parser that holds bytes is told from a fresh one. -/
theorem Wf.told_apart (h : p.Wf) (hcb : p.funcPackageCb = true) (hb : p.buffered ≠ []) :
    ∃ c, c ≠ [] ∧ p.outcome [c] ≠ (fresh p.head).outcome [c] := by
  have hrpl := h.realPacketLen_eq
  by_cases hbig : p.buffered.length + 13 < 2 ^ 31
  · have hm : p.buffered.length + 1 < 2 ^ 31 := by omega
    set pkt := markedPacket p.head p.buffered.length hm with hpkt
    have hdata : pkt.data ≠ [] := by simp [hpkt, markedPacket]
    have hlen : pkt.bytes.length = p.buffered.length + 13 := by
      rw [NetPacket.length_bytes, hpkt]
      simp only [markedPacket, List.length_append, length_malloc, List.length_singleton]
      omega
    refine ⟨pkt.bytes, List.ne_nil_of_length_pos (by omega), fun heq => ?_⟩
    have hfresh : (fresh p.head).outcome [pkt.bytes] = some (.ok [pkt.bytes]) :=
      outcome_fresh_packet rfl hdata (by omega)
    obtain ⟨log, r, hd, hlog⟩ := h.outcome_singleton (heq.trans hfresh) hcb
    exact markedPacket_not_prefix hm hb (prefix_of_frames hd hlog)
  · refine ⟨malloc 13, by simp [malloc], fun heq => ?_⟩
    have hover : p.outcome [malloc 13] = some (.error .intOverflow) :=
      outcome_overflow (by rw [length_malloc]; omega)
    have hlen : (fresh p.head).realPacketLen + (malloc 13).length < 2 ^ 31 := by
      rw [length_malloc, show (fresh p.head).realPacketLen = 0 from rfl]
      omega
    exact (wf_fresh p.head).outcome_ne_error hlen (heq.symm.trans hover)

/-- Whatever a parser went through, after an `Init` it delivers what a fresh one does on every
sequence of chunks exactly if it held nothing. -/
theorem outcome_init_iff (h : Reachable call new.onPackageCBEvent p) (head : UInt32) :
    (∀ cs, (∀ c ∈ cs, c ≠ []) → (p.init head).outcome cs = (fresh head).outcome cs)
      ↔ p.realPacketLen = 0 := by
  obtain ⟨hwf, hcb⟩ := wf_reachable h
  constructor
  · intro hall
    by_contra hne
    have hb : (p.init head).buffered ≠ [] := by
      intro hb
      have hrpl : p.realPacketLen = (p.init head).buffered.length :=
        (hwf.init head).realPacketLen_eq
      rw [hb] at hrpl
      exact hne hrpl
    obtain ⟨c, hc, hdiff⟩ := (hwf.init head).told_apart hcb hb
    exact hdiff (hall [c] (by simpa using hc))
  · intro h0 cs _
    exact (hwf.alike_fresh hcb h0 head).outcome cs

end PacketSync

end TestLibuv
