import TestLibuv.Proofs.PacketDrain

/-!
# Sizes that wrap

`pack_size` is `dataSize + 12` modulo `2^32`. For the twelve largest values of the field it is
less than a header, and such a packet is cut off and delivered with that size. For one of them it
is zero: nothing is removed, and the loop comes back to the bytes it has just looked at.
-/

namespace TestLibuv

open CMem While Framing

/-- A header under `head` with more than nothing behind it, whose `dataSize` satisfies `D`. -/
def Announces (head : UInt32) (D : UInt32 → Prop) (b : List UInt8) : Prop :=
  12 < b.length ∧ u32Of b = some head ∧ ∃ d, u32Of (b.drop 8) = some d ∧ D d

theorem toNat_packSize (d : UInt32) : (d + netPackageHeadlen).toNat
    = if d.toNat < 2 ^ 32 - 12 then d.toNat + 12 else d.toNat + 12 - 2 ^ 32 := by
  have hd := d.toNat_lt
  rw [UInt32.toNat_add, show netPackageHeadlen.toNat = 12 from rfl]
  split_ifs <;> omega

theorem frame_zero_iff {head : UInt32} {b : List UInt8} : headVerdict head b = .frame 0
    ↔ Announces head (fun d => d.toNat = 2 ^ 32 - 12) b := by
  rw [headVerdict_frame_iff]
  constructor
  · rintro ⟨hlen, hf, hk, -⟩
    obtain ⟨d, hd, hzero⟩ := Option.map_eq_some_iff.1 hk
    refine ⟨hlen, hf, d, hd, ?_⟩
    have hlt := d.toNat_lt
    rw [toNat_packSize] at hzero
    split_ifs at hzero
    omega
  · rintro ⟨hlen, hf, d, hd, hmax⟩
    refine ⟨hlen, hf, ?_, Nat.zero_le _⟩
    rw [packSize, hd, Option.map_some, toNat_packSize, hmax]
    rfl

namespace PacketSync

variable {p q : PacketSync} {log : List (Segment UInt8)} {l l' : RecvLoop}

/-! ## The iterations -/

/-- The loop of `OnRecvData` goes from one of its states to another. -/
abbrev Iterates : RecvLoop → RecvLoop → Prop := Next RecvLoop.guard RecvLoop.body

theorem Held.next_wait (h : p.Held) (hv : headVerdict p.head p.buffered = .wait)
    (hn : Iterates ⟨p, true, log⟩ l) : l = ⟨p, false, log⟩ := by
  obtain ⟨hg, hb⟩ := hn
  have hlen : 12 < p.buffered.length := by simpa [h.guard] using hg
  exact Except.ok.inj (hb.symm.trans (h.body_wait hlen hv log))

theorem Held.iterates_frame (h : p.Held) {k : ℕ} (hv : headVerdict p.head p.buffered = .frame k) :
    Iterates ⟨p, true, log⟩ ⟨p.cut k, true, log ++ [.frame (p.buffered.take k)]⟩ := by
  obtain ⟨hlen, hf, hk, hle⟩ := headVerdict_frame_iff.1 hv
  refine ⟨by rw [h.guard]; simpa using hlen, ?_⟩
  rw [h.body_good hlen hf hk, if_pos hle]

theorem Held.next_frame (h : p.Held) {k : ℕ} (hv : headVerdict p.head p.buffered = .frame k)
    (hn : Iterates ⟨p, true, log⟩ l) :
    l = ⟨p.cut k, true, log ++ [.frame (p.buffered.take k)]⟩ :=
  Except.ok.inj (hn.2.symm.trans (h.iterates_frame hv).2)

theorem Held.next_reject (h : p.Held) (hv : headVerdict p.head p.buffered = .reject)
    (hn : Iterates ⟨p, true, log⟩ l) :
    l = ⟨{ p with realPacketLen := 0 }, true, log ++ [.dropped p.buffered]⟩ :=
  Except.ok.inj (hn.2.symm.trans (h.body_reject hv log))

/-- What holds of the states the loop comes to from a parser. -/
structure Along (p : PacketSync) (l : RecvLoop) : Prop where
  held : l.sync.Held
  follows : Follows l.sync p
  comes : RecvLoop.guard l = true → ∀ P, Comes (headFramer p.head) P l.sync.buffered →
    Comes (headFramer p.head) P p.buffered
  frames : ∀ fr ∈ frames l.log, Comes (headFramer p.head) (Cuts (headFramer p.head) fr) p.buffered

theorem hasPack_of_guard (h : RecvLoop.guard l = true) : l.hasPack = true := by
  simp only [RecvLoop.guard, Bool.and_eq_true] at h
  exact h.1

theorem Held.along (h : p.Held) : Along p ⟨p, true, []⟩ :=
  ⟨h, .refl p, fun _ _ => id, fun fr hfr => by simp at hfr⟩

theorem along_next (h : Along p l) (hn : Iterates l l') : Along p l' := by
  obtain ⟨q, b, log⟩ := l
  obtain rfl : b = true := hasPack_of_guard hn.1
  have hq : q.Held := h.held
  have hhead : q.head = p.head := h.follows.head
  have hcomes := h.comes hn.1
  rcases hv : headVerdict q.head q.buffered with _ | k | _
  · obtain rfl := hq.next_wait hv hn
    exact ⟨hq, h.follows, fun hg => by simp [RecvLoop.guard] at hg, h.frames⟩
  · obtain rfl := hq.next_frame hv hn
    have hle := (headFramer q.head).frame_le hv
    have hv' : (headFramer p.head).verdict q.buffered = .frame k := hhead ▸ hv
    refine ⟨hq.cut hle, (hq.follows_cut hle).trans h.follows, fun _ P hP => ?_, fun fr hfr => ?_⟩
    · rw [buffered_cut] at hP
      exact hcomes P (.next hv' hP)
    · rw [frames_append, List.mem_append] at hfr
      rcases hfr with hfr | hfr
      · exact h.frames fr hfr
      · obtain rfl := List.mem_singleton.1 hfr
        exact hcomes _ (.here ⟨k, hv', rfl⟩)
  · obtain rfl := hq.next_reject hv hn
    refine ⟨hq.clear, ⟨h.follows.head, h.follows.cb, h.follows.len, h.follows.block⟩,
      fun hg => ?_, fun fr hfr => ?_⟩
    · rw [hq.clear.guard] at hg
      simp [buffered] at hg
    · rw [frames_append, List.mem_append] at hfr
      rcases hfr with hfr | hfr
      · exact h.frames fr hfr
      · exact absurd hfr List.not_mem_nil

theorem Held.along_of_reaches (h : p.Held)
    (hr : Reaches RecvLoop.guard RecvLoop.body ⟨p, true, []⟩ l) : Along p l := by
  induction hr with
  | refl => exact h.along
  | tail _ hn ih => exact along_next ih hn

/-- The loop comes to whatever bytes cutting packets off comes to. -/
theorem reaches_of_comes {head : UInt32} {P : List UInt8 → Prop} {b : List UInt8}
    (hc : Comes (headFramer head) P b) : ∀ {p : PacketSync}, p.Held → p.head = head →
      p.buffered = b → ∀ log : List (Segment UInt8), ∃ q log',
        Reaches RecvLoop.guard RecvLoop.body ⟨p, true, log⟩ ⟨q, true, log'⟩ ∧ q.Held
          ∧ q.head = head ∧ P q.buffered := by
  induction hc with
  | here hP =>
    rintro p h hhead rfl log
    exact ⟨p, log, .refl, h, hhead, hP⟩
  | @next b k hv _ ih =>
    rintro p h rfl rfl log
    have hle := (headFramer p.head).frame_le hv
    obtain ⟨q, log', hr, hq⟩ := ih (h.cut hle) rfl (buffered_cut p k) _
    exact ⟨q, log', .head (h.iterates_frame hv) hr, hq⟩

/-! ## The loop stops -/

/-- The loop of `OnRecvData` on a parser stops, and each of its iterations ends it or lowers
`real_packet_len`. -/
def Terminates (p : PacketSync) : Prop :=
  (∃ n r, whileFuel RecvLoop.guard RecvLoop.body n ⟨p, true, []⟩ = some r)
    ∧ ∀ l l', Reaches RecvLoop.guard RecvLoop.body ⟨p, true, []⟩ l → Iterates l l' →
      RecvLoop.guard l' = false ∨ l'.sync.realPacketLen < l.sync.realPacketLen

/-- An iteration that removes something lowers `real_packet_len`, and the others are the last. -/
theorem Held.ends_or_lowers (h : p.Held) (hn : Iterates ⟨p, true, log⟩ l)
    (hv : headVerdict p.head p.buffered ≠ .frame 0) :
    RecvLoop.guard l = false ∨ l.sync.realPacketLen < p.realPacketLen := by
  rcases hv' : headVerdict p.head p.buffered with _ | k | _
  · obtain rfl := h.next_wait hv' hn
    exact .inl rfl
  · obtain rfl := h.next_frame hv' hn
    refine .inr ?_
    have hpos : k ≠ 0 := by
      rintro rfl
      exact hv hv'
    have hle : k ≤ p.buffered.length := (headFramer p.head).frame_le hv'
    have hlen := h.length_buffered
    have hnn := h.nonneg
    show ((p.buffered.length - k : ℕ) : ℤ) < p.realPacketLen
    omega
  · obtain rfl := h.next_reject hv' hn
    refine .inl ?_
    rw [h.clear.guard]
    simp [buffered]

theorem Held.terminates_iff (h : p.Held) : Terminates p ↔ ¬ Comes (headFramer p.head)
    (Announces p.head fun d => d.toNat = 2 ^ 32 - 12) p.buffered := by
  constructor
  · rintro ⟨⟨n, r, hr⟩, -⟩ hc
    obtain ⟨q, b, out, -, -, -, hd⟩ := h.loop_sound n hr
    exact hd.not_comes (hc.imp fun _ => frame_zero_iff.2)
  · intro hno
    have hno' : ¬ Comes (headFramer p.head)
        (fun b => (headFramer p.head).verdict b = .frame 0) p.buffered :=
      fun hc => hno (hc.imp fun _ => frame_zero_iff.1)
    obtain ⟨o, r, hd⟩ := Drains.of_not_comes _ hno'
    obtain ⟨r', hr'⟩ := h.loop_complete hd rfl rfl [] _ (Nat.lt_succ_self _)
    refine ⟨⟨_, r', hr'⟩, fun l l' hl hn => ?_⟩
    have hal := h.along_of_reaches hl
    obtain ⟨q, b, log⟩ := l
    obtain rfl : b = true := hasPack_of_guard hn.1
    refine hal.held.ends_or_lowers hn fun hv => hno' (hal.comes hn.1 _ (.here ?_))
    exact hal.follows.head ▸ hv

/-- Where the accesses of the head of `OnRecvData` are within the block, its loop begins with as
many bytes as `real_packet_len` says. -/
theorem held_of_store {data : List UInt8} (h : 0 ≤ p.realPacketLen)
    (hs : p.store data = .ok q) : q.Held ∧ q.head = p.head := by
  unfold store at hs
  obtain ⟨need, hneed, hs⟩ := bind_eq_ok hs
  obtain ⟨base, hbase, hs⟩ := bind_eq_ok hs
  obtain rfl := Except.ok.inj hs
  unfold intAdd at hneed
  split_ifs at hneed with hint
  obtain rfl := Except.ok.inj hneed
  unfold memcpy at hbase
  split_ifs at hbase with hroom
  obtain rfl := Except.ok.inj hbase
  refine ⟨⟨?_, ?_, hint.2⟩, rfl⟩
  · show 0 ≤ p.realPacketLen + data.length
    omega
  · simp only [List.length_append, List.length_take, List.length_drop]
    omega

/-- On any parser that counts no negative number of bytes, the loop of `OnRecvData` stops exactly
when cutting packets off the bytes held never comes to one whose `dataSize` is `2^32 - 12`. -/
theorem onRecvData_terminates_iff {data : List UInt8} (h : 0 ≤ p.realPacketLen) :
    (∀ q, p.store data = .ok q → Terminates q) ↔ ∀ q, p.store data = .ok q →
      ¬ Comes (headFramer p.head) (Announces p.head fun d => d.toNat = 2 ^ 32 - 12) q.buffered := by
  refine forall₂_congr fun q hs => ?_
  obtain ⟨hq, hhead⟩ := held_of_store h hs
  rw [hq.terminates_iff, hhead]

/-- A packet with two bytes of data, and the first byte of the next one. -/
def packetAndByte : List UInt8 :=
  u32Bytes defPackHeadFlag ++ (u32Bytes 1000 ++ (u32Bytes 2 ++ [7, 9, 0x32]))

theorem onRecvData_terminates_packetAndByte :
    ∃ q, (fresh defPackHeadFlag).store packetAndByte = .ok q ∧ Terminates q := by
  obtain ⟨q, hs, -, -, -, hbuf⟩ :=
    @Wf.store _ (wf_fresh defPackHeadFlag) packetAndByte (by decide)
  refine ⟨q, hs, (onRecvData_terminates_iff (le_refl 0)).2 (fun q' hs' hc => ?_) q hs⟩
  obtain rfl := Except.ok.inj (hs.symm.trans hs')
  rw [hbuf, buffered_fresh, List.nil_append] at hc
  have hcut : (headFramer defPackHeadFlag).verdict packetAndByte = .frame 14 := by decide
  have hwait : (headFramer defPackHeadFlag).verdict (packetAndByte.drop 14) = .wait := by decide
  have hfirst : ¬ Announces defPackHeadFlag (fun d => d.toNat = 2 ^ 32 - 12) packetAndByte := by
    rintro ⟨-, -, d, hd, hD⟩
    have htwo : u32Of (packetAndByte.drop 8) = some 2 := by decide
    obtain rfl := Option.some.inj (htwo.symm.trans hd)
    exact absurd hD (by decide)
  cases hc with
  | here h => exact hfirst h
  | next hv hc =>
    obtain rfl := Verdict.frame.inj (hcut.symm.trans hv)
    cases hc with
    | here h => exact absurd h.1 (by decide)
    | next hv _ => exact Verdict.noConfusion (hwait.symm.trans hv)

/-- A header that announces `2^32 - 12` bytes, and one byte. -/
def hangingPacket : List UInt8 :=
  u32Bytes defPackHeadFlag ++ (u32Bytes 1000 ++ (u32Bytes 0xFFFFFFF4 ++ [7]))

theorem announces_hangingPacket :
    Announces defPackHeadFlag (fun d => d.toNat = 2 ^ 32 - 12) hangingPacket := by
  refine ⟨by decide, by decide, 0xFFFFFFF4, by decide, by decide⟩

/-- The loop of `OnRecvData` need not stop. -/
theorem onRecvData_hangs : ¬ ∀ (p q : PacketSync) (data : List UInt8), 0 ≤ p.realPacketLen →
    p.realPacketLen + data.length < 2 ^ 31 → p.store data = .ok q → Terminates q := by
  intro h
  obtain ⟨q, hs, hwf, hhead, -, hbuf⟩ :=
    @Wf.store _ (wf_fresh defPackHeadFlag) hangingPacket (by decide)
  refine (hwf.held.terminates_iff.1 (h _ q _ (le_refl 0) (by decide) hs)) ?_
  rw [hbuf, hhead]
  exact .here announces_hangingPacket

/-! ## The packets passed on -/

/-- `OnRecvData`, called with the bytes, passes the packet to `_func_package_cb`. -/
def Passes (p : PacketSync) (data pkt : List UInt8) : Prop :=
  ∃ q l, p.store data = .ok q ∧ Reaches RecvLoop.guard RecvLoop.body ⟨q, true, []⟩ l
    ∧ pkt ∈ q.delivered l.log

/-- What the user is handed reads its flag, its `dataSize` and as much data inside the packet. -/
def WellFormed (head : UInt32) (pkt : List UInt8) : Prop :=
  u32Of pkt = some head ∧ 12 ≤ pkt.length
    ∧ ∃ d, u32Of (pkt.drop 8) = some d ∧ pkt.length = 12 + d.toNat

/-- The size of a packet is less than a header, or what its header says. -/
theorem announces_or_wellFormed {head : UInt32} {pkt b : List UInt8}
    (hc : Cuts (headFramer head) pkt b) :
    Announces head (fun d => 2 ^ 32 - 12 ≤ d.toNat) b ∧ pkt.length < 12 ∨ WellFormed head pkt := by
  obtain ⟨k, hv, rfl⟩ := hc
  obtain ⟨hlen, hf, hk, hle⟩ := headVerdict_frame_iff.1 hv
  obtain ⟨d, hd, rfl⟩ := Option.map_eq_some_iff.1 hk
  have hdlt := d.toNat_lt
  rw [toNat_packSize] at hle ⊢
  by_cases hwrap : 2 ^ 32 - 12 ≤ d.toNat
  · refine .inl ⟨⟨hlen, hf, d, hd, hwrap⟩, ?_⟩
    rw [if_neg (by omega), List.length_take]
    omega
  · rw [if_pos (by omega)] at hle ⊢
    have hlen' : (b.take (d.toNat + 12)).length = d.toNat + 12 := List.length_take_of_le hle
    refine .inr ⟨?_, by omega, d, ?_, by omega⟩
    · have h := @u32Of_drop_take b 0 (d.toNat + 12) (by omega) hle
      rwa [List.drop_zero, List.drop_zero, hf] at h
    · rw [u32Of_drop_take (by omega) hle, hd]

/-- A packet that is not well formed is cut off exactly where one is announced whose size wraps. -/
theorem cuts_malformed_iff {head : UInt32} {b : List UInt8} :
    (∃ pkt, Cuts (headFramer head) pkt b ∧ ¬ WellFormed head pkt) ↔
      Announces head (fun d => 2 ^ 32 - 12 ≤ d.toNat) b := by
  constructor
  · rintro ⟨pkt, hcut, hbad⟩
    exact ((announces_or_wellFormed hcut).resolve_right hbad).1
  · rintro ⟨hlen, hf, d, hd, hwrap⟩
    have hdlt := d.toNat_lt
    have hsize : (d + netPackageHeadlen).toNat = d.toNat + 12 - 2 ^ 32 := by
      rw [toNat_packSize, if_neg (by omega)]
    have hv : headVerdict head b = .frame (d.toNat + 12 - 2 ^ 32) := by
      refine headVerdict_frame_iff.2 ⟨hlen, hf, ?_, by omega⟩
      rw [packSize, hd, Option.map_some, hsize]
    refine ⟨b.take (d.toNat + 12 - 2 ^ 32), ⟨_, hv, rfl⟩, fun hwf => ?_⟩
    have hle := hwf.2.1
    rw [List.length_take] at hle
    omega

/-- The packets one call passes on all satisfy `Q` exactly when it comes to none to be cut off that
does not. -/
theorem Wf.passes_iff (h : p.Wf) (hcb : p.funcPackageCb = true) {data : List UInt8}
    {Q : List UInt8 → Prop} : (∀ pkt, p.Passes data pkt → Q pkt) ↔
      (p.realPacketLen + data.length < 2 ^ 31 → ¬ Comes (headFramer p.head)
        (fun b => ∃ pkt, Cuts (headFramer p.head) pkt b ∧ ¬ Q pkt) (p.buffered ++ data)) := by
  constructor
  · intro hall hfits hc
    obtain ⟨q, hs, hwf, hhead, hcb', hbuf⟩ := h.store hfits
    obtain ⟨r, log, hr, hheld, hhead', pkt, ⟨k, hv, rfl⟩, hbad⟩ :=
      reaches_of_comes hc hwf.held hhead hbuf []
    have hv' : headVerdict r.head r.buffered = .frame k := hhead' ▸ hv
    refine hbad (hall _ ⟨q, _, hs, hr.tail (hheld.iterates_frame hv'), ?_⟩)
    rw [delivered_of_cb (hcb'.trans hcb), frames_append]
    exact List.mem_append_right _ (List.mem_singleton.2 rfl)
  · rintro hno pkt ⟨q, l, hs, hr, hin⟩
    have hfits : p.realPacketLen + data.length < 2 ^ 31 := by
      by_contra hlen
      rw [store_overflow (not_lt.1 hlen)] at hs
      simp at hs
    obtain ⟨q', hs', hwf, hhead, hcb', hbuf⟩ := h.store hfits
    obtain rfl := Except.ok.inj (hs.symm.trans hs')
    rw [delivered_of_cb (hcb'.trans hcb)] at hin
    have hc := (hwf.held.along_of_reaches hr).frames pkt hin
    rw [hhead, hbuf] at hc
    by_contra hbad
    exact hno hfits (hc.imp fun b hcut => ⟨pkt, hcut, hbad⟩)

/-- Of the chunks a parser is fed from the start, `OnRecvData` gets one of them in a state. -/
def Called (head : UInt32) (cs : List (List UInt8)) (p : PacketSync) (c : List UInt8) : Prop :=
  ∃ pre post log, cs = pre ++ c :: post ∧ (fresh head).feed pre = some (.ok (p, log))

/-- However a stream is cut into chunks, all packets passed on satisfy `Q` exactly when no call
comes to one that does not. -/
theorem called_passes_iff {head : UInt32} {cs : List (List UInt8)} {Q : List UInt8 → Prop} :
    (∀ p c pkt, Called head cs p c → p.Passes c pkt → Q pkt) ↔
      ∀ p c, Called head cs p c → p.realPacketLen + c.length < 2 ^ 31 →
        ¬ Comes (headFramer head) (fun b => ∃ pkt, Cuts (headFramer head) pkt b ∧ ¬ Q pkt)
          (p.buffered ++ c) := by
  have hiff : ∀ p c, Called head cs p c → ((∀ pkt, p.Passes c pkt → Q pkt) ↔
      (p.realPacketLen + c.length < 2 ^ 31 → ¬ Comes (headFramer head)
        (fun b => ∃ pkt, Cuts (headFramer head) pkt b ∧ ¬ Q pkt) (p.buffered ++ c))) := by
    rintro p c ⟨pre, post, log, -, hfeed⟩
    obtain ⟨hwf, hhead, hcb, -⟩ := (wf_fresh head).feed_sound hfeed
    have hhead : p.head = head := hhead
    rw [← hhead]
    exact hwf.passes_iff (hcb.trans rfl)
  exact ⟨fun h p c hc => (hiff p c hc).1 fun pkt => h p c pkt hc,
    fun h p c pkt hc => (hiff p c hc).2 (h p c hc) pkt⟩

/-- However a stream is cut into chunks, all packets passed on are well formed exactly when no call
comes to a packet whose size wraps. -/
theorem delivered_wellFormed_iff {head : UInt32} {cs : List (List UInt8)} :
    (∀ p c pkt, Called head cs p c → p.Passes c pkt → WellFormed head pkt) ↔
      ∀ p c, Called head cs p c → p.realPacketLen + c.length < 2 ^ 31 →
        ¬ Comes (headFramer head) (Announces head fun d => 2 ^ 32 - 12 ≤ d.toNat)
          (p.buffered ++ c) := by
  rw [called_passes_iff]
  simp only [cuts_malformed_iff]

/-- A header that announces one byte less than `2^32`, and one byte. -/
def wrappedPacket : List UInt8 :=
  u32Bytes defPackHeadFlag ++ (u32Bytes 1000 ++ (u32Bytes 0xFFFFFFFF ++ [7]))

/-- A packet of eleven bytes is passed on. -/
theorem delivers_malformed : ¬ ∀ (head : UInt32) (cs : List (List UInt8)) (p : PacketSync)
    (c pkt : List UInt8), Called head cs p c → p.Passes c pkt → WellFormed head pkt := by
  intro h
  have hall := fun pkt => h defPackHeadFlag [wrappedPacket] _ wrappedPacket pkt
    ⟨[], [], [], rfl, rfl⟩
  refine ((wf_fresh defPackHeadFlag).passes_iff rfl).1 hall (by decide) (.here ?_)
  exact cuts_malformed_iff.2 ⟨by decide, by decide, 0xFFFFFFFF, by decide, by decide⟩

end PacketSync

end TestLibuv
