import TestLibuv.Programs
import TestLibuv.Udp
import TestLibuv.Proofs.WrappedSize

/-!
# The receive callbacks of the programs

A packet that is passed on holds as much data as it announces, unless its size wraps, so the copies
of a callback that trusts `dataSize` stay within the packet; they stay within the 1024 bytes they go
to only if no more is announced. The read buffer of a datagram holds more than that too.
-/

namespace TestLibuv

open CMem Framing

/-- A callback that made no access outside a block. -/
def Stays {α : Type} (r : Except Fault α) : Prop := ∃ a, r = .ok a

theorem stays_bind_iff {α β : Type} {x : Except Fault α} {f : α → Except Fault β} :
    Stays (x >>= f) ↔ ∃ a, x = .ok a ∧ Stays (f a) := by
  constructor
  · rintro ⟨b, hb⟩
    obtain ⟨a, ha, hf⟩ := bind_eq_ok hb
    exact ⟨a, ha, b, hf⟩
  · rintro ⟨a, rfl, hf⟩
    exact hf

/-- A packet holds its header and all of its data, and not more data than `szRecvData` does. -/
def FitsRecv (pkt : List UInt8) : Prop :=
  ∃ d, u32Of (pkt.drop 8) = some d ∧ 12 + d.toNat ≤ pkt.length ∧ d.toNat ≤ 1024

/-! ## The callbacks -/

theorem stays_copyRecvData_iff {src : List UInt8} :
    Stays (copyRecvData src) ↔ src.length ≤ 1024 := by
  unfold Stays copyRecvData memcpy
  split_ifs with h <;> simp at h ⊢ <;> omega

theorem packetFields_eq_ok_iff {pkt data : List UInt8} {d : UInt32} :
    packetFields pkt = .ok (d, data) ↔ u32Of (pkt.drop 8) = some d
      ∧ 12 + d.toNat ≤ pkt.length ∧ data = (pkt.drop 12).take d.toNat := by
  constructor
  · intro h
    obtain ⟨d', hd, h⟩ := bind_eq_ok h
    obtain ⟨data', hdata, h⟩ := bind_eq_ok h
    obtain ⟨rfl, rfl⟩ := Prod.mk.inj (Except.ok.inj h)
    have hof : u32Of (pkt.drop 8) = some d' := by
      unfold loadU32 at hd
      split at hd
      · exact ‹_ = some _›.trans (congrArg some (Except.ok.inj hd))
      · cases hd
    have hlen := length_of_u32Of hof
    unfold loadN at hdata
    split_ifs at hdata with hle
    rw [List.length_drop] at hlen hle
    exact ⟨hof, by omega, (Except.ok.inj hdata).symm⟩
  · rintro ⟨hof, hle, rfl⟩
    have hroom : d.toNat ≤ (pkt.drop 12).length := by
      rw [List.length_drop]
      omega
    rw [packetFields, loadU32_ok hof]
    exact congrArg (Except.map (d, ·)) (loadN_ok hroom)

/-- The buffer sent back has room for the header and the data. -/
theorem stays_sendBack {pkt data : List UInt8} {d : UInt32} (hlen : 12 ≤ pkt.length)
    (hd : d.toNat ≤ 1024) (hdata : data.length = d.toNat) :
    Stays (TestTcpSvrFunc.sendBack pkt d data) := by
  have hsize : (toU32 (ofU32 (d + netPackageHeadlen))).toNat = d.toNat + 12 := by
    rw [toU32_ofU32, toNat_packSize, if_pos (by omega)]
  have hhead : (pkt.take 12).length = 12 := List.length_take_of_le hlen
  refine stays_bind_iff.2 ⟨pkt.take 12, loadN_ok hlen, ?_⟩
  rw [hsize]
  refine stays_bind_iff.2 ⟨_, memcpy_ok _ le_rfl (by simp [hhead]), _, memcpy_ok _ (by simp) ?_⟩
  simp [hhead, hdata]

theorem stays_client_iff {pkt : List UInt8} :
    Stays (TestTcpClientFunc.recv pkt) ↔ FitsRecv pkt := by
  constructor
  · intro h
    obtain ⟨⟨d, data⟩, hfields, hcopy⟩ := stays_bind_iff.1 h
    obtain ⟨hd, hlen, rfl⟩ := packetFields_eq_ok_iff.1 hfields
    have hle := stays_copyRecvData_iff.1 hcopy
    rw [List.length_take_of_le (by rw [List.length_drop]; omega)] at hle
    exact ⟨d, hd, hlen, hle⟩
  · rintro ⟨d, hd, hlen, hle⟩
    refine stays_bind_iff.2 ⟨_, packetFields_eq_ok_iff.2 ⟨hd, hlen, rfl⟩, ?_⟩
    exact stays_copyRecvData_iff.2 ((List.length_take_le _ _).trans hle)

theorem stays_server_iff {pkt : List UInt8} :
    Stays (TestTcpSvrFunc.recv pkt) ↔ FitsRecv pkt := by
  constructor
  · intro h
    obtain ⟨⟨d, data⟩, hfields, h⟩ := stays_bind_iff.1 h
    obtain ⟨szRecvData, hcopy, -⟩ := stays_bind_iff.1 h
    exact stays_client_iff.1 (stays_bind_iff.2 ⟨_, hfields, _, hcopy⟩)
  · intro h
    obtain ⟨⟨d, data⟩, hfields, szRecvData, hcopy⟩ := stays_bind_iff.1 (stays_client_iff.2 h)
    obtain ⟨hd, hlen, rfl⟩ := packetFields_eq_ok_iff.1 hfields
    have hdata : ((pkt.drop 12).take d.toNat).length = d.toNat :=
      List.length_take_of_le (by rw [List.length_drop]; omega)
    have hle : d.toNat ≤ 1024 := hdata ▸ stays_copyRecvData_iff.1 ⟨_, hcopy⟩
    have hlen : 12 ≤ pkt.length := by omega
    obtain ⟨buffer, hback⟩ := stays_sendBack hlen hle hdata
    exact stays_bind_iff.2 ⟨_, hfields, stays_bind_iff.2 ⟨_, hcopy,
      stays_bind_iff.2 ⟨_, hback, _, rfl⟩⟩⟩

theorem stays_udp_server_iff {data : List UInt8} :
    Stays (TestUdpSvrFunc.recv data) ↔ data.length ≤ 1024 := by
  rw [← stays_copyRecvData_iff]
  constructor
  · intro h
    obtain ⟨szRecvData, hcopy, -⟩ := stays_bind_iff.1 h
    exact ⟨szRecvData, hcopy⟩
  · rintro ⟨szRecvData, hcopy⟩
    exact stays_bind_iff.2 ⟨szRecvData, hcopy, _, rfl⟩

/-! ## The packets that do not fit -/

/-- A packet whose `dataSize` is more than `szRecvData` holds has come whole, as its size is
computed. -/
def ComesLarge (head : UInt32) (b : List UInt8) : Prop :=
  Announces head (fun d => 1024 < d.toNat) b ∧ ∃ k, packSize b = some k ∧ k ≤ b.length

/-- A field of the bytes a packet was cut off of that the packet holds. -/
theorem u32Of_of_take {b : List UInt8} {k : ℕ} {d : UInt32}
    (h : u32Of ((b.take k).drop 8) = some d) : u32Of (b.drop 8) = some d := by
  have hlen := length_of_u32Of h
  rw [List.length_drop, List.length_take] at hlen
  have happ : b.drop 8 = (b.take k).drop 8 ++ b.drop k := by
    rw [← List.drop_append_of_le_length (by rw [List.length_take]; omega), List.take_append_drop]
  rw [happ, u32Of_append h]

theorem cuts_large_iff {head : UInt32} {b : List UInt8} :
    (∃ pkt, Cuts (headFramer head) pkt b ∧ ¬ FitsRecv pkt) ↔ ComesLarge head b := by
  constructor
  · rintro ⟨pkt, hcut, hbad⟩
    obtain ⟨k, hv, rfl⟩ := hcut
    obtain ⟨hlen, hf, hk, hle⟩ := headVerdict_frame_iff.1 hv
    refine ⟨?_, k, hk, hle⟩
    rcases PacketSync.announces_or_wellFormed ⟨k, hv, rfl⟩ with
      ⟨⟨-, -, d, hd, hwrap⟩, -⟩ | ⟨-, -, d, hd, hsize⟩
    · exact ⟨hlen, hf, d, hd, by omega⟩
    · refine ⟨hlen, hf, d, u32Of_of_take hd, ?_⟩
      by_contra hle
      exact hbad ⟨d, hd, hsize.ge, not_lt.1 hle⟩
  · rintro ⟨⟨hlen, hf, d, hd, hlarge⟩, k, hk, hle⟩
    refine ⟨b.take k, ⟨k, headVerdict_frame_iff.2 ⟨hlen, hf, hk, hle⟩, rfl⟩, ?_⟩
    rintro ⟨d', hd', -, hle'⟩
    obtain rfl := Option.some.inj (hd.symm.trans (u32Of_of_take hd'))
    omega

namespace PacketSync

/-- No call comes to a packet that announces more than `szRecvData` holds. -/
def NoneLarge (head : UInt32) (cs : List (List UInt8)) : Prop :=
  ∀ p c, Called head cs p c → p.realPacketLen + c.length < 2 ^ 31 →
    ¬ Comes (headFramer head) (ComesLarge head) (p.buffered ++ c)

theorem noneLarge_iff {head : UInt32} {cs : List (List UInt8)} :
    (∀ p c pkt, Called head cs p c → p.Passes c pkt → FitsRecv pkt) ↔ NoneLarge head cs := by
  rw [called_passes_iff]
  simp only [cuts_large_iff, NoneLarge]

/-- However a stream is cut into chunks, no copy of the TCP callbacks leaves a block exactly when no
packet comes whole that announces more than 1024 bytes; of a datagram, when it has no more. -/
theorem recv_stays_iff (head : UInt32) (cs : List (List UInt8)) (data : List UInt8) :
    ((∀ p c pkt, Called head cs p c → p.Passes c pkt → Stays (TestTcpSvrFunc.recv pkt))
        ↔ NoneLarge head cs)
      ∧ ((∀ p c pkt, Called head cs p c → p.Passes c pkt → Stays (TestTcpClientFunc.recv pkt))
        ↔ NoneLarge head cs)
      ∧ (Stays (TestUdpSvrFunc.recv data) ↔ data.length ≤ 1024)
      ∧ (Stays (TestUdpClientFunc.recv data) ↔ data.length ≤ 1024) := by
  refine ⟨?_, ?_, stays_udp_server_iff, stays_copyRecvData_iff⟩
  · simp only [stays_server_iff, noneLarge_iff]
  · simp only [stays_client_iff, noneLarge_iff]

/-- A packet of 1025 bytes of data. -/
def largePacket : List UInt8 :=
  u32Bytes defPackHeadFlag ++ (u32Bytes 1000 ++ (u32Bytes 1025 ++ malloc 1025))

theorem comesLarge_largePacket : ComesLarge defPackHeadFlag largePacket := by
  have hlen : largePacket.length = 1037 := by simp [largePacket]
  exact ⟨⟨by simp [hlen], rfl, 1025, rfl, by decide⟩, 1037, rfl, hlen.ge⟩

/-- Neither a packet nor a datagram the library passes on need fit `szRecvData`. -/
theorem recv_overflows : (¬ ∀ (cs : List (List UInt8)) p c pkt, Called defPackHeadFlag cs p c →
      p.Passes c pkt → Stays (TestTcpSvrFunc.recv pkt) ∧ Stays (TestTcpClientFunc.recv pkt))
    ∧ ¬ ∀ data : List UInt8, data.length ≤ packUdpSize →
      Stays (TestUdpSvrFunc.recv data) ∧ Stays (TestUdpClientFunc.recv data) := by
  constructor
  · intro h
    have hnone : NoneLarge defPackHeadFlag [largePacket] :=
      noneLarge_iff.1 fun p c pkt hc hp => stays_server_iff.1 (h [largePacket] p c pkt hc hp).1
    refine hnone _ largePacket ⟨[], [], [], rfl, rfl⟩ ?_ (.here ?_)
    · simp [largePacket, fresh, new, onPackageCBEvent, init]
    · simpa [buffered_fresh] using comesLarge_largePacket
  · intro h
    have hle := stays_udp_server_iff.1 (h (malloc 1400) (by simp [packUdpSize])).1
    simp at hle

end PacketSync

end TestLibuv
