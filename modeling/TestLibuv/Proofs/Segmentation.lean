import TestLibuv.Proofs.PacketDrain

/-!
# What the segmentation decides

On a bad header the parser throws away what happens to be buffered, so what it loses depends on
how the stream was cut: of a packet, thirteen bytes of junk and the packet again, one chunk loses
the second packet and two chunks do not. Up to the first bad header the chunks make no difference.
-/

namespace TestLibuv

open CMem While Framing

/-- A packet of one byte of payload. -/
def onePacket : List UInt8 := packetData 1000 [7] (by decide)

/-- Longer than a header, and not beginning with the head flag. -/
def junk : List UInt8 := malloc 13

theorem feed_whole : ∃ q, (PacketSync.fresh defPackHeadFlag).feed [onePacket ++ junk ++ onePacket]
    = some (.ok (q, [.frame onePacket, .dropped (junk ++ onePacket)])) ∧ q.buffered = [] := by
  refine (PacketSync.wf_fresh _).feed_complete ((PacketSync.wf_fresh _).fits (by decide)) ?_
  exact .cons (.frame (n := 13) (by decide) (.reject (by decide))) (.nil _)

theorem feed_parted : ∃ q, (PacketSync.fresh defPackHeadFlag).feed
    [onePacket ++ junk, onePacket]
      = some (.ok (q, [.frame onePacket, .dropped junk, .frame onePacket])) ∧ q.buffered = [] := by
  refine (PacketSync.wf_fresh _).feed_complete ((PacketSync.wf_fresh _).fits (by decide)) ?_
  exact .cons (.frame (n := 13) (by decide) (.reject (by decide)))
    (.cons (.frame (n := 13) (by decide) (.wait rfl)) (.nil _))

/-- Two ways of cutting one stream, on both of which `OnRecvData` returns, need not deliver the
same packets. -/
theorem segmentation_matters : ¬ ∀ (head : UInt32) (cs cs' : List (List UInt8))
    (q q' : PacketSync) (log log' : List (Segment UInt8)),
    (∀ c ∈ cs, c ≠ []) → (∀ c ∈ cs', c ≠ []) → cs.flatten = cs'.flatten →
    (PacketSync.fresh head).feed cs = some (.ok (q, log)) →
    (PacketSync.fresh head).feed cs' = some (.ok (q', log')) →
      q.delivered log = q'.delivered log' ∧ q.buffered = q'.buffered := by
  intro h
  obtain ⟨q, hq, -⟩ := feed_whole
  obtain ⟨q', hq', -⟩ := feed_parted
  obtain ⟨-, -, hcb, -⟩ := (PacketSync.wf_fresh _).feed_sound hq
  obtain ⟨-, -, hcb', -⟩ := (PacketSync.wf_fresh _).feed_sound hq'
  have hd := (h _ _ _ q q' _ _ (by decide) (by decide) (by decide) hq hq').1
  rw [PacketSync.delivered_of_cb hcb, PacketSync.delivered_of_cb hcb'] at hd
  exact absurd hd (by decide)

/-- However a stream is cut, on chunks on which `OnRecvData` returns, the packets delivered before
the first bad header are the same, a bad header is met on either way or on neither, and where it
is not met all packets and the bytes left buffered are the same. -/
theorem segmentation_agrees {head : UInt32} {cs cs' : List (List UInt8)} {q q' : PacketSync}
    {log log' : List (Segment UInt8)} (hcs : cs.flatten = cs'.flatten)
    (h : (PacketSync.fresh head).feed cs = some (.ok (q, log)))
    (h' : (PacketSync.fresh head).feed cs' = some (.ok (q', log'))) :
    q.delivered (lead log) = q'.delivered (lead log') ∧ (Clean log ↔ Clean log')
      ∧ (Clean log → q.delivered log = q'.delivered log' ∧ q.buffered = q'.buffered) := by
  obtain ⟨-, -, hcb, hf⟩ := (PacketSync.wf_fresh head).feed_sound h
  obtain ⟨-, -, hcb', hf'⟩ := (PacketSync.wf_fresh head).feed_sound h'
  obtain ⟨hlead, hclean, heq⟩ := hf.agree hf' rfl hcs
  simp only [PacketSync.delivered_of_cb (hcb.trans rfl),
    PacketSync.delivered_of_cb (hcb'.trans rfl)]
  refine ⟨congrArg frames hlead, hclean, fun hc => ?_⟩
  obtain ⟨rfl, hrest⟩ := heq hc
  exact ⟨rfl, hrest⟩

theorem segmentation_agrees_junk : ∃ q q' log log',
    (PacketSync.fresh defPackHeadFlag).feed [onePacket ++ junk ++ onePacket]
      = some (.ok (q, log))
    ∧ (PacketSync.fresh defPackHeadFlag).feed [onePacket ++ junk, onePacket]
      = some (.ok (q', log'))
    ∧ q.delivered (lead log) = q'.delivered (lead log') ∧ (Clean log ↔ Clean log')
    ∧ (Clean log → q.delivered log = q'.delivered log' ∧ q.buffered = q'.buffered) := by
  obtain ⟨q, hq, -⟩ := feed_whole
  obtain ⟨q', hq', -⟩ := feed_parted
  exact ⟨q, q', _, _, hq, hq', segmentation_agrees (by decide) hq hq'⟩

end TestLibuv
