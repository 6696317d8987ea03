import TestLibuv.Proofs.PacketDrain

/-!
# What becomes of the bytes

On any stream the bytes received are those of the packets delivered and of the blocks discarded, in
order, and behind them the bytes that `read_data` holds. A packet is delivered from where the head
flag stands in the stream, whatever size its header comes to, and a block is discarded only where
another number stands.
-/

namespace TestLibuv

open CMem Framing

/-- A packet stands in the stream where the head flag does; a block that was discarded is longer
than a header and begins with another number. -/
def Placed (head : UInt32) (b : List UInt8) : Segment UInt8 → Prop
  | .frame fr => u32Of b = some head ∧ fr <+: b
  | .dropped d => 12 < d.length ∧ u32Of d ≠ some head

theorem Placed.of_decided {head : UInt32} {b : List UInt8} {s : Segment UInt8}
    (h : Decided (headFramer head) b s) : Placed head b s := by
  rcases s with fr | d
  · exact ⟨(headVerdict_frame_iff.1 h.1).2.1, h.2⟩
  · exact headVerdict_reject_iff.1 h.1

namespace PacketSync

/-- However a stream is cut into chunks, behind each call that returns every byte received was
delivered in a packet, discarded in a block or is held, each in its place. -/
theorem bytes_conserved {head : UInt32} {cs : List (List UInt8)} {q : PacketSync}
    {log : List (Segment UInt8)} (h : (fresh head).feed cs = some (.ok (q, log))) :
    cs.flatten = (log.map Segment.bytes).flatten ++ q.buffered
      ∧ q.realPacketLen = q.buffered.length
      ∧ q.delivered log = frames log
      ∧ ∀ pre s post, log = pre ++ s :: post →
        Placed head (cs.flatten.drop (pre.map Segment.bytes).flatten.length) s := by
  obtain ⟨hwf, -, hcb, hf⟩ := (wf_fresh head).feed_sound h
  refine ⟨hf.bytes.symm, hwf.realPacketLen_eq, delivered_of_cb hcb log, fun pre s post hlog => ?_⟩
  exact .of_decided (hf.decided hlog)

/-- A header that announces one byte less than `2^32`, which is cut off as eleven bytes, and then
bytes that begin with another number. -/
def wrappedChunks : List (List UInt8) :=
  [u32Bytes defPackHeadFlag ++ u32Bytes 1000, u32Bytes 0xFFFFFFFF ++ malloc 12]

theorem bytes_conserved_wrapped : ∃ q log,
    (fresh defPackHeadFlag).feed wrappedChunks = some (.ok (q, log))
      ∧ log.map Segment.isFrame = [true, false]
      ∧ wrappedChunks.flatten = (log.map Segment.bytes).flatten ++ q.buffered
      ∧ q.realPacketLen = q.buffered.length
      ∧ q.delivered log = frames log
      ∧ ∀ pre s post, log = pre ++ s :: post → Placed defPackHeadFlag
        (wrappedChunks.flatten.drop (pre.map Segment.bytes).flatten.length) s := by
  have hwait : Drains (headFramer defPackHeadFlag)
      ([] ++ (u32Bytes defPackHeadFlag ++ u32Bytes 1000)) []
      (u32Bytes defPackHeadFlag ++ u32Bytes 1000) := .wait rfl
  obtain ⟨out, hrest, hout⟩ : ∃ out, Drains (headFramer defPackHeadFlag)
      (u32Bytes defPackHeadFlag ++ u32Bytes 1000 ++ (u32Bytes 0xFFFFFFFF ++ malloc 12)) out []
        ∧ out.map Segment.isFrame = [true, false] := ⟨_, .frame rfl (.reject rfl), rfl⟩
  obtain ⟨q, hq, -⟩ := (wf_fresh defPackHeadFlag).feed_complete
    ((wf_fresh defPackHeadFlag).fits (by decide)) (.cons hwait (.cons hrest (.nil [])))
  refine ⟨q, _, hq, ?_, bytes_conserved hq⟩
  simpa using hout

end PacketSync

end TestLibuv
