import TestLibuv.Proofs.SessionParsing

/-!
# What a session is handed

A session's packets come out of its context's parser, which is a fresh one to it exactly if the
parser held nothing when `AcceptConnection` called `Init`. In a run whose connections find empty
parsers, each session is handed what a fresh parser makes of the bytes of its own connection.
-/

namespace TestLibuv

open Runs in
/-- Behind an `Init` a parser delivers what a fresh one does exactly if it held nothing, and in a
run of the server whose connections find their parsers so, each session has been handed what a
fresh parser makes of the bytes of its own connection. -/
theorem init_isolates (packhead : UInt32) :
    (∀ p, Reachable PacketSync.call PacketSync.new.onPackageCBEvent p →
      ((∀ cs, (∀ c ∈ cs, c ≠ []) →
        (p.init packhead).outcome cs = (PacketSync.fresh packhead).outcome cs)
          ↔ p.realPacketLen = 0))
    ∧ ∀ (as : List CTcpServer.Label) (s : CTcpServer),
      run CTcpServer.step (CTcpServer.started packhead) as = some s →
      Meets CTcpServer.step CTcpServer.Clean (CTcpServer.started packhead) as →
        ∀ a n, (a, n) ∈ s.accepted →
          (PacketSync.fresh packhead).outcome (s.chunksOf n) = some (.ok (s.packetsOf a)) := by
  refine ⟨fun p hp => PacketSync.outcome_init_iff hp packhead, fun as s hr hm => ?_⟩
  obtain ⟨-, h, hhead⟩ := invariant_of_meets
    (I := fun s => s.Owned ∧ s.Parsing (fun _ => True) ∧ s.packetHead = packhead)
    (fun _ _ _ h hl hs => ⟨CTcpServer.owned_step h.1 hs,
      CTcpServer.parsing_step h.1 h.2.1 (fun _ => hl) hs,
      (CTcpServer.packetHead_step hs).trans h.2.2⟩)
    ⟨CTcpServer.owned_started packhead, CTcpServer.parsing_started packhead, rfl⟩ hm hr
  exact fun a n hin => hhead ▸ h.isolated a n trivial hin

namespace CTcpServer

open Runs

/-- A connection brings one byte and ends, and its context is used again for a whole packet. -/
def reuse : List Label :=
  [.acceptConnection 0 ⟨0, 0, 0⟩, .afterRecv 0 [1], .afterRecvError 0 uvEof, .asyncEvent [],
    .asyncEvent [], .asyncEvent [], .handleClosed 0, .acceptConnection 0 ⟨0, 0, 0⟩,
    .afterRecv 0 (packetData 1000 [9] (by decide))]

/-- The same with nothing sent on the first connection. -/
def cleanReuse : List Label := reuse.eraseIdx 1

end CTcpServer

open Runs in
theorem init_isolates_cleanReuse : ∃ s,
    run CTcpServer.step (CTcpServer.started defPackHeadFlag) CTcpServer.cleanReuse = some s
      ∧ (PacketSync.fresh defPackHeadFlag).outcome (s.chunksOf 1) = some (.ok (s.packetsOf 1)) := by
  have hm : Meets CTcpServer.step CTcpServer.Clean (CTcpServer.started defPackHeadFlag)
      CTcpServer.cleanReuse := by decide +kernel
  have hend : (run CTcpServer.step (CTcpServer.started defPackHeadFlag)
      CTcpServer.cleanReuse).map CTcpServer.accepted = some [(0, 0), (1, 1)] := by decide +kernel
  obtain ⟨s, hs, hacc⟩ := Option.map_eq_some_iff.1 hend
  exact ⟨s, hs, (init_isolates _).2 _ s hs hm 1 1 (by simp [hacc])⟩

open Runs in
/-- A packet can be lost to what an earlier connection left in the context. -/
theorem session_not_isolated : ¬ ∀ (as : List CTcpServer.Label) (s : CTcpServer),
    run CTcpServer.step (CTcpServer.started defPackHeadFlag) as = some s →
      ∀ a n, (a, n) ∈ s.accepted →
        (PacketSync.fresh defPackHeadFlag).outcome (s.chunksOf n) = some (.ok (s.packetsOf a)) := by
  intro h
  have hend : (run CTcpServer.step (CTcpServer.started defPackHeadFlag) CTcpServer.reuse).map
      (fun s => (s.accepted, s.packetsOf 1, s.chunksOf 1))
      = some ([(0, 0), (1, 1)], [], [packetData 1000 [9] (by decide)]) := by decide +kernel
  obtain ⟨s, hs, hend⟩ := Option.map_eq_some_iff.1 hend
  simp only [Prod.mk.injEq] at hend
  obtain ⟨hacc, hpackets, hchunks⟩ := hend
  have hall := h _ s hs 1 1 (by simp [hacc])
  rw [hpackets, hchunks] at hall
  exact absurd hall (by decide +kernel)

end TestLibuv
