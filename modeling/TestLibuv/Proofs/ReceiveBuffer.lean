import TestLibuv.Proofs.WrappedSize

/-!
# The receive buffer

As long as the bytes the framer leaves over and the next chunk are fewer than `2^31`, a call of
`OnRecvData` stays within `read_data`, in every iteration of its loop. The sum does not stay below
`2^31` by itself: a header may announce more than that, and all of it is waited for.
-/

namespace TestLibuv

open CMem While Framing

namespace PacketSync

variable {p q : PacketSync} {head : UInt32}

/-- `real_packet_len` and the block are within `read_data.len`. -/
structure InBlock (p : PacketSync) : Prop where
  nonneg : 0 ≤ p.realPacketLen
  within : p.realPacketLen ≤ p.readData.len.toNat
  block : p.readData.base.length = p.readData.len.toNat

/-- A call of `OnRecvData` neither overflows nor leaves `read_data`, nor does any iteration its loop
comes to, and the buffer is within its block before it, behind it and in between. -/
structure Safe (p : PacketSync) (data : List UInt8) : Prop where
  before : p.InBlock
  stores : ∃ q, p.store data = .ok q
  iterates : ∀ q l, p.store data = .ok q →
    Reaches RecvLoop.guard RecvLoop.body ⟨q, true, []⟩ l → l.sync.InBlock
      ∧ (RecvLoop.guard l = true → ∃ l', RecvLoop.body l = .ok l')
  after : ∀ q log, p.onRecvData data = some (.ok (q, log)) → q.InBlock

theorem Wf.inBlock (h : p.Wf) : p.InBlock := by
  have hnn := h.nonneg
  have hwithin := h.within
  exact ⟨hnn, by rw [← h.block]; omega, h.block⟩

/-- An iteration on a parser that holds the bytes it counts accesses only those. -/
theorem Held.body_ok (h : p.Held) (log : List (Segment UInt8))
    (hg : RecvLoop.guard ⟨p, true, log⟩ = true) : ∃ l, RecvLoop.body ⟨p, true, log⟩ = .ok l := by
  have hlen : 12 < p.buffered.length := by simpa [h.guard] using hg
  rcases hv : headVerdict p.head p.buffered with _ | k | _
  · exact ⟨_, h.body_wait hlen hv log⟩
  · exact ⟨_, (h.iterates_frame hv).2⟩
  · exact ⟨_, h.body_reject hv log⟩

theorem Wf.safe (h : p.Wf) {data : List UInt8} (hlen : p.realPacketLen + data.length < 2 ^ 31) :
    p.Safe data where
  before := h.inBlock
  stores := let ⟨q, hs, _⟩ := h.store hlen; ⟨q, hs⟩
  iterates q l hs hr := by
    obtain ⟨q', hs', hwf, -⟩ := h.store hlen
    obtain rfl := Except.ok.inj (hs.symm.trans hs')
    have hal := hwf.held.along_of_reaches hr
    refine ⟨(hwf.follows hal.held hal.follows).inBlock, fun hg => ?_⟩
    obtain ⟨r, b, log⟩ := l
    obtain rfl : b = true := hasPack_of_guard hg
    exact hal.held.body_ok log hg
  after q log hr := by
    obtain ⟨q', log', hok, hwf, -⟩ := h.onRecvData_sound hlen hr
    obtain ⟨rfl, rfl⟩ := Prod.mk.inj (Except.ok.inj hok)
    exact hwf.inBlock

theorem lt_of_store {data : List UInt8} (hs : p.store data = .ok q) :
    p.realPacketLen + data.length < 2 ^ 31 := by
  by_contra hlen
  simp [store_overflow (not_lt.1 hlen)] at hs

/-- Where each call it comes to finds room in an `int`, a sequence of calls fits. -/
theorem fits_of_calls : ∀ {cs : List (List UInt8)} {p : PacketSync},
    (∀ pre c post q log, cs = pre ++ c :: post → p.feed pre = some (.ok (q, log)) →
      q.realPacketLen + c.length < 2 ^ 31) → p.Fits cs
  | [], _, _ => trivial
  | c :: cs, p, h => by
    refine ⟨h [] c cs p [] rfl rfl, fun q log hq => fits_of_calls ?_⟩
    rintro pre d post r log' rfl hr
    exact h (c :: pre) d post r (log ++ log') rfl (by rw [feed_cons hq, hr]; rfl)

/-- Safe calls leave room for the chunk behind what the framer leaves over. -/
theorem lt_of_calls_safe {pre post : List (List UInt8)} {c : List UInt8}
    (hsafe : ∀ p d, Called head (pre ++ c :: post) p d → p.Safe d) {out : List (Segment UInt8)}
    {rest : List UInt8} (hf : Feeds (headFramer head) [] pre out rest) :
    rest.length + c.length < 2 ^ 31 := by
  have hcall : ∀ pre' d post' q log, pre ++ [c] = pre' ++ d :: post' →
      (fresh head).feed pre' = some (.ok (q, log)) → q.realPacketLen + d.length < 2 ^ 31 := by
    intro pre' d post' q log hpre hq
    have hcs : pre ++ c :: post = pre' ++ d :: (post' ++ post) := by
      rw [← List.singleton_append, ← List.append_assoc, hpre, List.append_assoc, List.cons_append]
    obtain ⟨r, hs⟩ := (hsafe q d ⟨pre', post' ++ post, log, hcs, hq⟩).stores
    exact lt_of_store hs
  obtain ⟨q, hq, rfl⟩ := (wf_fresh head).feed_complete (fits_of_calls hcall).append_left hf
  obtain ⟨hwf, -⟩ := (wf_fresh head).feed_sound hq
  have hlt := hcall pre c [] q out rfl hq
  rw [hwf.realPacketLen_eq] at hlt
  exact_mod_cast hlt

/-- However a stream is cut into chunks, every call of `OnRecvData` it comes to is safe exactly when
what the framer leaves over of the chunks before a call is always, together with the chunk, fewer
than `2^31` bytes. -/
theorem calls_safe_iff {cs : List (List UInt8)} : (∀ p c, Called head cs p c → p.Safe c) ↔
    ∀ pre c post out rest, cs = pre ++ c :: post → Feeds (headFramer head) [] pre out rest →
      rest.length + c.length < 2 ^ 31 := by
  constructor
  · rintro hsafe pre c post out rest rfl hf
    exact lt_of_calls_safe hsafe hf
  · rintro hcond p c ⟨pre, post, log, hcs, hq⟩
    obtain ⟨hwf, -, -, hf⟩ := (wf_fresh head).feed_sound hq
    refine hwf.safe ?_
    rw [hwf.realPacketLen_eq]
    exact_mod_cast hcond pre c post log p.buffered hcs hf

/-! ## A header that announces too much -/

theorem verdict_wait {b : List UInt8} {k : ℕ} (hf : u32Of b = some head) (hk : packSize b = some k)
    (hlen : 12 < b.length) (hlt : b.length < k) : (headFramer head).verdict b = .wait :=
  (headVerdict_good hlen hf hk).trans (if_neg (not_le.2 hlt))

/-- Bytes that begin with a header are all waited for until there are as many as it announces. -/
theorem feeds_wait {b : List UInt8} {k : ℕ} (hf : u32Of b = some head) (hk : packSize b = some k)
    (hlen : 12 < b.length) : ∀ {cs : List (List UInt8)} {c : List UInt8},
      (b ++ c).length + cs.flatten.length < k →
        Feeds (headFramer head) (b ++ c) cs [] (b ++ c ++ cs.flatten)
  | [], c, _ => by
    rw [List.flatten_nil, List.append_nil]
    exact .nil _
  | d :: cs, c, hlt => by
    rw [List.flatten_cons, List.length_append] at hlt
    have hwait : (headFramer head).verdict (b ++ (c ++ d)) = .wait := by
      refine verdict_wait (u32Of_append hf _) (packSize_append hk hlen _) ?_ ?_ <;>
        simp only [List.length_append] at hlt ⊢ <;> omega
    have hrest := @feeds_wait b k hf hk hlen cs (c ++ d) (by
      simp only [List.length_append] at hlt ⊢
      omega)
    rw [List.flatten_cons, ← List.append_assoc (b ++ c), List.append_assoc b c d]
    exact .cons (o := []) (by rw [List.append_assoc]; exact .wait hwait) hrest

/-- A header that announces `2^31` bytes, and as many behind it as a chunk holds. -/
def hugeHeader : List UInt8 :=
  u32Bytes defPackHeadFlag ++ (u32Bytes 1000 ++ (u32Bytes 0x80000000 ++ malloc 4084))

theorem length_hugeHeader : hugeHeader.length = 4096 := by
  simp [hugeHeader, length_malloc]

theorem u32Of_hugeHeader : u32Of hugeHeader = some defPackHeadFlag := rfl

theorem packSize_hugeHeader : packSize hugeHeader = some 2147483660 := rfl

theorem length_flatten_malloc (n k : ℕ) :
    (List.replicate n (malloc k)).flatten.length = n * k := by
  simp [length_malloc]

/-- Full chunks, two of them short of `2^31` bytes. -/
theorem exists_fullChunks : ∃ cs : List (List UInt8), (∀ c ∈ cs, c.length = 4096)
    ∧ cs.flatten.length = 2 ^ 31 - 8192 := by
  refine ⟨.replicate (2 ^ 19 - 2) (malloc 4096), fun c hc => ?_, length_flatten_malloc _ _⟩
  rw [List.eq_of_mem_replicate hc, length_malloc]

/-- `OnRecvData` overflows once `2^31` bytes of a packet have come. -/
theorem calls_unsafe : ¬ ∀ (head : UInt32) (cs : List (List UInt8)),
    (∀ c ∈ cs, 1 ≤ c.length ∧ c.length ≤ packBufferSize) →
      ∀ p c, Called head cs p c → p.Safe c := by
  intro h
  obtain ⟨zeros, hzeros, hflat⟩ := exists_fullChunks
  have hmalloc : (malloc 4096).length = 4096 := length_malloc _
  have hhuge := length_hugeHeader
  have hsafe := h defPackHeadFlag (hugeHeader :: zeros ++ [malloc 4096]) fun c hc => by
    have hlen : c.length = 4096 := by
      rcases List.mem_append.1 hc with hc | hc
      · rcases List.mem_cons.1 hc with rfl | hc
        · exact hhuge
        · exact hzeros c hc
      · rw [List.mem_singleton.1 hc, hmalloc]
    rw [hlen]
    decide
  have hv := verdict_wait u32Of_hugeHeader packSize_hugeHeader (by rw [hhuge]; decide)
    (by rw [hhuge]; decide)
  have hwait : Drains (headFramer defPackHeadFlag) ([] ++ hugeHeader) [] (hugeHeader ++ []) := by
    rw [List.nil_append, List.append_nil]
    exact .wait hv
  have hrest : Feeds (headFramer defPackHeadFlag) (hugeHeader ++ []) zeros [] _ :=
    feeds_wait u32Of_hugeHeader packSize_hugeHeader (by rw [hhuge]; decide) (by
      rw [List.append_nil, hhuge, hflat]
      decide)
  have hlt := lt_of_calls_safe hsafe (.cons hwait hrest)
  rw [List.length_append, List.length_append, hflat, hhuge, hmalloc, List.length_nil] at hlt
  exact absurd hlt (by decide)

end PacketSync

end TestLibuv
