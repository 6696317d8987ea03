import TestLibuv.PacketFramer

/-!
# `OnRecvData` drains

On a parser that keeps `real_packet_len` within its block, one iteration of the loop acts on the
bytes buffered as the framer's verdict on them says, so the loop stops exactly when the framer
drains them, and leaves what the drain leaves (`onRecvData_iff`); fed chunk after chunk it does what
the framer does (`feed_iff`). The only fault a call can meet is the overflow of `real_packet_len`.
-/

namespace TestLibuv

open CMem While Framing

namespace PacketSync

/-- The bytes counted are there, and their number is an `int`. -/
structure Held (p : PacketSync) : Prop where
  nonneg : 0 ≤ p.realPacketLen
  within : p.realPacketLen.toNat ≤ p.readData.base.length
  int : p.realPacketLen < 2 ^ 31

/-- What every call of `OnRecvData` keeps. -/
structure Wf (p : PacketSync) : Prop where
  block : p.readData.base.length = p.readData.len.toNat
  nonneg : 0 ≤ p.realPacketLen
  within : p.realPacketLen.toNat ≤ p.readData.base.length
  int : p.realPacketLen < 2 ^ 31

variable {p : PacketSync}

theorem Wf.held (h : p.Wf) : p.Held := ⟨h.nonneg, h.within, h.int⟩

theorem Held.length_buffered (h : p.Held) : p.buffered.length = p.realPacketLen.toNat := by
  have := h.within
  rw [buffered, List.length_take]
  omega

theorem Held.toNat_toU32 (h : p.Held) : (toU32 p.realPacketLen).toNat = p.buffered.length := by
  have := h.int
  rw [CMem.toNat_toU32 h.nonneg (by omega), h.length_buffered]

theorem Held.guard (h : p.Held) (log : List (Segment UInt8)) :
    RecvLoop.guard ⟨p, true, log⟩ = decide (12 < p.buffered.length) := by
  unfold RecvLoop.guard
  rw [Bool.true_and, decide_eq_decide, UInt32.lt_iff_toNat_lt, h.toNat_toU32]
  rfl

theorem Held.load (h : p.Held) (off : ℕ) (hoff : off + 4 ≤ p.buffered.length) :
    ∃ x, u32Of (p.buffered.drop off) = some x ∧ loadU32 p.readData.base off = .ok x := by
  obtain ⟨x, hx⟩ := u32Of_isSome (b := p.buffered.drop off) (by rw [List.length_drop]; omega)
  refine ⟨x, hx, loadU32_ok ?_⟩
  rw [h.length_buffered] at hoff
  rw [← hx, buffered, u32Of_drop_take hoff h.within]

/-! ## One iteration -/

/-- The parser once `k` buffered bytes are removed. -/
def cut (p : PacketSync) (k : ℕ) : PacketSync :=
  { p with
    readData := { p.readData with
      base := p.buffered.drop k ++ p.readData.base.drop (p.buffered.length - k) }
    realPacketLen := (p.buffered.length - k : ℕ) }

theorem buffered_cut (p : PacketSync) (k : ℕ) : (p.cut k).buffered = p.buffered.drop k := by
  have h : (p.buffered.drop k).length = p.buffered.length - k := List.length_drop
  unfold cut
  rw [buffered, Int.toNat_natCast, ← h, List.take_left]

theorem Held.length_cut (h : p.Held) {k : ℕ} (hk : k ≤ p.buffered.length) :
    (p.cut k).readData.base.length = p.readData.base.length := by
  have hlen := h.length_buffered
  have hwithin := h.within
  simp only [PacketSync.cut, List.length_append, List.length_drop]
  omega

theorem Held.cut (h : p.Held) {k : ℕ} (hk : k ≤ p.buffered.length) : (p.cut k).Held := by
  have hlen := h.length_buffered
  have hwithin := h.within
  have hint := h.int
  have hbase := h.length_cut hk
  have hrpl : (p.cut k).realPacketLen = (p.buffered.length - k : ℕ) := rfl
  refine ⟨?_, ?_, ?_⟩ <;> rw [hrpl] <;> omega

theorem Held.clear (_ : p.Held) : Held { p with realPacketLen := 0 } :=
  ⟨le_refl _, Nat.zero_le _, show (0 : ℤ) < 2 ^ 31 by decide⟩

/-- What the loop leaves alone. -/
structure Follows (q p : PacketSync) : Prop where
  head : q.head = p.head
  cb : q.funcPackageCb = p.funcPackageCb
  len : q.readData.len = p.readData.len
  block : q.readData.base.length = p.readData.base.length

theorem Follows.refl (p : PacketSync) : Follows p p := ⟨rfl, rfl, rfl, rfl⟩

theorem Follows.trans {q r : PacketSync} (h : Follows r q) (h' : Follows q p) : Follows r p :=
  ⟨h.head.trans h'.head, h.cb.trans h'.cb, h.len.trans h'.len, h.block.trans h'.block⟩

theorem Held.follows_cut (h : p.Held) {k : ℕ} (hk : k ≤ p.buffered.length) :
    Follows (p.cut k) p := ⟨rfl, rfl, rfl, h.length_cut hk⟩

theorem Wf.follows {q : PacketSync} (h : p.Wf) (hq : q.Held) (hf : Follows q p) : q.Wf :=
  ⟨by rw [hf.block, hf.len, h.block], hq.nonneg, hq.within, hq.int⟩

theorem Held.body_reject (h : p.Held) (hv : headVerdict p.head p.buffered = .reject)
    (log : List (Segment UInt8)) : RecvLoop.body ⟨p, true, log⟩
      = .ok ⟨{ p with realPacketLen := 0 }, true, log ++ [.dropped p.buffered]⟩ := by
  obtain ⟨hlen, hf⟩ := headVerdict_reject_iff.1 hv
  obtain ⟨f, hf', hload⟩ := h.load 0 (by omega)
  have hne : f ≠ p.head := by
    rintro rfl
    exact hf hf'
  simp only [RecvLoop.body, hload, bind, Except.bind, if_neg hne]
  rfl

theorem Held.body_good (h : p.Held) {k : ℕ} (hlen : 12 < p.buffered.length)
    (hf : u32Of p.buffered = some p.head) (hk : packSize p.buffered = some k)
    (log : List (Segment UInt8)) : RecvLoop.body ⟨p, true, log⟩
      = if k ≤ p.buffered.length then
          .ok ⟨p.cut k, true, log ++ [.frame (p.buffered.take k)]⟩
        else .ok ⟨p, false, log⟩ := by
  obtain ⟨f, hf', hload⟩ := h.load 0 (by omega)
  obtain ⟨d, hd, hload'⟩ := h.load 8 (by omega)
  obtain rfl : f = p.head := by
    rw [List.drop_zero, hf] at hf'
    exact (Option.some.inj hf').symm
  have hkd : (d + netPackageHeadlen).toNat = k := by
    rw [packSize, hd] at hk
    exact Option.some.inj hk
  have hu := h.toNat_toU32
  have hint := h.int
  have hwithin := h.within
  have hblen := h.length_buffered
  simp only [RecvLoop.body, hload, hload', bind, Except.bind, ↓reduceIte, hkd]
  by_cases hle : k ≤ p.buffered.length
  · have hsub : (toU32 p.realPacketLen - (d + netPackageHeadlen)).toNat
        = p.buffered.length - k := by
      rw [UInt32.toNat_sub_of_le _ _ (by rw [UInt32.le_iff_toNat_le]; omega), hu, hkd]
    have hmem : memmove p.readData.base k (p.buffered.length - k)
        = .ok (p.buffered.drop k ++ p.readData.base.drop (p.buffered.length - k)) := by
      have htake : (p.readData.base.drop k).take (p.buffered.length - k) = p.buffered.drop k := by
        rw [List.take_drop, show k + (p.buffered.length - k) = p.realPacketLen.toNat by omega]
        rfl
      rw [memmove_ok (by omega), htake]
    have htake : p.readData.base.take k = p.buffered.take k := by
      rw [buffered, List.take_take, min_eq_left (by omega)]
    rw [if_pos (by rw [UInt32.le_iff_toNat_le]; omega), if_pos hle, hsub, hmem, htake,
      ofU32_of_lt (by omega), hsub]
    rfl
  · rw [if_neg (by rw [UInt32.le_iff_toNat_le]; omega), if_neg hle]
    rfl

/-- A packet that is not whole yet ends the loop. -/
theorem Held.body_wait (h : p.Held) (hlen : 12 < p.buffered.length)
    (hv : headVerdict p.head p.buffered = .wait) (log : List (Segment UInt8)) :
    RecvLoop.body ⟨p, true, log⟩ = .ok ⟨p, false, log⟩ := by
  obtain ⟨k, hk⟩ := packSize_isSome hlen
  have hf : u32Of p.buffered = some p.head := by
    by_contra hf
    simp [headVerdict_bad hlen hf] at hv
  have hle : ¬ k ≤ p.buffered.length := by
    intro hle
    simp [headVerdict_good hlen hf hk, if_pos hle] at hv
  rw [h.body_good hlen hf hk log, if_neg hle]

/-! ## The loop -/

theorem Held.stay (h : p.Held) (hv : headVerdict p.head p.buffered = .wait)
    (log : List (Segment UInt8)) (n : ℕ) : ∃ b,
      whileFuel RecvLoop.guard RecvLoop.body (n + 1) ⟨p, true, log⟩ = some (.ok ⟨p, b, log⟩) := by
  by_cases hlen : 12 < p.buffered.length
  · refine ⟨false, ?_⟩
    rw [whileFuel_step (by rw [h.guard]; simpa using hlen) (h.body_wait hlen hv log)]
    exact whileFuel_exit rfl _
  · refine ⟨true, whileFuel_exit ?_ _⟩
    rw [h.guard]
    simpa using hlen

theorem Held.step_frame (h : p.Held) {k : ℕ} (hv : headVerdict p.head p.buffered = .frame k)
    (log : List (Segment UInt8)) (n : ℕ) :
    whileFuel RecvLoop.guard RecvLoop.body (n + 1) ⟨p, true, log⟩
      = whileFuel RecvLoop.guard RecvLoop.body n
          ⟨p.cut k, true, log ++ [.frame (p.buffered.take k)]⟩ := by
  obtain ⟨hlen, hf, hk, hle⟩ := headVerdict_frame_iff.1 hv
  have hb := h.body_good hlen hf hk log
  rw [if_pos hle] at hb
  exact whileFuel_step (by rw [h.guard]; simpa using hlen) hb n

theorem Held.step_reject (h : p.Held) (hv : headVerdict p.head p.buffered = .reject)
    (log : List (Segment UInt8)) (n : ℕ) :
    whileFuel RecvLoop.guard RecvLoop.body (n + 1) ⟨p, true, log⟩
      = some (.ok ⟨{ p with realPacketLen := 0 }, true, log ++ [.dropped p.buffered]⟩) := by
  have hlen := (headVerdict_reject_iff.1 hv).1
  rw [whileFuel_step (by rw [h.guard]; simpa using hlen) (h.body_reject hv log)]
  exact whileFuel_exit (by rw [h.clear.guard]; simp [buffered]) _

/-- The loop, where it stops, leaves a drain of what was buffered. -/
theorem Held.loop_sound : ∀ (n : ℕ) {p : PacketSync}, p.Held → ∀ {log : List (Segment UInt8)}
    {r : Except Fault RecvLoop},
    whileFuel RecvLoop.guard RecvLoop.body n ⟨p, true, log⟩ = some r →
      ∃ q b out, r = .ok ⟨q, b, log ++ out⟩ ∧ q.Held ∧ Follows q p
        ∧ Drains (headFramer p.head) p.buffered out q.buffered
  | 0, p, h, log, r, hr => by
    unfold whileFuel at hr
    rw [h.guard] at hr
    split_ifs at hr with hlen
    obtain rfl := Option.some.inj hr
    refine ⟨p, true, [], ?_, h, .refl p, .wait (headVerdict_short (by simpa using hlen))⟩
    rw [List.append_nil]
  | n + 1, p, h, log, r, hr => by
    rcases hv : headVerdict p.head p.buffered with _ | k | _
    · obtain ⟨b, hb⟩ := h.stay hv log n
      obtain rfl := Option.some.inj (hb.symm.trans hr)
      refine ⟨p, b, [], ?_, h, .refl p, .wait hv⟩
      rw [List.append_nil]
    · have hle := (headFramer p.head).frame_le hv
      rw [h.step_frame hv] at hr
      obtain ⟨q, b, out, rfl, hq, hf, hd⟩ := loop_sound n (h.cut hle) hr
      refine ⟨q, b, .frame (p.buffered.take k) :: out, ?_, hq, hf.trans (h.follows_cut hle),
        .frame hv ?_⟩
      · rw [List.append_assoc, List.singleton_append]
      · rw [← buffered_cut]
        exact hd
    · obtain rfl := Option.some.inj ((h.step_reject hv log n).symm.trans hr)
      exact ⟨_, true, [.dropped p.buffered], rfl, h.clear, ⟨rfl, rfl, rfl, rfl⟩, .reject hv⟩

/-- A buffer the framer drains makes the loop stop within as many iterations as bytes. -/
theorem Held.loop_complete {b : List UInt8} {out : List (Segment UInt8)} {rest : List UInt8}
    {head : UInt32} (hd : Drains (headFramer head) b out rest) :
    ∀ {p : PacketSync}, p.Held → p.head = head → p.buffered = b → ∀ (log : List (Segment UInt8))
      (n : ℕ), b.length < n →
        ∃ r, whileFuel RecvLoop.guard RecvLoop.body n ⟨p, true, log⟩ = some r := by
  induction hd with
  | wait hv =>
    rintro p h rfl rfl log (_ | n) hn
    · omega
    · obtain ⟨b, hb⟩ := h.stay hv log n
      exact ⟨_, hb⟩
  | @frame b k out rest hv hd ih =>
    rintro p h rfl rfl log (_ | n) hn
    · omega
    · have hle := (headFramer p.head).frame_le hv
      have hpos : k ≠ 0 := by
        rintro rfl
        exact (Drains.frame hv hd).frame_ne_zero hv
      rw [h.step_frame hv]
      refine ih (h.cut hle) rfl (buffered_cut p k) _ n ?_
      rw [List.length_drop]
      omega
  | reject hv =>
    rintro p h rfl rfl log (_ | n) hn
    · omega
    · exact ⟨_, h.step_reject hv log n⟩

/-- The loop stops within the iterations `onRecvData` gives it if it stops at all. -/
theorem Held.loop_iff (h : p.Held) {log : List (Segment UInt8)} {r : Except Fault RecvLoop} :
    whileFuel RecvLoop.guard RecvLoop.body (p.realPacketLen.toNat + 1) ⟨p, true, log⟩ = some r
      ↔ ∃ n, whileFuel RecvLoop.guard RecvLoop.body n ⟨p, true, log⟩ = some r := by
  refine ⟨fun hr => ⟨_, hr⟩, fun ⟨n, hr⟩ => ?_⟩
  obtain ⟨q, b, out, -, -, -, hd⟩ := h.loop_sound n hr
  obtain ⟨r', hr'⟩ := Held.loop_complete hd h rfl rfl log (p.realPacketLen.toNat + 1)
    (by rw [h.length_buffered]; omega)
  have hmax := whileFuel_mono (le_max_left n (p.realPacketLen.toNat + 1)) hr
  rw [whileFuel_mono (le_max_right n _) hr'] at hmax
  rw [hr', hmax]

/-! ## A call, and a sequence of calls -/

theorem Wf.reserve (h : p.Wf) (need : UInt32) :
    (p.readData.reserve need).base.length = (p.readData.reserve need).len.toNat
      ∧ need.toNat ≤ (p.readData.reserve need).base.length
      ∧ (p.readData.reserve need).base.take p.realPacketLen.toNat = p.buffered := by
  have hblock := h.block
  unfold UvBuf.reserve
  split_ifs with hlt <;> rw [UInt32.lt_iff_toNat_lt] at hlt
  · have hgrow : (realloc p.readData.base need.toNat).length = need.toNat :=
      length_realloc (by omega)
    exact ⟨hgrow, hgrow.ge, take_realloc h.within (by omega)⟩
  · exact ⟨hblock, by omega, rfl⟩

theorem Wf.store (h : p.Wf) {data : List UInt8} (hlen : p.realPacketLen + data.length < 2 ^ 31) :
    ∃ q, p.store data = .ok q ∧ q.Wf ∧ q.head = p.head ∧ q.funcPackageCb = p.funcPackageCb
      ∧ q.buffered = p.buffered ++ data := by
  have hnn := h.nonneg
  have hadd : intAdd p.realPacketLen data.length = .ok (p.realPacketLen + data.length) :=
    intAdd_ok (by omega) hlen
  have hneed : (toU32 (p.realPacketLen + data.length)).toNat
      = p.realPacketLen.toNat + data.length := by
    rw [CMem.toNat_toU32 (by omega) (by omega)]
    omega
  obtain ⟨hblock, hroom, hkeep⟩ := h.reserve (toU32 (p.realPacketLen + data.length))
  rw [hneed] at hroom
  have hcpy := memcpy_ok data hnn hroom
  rw [hkeep] at hcpy
  have hblen := h.held.length_buffered
  have hs : p.store data = .ok { p with
      readData := { p.readData.reserve (toU32 (p.realPacketLen + data.length)) with
        base := p.buffered ++ (data ++ (p.readData.reserve
          (toU32 (p.realPacketLen + data.length))).base.drop
            (p.realPacketLen.toNat + data.length)) }
      realPacketLen := p.realPacketLen + data.length } := by
    simp only [PacketSync.store, hadd, hcpy, bind, Except.bind]
    rfl
  refine ⟨_, hs, ⟨?_, ?_, ?_, hlen⟩, rfl, rfl, ?_⟩
  · simp only [List.length_append, List.length_drop]
    omega
  · show 0 ≤ p.realPacketLen + data.length
    omega
  · simp only [List.length_append, List.length_drop]
    omega
  · have htn : (p.realPacketLen + data.length).toNat = (p.buffered ++ data).length := by
      rw [List.length_append]
      omega
    simp only [buffered] at htn ⊢
    rw [htn, ← List.append_assoc, List.take_left]

/-- What `OnRecvData` does to a parser within its block is a drain of the bytes it then holds. -/
theorem Wf.onRecvData_sound (h : p.Wf) {data : List UInt8}
    (hlen : p.realPacketLen + data.length < 2 ^ 31)
    {r : Except Fault (PacketSync × List (Segment UInt8))} (hr : p.onRecvData data = some r) :
    ∃ q log, r = .ok (q, log) ∧ q.Wf ∧ q.head = p.head ∧ q.funcPackageCb = p.funcPackageCb
      ∧ Drains (headFramer p.head) (p.buffered ++ data) log q.buffered := by
  obtain ⟨s, hs, hwf, hhead, hcb, hbuf⟩ := h.store hlen
  unfold onRecvData at hr
  rw [hs] at hr
  obtain ⟨r', hr', rfl⟩ := Option.map_eq_some_iff.1 hr
  obtain ⟨q, b, out, rfl, hq, hf, hd⟩ := hwf.held.loop_sound _ hr'
  rw [hhead, hbuf] at hd
  exact ⟨q, out, rfl, hwf.follows hq hf, hf.head.trans hhead, hf.cb.trans hcb, hd⟩

/-- `OnRecvData` returns when the framer drains what the parser then holds. -/
theorem Wf.onRecvData_complete (h : p.Wf) {data : List UInt8}
    (hlen : p.realPacketLen + data.length < 2 ^ 31) {out : List (Segment UInt8)}
    {rest : List UInt8} (hd : Drains (headFramer p.head) (p.buffered ++ data) out rest) :
    ∃ q, p.onRecvData data = some (.ok (q, out)) ∧ q.Wf ∧ q.head = p.head
      ∧ q.funcPackageCb = p.funcPackageCb ∧ q.buffered = rest := by
  obtain ⟨s, hs, hwf, hhead, hcb, hbuf⟩ := h.store hlen
  obtain ⟨r, hr⟩ := hwf.held.loop_complete hd hhead hbuf [] (s.realPacketLen.toNat + 1) (by
    rw [← hbuf, hwf.held.length_buffered]
    exact Nat.lt_succ_self _)
  have hcall : p.onRecvData data = some (r.map fun l => (l.sync, l.log)) := by
    unfold onRecvData
    rw [hs]
    dsimp only
    rw [hr]
    rfl
  obtain ⟨q, log, hok, hq, hhead', hcb', hd'⟩ := h.onRecvData_sound hlen hcall
  obtain ⟨rfl, rfl⟩ := hd.unique hd'
  exact ⟨q, hcall.trans (congrArg some hok), hq, hhead', hcb', rfl⟩

theorem store_overflow {data : List UInt8} (hlen : 2 ^ 31 ≤ p.realPacketLen + data.length) :
    p.store data = .error .intOverflow := by
  simp only [PacketSync.store, intAdd_overflow hlen, bind, Except.bind]

/-- The one fault: `real_packet_len + len` does not fit an `int`. -/
theorem onRecvData_overflow {data : List UInt8}
    (hlen : 2 ^ 31 ≤ p.realPacketLen + data.length) :
    p.onRecvData data = some (.error .intOverflow) := by
  unfold onRecvData
  rw [store_overflow hlen]

theorem fits_of_returns {data : List UInt8} {q : PacketSync} {log : List (Segment UInt8)}
    (hr : p.onRecvData data = some (.ok (q, log))) : p.realPacketLen + data.length < 2 ^ 31 := by
  by_contra hlen
  simp [onRecvData_overflow (not_lt.1 hlen)] at hr

theorem feed_cons {c : List UInt8} {cs : List (List UInt8)} {q : PacketSync}
    {log : List (Segment UInt8)} (h : p.onRecvData c = some (.ok (q, log))) :
    p.feed (c :: cs) = (q.feed cs).map fun r => r.map fun l => (l.1, log ++ l.2) := by
  rw [feed, h]

theorem Wf.feed_sound : ∀ {cs : List (List UInt8)} {p : PacketSync}, p.Wf →
    ∀ {q : PacketSync} {log : List (Segment UInt8)}, p.feed cs = some (.ok (q, log)) →
      q.Wf ∧ q.head = p.head ∧ q.funcPackageCb = p.funcPackageCb
        ∧ Feeds (headFramer p.head) p.buffered cs log q.buffered
  | [], p, h, q, log, hr => by
    simp only [feed, Option.some.injEq, Except.ok.injEq, Prod.mk.injEq] at hr
    obtain ⟨rfl, rfl⟩ := hr
    exact ⟨h, rfl, rfl, .nil _⟩
  | c :: cs, p, h, q, log, hr => by
    rcases hc : p.onRecvData c with _ | e | ⟨s, log₁⟩
    · simp [feed, hc] at hr
    · simp [feed, hc] at hr
    obtain ⟨s, log₁, hs, hwf, hhead, hcb, hd⟩ := h.onRecvData_sound (fits_of_returns hc) hc
    obtain ⟨rfl, rfl⟩ := Prod.mk.inj (Except.ok.inj hs)
    rw [feed_cons hc] at hr
    obtain ⟨r, hr', hok⟩ := Option.map_eq_some_iff.1 hr
    rcases r with e | ⟨t, log₂⟩
    · simp [Except.map] at hok
    obtain ⟨rfl, rfl⟩ := Prod.mk.inj (Except.ok.inj hok)
    obtain ⟨hwf', hhead', hcb', hf⟩ := hwf.feed_sound hr'
    rw [hhead] at hf
    exact ⟨hwf', hhead'.trans hhead, hcb'.trans hcb, .cons hd hf⟩

theorem Wf.feed_complete : ∀ {cs : List (List UInt8)} {p : PacketSync}, p.Wf → p.Fits cs →
    ∀ {out : List (Segment UInt8)} {rest : List UInt8},
      Feeds (headFramer p.head) p.buffered cs out rest →
        ∃ q, p.feed cs = some (.ok (q, out)) ∧ q.buffered = rest
  | [], p, h, _, out, rest, hf => by
    cases hf
    exact ⟨p, rfl, rfl⟩
  | c :: cs, p, h, hfits, out, rest, hf => by
    cases hf with
    | cons hd hf =>
      obtain ⟨q, hq, hwf, hhead, -, rfl⟩ := h.onRecvData_complete hfits.1 hd
      rw [← hhead] at hf
      obtain ⟨t, ht, hrest⟩ := hwf.feed_complete (hfits.2 q _ hq) hf
      exact ⟨t, by rw [feed_cons hq, ht]; rfl, hrest⟩

theorem Fits.append_left : ∀ {cs ds : List (List UInt8)} {p : PacketSync}, p.Fits (cs ++ ds) →
    p.Fits cs
  | [], _, _, _ => trivial
  | _ :: _, _, _, h => ⟨h.1, fun q log hq => (h.2 q log hq).append_left⟩

/-- A stream that fits an `int` as a whole fits it at each call. -/
theorem Wf.fits : ∀ {cs : List (List UInt8)} {p : PacketSync}, p.Wf →
    p.realPacketLen + cs.flatten.length < 2 ^ 31 → p.Fits cs
  | [], _, _, _ => trivial
  | c :: cs, p, h, hlen => by
    rw [List.flatten_cons, List.length_append] at hlen
    refine ⟨by omega, fun q log hq => ?_⟩
    obtain ⟨q', log', hok, hwf, -, -, hd⟩ := h.onRecvData_sound (by omega) hq
    obtain ⟨rfl, rfl⟩ := Prod.mk.inj (Except.ok.inj hok)
    have hbytes := congrArg List.length hd.bytes
    rw [List.length_append, List.length_append, h.held.length_buffered,
      hwf.held.length_buffered] at hbytes
    have hnn := h.nonneg
    have hnn' := hwf.nonneg
    exact hwf.fits (by omega)

/-- Two parsers no sequence of chunks can tell apart. -/
structure Alike (p q : PacketSync) : Prop where
  left : p.Wf
  right : q.Wf
  head : p.head = q.head
  cb : p.funcPackageCb = q.funcPackageCb
  buffered : p.buffered = q.buffered

theorem Alike.symm {q : PacketSync} (h : Alike p q) : Alike q p :=
  ⟨h.right, h.left, h.head.symm, h.cb.symm, h.buffered.symm⟩

theorem Wf.realPacketLen_eq (h : p.Wf) : p.realPacketLen = p.buffered.length := by
  have := h.nonneg
  rw [h.held.length_buffered]
  omega

theorem Alike.onRecvData {q : PacketSync} (h : Alike p q) (data : List UInt8) :
    (p.onRecvData data = none ∧ q.onRecvData data = none)
      ∨ (∃ e, p.onRecvData data = some (.error e) ∧ q.onRecvData data = some (.error e))
      ∨ ∃ p' q' log, p.onRecvData data = some (.ok (p', log))
          ∧ q.onRecvData data = some (.ok (q', log)) ∧ Alike p' q' := by
  have hrpl : p.realPacketLen = q.realPacketLen := by
    rw [h.left.realPacketLen_eq, h.right.realPacketLen_eq, h.buffered]
  by_cases hlen : p.realPacketLen + data.length < 2 ^ 31
  · have hlen' := hrpl ▸ hlen
    rcases hp : p.onRecvData data with _ | r
    · refine .inl ⟨rfl, ?_⟩
      by_contra hne
      obtain ⟨r, hr⟩ := Option.ne_none_iff_exists'.1 hne
      obtain ⟨q', log, -, -, -, -, hd⟩ := h.right.onRecvData_sound hlen' hr
      rw [← h.head, ← h.buffered] at hd
      obtain ⟨p', hp', -⟩ := h.left.onRecvData_complete hlen hd
      simp [hp] at hp'
    · obtain ⟨p', log, rfl, hwf, hhead, hcb, hd⟩ := h.left.onRecvData_sound hlen hp
      have hd' := hd
      rw [h.head, h.buffered] at hd'
      obtain ⟨q', hq, hwf', hhead', hcb', hbuf⟩ := h.right.onRecvData_complete hlen' hd'
      refine .inr (.inr ⟨p', q', log, rfl, hq, hwf, hwf', ?_, ?_, hbuf.symm⟩)
      · rw [hhead, hhead', h.head]
      · rw [hcb, hcb', h.cb]
  · have hlen' := hrpl ▸ hlen
    exact .inr (.inl ⟨_, onRecvData_overflow (not_lt.1 hlen), onRecvData_overflow (not_lt.1 hlen')⟩)

theorem Alike.delivered {q : PacketSync} (h : Alike p q) (log : List (Segment UInt8)) :
    p.delivered log = q.delivered log := by
  unfold PacketSync.delivered
  rw [h.cb]

theorem Alike.feed : ∀ {p q : PacketSync}, Alike p q → ∀ cs : List (List UInt8),
    (p.feed cs = none ∧ q.feed cs = none)
      ∨ (∃ e, p.feed cs = some (.error e) ∧ q.feed cs = some (.error e))
      ∨ ∃ p' q' log, p.feed cs = some (.ok (p', log)) ∧ q.feed cs = some (.ok (q', log))
          ∧ Alike p' q'
  | p, q, h, [] => .inr (.inr ⟨p, q, [], rfl, rfl, h⟩)
  | p, q, h, c :: cs => by
    rcases h.onRecvData c with ⟨hp, hq⟩ | ⟨e, hp, hq⟩ | ⟨p', q', log, hp, hq, h'⟩
    · exact .inl ⟨by simp [PacketSync.feed, hp], by simp [PacketSync.feed, hq]⟩
    · exact .inr (.inl ⟨e, by simp [PacketSync.feed, hp], by simp [PacketSync.feed, hq]⟩)
    · rw [feed_cons hp, feed_cons hq]
      rcases h'.feed cs with ⟨hp', hq'⟩ | ⟨e, hp', hq'⟩ | ⟨p'', q'', log', hp', hq', h''⟩ <;>
        rw [hp', hq']
      · exact .inl ⟨rfl, rfl⟩
      · exact .inr (.inl ⟨e, rfl, rfl⟩)
      · exact .inr (.inr ⟨p'', q'', log ++ log', rfl, rfl, h''⟩)

theorem Alike.outcome {q : PacketSync} (h : Alike p q) (cs : List (List UInt8)) :
    p.outcome cs = q.outcome cs := by
  unfold PacketSync.outcome
  rcases h.feed cs with ⟨hp, hq⟩ | ⟨e, hp, hq⟩ | ⟨p', q', log, hp, hq, h'⟩ <;> rw [hp, hq]
  simp only [Option.map_some, Except.map, h'.delivered]

theorem delivered_of_cb (h : p.funcPackageCb = true) (log : List (Segment UInt8)) :
    p.delivered log = frames log := if_pos h

theorem wf_new : new.Wf :=
  ⟨length_malloc _, le_refl _, Nat.zero_le _, show (0 : ℤ) < 2 ^ 31 by decide⟩

theorem wf_fresh (head : UInt32) : (fresh head).Wf :=
  ⟨length_malloc _, le_refl _, Nat.zero_le _, show (0 : ℤ) < 2 ^ 31 by decide⟩

theorem buffered_fresh (head : UInt32) : (fresh head).buffered = [] := rfl

end PacketSync

end TestLibuv
