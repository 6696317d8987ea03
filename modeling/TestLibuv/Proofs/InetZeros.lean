import TestLibuv.InetNtop

/-!
# Which zeros `::` stands for

`inet_ntop6` goes over the words once and keeps the run of zeros it is in and the best one before
it. What it ends with is the longest run, the first of them where several are as long, and no run
where no two words in a row are 0.
-/

namespace TestLibuv.Ntop6

variable {words : List ℕ} {best cur : ZeroRun} {b l n s : ℕ}

/-- The `l` words from `b` on are 0. -/
def Zeros (words : List ℕ) (b l : ℕ) : Prop := ∀ j, b ≤ j → j < b + l → words.getD j 0 = 0

theorem Zeros.concat (h : Zeros words b l) (hn : words.getD (b + l) 0 = 0) :
    Zeros words b (l + 1) := by
  intro j hj hlt
  rcases eq_or_ne j (b + l) with rfl | hne
  · exact hn
  · exact h j hj (by omega)

/-- The run is no shorter than the `l` words from `b` on, and before them if it is as long. -/
def Beats (best : ZeroRun) (b l : ℕ) : Prop :=
  best.base ≠ -1 ∧ l ≤ best.len ∧ (l = best.len → best.base ≤ b)

/-- The run is one of the zeros up to `n`. -/
def IsRun (words : List ℕ) (n : ℕ) (best : ZeroRun) : Prop :=
  best.base = -1 ∨ ∃ b : ℕ, best.base = b ∧ b + best.len ≤ n ∧ Zeros words b best.len

/-- No run of zeros up to `n` is better. -/
structure Best (words : List ℕ) (n : ℕ) (best : ZeroRun) : Prop where
  isRun : IsRun words n best
  beats : ∀ b l, 0 < l → b + l ≤ n → Zeros words b l → Beats best b l

/-- The loop has seen `n` words, the last of them zeros from `s` on. -/
structure Scanned (words : List ℕ) (n : ℕ) (best cur : ZeroRun) (s : ℕ) : Prop where
  cur_run : cur.base = -1 ∧ s = n ∨ cur.base = s ∧ s + cur.len = n ∧ s < n
  zeros : Zeros words s (n - s)
  start : s = 0 ∨ words.getD (s - 1) 0 ≠ 0
  isRun : IsRun words s best
  beats : ∀ b l, 0 < l → b + l ≤ n → Zeros words b l → s ≤ b ∨ Beats best b l

theorem Scanned.le (h : Scanned words n best cur s) : s ≤ n := by
  rcases h.cur_run with ⟨-, hs⟩ | ⟨-, -, hs⟩ <;> omega

/-- The run at hand is taken into account. -/
theorem Scanned.take (h : Scanned words n best cur s) : Best words n (better best cur) := by
  have hle := h.le
  have hmono : IsRun words n best := by
    rcases h.isRun with hb | ⟨b, hb, hlen, hz⟩
    · exact .inl hb
    · exact .inr ⟨b, hb, by omega, hz⟩
  rcases h.cur_run with ⟨hcur, hs⟩ | ⟨hcur, hlen, hs⟩
  · rw [better, if_neg (by simp [hcur])]
    refine ⟨hmono, fun b l hl hn hz => ?_⟩
    rcases h.beats b l hl hn hz with hb | hb
    · omega
    · exact hb
  have hcur_ne : cur.base ≠ -1 := by omega
  by_cases hlonger : best.base = -1 ∨ best.len < cur.len
  · rw [better, if_pos ⟨hcur_ne, hlonger⟩]
    refine ⟨.inr ⟨s, hcur, by omega, ?_⟩, fun b l hl hn hz => ?_⟩
    · have hz := h.zeros
      rwa [show n - s = cur.len by omega] at hz
    · rcases h.beats b l hl hn hz with hb | ⟨hne, hle, -⟩
      · exact ⟨hcur_ne, by omega, fun _ => by omega⟩
      · have hlt := hlonger.resolve_left hne
        exact ⟨hcur_ne, by omega, fun _ => by omega⟩
  · rw [better, if_neg (fun hc => hlonger hc.2)]
    obtain ⟨hne, hshort⟩ := not_or.1 hlonger
    refine ⟨hmono, fun b l hl hn hz => ?_⟩
    rcases h.beats b l hl hn hz with hb | hb
    · -- the best run is before the one at hand
      obtain ⟨b', hb', hend, -⟩ := h.isRun.resolve_left hne
      exact ⟨hne, by omega, fun _ => by omega⟩
    · exact hb

theorem scan_zero (h : words.getD n 0 = 0) : scan words (best, cur) n
    = (best, if cur.base = -1 then ⟨n, 1⟩ else { cur with len := cur.len + 1 }) := if_pos h

theorem scan_ne_zero (h : words.getD n 0 ≠ 0) :
    scan words (best, cur) n = (better best cur, { cur with base := -1 }) := if_neg h

theorem Scanned.round (h : Scanned words n best cur s) :
    ∃ s', Scanned words (n + 1) (scan words (best, cur) n).1 (scan words (best, cur) n).2 s' := by
  have hle := h.le
  by_cases hn : words.getD n 0 = 0
  · refine ⟨s, ?_⟩
    have hzeros : Zeros words s (n + 1 - s) := by
      have hz := h.zeros.concat (by rwa [show s + (n - s) = n by omega])
      rwa [show n - s + 1 = n + 1 - s by omega] at hz
    rw [scan_zero hn]
    refine ⟨.inr ?_, hzeros, h.start, h.isRun, fun b l hl hlen hz => ?_⟩
    · rcases h.cur_run with ⟨hcur, rfl⟩ | ⟨hcur, hlen, hs⟩
      · simp [hcur]
      · simp only [if_neg (show cur.base ≠ -1 by omega)]
        exact ⟨hcur, by omega, by omega⟩
    · by_cases hend : b + l ≤ n
      · exact h.beats b l hl hend hz
      · -- it ends where the run at hand does, so it does not begin before
        refine .inl (not_lt.1 fun hb => ?_)
        exact (h.start.resolve_left (by omega)) (hz (s - 1) (by omega) (by omega))
  · refine ⟨n + 1, ?_⟩
    rw [scan_ne_zero hn]
    have hbest := h.take
    refine ⟨.inl ⟨rfl, rfl⟩, fun j hj hlt => absurd hlt (by omega), .inr hn, ?_,
      fun b l hl hlen hz => .inr ?_⟩
    · rcases hbest.isRun with hb | ⟨b, hb, hlen, hz⟩
      · exact .inl hb
      · exact .inr ⟨b, hb, hlen.trans n.le_succ, hz⟩
    · refine hbest.beats b l hl (not_lt.1 fun hend => hn (hz n (by omega) (by omega))) hz

theorem scanned (words : List ℕ) : ∀ n, ∃ s, Scanned words n
    ((List.range n).foldl (scan words) (⟨-1, 0⟩, ⟨-1, 0⟩)).1
    ((List.range n).foldl (scan words) (⟨-1, 0⟩, ⟨-1, 0⟩)).2 s
  | 0 => ⟨0, .inl ⟨rfl, rfl⟩, fun j hj hlt => absurd hlt (by omega), .inl rfl, .inl rfl,
      fun b l hl hlen _ => absurd hlen (by omega)⟩
  | n + 1 => by
    obtain ⟨s, h⟩ := scanned words n
    rw [List.range_succ, List.foldl_append]
    exact h.round

theorem bestRun_eq (words : List ℕ) : ∃ best, Best words 8 best
    ∧ bestRun words = if best.base ≠ -1 ∧ best.len < 2 then { best with base := -1 } else best := by
  obtain ⟨s, hs⟩ := scanned words 8
  exact ⟨_, hs.take, rfl⟩

/-- `::` stands for two zeros at least. -/
theorem bestRun_isRun (words : List ℕ) : (bestRun words).base = -1
    ∨ ∃ b : ℕ, (bestRun words).base = b ∧ 2 ≤ (bestRun words).len
      ∧ b + (bestRun words).len ≤ 8 ∧ Zeros words b (bestRun words).len := by
  obtain ⟨best, hbest, heq⟩ := bestRun_eq words
  rw [heq]
  split_ifs with hshort
  · exact .inl rfl
  · refine hbest.isRun.imp_right fun ⟨b, hb, hlen, hz⟩ => ⟨b, hb, ?_, hlen, hz⟩
    by_contra hlt
    exact hshort ⟨by omega, by omega⟩

/-- `::` stands for the longest run of zeros, the first of them where several are as long; without
one no two words in a row are 0. -/
theorem bestRun_longest (words : List ℕ) : ((bestRun words).base = -1
      ∨ ∃ b : ℕ, (bestRun words).base = b ∧ 2 ≤ (bestRun words).len
        ∧ b + (bestRun words).len ≤ 8 ∧ Zeros words b (bestRun words).len)
    ∧ ∀ b l, 2 ≤ l → b + l ≤ 8 → Zeros words b l → (bestRun words).base ≠ -1
      ∧ l ≤ (bestRun words).len ∧ (l = (bestRun words).len → (bestRun words).base ≤ b) := by
  refine ⟨bestRun_isRun words, fun b l hl hend hz => ?_⟩
  obtain ⟨best, hbest, heq⟩ := bestRun_eq words
  have hbeats := hbest.beats b l (by omega) hend hz
  rw [heq, if_neg fun hshort => absurd hbeats.2.1 (by omega)]
  exact hbeats

end TestLibuv.Ntop6
