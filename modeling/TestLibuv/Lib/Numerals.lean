import Mathlib.Data.Nat.Digits.Lemmas

/-!
# Numerals

The digits of a number in a base, the most significant first and without zeros before it, as a
program prints them. A reader that takes them one by one gets back the number, and on the way sees
nothing greater than it.
-/

namespace Numerals

variable {b d n v k : ℕ} {ds : List ℕ}

/-- The digits of a number as they are printed; those of 0 are one zero. -/
def numeral (b n : ℕ) : List ℕ := if n = 0 then [0] else (b.digits n).reverse

/-- The number that is read from digits, behind the digits of `v`. -/
def value (b v : ℕ) (ds : List ℕ) : ℕ := ds.foldl (fun v d => v * b + d) v

@[simp] theorem value_nil : value b v [] = v := rfl

@[simp] theorem value_cons : value b v (d :: ds) = value b (v * b + d) ds := rfl

/-- Each digit read only makes the number greater. -/
theorem le_value (hb : 0 < b) : ∀ (ds : List ℕ) (v : ℕ), v ≤ value b v ds
  | [], v => le_rfl
  | d :: ds, v => by
    have hle := le_value hb ds (v * b + d)
    have hmul : v ≤ v * b := Nat.le_mul_of_pos_right v hb
    rw [value_cons]
    omega

theorem value_reverse_digits (b n : ℕ) : value b 0 (b.digits n).reverse = n := by
  have hof := Nat.ofDigits_digits b n
  rw [Nat.ofDigits_eq_foldr] at hof
  rw [value, List.foldl_reverse]
  simpa [Nat.add_comm, Nat.mul_comm] using hof

theorem value_numeral (b n : ℕ) : value b 0 (numeral b n) = n := by
  unfold numeral
  split_ifs with hn
  · simp [hn]
  · exact value_reverse_digits b n

theorem lt_of_mem_numeral (hb : 1 < b) (hd : d ∈ numeral b n) : d < b := by
  unfold numeral at hd
  split_ifs at hd
  · rw [List.mem_singleton] at hd
    omega
  · exact Nat.digits_lt_base hb (List.mem_reverse.1 hd)

theorem numeral_ne_nil : numeral b n ≠ [] := by
  unfold numeral
  split_ifs with hn
  · simp
  · simpa [Nat.digits_ne_nil_iff_ne_zero] using hn

theorem length_numeral_le (hb : 1 < b) (hk : 0 < k) (hn : n < b ^ k) :
    (numeral b n).length ≤ k := by
  unfold numeral
  split_ifs
  · exact hk
  · rw [List.length_reverse]
    exact (Nat.digits_length_le_iff hb n).2 hn

/-- A numeral that is longer than one digit does not begin with a zero. -/
theorem head_ne_zero (h : numeral b n = d :: ds) (hds : ds ≠ []) : d ≠ 0 := by
  unfold numeral at h
  split_ifs at h with hn
  · simp_all
  · have hlast := Nat.getLast_digit_ne_zero b hn
    have hd : (b.digits n).getLast (Nat.digits_ne_nil_iff_ne_zero.2 hn) = d := by
      rw [← List.head_reverse (by simpa [Nat.digits_ne_nil_iff_ne_zero] using hn)]
      simp [h]
    rwa [hd] at hlast

end Numerals
