import Mathlib.Tactic.IntervalCases
import TestLibuv.InetNtop

/-!
# Addresses survive being printed

The printers of `inet.c` write what its parsers read back, for every address: the octets of an IPv4
address, and the words of an IPv6 one around the run of zeros that `::` stands for, with an IPv4
address at the end where there is one.
-/

namespace TestLibuv

open CMem Numerals

/-! ## IPv4 -/

theorem strchr_digits : ∀ d < 10, strchr digits (digits.getD d 0) = some d := by decide

section Octets

variable {tmp rest : List UInt8} {tp octets n : ℕ}

/-- The digits of an octet behind its first. -/
theorem inetPton4Loop_digits (htp : tp < tmp.length) :
    ∀ (ds : List ℕ) (m : ℕ), (∀ d ∈ ds, d < 10) → m ≠ 0 → value 10 m ds < 256 →
      inetPton4Loop (ds.map (digits.getD · 0) ++ rest) (tmp.set tp (.ofNat m)) tp octets true
        = inetPton4Loop rest (tmp.set tp (.ofNat (value 10 m ds))) tp octets true
  | [], m, _, _, _ => rfl
  | d :: ds, m, hds, hm, hv => by
    obtain ⟨hd, hds⟩ := List.forall_mem_cons.1 hds
    rw [value_cons] at hv ⊢
    have hle := le_value (b := 10) (by omega) ds (m * 10 + d)
    have hget : ((tmp.set tp (UInt8.ofNat m)).getD tp 0) = UInt8.ofNat m := by
      simp [List.getD_eq_getElem?_getD, htp]
    have hnat : (UInt8.ofNat m).toNat = m := UInt8.toNat_ofNat_of_lt' (by
      have : m < 256 := by omega
      exact this)
    have hne : UInt8.ofNat m ≠ 0 := fun h => hm (by rw [← hnat, h]; rfl)
    rw [List.map_cons, List.cons_append, inetPton4Loop, strchr_digits d hd]
    simp only [hget, hnat]
    rw [if_neg (fun h => hne h.2), if_neg (by omega), if_pos trivial, List.set_set]
    exact inetPton4Loop_digits htp ds (m * 10 + d) hds (by omega) hv

/-- An octet is read back. -/
theorem inetPton4Loop_printU (htp : tp < tmp.length) (hzero : tmp.getD tp 0 = 0) (ho : octets < 4)
    (hn : n < 256) : inetPton4Loop (printU n ++ rest) tmp tp octets false
      = inetPton4Loop rest (tmp.set tp (.ofNat n)) tp (octets + 1) true := by
  rcases hnum : numeral 10 n with _ | ⟨d, ds⟩
  · exact absurd hnum numeral_ne_nil
  have hlt : ∀ x ∈ d :: ds, x < 10 := fun x hx => lt_of_mem_numeral (by omega) (hnum ▸ hx)
  have hvalue := value_numeral 10 n
  rw [hnum, value_cons, Nat.zero_mul, Nat.zero_add] at hvalue
  have hle := le_value (b := 10) (by omega) ds d
  rw [printU, hnum, List.map_cons, List.cons_append, inetPton4Loop,
    strchr_digits d (hlt d List.mem_cons_self)]
  simp only [hzero, UInt8.toNat_zero, Nat.zero_mul, Nat.zero_add]
  rw [if_neg (by simp), if_neg (by omega), if_neg (by simp), if_neg (by omega)]
  rcases eq_or_ne ds [] with rfl | hds
  · rw [value_nil] at hvalue
    rw [hvalue]
    rfl
  · rw [inetPton4Loop_digits htp ds d (fun x hx => hlt x (List.mem_cons_of_mem _ hx))
      (head_ne_zero hnum hds) (by omega), hvalue]

theorem inetPton4Loop_dot (ho : octets ≠ 4) :
    inetPton4Loop (Char.toUInt8 '.' :: rest) tmp tp octets true
      = inetPton4Loop rest (tmp.set (tp + 1) 0) (tp + 1) octets false := by
  have hdot : strchr digits (Char.toUInt8 '.') = none := by decide
  rw [inetPton4Loop, hdot]
  simp [ho]

end Octets

/-- The text of the octets. -/
def dotted (a b c d : UInt8) : List UInt8 :=
  printU a.toNat ++ Char.toUInt8 '.' :: (printU b.toNat ++ Char.toUInt8 '.' ::
    (printU c.toNat ++ Char.toUInt8 '.' :: printU d.toNat))

variable (a b c d : UInt8)

theorem inetPton4_dotted : inetPton4 (dotted a b c d) = some [a, b, c, d] := by
  have hd := @inetPton4Loop_printU [a, b, c, 0] [] 3 3 d.toNat (by simp) rfl (by omega) d.toNat_lt
  rw [List.append_nil] at hd
  rw [inetPton4, dotted, inetPton4Loop_printU (by simp) rfl (by omega) a.toNat_lt,
    inetPton4Loop_dot (by omega), inetPton4Loop_printU (by simp [malloc]) rfl (by omega) b.toNat_lt,
    inetPton4Loop_dot (by omega), inetPton4Loop_printU (by simp [malloc]) rfl (by omega) c.toNat_lt,
    inetPton4Loop_dot (by omega)]
  simp only [UInt8.ofNat_toNat, malloc, List.replicate, List.set_cons_zero, List.set_cons_succ]
  rw [hd]
  simp [inetPton4Loop]

theorem length_printU_le {n : ℕ} (hn : n < 256) : (printU n).length ≤ 3 := by
  rw [printU, List.length_map]
  exact length_numeral_le (by omega) (by omega) (hn.trans_le (by norm_num))

theorem length_dotted_le : (dotted a b c d).length ≤ 15 := by
  have ha := length_printU_le a.toNat_lt
  have hb := length_printU_le b.toNat_lt
  have hc := length_printU_le c.toNat_lt
  have hd := length_printU_le d.toNat_lt
  simp only [dotted, List.length_append, List.length_cons]
  omega

theorem inetNtop4_eq (size : ℕ) (rest : List UInt8) : inetNtop4 (a :: b :: c :: d :: rest) size
    = if (dotted a b c d).length < size then some (dotted a b c d) else none := by
  have hne : dotted a b c d ≠ [] := by simp [dotted]
  show (if dotted a b c d = [] ∨ size ≤ (dotted a b c d).length then none else _) = _
  by_cases hlt : (dotted a b c d).length < size
  · rw [if_neg (by simp [hne, hlt]), if_pos hlt]
    rfl
  · rw [if_pos (.inr (by omega)), if_neg hlt]

/-! ## Reading IPv6 -/

theorem strchr_xdigits : ∀ d < 16,
    (strchr xdigitsL (xdigitsL.getD d 0)).or (strchr xdigitsU (xdigitsL.getD d 0)) = some d := by
  decide

/-- The two bytes of a word. -/
def wordBytes (w : ℕ) : List UInt8 := [.ofNat (w / 256), .ofNat w]

/-- `:` and the digits of each word. -/
def colonWords (ws : List ℕ) : List UInt8 := ws.flatMap fun w => Char.toUInt8 ':' :: printX w

/-- The digits of the words with `:` between them. -/
def joinWords : List ℕ → List UInt8
  | [] => []
  | w :: ws => printX w ++ colonWords ws

theorem length_flatMap_wordBytes : ∀ ws : List ℕ, (ws.flatMap wordBytes).length = 2 * ws.length
  | [] => rfl
  | w :: ws => by
    rw [List.flatMap_cons, List.length_append, length_flatMap_wordBytes ws, List.length_cons]
    simp only [wordBytes, List.length_cons, List.length_nil]
    omega

namespace Pton6

variable {bs rest ct : List UInt8} {colonp : Option ℕ} {w : ℕ} {v : Pton6}

/-- The bytes read so far, with no digit behind them. -/
def at' (bs : List UInt8) (colonp : Option ℕ) : Pton6 :=
  ⟨bs ++ List.replicate (16 - bs.length) 0, bs.length, colonp, 0, 0⟩

/-- The digits of a word were read as well. -/
def pend (bs : List UInt8) (colonp : Option ℕ) (w : ℕ) : Pton6 :=
  { at' bs colonp with val := w, seenXdigits := (numeral 16 w).length }

theorem loop_xdigits : ∀ (ds : List ℕ) (v : Pton6), (∀ d ∈ ds, d < 16) →
    v.seenXdigits + ds.length ≤ 4 → loop (ds.map (xdigitsL.getD · 0) ++ rest) ct v
      = loop rest ct { v with
          val := value 16 v.val ds, seenXdigits := v.seenXdigits + ds.length }
  | [], v, _, _ => rfl
  | d :: ds, v, hds, hlen => by
    obtain ⟨hd, hds⟩ := List.forall_mem_cons.1 hds
    rw [List.length_cons] at hlen
    rw [List.map_cons, List.cons_append, loop, strchr_xdigits d hd]
    simp only
    rw [if_neg (by omega),
      loop_xdigits ds _ hds (by simpa [Nat.add_assoc, Nat.add_comm 1] using hlen)]
    simp [Nat.add_assoc, Nat.add_comm 1]

theorem loop_printX (hw : w < 65536) :
    loop (printX w ++ rest) ct (at' bs colonp) = loop rest ct (pend bs colonp w) := by
  have hlen : (numeral 16 w).length ≤ 4 :=
    length_numeral_le (by omega) (by omega) (hw.trans_le (by norm_num))
  rw [printX, loop_xdigits _ _ (fun d hd => lt_of_mem_numeral (by omega) hd)
    (by simpa [at'] using hlen)]
  simp [pend, at', value_numeral]

theorem putVal_pend (hbs : bs.length + 2 ≤ 16) :
    (pend bs colonp w).putVal = some (at' (bs ++ wordBytes w) colonp) := by
  obtain ⟨n, hn⟩ : ∃ n, 16 - bs.length = n + 2 := ⟨16 - bs.length - 2, by omega⟩
  have hn' : 16 - (bs.length + 2) = n := by omega
  have htp : ¬ 16 < bs.length + 2 := by omega
  simp [putVal, pend, at', hn, hn', htp, wordBytes, List.replicate_succ]

theorem colon_not_xdigit : (strchr xdigitsL (Char.toUInt8 ':')).or
    (strchr xdigitsU (Char.toUInt8 ':')) = none := by decide

theorem loop_colon (hbs : bs.length + 2 ≤ 16) (hrest : rest ≠ []) :
    loop (Char.toUInt8 ':' :: rest) ct (pend bs colonp w)
      = loop rest rest (at' (bs ++ wordBytes w) colonp) := by
  have hseen : (pend bs colonp w).seenXdigits ≠ 0 := by
    simp [pend, List.length_eq_zero_iff, numeral_ne_nil]
  rw [loop, colon_not_xdigit]
  simp only [if_true]
  rw [if_neg hseen, if_neg hrest, putVal_pend hbs]

theorem loop_double_colon : loop (Char.toUInt8 ':' :: rest) ct (at' bs none)
    = loop rest rest (at' bs (some bs.length)) := by
  rw [loop, colon_not_xdigit]
  rfl

/-- Words are read up to the `:` behind them. -/
theorem loop_joinWords (hrest : rest ≠ []) : ∀ (w : ℕ) (ws : List ℕ) (bs ct : List UInt8),
    (∀ x ∈ w :: ws, x < 65536) → bs.length + 2 * (w :: ws).length ≤ 16 →
      loop (joinWords (w :: ws) ++ Char.toUInt8 ':' :: rest) ct (at' bs colonp)
        = loop rest rest (at' (bs ++ (w :: ws).flatMap wordBytes) colonp)
  | w, [], bs, ct, hws, hlen => by
    have hlen : bs.length + 2 ≤ 16 := hlen
    have htext : joinWords [w] ++ Char.toUInt8 ':' :: rest
        = printX w ++ Char.toUInt8 ':' :: rest := by simp [joinWords, colonWords]
    rw [htext, loop_printX (hws w List.mem_cons_self), loop_colon hlen hrest,
      List.flatMap_singleton]
  | w, x :: ws, bs, ct, hws, hlen => by
    obtain ⟨hw, hws⟩ := List.forall_mem_cons.1 hws
    have hlen' : (bs ++ wordBytes w).length + 2 * (x :: ws).length ≤ 16 := by
      simp only [List.length_append, List.length_cons, wordBytes, List.length_nil] at hlen ⊢
      omega
    have htext : joinWords (w :: x :: ws) ++ Char.toUInt8 ':' :: rest
        = printX w ++ Char.toUInt8 ':' :: (joinWords (x :: ws) ++ Char.toUInt8 ':' :: rest) := by
      simp [joinWords, colonWords]
    rw [htext, loop_printX hw, loop_colon (by
      rw [List.length_cons] at hlen
      omega) (by simp), loop_joinWords hrest x ws _ _ hws hlen', List.append_assoc,
      ← List.flatMap_cons]

theorem finish_pend (hbs : bs.length + 2 ≤ 16) :
    (pend bs colonp w).finish = (at' (bs ++ wordBytes w) colonp).finish := by
  have hseen : (pend bs colonp w).seenXdigits ≠ 0 := by
    simp [pend, List.length_eq_zero_iff, numeral_ne_nil]
  rw [finish, putLast, if_neg hseen, putVal_pend hbs]
  rfl

theorem finish_printX (hw : w < 65536) (hbs : bs.length + 2 ≤ 16) :
    (loop (printX w) ct (at' bs colonp)).bind finish
      = (at' (bs ++ wordBytes w) colonp).finish := by
  have h := @loop_printX bs [] ct colonp w hw
  rw [List.append_nil] at h
  rw [h]
  exact finish_pend hbs

/-- Words end the text. -/
theorem finish_joinWords {ws : List ℕ} (hws : ∀ x ∈ ws, x < 65536)
    (hlen : bs.length + 2 * ws.length ≤ 16) :
    (loop (joinWords ws) ct (at' bs colonp)).bind finish
      = (at' (bs ++ ws.flatMap wordBytes) colonp).finish := by
  rcases ws.eq_nil_or_concat' with rfl | ⟨us, x, rfl⟩
  · rw [List.flatMap_nil, List.append_nil]
    rfl
  have hx : x < 65536 := hws x (by simp)
  rw [List.length_append, List.length_singleton] at hlen
  rcases us with _ | ⟨w, us⟩
  · simpa [joinWords, colonWords] using finish_printX hx (by omega)
  · have htext : joinWords (w :: us ++ [x])
        = joinWords (w :: us) ++ Char.toUInt8 ':' :: printX x := by simp [joinWords, colonWords]
    rw [htext, loop_joinWords (by simp [printX, numeral_ne_nil]) w us bs ct
      (fun y hy => hws y (List.mem_append_left _ hy)) (by omega), finish_printX hx (by
        rw [List.length_append, length_flatMap_wordBytes]
        omega), List.flatMap_append, List.flatMap_singleton, List.append_assoc]

/-- A round of `shift`: the last byte not moved yet and the last of the zeros change places. -/
theorem shift_round (ps ss : List UInt8) (c : UInt8) (y : ℕ) :
    ((ps ++ c :: (List.replicate y 0 ++ 0 :: ss)).set (ps.length + (y + 1))
      ((ps ++ c :: (List.replicate y 0 ++ 0 :: ss)).getD ps.length 0)).set ps.length 0
      = ps ++ (List.replicate (y + 1) 0 ++ c :: ss) := by
  simp [List.getD_eq_getElem?_getD, List.set_append_right, List.replicate_succ]

/-- What `shift` has done behind some of its rounds. -/
theorem shift_rounds {ps ss : List UInt8} {z : ℕ} (hz : 0 < z)
    (hlen : ps.length + ss.length + z = 16) : ∀ m ≤ ss.length,
      (List.range m).foldl (fun tmp k => (tmp.set (16 - (k + 1))
        (tmp.getD (ps.length + ss.length - (k + 1)) 0)).set (ps.length + ss.length - (k + 1)) 0)
        (ps ++ ss ++ List.replicate z 0)
      = ps ++ ss.take (ss.length - m) ++ (List.replicate z 0 ++ ss.drop (ss.length - m))
  | 0, _ => by simp
  | m + 1, hm => by
    obtain ⟨n, hn⟩ : ∃ n, ss.length = m + 1 + n := ⟨ss.length - (m + 1), by omega⟩
    obtain ⟨y, rfl⟩ : ∃ y, z = y + 1 := ⟨z - 1, by omega⟩
    have hget : n < ss.length := by omega
    have hn' : ss.length - m = n + 1 := by omega
    have hn'' : ss.length - (m + 1) = n := by omega
    have hlen' : (ps ++ ss.take n).length = ps.length + n := by
      rw [List.length_append, List.length_take]
      omega
    have hfrom : ps.length + ss.length - (m + 1) = (ps ++ ss.take n).length := by omega
    have hto : 16 - (m + 1) = (ps ++ ss.take n).length + (y + 1) := by omega
    have hbody : ps ++ ss.take (n + 1) ++ (List.replicate (y + 1) 0 ++ ss.drop (n + 1))
        = (ps ++ ss.take n) ++ ss[n] :: (List.replicate y 0 ++ 0 :: ss.drop (n + 1)) := by
      rw [List.take_succ_eq_append_getElem hget, List.replicate_succ']
      simp only [List.append_assoc, List.cons_append, List.nil_append]
    rw [List.range_succ, List.foldl_append, shift_rounds hz hlen m (by omega), hn', hn'',
      List.foldl_cons, List.foldl_nil, hfrom, hto, hbody, shift_round,
      ← List.drop_eq_getElem_cons hget]

theorem finish_none (hbs : bs.length = 16) : (at' bs none).finish = some bs := by
  simp [finish, putLast, fill, at', hbs]

/-- What was read behind the `::` ends the address. -/
theorem finish_some {ps ss : List UInt8} (hlen : ps.length + ss.length < 16) :
    (at' (ps ++ ss) (some ps.length)).finish
      = some (ps ++ (List.replicate (16 - (ps.length + ss.length)) 0 ++ ss)) := by
  have hn : ps.length + ss.length - ps.length = ss.length := Nat.add_sub_cancel_left ..
  have hshift := @shift_rounds ps ss (16 - (ps.length + ss.length)) (by omega) (by omega)
    ss.length le_rfl
  rw [Nat.sub_self, List.take_zero, List.drop_zero, List.append_nil] at hshift
  have htp : (at' (ps ++ ss) (some ps.length)).tp ≠ 16 := by
    simp only [at', List.length_append]
    omega
  have hput : (at' (ps ++ ss) (some ps.length)).putLast = some (at' (ps ++ ss) (some ps.length)) :=
    if_pos rfl
  have hfill : (at' (ps ++ ss) (some ps.length)).fill
      = some ((at' (ps ++ ss) (some ps.length)).shift ps.length) := if_neg htp
  rw [finish, hput, Option.bind_some, hfill, Option.bind_some]
  simp only [shift, if_pos, at', List.length_append, hn]
  rw [hshift]

theorem printU_eq {n : ℕ} : printU n = (numeral 10 n).map (xdigitsL.getD · 0) := by
  have hdigit : ∀ d < 10, digits.getD d 0 = xdigitsL.getD d 0 := by decide
  exact List.map_congr_left fun d hd => hdigit d (lt_of_mem_numeral (by omega) hd)

/-- An IPv4 address ends the text. -/
theorem finish_dotted (a b c d : UInt8) (hbs : bs.length + 4 ≤ 16) :
    (loop (dotted a b c d) (dotted a b c d) (at' bs colonp)).bind finish
      = (at' (bs ++ [a, b, c, d]) colonp).finish := by
  have hlen : (numeral 10 a.toNat).length ≤ 3 :=
    length_numeral_le (by omega) (by omega) (a.toNat_lt.trans_le (by norm_num))
  have hdot : (strchr xdigitsL (Char.toUInt8 '.')).or
      (strchr xdigitsU (Char.toUInt8 '.')) = none := by decide
  have hzeros : 16 - bs.length = 4 + (16 - (bs.length + 4)) := by omega
  have htp : (at' bs colonp).tp + 4 ≤ 16 := hbs
  -- its first octet is read as digits of a word at first
  have hloop : loop (dotted a b c d) (dotted a b c d) (at' bs colonp)
      = some { at' (bs ++ [a, b, c, d]) colonp with val := value 16 0 (numeral 10 a.toNat) } := by
    conv_lhs => arg 1; rw [dotted, printU_eq]
    rw [loop_xdigits _ _ (fun x hx => (lt_of_mem_numeral (by omega) hx).trans (by omega))
      (by simpa [at'] using hlen.trans (by omega)), loop, hdot]
    simp only
    rw [if_neg (by decide), if_pos ⟨trivial, htp⟩, inetPton4_dotted]
    simp [at', hzeros, List.replicate_add]
  rw [hloop]
  cases colonp with
  | none => rfl
  | some colonp =>
    simp only [Option.bind_some, finish, putLast, fill, shift, at', if_pos]
    split_ifs <;> rfl

end Pton6

open Pton6

theorem inetPton6_colons (rest : List UInt8) :
    inetPton6 (Char.toUInt8 ':' :: Char.toUInt8 ':' :: rest)
      = (loop rest rest (at' [] (some 0))).bind finish := by
  have h := @loop_double_colon [] rest (Char.toUInt8 ':' :: rest)
  exact congrArg (·.bind finish) h

theorem inetPton6_printX (w : ℕ) (rest : List UInt8) : inetPton6 (printX w ++ rest)
    = (loop (printX w ++ rest) (printX w ++ rest) (at' [] none)).bind finish := by
  have hcolon : ∀ d < 16, xdigitsL.getD d 0 ≠ Char.toUInt8 ':' := by decide
  have hhead : (printX w ++ rest).head? ≠ some (Char.toUInt8 ':') := by
    obtain ⟨d, ds, hnum⟩ := List.exists_cons_of_ne_nil (@numeral_ne_nil 16 w)
    have hd : d < 16 := lt_of_mem_numeral (n := w) (by omega) (by simp [hnum])
    simpa [printX, hnum] using hcolon d hd
  rw [inetPton6, if_neg (fun h => hhead h.1)]
  simp only [if_neg hhead]
  rfl

section Words

variable {ps ss : List ℕ}

/-- Eight words with no `::` among them. -/
theorem inetPton6_joinWords (hps : ∀ x ∈ ps, x < 65536) (hlen : ps.length = 8) :
    inetPton6 (joinWords ps) = some (ps.flatMap wordBytes) := by
  obtain ⟨w, ws, rfl⟩ := List.exists_cons_of_length_eq_add_one hlen
  rw [joinWords, inetPton6_printX]
  refine (@finish_joinWords [] _ _ _ hps (by simp [hlen])).trans ?_
  exact finish_none (by rw [List.nil_append, length_flatMap_wordBytes, hlen])

/-- Words and the `::` behind them. -/
theorem inetPton6_lead (hps : ∀ x ∈ ps, x < 65536) (hlen : ps.length ≤ 8) (rest : List UInt8) :
    inetPton6 (joinWords ps ++ Char.toUInt8 ':' :: Char.toUInt8 ':' :: rest)
      = (loop rest rest (at' (ps.flatMap wordBytes) (some (ps.flatMap wordBytes).length))).bind
          finish := by
  rcases ps with _ | ⟨w, ps⟩
  · exact inetPton6_colons rest
  · have hloop := @loop_joinWords (Char.toUInt8 ':' :: rest) none (by simp) w ps []
      (joinWords (w :: ps) ++ Char.toUInt8 ':' :: Char.toUInt8 ':' :: rest) hps
      (by simpa using Nat.mul_le_mul_left 2 hlen)
    rw [List.nil_append, loop_double_colon] at hloop
    rw [← hloop]
    simp only [joinWords, List.append_assoc]
    exact inetPton6_printX w _

/-- Words, the `::`, and the words behind it. -/
theorem inetPton6_words (hps : ∀ x ∈ ps, x < 65536) (hss : ∀ x ∈ ss, x < 65536)
    (hlen : ps.length + ss.length < 8) :
    inetPton6 (joinWords ps ++ Char.toUInt8 ':' :: Char.toUInt8 ':' :: joinWords ss)
      = some (ps.flatMap wordBytes ++ (List.replicate (2 * (8 - (ps.length + ss.length))) 0
          ++ ss.flatMap wordBytes)) := by
  have hp := length_flatMap_wordBytes ps
  have hs := length_flatMap_wordBytes ss
  have hz : 16 - (2 * ps.length + 2 * ss.length) = 2 * (8 - (ps.length + ss.length)) := by omega
  rw [inetPton6_lead hps (by omega), finish_joinWords hss (by omega), finish_some (by omega), hp,
    hs, hz]

/-- An IPv4 address behind the `::`. -/
theorem inetPton6_dotted (a b c d : UInt8) :
    inetPton6 (Char.toUInt8 ':' :: Char.toUInt8 ':' :: dotted a b c d)
      = some (List.replicate 12 0 ++ [a, b, c, d]) := by
  rw [inetPton6_colons, finish_dotted a b c d (by simp)]
  exact @finish_some [] [a, b, c, d] (by simp)

/-- An IPv4 address with a word between the `::` and it. -/
theorem inetPton6_mapped {w : ℕ} (hw : w < 65536) (a b c d : UInt8) :
    inetPton6 (Char.toUInt8 ':' :: Char.toUInt8 ':' ::
        (joinWords [w] ++ Char.toUInt8 ':' :: dotted a b c d))
      = some (List.replicate 10 0 ++ (wordBytes w ++ [a, b, c, d])) := by
  have hne : dotted a b c d ≠ [] := by simp [dotted]
  rw [inetPton6_colons, loop_joinWords hne w [] _ _ (by simpa using hw) (by simp),
    finish_dotted a b c d (by simp [wordBytes])]
  have h := @finish_some [] (wordBytes w ++ [a, b, c, d]) (by simp [wordBytes])
  simpa [wordBytes] using h

end Words

end TestLibuv
