import Mathlib.Data.List.GetD
import Mathlib.Data.List.TakeWhile
import TestLibuv.Proofs.InetText
import TestLibuv.Proofs.InetZeros

/-!
# Addresses survive being printed

What `uv_ip4_name` and `uv_ip6_name` print is a text that `uv_ip4_addr` and `uv_ip6_addr` read back,
for every address. The words of an IPv6 address stand around the run of zeros that `::` is for, and
the last two of them may be printed as an IPv4 address.
-/

namespace TestLibuv

open CMem Numerals

/-! ## The characters of a text -/

/-- What the text of an address is made of. -/
def addrChars : List UInt8 := xdigitsL ++ [Char.toUInt8 ':', Char.toUInt8 '.']

theorem xdigit_mem : ∀ d < 16, xdigitsL.getD d 0 ∈ addrChars := by decide

theorem printX_subset (w : ℕ) : printX w ⊆ addrChars := by
  intro ch hch
  obtain ⟨d, hd, rfl⟩ := List.mem_map.1 hch
  exact xdigit_mem d (lt_of_mem_numeral (by omega) hd)

theorem printU_subset (n : ℕ) : printU n ⊆ addrChars := by
  intro ch hch
  rw [Pton6.printU_eq] at hch
  obtain ⟨d, hd, rfl⟩ := List.mem_map.1 hch
  exact xdigit_mem d ((lt_of_mem_numeral (by omega) hd).trans (by omega))

theorem dotted_subset (a b c d : UInt8) : dotted a b c d ⊆ addrChars := by
  have hdot : Char.toUInt8 '.' ∈ addrChars := by decide
  simp only [dotted, List.append_subset, List.cons_subset]
  exact ⟨printU_subset _, hdot, printU_subset _, hdot, printU_subset _, hdot, printU_subset _⟩

theorem colonWords_subset (ws : List ℕ) : colonWords ws ⊆ addrChars := by
  intro ch hch
  obtain ⟨w, -, hw⟩ := List.mem_flatMap.1 hch
  rcases List.mem_cons.1 hw with rfl | hw
  · decide
  · exact printX_subset w hw

theorem joinWords_subset (ws : List ℕ) : joinWords ws ⊆ addrChars := by
  rcases ws with _ | ⟨w, ws⟩
  · exact List.nil_subset _
  · exact List.append_subset.2 ⟨printX_subset w, colonWords_subset ws⟩

theorem length_printX_le {w : ℕ} (hw : w < 65536) : (printX w).length ≤ 4 := by
  rw [printX, List.length_map]
  exact length_numeral_le (by omega) (by omega) (hw.trans_le (by norm_num))

theorem length_colonWords_le : ∀ {ws : List ℕ}, (∀ w ∈ ws, w < 65536) →
    (colonWords ws).length ≤ 5 * ws.length
  | [], _ => le_rfl
  | w :: ws, h => by
    obtain ⟨hw, hws⟩ := List.forall_mem_cons.1 h
    have hlen := length_printX_le hw
    have hrest := length_colonWords_le hws
    have hsplit : colonWords (w :: ws) = Char.toUInt8 ':' :: (printX w ++ colonWords ws) := by
      simp [colonWords]
    rw [hsplit]
    simp only [List.length_cons, List.length_append]
    omega

theorem length_joinWords_le {ws : List ℕ} (h : ∀ w ∈ ws, w < 65536) :
    (joinWords ws).length ≤ 5 * ws.length - 1 := by
  rcases ws with _ | ⟨w, ws⟩
  · exact Nat.zero_le _
  · obtain ⟨hw, hws⟩ := List.forall_mem_cons.1 h
    have hlen := length_printX_le hw
    have hrest := length_colonWords_le hws
    simp only [joinWords, List.length_cons, List.length_append]
    omega

/-- The text is the one of an IPv6 address, and reads as it. -/
structure Text6 (src text : List UInt8) : Prop where
  ntop : ∀ size, inetNtop6 src size = if text.length < size then some text else none
  pton : inetPton6 text = some src
  length : text.length ≤ 39
  chars : text ⊆ addrChars

/-! ## The words -/

namespace Ntop6

theorem word_eq (a b : UInt8) :
    0 ||| a.toNat <<< 8 ||| b.toNat <<< 0 = a.toNat * 256 + b.toNat := by
  have hor := Nat.shiftLeft_add_eq_or_of_lt (i := 8) b.toNat_lt a.toNat
  rw [Nat.zero_or, Nat.shiftLeft_zero, ← hor, Nat.shiftLeft_eq]

theorem wordBytes_word (a b : UInt8) : wordBytes (a.toNat * 256 + b.toNat) = [a, b] := by
  have hb := b.toNat_lt
  have hhi : (a.toNat * 256 + b.toNat) / 256 = a.toNat := by omega
  have hlo : UInt8.ofNat (a.toNat * 256 + b.toNat) = b := by
    rw [← UInt8.toNat_inj, UInt8.toNat_ofNat']
    omega
  rw [wordBytes, hhi, hlo, UInt8.ofNat_toNat]

/-- The eight words are the bytes of the address, two by two. -/
theorem words_bytes : ∀ {src : List UInt8}, src.length = 16 → (words src).length = 8
    ∧ (∀ w ∈ words src, w < 65536) ∧ (words src).flatMap wordBytes = src
  | [b0, b1, b2, b3, b4, b5, b6, b7, b8, b9, b10, b11, b12, b13, b14, b15], _ => by
    have hwords : words [b0, b1, b2, b3, b4, b5, b6, b7, b8, b9, b10, b11, b12, b13, b14, b15]
        = [(b0, b1), (b2, b3), (b4, b5), (b6, b7), (b8, b9), (b10, b11), (b12, b13),
          (b14, b15)].map fun p : UInt8 × UInt8 => p.1.toNat * 256 + p.2.toNat := by
      simp [words, List.range_succ, ← word_eq]
    rw [hwords]
    refine ⟨rfl, fun w hw => ?_, ?_⟩
    · obtain ⟨p, -, rfl⟩ := List.mem_map.1 hw
      have hhi := p.1.toNat_lt
      have hlo := p.2.toNat_lt
      omega
    · simp [wordBytes_word]

variable {src tp : List UInt8} {words : List ℕ} {best : ZeroRun} {b i k l n size : ℕ}

/-- The words around a run of zeros. -/
theorem Zeros.split (hz : Zeros words b l) (hlen : b + l ≤ words.length) :
    words = words.take b ++ (List.replicate l 0 ++ words.drop (b + l)) := by
  have hrun : (words.drop b).take l = List.replicate l 0 := by
    refine List.eq_replicate_iff.2 ⟨by simp; omega, fun w hw => ?_⟩
    obtain ⟨j, hj, rfl⟩ := List.mem_iff_getElem.1 hw
    have hj' : j < l := by
      rw [List.length_take] at hj
      omega
    have hzero := hz (b + j) (by omega) (by omega)
    rw [List.getD_eq_getElem _ _ (by omega)] at hzero
    simpa using hzero
  rw [← hrun, ← List.drop_drop, List.take_append_drop, List.take_append_drop]

theorem flatMap_zeros : ∀ l, (List.replicate l 0).flatMap wordBytes = List.replicate (2 * l) 0
  | 0 => rfl
  | l + 1 => by
    have hl : 2 * (l + 1) = 2 * l + 2 := by omega
    rw [List.replicate_succ, List.flatMap_cons, flatMap_zeros l, hl, List.replicate_succ,
      List.replicate_succ]
    rfl

/-! ## The loop -/

/-- The last two words are printed as an IPv4 address. -/
def Embeds (words : List ℕ) (best : ZeroRun) : Prop :=
  best.base = 0 ∧ (best.len = 6 ∨ (best.len = 7 ∧ words.getD 7 0 ≠ 1)
    ∨ (best.len = 5 ∧ words.getD 5 0 = 0xffff))

/-- The word at `i` is printed as it is. -/
structure Plain (words : List ℕ) (best : ZeroRun) (i : ℕ) : Prop where
  outside : ¬ (best.base ≠ -1 ∧ best.base ≤ i ∧ i < best.base + best.len)
  embeds : ¬ (i = 6 ∧ Embeds words best)

theorem loop_plain (h : Plain words best i) : loop src words best (n + 1) i tp
    = loop src words best n (i + 1)
        ((if i ≠ 0 then tp ++ [Char.toUInt8 ':'] else tp) ++ printX (words.getD i 0)) :=
  (if_neg h.outside).trans (if_neg h.embeds)

/-- Words behind others, or behind the run. -/
theorem loop_words : ∀ (k i : ℕ) (tp : List UInt8), 0 < i → i + k ≤ words.length →
    (∀ j, i ≤ j → j < i + k → Plain words best j) → loop src words best (k + n) i tp
      = loop src words best n (i + k) (tp ++ colonWords ((words.drop i).take k))
  | 0, i, tp, _, _, _ => by simp [colonWords]
  | k + 1, i, tp, hi, hlen, h => by
    have hlt : i < words.length := by omega
    have hn : k + 1 + n = k + n + 1 := by omega
    have hi' : i + 1 + k = i + (k + 1) := by omega
    rw [hn, loop_plain (h i le_rfl (by omega)), if_pos (by omega),
      loop_words k (i + 1) _ (by omega) (by omega) fun j hj hj' => h j (by omega) (by omega), hi',
      List.drop_eq_getElem_cons hlt, List.take_succ_cons, List.getD_eq_getElem _ _ hlt]
    simp [colonWords]

/-- The first words. -/
theorem loop_lead (hk : k ≤ words.length) (h : ∀ j < k, Plain words best j) :
    loop src words best (k + n) 0 [] = loop src words best n k (joinWords (words.take k)) := by
  rcases k with _ | k
  · simp [joinWords]
  rcases words with _ | ⟨w, words⟩
  · exact absurd hk (by simp)
  have hn : k + 1 + n = k + n + 1 := by omega
  rw [hn, loop_plain (h 0 (by omega)), if_neg (by omega), loop_words k (0 + 1) _ (by omega)
    (by rwa [Nat.add_comm]) fun j _ hj => h j (by omega), Nat.zero_add, Nat.add_comm 1]
  rfl

theorem loop_inside (hb : best.base = b) : ∀ k i, b < i → i + k ≤ b + best.len →
    loop src words best (k + n) i tp = loop src words best n (i + k) tp
  | 0, i, _, _ => by simp
  | k + 1, i, hi, hk => by
    have hn : k + 1 + n = k + n + 1 := by omega
    have hi' : i + 1 + k = i + (k + 1) := by omega
    have hstep : loop src words best (k + n + 1) i tp = loop src words best (k + n) (i + 1)
        (if (i : ℤ) = best.base then tp ++ [Char.toUInt8 ':'] else tp) :=
      if_pos ⟨by omega, by omega, by omega⟩
    rw [hn, hstep, if_neg (by omega), loop_inside hb k (i + 1) (by omega) (by omega), hi']

/-- The run itself. -/
theorem loop_run (hb : best.base = b) (hlen : 0 < best.len) :
    loop src words best (best.len + n) b tp
      = loop src words best n (b + best.len) (tp ++ [Char.toUInt8 ':']) := by
  obtain ⟨k, hk⟩ : ∃ k, best.len = k + 1 := ⟨best.len - 1, by omega⟩
  have hn : best.len + n = k + n + 1 := by omega
  have hb' : b + 1 + k = b + best.len := by omega
  have hstep : loop src words best (k + n + 1) b tp = loop src words best (k + n) (b + 1)
      (if (b : ℤ) = best.base then tp ++ [Char.toUInt8 ':'] else tp) :=
    if_pos ⟨by omega, by omega, by omega⟩
  rw [hn, hstep, if_pos hb.symm, loop_inside hb k (b + 1) (by omega) (by omega), hb']

/-- The IPv4 address at the end, which has room. -/
theorem loop_embeds
    (hout : ¬ (best.base ≠ -1 ∧ best.base ≤ (6 : ℕ) ∧ (6 : ℕ) < best.base + best.len))
    (h : Embeds words best) {a b c d : UInt8} (hsrc : src.drop 12 = [a, b, c, d])
    (htp : tp.length ≤ 20) :
    loop src words best (n + 1) 6 tp = some (tp ++ Char.toUInt8 ':' :: dotted a b c d) := by
  have hstep : loop src words best (n + 1) 6 tp
      = (inetNtop4 (src.drop 12) (46 - (tp ++ [Char.toUInt8 ':']).length)).map
        (tp ++ [Char.toUInt8 ':'] ++ ·) := (if_neg hout).trans (if_pos ⟨rfl, h⟩)
  have hlen := length_dotted_le a b c d
  rw [hstep, hsrc, inetNtop4_eq, if_pos (by
    rw [List.length_append, List.length_singleton]
    omega)]
  simp

/-- Words are printed around the run. -/
theorem loop_around (hlen : words.length = 8) (hbase : best.base = b) (htwo : 2 ≤ best.len)
    (hend : b + best.len ≤ 8) (hno : b + best.len ≤ 6 → ¬ Embeds words best) :
    loop src words best 8 0 [] = some (joinWords (words.take b) ++ [Char.toUInt8 ':']
      ++ colonWords (words.drop (b + best.len))) := by
  obtain ⟨r, hr⟩ : ∃ r, b + best.len + r = 8 := ⟨8 - (b + best.len), by omega⟩
  have hlead : ∀ j < b, Plain words best j := fun j hj =>
    ⟨fun h => by omega, fun h => by have hzero := h.2.1; omega⟩
  have hrest : ∀ j, b + best.len ≤ j → j < b + best.len + r → Plain words best j := fun j hj _ =>
    ⟨fun h => by omega, fun h => hno (h.1 ▸ hj) h.2⟩
  have hdrop : (words.drop (b + best.len)).length = r := by
    rw [List.length_drop]
    omega
  have hsum : 8 = b + (best.len + (r + 0)) := by omega
  rw [hsum, loop_lead (by omega) hlead, loop_run hbase (by omega),
    loop_words r _ _ (by omega) (by omega) hrest, ← hdrop, List.take_length]
  rfl

section Embedded

variable {a b c d : UInt8} (hdrop : src.drop 12 = [a, b, c, d]) (hbase : best.base = 0)

include hdrop hbase

/-- An IPv4 address is printed behind six zeros. -/
theorem loop_dotted (hsix : best.len = 6) : loop src words best 8 0 []
    = some (Char.toUInt8 ':' :: Char.toUInt8 ':' :: dotted a b c d) := by
  have hrun : loop src words best (best.len + 2) 0 [] = _ := loop_run (b := 0) hbase (by omega)
  rw [hsix] at hrun
  exact hrun.trans (loop_embeds (fun h => by omega) ⟨hbase, .inl hsix⟩ hdrop (by simp))

/-- An IPv4 address is printed behind five zeros and 0xffff. -/
theorem loop_mapped (hfive : best.len = 5) (hffff : words.getD 5 0 = 0xffff) :
    loop src words best 8 0 [] = some (Char.toUInt8 ':' :: Char.toUInt8 ':' ::
      (joinWords [0xffff] ++ Char.toUInt8 ':' :: dotted a b c d)) := by
  have hplain : Plain words best 5 := ⟨fun h => by omega, fun h => absurd h.1 (by omega)⟩
  have hlong := length_printX_le (w := 0xffff) (by omega)
  have hrun : loop src words best (best.len + 3) 0 [] = _ := loop_run (b := 0) hbase (by omega)
  rw [hfive, Nat.zero_add] at hrun
  rw [hrun.trans (loop_plain hplain), hffff, if_pos (by omega), loop_embeds (fun h => by omega)
    ⟨hbase, .inr (.inr ⟨hfive, hffff⟩)⟩ hdrop (by simp; omega)]
  simp [joinWords, colonWords]

end Embedded

/-- What the loop gives is the text, but for the end of a run that ends the address. -/
theorem inetNtop6_of_loop (hwords : Ntop6.words src = words) (hbest : bestRun words = best)
    (h : loop src words best 8 0 [] = some tp) {text : List UInt8}
    (htext : text = if best.base ≠ -1 ∧ best.base + best.len = 8 then tp ++ [Char.toUInt8 ':']
      else tp) (size : ℕ) :
    inetNtop6 src size = if text.length < size then some text else none := by
  simp only [inetNtop6, hwords, hbest, h, Option.bind_some]
  rw [← htext]
  split_ifs <;> first | rfl | omega

/-! ## The texts -/

section Texts

variable (hwords : Ntop6.words src = words) (hbest : bestRun words = best) (hsrc : src.length = 16)

include hwords hsrc

/-- The bytes of the address around a run of zeros. -/
theorem bytes_split (hz : Zeros words b l) (hend : b + l ≤ 8) :
    src = (words.take b).flatMap wordBytes
      ++ (List.replicate (2 * l) 0 ++ (words.drop (b + l)).flatMap wordBytes) := by
  obtain ⟨hlen, -, hbytes⟩ := words_bytes hsrc
  rw [hwords] at hlen hbytes
  conv_lhs => rw [← hbytes, hz.split (by omega), List.flatMap_append, List.flatMap_append,
    flatMap_zeros]

include hbest

/-- No two words in a row are 0. -/
theorem text_words (hbase : best.base = -1) : ∃ text, Text6 src text := by
  obtain ⟨hlen, hlt, hbytes⟩ := words_bytes hsrc
  rw [hwords] at hlen hlt hbytes
  have hplain : ∀ j < 8, Plain words best j :=
    fun j _ => ⟨fun h => h.1 hbase, fun h => absurd (hbase.symm.trans h.2.1) (by decide)⟩
  have hloop : loop src words best (8 + 0) 0 [] = _ := loop_lead hlen.ge hplain
  rw [List.take_of_length_le hlen.le] at hloop
  refine ⟨joinWords words, inetNtop6_of_loop hwords hbest hloop
    (if_neg fun h => h.1 hbase).symm, ?_, ?_, joinWords_subset _⟩
  · rw [inetPton6_joinWords hlt hlen, hbytes]
  · have hle := length_joinWords_le hlt
    omega

/-- A run of zeros, and words around it. -/
theorem text_around (hbase : best.base = b) (htwo : 2 ≤ best.len) (hend : b + best.len ≤ 8)
    (hz : Zeros words b best.len) (hno : b + best.len ≤ 6 → ¬ Embeds words best) :
    ∃ text, Text6 src text := by
  obtain ⟨hlen, hlt, -⟩ := words_bytes hsrc
  rw [hwords] at hlen hlt
  have hps : ∀ w ∈ words.take b, w < 65536 := fun w h => hlt w (List.mem_of_mem_take h)
  have hss : ∀ w ∈ words.drop (b + best.len), w < 65536 :=
    fun w h => hlt w (List.mem_of_mem_drop h)
  have hpl : (words.take b).length = b := by
    rw [List.length_take]
    omega
  have hsl : (words.drop (b + best.len)).length = 8 - (b + best.len) := by
    rw [List.length_drop, hlen]
  refine ⟨joinWords (words.take b) ++ Char.toUInt8 ':' :: Char.toUInt8 ':' ::
    joinWords (words.drop (b + best.len)),
    inetNtop6_of_loop hwords hbest (loop_around hlen hbase htwo hend hno) ?_, ?_, ?_, ?_⟩
  · -- the second `:` stands before the next word, or is the one the address ends with
    rcases hdrop : words.drop (b + best.len) with _ | ⟨w, ws⟩
    · rw [hdrop, List.length_nil] at hsl
      rw [if_pos ⟨by omega, by omega⟩]
      simp [joinWords, colonWords]
    · rw [hdrop, List.length_cons] at hsl
      rw [if_neg (fun h => by omega)]
      simp [joinWords, colonWords]
  · have hzeros : 8 - (b + (8 - (b + best.len))) = best.len := by omega
    rw [inetPton6_words hps hss (by omega), hpl, hsl, hzeros, ← bytes_split hwords hsrc hz hend]
  · have hp := length_joinWords_le hps
    have hs := length_joinWords_le hss
    simp only [List.length_append, List.length_cons]
    omega
  · have hcolon : Char.toUInt8 ':' ∈ addrChars := by decide
    exact List.append_subset.2 ⟨joinWords_subset _, List.cons_subset.2 ⟨hcolon,
      List.cons_subset.2 ⟨hcolon, joinWords_subset _⟩⟩⟩

section Embedded

variable {a b c d : UInt8} (hdrop : src.drop 12 = [a, b, c, d]) (hbase : best.base = 0)
  (hz : Zeros words 0 best.len)

include hdrop hbase hz

/-- An IPv4 address behind six zeros. -/
theorem text_dotted (hsix : best.len = 6) : ∃ text, Text6 src text := by
  have hsplit := bytes_split hwords hsrc hz (by omega)
  rw [List.take_zero, List.flatMap_nil, List.nil_append, hsix] at hsplit
  have hsrc' : src = List.replicate 12 0 ++ [a, b, c, d] := by
    conv_lhs => rw [hsplit]
    rw [← hdrop, hsplit, List.drop_left' (by simp)]
  refine ⟨Char.toUInt8 ':' :: Char.toUInt8 ':' :: dotted a b c d,
    inetNtop6_of_loop hwords hbest (loop_dotted hdrop hbase hsix) ?_, ?_, ?_, ?_⟩
  · rw [if_neg (fun h => by omega)]
  · exact (inetPton6_dotted a b c d).trans (congrArg some hsrc'.symm)
  · have hdots := length_dotted_le a b c d
    simp only [List.length_cons]
    omega
  · have hcolon : Char.toUInt8 ':' ∈ addrChars := by decide
    exact List.cons_subset.2 ⟨hcolon, List.cons_subset.2 ⟨hcolon, dotted_subset a b c d⟩⟩

/-- An IPv4 address behind five zeros and 0xffff. -/
theorem text_mapped (hfive : best.len = 5) (hffff : words.getD 5 0 = 0xffff) :
    ∃ text, Text6 src text := by
  obtain ⟨hlen, -, -⟩ := words_bytes hsrc
  rw [hwords] at hlen
  have hword : words.drop 5 = 0xffff :: words.drop 6 := by
    rw [← hffff, List.getD_eq_getElem _ _ (by omega)]
    exact List.drop_eq_getElem_cons (by omega)
  have hsplit := bytes_split hwords hsrc hz (by omega)
  rw [List.take_zero, List.flatMap_nil, List.nil_append, hfive, Nat.zero_add, hword,
    List.flatMap_cons, ← List.append_assoc] at hsplit
  have hsrc' : src = List.replicate 10 0 ++ (wordBytes 0xffff ++ [a, b, c, d]) := by
    conv_lhs => rw [hsplit]
    rw [← hdrop, hsplit, List.drop_left' (by simp [wordBytes]), List.append_assoc]
  refine ⟨Char.toUInt8 ':' :: Char.toUInt8 ':' ::
    (joinWords [0xffff] ++ Char.toUInt8 ':' :: dotted a b c d),
    inetNtop6_of_loop hwords hbest (loop_mapped hdrop hbase hfive hffff) ?_, ?_, ?_, ?_⟩
  · rw [if_neg (fun h => by omega)]
  · exact (inetPton6_mapped (by omega) a b c d).trans (congrArg some hsrc'.symm)
  · have hdots := length_dotted_le a b c d
    have hfour : (joinWords [0xffff]).length ≤ _ := length_joinWords_le (by simp)
    simp only [List.length_cons, List.length_append, List.length_nil] at hfour ⊢
    omega
  · have hcolon : Char.toUInt8 ':' ∈ addrChars := by decide
    exact List.cons_subset.2 ⟨hcolon, List.cons_subset.2 ⟨hcolon, List.append_subset.2
      ⟨joinWords_subset _, List.cons_subset.2 ⟨hcolon, dotted_subset a b c d⟩⟩⟩⟩

end Embedded

end Texts

/-- Every address has a text. -/
theorem exists_text (hsrc : src.length = 16) : ∃ text, Text6 src text := by
  obtain ⟨a, b, c, d, hdrop⟩ : ∃ a b c d, src.drop 12 = [a, b, c, d] := by
    have hfour : (src.drop 12).length = 4 := by rw [List.length_drop, hsrc]
    match src.drop 12, hfour with
    | [a, b, c, d], _ => exact ⟨a, b, c, d, rfl⟩
  obtain ⟨words, hwords⟩ : ∃ words, Ntop6.words src = words := ⟨_, rfl⟩
  obtain ⟨best, hbest⟩ : ∃ best, bestRun words = best := ⟨_, rfl⟩
  have hrun := bestRun_isRun words
  rw [hbest] at hrun
  rcases hrun with hbase | ⟨n, hbase, htwo, hend, hz⟩
  · exact text_words hwords hbest hsrc hbase
  by_cases hembeds : n + best.len ≤ 6 ∧ Embeds words best
  · obtain ⟨hsix, hzero, hkind⟩ := hembeds
    obtain rfl : n = 0 := by omega
    rcases hkind with h | h | h
    · exact text_dotted hwords hbest hsrc hdrop hzero hz h
    · omega
    · exact text_mapped hwords hbest hsrc hdrop hzero hz h.1 h.2
  · exact text_around hwords hbest hsrc hbase htwo hend hz fun hsix h => hembeds ⟨hsix, h⟩

end Ntop6

/-! ## The round trips -/

theorem cStr_of_addrChars {text : List UInt8} (h : text ⊆ addrChars) : cStr text = text := by
  have hzero : addrChars.all (· ≠ 0) = true := by decide
  exact List.takeWhile_eq_self_iff.2 fun ch hch => List.all_eq_true.1 hzero ch (h hch)

/-- `uv_ip4_name` gives a text of 15 characters at most, where there is room for it and for the
terminator, and `uv_ip4_addr` reads it back. -/
theorem uvIp4Addr_uvIp4Name {sinAddr : List UInt8} (h : sinAddr.length = 4) (port : UInt16) :
    ∃ text, text.length ≤ 15 ∧ cStr text = text
      ∧ (∀ size, uvIp4Name (sockaddrIn port sinAddr) size
        = if text.length < size then some text else none)
      ∧ ∀ port, uvIp4Addr text port = (0, sockaddrIn port sinAddr) := by
  match sinAddr, h with
  | [a, b, c, d], _ =>
    refine ⟨dotted a b c d, length_dotted_le a b c d, cStr_of_addrChars (dotted_subset a b c d),
      fun size => ?_, fun port => ?_⟩
    · exact inetNtop4_eq a b c d size []
    · simp only [uvIp4Addr, inetPton4_dotted]

theorem uvIp4Addr_uvIp4Name_localhost :
    ∃ text, text.length ≤ 15 ∧ cStr text = text
      ∧ (∀ size, uvIp4Name (sockaddrIn 6666 [127, 0, 0, 1]) size
        = if text.length < size then some text else none)
      ∧ ∀ port, uvIp4Addr text port = (0, sockaddrIn port [127, 0, 0, 1]) :=
  uvIp4Addr_uvIp4Name rfl 6666

/-- `uv_ip6_name` gives a text of 39 characters at most, where there is room for it and for the
terminator, and `uv_ip6_addr` reads it back, but for the scope. -/
theorem uvIp6Addr_uvIp6Name {sin6Addr : List UInt8} (h : sin6Addr.length = 16) (port : UInt16)
    (scopeId : ℤ) :
    ∃ text, text.length ≤ 39 ∧ cStr text = text
      ∧ (∀ size, uvIp6Name (sockaddrIn6 port sin6Addr scopeId) size
        = if text.length < size then some text else none)
      ∧ ∀ port, uvIp6Addr text port = (0, sockaddrIn6 port sin6Addr 0) := by
  obtain ⟨text, htext⟩ := Ntop6.exists_text h
  have hchar : Char.toUInt8 '%' ∉ addrChars := by decide
  have hpercent : strchr text (Char.toUInt8 '%') = none :=
    List.idxOf?_eq_none_iff.2 fun hmem => hchar (htext.chars hmem)
  refine ⟨text, htext.length, cStr_of_addrChars htext.chars, fun size => ?_, fun port => ?_⟩
  · have haddr : ((sockaddrIn6 port sin6Addr scopeId).drop 8).take 16 = sin6Addr := by
      simp [sockaddrIn6, u16Bytes, malloc, h]
    rw [uvIp6Name, haddr]
    exact htext.ntop size
  · simp only [uvIp6Addr, uvInetPton6, hpercent, htext.pton]

/-- A mapped IPv4 address, with the scope of an interface. -/
theorem uvIp6Addr_uvIp6Name_mapped :
    ∃ text, text.length ≤ 39 ∧ cStr text = text
      ∧ (∀ size, uvIp6Name
          (sockaddrIn6 6666 [0, 0, 0, 0, 0, 0, 0, 0, 0, 0, 0xff, 0xff, 127, 0, 0, 1] 3) size
        = if text.length < size then some text else none)
      ∧ ∀ port, uvIp6Addr text port
        = (0, sockaddrIn6 port [0, 0, 0, 0, 0, 0, 0, 0, 0, 0, 0xff, 0xff, 127, 0, 0, 1] 0) :=
  uvIp6Addr_uvIp6Name rfl 6666 3

end TestLibuv
