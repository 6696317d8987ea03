import TestLibuv.Inet
import TestLibuv.Lib.Numerals

/-!
# Text from addresses

`uv_ip4_name` and `uv_ip6_name` of `uv-common.c`, and the printers of `inet.c` under them. A text is
the list of its bytes before the terminator, and `tp` the text so far. A printer gives nothing where
the source returns `UV_ENOSPC`.
-/

namespace TestLibuv

open Numerals

/-- `%u` -/
def printU (n : ℕ) : List UInt8 := (numeral 10 n).map (digits.getD · 0)

/-- `%x` -/
def printX (n : ℕ) : List UInt8 := (numeral 16 n).map (xdigitsL.getD · 0)

def inetNtop4 (src : List UInt8) (size : ℕ) : Option (List UInt8) :=
  let dot := Char.toUInt8 '.'
  let octet i := printU (src.getD i 0).toNat
  let tmp := octet 0 ++ dot :: (octet 1 ++ dot :: (octet 2 ++ dot :: octet 3))
  if tmp = [] ∨ size ≤ tmp.length then none else some tmp

/-- A run of words that are 0, from `base` on, which is -1 where there is none. -/
structure ZeroRun where
  base : ℤ
  len : ℕ
  deriving DecidableEq, Repr

namespace Ntop6

/-- The words of the address. -/
def words (src : List UInt8) : List ℕ :=
  (List.range 16).foldl (fun words i => words.set (i / 2)
    (words.getD (i / 2) 0 ||| (src.getD i 0).toNat <<< ((1 - i % 2) <<< 3))) (List.replicate 8 0)

/-- The run at hand is the best so far, if it is longer. -/
def better (best cur : ZeroRun) : ZeroRun :=
  if cur.base ≠ -1 ∧ (best.base = -1 ∨ best.len < cur.len) then cur else best

/-- A round of the loop that looks for the longest run. -/
def scan (words : List ℕ) (s : ZeroRun × ZeroRun) (i : ℕ) : ZeroRun × ZeroRun :=
  let (best, cur) := s
  if words.getD i 0 = 0 then
    (best, if cur.base = -1 then ⟨i, 1⟩ else { cur with len := cur.len + 1 })
  else (better best cur, { cur with base := -1 })

/-- The longest run, if it has two words. -/
def bestRun (words : List ℕ) : ZeroRun :=
  let (best, cur) := (List.range 8).foldl (scan words) (⟨-1, 0⟩, ⟨-1, 0⟩)
  let best := better best cur
  if best.base ≠ -1 ∧ best.len < 2 then { best with base := -1 } else best

/-- The loop that formats the result, with `n` words to come. -/
def loop (src : List UInt8) (words : List ℕ) (best : ZeroRun) :
    (n i : ℕ) → (tp : List UInt8) → Option (List UInt8)
  | 0, _, tp => some tp
  | n + 1, i, tp =>
    let colon := Char.toUInt8 ':'
    if best.base ≠ -1 ∧ best.base ≤ i ∧ i < best.base + best.len then
      loop src words best n (i + 1) (if (i : ℤ) = best.base then tp ++ [colon] else tp)
    else
      let tp := if i ≠ 0 then tp ++ [colon] else tp
      -- an IPv4 address in an IPv6 one
      if i = 6 ∧ best.base = 0 ∧ (best.len = 6 ∨ (best.len = 7 ∧ words.getD 7 0 ≠ 1)
          ∨ (best.len = 5 ∧ words.getD 5 0 = 0xffff)) then
        (inetNtop4 (src.drop 12) (46 - tp.length)).map (tp ++ ·)
      else loop src words best n (i + 1) (tp ++ printX (words.getD i 0))

end Ntop6

open Ntop6 in
def inetNtop6 (src : List UInt8) (size : ℕ) : Option (List UInt8) :=
  let words := words src
  let best := bestRun words
  (loop src words best 8 0 []).bind fun tp =>
    let tp := if best.base ≠ -1 ∧ best.base + best.len = 8 then tp ++ [Char.toUInt8 ':'] else tp
    if size < tp.length + 1 then none else some tp

/-- `uv_ip4_name`, given the bytes of a `struct sockaddr_in`. -/
def uvIp4Name (addr : List UInt8) (size : ℕ) : Option (List UInt8) :=
  inetNtop4 ((addr.drop 4).take 4) size

/-- `uv_ip6_name`, given the bytes of a `struct sockaddr_in6`. -/
def uvIp6Name (addr : List UInt8) (size : ℕ) : Option (List UInt8) :=
  inetNtop6 ((addr.drop 8).take 16) size

end TestLibuv
