import TestLibuv.Uv

/-!
# Addresses from text

`uv_ip4_addr` and `uv_ip6_addr` of `uv-common.c`, and the parsers of `inet.c` under them, as on
Windows. A text is the list of its bytes before the terminator, and a pointer into `tmp` an index.
A parser gives nothing where the source returns `UV_EINVAL`.
-/

namespace TestLibuv

open CMem

def afInet : UInt16 := 2

def afInet6 : UInt16 := 23

/-- The text a `const char*` to these bytes is. -/
def cStr (s : List UInt8) : List UInt8 := s.takeWhile (· ≠ 0)

/-- `strchr`, as the offset of what it finds. -/
def strchr (s : List UInt8) (ch : UInt8) : Option ℕ := s.idxOf? ch

def digits : List UInt8 :=
  List.map Char.toUInt8 ['0', '1', '2', '3', '4', '5', '6', '7', '8', '9']

def xdigitsL : List UInt8 := digits ++ List.map Char.toUInt8 ['a', 'b', 'c', 'd', 'e', 'f']

def xdigitsU : List UInt8 := digits ++ List.map Char.toUInt8 ['A', 'B', 'C', 'D', 'E', 'F']

/-- The digits of `atoi`. -/
def atoiDigits : List UInt8 → ℕ → ℕ
  | [], n => n
  | ch :: src, n =>
    match strchr digits ch with
    | some d => atoiDigits src (n * 10 + d)
    | none => n

/-- `atoi`, which stays within `int`. -/
def atoi (src : List UInt8) : ℤ :=
  let src := src.dropWhile fun ch => ch = 32 || (9 ≤ ch && ch ≤ 13)
  let n : ℤ :=
    if src.head? = some (Char.toUInt8 '-') then -atoiDigits src.tail 0
    else if src.head? = some (Char.toUInt8 '+') then atoiDigits src.tail 0
    else atoiDigits src 0
  max (-2 ^ 31) (min n (2 ^ 31 - 1))

/-! ## The parsers -/

/-- The loop of `inet_pton4`. -/
def inetPton4Loop : (src tmp : List UInt8) → (tp octets : ℕ) → (sawDigit : Bool) →
    Option (List UInt8)
  | [], tmp, _, octets, _ => if octets < 4 then none else some tmp
  | ch :: src, tmp, tp, octets, sawDigit =>
    match strchr digits ch with
    | some pch =>
      let nw := (tmp.getD tp 0).toNat * 10 + pch
      if sawDigit ∧ tmp.getD tp 0 = 0 then none
      else if 255 < nw then none
      else if sawDigit then inetPton4Loop src (tmp.set tp (.ofNat nw)) tp octets true
      else if 4 < octets + 1 then none
      else inetPton4Loop src (tmp.set tp (.ofNat nw)) tp (octets + 1) true
    | none =>
      if ch = Char.toUInt8 '.' ∧ sawDigit then
        if octets = 4 then none
        else inetPton4Loop src (tmp.set (tp + 1) 0) (tp + 1) octets false
      else none

def inetPton4 (src : List UInt8) : Option (List UInt8) := inetPton4Loop src (malloc 4) 0 0 false

/-- The variables of `inet_pton6`. -/
structure Pton6 where
  tmp : List UInt8
  tp : ℕ
  colonp : Option ℕ
  seenXdigits : ℕ
  val : ℕ

namespace Pton6

/-- The two bytes of `val` appended, where they fit. -/
def putVal (v : Pton6) : Option Pton6 :=
  if 16 < v.tp + 2 then none
  else some { v with
    tmp := (v.tmp.set v.tp (.ofNat (v.val / 256))).set (v.tp + 1) (.ofNat v.val)
    tp := v.tp + 2, seenXdigits := 0, val := 0 }

/-- The loop of `inet_pton6`. -/
def loop : (src curtok : List UInt8) → Pton6 → Option Pton6
  | [], _, v => some v
  | ch :: src, curtok, v =>
    match (strchr xdigitsL ch).or (strchr xdigitsU ch) with
    | some pch =>
      if 4 < v.seenXdigits + 1 then none
      else loop src curtok { v with val := v.val * 16 + pch, seenXdigits := v.seenXdigits + 1 }
    | none =>
      if ch = Char.toUInt8 ':' then
        if v.seenXdigits = 0 then
          if v.colonp.isSome then none else loop src src { v with colonp := some v.tp }
        else if src = [] then none
        else
          match v.putVal with
          | some v => loop src src v
          | none => none
      else if ch = Char.toUInt8 '.' ∧ v.tp + 4 ≤ 16 then
        -- the octets end the text
        (inetPton4 curtok).map fun octets =>
          { v with
            tmp := v.tmp.take v.tp ++ (octets ++ v.tmp.drop (v.tp + 4))
            tp := v.tp + 4, seenXdigits := 0 }
      else none

/-- What follows the `::` moved to the end, byte by byte from the last. -/
def shift (v : Pton6) (colonp : ℕ) : Pton6 :=
  let n := v.tp - colonp
  { v with
    tmp := (List.range n).foldl (fun tmp k => (tmp.set (16 - (k + 1))
      (tmp.getD (colonp + n - (k + 1)) 0)).set (colonp + n - (k + 1)) 0) v.tmp
    tp := 16 }

/-- The digits left when the text ends. -/
def putLast (v : Pton6) : Option Pton6 := if v.seenXdigits = 0 then some v else v.putVal

/-- The `::` filled up. -/
def fill (v : Pton6) : Option Pton6 :=
  match v.colonp with
  | some colonp => if v.tp = 16 then none else some (v.shift colonp)
  | none => some v

/-- `inet_pton6` behind its loop. -/
def finish (v : Pton6) : Option (List UInt8) :=
  (v.putLast.bind fill).bind fun v => if v.tp = 16 then some v.tmp else none

end Pton6

def inetPton6 (src : List UInt8) : Option (List UInt8) :=
  let colon := Char.toUInt8 ':'
  -- a leading `::`
  if src.head? = some colon ∧ src.tail.head? ≠ some colon then none
  else
    let src := if src.head? = some colon then src.tail else src
    (Pton6.loop src src ⟨malloc 16, 0, none, 0, 0⟩).bind Pton6.finish

/-- `uv_inet_pton` for `AF_INET6`. -/
def uvInetPton6 (src : List UInt8) : Option (List UInt8) :=
  match strchr src (Char.toUInt8 '%') with
  | some len => if 45 < len then none else inetPton6 (src.take len)
  | none => inetPton6 src

/-! ## The addresses -/

/-- The bytes of a `struct sockaddr_in`. -/
def sockaddrIn (port : UInt16) (sinAddr : List UInt8) : List UInt8 :=
  u16Bytes afInet ++ ((u16Bytes port).reverse ++ (sinAddr ++ malloc 8))

/-- The bytes of a `struct sockaddr_in6`. -/
def sockaddrIn6 (port : UInt16) (sin6Addr : List UInt8) (scopeId : ℤ) : List UInt8 :=
  u16Bytes afInet6 ++ ((u16Bytes port).reverse ++ (malloc 4 ++ (sin6Addr ++
    u32Bytes (toU32 scopeId))))

/-- `uv_ip4_addr`: what it returns and leaves in `addr`. -/
def uvIp4Addr (ip : List UInt8) (port : UInt16) : ℤ × List UInt8 :=
  match inetPton4 ip with
  | some sinAddr => (0, sockaddrIn port sinAddr)
  | none => (uvEinval, sockaddrIn port (malloc 4))

/-- `uv_ip6_addr`: what it returns and leaves in `addr`. -/
def uvIp6Addr (ip : List UInt8) (port : UInt16) : ℤ × List UInt8 :=
  let (ip, scopeId) :=
    match strchr ip (Char.toUInt8 '%') with
    | some n => (ip.take (if 40 ≤ n then 39 else n), atoi (ip.drop (n + 1)))
    | none => (ip, 0)
  match uvInetPton6 ip with
  | some sin6Addr => (0, sockaddrIn6 port sin6Addr scopeId)
  | none => (uvEinval, sockaddrIn6 port (malloc 16) scopeId)

/-- The length `uv_udp_send` gives the address at `addr`, by its family. -/
def addrLen (addr : List UInt8) : Option ℕ :=
  if addr.take 2 = u16Bytes afInet then some 16
  else if addr.take 2 = u16Bytes afInet6 then some 28
  else none

/-! ## Their lengths -/

theorem length_inetPton4Loop : ∀ (src tmp : List UInt8) (tp octets : ℕ) (sawDigit : Bool)
    {dst : List UInt8}, inetPton4Loop src tmp tp octets sawDigit = some dst →
      dst.length = tmp.length
  | [], tmp, _, octets, _, dst, h => by
    simp only [inetPton4Loop, Option.ite_none_left_eq_some, Option.some.injEq] at h
    rw [h.2]
  | ch :: src, tmp, tp, octets, sawDigit, dst, h => by
    unfold inetPton4Loop at h
    split at h
    · dsimp only at h
      split_ifs at h <;> simpa using length_inetPton4Loop src _ _ _ _ h
    · split_ifs at h
      simpa using length_inetPton4Loop src _ _ _ _ h

theorem length_inetPton4 {src dst : List UInt8} (h : inetPton4 src = some dst) :
    dst.length = 4 := length_inetPton4Loop src (malloc 4) 0 0 false h

namespace Pton6

theorem length_putVal {v w : Pton6} (h : v.putVal = some w) : w.tmp.length = v.tmp.length := by
  simp only [putVal, Option.ite_none_left_eq_some, Option.some.injEq] at h
  simp [← h.2]

theorem length_loop : ∀ (src curtok : List UInt8) (v : Pton6) {w : Pton6},
    loop src curtok v = some w → v.tmp.length = 16 → w.tmp.length = 16
  | [], _, v, w, h, hv => by
    obtain rfl := Option.some.inj h
    exact hv
  | ch :: src, curtok, v, w, h, hv => by
    unfold loop at h
    split at h
    · split_ifs at h
      exact length_loop src curtok _ h hv
    · split_ifs at h with hcolon hseen hcolonp hend hdot
      · exact length_loop src src _ h hv
      · split at h
        · exact length_loop src src _ h ((length_putVal ‹_›).trans hv)
        · cases h
      · obtain ⟨octets, hoctets, rfl⟩ := Option.map_eq_some_iff.1 h
        have hlen : octets.length = 4 := length_inetPton4 hoctets
        simp only [List.length_append, List.length_take, List.length_drop, hlen, hv]
        omega

theorem length_putLast {v w : Pton6} (h : v.putLast = some w) :
    w.tmp.length = v.tmp.length := by
  unfold putLast at h
  split_ifs at h
  · obtain rfl := Option.some.inj h
    rfl
  · exact length_putVal h

theorem length_shift (v : Pton6) (colonp : ℕ) : (v.shift colonp).tmp.length = v.tmp.length := by
  simp only [shift]
  generalize List.range (v.tp - colonp) = ks
  generalize v.tmp = tmp
  induction ks generalizing tmp with
  | nil => rfl
  | cons k ks ih =>
    rw [List.foldl_cons, ih]
    simp

theorem length_fill {v w : Pton6} (h : v.fill = some w) : w.tmp.length = v.tmp.length := by
  unfold fill at h
  split at h
  · simp only [Option.ite_none_left_eq_some, Option.some.injEq] at h
    rw [← h.2, length_shift]
  · obtain rfl := Option.some.inj h
    rfl

theorem length_finish {v : Pton6} {dst : List UInt8} (h : v.finish = some dst)
    (hv : v.tmp.length = 16) : dst.length = 16 := by
  obtain ⟨w, hw, h⟩ := Option.bind_eq_some_iff.1 h
  obtain ⟨u, hu, hw⟩ := Option.bind_eq_some_iff.1 hw
  simp only [Option.ite_none_right_eq_some, Option.some.injEq] at h
  rw [← h.2, length_fill hw, length_putLast hu, hv]

end Pton6

theorem length_inetPton6 {src dst : List UInt8} (h : inetPton6 src = some dst) :
    dst.length = 16 := by
  unfold inetPton6 at h
  dsimp only at h
  split_ifs at h <;>
  · obtain ⟨v, hv, h⟩ := Option.bind_eq_some_iff.1 h
    exact Pton6.length_finish h (Pton6.length_loop _ _ _ hv rfl)

theorem length_uvInetPton6 {src dst : List UInt8} (h : uvInetPton6 src = some dst) :
    dst.length = 16 := by
  unfold uvInetPton6 at h
  split at h
  · simp only [Option.ite_none_left_eq_some] at h
    exact length_inetPton6 h.2
  · exact length_inetPton6 h

theorem length_sockaddrIn {port : UInt16} {a : List UInt8} (h : a.length = 4) :
    (sockaddrIn port a).length = 16 := by simp [sockaddrIn, h]

theorem length_sockaddrIn6 {port : UInt16} {a : List UInt8} (h : a.length = 16) (scopeId : ℤ) :
    (sockaddrIn6 port a scopeId).length = 28 := by simp [sockaddrIn6, h]

/-- What `uv_ip4_addr` leaves is a `struct sockaddr_in`, whatever the text. -/
theorem uvIp4Addr_snd (ip : List UInt8) (port : UInt16) :
    ∃ a, a.length = 4 ∧ (uvIp4Addr ip port).2 = sockaddrIn port a := by
  unfold uvIp4Addr
  split
  · exact ⟨_, length_inetPton4 ‹_›, rfl⟩
  · exact ⟨_, length_malloc 4, rfl⟩

/-- What `uv_ip6_addr` leaves is a `struct sockaddr_in6`, whatever the text. -/
theorem uvIp6Addr_snd (ip : List UInt8) (port : UInt16) :
    ∃ a scopeId, a.length = 16 ∧ (uvIp6Addr ip port).2 = sockaddrIn6 port a scopeId := by
  unfold uvIp6Addr
  dsimp only
  split
  · exact ⟨_, _, length_uvInetPton6 ‹_›, rfl⟩
  · exact ⟨_, _, length_malloc 16, rfl⟩

theorem addrLen_inet {addr : List UInt8} (h : addr.take 2 = u16Bytes afInet) :
    addrLen addr = some 16 := if_pos h

theorem addrLen_inet6 {addr : List UInt8} (h : addr.take 2 = u16Bytes afInet6) :
    addrLen addr = some 28 := by
  have hne : u16Bytes afInet6 ≠ u16Bytes afInet := by decide
  exact (if_neg (h ▸ hne)).trans (if_pos h)

end TestLibuv
