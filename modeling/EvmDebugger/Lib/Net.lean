import EvmDebugger.Lib.Text
import Mathlib.Algebra.Ring.Nat

/-!
# Addresses of the Internet, and their notations

IPv4 and IPv6 addresses with what the standard library of the source language does with them:
how it prints them, how it reads them (`Net.parseIpAddr`, a recursive descent over the text that
gives up nothing but its place when it fails), and how it classifies them.

Two facts about the reader matter to somebody who feeds it the host of a URL. Dotted decimals
are read back as the address they show (`Net.parseIpAddr_text`). And nothing that starts with a
square bracket is an address (`Net.parseIpAddr_bracket`): the brackets around an IPv6 address
belong to the notation of the URL, not to that of the address.

What an address *is* is a number, and what is special about it is a matter of its first bits:
`Net.Block`.
-/

namespace Net

/-! ### Addresses -/

/-- An IPv4 address, by its octets. -/
structure Ipv4Addr where
  a : UInt8
  b : UInt8
  c : UInt8
  d : UInt8
  deriving DecidableEq

/-- An IPv6 address, by its segments. -/
structure Ipv6Addr where
  a : UInt16
  b : UInt16
  c : UInt16
  d : UInt16
  e : UInt16
  f : UInt16
  g : UInt16
  h : UInt16
  deriving DecidableEq

/-- An address of either kind. -/
inductive IpAddr where
  | v4 (addr : Ipv4Addr)
  | v6 (addr : Ipv6Addr)
  deriving DecidableEq

/-- The number an address stands for. -/
def Ipv4Addr.toNat (x : Ipv4Addr) : ℕ :=
  ((x.a.toNat * 256 + x.b.toNat) * 256 + x.c.toNat) * 256 + x.d.toNat

namespace Ipv6Addr

/-- The segments, as a list. -/
def segments (x : Ipv6Addr) : List UInt16 := [x.a, x.b, x.c, x.d, x.e, x.f, x.g, x.h]

/-- The number an address stands for. -/
def toNat (x : Ipv6Addr) : ℕ := x.segments.foldl (fun n s => n * 65536 + s.toNat) 0

/-- The address with the given segments; what is missing at the end is zero. -/
def ofSegments (l : List ℕ) : Ipv6Addr where
  a := UInt16.ofNat (l.getD 0 0)
  b := UInt16.ofNat (l.getD 1 0)
  c := UInt16.ofNat (l.getD 2 0)
  d := UInt16.ofNat (l.getD 3 0)
  e := UInt16.ofNat (l.getD 4 0)
  f := UInt16.ofNat (l.getD 5 0)
  g := UInt16.ofNat (l.getD 6 0)
  h := UInt16.ofNat (l.getD 7 0)

/-- The IPv4 address embedded in an IPv4-mapped one. -/
def toIpv4Mapped (x : Ipv6Addr) : Option Ipv4Addr :=
  if x.a = 0 ∧ x.b = 0 ∧ x.c = 0 ∧ x.d = 0 ∧ x.e = 0 ∧ x.f = 0xffff then
    some
      { a := UInt8.ofNat (x.g.toNat / 256)
        b := UInt8.ofNat (x.g.toNat % 256)
        c := UInt8.ofNat (x.h.toNat / 256)
        d := UInt8.ofNat (x.h.toNat % 256) }
  else none

end Ipv6Addr

/-! ### Blocks of addresses -/

/-- A block of addresses: those whose first `len` bits are the number `head`. -/
structure Block where
  head : ℕ
  len : ℕ
  deriving DecidableEq

/-- An address of `width` bits lies in the block. -/
def Block.Contains (width : ℕ) (block : Block) (n : ℕ) : Prop :=
  n / 2 ^ (width - block.len) = block.head

instance (width : ℕ) (block : Block) (n : ℕ) : Decidable (block.Contains width n) :=
  inferInstanceAs (Decidable (_ = _))

/-! ### How the standard library classifies addresses -/

namespace Ipv4Addr

/-- `10.0.0.0/8`, `172.16.0.0/12` and `192.168.0.0/16`. -/
def isPrivate (x : Ipv4Addr) : Bool :=
  x.a = 10 || (x.a = 172 && (16 ≤ x.b && x.b ≤ 31)) || (x.a = 192 && x.b = 168)

/-- `127.0.0.0/8`. -/
def isLoopback (x : Ipv4Addr) : Bool := x.a = 127

/-- `169.254.0.0/16`. -/
def isLinkLocal (x : Ipv4Addr) : Bool := x.a = 169 && x.b = 254

/-- `224.0.0.0/4`. -/
def isMulticast (x : Ipv4Addr) : Bool := 224 ≤ x.a && x.a ≤ 239

/-- `0.0.0.0`. -/
def isUnspecified (x : Ipv4Addr) : Bool := x = ⟨0, 0, 0, 0⟩

/-- `255.255.255.255`. -/
def broadcast : Ipv4Addr := ⟨255, 255, 255, 255⟩

/-! Each of these is a matter of the first bits. -/

section Blocks

variable (x : Ipv4Addr)

/-- The first octet. -/
theorem contains_eight (n : ℕ) : Block.Contains 32 ⟨n, 8⟩ x.toNat ↔ x.a.toNat = n := by
  have hb := x.b.toNat_lt
  have hc := x.c.toNat_lt
  have hd := x.d.toNat_lt
  simp only [Block.Contains, toNat, Nat.reduceSub, Nat.reducePow]
  omega

/-- The first two octets. -/
theorem contains_sixteen (n : ℕ) :
    Block.Contains 32 ⟨n, 16⟩ x.toNat ↔ x.a.toNat * 256 + x.b.toNat = n := by
  have hc := x.c.toNat_lt
  have hd := x.d.toNat_lt
  simp only [Block.Contains, toNat, Nat.reduceSub, Nat.reducePow]
  omega

/-- The whole address. -/
theorem contains_all (n : ℕ) : Block.Contains 32 ⟨n, 32⟩ x.toNat ↔ x.toNat = n := by
  simp only [Block.Contains, Nat.sub_self, Nat.pow_zero, Nat.div_one]

theorem isPrivate_iff : x.isPrivate = true ↔
    Block.Contains 32 ⟨10, 8⟩ x.toNat ∨ Block.Contains 32 ⟨172 * 16 + 1, 12⟩ x.toNat ∨
      Block.Contains 32 ⟨192 * 256 + 168, 16⟩ x.toNat := by
  have hb := x.b.toNat_lt
  have hc := x.c.toNat_lt
  have hd := x.d.toNat_lt
  have htwelve : Block.Contains 32 ⟨172 * 16 + 1, 12⟩ x.toNat ↔
      x.a.toNat = 172 ∧ 16 ≤ x.b.toNat ∧ x.b.toNat ≤ 31 := by
    simp only [Block.Contains, toNat, Nat.reduceSub, Nat.reducePow, Nat.reduceMul, Nat.reduceAdd]
    omega
  rw [contains_eight, htwelve, contains_sixteen]
  simp only [isPrivate, Bool.or_eq_true, Bool.and_eq_true, decide_eq_true_eq,
    ← UInt8.toNat_inj, UInt8.le_iff_toNat_le, UInt8.reduceToNat, or_assoc]
  omega

theorem isLoopback_iff : x.isLoopback = true ↔ Block.Contains 32 ⟨127, 8⟩ x.toNat := by
  rw [contains_eight]
  simp only [isLoopback, decide_eq_true_eq, ← UInt8.toNat_inj, UInt8.reduceToNat]

theorem isLinkLocal_iff :
    x.isLinkLocal = true ↔ Block.Contains 32 ⟨169 * 256 + 254, 16⟩ x.toNat := by
  have hb := x.b.toNat_lt
  rw [contains_sixteen]
  simp only [isLinkLocal, Bool.and_eq_true, decide_eq_true_eq, ← UInt8.toNat_inj,
    UInt8.reduceToNat]
  omega

theorem isMulticast_iff : x.isMulticast = true ↔ Block.Contains 32 ⟨14, 4⟩ x.toNat := by
  have hb := x.b.toNat_lt
  have hc := x.c.toNat_lt
  have hd := x.d.toNat_lt
  simp only [isMulticast, Bool.and_eq_true, decide_eq_true_eq, UInt8.le_iff_toNat_le,
    UInt8.reduceToNat, Block.Contains, toNat, Nat.reduceSub, Nat.reducePow]
  omega

/-- An address is the number it stands for. -/
theorem toNat_inj {x y : Ipv4Addr} : x.toNat = y.toNat ↔ x = y := by
  obtain ⟨a, b, c, d⟩ := x
  obtain ⟨a', b', c', d'⟩ := y
  have hb := b.toNat_lt
  have hc := c.toNat_lt
  have hd := d.toNat_lt
  have hb' := b'.toNat_lt
  have hc' := c'.toNat_lt
  have hd' := d'.toNat_lt
  simp only [toNat, mk.injEq, ← UInt8.toNat_inj]
  omega

theorem isUnspecified_iff : x.isUnspecified = true ↔ Block.Contains 32 ⟨0, 32⟩ x.toNat := by
  rw [contains_all, isUnspecified, decide_eq_true_eq]
  exact toNat_inj.symm

theorem eq_broadcast_iff :
    (x == broadcast) = true ↔ Block.Contains 32 ⟨2 ^ 32 - 1, 32⟩ x.toNat := by
  rw [contains_all, beq_iff_eq]
  exact toNat_inj.symm

end Blocks

end Ipv4Addr

namespace Ipv6Addr

/-- `::1`. -/
def isLoopback (x : Ipv6Addr) : Bool := x = ⟨0, 0, 0, 0, 0, 0, 0, 1⟩

/-- `::`. -/
def isUnspecified (x : Ipv6Addr) : Bool := x = ⟨0, 0, 0, 0, 0, 0, 0, 0⟩

/-- `ff00::/8`. -/
def isMulticast (x : Ipv6Addr) : Bool := x.a &&& 0xff00 = 0xff00

/-- `fc00::/7`. -/
def isUniqueLocal (x : Ipv6Addr) : Bool := x.a &&& 0xfe00 = 0xfc00

/-- `fe80::/10`. -/
def isUnicastLinkLocal (x : Ipv6Addr) : Bool := x.a &&& 0xffc0 = 0xfe80

end Ipv6Addr

/-! ### How it prints them -/

/-- A number below `256` in decimal. -/
def octet (n : UInt8) : List Char := Nat.toDigits 10 n.toNat

/-- Dotted decimal, as characters. -/
def Ipv4Addr.chars (x : Ipv4Addr) : List Char :=
  octet x.a ++ '.' :: (octet x.b ++ '.' :: (octet x.c ++ '.' :: octet x.d))

/-- Dotted decimal. -/
def Ipv4Addr.text (x : Ipv4Addr) : String := String.ofList x.chars

/-- Segments in hexadecimal, separated by colons. -/
def segmentsText (segments : List UInt16) : List Char :=
  [':'].intercalate (segments.map fun s => Nat.toDigits 16 s.toNat)

/-- The longest run of zeros, by its start and its length; the first one, if there are
several. `current` is the run that ends before position `i`. -/
def longestZeros : List UInt16 → ℕ → ℕ × ℕ → ℕ × ℕ → ℕ × ℕ
  | [], _, longest, _ => longest
  | s :: rest, i, longest, current =>
    if s = 0 then
      let current := (if current.2 = 0 then i else current.1, current.2 + 1)
      longestZeros rest (i + 1) (if current.2 > longest.2 then current else longest) current
    else longestZeros rest (i + 1) longest (0, 0)

/-- An IPv6 address: the longest run of two or more zeros is left out, and an embedded IPv4
address is shown as one. -/
def Ipv6Addr.text (x : Ipv6Addr) : String :=
  match x.toIpv4Mapped with
  | some v4 => "::ffff:" ++ v4.text
  | none =>
    let zeros := longestZeros x.segments 0 (0, 0) (0, 0)
    if zeros.2 > 1 then
      String.ofList (segmentsText (x.segments.take zeros.1) ++ [':', ':'] ++
        segmentsText (x.segments.drop (zeros.1 + zeros.2)))
    else String.ofList (segmentsText x.segments)

example : Ipv6Addr.text ⟨0x2001, 0xdb8, 0, 0, 1, 0, 0, 0⟩ = "2001:db8:0:0:1::" := by decide

/-- An address of either kind. -/
def IpAddr.text : IpAddr → String
  | v4 addr => addr.text
  | v6 addr => addr.text

/-! ### How it reads them -/

/-- The digits at the front of a text, and the rest of it. -/
def takeDigits (base : ℕ) : List Char → List ℕ × List Char
  | [] => ([], [])
  | c :: cs =>
    match Text.toDigit base c with
    | some n => (n :: (takeDigits base cs).1, (takeDigits base cs).2)
    | none => ([], c :: cs)

/-- A number of at most `maxDigits` digits and at most `max`. -/
def readNumber (base maxDigits max : ℕ) (allowZeroPrefix : Bool) (cs : List Char) :
    Option (ℕ × List Char) :=
  let (digits, rest) := takeDigits base cs
  if digits.length > maxDigits then none
  else if digits = [] then none
  else if allowZeroPrefix = false ∧ cs.head? = some '0' ∧ digits.length > 1 then none
  else
    let n := digits.foldl (fun n d => n * base + d) 0
    if n ≤ max then some (n, rest) else none

/-- What `inner` reads, after a separator unless it is the first. -/
def readSeparator {α : Type*} (sep : Char) (first : Bool)
    (inner : List Char → Option (α × List Char)) (cs : List Char) : Option (α × List Char) :=
  if first then inner cs
  else
    match cs with
    | c :: rest => if c = sep then inner rest else none
    | [] => none

/-- Four numbers below `256` without leading zeros, separated by dots. -/
def readIpv4Addr (cs : List Char) : Option (Ipv4Addr × List Char) := do
  let (a, cs) ← readSeparator '.' true (readNumber 10 3 255 false) cs
  let (b, cs) ← readSeparator '.' false (readNumber 10 3 255 false) cs
  let (c, cs) ← readSeparator '.' false (readNumber 10 3 255 false) cs
  let (d, cs) ← readSeparator '.' false (readNumber 10 3 255 false) cs
  return (⟨UInt8.ofNat a, UInt8.ofNat b, UInt8.ofNat c, UInt8.ofNat d⟩, cs)

/-- At most `left` groups of an IPv6 address, the last two of which may be written as an IPv4
address; and whether they were. -/
def readGroups (first : Bool) : ℕ → List Char → List ℕ × Bool × List Char
  | 0, cs => ([], false, cs)
  | left + 1, cs =>
    match if left > 0 then readSeparator ':' first readIpv4Addr cs else none with
    | some (v4, rest) =>
      ([v4.a.toNat * 256 + v4.b.toNat, v4.c.toNat * 256 + v4.d.toNat], true, rest)
    | none =>
      match readSeparator ':' first (readNumber 16 4 65535 true) cs with
      | some (group, rest) =>
        let (groups, embedded, rest) := readGroups false left rest
        (group :: groups, embedded, rest)
      | none => ([], false, cs)

/-- Eight groups, or fewer with a `::` in the place of those that are left out. -/
def readIpv6Addr (cs : List Char) : Option (Ipv6Addr × List Char) :=
  let (head, embedded, cs) := readGroups true 8 cs
  if head.length = 8 then some (.ofSegments head, cs)
  else if embedded then none
  else
    match cs with
    | ':' :: ':' :: rest =>
      let (tail, _, rest) := readGroups true (8 - (head.length + 1)) rest
      some (.ofSegments (head ++ List.replicate (8 - tail.length - head.length) 0 ++ tail), rest)
    | _ => none

/-- An IPv4 address, or else an IPv6 address. -/
def readIpAddr (cs : List Char) : Option (IpAddr × List Char) :=
  match readIpv4Addr cs with
  | some (addr, rest) => some (.v4 addr, rest)
  | none => (readIpv6Addr cs).map fun read => (.v6 read.1, read.2)

/-- `str::parse::<IpAddr>`: an address, and nothing after it. -/
def parseIpAddr (s : String) : Option IpAddr :=
  match readIpAddr s.toList with
  | some (addr, []) => some addr
  | _ => none

example : parseIpAddr "::ffff:10.0.0.1" = some (.v6 ⟨0, 0, 0, 0, 0, 0xffff, 0x0a00, 1⟩) := by
  decide

/-! ### Dotted decimals are read back -/

/-- Digits are taken up to the first character that is none. -/
theorem takeDigits_append {base : ℕ} {ds rest : List Char}
    (hds : ∀ c ∈ ds, (Text.toDigit base c).isSome = true)
    (hrest : ∀ c, rest.head? = some c → Text.toDigit base c = none) :
    takeDigits base (ds ++ rest) = (ds.filterMap (Text.toDigit base), rest) := by
  induction ds with
  | nil =>
    cases rest with
    | nil => rfl
    | cons c rest =>
      show takeDigits base (c :: rest) = ([], c :: rest)
      rw [takeDigits, hrest c rfl]
  | cons c ds ih =>
    obtain ⟨n, hn⟩ := Option.isSome_iff_exists.mp (hds c List.mem_cons_self)
    rw [List.cons_append, takeDigits, hn, ih fun c hc => hds c (List.mem_cons_of_mem _ hc)]
    simp [hn]

/-- **An octet is read back.** -/
theorem readNumber_octet (n : UInt8) {rest : List Char}
    (hrest : ∀ c, rest.head? = some c → Text.toDigit 10 c = none) :
    readNumber 10 3 255 false (octet n ++ rest) = some (n.toNat, rest) := by
  obtain ⟨hdigits, hvalue⟩ := Text.digits_of_toDigits n.toNat
  obtain ⟨c, cs, hcs⟩ := List.exists_cons_of_ne_nil (Nat.toDigits_ne_nil (n := n.toNat) (b := 10))
  have hhead : (octet n ++ rest).head? = (octet n).head? := by
    rw [octet, hcs]
    rfl
  have hthree : (octet n).length ≤ 3 :=
    (Nat.length_toDigits_le_iff (by omega) (by omega)).mpr
      (Nat.lt_of_lt_of_le n.toNat_lt (by decide))
  have hlength : ((octet n).filterMap (Text.toDigit 10)).length ≤ 3 :=
    Nat.le_trans (List.length_filterMap_le _ _) hthree
  have hne : (octet n).filterMap (Text.toDigit 10) ≠ [] := by
    obtain ⟨d, hd⟩ := Option.isSome_iff_exists.mp (hdigits c (hcs ▸ List.mem_cons_self))
    rw [octet, hcs, List.filterMap_cons, hd]
    exact List.cons_ne_nil _ _
  have hzero : (octet n).head? = some '0' →
      ((octet n).filterMap (Text.toDigit 10)).length ≤ 1 := by
    intro h
    rcases Nat.eq_zero_or_pos n.toNat with hn | hn
    · rw [octet, hn]
      decide
    · exact absurd h (Text.head?_toDigits_ne hn)
  have hle : n.toNat ≤ 255 := Nat.lt_succ_iff.mp n.toNat_lt
  have htake : takeDigits 10 (octet n ++ rest) =
      ((octet n).filterMap (Text.toDigit 10), rest) := takeDigits_append hdigits hrest
  rw [readNumber, htake, hhead]
  dsimp only
  rw [if_neg (Nat.not_lt.mpr hlength), if_neg hne,
    if_neg fun h => absurd h.2.2 (Nat.not_lt.mpr (hzero h.2.1))]
  rw [octet, hvalue, if_pos hle]

/-- **Dotted decimals are read back.** -/
theorem parseIpAddr_text (x : Ipv4Addr) : parseIpAddr x.text = some (.v4 x) := by
  have hdot : ∀ rest : List Char, ∀ c, ('.' :: rest).head? = some c → Text.toDigit 10 c = none := by
    rintro rest c h
    obtain rfl := Option.some.inj h
    decide
  have hend : ∀ c, ([] : List Char).head? = some c → Text.toDigit 10 c = none := by
    rintro c h
    exact absurd h (by simp)
  have hread : readIpv4Addr (x.chars ++ []) = some (x, []) := by
    unfold readIpv4Addr Ipv4Addr.chars
    simp only [List.append_assoc, List.cons_append, readSeparator, if_true,
      Option.bind_eq_bind, readNumber_octet x.a (hdot _), Option.bind_some]
    simp only [if_false, if_true, readNumber_octet x.b (hdot _), readNumber_octet x.c (hdot _),
      readNumber_octet x.d hend, Option.bind_some, Bool.false_eq_true]
    simp
  unfold parseIpAddr readIpAddr Ipv4Addr.text
  rw [String.toList_ofList, ← List.append_nil x.chars, hread]

/-! ### A bracket is not part of an address -/

/-- A text that does not start with a digit does not start with a number. -/
theorem readNumber_eq_none {base maxDigits max : ℕ} {allowZeroPrefix : Bool} {c : Char}
    {cs : List Char} (h : Text.toDigit base c = none) :
    readNumber base maxDigits max allowZeroPrefix (c :: cs) = none := by
  rw [readNumber, takeDigits, h]
  simp

/-- **Nothing in brackets is an address.** -/
theorem parseIpAddr_bracket (cs : List Char) : parseIpAddr (String.ofList ('[' :: cs)) = none := by
  have hten : Text.toDigit 10 '[' = none := by decide
  have hsixteen : Text.toDigit 16 '[' = none := by decide
  have hv4 : readIpv4Addr ('[' :: cs) = none := by
    rw [readIpv4Addr]
    simp [readSeparator, readNumber_eq_none hten]
  have hgroups : readGroups true 8 ('[' :: cs) = ([], false, '[' :: cs) := by
    rw [readGroups]
    simp [readSeparator, hv4, readNumber_eq_none hsixteen]
  have hv6 : readIpv6Addr ('[' :: cs) = none := by
    rw [readIpv6Addr, hgroups]
    simp
  unfold parseIpAddr readIpAddr
  rw [String.toList_ofList, hv4, hv6]
  rfl

end Net
