/-
Addresses and protocols (`std::net`), as the modules of the desktop client share
them.

* `IpAddr`, `IpAddr.ofNat`: an address of either family;
* `Proto`, `Packet`: an outbound packet, as the rules of a firewall see it;
* `readIpv4Addr`, `readIpv6Addr`, `readSocketAddr`: the readers of `std::net`;
* `parseIpAddr`, `parseSocketAddr`: what they make of a whole text.
-/
import CumulusVpn.Lib.Reader
import CumulusVpn.Split.Cidr

namespace CumulusVpn.Desktop.Net

open TextReader
open Split (Family)

/-! ### Addresses -/

/-- An address of either family, as a number that fits. -/
structure IpAddr where
  family : Family
  value : Nat
  lt : value < 2 ^ family.bits
deriving DecidableEq, Repr

/-- The address with these bits. -/
def IpAddr.ofNat (family : Family) (n : Nat) : IpAddr :=
  ⟨family, n % 2 ^ family.bits, Nat.mod_lt n (Nat.two_pow_pos _)⟩

/-- An address is its family and its number. -/
lemma IpAddr.ext_value {ip ip' : IpAddr} (hfamily : ip.family = ip'.family)
    (hvalue : ip.value = ip'.value) : ip = ip' := by
  cases ip
  cases ip'
  cases hfamily
  cases hvalue
  rfl

/-- The protocols that have ports. -/
inductive Proto
  | udp
  | tcp
deriving DecidableEq, Repr

/-- An outbound packet. -/
structure Packet where
  local_ : IpAddr
  remote : IpAddr
  /-- the protocol and the remote port; none for other protocols -/
  transport : Option (Proto × Nat)

/-- DNS over UDP or TCP, plain or encrypted. -/
def Packet.IsDns (p : Packet) : Prop := ∃ t ∈ p.transport, t.2 = 53 ∨ t.2 = 853

instance (p : Packet) : Decidable p.IsDns :=
  inferInstanceAs (Decidable (∃ t ∈ p.transport, _))

/-! ### Readers -/

/-- The value of a digit in the largest radix, of either case. -/
def digitValue (c : Char) : Option Nat :=
  if '0' ≤ c ∧ c ≤ '9' then some (c.toNat - 48)
  else if 'a' ≤ c ∧ c ≤ 'z' then some (c.toNat - 87)
  else if 'A' ≤ c ∧ c ≤ 'Z' then some (c.toNat - 55)
  else none

/-- `char::to_digit` -/
def toDigit (radix : Nat) (c : Char) : Option Nat := (digitValue c).filter (· < radix)

/-- The number that digits stand for. -/
def number (radix : Nat) (ds : List Char) : Nat :=
  ds.foldl (fun n c => n * radix + (toDigit radix c).getD 0) 0

/-- A number in digits, of which there are some; a bound is put on how many there are,
on a leading zero, and on the value. -/
def readNumber (radix : Nat) (maxDigits : Option Nat) (allowZeroPrefix : Bool) (max : Nat) :
    Reader Char Nat := fun s =>
  let ds := s.takeWhile fun c => (toDigit radix c).isSome
  if ds = [] ∨ maxDigits.any (· < ds.length) ∨
      (allowZeroPrefix = false ∧ ds.head? = some '0' ∧ 1 < ds.length) ∨ max < number radix ds then
    none
  else some (number radix ds, s.dropWhile fun c => (toDigit radix c).isSome)

/-- The separator stands before every part but the first. -/
def readSeparator {β : Type} (sep : Char) (first : Bool) (inner : Reader Char β) : Reader Char β :=
  if first then inner
  else do
    Reader.char sep
    inner

/-- A dotted quad. -/
def readIpv4Addr : Reader Char Nat := do
  let a ← readNumber 10 (some 3) false 255
  let b ← readSeparator '.' false (readNumber 10 (some 3) false 255)
  let c ← readSeparator '.' false (readNumber 10 (some 3) false 255)
  let d ← readSeparator '.' false (readNumber 10 (some 3) false 255)
  return ((a * 256 + b) * 256 + c) * 256 + d

/-- At most `left` groups, and whether the last two are an IPv4 address. -/
def readGroups : (left : Nat) → (first : Bool) → Reader Char (List Nat × Bool)
  | 0, _ => pure ([], false)
  | left + 1, first =>
      (do
        let v4 ← (if 0 < left then readSeparator ':' first readIpv4Addr else failure)
        return ([v4 / 65536, v4 % 65536], true)) <|>
      (do
        let g ← readSeparator ':' first (readNumber 16 (some 4) true 65535)
        let (gs, v4) ← readGroups left false
        return (g :: gs, v4)) <|>
      pure ([], false)

/-- The groups in front of `::` and behind it. -/
def readIpv6Addr : Reader Char (List Nat) := do
  let (head, v4) ← readGroups 8 true
  if head.length = 8 then return head
  else if v4 then failure
  else do
    Reader.char ':'
    Reader.char ':'
    let (tail, _) ← readGroups (8 - (head.length + 1)) true
    return head ++ List.replicate (8 - head.length - tail.length) 0 ++ tail

/-- An address of either family. -/
def readIpAddr : Reader Char IpAddr :=
  (do return .ofNat .v4 (← readIpv4Addr)) <|> do
    return .ofNat .v6 (Split.joinGroups (← readIpv6Addr))

/-- The port behind an address. -/
def readPort : Reader Char Nat := do
  Reader.char ':'
  readNumber 10 none true 65535

/-- The scope of an IPv6 address. -/
def readScopeId : Reader Char Nat := do
  Reader.char '%'
  readNumber 10 none true 4294967295

/-- An IPv4 address with its port. -/
def readSocketAddrV4 : Reader Char (IpAddr × Nat) := do
  let ip ← readIpv4Addr
  let port ← readPort
  return (.ofNat .v4 ip, port)

/-- An IPv6 address in brackets, with its port behind them. -/
def readSocketAddrV6 : Reader Char (IpAddr × Nat) := do
  Reader.char '['
  let ip ← readIpv6Addr
  let _ ← readScopeId <|> pure 0
  Reader.char ']'
  let port ← readPort
  return (.ofNat .v6 (Split.joinGroups ip), port)

/-- An address of either family with its port. -/
def readSocketAddr : Reader Char (IpAddr × Nat) := readSocketAddrV4 <|> readSocketAddrV6

/-- `s.parse::<IpAddr>()` -/
def parseIpAddr (s : List Char) : Option IpAddr := readIpAddr.whole s

/-- `s.parse::<SocketAddr>()` -/
def parseSocketAddr (s : List Char) : Option (IpAddr × Nat) := readSocketAddr.whole s

end CumulusVpn.Desktop.Net
