/-
The routes of the mobile tunnels
(`CumulusMultihopVpnService.kt`, `CumulusObfsVpnService.kt`,
`CumulusVpnService.kt`, `PacketTunnelProvider.swift`).

The Android services and the iOS extension read the same `AllowedIPs` line.
IPv4 networks are their numbers; `Long` arithmetic does not overflow on them.

* `Android`: the routes that the services add to the tun;
* `Ios`: the routes that the extension includes;
* `Route.Holds`: the addresses of a route;
* `held_siblings`, `held_subtractHost`: **a host is taken out of the routes**;
* `held_withDnsRoutes`: **the resolvers are put in**.
-/
import CumulusVpn.Split.AllowedIps

namespace CumulusVpn.Mobile

open CumulusVpn.Split

/-- A network and its prefix length. -/
structure Route where
  net : Nat
  pfx : Nat
deriving DecidableEq, Repr

/-- The route holds the address of a family of so many bits. -/
def Route.Holds (bits : Nat) (r : Route) (a : Nat) : Prop :=
  a / 2 ^ (bits - r.pfx) = r.net / 2 ^ (bits - r.pfx)

instance (bits : Nat) (r : Route) (a : Nat) : Decidable (r.Holds bits a) :=
  inferInstanceAs (Decidable (_ = _))

/-- Some route of the list holds the address. -/
def Held (bits : Nat) (routes : List Route) (a : Nat) : Prop := ∃ r ∈ routes, r.Holds bits a

instance (bits : Nat) (routes : List Route) (a : Nat) : Decidable (Held bits routes a) :=
  inferInstanceAs (Decidable (∃ r ∈ routes, _))

@[simp] lemma held_nil (bits a : Nat) : ¬ Held bits [] a := by
  rintro ⟨r, hr, -⟩
  cases hr

@[simp] lemma held_cons (bits : Nat) (r : Route) (routes : List Route) (a : Nat) :
    Held bits (r :: routes) a ↔ r.Holds bits a ∨ Held bits routes a := by
  simp [Held]

@[simp] lemma held_append (bits : Nat) (routes routes' : List Route) (a : Nat) :
    Held bits (routes ++ routes') a ↔ Held bits routes a ∨ Held bits routes' a := by
  simp [Held, or_and_right, exists_or]

/-- The text before the first slash, all of it where there is none. -/
def substringBefore (s : List Char) : List Char := s.takeWhile (· ≠ '/')

/-- The text behind the first slash, or the default. -/
def substringAfter (s default : List Char) : List Char :=
  match s.dropWhile (· ≠ '/') with
  | [] => default
  | _ :: rest => rest

/-- The number of a text of digits. -/
def readNat (digits : List Char) : Option Nat :=
  if digits = [] ∨ !digits.all isDigit then none else some (decimalValue digits)

/-- A signed decimal number. -/
def readInt : List Char → Option Int
  | '-' :: digits => (readNat digits).map fun n => -Int.ofNat n
  | '+' :: digits => (readNat digits).map Int.ofNat
  | digits => (readNat digits).map Int.ofNat

/-- A number is read from its digits. -/
lemma readInt_of_digits {digits : List Char} (hne : digits ≠ [])
    (hdigits : ∀ c ∈ digits, isDigit c = true) :
    readInt digits = some (Int.ofNat (decimalValue digits)) := by
  have hnat : readNat digits = some (decimalValue digits) := by
    rw [readNat, if_neg (by simp [hne, List.all_eq_true.mpr hdigits])]
  rw [readInt.eq_def]
  split
  · exact absurd (hdigits '-' List.mem_cons_self) (by decide)
  · exact absurd (hdigits '+' List.mem_cons_self) (by decide)
  · rw [hnat]
    rfl

/-- `(0xFFFFFFFF shl hostBits) and 0xFFFFFFFF` -/
def mask (hostBits : Nat) : Nat := (0xffffffff <<< hostBits) &&& 0xffffffff

/-! ### Android -/

namespace Android

/-- `Char.isWhitespace`, which takes the four separators of ASCII too. -/
def isWhitespace (c : Char) : Bool :=
  Trim.isControlSpace c || Trim.isSeparator c || Trim.isLineSeparator c ||
    (0x1c ≤ c.toNat && c.toNat ≤ 0x1f)

/-- A number that fits in an `Int`. -/
def toIntOrNull (s : List Char) : Option Int :=
  (readInt s).filter fun n => -2147483648 ≤ n && n ≤ 2147483647

/-- The text is a dotted quad. -/
def isIpv4 (s : List Char) : Bool :=
  (s.splitOn '.').length = 4 && (s.splitOn '.').all fun o =>
    o ≠ [] && o.length ≤ 3 && o.all isDigit && decimalValue o ≤ 255

/-- The number of a dotted quad. -/
def ipToLong (ip : List Char) : Nat :=
  (ip.splitOn '.').foldl (fun acc o => acc <<< 8 ||| decimalValue o) 0

/-- The entries of a line. -/
def items (csv : List Char) : List (List Char) := (csv.splitOn ',').map (Trim.trim isWhitespace)

/-- Only default routes are listed: no split policy is in effect. -/
def isFullTunnel (allowedIps : List Char) : Bool :=
  ((items allowedIps).filter (· ≠ [])).all fun item =>
    item = "0.0.0.0/0".toList || item = "::/0".toList

/-- One entry of `parseRoutesCsv`: IPv6 entries and malformed ones are passed
over. -/
def parseRoute (item : List Char) : Option Route :=
  if item = [] ∨ ':' ∈ item then none
  else
    match toIntOrNull (substringAfter item ['3', '2']) with
    | none => none
    | some n =>
        if !isIpv4 (substringBefore item) ∨ n < 0 ∨ n > 32 then none
        else some ⟨ipToLong (substringBefore item), n.toNat⟩

/-- The IPv4 routes of a list; what is none is left out. -/
def parseRoutesCsv (csv : List Char) : List Route := (items csv).filterMap parseRoute

/-- One entry of `parseRoutes6Csv`; the network stays text until it is added. -/
def parseRoute6 (item : List Char) : Option (List Char × Nat) :=
  if item = [] ∨ ':' ∉ item then none
  else
    match toIntOrNull (substringAfter item ['1', '2', '8']) with
    | none => none
    | some n => if n < 0 ∨ n > 128 then none else some (substringBefore item, n.toNat)

/-- The IPv6 routes of a list; what is none is left out. -/
def parseRoutes6Csv (csv : List Char) : List (List Char × Nat) :=
  (items csv).filterMap parseRoute6

/-- The mask of a route; `shl` by 32 is taken apart. -/
def routeMask (pfx : Nat) : Nat := if 32 - pfx ≥ 32 then 0 else mask (32 - pfx)

/-- The address is in the route. -/
def covers (r : Route) (ip : Nat) : Bool := ip &&& routeMask r.pfx = r.net &&& routeMask r.pfx

/-- The routes, and a host route for every IPv4 resolver that none of them
covers so far. -/
def withDnsRoutes (routes : List Route) : List (List Char) → List Route
  | [] => routes
  | server :: dnsServers =>
      if !isIpv4 server then withDnsRoutes routes dnsServers
      else if routes.any fun r => covers r (ipToLong server) then withDnsRoutes routes dnsServers
      else withDnsRoutes (routes ++ [⟨ipToLong server, 32⟩]) dnsServers

/-- The sibling of the host at a prefix length: the network of that length that
differs from it in the last bit. -/
def sibling (ip pfx : Nat) : Route := ⟨(ip ^^^ 1 <<< (32 - pfx)) &&& mask (32 - pfx), pfx⟩

/-- The siblings of the host at all lengths above `pfx`. -/
def siblings (ip pfx : Nat) : List Route := (List.range' (pfx + 1) (32 - pfx)).map (sibling ip)

/-- The routes to every address but one. -/
def routesExcluding (excludeIp : List Char) : List Route := siblings (ipToLong excludeIp) 0

/-- The routes without one address. -/
def subtractHost (routes : List Route) (excludeIp : List Char) : List Route :=
  routes.flatMap fun r =>
    if ipToLong excludeIp &&& routeMask r.pfx ≠ r.net &&& routeMask r.pfx then [r]
    else siblings (ipToLong excludeIp) r.pfx

/-- The routes of a line that the app passes to the service: none for the full
tunnel. -/
def extraRoutes (allowedIps : List Char) : Option (List Char) :=
  if allowedIps ≠ [] ∧ !isFullTunnel allowedIps then some allowedIps else none

/-- The IPv4 routes of the tun. -/
def tunRoutes (allowedIps : List Char) (dnsServers : List (List Char)) (entryIp : List Char) :
    List Route :=
  match extraRoutes allowedIps with
  | none => routesExcluding entryIp
  | some routes4 => subtractHost (withDnsRoutes (parseRoutesCsv routes4) dnsServers) entryIp

/-- The routes that are added until one of them is no address. -/
def addRoutes6 : List (List Char × Nat) → List Route
  | [] => []
  | (net, pfx) :: routes =>
      match parseIpv6 net with
      | none => []
      | some v => ⟨v, pfx⟩ :: addRoutes6 routes

/-- The IPv6 routes of the tun. -/
def tunRoutes6 (allowedIps : List Char) : List Route :=
  match extraRoutes allowedIps with
  | none => [⟨0, 0⟩]
  | some routes6 => addRoutes6 (parseRoutes6Csv routes6)

end Android

/-! ### iOS -/

namespace Ios

/-- `CharacterSet.whitespaces`, which takes no line breaks. -/
def isWhitespace (c : Char) : Bool := Trim.isSeparator c || c.toNat = 0x9

/-- `split(separator:)`: empty parts are left out. -/
def split (s : List Char) (separator : Char) : List (List Char) :=
  (s.splitOn separator).filter (· ≠ [])

/-- The entries of the line. -/
def allowedIps (line : List Char) : List (List Char) :=
  (split line ',').map (Trim.trim isWhitespace)

/-- `inet_pton(AF_INET, …)`: a dotted quad. -/
def ipv4Value (s : List Char) : Option Nat := parseIpv4 s

/-- `inet_pton(AF_INET6, …)`: an address whose dotted quad, if any, comes
last. -/
def ipv6Value (s : List Char) : Option Nat :=
  if '.' ∈ (s.reverse.dropWhile (· ≠ ':')).reverse then none else parseIpv6 s

/-- A number of `inet_addr`: hexadecimal, octal or decimal. -/
def inetNumber : List Char → Option Nat
  | '0' :: x :: digits =>
      if x = 'x' ∨ x = 'X' then
        if digits ≠ [] ∧ digits.all isHex then some (hexValue digits) else none
      else if (x :: digits).all fun c => '0' ≤ c && c ≤ '7' then
        some ((x :: digits).foldl (fun acc c => 8 * acc + (c.toNat - 48)) 0)
      else none
  | digits => if digits ≠ [] ∧ digits.all isDigit then some (decimalValue digits) else none

/-- `inet_addr`: one to four numbers, the last of which fills the rest. -/
def inetAddr (s : List Char) : Option Nat :=
  match (s.splitOn '.').mapM inetNumber with
  | some [a] => if a < 2 ^ 32 then some a else none
  | some [a, b] => if a < 2 ^ 8 ∧ b < 2 ^ 24 then some (a * 2 ^ 24 + b) else none
  | some [a, b, c] =>
      if a < 2 ^ 8 ∧ b < 2 ^ 8 ∧ c < 2 ^ 16 then some (a * 2 ^ 24 + b * 2 ^ 16 + c) else none
  | some [a, b, c, d] =>
      if a < 2 ^ 8 ∧ b < 2 ^ 8 ∧ c < 2 ^ 8 ∧ d < 2 ^ 8 then
        some (a * 2 ^ 24 + b * 2 ^ 16 + c * 2 ^ 8 + d)
      else none
  | _ => none

/-- `parts.count > 1 ? Int(parts[1]) ?? -1 : full` -/
def prefixPart (parts : List (List Char)) (full : Int) : Int :=
  match parts with
  | _ :: text :: _ => (readInt text).getD (-1)
  | _ => full

/-- The address is in the prefix; a text that is none covers nothing. -/
def covers (cidr : List Char) (ip : Nat) : Bool :=
  match (split cidr '/').head?.bind ipv4Value with
  | none => false
  | some net =>
      let n := prefixPart (split cidr '/') 32
      if n < 0 ∨ n > 32 then false
      else
        let mask := if n = 0 then 0 else Mobile.mask (32 - n.toNat)
        net &&& mask = ip &&& mask

/-- The address of `255.255.255.255` is told from the failure of
`inet_addr`. -/
def ipv4Route (cidr : List Char) : Option Route :=
  match (split cidr '/').head? with
  | none => none
  | some addr =>
      let n := prefixPart (split cidr '/') 32
      if n < 0 ∨ n > 32 then none
      else if addr = "255.255.255.255".toList then some ⟨0xffffffff, n.toNat⟩
      else
        match inetAddr addr with
        | none => none
        | some v => if v = 0xffffffff then none else some ⟨v, n.toNat⟩

/-- The IPv6 route of a prefix, if it is one. -/
def ipv6Route (cidr : List Char) : Option Route :=
  match (split cidr '/').head? with
  | none => none
  | some addr =>
      let n := prefixPart (split cidr '/') 128
      if n < 0 ∨ n > 128 then none else (ipv6Value addr).map fun v => ⟨v, n.toNat⟩

/-- The IPv4 entries of the line. -/
def v4Entries (allowedIps : List (List Char)) : List (List Char) :=
  allowedIps.filter (':' ∉ ·)

local instance lawful_entry : LawfulBEq (List Char) := inferInstance

/-- The IPv4 part of the `AllowedIPs` is empty or the whole internet. -/
def isFullTunnel (allowedIps : List (List Char)) : Bool :=
  v4Entries allowedIps = [] || "0.0.0.0/0".toList ∈ v4Entries allowedIps

/-- The IPv4 routes into the tunnel, with one to each resolver that they miss. -/
def includedV4Routes (allowedIps dnsServers : List (List Char)) : List Route :=
  if isFullTunnel allowedIps then [⟨0, 0⟩]
  else
    let routes := (v4Entries allowedIps).filterMap ipv4Route
    if routes = [] then [⟨0, 0⟩]
    else
      routes ++ (dnsServers.filter fun server =>
        match ipv4Value server with
        | none => false
        | some ip => !(v4Entries allowedIps).any fun cidr => covers cidr ip).filterMap ipv4Route

/-- The IPv6 routes; none where IPv6 goes past the tunnel. -/
def ipv6Settings (allowedIps : List (List Char)) : Option (List Route) :=
  if isFullTunnel allowedIps then some [⟨0, 0⟩]
  else
    let routes := (allowedIps.filter (':' ∈ ·)).filterMap ipv6Route
    if routes = [] then none else some routes

end Ios

/-! ### Masks -/

lemma and_mask {a hostBits : Nat} (ha : a < 2 ^ 32) (hbits : hostBits ≤ 32) :
    a &&& mask hostBits = a / 2 ^ hostBits * 2 ^ hostBits := by
  rw [← Nat.shiftRight_eq_div_pow, ← Nat.shiftLeft_eq, mask,
    show (0xffffffff : Nat) = 2 ^ 32 - 1 from rfl]
  apply Nat.eq_of_testBit_eq
  intro i
  rw [Nat.testBit_and, Nat.testBit_and, Nat.testBit_shiftLeft, Nat.testBit_shiftLeft,
    Nat.testBit_shiftRight, Nat.testBit_two_pow_sub_one, Nat.testBit_two_pow_sub_one]
  by_cases hi : hostBits ≤ i
  · by_cases hlt : i < 32
    · have hsub : i - hostBits < 32 := by omega
      simp [hi, hlt, hsub]
    · have hhigh : a.testBit i = false :=
        Nat.testBit_lt_two_pow (ha.trans_le (Nat.pow_le_pow_right (by decide) (by omega)))
      simp [hi, hlt, hhigh]
  · simp [hi]

/-- Equal masks, equal networks. -/
lemma and_mask_eq_iff {a b hostBits : Nat} (ha : a < 2 ^ 32) (hb : b < 2 ^ 32)
    (hbits : hostBits ≤ 32) :
    a &&& mask hostBits = b &&& mask hostBits ↔ a / 2 ^ hostBits = b / 2 ^ hostBits := by
  rw [and_mask ha hbits, and_mask hb hbits]
  exact Nat.mul_left_inj (Nat.two_pow_pos _).ne'

/-- An IPv4 route. -/
structure Route.Wellformed (r : Route) : Prop where
  net : r.net < 2 ^ 32
  pfx : r.pfx ≤ 32

lemma and_routeMask_iff {r : Route} (h : r.Wellformed) {ip : Nat} (hip : ip < 2 ^ 32) :
    ip &&& Android.routeMask r.pfx = r.net &&& Android.routeMask r.pfx ↔ r.Holds 32 ip := by
  rw [Android.routeMask, Route.Holds]
  by_cases hall : 32 - r.pfx ≥ 32
  · have hbits : 32 - r.pfx = 32 := by omega
    rw [if_pos hall, Nat.and_zero, Nat.and_zero, hbits, Nat.div_eq_of_lt hip,
      Nat.div_eq_of_lt h.net]
  · rw [if_neg hall]
    exact and_mask_eq_iff hip h.net (by omega)

lemma covers_iff {r : Route} (h : r.Wellformed) {ip : Nat} (hip : ip < 2 ^ 32) :
    Android.covers r ip = true ↔ r.Holds 32 ip := by
  rw [Android.covers, decide_eq_true_eq, and_routeMask_iff h hip]

/-! ### Taking a host out -/

/-- The number that differs in the last bit. -/
lemma eq_xor_one_iff {x y : Nat} : y = x ^^^ 1 ↔ y ≠ x ∧ y / 2 = x / 2 := by
  have hdiv : (x ^^^ 1) / 2 = x / 2 := by
    rw [Nat.xor_div_two]
    simp
  have hmod := @Nat.xor_mod_two_eq_one x 1
  omega

/-- The sibling holds what differs from the host in its last bit. -/
lemma sibling_holds {ip pfx a : Nat} (hip : ip < 2 ^ 32) (hpfx : 0 < pfx) (hle : pfx ≤ 32) :
    (Android.sibling ip pfx).Holds 32 a ↔ a / 2 ^ (32 - pfx) ≠ ip / 2 ^ (32 - pfx) ∧
      a / 2 ^ (32 - (pfx - 1)) = ip / 2 ^ (32 - (pfx - 1)) := by
  have hbits : 32 - (pfx - 1) = 32 - pfx + 1 := by omega
  have hxor : ip ^^^ 1 <<< (32 - pfx) < 2 ^ 32 := by
    refine Nat.xor_lt_two_pow hip ?_
    rw [Nat.one_shiftLeft]
    exact Nat.pow_lt_pow_right (by decide) (by omega)
  have hdiv : (ip ^^^ 1 <<< (32 - pfx)) / 2 ^ (32 - pfx) = ip / 2 ^ (32 - pfx) ^^^ 1 := by
    rw [← Nat.shiftRight_eq_div_pow, ← Nat.shiftRight_eq_div_pow, Nat.shiftRight_xor_distrib,
      Nat.one_shiftLeft, Nat.shiftRight_eq_div_pow (2 ^ (32 - pfx)),
      Nat.div_self (Nat.two_pow_pos _)]
  rw [Route.Holds, Android.sibling, and_mask hxor (by omega),
    Nat.mul_div_cancel _ (Nat.two_pow_pos _),
    hdiv, eq_xor_one_iff, hbits, pow_succ, ← Nat.div_div_eq_div_mul, ← Nat.div_div_eq_div_mul]

lemma siblings_succ {ip pfx : Nat} (h : pfx < 32) :
    Android.siblings ip pfx = Android.sibling ip (pfx + 1) :: Android.siblings ip (pfx + 1) := by
  obtain ⟨n, hn⟩ : ∃ n, 32 - pfx = n + 1 := ⟨31 - pfx, by omega⟩
  have hrest : 32 - (pfx + 1) = n := by omega
  rw [Android.siblings, Android.siblings, hn, hrest, List.range'_succ, List.map_cons]

/-- The siblings above a length hold the network of that length but for the
host. -/
lemma held_siblings {ip pfx a : Nat} (hip : ip < 2 ^ 32) (hle : pfx ≤ 32) :
    Held 32 (Android.siblings ip pfx) a ↔ a / 2 ^ (32 - pfx) = ip / 2 ^ (32 - pfx) ∧ a ≠ ip := by
  obtain ⟨n, hn⟩ : ∃ n, pfx = 32 - n ∧ n ≤ 32 := ⟨32 - pfx, by omega, by omega⟩
  obtain ⟨rfl, hn⟩ := hn
  induction n with
  | zero =>
      have hnil : Android.siblings ip (32 - 0) = [] := rfl
      rw [hnil]
      simp
  | succ n ih =>
      have hlt : 32 - (n + 1) < 32 := by omega
      have hnext : 32 - (n + 1) + 1 = 32 - n := by omega
      have hbits : 32 - (32 - n) = n := by omega
      have hbits' : 32 - (32 - (n + 1)) = n + 1 := by omega
      have hpred : 32 - n - 1 = 32 - (n + 1) := by omega
      have hsib := @sibling_holds ip (32 - n) a hip (by omega) (by omega)
      have hrest := ih (by omega) (by omega)
      rw [hbits, hpred, hbits'] at hsib
      rw [hbits] at hrest
      rw [siblings_succ hlt, hnext, hbits', held_cons, hsib, hrest]
      have hhalf : a / 2 ^ n = ip / 2 ^ n → a / 2 ^ (n + 1) = ip / 2 ^ (n + 1) := by
        intro h
        rw [pow_succ, ← Nat.div_div_eq_div_mul, ← Nat.div_div_eq_div_mul, h]
      have hne : a / 2 ^ n ≠ ip / 2 ^ n → a ≠ ip := by
        rintro h rfl
        exact h rfl
      tauto

section SubtractHost

variable {routes : List Route} {host : List Char}
  (hwf : ∀ r ∈ routes, r.Wellformed) (hhost : Android.ipToLong host < 2 ^ 32)

include hwf hhost

/-- **Taking a host out of the routes takes out its address.** -/
theorem held_subtractHost {a : Nat} : Held 32 (Android.subtractHost routes host) a ↔
    Held 32 routes a ∧ a ≠ Android.ipToLong host := by
  induction routes with
  | nil => simp [Android.subtractHost]
  | cons r routes ih =>
      have hr := hwf r List.mem_cons_self
      have hrest := ih fun x hx => hwf x (List.mem_cons_of_mem _ hx)
      have hone : Held 32 (if Android.ipToLong host &&& Android.routeMask r.pfx ≠
          r.net &&& Android.routeMask r.pfx then [r]
        else Android.siblings (Android.ipToLong host) r.pfx)
          a ↔ r.Holds 32 a ∧ a ≠ Android.ipToLong host := by
        by_cases hin : r.Holds 32 (Android.ipToLong host)
        · rw [if_neg (not_not_intro ((and_routeMask_iff hr hhost).mpr hin)),
            held_siblings hhost hr.pfx, Route.Holds, ← hin]
        · rw [if_pos fun heq => hin ((and_routeMask_iff hr hhost).mp heq)]
          rw [held_cons, or_iff_left (held_nil 32 a)]
          refine (and_iff_left_of_imp ?_).symm
          rintro ha rfl
          exact hin ha
      rw [Android.subtractHost, List.flatMap_cons, ← Android.subtractHost, held_append, hone, hrest,
        held_cons, or_and_right]

end SubtractHost

/-- The default route without the host. -/
lemma held_routesExcluding {host : List Char} (hhost : Android.ipToLong host < 2 ^ 32) {a : Nat}
    (ha : a < 2 ^ 32) :
    Held 32 (Android.routesExcluding host) a ↔ a ≠ Android.ipToLong host := by
  rw [Android.routesExcluding, held_siblings hhost (Nat.zero_le _)]
  exact and_iff_right (by rw [Nat.div_eq_of_lt ha, Nat.div_eq_of_lt hhost])

/-! ### Putting the resolvers in -/

/-- **The routes and the IPv4 resolvers.** -/
theorem held_withDnsRoutes {routes : List Route} {servers : List (List Char)}
    (hwf : ∀ r ∈ routes, r.Wellformed)
    (hservers : ∀ s ∈ servers, Android.isIpv4 s = true → Android.ipToLong s < 2 ^ 32) :
    (∀ r ∈ Android.withDnsRoutes routes servers, r.Wellformed) ∧
      ∀ a < 2 ^ 32, (Held 32 (Android.withDnsRoutes routes servers) a ↔
        Held 32 routes a ∨ ∃ s ∈ servers, Android.isIpv4 s = true ∧ Android.ipToLong s = a) := by
  induction servers generalizing routes with
  | nil => exact ⟨hwf, fun a _ => by simp [Android.withDnsRoutes]⟩
  | cons s servers ih =>
      have hrest : ∀ t ∈ servers, Android.isIpv4 t = true → Android.ipToLong t < 2 ^ 32 :=
        fun t ht => hservers t (List.mem_cons_of_mem _ ht)
      rw [Android.withDnsRoutes]
      by_cases hv4 : Android.isIpv4 s = true
      · have hip := hservers s List.mem_cons_self hv4
        have hcovered : (routes.any fun r => Android.covers r (Android.ipToLong s)) = true ↔
            Held 32 routes (Android.ipToLong s) := by
          rw [List.any_eq_true, Held]
          exact exists_congr fun r => and_congr_right fun hr => covers_iff (hwf r hr) hip
        rw [if_neg (by simp [hv4])]
        by_cases hin : Held 32 routes (Android.ipToLong s)
        · rw [if_pos (hcovered.mpr hin)]
          obtain ⟨hwf', hheld⟩ := ih hwf hrest
          refine ⟨hwf', fun a ha => ?_⟩
          rw [hheld a ha, List.exists_mem_cons_iff]
          constructor
          · exact Or.imp_right Or.inr
          · rintro (h | ⟨-, rfl⟩ | h)
            · exact Or.inl h
            · exact Or.inl hin
            · exact Or.inr h
        · rw [if_neg fun h => hin (hcovered.mp h)]
          have hwfs : ∀ r ∈ routes ++ [⟨Android.ipToLong s, 32⟩], r.Wellformed := by
            intro r hr
            rcases List.mem_append.mp hr with hr | hr
            · exact hwf r hr
            · rw [List.mem_singleton.mp hr]
              exact ⟨hip, le_rfl⟩
          obtain ⟨hwf', hheld⟩ := ih hwfs hrest
          refine ⟨hwf', fun a ha => ?_⟩
          have hhost : ∀ a, (⟨Android.ipToLong s, 32⟩ : Route).Holds 32 a ↔
              Android.ipToLong s = a := by
            intro a
            rw [Route.Holds]
            simpa using eq_comm
          rw [hheld a ha]
          rw [held_append, held_cons, or_iff_left (held_nil 32 a), hhost, List.exists_mem_cons_iff,
            and_iff_right hv4, or_assoc]
      · rw [if_pos (by simpa using hv4)]
        obtain ⟨hwf', hheld⟩ := ih hwf hrest
        refine ⟨hwf', fun a ha => ?_⟩
        rw [hheld a ha, List.exists_mem_cons_iff]
        simp [hv4]

end CumulusVpn.Mobile
