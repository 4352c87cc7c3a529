/-
What the privileged side accepts (`clients/desktop/src-tauri/tunnel/src/validate.rs`).

Accepted fields are put into firewall rules, scripts and command lines, so it
matters which characters they can have.

* `endpoint`, `assignedIp`, `cidr`, `dnsServers`, `tlsParams`: the checks of the
  fields; `connectRequest`, `multihopRequest`: those of the requests;
* `over_readSocketAddr`, `over_readIpAddr`: what the readers take;
* `PlainConnect`, `PlainMultihop`: a request with addresses and names in its
  fields, and no more of them than the bounds allow;
* `accepted_plain`: **the tunnel manager acts on plain requests only**.
-/
import CumulusVpn.Desktop.Manager
import CumulusVpn.Desktop.Net
import CumulusVpn.Lib.Transaction
import CumulusVpn.Lib.Trim

namespace CumulusVpn.Desktop.Validate

open Net TextReader

/-! ### The checks -/

/-- The longest config that is taken, in bytes. -/
def maxConfigLen : Nat := 16 * 1024

/-- The longest list of routes. -/
def maxRoutes : Nat := 4096

/-- The longest country, in bytes. -/
def maxLabelLen : Nat := 64

/-- The longest list of resolvers. -/
def maxDnsServers : Nat := 8

/-- `char::is_control` -/
def isControl (c : Char) : Bool := c.toNat < 0x20 || (0x7f ≤ c.toNat && c.toNat ≤ 0x9f)

/-- `char::is_ascii_digit` -/
def isAsciiDigit (c : Char) : Bool := '0' ≤ c ∧ c ≤ '9'

/-- `char::is_ascii_alphanumeric` -/
def isAsciiAlphanumeric (c : Char) : Bool :=
  isAsciiDigit c || ('a' ≤ c && c ≤ 'z') || ('A' ≤ c && c ≤ 'Z')

/-- What a failed check answers with. -/
def bad {β : Type} (text : String) : Except TunnelError β := .error (.badConfig text)

/-- A country is short and has no control character. -/
def label (s : String) : Except TunnelError Unit :=
  if maxLabelLen < s.utf8ByteSize ∨ s.toList.any isControl then bad "invalid country" else .ok ()

/-- A config is not too long. -/
def configText (s : String) : Except TunnelError Unit :=
  if maxConfigLen < s.utf8ByteSize then bad "config too large" else .ok ()

/-- An endpoint is an address literal with a port. -/
def endpoint (s : String) : Except TunnelError (IpAddr × Nat) :=
  match parseSocketAddr s.toList with
  | some addr => .ok addr
  | none => bad "endpoint must be an ip:port literal"

/-- A prefix length is of digits alone, and the family of the address has it. -/
def prefixLen (ip : IpAddr) (len : List Char) : Except TunnelError Unit :=
  if len = [] ∨ !len.all isAsciiDigit then bad "invalid prefix length"
  else if number 10 len ≤ 255 ∧ number 10 len ≤ ip.family.bits then .ok ()
  else bad "invalid prefix length"

/-- `ip.parse()`, with what is answered where it fails. -/
def parsed (refused : String) (ip : List Char) : Except TunnelError IpAddr :=
  match parseIpAddr ip with
  | some ip => .ok ip
  | none => bad refused

/-- An address, with a prefix length or without. -/
def address (refused : String) (s : String) : Except TunnelError Unit :=
  match Trim.splitOnce ['/'] s.toList with
  | some (ip, len) => parsed refused ip >>= fun ip => prefixLen ip len
  | none => parsed refused s.toList >>= fun _ => .ok ()

/-- The address of the tunnel, with a prefix length or without. -/
def assignedIp : String → Except TunnelError Unit := address "assigned ip is not an address"

/-- A route, with a prefix length or without. -/
def cidr : String → Except TunnelError Unit := address "route is not an address prefix"

/-- The resolvers of a `DNS =` line. -/
def dnsEntries (s : List Char) : List (List Char) :=
  ((s.splitOn ',').map (Trim.trim Trim.isWhitespace)).filter (· ≠ [])

/-- The resolvers are address literals, and not too many. -/
def dnsServers (s : String) : Except TunnelError Unit :=
  if (dnsEntries s.toList).any fun entry => (parseIpAddr entry).isNone then
    bad "DNS must list IP addresses"
  else if maxDnsServers < (dnsEntries s.toList).length then bad "too many DNS servers"
  else .ok ()

/-- The characters of a TLS server name. -/
def isNameChar (c : Char) : Bool := isAsciiAlphanumeric c || c ∈ ['.', '-', '_', ':']

/-- The bridge connects to an address literal, under a name of plain characters. -/
def tlsParams (tls : TlsParams) : Except TunnelError Unit :=
  endpoint tls.serverAddr >>= fun _ =>
    if tls.sni ≠ "" ∧ tls.sni.utf8ByteSize ≤ 253 ∧ tls.sni.toList.all isNameChar then .ok ()
    else bad "invalid TLS server name"

/-- Every entry of a list is checked. -/
def each {β : Type} (check : β → Except TunnelError Unit) : List β → Except TunnelError Unit
  | [] => .ok ()
  | x :: xs => check x >>= fun _ => each check xs

/-- The routes are prefixes, and not too many. -/
def routes (list : List String) : Except TunnelError Unit :=
  if maxRoutes < list.length then bad "too many split-tunneling routes" else each cidr list

/-- Both lists of routes are in order. -/
def splitParams (split : SplitParams) : Except TunnelError Unit :=
  each routes [split.bypassRoutes, split.tunnelRoutes]

/-- A request for one hop; the first field that is not in order refuses it. -/
def connectRequest (r : ConnectRequest) : Except TunnelError Unit := do
  label r.country
  configText r.wgConfig
  let _ ← endpoint r.endpoint
  assignedIp r.assignedIp
  each tlsParams r.tls.toList
  each splitParams r.split.toList

/-- The MTU of the inner tunnel is in range. -/
def innerMtu (mtu : Nat) : Except TunnelError Unit :=
  if 576 ≤ mtu ∧ mtu ≤ 9200 then .ok () else bad "inner MTU out of range"

/-- A request for two hops; the first field that is not in order refuses it. -/
def multihopRequest (r : MultihopRequest) : Except TunnelError Unit := do
  label r.entryCountry
  label r.exitCountry
  configText r.outer
  configText r.inner
  let _ ← endpoint r.entryEndpoint
  let _ ← endpoint r.exitEndpoint
  innerMtu r.innerMtu
  assignedIp r.assignedIp
  each splitParams r.split.toList

/-- The checks of the tunnel manager, with those of this module. -/
def validated (c : Checks) : Checks :=
  { c with validateConnect := connectRequest, validateMultihop := multihopRequest }

/-! ### What the readers take -/

/-- A character of an address: of its numbers, between them, or around them. -/
def IsAddressChar (c : Char) : Prop :=
  (toDigit 16 c).isSome ∨ c ∈ ['.', ':', '[', ']', '%', '/']

instance : DecidablePred IsAddressChar := fun _ => inferInstanceAs (Decidable (_ ∨ _))

/-- A character of an address literal: of its numbers, or between them. -/
def IsIpChar (c : Char) : Prop := (toDigit 16 c).isSome ∨ c ∈ ['.', ':']

instance : DecidablePred IsIpChar := fun _ => inferInstanceAs (Decidable (_ ∨ _))

lemma IsIpChar.isAddressChar {c : Char} (h : IsIpChar c) : IsAddressChar c :=
  h.imp_right fun hmem => List.mem_append_left ['[', ']', '%', '/'] hmem

section Readers

lemma isIpChar_of_toDigit {radix : Nat} {c : Char} (hradix : radix ≤ 16)
    (h : (toDigit radix c).isSome) : IsIpChar c := by
  refine .inl ?_
  rw [toDigit] at h ⊢
  cases hvalue : digitValue c with
  | none => simp [hvalue] at h
  | some d =>
      have hd : d < radix := by simpa [hvalue, Option.filter] using h
      simp [Option.filter, hd.trans_le hradix]

lemma over_readNumber {radix max : Nat} {maxDigits : Option Nat} {allowZeroPrefix : Bool}
    (hradix : radix ≤ 16) :
    Over IsIpChar (readNumber radix maxDigits allowZeroPrefix max) := by
  intro s v rest h
  rw [readNumber] at h
  split at h
  · cases h
  · obtain ⟨-, rfl⟩ := Prod.mk.inj (Option.some_inj.mp h)
    refine ⟨_, List.takeWhile_append_dropWhile.symm, fun c hc => ?_⟩
    have hdigit := List.mem_takeWhile_imp hc
    exact isIpChar_of_toDigit hradix hdigit

lemma over_readSeparator {β : Type} {sep : Char} {inner : Reader Char β}
    (hsep : IsIpChar sep) (first : Bool) (h : Over IsIpChar inner) :
    Over IsIpChar (readSeparator sep first inner) := by
  rw [readSeparator]
  split
  · exact h
  · exact over_bind (over_char hsep) fun _ => h

lemma over_readIpv4Addr : Over IsIpChar readIpv4Addr := by
  have hnumber : Over IsIpChar (readNumber 10 (some 3) false 255) :=
    over_readNumber (by decide)
  have hnext : Over IsIpChar (readSeparator '.' false (readNumber 10 (some 3) false 255)) :=
    over_readSeparator (by decide) false hnumber
  exact over_bind hnumber fun _ => over_bind hnext fun _ => over_bind hnext fun _ =>
    over_bind hnext fun _ => over_pure _

lemma over_readGroups (left : Nat) (first : Bool) :
    Over IsIpChar (readGroups left first) := by
  induction left generalizing first with
  | zero => exact over_pure _
  | succ left ih =>
      rw [readGroups]
      refine over_orElse (over_bind ?_ fun _ => over_pure _) (over_orElse ?_ (over_pure _))
      · split
        · exact over_readSeparator (by decide) first over_readIpv4Addr
        · exact over_failure
      · exact over_bind (over_readSeparator (by decide) first (over_readNumber le_rfl)) fun _ =>
          over_bind (ih false) fun _ => over_pure _

lemma over_readIpv6Addr : Over IsIpChar readIpv6Addr := by
  refine over_bind (over_readGroups 8 true) fun p => ?_
  obtain ⟨head, v4⟩ := p
  have hcolon : Over IsIpChar (Reader.char ':') := over_char (by decide)
  dsimp only
  split
  · exact over_pure _
  · split
    · exact over_failure
    · exact over_bind hcolon fun _ => over_bind hcolon fun _ =>
        over_bind (over_readGroups _ true) fun _ => over_pure _

/-- **An address is read from the characters of literals alone.** -/
lemma over_readIpAddr : Over IsIpChar readIpAddr :=
  over_orElse (over_bind over_readIpv4Addr fun _ => over_pure _)
    (over_bind over_readIpv6Addr fun _ => over_pure _)

/-- **An address with its port is read from address characters alone.** -/
lemma over_readSocketAddr : Over IsAddressChar readSocketAddr := by
  have himp : ∀ c, IsIpChar c → IsAddressChar c := fun _ => IsIpChar.isAddressChar
  have hport : Over IsAddressChar readPort :=
    over_bind (over_char (by decide)) fun _ => (over_readNumber (by decide)).imp himp
  have hscope : Over IsAddressChar readScopeId :=
    over_bind (over_char (by decide)) fun _ => (over_readNumber (by decide)).imp himp
  refine over_orElse ?_ ?_
  · exact over_bind (over_readIpv4Addr.imp himp) fun _ => over_bind hport fun _ => over_pure _
  · exact over_bind (over_char (by decide)) fun _ => over_bind (over_readIpv6Addr.imp himp) fun _ =>
      over_bind (over_orElse hscope (over_pure 0)) fun _ =>
        over_bind (over_char (by decide)) fun _ => over_bind hport fun _ => over_pure _

end Readers

/-! ### What is accepted -/

/-- Nothing but characters of addresses. -/
def Plain (s : String) : Prop := ∀ c ∈ s.toList, IsAddressChar c

/-- A short label without control characters. -/
def PlainLabel (s : String) : Prop :=
  s.utf8ByteSize ≤ maxLabelLen ∧ ∀ c ∈ s.toList, isControl c = false

/-- A TLS bridge without a byte that could end a line. -/
structure PlainTls (tls : TlsParams) : Prop where
  serverAddr : Plain tls.serverAddr
  length_le : tls.sni.utf8ByteSize ≤ 253
  sni : ∀ c ∈ tls.sni.toList, isNameChar c = true

/-- A bounded number of routes, each of them plain. -/
def PlainRoutes (list : List String) : Prop :=
  list.length ≤ maxRoutes ∧ ∀ route ∈ list, Plain route

/-- Routes without a byte that could end a line. -/
structure PlainSplit (split : SplitParams) : Prop where
  bypass : PlainRoutes split.bypassRoutes
  tunnel : PlainRoutes split.tunnelRoutes

/-- A request for one hop whose fields are plain and within their bounds. -/
structure PlainConnect (r : ConnectRequest) : Prop where
  country : PlainLabel r.country
  length_le : r.wgConfig.utf8ByteSize ≤ maxConfigLen
  endpoint : Plain r.endpoint
  assignedIp : Plain r.assignedIp
  tls : ∀ tls ∈ r.tls, PlainTls tls
  split : ∀ split ∈ r.split, PlainSplit split

/-- A request for two hops whose fields are plain and within their bounds. -/
structure PlainMultihop (r : MultihopRequest) : Prop where
  entryCountry : PlainLabel r.entryCountry
  exitCountry : PlainLabel r.exitCountry
  outer_le : r.outer.utf8ByteSize ≤ maxConfigLen
  inner_le : r.inner.utf8ByteSize ≤ maxConfigLen
  entryEndpoint : Plain r.entryEndpoint
  exitEndpoint : Plain r.exitEndpoint
  innerMtu : 576 ≤ r.innerMtu ∧ r.innerMtu ≤ 9200
  assignedIp : Plain r.assignedIp
  split : ∀ split ∈ r.split, PlainSplit split

section Accepted

variable {s refused : String}

lemma of_label (h : label s = .ok ()) : PlainLabel s := by
  rw [label] at h
  split at h
  · cases h
  · rename_i hno
    obtain ⟨hlength, hchars⟩ := not_or.mp hno
    exact ⟨not_lt.mp hlength, by simpa using hchars⟩

lemma of_configText (h : configText s = .ok ()) : s.utf8ByteSize ≤ maxConfigLen := by
  rw [configText] at h
  split at h
  · cases h
  · rename_i hno
    exact not_lt.mp hno

lemma plain_of_endpoint {addr : IpAddr × Nat} (h : endpoint s = .ok addr) : Plain s := by
  rw [endpoint] at h
  split at h
  · rename_i hparse
    exact over_readSocketAddr.whole hparse
  · cases h

lemma addressChars_of_parsed {ip : List Char} {addr : IpAddr} (h : parsed refused ip = .ok addr) :
    ∀ c ∈ ip, IsAddressChar c := by
  rw [parsed] at h
  split at h
  · rename_i hparse
    exact fun c hc => (over_readIpAddr.whole hparse c hc).isAddressChar
  · cases h

lemma addressChars_of_prefixLen {ip : IpAddr} {len : List Char} (h : prefixLen ip len = .ok ()) :
    ∀ c ∈ len, IsAddressChar c := by
  rw [prefixLen] at h
  split at h
  · cases h
  · rename_i hno
    have hdigits : ∀ c ∈ len, isAsciiDigit c = true := by simpa using (not_or.mp hno).2
    intro c hc
    have hdigit : '0' ≤ c ∧ c ≤ '9' := of_decide_eq_true (hdigits c hc)
    have hten : 10 ≤ 16 := by decide
    refine (isIpChar_of_toDigit hten ?_).isAddressChar
    have hle : c.toNat ≤ 57 := hdigit.2
    rw [toDigit, digitValue, if_pos hdigit]
    simp [Option.filter]
    omega

lemma plain_of_address (h : address refused s = .ok ()) : Plain s := by
  rw [address] at h
  split at h
  · rename_i ip len hsplit
    obtain ⟨addr, hip, hlen⟩ := Transaction.bind_eq_ok h
    intro c hc
    rw [Trim.eq_of_splitOnce hsplit, List.mem_append, List.singleton_append, List.mem_cons] at hc
    rcases hc with hc | rfl | hc
    · exact addressChars_of_parsed hip c hc
    · decide
    · exact addressChars_of_prefixLen hlen c hc
  · obtain ⟨addr, hip, -⟩ := Transaction.bind_eq_ok h
    exact addressChars_of_parsed hip

lemma of_tlsParams {tls : TlsParams} (h : tlsParams tls = .ok ()) : PlainTls tls := by
  obtain ⟨addr, haddr, hsni⟩ := Transaction.bind_eq_ok h
  split at hsni
  · rename_i hname
    exact ⟨plain_of_endpoint haddr, hname.2.1, List.all_eq_true.mp hname.2.2⟩
  · cases hsni

lemma each_eq_ok_iff {β : Type} {check : β → Except TunnelError Unit} {xs : List β} :
    each check xs = .ok () ↔ ∀ x ∈ xs, check x = .ok () := by
  induction xs with
  | nil => simp [each]
  | cons x xs ih =>
      rw [each, Transaction.bind_eq_ok_iff, List.forall_mem_cons, ← ih]
      exact ⟨fun ⟨_, hx, hxs⟩ => ⟨hx, hxs⟩, fun ⟨hx, hxs⟩ => ⟨(), hx, hxs⟩⟩

lemma of_each {β : Type} {check : β → Except TunnelError Unit} {xs : List β}
    (h : each check xs = .ok ()) : ∀ x ∈ xs, check x = .ok () := each_eq_ok_iff.mp h

/-- A list of resolvers is accepted when all of its entries are addresses, and not
too many. -/
lemma dnsServers_eq_ok_iff : dnsServers s = .ok () ↔
    (∀ entry ∈ dnsEntries s.toList, (parseIpAddr entry).isSome = true) ∧
      (dnsEntries s.toList).length ≤ maxDnsServers := by
  have hany : ((dnsEntries s.toList).any fun entry => (parseIpAddr entry).isNone) = false ↔
      ∀ entry ∈ dnsEntries s.toList, (parseIpAddr entry).isSome = true := by
    simp [List.any_eq_false, Option.isSome_iff_ne_none]
  rw [dnsServers, ← hany, ← not_lt]
  split
  · rename_i hsome
    simp [hsome, bad]
  · rename_i hnone
    split
    · rename_i hmany
      simp [hmany, bad]
    · rename_i hfew
      simp [Bool.eq_false_of_not_eq_true hnone, hfew]

lemma of_routes {list : List String} (h : routes list = .ok ()) : PlainRoutes list := by
  rw [routes] at h
  split at h
  · cases h
  · rename_i hno
    exact ⟨not_lt.mp hno, fun route hroute => plain_of_address (of_each h route hroute)⟩

lemma of_splitParams {split : SplitParams} (h : splitParams split = .ok ()) :
    PlainSplit split :=
  ⟨of_routes (of_each h _ (by simp)), of_routes (of_each h _ (by simp))⟩

lemma of_innerMtu {mtu : Nat} (h : innerMtu mtu = .ok ()) : 576 ≤ mtu ∧ mtu ≤ 9200 := by
  rw [innerMtu] at h
  split at h
  · assumption
  · cases h

/-- **A single-hop request that is accepted is plain.** -/
lemma of_connectRequest {r : ConnectRequest} (h : connectRequest r = .ok ()) :
    PlainConnect r := by
  obtain ⟨_, hcountry, h⟩ := Transaction.bind_eq_ok h
  obtain ⟨_, hconfig, h⟩ := Transaction.bind_eq_ok h
  obtain ⟨addr, hendpoint, h⟩ := Transaction.bind_eq_ok h
  obtain ⟨_, hip, h⟩ := Transaction.bind_eq_ok h
  obtain ⟨_, htls, hsplit⟩ := Transaction.bind_eq_ok h
  exact {
    country := of_label hcountry
    length_le := of_configText hconfig
    endpoint := plain_of_endpoint hendpoint
    assignedIp := plain_of_address hip
    tls := fun tls hmem => of_tlsParams (of_each htls tls (Option.mem_toList.mpr hmem))
    split := fun split hmem => of_splitParams (of_each hsplit split (Option.mem_toList.mpr hmem)) }

/-- **A multi-hop request that is accepted is plain.** -/
lemma of_multihopRequest {r : MultihopRequest} (h : multihopRequest r = .ok ()) :
    PlainMultihop r := by
  obtain ⟨_, hentry, h⟩ := Transaction.bind_eq_ok h
  obtain ⟨_, hexit, h⟩ := Transaction.bind_eq_ok h
  obtain ⟨_, houter, h⟩ := Transaction.bind_eq_ok h
  obtain ⟨_, hinner, h⟩ := Transaction.bind_eq_ok h
  obtain ⟨addr, hentryEndpoint, h⟩ := Transaction.bind_eq_ok h
  obtain ⟨addr', hexitEndpoint, h⟩ := Transaction.bind_eq_ok h
  obtain ⟨_, hmtu, h⟩ := Transaction.bind_eq_ok h
  obtain ⟨_, hip, hsplit⟩ := Transaction.bind_eq_ok h
  exact {
    entryCountry := of_label hentry
    exitCountry := of_label hexit
    outer_le := of_configText houter
    inner_le := of_configText hinner
    entryEndpoint := plain_of_endpoint hentryEndpoint
    exitEndpoint := plain_of_endpoint hexitEndpoint
    innerMtu := of_innerMtu hmtu
    assignedIp := plain_of_address hip
    split := fun split hmem => of_splitParams (of_each hsplit split (Option.mem_toList.mpr hmem)) }

end Accepted

/-- **The tunnel manager acts on plain requests only**: any other is refused, and
leaves the tunnel as it was. -/
theorem accepted_plain (c : Checks) (a : Manager.Answers) (m : Manager) :
    (∀ r, PlainConnect r ∨ ∃ e, Manager.connect (validated c) a r m = (.error e, m)) ∧
      ∀ r, PlainMultihop r ∨ ∃ e, Manager.connectMultihop (validated c) a r m = (.error e, m) := by
  refine ⟨fun r => ?_, fun r => ?_⟩
  · cases hcheck : connectRequest r with
    | ok => exact .inl (of_connectRequest hcheck)
    | error e =>
        have haccept : (validated c).accept r = .error e := by
          show (connectRequest r >>= _) = _
          rw [hcheck]
          rfl
        exact .inr ⟨e, by rw [Manager.connect, haccept]⟩
  · cases hcheck : multihopRequest r with
    | ok => exact .inl (of_multihopRequest hcheck)
    | error e =>
        have haccept : (validated c).acceptMultihop r = .error e := by
          show (multihopRequest r >>= _) = _
          rw [hcheck]
          rfl
        exact .inr ⟨e, by rw [Manager.connectMultihop, haccept]⟩

end CumulusVpn.Desktop.Validate
