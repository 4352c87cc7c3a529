/-
Split-tunneling policies and their compilation
(`clients/core-ts/src/split.ts`, `wgconfig.ts`).

`String.prototype.toLowerCase` and `normalize('NFC')` are parameters
(`Unicode`); strings are compared by their UTF-16 units, as in the source.

* `Json`: what is read from disk;
* `normalizeSplitRule`, `sanitizeSplitPolicy`: the gates of rules and
  policies;
* `compileSplitPolicy`: the routes, apps and domains of a policy;
* `allowedIpsFor`: the `AllowedIPs` of a config;
* `sanitized_cidr`: a rule of a sanitized policy is valid.
-/
import CumulusVpn.Split.Punycode
import CumulusVpn.Split.RouteLists

namespace CumulusVpn.Split

open Intervals

/-! ### Strings -/

/-- The tables of the platform. -/
structure Unicode where
  toLowerCase : List Char → List Char
  normalize : List Char → List Char

/-- The UTF-16 units of a character. -/
def utf16Units (c : Char) : List Nat :=
  if c.toNat < 0x10000 then [c.toNat]
  else [0xd800 + (c.toNat - 0x10000) / 0x400, 0xdc00 + (c.toNat - 0x10000) % 0x400]

/-- The UTF-16 units of a text, by which JavaScript compares. -/
def utf16 (s : String) : List Nat := s.toList.flatMap utf16Units

/-- `a <= b` of two strings, which compares their UTF-16 units. -/
def StringLE (a b : String) : Prop := ¬ utf16 b < utf16 a

instance : DecidableRel StringLE := fun a b => inferInstanceAs (Decidable (¬ utf16 b < utf16 a))

/-- `[...new Set(values)]`: the first occurrence of every text. -/
def distinct : List String → List String
  | [] => []
  | v :: values => v :: (distinct values).filter (· ≠ v)

/-! ### JSON -/

/-- A stored value after `JSON.parse`, with its texts as strings; `Reload` has the
bytes on disk. -/
inductive Json
  | null
  | bool (b : Bool)
  | num (n : Int)
  | str (s : String)
  | arr (items : List Json)
  | obj (fields : List (String × Json))

/-- The field of an object; `none` is `undefined`. -/
def Json.get? (value : Json) (key : String) : Option Json :=
  match value with
  | .obj fields => (fields.find? fun f => f.1 = key).map Prod.snd
  | _ => none

mutual

/-- `String(value)` -/
def Json.toText : Json → String
  | .null => "null"
  | .bool b => if b then "true" else "false"
  | .num n => toString n
  | .str s => s
  | .arr items => ",".intercalate (Json.itemTexts items)
  | .obj _ => "[object Object]"

/-- The texts that an array joins: `null` leaves no text. -/
def Json.itemTexts : List Json → List String
  | [] => []
  | .null :: items => "" :: Json.itemTexts items
  | item :: items => item.toText :: Json.itemTexts items

end

/-! ### Policies -/

/-- Which traffic the rules are about: none, what bypasses the tunnel, or what alone
takes it. -/
inductive SplitMode
  | off
  | exclude
  /-- `'include'` -/
  | includeOnly
deriving DecidableEq, Repr

/-- What a rule names. -/
inductive SplitRuleKind
  | app
  | domain
  | cidr
deriving DecidableEq, Repr

/-- The platforms that an app rule may have been written on. -/
inductive SplitPlatform
  | android
  | ios
  | macos
  | windows
  | linux
deriving DecidableEq, Repr

/-- Who resolves the names that bypass the tunnel. -/
inductive ExcludedDns
  | tunnel
  | system
deriving DecidableEq, Repr

/-- A rule that has passed `normalizeSplitRule`. -/
structure SplitRule where
  kind : SplitRuleKind
  value : String
  /-- shown only; kept as it was read -/
  label : Option Json
  platform : Option SplitPlatform
  enabled : Bool

/-- A policy that has passed `sanitizeSplitPolicy`. -/
structure SplitPolicy where
  mode : SplitMode
  rules : List SplitRule
  lanBypass : Bool
  excludedDns : ExcludedDns

/-- `EMPTY_POLICY`: off, without rules. -/
def emptyPolicy : SplitPolicy := ⟨.off, [], false, .tunnel⟩

/-- A domain that a resolver matches: the name itself, and with a wildcard the names
under it. -/
structure DomainMatcher where
  suffix : String
  wildcard : Bool
deriving DecidableEq, Repr

/-- What a platform is told to do about a policy. -/
structure CompiledSplit where
  tunnelRoutes : List String
  bypassRoutes : List String
  appsIncluded : List String
  appsExcluded : List String
  domainsIncluded : List DomainMatcher
  domainsExcluded : List DomainMatcher
  isNoop : Bool
deriving DecidableEq, Repr

/-- `LAN_BYPASS_CIDRS`: the networks that are never on the internet. -/
def lanBypassCidrs : List String :=
  ["10.0.0.0/8", "172.16.0.0/12", "192.168.0.0/16", "169.254.0.0/16", "224.0.0.0/4",
    "255.255.255.255/32", "fe80::/10", "fc00::/7", "ff00::/8"]

/-! ### Domains -/

/-- `[a-z0-9_]`, which a label begins and ends with. -/
def isLabelChar (c : Char) : Bool := ('a' ≤ c && c ≤ 'z') || isDigit c || c = '_'

/-- `/^[a-z0-9_]([a-z0-9_-]*[a-z0-9_])?$/` -/
def isLabel (label : List Char) : Bool :=
  label.head?.any isLabelChar && label.getLast?.any isLabelChar &&
    label.all fun c => isLabelChar c || c = '-'

/-- What the checks of a rule throw. -/
inductive RuleError
  | notAnObject
  | unknownKind (kind : Option Json)
  | valueNotString
  | unknownPlatform (platform : Json)
  | invalidDomain (raw : String)
  | ipDomain (raw : String)
  | bareTld (raw : String)
  | domainTooLong (raw : String)
  | invalidCidr (raw : String)
  | wholeInternet (raw : String)
  | containsGateway (raw endpoint : String)
  | noIdentity
  | noPlatform
  | ownIdentity

/-- The text between quotation marks. -/
def quote (s : String) : String := "\"" ++ s ++ "\""

/-- The message of the `Error` that is thrown. -/
def RuleError.message : RuleError → String
  | .notAnObject => "Cannot read properties of null (reading 'kind')"
  | .unknownKind kind =>
      "split: unknown rule kind " ++ quote ((kind.map Json.toText).getD "undefined")
  | .valueNotString => "split: rule value must be a string"
  | .unknownPlatform platform => "split: unknown platform " ++ quote platform.toText
  | .invalidDomain raw => "split: not a valid domain: " ++ quote raw
  | .ipDomain raw =>
      "split: " ++ quote raw ++ " is an IP address — add it as an IP rule instead"
  | .bareTld raw =>
      "split: " ++ quote raw ++ " is a bare TLD — add a full hostname like \"example.com\""
  | .domainTooLong raw => "split: domain too long: " ++ quote raw
  | .invalidCidr raw => Split.invalidCidr raw
  | .wholeInternet raw =>
      "split: " ++ quote raw ++
        " covers the whole internet — use the split-tunneling mode switch instead"
  | .containsGateway raw endpoint =>
      "split: " ++ quote raw ++ " contains the VPN gateway address (" ++ endpoint ++
        ") — that rule would break the tunnel itself"
  | .noIdentity => "split: app rule needs an application identity"
  | .noPlatform => "split: app rule needs the platform it was authored on"
  | .ownIdentity => "split: CumulusVPN itself cannot be a split-tunneling rule"

/-- A bare address of either family. -/
def isIpLiteral (s : List Char) : Bool := (parseIpv4 s).isSome || (parseIpv6 s).isSome

/-- The text without its trailing dots. -/
def stripDots (v : List Char) : List Char := (v.reverse.dropWhile (· = '.')).reverse

/-- `/^[\x20-\x7e]*$/` -/
def isPrintable (label : List Char) : Bool := label.all fun c => ' ' ≤ c && c ≤ '~'

/-- One label of a domain, in ASCII. -/
def normalizeLabel (raw : String) (label : List Char) : Except RuleError (List Char) :=
  let ascii :=
    if isPrintable label then label else "xn--".toList ++ punycodeEncode (label.map Char.toNat)
  if !isLabel ascii || ascii.length > 63 then .error (.invalidDomain raw) else .ok ascii

/-! ### Rules -/

section Rules

variable (unicode : Unicode)

/-- A domain in lower case and ASCII, of two labels or more, with or without a
leading wildcard; an address is refused. -/
def normalizeDomainValue (raw : String) : Except RuleError String := do
  let v := stripDots (unicode.normalize (unicode.toLowerCase (trim raw.toList)))
  let wildcard := v.take 2 = ['*', '.']
  let v := if wildcard then v.drop 2 else v
  if v = [] ∨ '*' ∈ v then throw (.invalidDomain raw)
  if isIpLiteral v then throw (.ipDomain raw)
  let labels ← (v.splitOn '.').mapM (normalizeLabel raw)
  if labels.length < 2 then throw (.bareTld raw)
  let joined := List.intercalate ['.'] labels
  if joined.length > 253 then throw (.domainTooLong raw)
  return String.ofList (if wildcard then '*' :: '.' :: joined else joined)

/-- The prefix holds the address of the endpoint; a text that is no address is
passed over. -/
def Cidr.containsEndpoint (cidr : Cidr) (endpoint : String) : Bool :=
  match parseCidr endpoint with
  | none => false
  | some ep => ep.family = cidr.family ∧ ep.net ∈ cidrToInterval cidr

/-- A prefix that is not the whole internet and holds none of the endpoints. -/
def normalizeCidrValue (raw : String) (endpointIps : List String) : Except RuleError String :=
  match parseCidr raw with
  | none => .error (.invalidCidr raw)
  | some cidr =>
      if cidr.pfx = 0 then .error (.wholeInternet raw)
      else
        match endpointIps.find? cidr.containsEndpoint with
        | some endpoint => .error (.containsGateway raw endpoint)
        | none => .ok (formatCidr cidr)

/-- The identity of an app, which has to come with a platform and may not be our own. -/
def normalizeAppValue (raw : String) (platform : Option SplitPlatform) :
    Except RuleError String :=
  let v := trim raw.toList
  if v = [] then .error .noIdentity
  else
    match platform with
    | none => .error .noPlatform
    | some _ =>
        if "cumulusvpn".toList <:+: unicode.toLowerCase v then .error .ownIdentity
        else .ok (String.ofList v)

/-- The kind that a text names. -/
def SplitRuleKind.ofText : String → Option SplitRuleKind
  | "app" => some .app
  | "domain" => some .domain
  | "cidr" => some .cidr
  | _ => none

/-- The platform that a text names. -/
def SplitPlatform.ofText : String → Option SplitPlatform
  | "android" => some .android
  | "ios" => some .ios
  | "macos" => some .macos
  | "windows" => some .windows
  | "linux" => some .linux
  | _ => none

/-- The mode that a text names. -/
def SplitMode.ofText : String → Option SplitMode
  | "off" => some .off
  | "exclude" => some .exclude
  | "include" => some .includeOnly
  | _ => none

/-- The resolver that a text names. -/
def ExcludedDns.ofText : String → Option ExcludedDns
  | "tunnel" => some .tunnel
  | "system" => some .system
  | _ => none

/-- The member of an enumeration that a field names. -/
def readEnum {α : Type} (ofText : String → Option α) : Option Json → Option α
  | some (.str s) => ofText s
  | _ => none

/-- The platform of an app rule: absent, known, or an error. -/
def readPlatform (kind : SplitRuleKind) (field : Option Json) :
    Except RuleError (Option SplitPlatform) :=
  match kind, field with
  | .app, some platform =>
      match readEnum SplitPlatform.ofText (some platform) with
      | none => .error (.unknownPlatform platform)
      | some p => .ok (some p)
  | _, _ => .ok none

/-- `value === null`, where reading a field throws. -/
def Json.isNull : Json → Bool
  | .null => true
  | _ => false

/-- `rule.enabled !== false`: a rule is enabled unless it says otherwise. -/
def readEnabled : Option Json → Bool
  | some (.bool false) => false
  | _ => true

/-- The value of a rule, by its kind. -/
def normalizeValue (kind : SplitRuleKind) (raw : String) (platform : Option SplitPlatform)
    (endpointIps : List String) : Except RuleError String :=
  match kind with
  | .cidr => normalizeCidrValue raw endpointIps
  | .domain => normalizeDomainValue unicode raw
  | .app => normalizeAppValue unicode raw platform

/-- The gate of a rule: its kind, its value, its platform, in the order in which the
source checks them. -/
def normalizeSplitRule (rule : Json) (endpointIps : List String) : Except RuleError SplitRule := do
  if rule.isNull then throw .notAnObject
  let some kind := readEnum SplitRuleKind.ofText (rule.get? "kind")
    | throw (.unknownKind (rule.get? "kind"))
  let some (.str raw) := rule.get? "value" | throw .valueNotString
  let platform ← readPlatform kind (rule.get? "platform")
  let value ← normalizeValue unicode kind raw platform endpointIps
  return ⟨kind, value, rule.get? "label", platform, readEnabled (rule.get? "enabled")⟩

/-- The rules of an untrusted value; one invalid rule voids them all. -/
def normalizeRules : List Json → Except RuleError (List SplitRule)
  | [] => .ok []
  | rule :: rules => do
      let rule ← normalizeSplitRule unicode rule []
      let rules ← normalizeRules rules
      return rule :: rules

/-- The gate of what is read from disk: a policy, or the empty one for anything that
is not a policy of version 1 with valid rules. -/
def sanitizeSplitPolicy (value : Json) : SplitPolicy :=
  match value.get? "version", readEnum SplitMode.ofText (value.get? "mode"),
      value.get? "lanBypass", readEnum ExcludedDns.ofText (value.get? "excludedDns"),
      value.get? "rules" with
  | some (.num 1), some mode, some (.bool lanBypass), some excludedDns, some (.arr rules) =>
      match normalizeRules unicode rules with
      | .error _ => emptyPolicy
      | .ok rules => ⟨mode, rules, lanBypass, excludedDns⟩
  | _, _, _, _, _ => emptyPolicy

end Rules

/-! ### The compiler -/

/-- What a policy is compiled for. -/
structure CompileSplitContext where
  platform : SplitPlatform
  supportsExcludeRoute : Bool
  /-- empty where the source has none -/
  endpointIps : List String

/-- One of the endpoints is inside the prefix; a text that is no prefix holds none. -/
def containsAnyEndpoint (value : String) (endpointIps : List String) : Bool :=
  match parseCidr value with
  | none => false
  | some cidr => endpointIps.any cidr.containsEndpoint

/-- The fewest prefixes for the same addresses, IPv4 before IPv6. -/
def mergedCidrStrings (cidrs : List String) : Except String (List String) := do
  let v4 ← toMergedIntervals cidrs .v4
  let v6 ← toMergedIntervals cidrs .v6
  return intervalsToStrings v4 .v4 ++ intervalsToStrings v6 .v6

/-- The routes of one family of `a \ b`. -/
def subtractFamily (a b : List String) (family : Family) : Except String (List String) := do
  let x ← toMergedIntervals a family
  let y ← toMergedIntervals b family
  return intervalsToStrings (subtractIntervals x y) family

/-- The prefixes of `a` without the addresses of `b`, IPv4 before IPv6. -/
def subtractCidrStrings (a b : List String) : Except String (List String) := do
  let v4 ← subtractFamily a b .v4
  let v6 ← subtractFamily a b .v6
  return v4 ++ v6

/-- A domain of a rule, with its wildcard taken off. -/
def toMatcher (v : String) : DomainMatcher :=
  if v.toList.take 2 = ['*', '.'] then ⟨String.ofList (v.toList.drop 2), true⟩ else ⟨v, false⟩

/-- The order `toMatchers` sorts by. -/
def SuffixLE (a b : DomainMatcher) : Prop := StringLE a.suffix b.suffix

instance : DecidableRel SuffixLE := fun a b =>
  inferInstanceAs (Decidable (StringLE a.suffix b.suffix))

/-- The matchers of the domains, sorted by their suffixes. -/
def toMatchers (values : List String) : List DomainMatcher :=
  (values.map toMatcher).insertionSort SuffixLE

/-- `NOOP_SPLIT`: the full tunnel. -/
def noopSplit : CompiledSplit := ⟨[], [], [], [], [], [], true⟩

/-- `active`, of one kind. -/
def SplitPolicy.active (policy : SplitPolicy) (kind : SplitRuleKind) : List SplitRule :=
  policy.rules.filter fun r => r.enabled ∧ r.kind = kind

/-- The prefixes of the enabled rules that hold no endpoint. -/
def SplitPolicy.cidrs (policy : SplitPolicy) (endpointIps : List String) : List String :=
  ((policy.active .cidr).map SplitRule.value).filter fun v => !containsAnyEndpoint v endpointIps

/-- The enabled apps of one platform, each once and in order. -/
def SplitPolicy.apps (policy : SplitPolicy) (platform : SplitPlatform) : List String :=
  (distinct (((policy.active .app).filter fun r => r.platform = some platform).map
    SplitRule.value)).insertionSort StringLE

/-- The enabled domains, each once. -/
def SplitPolicy.domains (policy : SplitPolicy) : List String :=
  distinct ((policy.active .domain).map SplitRule.value)

/-- The routes, apps and domains of a policy.  Where the platform cannot route
around the tunnel, the bypass is what is left out of the tunnel's routes. -/
def compileSplitPolicy (policy : SplitPolicy) (ctx : CompileSplitContext) :
    Except String CompiledSplit := do
  if policy.mode = .off ∧ !policy.lanBypass then return noopSplit
  let cidrs := policy.cidrs ctx.endpointIps
  let apps := policy.apps ctx.platform
  let domains := policy.domains
  if policy.mode = .includeOnly then
    let included ← if policy.lanBypass then subtractCidrStrings cidrs lanBypassCidrs
      else mergedCidrStrings cidrs
    return ⟨included, [], apps, [], toMatchers domains, [], false⟩
  -- `exclude`, and `off` with the LAN bypass: an empty exclude list
  let exclude : Bool := policy.mode = .exclude
  let bypass ← mergedCidrStrings
    ((if exclude then cidrs else []) ++ if policy.lanBypass then lanBypassCidrs else [])
  let tunnelRoutes ← if ctx.supportsExcludeRoute then pure []
    else complementRoutes bypass .both
  return ⟨tunnelRoutes, if ctx.supportsExcludeRoute then bypass else [], [],
    if exclude then apps else [], [], toMatchers (if exclude then domains else []), false⟩

/-! ### The config -/

/-- The `AllowedIPs` of a compiled policy; the full tunnel where there are no
routes. -/
def allowedIpsFor (split : Option CompiledSplit) : String :=
  match split with
  | none => "0.0.0.0/0, ::/0"
  | some split =>
      if split.isNoop ∨ split.tunnelRoutes = [] then "0.0.0.0/0, ::/0"
      else ", ".intercalate split.tunnelRoutes

end CumulusVpn.Split
