/-
The configs that the desktop reads, and what it configures a device with
(`clients/desktop/src-tauri/tunnel/src/wggo.rs`).

* `lines`, `setting`, `settings`: the settings of a text;
* `Fields.set`, `WgConfig.parse`: what they make of a config;
* `WgConfig.checkShape`: each field is what it claims to be;
* `WgConfig.toUapiSet`: the request to the device;
* `settings_eq`: the settings are those of the parts between the line feeds;
  `of_mem_settings`: a value is of one line and trimmed.
-/
import CumulusVpn.Desktop.Validate
import CumulusVpn.Lib.Base64
import CumulusVpn.Lib.KeyValue

namespace CumulusVpn.Desktop.WgGo

open Net KeyValue Trim Validate

/-! ### The settings of a text -/

/-- A line without the carriage return at its end. -/
def dropReturn (line : List Char) : List Char := (stripSuffix ['\r'] line).getD line

/-- `str::lines`: each line ends with a line feed, and the last one may do
without. -/
def lines (text : List Char) : List (List Char) :=
  let parts := text.splitOn '\n'
  parts.dropLast.map dropReturn ++ parts.getLast?.toList.filter (· ≠ [])

/-- The setting of a line; section headers and comments have none. -/
def setting (raw : List Char) : Option Setting :=
  let line := trim isWhitespace raw
  if line = [] ∨ line.head? = some '[' ∨ line.head? = some '#' then none
  else readLine isWhitespace raw

/-- The settings of a text, in order. -/
def settings (text : List Char) : List Setting := (lines text).filterMap setting

/-! ### The fields -/

/-- `trim_end_matches`, at most so many times. -/
def trimEndMatches (suf : List Char) : Nat → List Char → List Char
  | 0, t => t
  | n + 1, t =>
      match stripSuffix suf t with
      | some rest => trimEndMatches suf n rest
      | none => t

/-- `parse::<u16>()` -/
def parseU16 (s : List Char) : Option Nat :=
  let digits := if s.head? = some '+' then s.tail else s
  if digits ≠ [] ∧ digits.all isAsciiDigit = true ∧ number 10 digits ≤ 65535 then
    some (number 10 digits)
  else none

/-- The AmneziaWG keys. -/
def obfsKeys : List (List Char) :=
  ["Jc", "Jmin", "Jmax", "S1", "S2", "H1", "H2", "H3", "H4"].map String.toList

/-- What the lines have set. -/
structure Fields where
  privateKeyB64 : Option (List Char)
  address : Option (List Char)
  mtu : Option Nat
  dns : Option (List Char)
  peerPublicKeyB64 : Option (List Char)
  endpoint : Option (List Char)
  allowedIps : List (List Char)
  persistentKeepalive : Nat
  obfs : List Setting
deriving DecidableEq, Repr

/-- A config before its first line. -/
def Fields.empty : Fields := ⟨none, none, none, none, none, none, [], 25, []⟩

/-- A setting goes to the field of its key, and one with another key nowhere. -/
def Fields.set (f : Fields) (s : Setting) : Fields :=
  if s.1 = "PrivateKey".toList then { f with privateKeyB64 := some s.2 }
  else if s.1 = "Address".toList then
    { f with address := some (trimEndMatches "/32".toList s.2.length s.2) }
  else if s.1 = "MTU".toList then { f with mtu := parseU16 s.2 }
  else if s.1 = "DNS".toList then { f with dns := some s.2 }
  else if s.1 = "PublicKey".toList then { f with peerPublicKeyB64 := some s.2 }
  else if s.1 = "Endpoint".toList then { f with endpoint := some s.2 }
  else if s.1 = "AllowedIPs".toList then
    { f with allowedIps := ((s.2.splitOn ',').map (trim isWhitespace)).filter (· ≠ []) }
  else if s.1 = "PersistentKeepalive".toList then
    { f with persistentKeepalive := (parseU16 s.2).getD 25 }
  else if obfsKeys.any (· = s.1) then { f with obfs := f.obfs ++ [(s.1.map Char.toLower, s.2)] }
  else f

/-- A parsed config. -/
structure WgConfig where
  privateKeyB64 : List Char
  address : List Char
  mtu : Option Nat
  dns : Option (List Char)
  peerPublicKeyB64 : List Char
  endpoint : List Char
  allowedIps : List (List Char)
  persistentKeepalive : Nat
  /-- the AmneziaWG parameters, their keys in lower case, in the order of the
  lines -/
  obfs : List Setting
deriving DecidableEq, Repr

/-- A byte in hexadecimal. -/
def hexByte (b : UInt8) : List Char := [Nat.digitChar (b.toNat / 16), Nat.digitChar (b.toNat % 16)]

/-- A key in the hexadecimal of the UAPI. -/
def b64ToHex (b64 : List Char) : Except TunnelError (List Char) :=
  match Base64.decode b64 with
  | none => bad "key is not valid base64"
  | some bytes =>
      if bytes.length ≠ 32 then bad "key is not 32 bytes" else .ok (bytes.flatMap hexByte)

/-- An AmneziaWG parameter is a number, or a range of numbers. -/
def obfsParam (value : List Char) : Except TunnelError Unit :=
  if value = [] ∨ 32 < (String.ofList value).utf8ByteSize ∨
      ¬ value.all (fun c => isAsciiDigit c || c = '-') then
    bad "invalid obfuscation parameter"
  else .ok ()

namespace WgConfig

variable (c : WgConfig)

/-- Each field is what it claims to be; the first one that is not refuses the
config. -/
def checkShape : Except TunnelError Unit := do
  let _ ← parsed "Address is not an IP address" c.address
  let _ ← Validate.endpoint (String.ofList c.endpoint)
  each (fun route => cidr (String.ofList route)) c.allowedIps
  each (fun dns => dnsServers (String.ofList dns)) c.dns.toList
  let _ ← b64ToHex c.privateKeyB64
  let _ ← b64ToHex c.peerPublicKeyB64
  each (fun param => obfsParam param.2) c.obfs

/-- A field that a config must have. -/
def required (refused : String) : Option (List Char) → Except TunnelError (List Char)
  | some value => .ok value
  | none => bad refused

/-- The config of what the lines have set, when it has what it must. -/
def ofFields (f : Fields) : Except TunnelError WgConfig := do
  let privateKeyB64 ← required "missing PrivateKey" f.privateKeyB64
  let address ← required "missing Address" f.address
  let peerPublicKeyB64 ← required "missing PublicKey" f.peerPublicKeyB64
  let endpoint ← required "missing Endpoint" f.endpoint
  return {
    privateKeyB64, address, mtu := f.mtu, dns := f.dns, peerPublicKeyB64, endpoint
    allowedIps :=
      if f.allowedIps = [] then ["0.0.0.0/0".toList, "::/0".toList] else f.allowedIps
    persistentKeepalive := f.persistentKeepalive
    obfs := f.obfs }

/-- A config as it is read of a text. -/
def parse (text : List Char) : Except TunnelError WgConfig := do
  let config ← ofFields ((settings text).foldl Fields.set .empty)
  config.checkShape
  return config

/-- A line of the UAPI. -/
def uapiLine (key : String) (value : List Char) : List Char := key.toList ++ '=' :: value ++ ['\n']

/-- The request that sets a device up: its parameters before its peer, and an
empty line at the end. -/
def toUapiSet : Except TunnelError (List Char) := do
  let privHex ← b64ToHex c.privateKeyB64
  let peerHex ← b64ToHex c.peerPublicKeyB64
  return uapiLine "set" ['1'] ++ uapiLine "private_key" privHex ++
    c.obfs.flatMap (fun param => param.1 ++ '=' :: param.2 ++ ['\n']) ++
    uapiLine "replace_peers" "true".toList ++ uapiLine "public_key" peerHex ++
    uapiLine "endpoint" c.endpoint ++
    uapiLine "persistent_keepalive_interval" (Nat.toDigits 10 c.persistentKeepalive) ++
    uapiLine "replace_allowed_ips" "true".toList ++
    c.allowedIps.flatMap (uapiLine "allowed_ip") ++ ['\n']

end WgConfig

/-! ### What is read of a text -/

section Read

variable {text raw : List Char} {s : Setting}

lemma isBlank_isWhitespace : IsBlank isWhitespace where
  space := by decide
  equals := by decide
  word _ hc := isWhitespace_eq_false_of_isAlphanum hc

lemma setting_nil : setting [] = none := rfl

/-- The carriage return at the end of a line is white space. -/
lemma setting_dropReturn (raw : List Char) : setting (dropReturn raw) = setting raw := by
  rw [dropReturn]
  cases h : stripSuffix ['\r'] raw with
  | none => rfl
  | some rest =>
      have htrim : trim isWhitespace raw = trim isWhitespace rest := by
        rw [stripSuffix_eq_some.mp h]
        exact trim_append_right (List.forall_mem_singleton.mpr (by decide)) rest
      rw [Option.getD_some, setting, setting, readLine, readLine, htrim]

/-- **The settings are those of the parts between the line feeds.** -/
lemma settings_eq (text : List Char) : settings text = (text.splitOn '\n').filterMap setting := by
  have hparts := List.dropLast_append_getLast (List.splitOn_ne_nil '\n' text)
  have hlast := List.getLast?_eq_some_getLast (List.splitOn_ne_nil '\n' text)
  rw [settings, lines, List.filterMap_append, List.filterMap_map, hlast]
  conv_rhs => rw [← hparts, List.filterMap_append]
  congr 1
  · exact List.filterMap_congr fun raw _ => setting_dropReturn raw
  · rw [Option.toList_some]
    by_cases hnil : (text.splitOn '\n').getLast (List.splitOn_ne_nil '\n' text) = []
    · simp [hnil, setting_nil]
    · simp [hnil]

/-- **A value is of one line, and trimmed.** -/
lemma of_mem_settings (h : s ∈ settings text) : '\n' ∉ s.2 ∧ trim isWhitespace s.2 = s.2 := by
  rw [settings_eq] at h
  obtain ⟨raw, hraw, hset⟩ := List.mem_filterMap.mp h
  rw [setting] at hset
  split at hset
  · cases hset
  · obtain ⟨htrim, front, back, hline, -⟩ := of_readLine hset
    refine ⟨fun hmem => ?_, htrim⟩
    have hfeed : '\n' ∈ raw := by
      rw [hline]
      exact List.mem_append_left _ (List.mem_append_right _ hmem)
    rw [List.splitOn_eq_splitOnP] at hraw
    simpa using not_of_mem_splitOnP hfeed hraw

/-- A setting is read as it was written. -/
lemma setting_line (hkey : IsKey s.1) (hvalue : trim isWhitespace s.2 = s.2) :
    setting (line s) = some s := by
  obtain ⟨w, htrim, -⟩ := exists_trim_line isBlank_isWhitespace hkey s.2
  have hhead : ∃ c ∈ s.1, ∃ rest, trim isWhitespace (line s) = c :: rest := by
    obtain ⟨c, key, hcons⟩ := List.exists_cons_of_ne_nil hkey.ne
    exact ⟨c, hcons ▸ List.mem_cons_self, _, by rw [htrim, hcons]; rfl⟩
  obtain ⟨c, hc, rest, hline⟩ := hhead
  have hne : ∀ d : Char, d.isAlphanum = false → c ≠ d := by
    rintro d hd rfl
    rw [hkey.word c hc] at hd
    cases hd
  rw [setting, if_neg, readLine_line isBlank_isWhitespace hkey hvalue]
  rw [hline]
  simp [hne '[' (by decide), hne '#' (by decide)]

end Read

/-! ### What is accepted -/

/-- The text is the base64 of the key, which has 32 bytes. -/
def IsKeyText (b64 : List Char) (key : List UInt8) : Prop :=
  key.length = 32 ∧ Base64.encode key = b64

lemma b64ToHex_eq_ok_iff {b64 hex : List Char} : b64ToHex b64 = .ok hex ↔
    ∃ key, IsKeyText b64 key ∧ key.flatMap hexByte = hex := by
  rw [b64ToHex]
  constructor
  · intro h
    split at h
    · cases h
    · rename_i key hdecode
      split at h
      · cases h
      · rename_i hlength
        cases h
        exact ⟨key, ⟨not_not.mp hlength, Base64.encode_of_decode hdecode⟩, rfl⟩
  · rintro ⟨key, ⟨hlength, rfl⟩, rfl⟩
    simp only [Base64.decode_encode, hlength, ne_eq, not_true_eq_false, if_false]

namespace WgConfig

/-- Each field is what it claims to be. -/
structure Shaped (c : WgConfig) : Prop where
  address : (parseIpAddr c.address).isSome = true
  endpoint : (parseSocketAddr c.endpoint).isSome = true
  allowedIps : ∀ route ∈ c.allowedIps, cidr (String.ofList route) = .ok ()
  dns : ∀ dns ∈ c.dns, dnsServers (String.ofList dns) = .ok ()
  privateKey : ∃ key, IsKeyText c.privateKeyB64 key
  peerPublicKey : ∃ key, IsKeyText c.peerPublicKeyB64 key
  obfs : ∀ param ∈ c.obfs, obfsParam param.2 = .ok ()

variable {c : WgConfig} {text : List Char}

/-- **The check lets through what has its shape.** -/
lemma checkShape_eq_ok_iff : c.checkShape = .ok () ↔ c.Shaped := by
  have hendpoint : (∃ addr, Validate.endpoint (String.ofList c.endpoint) = .ok addr) ↔
      (parseSocketAddr c.endpoint).isSome = true := by
    rw [Validate.endpoint, String.toList_ofList]
    cases parseSocketAddr c.endpoint with
    | none => simp [bad]
    | some addr => simp
  have hkey : ∀ b64, (∃ hex, b64ToHex b64 = .ok hex) ↔ ∃ key, IsKeyText b64 key := fun b64 => by
    simp only [b64ToHex_eq_ok_iff]
    constructor
    · rintro ⟨hex, key, hkey, -⟩
      exact ⟨key, hkey⟩
    · rintro ⟨key, hkey⟩
      exact ⟨_, key, hkey, rfl⟩
  have haddress : (∃ ip, parsed "Address is not an IP address" c.address = .ok ip) ↔
      (parseIpAddr c.address).isSome = true := by
    rw [parsed]
    cases parseIpAddr c.address with
    | none => simp [bad]
    | some ip => simp
  simp only [checkShape, Transaction.bind_eq_ok_iff, exists_and_right, Unique.exists_iff,
    PUnit.default_eq_unit, haddress, hendpoint, hkey, each_eq_ok_iff, Option.mem_toList]
  constructor
  · rintro ⟨haddress, hendpoint, hroutes, hdns, hprivate, hpublic, hobfs⟩
    exact ⟨haddress, hendpoint, hroutes, hdns, hprivate, hpublic, hobfs⟩
  · rintro ⟨haddress, hendpoint, hroutes, hdns, hprivate, hpublic, hobfs⟩
    exact ⟨haddress, hendpoint, hroutes, hdns, hprivate, hpublic, hobfs⟩

/-- A config is read when its lines have set what they must and its fields have
their shape. -/
lemma parse_eq_ok_iff : parse text = .ok c ↔
    ofFields ((settings text).foldl Fields.set .empty) = .ok c ∧ c.Shaped := by
  rw [parse, Transaction.bind_eq_ok_iff]
  constructor
  · rintro ⟨config, hfields, h⟩
    obtain ⟨_, hshape, h⟩ := Transaction.bind_eq_ok h
    cases h
    exact ⟨hfields, checkShape_eq_ok_iff.mp hshape⟩
  · rintro ⟨hfields, hshaped⟩
    refine ⟨c, hfields, ?_⟩
    rw [checkShape_eq_ok_iff.mpr hshaped]
    rfl

end WgConfig

example :
    (WgConfig.parse ("[Interface]\nPrivateKey = ".toList ++ (List.replicate 43 'A' ++ ['=']) ++
      "\nAddress = 10.8.0.2/32\nDNS = 1.1.1.1\nJc = 4\n\n[Peer]\nPublicKey = ".toList ++
      (List.replicate 43 'A' ++ ['=']) ++
      "\nEndpoint = 1.2.3.4:51820\nAllowedIPs = 0.0.0.0/0, ::/0\n".toList)).map
        (fun c => (c.address, c.allowedIps, c.obfs)) =
      .ok ("10.8.0.2".toList, ["0.0.0.0/0".toList, "::/0".toList],
        [("jc".toList, "4".toList)]) := by
  decide +kernel

end CumulusVpn.Desktop.WgGo
