/-
The fields of the configs that the clients write.

The writers put the fields into lines as they are.  Both readers take the lines
apart again, each in its own way (`ConfigReaders`).

* `Given`: the fields that a config is given, and `Given.settings`, `Given.text`,
  what they are written as;
* `buildWgConfig_eq`, `outer_eq`, `inner_eq`: the configs are such texts;
* `Given.Fits`: the fields that every reader takes for what they are; those that
  the clients choose themselves do (`cidr_of_mem_routesFor`, `fitDns_dnsServersFor`);
* `splitOn_text`: the lines of a text.
-/
import CumulusVpn.Client.WgConfig
import CumulusVpn.Desktop.AddressTexts
import CumulusVpn.Desktop.WgGo
import CumulusVpn.Mobile.WgQuick
import CumulusVpn.Split.AllowedIps

namespace CumulusVpn.WgConf

open KeyValue Desktop.Net Desktop.Validate Desktop.WgGo

/-! ### The fields -/

/-- The fields that a config is given. -/
structure Given where
  privateKey : List Char
  assignedIp : List Char
  dns : Option (List Char)
  mtu : Option (Fin 65536)
  included : Option (List Char)
  excluded : Option (List Char)
  /-- the obfuscation parameters, as a gateway names them -/
  obfs : String → Option (List Char)
  serverPubKey : List Char
  endpoint : List Char
  routes : List (List Char)
  routes_ne : routes ≠ []

/-- A setting that may be missing. -/
def optional (key : String) (value : Option (List Char)) : List Setting :=
  (value.map fun v => (key.toList, v)).toList

/-- An MTU as it is written. -/
def mtuText (mtu : Fin 65536) : List Char := Nat.toDigits 10 mtu.val

namespace Given

variable (g : Given)

/-- The obfuscation parameters, under the names that `name` gives them. -/
def params (name : String × String → List Char) : List Setting :=
  obfsConfKeys.filterMap fun k => (g.obfs k.1).map fun v => (name k, v)

/-- The settings of the interface. -/
def iface : List Setting :=
  [("PrivateKey".toList, g.privateKey), ("Address".toList, g.assignedIp ++ "/32".toList)] ++
    (optional "DNS" g.dns ++ (optional "MTU" (g.mtu.map fun mtu : Fin 65536 => mtuText mtu) ++
      (optional "IncludedApplications" g.included ++
        (optional "ExcludedApplications" g.excluded ++ g.params fun k => k.2.toList))))

/-- The settings of the peer. -/
def peer : List Setting :=
  [("PublicKey".toList, g.serverPubKey), ("Endpoint".toList, g.endpoint),
    ("AllowedIPs".toList, List.intercalate [',', ' '] g.routes),
    ("PersistentKeepalive".toList, ['2', '5'])]

/-- The settings of a config. -/
def settings : List Setting := g.iface ++ g.peer

/-- The text of a config. -/
def text : List Char :=
  confText ("[Interface]".toList :: g.iface.map line) ("[Peer]".toList :: g.peer.map line)

end Given

/-- The routes of a policy, or all of them. -/
def routesFor : Option Split.CompiledSplit → List (List Char)
  | none => ["0.0.0.0/0".toList, "::/0".toList]
  | some split =>
      if split.isNoop ∨ split.tunnelRoutes = [] then ["0.0.0.0/0".toList, "::/0".toList]
      else split.tunnelRoutes.map String.toList

lemma routesFor_ne (split : Option Split.CompiledSplit) : routesFor split ≠ [] := by
  cases split with
  | none => exact List.cons_ne_nil _ _
  | some split =>
      rw [routesFor]
      split
      · exact List.cons_ne_nil _ _
      · rename_i hno
        simpa using (not_or.mp hno).2

/-- The apps of one list, if there are any. -/
def appsOf (list : Split.CompiledSplit → List String) (split : Option Split.CompiledSplit) :
    Option (List Char) :=
  (split.filter fun split => list split ≠ []).map fun split =>
    (", ".intercalate (list split)).toList

/-- A profile, without its empty values. -/
def profile (obfs : Option (List (String × String))) (wire : String) : Option (List Char) :=
  ((obfs.bind fun params => params.lookup wire).filter (· ≠ "")).map String.toList

/-- The fields of the config of one hop. -/
def WgConfigParams.given (p : WgConfigParams) : Given where
  privateKey := p.privateKey
  assignedIp := p.assignedIp
  dns := some p.dns
  mtu := none
  included := appsOf Split.CompiledSplit.appsIncluded p.split
  excluded := appsOf Split.CompiledSplit.appsExcluded p.split
  obfs := profile p.obfs
  serverPubKey := p.serverPubKey
  endpoint := p.endpoint
  routes := routesFor p.split
  routes_ne := routesFor_ne p.split

/-- The fields of the outer config of two hops. -/
def MultihopArgs.outer (a : MultihopArgs) : Given where
  privateKey := a.privateKey
  assignedIp := a.entry.assignedIp
  dns := none
  mtu := some 1420
  included := none
  excluded := none
  obfs := profile a.entryObfs
  serverPubKey := a.entry.serverPubkey
  endpoint := a.entryEndpoint
  routes := [a.exitIp ++ "/32".toList]
  routes_ne := List.cons_ne_nil _ _

/-- The fields of the inner one. -/
def MultihopArgs.inner (a : MultihopArgs) : Given where
  privateKey := a.privateKey
  assignedIp := a.exit.assignedIp
  dns := some (a.dns.getD a.exit.dns)
  mtu := some 1340
  included := appsOf Split.CompiledSplit.appsIncluded a.split
  excluded := appsOf Split.CompiledSplit.appsExcluded a.split
  obfs _ := none
  serverPubKey := a.exit.serverPubkey
  endpoint := a.exit.endpoint
  routes := routesFor a.split
  routes_ne := routesFor_ne a.split

/-! ### The configs are such texts -/

section Texts

lemma toList_allowedIpsFor (split : Option Split.CompiledSplit) :
    (Split.allowedIpsFor split).toList = List.intercalate [',', ' '] (routesFor split) := by
  have hfull : "0.0.0.0/0, ::/0".toList =
      List.intercalate [',', ' '] ["0.0.0.0/0".toList, "::/0".toList] := by decide
  cases split with
  | none => exact hfull
  | some split =>
      rw [Split.allowedIpsFor, routesFor]
      split
      · exact hfull
      · rw [String.toList_intercalate]
        rfl

lemma appLines_eq (split : Option Split.CompiledSplit) : appLines split =
    (optional "IncludedApplications" (appsOf Split.CompiledSplit.appsIncluded split)).map line ++
      (optional "ExcludedApplications" (appsOf Split.CompiledSplit.appsExcluded split)).map
        line := by
  have hline : ∀ (key : String) (list : Split.CompiledSplit → List String) split,
      appLine key (list split) = (optional key (appsOf list (some split))).map line := by
    intro key list split
    rw [appLine, appsOf]
    split
    · rename_i hnil
      simp [optional, Option.filter, hnil]
    · rename_i hne
      simp [optional, Option.filter, hne]
  cases split with
  | none => rfl
  | some split => rw [appLines, hline, hline]

lemma obfsInterfaceLines_eq (g : Given) (obfs : Option (List (String × String)))
    (h : g.obfs = profile obfs) :
    obfsInterfaceLines obfs = (g.params fun k => k.2.toList).map line := by
  rw [obfsInterfaceLines, Given.params, h, List.map_filterMap]
  refine List.filterMap_congr fun k _ => ?_
  simp [profile, Function.comp_def]

lemma keepalive_line : "PersistentKeepalive = 25".toList =
    line ("PersistentKeepalive".toList, ['2', '5']) := by decide

/-- **The config of one hop is the text of its fields.** -/
lemma buildWgConfig_eq (p : WgConfigParams) : buildWgConfig p = p.given.text := by
  rw [buildWgConfig, Given.text, appLines_eq, obfsInterfaceLines_eq p.given p.obfs rfl,
    toList_allowedIpsFor, keepalive_line]
  simp only [Given.iface, List.map_append, List.append_assoc]
  rfl

/-- **So is the outer config of two hops.** -/
lemma outer_eq (a : MultihopArgs) : (buildMultihopConfig a).outer = a.outer.text := by
  have hroute : List.intercalate [',', ' '] [a.exitIp ++ "/32".toList] = a.exitIp ++ "/32".toList :=
    List.intercalate_singleton
  rw [buildMultihopConfig, Given.text, obfsInterfaceLines_eq a.outer a.entryObfs rfl,
    keepalive_line, ← hroute]
  simp only [Given.iface, List.map_append]
  rfl

/-- **And the inner one.** -/
lemma inner_eq (a : MultihopArgs) : (buildMultihopConfig a).inner = a.inner.text := by
  have hnone : (a.inner.params fun k => k.2.toList) = [] := rfl
  rw [buildMultihopConfig, Given.text, appLines_eq, toList_allowedIpsFor, keepalive_line]
  simp only [Given.iface, hnone, List.append_nil, List.map_append]
  rfl

end Texts

/-! ### What fits -/

/-- A value of one line, with no white space at its ends. -/
def OneLine (v : List Char) : Prop := '\n' ∉ v ∧ '\r' ∉ v ∧ Trim.trim Trim.isWhitespace v = v

/-- The parts between the commas are addresses for both readers, with nothing
but blanks around them, and not too many. -/
def FitDns (dns : List Char) : Prop :=
  (dns.splitOn ',').length ≤ maxDnsServers ∧ ∀ part ∈ dns.splitOn ',',
    (parseIpAddr (Trim.trim Mobile.Ios.isWhitespace part)).isSome = true ∧
      Mobile.Ios.isIpLiteral (Trim.trim Mobile.Ios.isWhitespace part) = true

instance (dns : List Char) : Decidable (FitDns dns) := inferInstanceAs (Decidable (_ ∧ _))

namespace Given

/-- The fields that every reader takes for what they are. -/
structure Fits (g : Given) : Prop where
  oneLine : ∀ s ∈ g.settings, OneLine s.2
  privateKey : ∃ key, IsKeyText g.privateKey key
  serverPubKey : ∃ key, IsKeyText g.serverPubKey key
  assignedIp : (parseIpAddr g.assignedIp).isSome = true
  endpoint : (parseSocketAddr g.endpoint).isSome = true
  routes : ∀ route ∈ g.routes, cidr (String.ofList route) = .ok ()
  dns : ∀ dns ∈ g.dns, FitDns dns
  obfs : ∀ k ∈ obfsConfKeys, ∀ v ∈ g.obfs k.1, obfsParam v = .ok ()

/-- The fields as the desktop keeps them. -/
def wgConfig (g : Given) : WgConfig where
  privateKeyB64 := g.privateKey
  address := g.assignedIp
  mtu := g.mtu.map Fin.val
  dns := g.dns
  peerPublicKeyB64 := g.serverPubKey
  endpoint := g.endpoint
  allowedIps := g.routes
  persistentKeepalive := 25
  obfs := g.params fun k => k.1.toList

/-- A key of the UAPI, and what it is set to. -/
def assign (key : String) (value : List Char) : List Char := key.toList ++ '=' :: value

/-- The lines that set a device up with the fields, and with the bytes of both
keys. -/
def uapiLines (g : Given) (priv peer : List UInt8) : List (List Char) :=
  [assign "set" ['1'], assign "private_key" (priv.flatMap hexByte)] ++
    (g.params fun k => k.1.toList).map (fun param => param.1 ++ '=' :: param.2) ++
    [assign "replace_peers" "true".toList, assign "public_key" (peer.flatMap hexByte),
      assign "endpoint" g.endpoint, assign "persistent_keepalive_interval" ['2', '5'],
      assign "replace_allowed_ips" "true".toList] ++
    g.routes.map (assign "allowed_ip")

end Given

/-! ### What is inside the fields -/

section Inside

/-- The characters of addresses are visible, and no comma is one. -/
lemma visible_of_isAddressChar {c : Char} (h : IsAddressChar c) :
    33 ≤ c.toNat ∧ c.toNat ≤ 126 ∧ c ≠ ',' := by
  rcases h with hdigit | hmem
  · have hrange : 48 ≤ c.toNat ∧ c.toNat ≤ 122 := by
      rw [toDigit, digitValue] at hdigit
      split at hdigit
      · rename_i hrange
        exact ⟨hrange.1, (show c.toNat ≤ 57 from hrange.2).trans (by decide)⟩
      · split at hdigit
        · rename_i hrange
          exact ⟨(by decide : 48 ≤ 97).trans hrange.1, hrange.2⟩
        · split at hdigit
          · rename_i hrange
            exact ⟨(by decide : 48 ≤ 65).trans hrange.1,
              (show c.toNat ≤ 90 from hrange.2).trans (by decide)⟩
          · cases hdigit
    refine ⟨by omega, by omega, ?_⟩
    rintro rfl
    exact absurd hrange.1 (by decide)
  · simp only [List.mem_cons, List.not_mem_nil, or_false] at hmem
    rcases hmem with rfl | rfl | rfl | rfl | rfl | rfl <;> decide

/-- White space is no part of an address. -/
lemma isWhitespace_of_isAddressChar {c : Char} (h : IsAddressChar c) :
    Trim.isWhitespace c = false :=
  Trim.isWhitespace_eq_false (visible_of_isAddressChar h).1 (visible_of_isAddressChar h).2.1

lemma isIpChar_of_parseIpAddr {t : List Char} (h : (parseIpAddr t).isSome = true) :
    ∀ c ∈ t, IsIpChar c := by
  obtain ⟨ip, hip⟩ := Option.isSome_iff_exists.mp h
  exact over_readIpAddr.whole hip

/-- A route is not empty, and has only the characters of addresses. -/
lemma of_cidr {route : List Char} (h : cidr (String.ofList route) = .ok ()) :
    route ≠ [] ∧ ∀ c ∈ route, IsAddressChar c := by
  refine ⟨?_, by simpa [Plain] using plain_of_address h⟩
  rintro rfl
  exact absurd h (by decide)

/-- The parts of a list of routes: all but the first follow a blank. -/
lemma splitOn_routes {routes : List (List Char)} (hne : routes ≠ [])
    (h : ∀ route ∈ routes, cidr (String.ofList route) = .ok ()) :
    ∃ first rest, routes = first :: rest ∧
      (List.intercalate [',', ' '] routes).splitOn ',' = first :: rest.map (' ' :: ·) := by
  obtain ⟨first, rest, rfl⟩ := List.exists_cons_of_ne_nil hne
  have hcomma : ∀ route ∈ first :: rest, ',' ∉ route := fun route hroute hmem =>
    (visible_of_isAddressChar ((of_cidr (h route hroute)).2 ',' hmem)).2.2 rfl
  refine ⟨first, rest, rfl, ?_⟩
  rw [Split.intercalate_comma_space, List.splitOn_intercalate ',' _ (List.cons_ne_nil _ _)]
  intro part hpart
  obtain rfl | hpart := List.mem_cons.mp hpart
  · exact hcomma _ List.mem_cons_self
  · obtain ⟨route, hroute, rfl⟩ := List.mem_map.mp hpart
    rw [List.mem_cons]
    rintro (hspace | hmem)
    · exact absurd hspace (by decide)
    · exact hcomma route (List.mem_cons_of_mem first hroute) hmem

/-- **A list of routes is read as it was written**, whatever a reader takes for
a blank. -/
lemma map_trim_routes {blank : Char → Bool} (hspace : blank ' ' = true)
    (hblank : ∀ c, blank c = true → Trim.isWhitespace c = true) {routes : List (List Char)}
    (hne : routes ≠ []) (h : ∀ route ∈ routes, cidr (String.ofList route) = .ok ()) :
    ((List.intercalate [',', ' '] routes).splitOn ',').map (Trim.trim blank) = routes := by
  obtain ⟨first, rest, rfl, hsplit⟩ := splitOn_routes hne h
  have htrim : ∀ route ∈ first :: rest, Trim.trim blank route = route := fun route hroute =>
    Trim.trim_of_forall fun c hc => by
      have hno := isWhitespace_of_isAddressChar ((of_cidr (h route hroute)).2 c hc)
      rw [← Bool.not_eq_true] at hno ⊢
      exact fun hc => hno (hblank c hc)
  have hrest : (rest.map (' ' :: ·)).map (Trim.trim blank) = rest := by
    rw [List.map_map]
    refine (List.map_congr_left fun route hroute => ?_).trans (List.map_id rest)
    exact (Trim.trim_append_left (List.forall_mem_singleton.mpr hspace) route).trans
      (htrim route (List.mem_cons_of_mem first hroute))
  rw [hsplit, List.map_cons, hrest, htrim first List.mem_cons_self]

end Inside

/-! ### What the clients choose -/

/-- **The routes of a compiled policy fit.** -/
lemma cidr_of_mem_routesFor {policy : Split.SplitPolicy} {ctx : Split.CompileSplitContext}
    {split : Split.CompiledSplit} (h : policy.Valid)
    (hsplit : Split.compileSplitPolicy policy ctx = .ok split) :
    ∀ route ∈ routesFor (some split), cidr (String.ofList route) = .ok () := by
  intro route hroute
  rw [routesFor] at hroute
  split at hroute
  · obtain rfl | hroute := List.mem_cons.mp hroute
    · decide
    · rw [List.mem_singleton.mp hroute]
      decide
  · obtain ⟨s, hs, rfl⟩ := List.mem_map.mp hroute
    obtain ⟨c, hc, rfl⟩ := (Split.compileSplitPolicy_tidy h hsplit).1.aligned s hs
    rw [String.ofList_toList]
    exact cidr_formatCidr hc

/-- **So do the resolvers of every choice but the default**, which leaves them to
the gateway. -/
lemma fitDns_dnsServersFor {choice : DnsChoice} (h : choice ≠ .cloudflare)
    (gatewayDns : List Char) : FitDns (dnsServersFor choice gatewayDns) := by
  rw [dnsServersFor, if_neg h]
  cases choice with
  | cloudflare => exact absurd rfl h
  | google => decide
  | quad9 => decide
  | dns4eu => decide
  | adguard => decide
  | family => decide

/-! ### The lines -/

section Lines

variable {g : Given} {s : Setting}

lemma isKey_of_mem (h : s ∈ g.settings) : IsKey s.1 := by
  have hoptional : ∀ (key : String) value, IsKey key.toList → s ∈ optional key value →
      IsKey s.1 := by
    intro key value hkey hmem
    obtain ⟨v, -, rfl⟩ := Option.map_eq_some_iff.mp (Option.mem_toList.mp hmem)
    exact hkey
  have hkeys : ∀ k ∈ obfsConfKeys, IsKey k.2.toList := by decide
  simp only [Given.settings, Given.iface, Given.peer, List.mem_append, List.mem_cons,
    List.not_mem_nil, or_false] at h
  obtain ((rfl | rfl) | h | h | h | h | h) | rfl | rfl | rfl | rfl := h
  · exact (by decide : IsKey "PrivateKey".toList)
  · exact (by decide : IsKey "Address".toList)
  · exact hoptional _ _ (by decide) h
  · exact hoptional _ _ (by decide) h
  · exact hoptional _ _ (by decide) h
  · exact hoptional _ _ (by decide) h
  · obtain ⟨k, hk, hv⟩ := List.mem_filterMap.mp h
    obtain ⟨v, -, rfl⟩ := Option.map_eq_some_iff.mp hv
    exact hkeys k hk
  · exact (by decide : IsKey "PublicKey".toList)
  · exact (by decide : IsKey "Endpoint".toList)
  · exact (by decide : IsKey "AllowedIPs".toList)
  · exact (by decide : IsKey "PersistentKeepalive".toList)

/-- The lines of the text. -/
lemma splitOn_text (h : ∀ s ∈ g.settings, '\n' ∉ s.2) : g.text.splitOn '\n' =
    sections "[Interface]".toList g.iface "[Peer]".toList g.peer := by
  rw [Given.text, confText, ← intercalate_sections]
  exact splitOn_sections (by decide) (by decide) fun s hs => ⟨isKey_of_mem hs, h s hs⟩

lemma mem_settings_params {k : String × String} {v : List Char} (hk : k ∈ obfsConfKeys)
    (hv : g.obfs k.1 = some v) : (k.2.toList, v) ∈ g.settings := by
  have hmem : (k.2.toList, v) ∈ g.params fun k => k.2.toList :=
    List.mem_filterMap.mpr ⟨k, hk, by rw [hv, Option.map_some]⟩
  simp only [Given.settings, Given.iface, List.mem_append]
  exact .inl (.inr (.inr (.inr (.inr (.inr hmem)))))

lemma mem_settings_endpoint (g : Given) : ("Endpoint".toList, g.endpoint) ∈ g.settings :=
  List.mem_append_right _ (List.mem_cons_of_mem _ List.mem_cons_self)

end Lines

end CumulusVpn.WgConf
