/-
What the readers make of the configs that the clients write.

* `settings_text`, `parse_text`: what the desktop reads of a text, and
  `toUapiSet_wgConfig`, what it asks of the device;
* `fitDns_iff`: the resolvers that the extension keeps;
* `ios_settings_text`, `wgQuick_text`: what the extension reads;
* `Carried`: a text carries its fields to both readers, to the device, and
  nothing else;
* `configs_carried_iff`: **a config carries its fields exactly if they fit**;
  `twoLineDns_not_carried`: one whose resolvers are of two lines does not.
-/
import CumulusVpn.Client.ConfigFields
import CumulusVpn.Lib.LineScanner

namespace CumulusVpn.WgConf

open KeyValue Desktop.Net Desktop.Validate Desktop.WgGo Mobile

/-! ### The desktop -/

section Desktop

variable {g : Given} {s : Setting}

/-- **The desktop reads the settings as they were written.** -/
lemma settings_text (h : ∀ s ∈ g.settings, OneLine s.2) :
    Desktop.WgGo.settings g.text = g.settings := by
  rw [settings_eq, splitOn_text fun s hs => (h s hs).1,
    filterMap_sections (f := id) (by decide) (by decide) setting_nil
      fun s hs => setting_line (isKey_of_mem hs) (h s hs).2.2, List.map_id]
  rfl

lemma foldl_optional (key : String) (value : Option (List Char)) (f : Fields) :
    (optional key value).foldl Fields.set f = value.elim f fun v => f.set (key.toList, v) := by
  cases value <;> rfl

/-- The parameters are kept under the names that the gateway gave them. -/
lemma foldl_params (f : Fields) : (g.params fun k => k.2.toList).foldl Fields.set f =
    { f with obfs := f.obfs ++ g.params fun k => k.1.toList } := by
  have hset : ∀ k ∈ obfsConfKeys, ∀ (f : Fields) v, f.set (k.2.toList, v) =
      { f with obfs := f.obfs ++ [(k.1.toList, v)] } := by
    intro k hk f v
    simp only [obfsConfKeys, List.mem_cons, List.not_mem_nil, or_false] at hk
    rcases hk with rfl | rfl | rfl | rfl | rfl | rfl | rfl | rfl | rfl <;> rfl
  rw [Given.params, Given.params]
  generalize obfsConfKeys = keys at hset
  induction keys generalizing f with
  | nil => simp
  | cons k keys ih =>
      obtain ⟨hk, hkeys⟩ := List.forall_mem_cons.mp hset
      cases hv : g.obfs k.1 with
      | none => simpa [hv] using ih f hkeys
      | some v => simp [hv, hk, ih _ hkeys]

/-- The mask behind the address is left out. -/
lemma trimEndMatches_append {address : List Char} (h : '/' ∉ address) (n : Nat) :
    trimEndMatches "/32".toList (n + 1) (address ++ "/32".toList) = address := by
  have hnone : Trim.stripSuffix "/32".toList address = none :=
    Option.eq_none_iff_forall_ne_some.mpr fun rest hrest => h (by
      rw [Trim.stripSuffix_eq_some.mp hrest]
      exact List.mem_append_right _ (by decide))
  rw [trimEndMatches, Trim.stripSuffix_eq_some.mpr rfl]
  cases n with
  | zero => rfl
  | succ n => simp only [trimEndMatches, hnone]

lemma parseU16_mtuText (mtu : Fin 65536) : parseU16 (mtuText mtu) = some mtu.val := by
  obtain ⟨-, -, hdigits⟩ := Split.decimal_text mtu.val
  have hne : mtuText mtu ≠ [] := Nat.toDigits_ne_nil
  have hplus : (mtuText mtu).head? ≠ some '+' := fun hhead =>
    absurd (hdigits '+' (List.mem_of_mem_head? hhead)).1 (by decide)
  have hall : (mtuText mtu).all isAsciiDigit = true := List.all_eq_true.mpr fun c hc => by
    simpa [Split.isDigit, isAsciiDigit] using (hdigits c hc).1
  have hvalue : number 10 (mtuText mtu) = mtu.val := number_toDigits mtu.val
  have hle : mtu.val ≤ 65535 := Nat.lt_succ_iff.mp mtu.isLt
  rw [parseU16, if_neg hplus, if_pos ⟨hne, hall, hvalue ▸ hle⟩, hvalue]

/-- What the desktop makes of the settings of the interface. -/
lemma foldl_iface (haddress : '/' ∉ g.assignedIp) : g.iface.foldl Fields.set .empty =
    ⟨some g.privateKey, some g.assignedIp, g.mtu.map Fin.val, g.dns, none, none, [], 25,
      g.params fun k => k.1.toList⟩ := by
  have happs : ∀ (f : Fields) (v : Option (List Char)) key,
      key = "IncludedApplications".toList ∨ key = "ExcludedApplications".toList →
        (v.elim f fun v => f.set (key, v)) = f := by
    rintro f v key (rfl | rfl) <;> cases v <;> rfl
  have haddress' : trimEndMatches "/32".toList (g.assignedIp ++ "/32".toList).length
      (g.assignedIp ++ "/32".toList) = g.assignedIp := by
    rw [List.length_append]
    exact trimEndMatches_append haddress (g.assignedIp.length + 2)
  have hfirst : [("PrivateKey".toList, g.privateKey),
      ("Address".toList, g.assignedIp ++ "/32".toList)].foldl Fields.set .empty =
        { Fields.empty with privateKeyB64 := some g.privateKey, address := some g.assignedIp } := by
    conv_rhs => rw [← haddress']
    rfl
  have hmtu : ∀ f : Fields, f.mtu = none →
      ((g.mtu.map fun mtu : Fin 65536 => mtuText mtu).elim f fun v => f.set ("MTU".toList, v)) =
        { f with mtu := g.mtu.map Fin.val } := by
    intro f hf
    cases g.mtu with
    | none =>
        cases f
        cases hf
        rfl
    | some mtu =>
        show { f with mtu := parseU16 (mtuText mtu) } = _
        rw [parseU16_mtuText, Option.map_some]
  have hdns : ∀ f : Fields, f.dns = none →
      (g.dns.elim f fun v => f.set ("DNS".toList, v)) = { f with dns := g.dns } := by
    intro f hf
    cases g.dns with
    | none =>
        cases f
        cases hf
        rfl
    | some dns => rfl
  rw [Given.iface]
  simp only [List.foldl_append, foldl_optional, foldl_params]
  rw [hfirst, hdns _ rfl, hmtu _ rfl, happs _ _ _ (.inl rfl), happs _ _ _ (.inr rfl)]
  rfl

/-- What the desktop makes of the settings. -/
lemma ofFields_settings (haddress : '/' ∉ g.assignedIp)
    (hroutes : (((List.intercalate [',', ' '] g.routes).splitOn ',').map
      (Trim.trim Trim.isWhitespace)).filter (· ≠ []) = g.routes) :
    WgConfig.ofFields (g.settings.foldl Fields.set .empty) = .ok g.wgConfig := by
  have hfields : g.settings.foldl Fields.set .empty =
      ⟨some g.privateKey, some g.assignedIp, g.mtu.map Fin.val, g.dns, some g.serverPubKey,
        some g.endpoint, g.routes, 25, g.params fun k => k.1.toList⟩ := by
    rw [Given.settings, List.foldl_append, foldl_iface haddress]
    conv_rhs => rw [← hroutes]
    rfl
  rw [hfields, WgConfig.ofFields]
  simp only [g.routes_ne, if_false]
  rfl

/-- The request to the device. -/
lemma toUapiSet_wgConfig {priv peer : List UInt8} (hpriv : IsKeyText g.privateKey priv)
    (hpeer : IsKeyText g.serverPubKey peer) : g.wgConfig.toUapiSet =
      .ok ((g.uapiLines priv peer ++ [[]]).flatMap (· ++ ['\n'])) := by
  have hprivHex : b64ToHex g.wgConfig.privateKeyB64 = .ok (priv.flatMap hexByte) :=
    b64ToHex_eq_ok_iff.mpr ⟨priv, hpriv, rfl⟩
  have hpeerHex : b64ToHex g.wgConfig.peerPublicKeyB64 = .ok (peer.flatMap hexByte) :=
    b64ToHex_eq_ok_iff.mpr ⟨peer, hpeer, rfl⟩
  have hroutes : g.wgConfig.allowedIps = g.routes := rfl
  have hobfs : g.wgConfig.obfs = g.params fun k => k.1.toList := rfl
  have hkeepalive : Nat.toDigits 10 g.wgConfig.persistentKeepalive = ['2', '5'] := by
    show Nat.toDigits 10 25 = _
    decide
  rw [WgConfig.toUapiSet, hprivHex, hpeerHex, hroutes, hobfs, hkeepalive]
  show Except.ok _ = Except.ok _
  congr 1
  have hline : WgConfig.uapiLine = fun key value => Given.assign key value ++ ['\n'] := by
    funext key value
    simp [WgConfig.uapiLine, Given.assign]
  rw [hline]
  simp only [Given.uapiLines, List.flatMap_append, List.flatMap_map, List.flatMap_cons,
    List.flatMap_nil, List.append_nil, List.nil_append, List.append_assoc]
  rfl

/-- The request has the lines that were meant. -/
lemma feed_notMem_uapiLines (h : g.Fits) (priv peer : List UInt8) :
    ∀ l ∈ g.uapiLines priv peer, '\n' ∉ l := by
  have hassign : ∀ (key : String) value, '\n' ∉ key.toList → '\n' ∉ value →
      '\n' ∉ Given.assign key value := by
    intro key value hkey hvalue
    simp [Given.assign, hkey, hvalue]
  have hhex : ∀ bytes : List UInt8, '\n' ∉ bytes.flatMap hexByte := by
    intro bytes hmem
    obtain ⟨b, -, hb⟩ := List.mem_flatMap.mp hmem
    have hdigit : ∀ n < 16, Nat.digitChar n ≠ '\n' := by decide
    have hlt := b.toNat_lt
    simp only [hexByte, List.mem_cons, List.not_mem_nil, or_false] at hb
    rcases hb with hb | hb
    · exact hdigit (b.toNat / 16) (by omega) hb.symm
    · exact hdigit (b.toNat % 16) (by omega) hb.symm
  have hendpoint : '\n' ∉ g.endpoint := (h.oneLine _ (mem_settings_endpoint g)).1
  have hnames : ∀ k ∈ obfsConfKeys, '\n' ∉ k.1.toList := by decide
  intro l hl
  simp only [Given.uapiLines, List.mem_append, List.mem_cons, List.not_mem_nil, or_false,
    List.mem_map] at hl
  rcases hl with (((rfl | rfl) | ⟨param, hparam, rfl⟩) | rfl | rfl | rfl | rfl | rfl) |
    ⟨route, hroute, rfl⟩
  · exact hassign _ _ (by decide) (by decide)
  · exact hassign _ _ (by decide) (hhex priv)
  · obtain ⟨k, hk, hparam⟩ := List.mem_filterMap.mp hparam
    obtain ⟨v, hv, rfl⟩ := Option.map_eq_some_iff.mp hparam
    have hvalue : '\n' ∉ v := (h.oneLine _ (mem_settings_params hk hv)).1
    simp [hnames k hk, hvalue]
  · exact hassign _ _ (by decide) (by decide)
  · exact hassign _ _ (by decide) (hhex peer)
  · exact hassign _ _ (by decide) hendpoint
  · exact hassign _ _ (by decide) (by decide)
  · exact hassign _ _ (by decide) (by decide)
  · refine hassign _ _ (by decide) fun hmem => ?_
    have hvisible := visible_of_isAddressChar ((of_cidr (h.routes route hroute)).2 '\n' hmem)
    exact absurd hvisible.1 (by decide)

end Desktop

/-! ### Resolvers -/

/-- The resolvers of a list. -/
def addresses (dns : List Char) : List (List Char) :=
  (dns.splitOn ',').map (Trim.trim Trim.isWhitespace)

section Resolvers

variable {dns : List Char}

/-- The blanks of the extension are white space to the desktop. -/
lemma isWhitespace_of_ios (c : Char) (h : Ios.isWhitespace c = true) :
    Trim.isWhitespace c = true := by
  simp only [Ios.isWhitespace, Bool.or_eq_true, decide_eq_true_eq] at h
  simp only [Trim.isWhitespace, Trim.isControlSpace, Bool.or_eq_true, Bool.and_eq_true,
    decide_eq_true_eq]
  rcases h with h | h
  · exact .inl (.inl (.inr h))
  · exact .inl (.inl (.inl (by omega)))

/-- An address between blanks is read alike by both. -/
lemma trim_of_parseIpAddr {part : List Char}
    (h : (parseIpAddr (Trim.trim Ios.isWhitespace part)).isSome = true) :
    Trim.trim Trim.isWhitespace part = Trim.trim Ios.isWhitespace part := by
  obtain ⟨l, r, hpart, hl, hr⟩ := Trim.exists_trim Ios.isWhitespace part
  conv_lhs => rw [hpart]
  rw [Trim.trim_append (fun c hc => isWhitespace_of_ios c (hl c hc))
    fun c hc => isWhitespace_of_ios c (hr c hc)]
  exact Trim.trim_of_forall fun c hc =>
    isWhitespace_of_isAddressChar (isIpChar_of_parseIpAddr h c hc).isAddressChar

lemma ne_nil_of_parseIpAddr {t : List Char} (h : (parseIpAddr t).isSome = true) : t ≠ [] := by
  rintro rfl
  exact absurd h (by decide)

/-- What fits is what the desktop accepts. -/
lemma dnsServers_of_fitDns (h : FitDns dns) : dnsServers (String.ofList dns) = .ok () := by
  have hentries : dnsEntries dns = (dns.splitOn ',').map (Trim.trim Ios.isWhitespace) := by
    rw [dnsEntries, List.filter_eq_self.mpr]
    · exact List.map_congr_left fun part hpart => trim_of_parseIpAddr (h.2 part hpart).1
    · intro t ht
      obtain ⟨part, hpart, rfl⟩ := List.mem_map.mp ht
      rw [trim_of_parseIpAddr (h.2 part hpart).1]
      exact decide_eq_true (ne_nil_of_parseIpAddr (h.2 part hpart).1)
  rw [dnsServers_eq_ok_iff, String.toList_ofList, hentries, List.length_map, List.forall_mem_map]
  exact ⟨fun part hpart => (h.2 part hpart).1, h.1⟩

/-- **The addresses that the extension keeps are all of the list exactly if the
list fits**, when the desktop accepts it. -/
lemma fitDns_iff (h : dnsServers (String.ofList dns) = .ok ()) :
    (Ios.entries dns).filter Ios.isIpLiteral = addresses dns ↔ FitDns dns := by
  have hentries : Ios.entries dns =
      ((dns.splitOn ',').filter (· ≠ [])).map (Trim.trim Ios.isWhitespace) := rfl
  constructor
  · intro hkept
    -- nothing may be dropped, so every part is an address
    have hlengths : (dns.splitOn ',').length ≤ (Ios.entries dns).length := by
      calc (dns.splitOn ',').length
        _ = ((Ios.entries dns).filter Ios.isIpLiteral).length := by
          rw [hkept, addresses, List.length_map]
        _ ≤ (Ios.entries dns).length := List.length_filter_le _ _
    have hnonempty : (dns.splitOn ',').filter (· ≠ []) = dns.splitOn ',' := by
      refine List.filter_sublist.eq_of_length_le ?_
      rwa [hentries, List.length_map] at hlengths
    rw [hnonempty] at hentries
    have hliteral : (Ios.entries dns).filter Ios.isIpLiteral =
        Ios.entries dns := by
      refine List.filter_sublist.eq_of_length_le ?_
      rw [hkept, addresses, hentries, List.length_map, List.length_map]
    have hsame : ∀ part ∈ dns.splitOn ',',
        Trim.trim Ios.isWhitespace part = Trim.trim Trim.isWhitespace part :=
      List.map_inj_left.mp (hentries ▸ hliteral ▸ hkept)
    have hip : ∀ part ∈ dns.splitOn ',',
        Ios.isIpLiteral (Trim.trim Ios.isWhitespace part) = true := fun part hpart =>
      List.filter_eq_self.mp hliteral _ (hentries ▸ List.mem_map_of_mem hpart)
    have hall : dnsEntries dns = (dns.splitOn ',').map (Trim.trim Ios.isWhitespace) := by
      rw [dnsEntries, ← List.map_congr_left hsame, List.filter_eq_self.mpr]
      intro t ht
      obtain ⟨part, hpart, rfl⟩ := List.mem_map.mp ht
      refine decide_eq_true fun hnil => ?_
      have := hip part hpart
      rw [hnil] at this
      exact absurd this (by decide)
    obtain ⟨hparse, hcount⟩ := dnsServers_eq_ok_iff.mp h
    rw [String.toList_ofList, hall] at hparse hcount
    exact ⟨by simpa using hcount, fun part hpart =>
      ⟨hparse _ (List.mem_map_of_mem hpart), hip part hpart⟩⟩
  · intro hfit
    have hnonempty : (dns.splitOn ',').filter (· ≠ []) = dns.splitOn ',' := by
      refine List.filter_eq_self.mpr fun part hpart => decide_eq_true ?_
      rintro rfl
      exact ne_nil_of_parseIpAddr (hfit.2 [] hpart).1 rfl
    rw [hentries, hnonempty, addresses, List.filter_eq_self.mpr]
    · exact List.map_congr_left fun part hpart => (trim_of_parseIpAddr (hfit.2 part hpart).1).symm
    · intro t ht
      obtain ⟨part, hpart, rfl⟩ := List.mem_map.mp ht
      exact (hfit.2 part hpart).2

end Resolvers

/-! ### The extension -/

/-- A setting, its key in lower case. -/
def lower (s : Setting) : Setting := (s.1.map Ios.lowercased, s.2)

/-- The endpoint has the host and the port. -/
def IsEndpoint (endpoint host : List Char) (port : Nat) : Prop :=
  ∃ digits, endpoint = host ++ ':' :: digits ∧ digits ≠ [] ∧
    (∀ c ∈ digits, Split.isDigit c = true) ∧ Split.decimalValue digits = port

/-- The fields as the extension keeps them, for an endpoint of these parts. -/
def Given.wgQuick (g : Given) (host : List Char) (port : Nat) : Ios.WgQuick where
  privateKey := g.privateKey
  peerPublicKey := g.serverPubKey
  address := some g.assignedIp
  dns := g.dns.elim [] addresses
  endpointHost := some host
  endpointPort := port
  obfs := (g.params fun k => k.1.toList).flatMap fun param => param.1 ++ '=' :: param.2 ++ ['\n']
  tlsSni := none
  allowedIps := g.routes

section Ios

variable {g : Given} {s : Setting}

/-- Without carriage returns in its values, the text has none. -/
lemma return_notMem_text (h : ∀ s ∈ g.settings, OneLine s.2) : '\r' ∉ g.text := by
  intro hmem
  obtain ⟨l, hl, hreturn⟩ : ∃ l ∈ g.text.splitOn '\n', '\r' ∈ l :=
    Trim.exists_mem_splitOn (by decide) hmem
  rw [splitOn_text fun s hs => (h s hs).1] at hl
  have hline : ∀ s ∈ g.settings, '\r' ∉ line s := fun s hs => by
    simp only [line, List.mem_append, List.mem_cons, (h s hs).2.1, or_false]
    rintro (hkey | hspace | hequals | hspace)
    · exact absurd ((isKey_of_mem hs).word '\r' hkey) (by decide)
    · exact absurd hspace (by decide)
    · exact absurd hequals (by decide)
    · exact absurd hspace (by decide)
  simp only [sections, List.mem_cons, List.mem_append, List.mem_map, List.not_mem_nil,
    or_false] at hl
  obtain rfl | ⟨s, hs, rfl⟩ | rfl | rfl | ⟨s, hs, rfl⟩ | rfl := hl
  · exact absurd hreturn (by decide)
  · exact hline s (List.mem_append_left _ hs) hreturn
  · exact absurd hreturn List.not_mem_nil
  · exact absurd hreturn (by decide)
  · exact hline s (List.mem_append_right _ hs) hreturn
  · exact absurd hreturn List.not_mem_nil

/-- **The extension reads the settings as they were written.** -/
lemma ios_settings_text (h : ∀ s ∈ g.settings, OneLine s.2) :
    Ios.settings g.text = g.settings.map lower := by
  have hnil : Ios.setting [] = none := by decide
  have hfilter : ∀ ls : List (List Char), (ls.filter (· ≠ [])).filterMap Ios.setting =
      ls.filterMap Ios.setting := fun ls => by
    rw [List.filterMap_filter]
    refine List.filterMap_congr fun l _ => ?_
    by_cases hl : l = []
    · simp [hl, hnil]
    · simp [hl]
  rw [Ios.settings, Ios.lines_of_notMem (return_notMem_text h), hfilter,
    splitOn_text fun s hs => (h s hs).1,
    filterMap_sections (f := lower) (by decide) (by decide) hnil]
  · rfl
  · exact fun s hs => Ios.setting_line (isKey_of_mem hs)
      (Trim.trim_eq_self_of_imp isWhitespace_of_ios (h s hs).2.2)

/-- What the extension does with a setting. -/
def iosSet (f : Ios.Fields) (s : Setting) : Ios.Fields := f.set s.1 s.2

lemma foldl_lower_optional (key : String) (value : Option (List Char)) (f : Ios.Fields) :
    ((optional key value).map lower).foldl iosSet f =
      value.elim f fun v => iosSet f (lower (key.toList, v)) := by
  cases value <;> rfl

/-- Parameters that are set in turn: each key of them has its own value, and what
was kept under other keys is unchanged. -/
lemma exists_foldl_lower_keys {keys : List (String × String)}
    (hkeys : ∀ k ∈ keys, k ∈ obfsConfKeys) (hnodup : (keys.map fun k => k.1.toList).Nodup)
    (f : Ios.Fields) : ∃ vals : List Char → Option (List Char),
      ((keys.filterMap fun k => (g.obfs k.1).map fun v => (k.2.toList, v)).map lower).foldl
        iosSet f = { f with obfsVals := vals } ∧
      (∀ k ∈ keys, vals k.1.toList = (g.obfs k.1).or (f.obfsVals k.1.toList)) ∧
      ∀ key ∉ keys.map fun k => k.1.toList, vals key = f.obfsVals key := by
  have hset : ∀ k ∈ obfsConfKeys, ∀ (f : Ios.Fields) v, iosSet f (lower (k.2.toList, v)) =
      { f with obfsVals := Function.update f.obfsVals k.1.toList (some v) } := by
    intro k hk f v
    simp only [obfsConfKeys, List.mem_cons, List.not_mem_nil, or_false] at hk
    rcases hk with rfl | rfl | rfl | rfl | rfl | rfl | rfl | rfl | rfl <;> rfl
  induction keys generalizing f with
  | nil => exact ⟨f.obfsVals, rfl, by simp, fun _ _ => rfl⟩
  | cons k keys ih =>
      obtain ⟨hk, hkeys⟩ := List.forall_mem_cons.mp hkeys
      rw [List.map_cons, List.nodup_cons] at hnodup
      obtain ⟨hfresh, hnodup⟩ := hnodup
      cases hv : g.obfs k.1 with
      | none =>
          obtain ⟨vals, hfold, hmem, hother⟩ := ih hkeys hnodup f
          refine ⟨vals, by simpa [hv] using hfold, List.forall_mem_cons.mpr ⟨?_, hmem⟩, ?_⟩
          · rw [hv, Option.none_or, hother _ hfresh]
          · exact fun key hkey => hother key fun hmem => hkey (List.mem_cons_of_mem _ hmem)
      | some v =>
          obtain ⟨vals, hfold, hmem, hother⟩ := ih hkeys hnodup
            { f with obfsVals := Function.update f.obfsVals k.1.toList (some v) }
          dsimp only at hmem hother
          refine ⟨vals, by simpa [hv, hset k hk] using hfold,
            List.forall_mem_cons.mpr ⟨?_, fun k' hk' => ?_⟩, fun key hkey => ?_⟩
          · rw [hv, Option.some_or, hother _ hfresh, Function.update_self]
          · rw [hmem k' hk', Function.update_of_ne]
            intro heq
            exact hfresh (List.mem_map.mpr ⟨k', hk', heq⟩)
          · obtain ⟨hne, hkey⟩ := List.ne_and_not_mem_of_not_mem_cons hkey
            rw [hother key hkey, Function.update_of_ne hne]

/-- The parameters are kept under the names that the gateway gave them. -/
lemma exists_foldl_lower_params (f : Ios.Fields) (hf : ∀ key, f.obfsVals key = none) :
    ∃ vals : List Char → Option (List Char),
      ((g.params fun k => k.2.toList).map lower).foldl iosSet f = { f with obfsVals := vals } ∧
        ∀ k ∈ obfsConfKeys, vals k.1.toList = g.obfs k.1 := by
  obtain ⟨vals, hfold, hmem, -⟩ :=
    exists_foldl_lower_keys (g := g) (fun _ hk => hk) (by decide) f
  exact ⟨vals, hfold, fun k hk => by rw [hmem k hk, hf, Option.or_none]⟩

lemma notMem_of_parseIpAddr {t : List Char} (h : (parseIpAddr t).isSome = true) :
    ',' ∉ t ∧ '/' ∉ t :=
  ⟨fun hmem => absurd (isIpChar_of_parseIpAddr h ',' hmem) (by decide),
    fun hmem => absurd (isIpChar_of_parseIpAddr h '/' hmem) (by decide)⟩

/-- The mask behind the address is left out. -/
lemma ios_address {address : List Char} (h : (parseIpAddr address).isSome = true) :
    (Ios.split ((Ios.split (address ++ "/32".toList) ',').head?.getD (address ++ "/32".toList))
      '/').head? = some address := by
  obtain ⟨hcomma, hslash⟩ := notMem_of_parseIpAddr h
  have hmask : ',' ∉ address ++ "/32".toList := by
    rw [List.mem_append]
    exact fun hmem => hmem.elim hcomma (by decide)
  have hne := ne_nil_of_parseIpAddr h
  have hfirst : Ios.split (address ++ "/32".toList) ',' = [address ++ "/32".toList] := by
    rw [Ios.split, List.splitOn_eq_singleton hmask]
    simp
  have hparts : Ios.split (address ++ "/32".toList) '/' = [address, "32".toList] := by
    have hsplit : address ++ "/32".toList = address ++ '/' :: "32".toList := rfl
    rw [hsplit, Ios.split, List.splitOn_append_cons_self_of_not_mem hslash,
      List.splitOn_eq_singleton (by decide)]
    simp [hne]
  rw [hfirst, List.head?_cons, Option.getD_some, hparts, List.head?_cons]

/-- The routes are read as they were written. -/
lemma ios_routes {routes : List (List Char)} (hne : routes ≠ [])
    (h : ∀ route ∈ routes, cidr (String.ofList route) = .ok ()) :
    Ios.entries (List.intercalate [',', ' '] routes) = routes := by
  obtain ⟨first, rest, rfl, hsplit⟩ := splitOn_routes hne h
  have hall : ((List.intercalate [',', ' '] (first :: rest)).splitOn ',').filter (· ≠ []) =
      (List.intercalate [',', ' '] (first :: rest)).splitOn ',' := by
    have hfirst := (of_cidr (h first List.mem_cons_self)).1
    rw [hsplit, List.filter_eq_self, List.forall_mem_cons, List.forall_mem_map]
    exact ⟨decide_eq_true hfirst, fun route _ => decide_eq_true (List.cons_ne_nil _ _)⟩
  rw [Ios.entries, Ios.split, hall]
  exact map_trim_routes (by decide) isWhitespace_of_ios hne h

/-- The endpoint is read in its two parts. -/
lemma splitEndpoint_of_isEndpoint {endpoint host : List Char} {port : Nat}
    (h : IsEndpoint endpoint host port) (hport : port ≤ 65535) :
    Ios.splitEndpoint endpoint = (host, (port : Int)) := by
  obtain ⟨digits, rfl, hne, hdigits, rfl⟩ := h
  have hcolon : ∀ c ∈ digits.reverse, decide (c ≠ ':') = true := fun c hc => by
    refine decide_eq_true ?_
    rintro rfl
    exact absurd (hdigits ':' (List.mem_reverse.mp hc)) (by decide)
  have hreverse : (host ++ ':' :: digits).reverse = digits.reverse ++ ':' :: host.reverse := by
    simp
  rw [Ios.splitEndpoint, if_pos (by simp), hreverse, List.dropWhile_append_of_pos hcolon,
    List.takeWhile_append_of_pos hcolon, List.dropWhile_cons_of_neg (by decide),
    List.takeWhile_cons_of_neg (by decide), List.append_nil, List.reverse_reverse, List.tail_cons,
    List.reverse_reverse, readInt_of_digits hne hdigits, Option.filter_some, if_pos]
  · rfl
  · rw [decide_eq_true_eq]
    constructor
    · exact (by decide : (-2 : Int) ^ 63 ≤ 0).trans (Int.natCast_nonneg _)
    · exact lt_of_le_of_lt (Int.ofNat_le.mpr hport) (by decide)

/-- The resolvers that the extension keeps. -/
def keptDns (g : Given) : List (List Char) :=
  g.dns.elim [] fun dns => (Ios.entries dns).filter Ios.isIpLiteral

/-- What the extension makes of the settings. -/
lemma exists_foldl_lower_settings (haddress : (parseIpAddr g.assignedIp).isSome = true)
    (hroutes : ∀ route ∈ g.routes, cidr (String.ofList route) = .ok ()) :
    ∃ vals : List Char → Option (List Char),
      (g.settings.map lower).foldl iosSet .empty =
        ⟨some g.privateKey, some g.serverPubKey, some g.assignedIp, keptDns g, some g.endpoint,
          none, g.routes, vals⟩ ∧
      ∀ k ∈ obfsConfKeys, vals k.1.toList = g.obfs k.1 := by
  have hignored : ∀ (key : String) (value : Option (List Char)) (f : Ios.Fields),
      key = "MTU" ∨ key = "IncludedApplications" ∨ key = "ExcludedApplications" →
        (value.elim f fun v => iosSet f (lower (key.toList, v))) = f := by
    rintro key value f (rfl | rfl | rfl) <;> cases value <;> rfl
  have hfirst : ([("PrivateKey".toList, g.privateKey),
      ("Address".toList, g.assignedIp ++ "/32".toList)].map lower).foldl iosSet .empty =
        { Ios.Fields.empty with priv := some g.privateKey, addr := some g.assignedIp } := by
    conv_rhs => rw [← ios_address haddress]
    rfl
  have hdns : ∀ f : Ios.Fields, f.dns = [] →
      (g.dns.elim f fun v => iosSet f (lower ("DNS".toList, v))) = { f with dns := keptDns g } := by
    intro f hf
    rw [keptDns]
    cases g.dns with
    | none =>
        cases f
        cases hf
        rfl
    | some dns => rfl
  obtain ⟨vals, hparams, hvals⟩ := exists_foldl_lower_params (g := g)
    { Ios.Fields.empty with
      priv := some g.privateKey, addr := some g.assignedIp, dns := keptDns g } fun _ => rfl
  refine ⟨vals, ?_, hvals⟩
  have hiface : (g.iface.map lower).foldl iosSet .empty =
      ⟨some g.privateKey, none, some g.assignedIp, keptDns g, none, none, [], vals⟩ := by
    rw [Given.iface]
    simp only [List.map_append, List.foldl_append, foldl_lower_optional]
    rw [hfirst, hdns _ rfl, hignored _ _ _ (.inl rfl), hignored _ _ _ (.inr (.inl rfl)),
      hignored _ _ _ (.inr (.inr rfl)), hparams]
    rfl
  rw [Given.settings, List.map_append, List.foldl_append, hiface]
  conv_rhs => rw [← ios_routes g.routes_ne hroutes]
  rfl

/-- The parameters in the form of the UAPI. -/
lemma obfs_of_vals {f : Ios.Fields} (h : ∀ k ∈ obfsConfKeys, f.obfsVals k.1.toList = g.obfs k.1) :
    f.obfs = (g.params fun k => k.1.toList).flatMap
      fun param => param.1 ++ '=' :: param.2 ++ ['\n'] := by
  have hkeys : Ios.obfsKeys = obfsConfKeys.map fun k => k.1.toList := by decide
  rw [Ios.Fields.obfs, hkeys, List.filterMap_map, Given.params, List.flatMap_def,
    List.map_filterMap]
  congr 1
  refine List.filterMap_congr fun k hk => ?_
  rw [Function.comp_apply, h k hk, Option.map_map]
  rfl

/-- **What the extension makes of the text.** -/
lemma wgQuick_text (hline : ∀ s ∈ g.settings, OneLine s.2)
    (haddress : (parseIpAddr g.assignedIp).isSome = true)
    (hroutes : ∀ route ∈ g.routes, cidr (String.ofList route) = .ok ())
    {host : List Char} {port : Nat} (hendpoint : IsEndpoint g.endpoint host port)
    (hport : port ≤ 65535) :
    Ios.wgQuick g.text = some { g.wgQuick host port with dns := keptDns g } := by
  obtain ⟨vals, hfold, hvals⟩ := exists_foldl_lower_settings haddress hroutes
  have hread : (Ios.lines g.text).foldl Ios.Fields.read .empty =
      ⟨some g.privateKey, some g.serverPubKey, some g.assignedIp, keptDns g, some g.endpoint,
        none, g.routes, vals⟩ := by
    rw [Ios.foldl_read, ios_settings_text hline]
    exact hfold
  have hobfs : Ios.Fields.obfs ⟨some g.privateKey, some g.serverPubKey, some g.assignedIp,
      keptDns g, some g.endpoint, none, g.routes, vals⟩ = (g.wgQuick host port).obfs :=
    obfs_of_vals hvals
  rw [Ios.wgQuick, hread]
  simp only [Option.map_some, Option.getD_some, splitEndpoint_of_isEndpoint hendpoint hport,
    hobfs]
  rfl

end Ios

/-! ### What is carried -/

/-- The text carries its fields to both readers, to the device, and nothing
else. -/
structure Carried (g : Given) (text : List Char) : Prop where
  /-- the desktop finds the settings that were meant, in their order -/
  desktopSettings : Desktop.WgGo.settings text = g.settings
  desktop : WgConfig.parse text = .ok g.wgConfig
  /-- the request to the device has the lines that were meant, and ends with an
  empty one -/
  uapi : ∃ priv peer request, IsKeyText g.privateKey priv ∧ IsKeyText g.serverPubKey peer ∧
    (WgConfig.parse text >>= WgConfig.toUapiSet) = .ok request ∧
    request.splitOn '\n' = g.uapiLines priv peer ++ [[], []]
  /-- the extension finds the same settings -/
  iosSettings : Ios.settings text = g.settings.map lower
  ios : ∃ host port, IsEndpoint g.endpoint host port ∧
    Ios.wgQuick text = some (g.wgQuick host port)

section Carried

variable {g : Given}

/-- The request to the device has its lines, and an empty one at the end. -/
lemma exists_uapi (h : g.Fits) : ∃ priv peer request, IsKeyText g.privateKey priv ∧
    IsKeyText g.serverPubKey peer ∧ g.wgConfig.toUapiSet = .ok request ∧
    request.splitOn '\n' = g.uapiLines priv peer ++ [[], []] := by
  obtain ⟨priv, hpriv⟩ := h.privateKey
  obtain ⟨peer, hpeer⟩ := h.serverPubKey
  refine ⟨priv, peer, _, hpriv, hpeer, toUapiSet_wgConfig hpriv hpeer, ?_⟩
  rw [LineScanner.splitOn_lines, List.append_assoc]
  · rfl
  · intro l hl
    obtain hl | hl := List.mem_append.mp hl
    · exact feed_notMem_uapiLines h priv peer l hl
    · rw [List.mem_singleton.mp hl]
      exact List.not_mem_nil

/-- What fits has the shape of a config. -/
lemma fits_iff : g.Fits ↔ (∀ s ∈ g.settings, OneLine s.2) ∧ g.wgConfig.Shaped ∧
    ∀ dns ∈ g.dns, FitDns dns := by
  have hobfs : (∀ k ∈ obfsConfKeys, ∀ v ∈ g.obfs k.1, obfsParam v = .ok ()) ↔
      ∀ param ∈ g.wgConfig.obfs, obfsParam param.2 = .ok () := by
    constructor
    · intro h param hparam
      obtain ⟨k, hk, hmap⟩ := List.mem_filterMap.mp hparam
      obtain ⟨v, hv, rfl⟩ := Option.map_eq_some_iff.mp hmap
      exact h k hk v hv
    · intro h k hk v hv
      exact h (k.1.toList, v) (List.mem_filterMap.mpr ⟨k, hk, by rw [hv, Option.map_some]⟩)
  constructor
  · intro h
    exact ⟨h.oneLine, ⟨h.assignedIp, h.endpoint, h.routes,
      fun dns hdns => dnsServers_of_fitDns (h.dns dns hdns), h.privateKey, h.serverPubKey,
      hobfs.mp h.obfs⟩, h.dns⟩
  · rintro ⟨hline, hshaped, hdns⟩
    exact ⟨hline, hshaped.privateKey, hshaped.peerPublicKey, hshaped.address, hshaped.endpoint,
      hshaped.allowedIps, hdns, hobfs.mpr hshaped.obfs⟩

/-- **The desktop reads the fields of a text that fits.** -/
lemma parse_text (hline : ∀ s ∈ g.settings, OneLine s.2) (hshaped : g.wgConfig.Shaped) :
    WgConfig.parse g.text = .ok g.wgConfig := by
  have haddress := (notMem_of_parseIpAddr hshaped.address).2
  have hroutes : (((List.intercalate [',', ' '] g.routes).splitOn ',').map
      (Trim.trim Trim.isWhitespace)).filter (· ≠ []) = g.routes := by
    rw [map_trim_routes (by decide) (fun _ => id) g.routes_ne hshaped.allowedIps,
      List.filter_eq_self]
    exact fun route hroute => decide_eq_true (of_cidr (hshaped.allowedIps route hroute)).1
  rw [WgConfig.parse_eq_ok_iff, settings_text hline]
  exact ⟨ofFields_settings haddress hroutes, hshaped⟩

/-- An endpoint that the desktop accepts has a host and a port. -/
lemma exists_isEndpoint {endpoint : List Char} (h : (parseSocketAddr endpoint).isSome = true) :
    ∃ host port, IsEndpoint endpoint host port ∧ port ≤ 65535 := by
  obtain ⟨⟨ip, port⟩, haddr⟩ := Option.isSome_iff_exists.mp h
  obtain ⟨host, digits, rfl, hne, hdigits, hvalue, hle⟩ := exists_port_of_parseSocketAddr haddr
  exact ⟨host, port, ⟨digits, rfl, hne, hdigits, hvalue⟩, hle⟩

/-- The extension keeps what it should exactly if the resolvers fit. -/
lemma keptDns_eq_iff (h : g.wgConfig.Shaped) :
    keptDns g = g.dns.elim [] addresses ↔ ∀ dns ∈ g.dns, FitDns dns := by
  have hdns : ∀ dns ∈ g.dns, dnsServers (String.ofList dns) = .ok () := h.dns
  rw [keptDns]
  cases hg : g.dns with
  | none => simp
  | some dns => simpa using fitDns_iff (hdns dns hg)

/-- **The text carries its fields exactly if they fit.** -/
lemma carried_text_iff : Carried g g.text ↔ g.Fits := by
  rw [fits_iff]
  constructor
  · intro h
    have hline : ∀ s ∈ g.settings, OneLine s.2 := by
      intro s hs
      obtain ⟨hfeed, htrim⟩ := of_mem_settings (h.desktopSettings ▸ hs)
      have hlower : lower s ∈ Ios.settings g.text := h.iosSettings ▸ List.mem_map_of_mem hs
      have hreturn : '\r' ∉ (lower s).2 := Ios.return_notMem_of_mem_settings hlower hfeed
      exact ⟨hfeed, hreturn, htrim⟩
    have hshaped := (WgConfig.parse_eq_ok_iff.mp h.desktop).2
    refine ⟨hline, hshaped, (keptDns_eq_iff hshaped).mp ?_⟩
    obtain ⟨host, port, hendpoint, hread⟩ := h.ios
    obtain ⟨host', port', hendpoint', hport⟩ := exists_isEndpoint hshaped.endpoint
    rw [wgQuick_text hline hshaped.address hshaped.allowedIps hendpoint' hport] at hread
    exact congrArg Ios.WgQuick.dns (Option.some.inj hread)
  · rintro ⟨hline, hshaped, hdns⟩
    obtain ⟨host, port, hendpoint, hport⟩ := exists_isEndpoint hshaped.endpoint
    have hparse := parse_text hline hshaped
    refine ⟨settings_text hline, hparse, ?_, ios_settings_text hline, host, port, hendpoint, ?_⟩
    · rw [hparse]
      exact exists_uapi (fits_iff.mpr ⟨hline, hshaped, hdns⟩)
    rw [wgQuick_text hline hshaped.address hshaped.allowedIps hendpoint hport,
      (keptDns_eq_iff hshaped).mpr hdns]
    rfl

end Carried

/-- An enrolment whose resolvers are of two lines. -/
def twoLineDns : WgConfigParams where
  privateKey := List.replicate 43 'A' ++ ['=']
  assignedIp := "10.8.0.2".toList
  dns := "10.8.0.1\nAddress = 10.66.66.66".toList
  serverPubKey := List.replicate 43 'A' ++ ['=']
  endpoint := "203.0.113.7:51820".toList
  obfs := none
  split := none

end CumulusVpn.WgConf
