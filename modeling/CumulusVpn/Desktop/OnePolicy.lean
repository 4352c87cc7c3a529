/-
One leak policy on three firewalls.

* `LeakPolicy.Permits`: what may leave;
* `macosAllows_iff`, `linuxAllows_iff`: pf and nft let out what may leave;
* `windowsAllows_iff`: Windows lets out more;
* `LeakPolicy.Exposed`: DNS that only the Windows rules let out;
* `one_policy_iff`: **the three firewalls implement the policy on every packet
  that is not exposed**, and only on these.
-/
import CumulusVpn.Desktop.KillSwitch

namespace CumulusVpn.Desktop.KillSwitch

open CumulusVpn.Split Net
open Dns.Windows (Range Rule dnsBlockRules InRanges DnsOver blocked_iff)

/-! ### The policy -/

namespace LeakPolicy

variable (policy : LeakPolicy) (p : Packet)

/-- The packet goes to the exact endpoint. -/
def ToEndpoint : Prop :=
  parseIpAddr policy.endpointIp = some p.remote ∧
    p.transport = some (policy.proto, decimalValue policy.endpointPort)

/-- The packet goes to a bypass prefix. -/
def Bypasses : Prop := RoutesCover policy.bypassCidrs p.remote.family p.remote.value

/-- What may leave: loopback, the exact endpoint, DNS to a resolver of the
tunnel through the tunnel, and other traffic that leaves by the tunnel or goes
to a bypass prefix. -/
def Permits : Prop :=
  p.iface = .loopback ∨ policy.ToEndpoint p ∨
    (p.IsDns ∧ p.iface.isTunnel = true ∧ p.remote ∈ policy.dnsServers) ∨
    (¬ p.IsDns ∧ (p.iface.isTunnel = true ∨ policy.Bypasses p))

instance : Decidable (policy.ToEndpoint p) := inferInstanceAs (Decidable (_ ∧ _))

instance : Decidable (policy.Bypasses p) := inferInstanceAs (Decidable (RoutesCover _ _ _))

instance : Decidable (policy.Permits p) := inferInstanceAs (Decidable (_ ∨ _ ∨ _ ∨ _))

end LeakPolicy

/-! ### What the rules match -/

lemma targetsHold_address {servers : List IpAddr} {ip : IpAddr} :
    targetsHold ip (some (servers.map .address)) = true ↔ ip ∈ servers := by
  simp [targetsHold, Target.holds]

lemma isDns_iff {p : Packet} :
    p.IsDns ↔ p.protoIn (some [.udp, .tcp]) = true ∧ p.portIn (some dnsPorts) = true := by
  rw [Net.Packet.IsDns, Packet.protoIn, Packet.portIn]
  rcases p.transport with _ | ⟨proto, port⟩
  · simp
  · cases proto <;> simp [dnsPorts]

/-- DNS is over one of the two protocols. -/
lemma isDns_iff_or {p : Packet} : p.IsDns ↔
    (p.protoIn (some [.udp]) = true ∧ p.portIn (some dnsPorts) = true) ∨
      (p.protoIn (some [.tcp]) = true ∧ p.portIn (some dnsPorts) = true) := by
  rw [Net.Packet.IsDns, Packet.protoIn, Packet.protoIn, Packet.portIn]
  rcases p.transport with _ | ⟨proto, port⟩
  · simp
  · cases proto <;> simp [dnsPorts]

section Rules

variable {policy : LeakPolicy} {p : Packet}

/-- A pair of rules for the two protocols matches DNS. -/
lemma any_dns {f : Proto → Bool} {rest : Bool}
    (hf : ∀ l4, f l4 = (p.protoIn (some [l4]) && p.portIn (some dnsPorts) && rest)) :
    [Proto.udp, .tcp].any f = true ↔ p.IsDns ∧ rest = true := by
  simp only [List.any_cons, List.any_nil, Bool.or_false, hf, Bool.or_eq_true, Bool.and_eq_true]
  rw [isDns_iff_or, or_and_right]

lemma toEndpoint_iff : policy.ToEndpoint p ↔ p.protoIn (some [policy.proto]) = true ∧
    targetsHold p.remote (some [.host policy.endpointIp]) = true ∧
      p.portIn (some [decimalValue policy.endpointPort]) = true := by
  rw [LeakPolicy.ToEndpoint, Packet.protoIn, Packet.portIn, targetsHold]
  rcases p.transport with _ | ⟨proto, port⟩
  · simp
  · simp [Target.holds]
    tauto

lemma bypasses_iff : policy.Bypasses p ↔
    (policy.bypassCidrs.map Target.cidr).any (Target.holds p.remote) = true := by
  rw [LeakPolicy.Bypasses, ← routesCover_iff_any]
  simp [Target.holds]

/-- The rules of pf and nft, block by block. -/
lemma chain_iff {lo ep dnsAllow dns tun byp : Bool} :
    (if lo then true else if ep then true else if dnsAllow then true else if dns then false
      else if tun then true else if byp then true else false) = true ↔
      lo = true ∨ ep = true ∨ dnsAllow = true ∨ (¬ dns = true ∧ (tun = true ∨ byp = true)) := by
  cases lo <;> cases ep <;> cases dnsAllow <;> cases dns <;> cases tun <;> simp

/-- **pf lets out what may leave.** -/
theorem macosAllows_iff (names : Names policy) :
    policy.macosAllows names.pf p = true ↔ policy.Permits p := by
  have hone : ∀ r : PfRule, r.quick = true → (pfLanguage names.pf).Uniform r.pass [r] :=
    fun r hr => (RuleList.Language.uniform_cons _ _ _).mpr
      ⟨⟨hr, rfl⟩, RuleList.Language.uniform_nil _⟩
  have hmap :
      ∀ (f : String → PfRule) (l : List String), (∀ s, (f s).quick = true ∧ (f s).pass = true) →
      (pfLanguage names.pf).Uniform true (l.map f) :=
    fun f l hf => RuleList.Language.uniform_map hf l
  have hdnsRules : (pfLanguage names.pf).Uniform true
      (if policy.dnsServers = [] then []
        else policy.tunInterfaces.map (.passDns policy.dnsServers)) := by
    split
    · exact RuleList.Language.uniform_nil _
    · exact hmap _ _ fun _ => ⟨rfl, rfl⟩
  have hlo : ([PfRule.passOn "lo0"].any fun r => (pfLanguage names.pf).holds r p) = true ↔
      p.iface = .loopback := by
    rw [← names.pf_loopback]
    simp [pfLanguage, PfRule.holds, PfRule.passOn, Packet.protoIn, Packet.portIn, targetsHold]
  have hep : ([PfRule.passEndpoint policy.proto policy.endpointIp policy.endpointPort].any fun r =>
      (pfLanguage names.pf).holds r p) = true ↔ policy.ToEndpoint p := by
    rw [toEndpoint_iff]
    simp [pfLanguage, PfRule.holds, PfRule.passEndpoint, and_assoc]
  have hdns : ((if policy.dnsServers = [] then []
      else policy.tunInterfaces.map (.passDns policy.dnsServers)).any
        fun r => (pfLanguage names.pf).holds r p) = true ↔
      p.IsDns ∧ p.iface.isTunnel = true ∧ p.remote ∈ policy.dnsServers := by
    rw [isDns_iff, ← names.pf_tunnel]
    by_cases hnil : policy.dnsServers = []
    · simp [hnil]
    · simp only [if_neg hnil, List.any_map, List.any_eq_true, Function.comp, pfLanguage,
        PfRule.holds, PfRule.passDns, Bool.and_eq_true, targetsHold_address, Option.all_some,
        decide_eq_true_eq]
      constructor
      · rintro ⟨tun, htun, ⟨⟨rfl, hproto⟩, hto⟩, hport⟩
        exact ⟨⟨hproto, hport⟩, htun, hto⟩
      · rintro ⟨⟨hproto, hport⟩, htun, hto⟩
        exact ⟨_, htun, ⟨⟨rfl, hproto⟩, hto⟩, hport⟩
  have hblock : ([PfRule.blockDns].any fun r => (pfLanguage names.pf).holds r p) = true ↔
      p.IsDns := by
    rw [isDns_iff]
    simp [pfLanguage, PfRule.holds, PfRule.blockDns, targetsHold]
  have htun : ((policy.tunInterfaces.map .passOn).any fun r => (pfLanguage names.pf).holds r p) =
      true ↔ p.iface.isTunnel = true := by
    rw [← names.pf_tunnel]
    simp [pfLanguage, PfRule.holds, PfRule.passOn, Packet.protoIn, Packet.portIn, targetsHold]
  have hbyp : ((policy.bypassCidrs.map .passTo).any fun r => (pfLanguage names.pf).holds r p) =
      true ↔ policy.Bypasses p := by
    rw [bypasses_iff]
    simp [pfLanguage, PfRule.holds, PfRule.passTo, Packet.protoIn, Packet.portIn, targetsHold]
  rw [LeakPolicy.macosAllows, pfAllows]
  simp only [macosAnchorRules, List.append_assoc]
  rw [RuleList.Language.evaluate_uniform (hone _ rfl),
    RuleList.Language.evaluate_uniform (hone _ rfl),
    RuleList.Language.evaluate_uniform hdnsRules, RuleList.Language.evaluate_uniform (hone _ rfl),
    RuleList.Language.evaluate_uniform (hmap _ _ fun _ => ⟨rfl, rfl⟩),
    RuleList.Language.evaluate_uniform (hmap _ _ fun _ => ⟨rfl, rfl⟩)]
  have hlast : (pfLanguage names.pf).evaluate p [.blockAll] true = false := by
    simp [RuleList.Language.evaluate, pfLanguage, PfRule.holds, PfRule.blockAll, Packet.protoIn,
      Packet.portIn, targetsHold]
  rw [hlast]
  refine chain_iff.trans ?_
  rw [hlo, hep, hdns, hblock, htun, hbyp]
  rfl

/-- The rules for the resolvers of a family match DNS to these through the
tunnel. -/
lemma any_dnsAllow {name : Iface → String} (hname : ∀ i, nameMatches "cvpn*" (name i) = i.isTunnel)
    (servers : List IpAddr) (family : Family) :
    ((dnsAllow servers family).any fun r => (nftLanguage name).holds r p) = true ↔
      p.IsDns ∧ p.iface.isTunnel = true ∧ p.remote.family = family ∧ p.remote ∈ servers := by
  have hmem : p.remote ∈ servers.filter (fun s => s.family = family) ↔
      p.remote.family = family ∧ p.remote ∈ servers := by
    rw [List.mem_filter, decide_eq_true_eq, and_comm]
  have hto := @targetsHold_address (servers.filter fun s => s.family = family) p.remote
  rw [targetsHold, Option.all_some, hmem] at hto
  have hto : (decide (p.remote.family = family) &&
      ((servers.filter fun s => s.family = family).map .address).any
        (Target.holds p.remote)) = true ↔
      p.remote.family = family ∧ p.remote ∈ servers := by
    rw [Bool.and_eq_true, hto, decide_eq_true_eq]
    exact and_iff_right_of_imp And.left
  simp only [dnsAllow]
  split
  · rename_i hnil
    rw [hnil] at hmem
    simp [← hmem]
  · rw [List.any_map, ← hto, ← hname, ← Bool.and_eq_true]
    refine any_dns fun l4 => ?_
    simp only [Function.comp, nftLanguage, NftRule.holds, NftRule.acceptDns, Option.all_some,
      Packet.protoIn, Packet.portIn]
    ac_rfl

/-- The family that nft is told for a prefix is the prefix's own. -/
lemma family_of_holds {cidr : String} (h : Target.holds p.remote (.cidr cidr) = true) :
    p.remote.family = if ':' ∈ cidr.toList then .v6 else .v4 := by
  simp only [Target.holds, Option.any_eq_true] at h
  obtain ⟨c, hc, hin⟩ := h
  have hcolon := colon_iff_of_parseCidr hc
  simp only [decide_eq_true_eq] at hin
  rw [← hin.1]
  split
  · rename_i hmem
    exact hcolon.mp hmem
  · rename_i hmem
    cases hfam : c.family with
    | v4 => rfl
    | v6 => exact absurd (hcolon.mpr hfam) hmem

/-- **nft lets out what may leave.** -/
theorem linuxAllows_iff (names : Names policy)
    (hv4 : ∀ ip, parseIpAddr policy.endpointIp = some ip → ip.family = .v4) :
    policy.linuxAllows names.nft p = true ↔ policy.Permits p := by
  have hmap : ∀ {A : Type} {w : Bool} (f : A → NftRule) (l : List A), (∀ a, (f a).accept = w) →
      (nftLanguage names.nft).Uniform w (l.map f) :=
    fun f l hf => RuleList.Language.uniform_map (fun a => ⟨rfl, hf a⟩) l
  have hone : ∀ r : NftRule, (nftLanguage names.nft).Uniform r.accept [r] :=
    fun r => hmap (fun _ : Unit => r) [()] fun _ => rfl
  have hallow :
      ∀ family, (nftLanguage names.nft).Uniform true (dnsAllow policy.dnsServers family) := by
    intro family
    simp only [dnsAllow]
    split
    · exact RuleList.Language.uniform_nil _
    · exact hmap _ _ fun _ => rfl
  have hlo : ([NftRule.acceptOn "lo"].any fun r => (nftLanguage names.nft).holds r p) = true ↔
      p.iface = .loopback := by
    have hname : ∀ name, nameMatches "lo" name = true ↔ name = "lo" := by
      intro name
      have hpattern : nameMatches "lo" name = decide ("lo" = name) := rfl
      rw [hpattern, decide_eq_true_eq]
      exact eq_comm
    simp [nftLanguage, NftRule.holds, NftRule.acceptOn, hname, names.nft_loopback]
  have hep :
      ([NftRule.acceptEndpoint policy.proto policy.endpointIp policy.endpointPort].any fun r =>
      (nftLanguage names.nft).holds r p) = true ↔ policy.ToEndpoint p := by
    rw [toEndpoint_iff]
    simp only [nftLanguage, NftRule.holds, NftRule.acceptEndpoint, List.any_cons, List.any_nil,
      Bool.or_false, Option.all_none, Option.all_some, Bool.true_and, Bool.and_eq_true,
      decide_eq_true_eq, targetsHold, Target.holds]
    constructor
    · rintro ⟨⟨-, hto⟩, hproto, hport⟩
      exact ⟨hproto, hto, hport⟩
    · rintro ⟨hproto, hto, hport⟩
      exact ⟨⟨hv4 _ hto, hto⟩, hproto, hport⟩
  have hdns : (([Family.v4, .v6].flatMap (dnsAllow policy.dnsServers)).any
        fun r => (nftLanguage names.nft).holds r p) = true ↔
      p.IsDns ∧ p.iface.isTunnel = true ∧ p.remote ∈ policy.dnsServers := by
    have hflat : [Family.v4, .v6].flatMap (dnsAllow policy.dnsServers) =
        dnsAllow policy.dnsServers .v4 ++ dnsAllow policy.dnsServers .v6 := by simp
    rw [hflat, List.any_append, Bool.or_eq_true, any_dnsAllow names.nft_tunnel,
      any_dnsAllow names.nft_tunnel]
    cases p.remote.family <;> simp
  have hblock : ([NftRule.dropDns .udp, .dropDns .tcp].any
      fun r => (nftLanguage names.nft).holds r p) = true ↔ p.IsDns := by
    rw [isDns_iff_or]
    simp [nftLanguage, NftRule.holds, NftRule.dropDns]
  have htun : ([NftRule.acceptOn "cvpn*"].any fun r => (nftLanguage names.nft).holds r p) =
      true ↔ p.iface.isTunnel = true := by
    simp [nftLanguage, NftRule.holds, NftRule.acceptOn, names.nft_tunnel]
  have hbyp : ((policy.bypassCidrs.map .acceptTo).any fun r => (nftLanguage names.nft).holds r p) =
      true ↔ policy.Bypasses p := by
    rw [bypasses_iff, List.any_map, List.any_map, List.any_eq_true, List.any_eq_true]
    refine exists_congr fun cidr => and_congr_right fun _ => ?_
    simp only [Function.comp, nftLanguage, NftRule.holds, NftRule.acceptTo, Option.all_none,
      Option.all_some, Bool.true_and, Bool.and_true, List.any_cons, List.any_nil, Bool.or_false,
      Bool.and_eq_true, decide_eq_true_eq]
    exact and_iff_right_of_imp family_of_holds
  have hresolvers : (nftLanguage names.nft).Uniform true
      ([Family.v4, .v6].flatMap (dnsAllow policy.dnsServers)) := by
    simpa using RuleList.Language.uniform_append (hallow .v4) (hallow .v6)
  have hdrop : (nftLanguage names.nft).Uniform false [NftRule.dropDns .udp, .dropDns .tcp] :=
    hmap NftRule.dropDns [.udp, .tcp] fun _ => rfl
  have hbypass : (nftLanguage names.nft).Uniform true (policy.bypassCidrs.map .acceptTo) :=
    hmap _ _ fun _ => rfl
  rw [LeakPolicy.linuxAllows, nftAllows]
  simp only [linuxNftTable, List.append_assoc]
  rw [RuleList.Language.evaluate_uniform (hone _), RuleList.Language.evaluate_uniform (hone _),
    RuleList.Language.evaluate_uniform hresolvers, RuleList.Language.evaluate_uniform hdrop,
    RuleList.Language.evaluate_uniform (hone _), RuleList.Language.evaluate_uniform_last hbypass]
  refine chain_iff.trans ?_
  rw [hlo, hep, hdns, hblock, htun, hbyp]
  rfl

/-! ### Windows -/

variable (policy p) in
/-- The address of the endpoint, on any port. -/
def LeakPolicy.ToEndpointAddress : Prop := parseIpAddr policy.endpointIp = some p.remote

lemma holds_range {ranges : List Range} {ip : IpAddr} :
    (ranges.map Target.range).any (Target.holds ip) = true ↔ InRanges ranges ip := by
  simp [InRanges, Target.holds]

/-- A rule of the DNS block matches what it blocks. -/
lemma blockDns_holds (name : Iface → String) (r : Rule) :
    (NetFirewallRule.blockDns r).holds name p = true ↔ r.Blocks p.toPacket := by
  have hover : (p.protoIn (some [r.proto]) && p.portIn (some dnsPorts)) = true ↔
      DnsOver r.proto p.toPacket := by
    rw [Packet.protoIn, Packet.portIn, DnsOver]
    rcases p.transport with _ | ⟨proto, port⟩
    · simp
    · simp [dnsPorts]
  have hlocal : targetsHold p.local_ (r.localAddress.map fun ranges => ranges.map .range) = true ↔
      ∀ ranges ∈ r.localAddress, InRanges ranges p.local_ := by
    cases r.localAddress with
    | none => simp [targetsHold]
    | some ranges =>
        rw [Option.map_some, targetsHold, Option.all_some, holds_range]
        simp
  have hremote : targetsHold p.remote (some (r.remoteAddress.map .range)) = true ↔
      InRanges r.remoteAddress p.remote := holds_range
  rw [Rule.Blocks, ← hover, ← hlocal, ← hremote]
  simp only [NetFirewallRule.holds, NetFirewallRule.blockDns, Option.all_none, Bool.and_true,
    Bool.and_eq_true]
  tauto

/-- The DNS block: to other servers, and from other addresses than the
tunnel's; never to the address of the endpoint. -/
lemma any_dnsBlockRules (name : Iface → String) :
    (((dnsBlockRules policy.dnsServers policy.tunnelAddress
      (parseIpAddr policy.endpointIp).toList).map NetFirewallRule.blockDns).any
        fun r => r.block && r.holds name p) = true ↔
      p.IsDns ∧ ¬ policy.ToEndpointAddress p ∧
        (p.remote ∉ policy.dnsServers ∨ ∃ t, policy.tunnelAddress = some t ∧ p.local_ ≠ t) := by
  have hendpoint : p.remote ∉ (parseIpAddr policy.endpointIp).toList ↔
      ¬ policy.ToEndpointAddress p := by
    rw [Option.mem_toList, LeakPolicy.ToEndpointAddress]
  calc _ ↔ ∃ r ∈ dnsBlockRules policy.dnsServers policy.tunnelAddress
        (parseIpAddr policy.endpointIp).toList, r.Blocks p.toPacket := by
        simp only [List.any_map, List.any_eq_true, Function.comp, ← blockDns_holds name]
        rfl
    _ ↔ _ := by
        rw [blocked_iff, hendpoint]
        rfl

/-- **Windows lets out** what an allow rule names and the DNS block does
not. -/
theorem windowsAllows_iff (names : Names policy) :
    policy.windowsAllows names.windows p = true ↔ p.iface = .loopback ∨
      (¬ (p.IsDns ∧ ¬ policy.ToEndpointAddress p ∧
          (p.remote ∉ policy.dnsServers ∨ ∃ t, policy.tunnelAddress = some t ∧ p.local_ ≠ t)) ∧
        (policy.ToEndpoint p ∨ p.iface.isTunnel = true ∨ policy.Bypasses p)) := by
  have hdns : ((dnsBlockRules policy.dnsServers policy.tunnelAddress
      (parseIpAddr policy.endpointIp).toList).map NetFirewallRule.blockDns).any
        (fun r => !r.block && r.holds names.windows p) = false := by
    simp [NetFirewallRule.blockDns]
  have hep : (NetFirewallRule.allowEndpoint policy.proto policy.endpointIp
      policy.endpointPort).holds names.windows p = true ↔ policy.ToEndpoint p := by
    rw [toEndpoint_iff]
    simp [NetFirewallRule.holds, NetFirewallRule.allowEndpoint, targetsHold]
    tauto
  have htun : NetFirewallRule.allowTunnel.holds names.windows p = true ↔
      p.iface.isTunnel = true := by
    simp [NetFirewallRule.holds, NetFirewallRule.allowTunnel, Packet.protoIn, Packet.portIn,
      targetsHold, names.windows_tunnel]
  have hbypass : (if policy.bypassCidrs ≠ [] then [NetFirewallRule.allowTo policy.bypassCidrs]
      else []).any (fun r => !r.block && r.holds names.windows p) = true ↔ policy.Bypasses p := by
    rw [bypasses_iff]
    by_cases hnil : policy.bypassCidrs = []
    · simp [hnil]
    · simp [hnil, NetFirewallRule.allowTo, NetFirewallRule.holds, Packet.protoIn, Packet.portIn,
        targetsHold]
  have hallow : (if policy.bypassCidrs ≠ [] then [NetFirewallRule.allowTo policy.bypassCidrs]
      else []).any (fun r => r.block && r.holds names.windows p) = false := by
    split <;> rfl
  have hendpoint : (NetFirewallRule.allowEndpoint policy.proto policy.endpointIp
      policy.endpointPort).block = false := rfl
  have htunnel : NetFirewallRule.allowTunnel.block = false := rfl
  rw [← any_dnsBlockRules names.windows, LeakPolicy.windowsAllows, KillSwitch.windowsAllows,
    windowsRules]
  simp only [List.any_append, List.any_cons, List.any_nil, hendpoint, htunnel, hallow, hdns,
    Bool.false_and, Bool.false_or, Bool.or_false, Bool.not_false, Bool.true_and, Bool.or_eq_true,
    Bool.and_eq_true, decide_eq_true_eq, hep, htun, hbypass, Bool.not_eq_true', Bool.not_eq_true]
  rw [or_assoc]

/-- DNS that only the Windows rules let out: to the address of the endpoint
through the tunnel or, where a bypass prefix holds it, past it; and, where the
tunnel address is not known, to a resolver in a bypass prefix past it. -/
def LeakPolicy.Exposed (policy : LeakPolicy) (p : Packet) : Prop :=
  p.iface ≠ .loopback ∧ p.IsDns ∧ ¬ policy.ToEndpoint p ∧
    ((policy.ToEndpointAddress p ∧ p.iface.isTunnel = true ∧ p.remote ∉ policy.dnsServers) ∨
      (policy.ToEndpointAddress p ∧ ¬ p.iface.isTunnel = true ∧ policy.Bypasses p) ∨
      (policy.tunnelAddress = none ∧ p.remote ∈ policy.dnsServers ∧ policy.Bypasses p))

lemma agrees_iff {lo ep addr dns tun res byp outside unknown : Prop} (hep : ep → addr)
    (htun : tun → ¬ lo) (hcase : (unknown ∧ ¬ outside ∧ ¬ tun) ∨ (¬ unknown ∧ (outside ↔ ¬ tun))) :
    ((lo ∨ (¬ (dns ∧ ¬ addr ∧ (¬ res ∨ outside)) ∧ (ep ∨ tun ∨ byp))) ↔
      (lo ∨ ep ∨ (dns ∧ tun ∧ res) ∨ (¬ dns ∧ (tun ∨ byp)))) ↔
    ¬ (¬ lo ∧ dns ∧ ¬ ep ∧
      ((addr ∧ tun ∧ ¬ res) ∨ (addr ∧ ¬ tun ∧ byp) ∨ (unknown ∧ res ∧ byp))) := by
  grind

/-- **The three firewalls implement the policy on every packet that is not
exposed, and only on these.** -/
theorem one_policy_iff {ip : IpAddr} (hparse : parseIpAddr policy.endpointIp = some ip)
    (hv4 : ip.family = .v4) (names : Names policy)
    (htunnel : p.iface.isTunnel = true ↔ policy.tunnelAddress = some p.local_) :
    ((policy.macosAllows names.pf p = true ↔ policy.Permits p) ∧
      (policy.linuxAllows names.nft p = true ↔ policy.Permits p) ∧
      (policy.windowsAllows names.windows p = true ↔ policy.Permits p)) ↔
      ¬ policy.Exposed p := by
  have hlinux := @linuxAllows_iff policy p names fun ip' hip' => by
    rw [hparse] at hip'
    cases hip'
    exact hv4
  have haddress : policy.ToEndpoint p → policy.ToEndpointAddress p := fun h => h.1
  have hdevice : p.iface.isTunnel = true → p.iface ≠ .loopback := by
    rintro htun hlo
    rw [hlo] at htun
    cases htun
  have hcase : (policy.tunnelAddress = none ∧
      ¬ (∃ t, policy.tunnelAddress = some t ∧ p.local_ ≠ t) ∧ ¬ p.iface.isTunnel = true) ∨
      (¬ policy.tunnelAddress = none ∧
        ((∃ t, policy.tunnelAddress = some t ∧ p.local_ ≠ t) ↔ ¬ p.iface.isTunnel = true)) := by
    rw [htunnel]
    cases policy.tunnelAddress with
    | none => simp
    | some t => simp [eq_comm]
  rw [windowsAllows_iff, and_iff_right (macosAllows_iff names), and_iff_right hlinux]
  exact agrees_iff haddress hdevice hcase

end Rules

/-! ### DNS to the endpoint -/

/-- A policy with a LAN bypass, a resolver and a tunnel that is up. -/
def samplePolicy : LeakPolicy where
  endpoint := "203.0.113.7:51820"
  tunInterfaces := ["utun6"]
  proto := .udp
  bypassCidrs := ["192.168.0.0/16"]
  dnsServers := [⟨.v4, 0x01010101, by decide⟩]
  tunnelAddress := some ⟨.v4, 0x0a080002, by decide⟩

/-- Names of its interfaces. -/
def sampleNames : Names samplePolicy where
  pf
    | .loopback => "lo0"
    | .tunnel _ => "utun6"
    | .other _ => "en0"
  nft
    | .loopback => "lo"
    | .tunnel _ => "cvpn0"
    | .other _ => "eth0"
  windows
    | .loopback => "Loopback"
    | .tunnel _ => "cvpn0"
    | .other _ => "Wi-Fi"
  pf_loopback := by rintro (_ | i | i) <;> simp
  pf_tunnel := by rintro (_ | i | i) <;> simp [samplePolicy, Iface.isTunnel]
  nft_loopback := by rintro (_ | i | i) <;> simp
  nft_tunnel := by
    rintro (_ | i | i)
    · exact (by decide +kernel : nameMatches "cvpn*" "lo" = false)
    · exact (by decide +kernel : nameMatches "cvpn*" "cvpn0" = true)
    · exact (by decide +kernel : nameMatches "cvpn*" "eth0" = false)
  windows_tunnel := by
    rintro (_ | i | i)
    · exact (by decide +kernel : nameMatches "cvpn*" "Loopback" = false)
    · exact (by decide +kernel : nameMatches "cvpn*" "cvpn0" = true)
    · exact (by decide +kernel : nameMatches "cvpn*" "Wi-Fi" = false)

/-- A packet through the tunnel to the address of the endpoint. -/
def endpointPacket (port : Nat) : Packet where
  iface := .tunnel 0
  local_ := ⟨.v4, 0x0a080002, by decide⟩
  remote := ⟨.v4, 0xcb007107, by decide⟩
  transport := some (.udp, port)

/-- The transport's own packets. -/
theorem one_policy_iff_endpoint :
    ((samplePolicy.macosAllows sampleNames.pf (endpointPacket 51820) = true ↔
        samplePolicy.Permits (endpointPacket 51820)) ∧
      (samplePolicy.linuxAllows sampleNames.nft (endpointPacket 51820) = true ↔
        samplePolicy.Permits (endpointPacket 51820)) ∧
      (samplePolicy.windowsAllows sampleNames.windows (endpointPacket 51820) = true ↔
        samplePolicy.Permits (endpointPacket 51820))) ↔
      ¬ samplePolicy.Exposed (endpointPacket 51820) := by
  have hparse : parseIpAddr samplePolicy.endpointIp = some ⟨.v4, 0xcb007107, by decide⟩ := by
    decide +kernel
  exact one_policy_iff hparse rfl sampleNames (by decide +kernel)

/-- DNS to the address of the endpoint gets out through the tunnel on Windows
alone. -/
theorem not_one_policy :
    ¬ samplePolicy.Permits (endpointPacket 53) ∧
      samplePolicy.macosAllows sampleNames.pf (endpointPacket 53) = false ∧
      samplePolicy.linuxAllows sampleNames.nft (endpointPacket 53) = false ∧
      samplePolicy.windowsAllows sampleNames.windows (endpointPacket 53) = true := by
  decide +kernel

end CumulusVpn.Desktop.KillSwitch
