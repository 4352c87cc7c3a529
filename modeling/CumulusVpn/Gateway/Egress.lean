/-
What the egress guard forwards (`destAllowed` of
`gateway/internal/wg/forward.go`).

* `Block`, `special4`, `special6`: the address space that is not globally
  routable;
* `embedded`: the IPv4 address in an IPv6 one;
* `Routable`: globally routable unicast;
* `Missed`: the special space that the guard does not know;
* `allowed_iff`: the guard refuses what is not routable, but for the missed;
* `dials_iff`: a flow may reach a dial exactly past the two checks;
* `egress_routable_iff`: **only routable destinations are dialed, exactly where
  the destination is not missed or its port is closed**.
-/
import CumulusVpn.Gateway.Forward
import CumulusVpn.Lib.StepSystem

namespace CumulusVpn.Egress

open StepSystem

/-! ### Globally routable unicast -/

/-- The addresses that begin with `value`, followed by `hostBits` bits. -/
structure Block where
  value : Nat
  hostBits : Nat

/-- The address is in the block. -/
def Block.Has (b : Block) (n : Nat) : Prop := n / 2 ^ b.hostBits = b.value

instance (b : Block) (n : Nat) : Decidable (b.Has n) := inferInstanceAs (Decidable (_ = _))

/-- This network, private, shared, loopback, link-local, documentation,
benchmarking, multicast, and reserved with broadcast. -/
def special4 : List Block :=
  [⟨0, 24⟩, ⟨10, 24⟩, ⟨0x191, 22⟩, ⟨127, 24⟩, ⟨0xa9fe, 16⟩, ⟨0xac1, 20⟩, ⟨0xc00002, 8⟩,
    ⟨0xc0a8, 16⟩, ⟨0x6309, 17⟩, ⟨0xc63364, 8⟩, ⟨0xcb0071, 8⟩, ⟨0xe, 28⟩, ⟨0xf, 28⟩]

/-- The address is in a special block of IPv4. -/
def Special4 (n : Nat) : Prop := ∃ b ∈ special4, b.Has n

/-- `2000::/3`. -/
def globalUnicast : Block := ⟨1, 125⟩

/-- Benchmarking and documentation within `2000::/3`: `2001:2::/48`,
`2001:db8::/32` and `3fff::/20`. -/
def special6 : List Block := [⟨0x200100020000, 80⟩, ⟨0x20010db8, 96⟩, ⟨0x3fff0, 108⟩]

/-- The address is in a special block of IPv6. -/
def Special6 (n : Nat) : Prop := ∃ b ∈ special6, b.Has n

/-- The IPv4 address in a mapped, a NAT64 or a 6to4 address. -/
def embedded (n : Nat) : Option Nat :=
  if n / 2 ^ 32 = 0xffff then some (n % 2 ^ 32)
  else if n / 2 ^ 32 = 0x64ff9b * 2 ^ 64 then some (n % 2 ^ 32)
  else if n / 2 ^ 112 = 0x2002 then some (n / 2 ^ 80 % 2 ^ 32)
  else none

/-- The address is globally routable, or stands for one that is. -/
def Routable : Ip → Prop
  | .invalid => False
  | .v4 a => ¬ Special4 a.toNat
  | .v6 a =>
      match embedded a.toNat with
      | some b => ¬ Special4 b
      | none => globalUnicast.Has a.toNat ∧ ¬ Special6 a.toNat

/-! ### What the guard misses -/

/-- `0.0.0.0/8` but for `0.0.0.0`, documentation, benchmarking, and reserved
with broadcast. -/
def Missed4 (n : Nat) : Prop :=
  (n / 2 ^ 24 = 0 ∧ n ≠ 0) ∨ n / 2 ^ 8 = 0xc00002 ∨ n / 2 ^ 17 = 0x6309 ∨ n / 2 ^ 8 = 0xc63364 ∨
    n / 2 ^ 8 = 0xcb0071 ∨ n / 2 ^ 28 = 0xf

/-- Every embedding of a special IPv4 address; benchmarking and documentation;
and outside `2000::/3` all but `::`, `::1`, `fc00::/7`, `fe80::/10` and
`ff00::/8`. -/
def Missed6 (n : Nat) : Prop :=
  match embedded n with
  | some b => Special4 b
  | none =>
      Special6 n ∨ (n / 2 ^ 125 ≠ 1 ∧ n ≠ 0 ∧ n ≠ 1 ∧ n / 2 ^ 121 ≠ 0x7e ∧ n / 2 ^ 118 ≠ 0x3fa ∧
        n / 2 ^ 120 ≠ 0xff)

/-- The address is not routable and passes the checks all the same. -/
def Missed : Ip → Prop
  | .invalid => False
  | .v4 a => Missed4 a.toNat
  | .v6 a => Missed6 a.toNat

lemma special4_iff {n : Nat} : Special4 n ↔
    n / 2 ^ 24 = 0 ∨ n / 2 ^ 24 = 10 ∨ n / 2 ^ 22 = 0x191 ∨ n / 2 ^ 24 = 127 ∨
      n / 2 ^ 16 = 0xa9fe ∨ n / 2 ^ 20 = 0xac1 ∨ n / 2 ^ 8 = 0xc00002 ∨ n / 2 ^ 16 = 0xc0a8 ∨
      n / 2 ^ 17 = 0x6309 ∨ n / 2 ^ 8 = 0xc63364 ∨ n / 2 ^ 8 = 0xcb0071 ∨ n / 2 ^ 28 = 0xe ∨
      n / 2 ^ 28 = 0xf := by
  simp [Special4, special4, Block.Has]

section Guard

variable {f : Forwarder}

/-- What the guard refuses in IPv4. -/
lemma destAllowed_v4 (hprivate : f.allowPrivate = false) {a : BitVec 32} :
    f.destAllowed (.v4 a) = true ↔
      ¬ (a.toNat / 2 ^ 24 = 127 ∨ a.toNat = 0 ∨ a.toNat / 2 ^ 28 = 0xe ∨
        a.toNat / 2 ^ 16 = 0xa9fe ∨ a.toNat / 2 ^ 24 = 10 ∨ a.toNat / 2 ^ 20 = 0xac1 ∨
        a.toNat / 2 ^ 16 = 0xc0a8 ∨ a.toNat / 2 ^ 22 = 0x191) := by
  have hshared : (a.toNat / 2 ^ 24 = 100 ∧ 64 ≤ a.toNat / 2 ^ 16 % 256) ∧
      a.toNat / 2 ^ 16 % 256 ≤ 127 ↔ a.toNat / 2 ^ 22 = 0x191 := by omega
  have hlocal : a.toNat / 2 ^ 8 = 0xe00000 → a.toNat / 2 ^ 28 = 0xe := by omega
  rw [Forwarder.destAllowed, hprivate, ← hshared]
  simp only [Ip.isLoopback, Ip.isUnspecified, Ip.isMulticast, Ip.isLinkLocalUnicast,
    Ip.isLinkLocalMulticast, Ip.isPrivate, Ip.isShared]
  simp
  omega

/-- What the guard refuses in IPv6. -/
lemma destAllowed_v6 (hprivate : f.allowPrivate = false) {a : BitVec 128} :
    f.destAllowed (.v6 a) = true ↔
      ¬ (a.toNat = 1 ∨ a.toNat = 0 ∨ a.toNat / 2 ^ 120 = 0xff ∨ a.toNat / 2 ^ 118 = 0x3fa ∨
        a.toNat / 2 ^ 121 = 0x7e) := by
  rw [Forwarder.destAllowed, hprivate]
  simp only [Ip.isLoopback, Ip.isUnspecified, Ip.isMulticast, Ip.isLinkLocalUnicast,
    Ip.isLinkLocalMulticast, Ip.isPrivate, Ip.isShared]
  simp
  tauto

/-- No address with an IPv4 address in it is refused for itself. -/
lemma not_refused_of_embedded {n b : Nat} (h : embedded n = some b) :
    ¬ (n = 1 ∨ n = 0 ∨ n / 2 ^ 120 = 0xff ∨ n / 2 ^ 118 = 0x3fa ∨ n / 2 ^ 121 = 0x7e) := by
  rw [embedded] at h
  split_ifs at h <;> omega

/-- **The guard refuses what is not routable, but for what it misses.** -/
lemma allowed_iff (hprivate : f.allowPrivate = false) {ip : Ip} :
    (f.destAllowed ip = true ∧ ¬ Routable ip) ↔ Missed ip := by
  cases ip with
  | invalid => simp [Forwarder.destAllowed, hprivate, Missed]
  | v4 a =>
      have hlt := a.isLt
      rw [destAllowed_v4 hprivate, Routable, Missed, not_not, special4_iff, Missed4]
      omega
  | v6 a =>
      rw [destAllowed_v6 hprivate, Routable, Missed, Missed6]
      cases hembedded : embedded a.toNat with
      | some b =>
          have hallowed := not_refused_of_embedded hembedded
          exact ⟨fun h => not_not.mp h.2, fun h => ⟨hallowed, not_not.mpr h⟩⟩
      | none =>
          have hspecial : Special6 a.toNat → a.toNat / 2 ^ 125 = 1 := by
            simp only [Special6, special6, Block.Has, List.mem_cons, List.not_mem_nil, or_false,
              exists_eq_or_imp, exists_eq_left]
            omega
          have hunicast : globalUnicast.Has a.toNat ↔ a.toNat / 2 ^ 125 = 1 := Iff.rfl
          simp only [hunicast]
          by_cases hin : Special6 a.toNat
          · have hglobal := hspecial hin
            refine ⟨fun _ => Or.inl hin, fun _ => ⟨by omega, fun h => h.2 hin⟩⟩
          · constructor
            · rintro ⟨hallowed, hnot⟩
              have hout : a.toNat / 2 ^ 125 ≠ 1 := fun h => hnot ⟨h, hin⟩
              exact Or.inr ⟨hout, by omega⟩
            · rintro (h | h)
              · exact absurd h hin
              · exact ⟨by omega, fun hroutable => h.1 hroutable.1⟩

end Guard

/-! ### The flows that are dialed -/

/-- The next step of the flow is a dial of the host. -/
def At.Dials (pos : At) : Prop := pos = .dialing ∨ pos = .handing

/-- Some path of the flow comes to a dial. -/
def Dials (f : Forwarder) (proto : Proto) (dst : Ip) (port : UInt16) : Prop :=
  ∃ events pos, exec (handle f proto dst port) .arrived events = some pos ∧ pos.Dials

section Paths

variable {f : Forwarder} {proto : Proto} {dst : Ip} {port : UInt16}

/-- Only a flow that passed both checks goes on. -/
lemma handle_admitted {pos pos' : At} {e : Event}
    (hpos : pos = .arrived ∨ pos = .ended ∨
      (f.destAllowed dst = true ∧ f.portAllowed port (proto = .udp) = true))
    (h : handle f proto dst port pos e = some pos') :
    pos' = .arrived ∨ pos' = .ended ∨
      (f.destAllowed dst = true ∧ f.portAllowed port (proto = .udp) = true) := by
  obtain rfl | rfl | hpassed := hpos
  · cases e with
    | source known =>
        cases h
        rw [checked]
        split_ifs with hknown hdst hport
        · exact Or.inr (Or.inl rfl)
        · exact Or.inr (Or.inl rfl)
        · exact Or.inr (Or.inl rfl)
        · exact Or.inr (Or.inr ⟨by simpa using hdst, by simpa using hport⟩)
    | _ => cases h
  · cases e <;> cases h
  · exact Or.inr (Or.inr hpassed)

/-- **A flow may reach a dial exactly past the two checks.** -/
lemma dials_iff : Dials f proto dst port ↔
    f.destAllowed dst = true ∧ f.portAllowed port (proto = .udp) = true := by
  constructor
  · rintro ⟨events, pos, hrun, hpos⟩
    have hadmitted := exec_invariant (G := fun _ _ => True)
      (fun _ _ _ hI _ h => handle_admitted hI h) (Or.inl rfl)
      (along_of_forall (fun _ _ => trivial) _ _) hrun
    obtain rfl | rfl | hpassed := hadmitted
    · obtain h | h := hpos <;> cases h
    · obtain h | h := hpos <;> cases h
    · exact hpassed
  · rintro ⟨hdst, hport⟩
    have hchecked : checked f proto dst port true = .takingGlobal := by
      rw [checked, hdst, hport]
      rfl
    have hcreate : ∀ rest, exec (handle f proto dst port) .arrived
        (.source true :: .added true :: .added true :: .endpoint true :: rest) =
          exec (handle f proto dst port)
            (if f.interceptDNS dst port then .lookups true 0 else .dialing) rest := by
      intro rest
      rw [exec_cons, handle, hchecked]
      rfl
    cases hdns : f.interceptDNS dst port with
    | false =>
        refine ⟨[.source true, .added true, .added true, .endpoint true], .dialing, ?_, Or.inl rfl⟩
        rw [hcreate, hdns]
        rfl
    | true =>
        cases proto with
        | tcp =>
            refine ⟨[.source true, .added true, .added true, .endpoint true, .message .notDNS],
              .handing, ?_, Or.inr rfl⟩
            rw [hcreate, hdns]
            rfl
        | udp =>
            refine ⟨[.source true, .added true, .added true, .endpoint true,
              .datagram (.read false true false)], .handing, ?_, Or.inr rfl⟩
            rw [hcreate, hdns]
            rfl

end Paths

/-- **What is dialed is globally routable, exactly where the destination is
none that the guard misses, or its port is closed.** -/
theorem egress_routable_iff (f : Forwarder) (hprivate : f.allowPrivate = false) (proto : Proto)
    (bytes : List UInt8) (port : UInt16) :
    (Dials f proto (addrFrom bytes) port → Routable (addrFrom bytes)) ↔
      ¬ (Missed (addrFrom bytes) ∧ f.portAllowed port (proto = .udp) = true) := by
  rw [dials_iff, ← allowed_iff hprivate]
  tauto

/-- Egress to the web. -/
def webOnly : Forwarder := ⟨some [443], true, false, none⟩

/-- `8.8.8.8` is routable. -/
theorem egress_routable_public :
    (Dials webOnly .tcp (addrFrom [8, 8, 8, 8]) 443 → Routable (addrFrom [8, 8, 8, 8])) ↔
      ¬ (Missed (addrFrom [8, 8, 8, 8]) ∧ webOnly.portAllowed 443 (Proto.tcp = .udp) = true) :=
  egress_routable_iff webOnly rfl .tcp [8, 8, 8, 8] 443

/-- NAT64 of the cloud metadata service, `64:ff9b::a9fe:a9fe`. -/
def metadata64 : List UInt8 := [0, 0x64, 0xff, 0x9b, 0, 0, 0, 0, 0, 0, 0, 0, 169, 254, 169, 254]

theorem dials_metadata :
    Dials webOnly .tcp (addrFrom metadata64) 443 ∧ ¬ Routable (addrFrom metadata64) := by
  have haddr : addrFrom metadata64 = .v6 0x64ff9b0000000000000000a9fea9fe := by decide
  have hembedded : embedded (0x64ff9b0000000000000000a9fea9fe : BitVec 128).toNat =
      some 0xa9fea9fe := by decide
  have hspecial : Special4 0xa9fea9fe := special4_iff.mpr (by decide)
  rw [haddr]
  refine ⟨dials_iff.mpr ⟨by decide, by decide⟩, fun hroutable => ?_⟩
  rw [Routable, hembedded] at hroutable
  exact hroutable hspecial

end CumulusVpn.Egress
