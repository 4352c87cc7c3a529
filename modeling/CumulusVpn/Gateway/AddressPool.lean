/-
The pool that tunnel addresses are taken from (`assign` of
`gateway/internal/api/api.go`).

* `Client`: the addresses of the pool;
* `hostAt`, `exists_hostAt`: the host parts that a walk comes by; a whole round
  comes by all of them;
* `assignFrom_eq_none`: a walk fails only where all that it came by are
  reserved or taken;
* `assign_free`: **a new peer gets a free address of the pool while there is
  one**.
-/
import CumulusVpn.Gateway.Device

namespace CumulusVpn.Peers

/-- The address of a host part. -/
def hostAddr (host : Nat) : Addr := ⟨10, 8, host / 256 % 256, host % 256⟩

/-- The hosts that are no network or broadcast host. -/
def Usable (host : Nat) : Prop := host % 256 ≠ 0 ∧ host % 256 ≠ 255

/-- The pool: `10.8.0.0/16` without the gateway and without the network and
broadcast hosts. -/
structure Client (a : Addr) : Prop where
  net : a.b0 = 10 ∧ a.b1 = 8
  byte : a.b2 < 256 ∧ a.b3 < 256
  usable : a.b3 ≠ 0 ∧ a.b3 ≠ 255
  ne_gateway : a ≠ gatewayAddr

lemma client_hostAddr {host : Nat} (h : HostPart host) (husable : Usable host) :
    Client (hostAddr host) := by
  obtain ⟨hlow, hhigh⟩ := h
  refine ⟨⟨rfl, rfl⟩, ⟨Nat.mod_lt _ (by omega), Nat.mod_lt _ (by omega)⟩, husable, fun heq => ?_⟩
  simp only [hostAddr, gatewayAddr, Addr.mk.injEq] at heq
  omega

/-- The pool is the addresses of the usable host parts. -/
lemma Client.exists_host {a : Addr} (h : Client a) :
    ∃ host, HostPart host ∧ Usable host ∧ a = hostAddr host := by
  obtain ⟨b0, b1, b2, b3⟩ := a
  obtain ⟨⟨rfl, rfl⟩, ⟨hb2, hb3⟩, ⟨hzero, hlast⟩, hne⟩ := h
  simp only at hb2 hb3 hzero hlast
  have hmod : (256 * b2 + b3) % 256 = b3 := by omega
  have hdiv : (256 * b2 + b3) / 256 % 256 = b2 := by omega
  refine ⟨256 * b2 + b3, ⟨?_, by omega⟩, ⟨by rwa [hmod], by rwa [hmod]⟩, ?_⟩
  · by_contra hlow
    have hb2 : b2 = 0 := by omega
    have hb3 : b3 = 1 := by omega
    exact hne (by rw [hb2, hb3, gatewayAddr])
  · rw [hostAddr, hmod, hdiv]

/-- The host part that a walk from `host` comes by after `k` others. -/
def hostAt (host k : Nat) : Nat := if host + k < 65536 then host + k else host + k - 65534

/-- A round comes by every host part. -/
lemma exists_hostAt {host host' : Nat} (h : HostPart host) (h' : HostPart host') :
    ∃ k < 65534, hostAt host k = host' := by
  obtain ⟨hlow, hhigh⟩ := h
  obtain ⟨hlow', hhigh'⟩ := h'
  by_cases hle : host ≤ host'
  · refine ⟨host' - host, by omega, ?_⟩
    rw [hostAt, if_pos (by omega)]
    omega
  · refine ⟨host' + 65534 - host, by omega, ?_⟩
    rw [hostAt, if_neg (by omega)]
    omega

/-- The next walk comes by the same host parts, one earlier. -/
lemma hostAt_next {host k : Nat} (h : HostPart host) (hk : k + 1 < 65534) :
    hostAt (if host + 1 ≥ 65536 then 2 else host + 1) k = hostAt host (k + 1) := by
  obtain ⟨hlow, hhigh⟩ := h
  rw [hostAt, hostAt]
  split_ifs <;> omega

section Walk

variable {d : Device}

/-- **A walk fails only where all that it came by are reserved or taken.** -/
lemma assignFrom_eq_none : ∀ {n host : Nat}, HostPart host → n ≤ 65534 →
    (assignFrom d n host).1 = none → ∀ k < n, Usable (hostAt host k) →
      d.peerByAddr (hostAddr (hostAt host k)) ≠ none
  | 0, host, _, _, _ => fun k hk => absurd hk (Nat.not_lt_zero k)
  | n + 1, host, h, hn, hnone => by
      have hnext := hostPart_next h
      have hfirst : hostAt host 0 = host := if_pos h.2
      rw [assignFrom] at hnone
      intro k hk husable
      have hrest : (assignFrom d n (if host + 1 ≥ 65536 then 2 else host + 1)).1 = none ∧
          (k = 0 → d.peerByAddr (hostAddr host) ≠ none) := by
        split at hnone
        · rename_i hreserved
          refine ⟨hnone, fun hzero => ?_⟩
          rw [hzero, hfirst] at husable
          exact absurd hreserved (not_or.mpr husable)
        · split at hnone
          · cases hnone
          · rename_i htaken
            exact ⟨hnone, fun _ hfree => htaken (Option.isNone_iff_eq_none.mpr hfree)⟩
      cases k with
      | zero =>
          rw [hfirst]
          exact hrest.2 rfl
      | succ k =>
          rw [← hostAt_next h (by omega)] at husable ⊢
          exact assignFrom_eq_none hnext (by omega) hrest.1 k (by omega) husable

/-- What a walk finds is in the pool. -/
lemma client_of_assignFrom : ∀ {n host : Nat} {a : Addr}, HostPart host →
    (assignFrom d n host).1 = some a → Client a
  | 0, host, a, _, ha => by cases ha
  | n + 1, host, a, h, ha => by
      have hnext := hostPart_next h
      rw [assignFrom] at ha
      split at ha
      · exact client_of_assignFrom hnext ha
      · rename_i hclient
        split at ha
        · cases ha
          exact client_hostAddr h (not_or.mp hclient)
        · exact client_of_assignFrom hnext ha

end Walk

/-- **From every cursor a new peer gets a free address of the pool, and none
only if all are taken; the cursor stays within the host parts, where it
begins; a known peer keeps its address.** -/
theorem assign_free (d : Device) (pubkey : String) :
    HostPart 2 ∧ ∀ host, HostPart host →
      HostPart (assign d host pubkey).2 ∧
      (∀ a, d.peerAddr pubkey = some a → assign d host pubkey = (some a, host)) ∧
      (d.peerAddr pubkey = none →
        (∀ a, (assign d host pubkey).1 = some a →
          Client a ∧ d.peerByAddr a = none) ∧
        ((assign d host pubkey).1 = none ↔ ∀ a, Client a → d.peerByAddr a ≠ none)) := by
  refine ⟨hostPart_two, fun host h => ⟨(assign_spec h pubkey).1, fun a ha => ?_, fun hnew => ?_⟩⟩
  · rw [assign.eq_def, ha]
  · have hwalk : assign d host pubkey = assignFrom d 65534 host := by rw [assign.eq_def, hnew]
    rw [hwalk]
    refine ⟨fun a ha => ?_, ?_, fun hall => ?_⟩
    · exact ⟨client_of_assignFrom h ha, ((assignFrom_spec h).2 a ha).1⟩
    · intro hnone a hclient
      obtain ⟨host', hhost', husable, rfl⟩ := hclient.exists_host
      obtain ⟨k, hk, rfl⟩ := exists_hostAt h hhost'
      exact assignFrom_eq_none h le_rfl hnone k hk husable
    · cases ha : (assignFrom d 65534 host).1 with
      | none => rfl
      | some a =>
          have hfree := ((assignFrom_spec h).2 a ha).1
          exact absurd hfree (hall a (client_of_assignFrom h ha))

/-- With no peer the first address is the one after the gateway's. -/
example : (assign (Device.new []) 2 "k").1 = some ⟨10, 8, 0, 2⟩ := by decide

end CumulusVpn.Peers
