/-
What an enrollment has to pass before it gets an address (`handleEnroll`,
`allowEnroll` and `gcOnce` of `gateway/internal/api/api.go`,
`gateway/internal/api/pow.go`).

Times are in seconds, and the buckets are computed exactly.

* `tokensAt`, `allowEnroll`: the token bucket of an IP;
* `checkPoW`: the proof of work and its replay guard;
* `gcOnce`: the sweep of the buckets and the rotation of the replay guard;
* `handleEnroll`: the checks in their order;
* `Call`, `step`, `answers`: runs of enrollments and passes of the GC;
* `lookup_gcOnce`, `checkPoW_eq_true`, `handleEnroll_passed`: **what a pass, a
  check and an enrollment do**.
-/
import Mathlib.Data.Finset.Card
import CumulusVpn.Gateway.Device
import CumulusVpn.Lib.TokenBucket

namespace CumulusVpn.Enrollment

open TokenBucket
open Peers (GoMap decodeKey lookup_insert lookup_erase)

/-! ### The rate limit -/

/-- How long a token takes to come back, in seconds. -/
abbrev enrollWindow : ℚ := 2

/-- The most tokens that an address has. -/
abbrev enrollBurst : ℚ := 8

/-- One source IP's token bucket. -/
abbrev EnrollBucket := Bucket ℚ

/-- The balance at `now`, capped at the burst. -/
def tokensAt (b : EnrollBucket) (now : ℚ) : ℚ :=
  if ¬ b.last < now then b.tokens
  else
    let t := b.tokens + (now - b.last) / enrollWindow
    if enrollBurst < t then enrollBurst else t

/-- The two bounded maps of the control API. -/
structure Guard where
  enrollIP : GoMap String EnrollBucket
  /-- the spent nonces of the current generation -/
  powSeen : Finset String
  powSeenPrev : Finset String
  powRotatedAt : ℚ

namespace Guard

/-- A guard before its first call. -/
def new (now : ℚ) : Guard := ⟨∅, ∅, ∅, now⟩

/-- A call takes a token of its address, where there is one. -/
def allowEnroll (g : Guard) (ip : String) (now : ℚ) : Bool × Guard :=
  match g.enrollIP.lookup ip with
  | none => (true, { g with enrollIP := g.enrollIP.insert ip ⟨enrollBurst - 1, now⟩ })
  | some b =>
      let tokens := tokensAt b now
      if tokens < 1 then (false, { g with enrollIP := g.enrollIP.insert ip ⟨tokens, now⟩ })
      else (true, { g with enrollIP := g.enrollIP.insert ip ⟨tokens - 1, now⟩ })

end Guard

/-! ### The proof of work -/

/-- The leading zero bits of a proof. -/
abbrev powBits : Nat := 20

/-- The longest nonce, in bytes. -/
abbrev maxNonceLen : Nat := 64

/-- How long a generation of proofs lasts, in seconds. -/
abbrev powGeneration : ℚ := 300

/-- How many proofs a generation has before it is rotated. -/
abbrev maxPowSeen : Nat := 2 ^ 20

/-- What `crypto/sha256` returns. -/
abbrev Digest := {digest : List UInt8 // digest.length = 32}

/-- The digest starts with at least `n` zero bits. -/
def hasLeadingZeroBits (digest : List UInt8) (n : Nat) : Bool :=
  (digest.take (n / 8)).all (fun byte => byte == 0) &&
    (n % 8 == 0 ||
      digest.getD (n / 8) 0 &&& ((0xff : UInt8) <<< UInt8.ofNat (8 - n % 8)) == 0)

section PoW

variable (sha256 : ByteArray → Digest)

/-- The bytes have the leading zero bits. -/
def Solved (preimage : ByteArray) : Prop := hasLeadingZeroBits (sha256 preimage).1 powBits = true

/-- The entry of the replay guard. -/
def powKey (pubkey nonce : String) : String := pubkey ++ "|" ++ nonce

namespace Guard

/-- A proof is checked, and spent where it passes. -/
def checkPoW (g : Guard) (pubkey nonce : String) : Bool × Guard :=
  if nonce = "" ∨ maxNonceLen < nonce.utf8ByteSize then (false, g)
  else if ! hasLeadingZeroBits (sha256 (pubkey.toUTF8 ++ nonce.toUTF8)).1 powBits then (false, g)
  else if powKey pubkey nonce ∈ g.powSeen then (false, g)
  else if powKey pubkey nonce ∈ g.powSeenPrev then (false, g)
  else (true, { g with powSeen := insert (powKey pubkey nonce) g.powSeen })

/-! ### One enrollment, one pass -/

/-- Sweeps the full buckets, and rotates the replay guard. -/
def gcOnce (g : Guard) (now : ℚ) : Guard :=
  let swept := { g with
    enrollIP := g.enrollIP.entries.foldl
      (fun m e => if enrollBurst ≤ tokensAt e.2 now then m.erase e.1 else m) g.enrollIP }
  if powGeneration ≤ now - g.powRotatedAt ∨ maxPowSeen < g.powSeen.card then
    { swept with powSeenPrev := g.powSeen, powSeen := ∅, powRotatedAt := now }
  else swept

end Guard

/-- The body of a call. -/
structure EnrollRequest where
  pubKey : String
  powNonce : String
deriving DecidableEq, Repr

/-- How far an enrollment gets. -/
inductive Verdict
  /-- 429 -/
  | rateLimited
  /-- 400, invalid JSON -/
  | badRequest
  /-- 400, pubkey must be base64 of 32 bytes -/
  | badPubkey
  /-- 403 -/
  | badPow
  /-- on to the address -/
  | passed
deriving DecidableEq, Repr

/-- The checks of an enrollment; a body that is not JSON has no request. -/
def Guard.handleEnroll (g : Guard) (ip : String) (body : Option EnrollRequest) (now : ℚ) :
    Verdict × Guard :=
  let (allowed, g) := g.allowEnroll ip now
  if ! allowed then (.rateLimited, g)
  else
    match body with
    | none => (.badRequest, g)
    | some req =>
        match decodeKey req.pubKey with
        | none => (.badPubkey, g)
        | some _ =>
            let (solved, g) := g.checkPoW sha256 req.pubKey req.powNonce
            if ! solved then (.badPow, g) else (.passed, g)

/-! ### Runs -/

/-- A call, or a round of the collector. -/
inductive Call
  | enroll (ip : String) (body : Option EnrollRequest) (now : ℚ)
  | gc (now : ℚ)
deriving DecidableEq, Repr

/-- When it happens. -/
def Call.now : Call → ℚ
  | .enroll _ _ now => now
  | .gc now => now

/-- The calls come at nondecreasing times. -/
def InTime (calls : List Call) : Prop := calls.Pairwise fun c c' => c.now ≤ c'.now

/-- The guard after it. -/
def Guard.step (g : Guard) : Call → Guard
  | .enroll ip body now => (g.handleEnroll sha256 ip body now).2
  | .gc now => g.gcOnce now

/-- An enrollment with its verdict. -/
structure Answer where
  ip : String
  body : Option EnrollRequest
  now : ℚ
  verdict : Verdict
deriving DecidableEq, Repr

/-- The enrollments of a run. -/
def answers : Guard → List Call → List Answer
  | _, [] => []
  | g, .enroll ip body now :: calls =>
      ⟨ip, body, now, (g.handleEnroll sha256 ip body now).1⟩ ::
        answers (g.step sha256 (.enroll ip body now)) calls
  | g, .gc now :: calls => answers (g.gcOnce now) calls

end PoW

/-! ### What the calls do -/

section Calls

variable {sha256 : ByteArray → Digest} {g : Guard}

/-- The rate limit leaves the replay guard alone. -/
lemma allowEnroll_pow (g : Guard) (ip : String) (now : ℚ) :
    (g.allowEnroll ip now).2.powSeen = g.powSeen ∧
      (g.allowEnroll ip now).2.powSeenPrev = g.powSeenPrev ∧
      (g.allowEnroll ip now).2.powRotatedAt = g.powRotatedAt := by
  rw [Guard.allowEnroll]
  split
  · exact ⟨rfl, rfl, rfl⟩
  · simp only
    split_ifs <;> exact ⟨rfl, rfl, rfl⟩

/-- The replay guard leaves the rate limit alone. -/
lemma checkPoW_enrollIP (g : Guard) (pubkey nonce : String) :
    (g.checkPoW sha256 pubkey nonce).2.enrollIP = g.enrollIP := by
  rw [Guard.checkPoW]
  split_ifs <;> rfl

/-- A proof of work that is accepted is solved and not spent, and then it is
spent. -/
lemma checkPoW_eq_true {pubkey nonce : String} :
    (g.checkPoW sha256 pubkey nonce).1 = true ↔
      nonce ≠ "" ∧ nonce.utf8ByteSize ≤ maxNonceLen ∧
        Solved sha256 (pubkey.toUTF8 ++ nonce.toUTF8) ∧
        powKey pubkey nonce ∉ g.powSeen ∧ powKey pubkey nonce ∉ g.powSeenPrev := by
  rw [Guard.checkPoW, Solved]
  split_ifs with hlen hbits hseen hprev
  · refine ⟨False.elim, fun h => ?_⟩
    obtain hempty | hlong := hlen
    · exact absurd hempty h.1
    · exact absurd h.2.1 (not_le.mpr hlong)
  · refine ⟨False.elim, fun h => ?_⟩
    rw [h.2.2.1] at hbits
    exact absurd hbits (by simp)
  · exact ⟨False.elim, fun h => absurd hseen h.2.2.2.1⟩
  · exact ⟨False.elim, fun h => absurd hprev h.2.2.2.2⟩
  · obtain ⟨hne, hle⟩ := not_or.mp hlen
    have hsolved : hasLeadingZeroBits (sha256 (pubkey.toUTF8 ++ nonce.toUTF8)).1 powBits = true :=
      by simpa using hbits
    exact ⟨fun _ => ⟨hne, not_lt.mp hle, hsolved, hseen, hprev⟩, fun _ => rfl⟩

lemma checkPoW_snd (g : Guard) (pubkey nonce : String) :
    (g.checkPoW sha256 pubkey nonce).2 =
      if (g.checkPoW sha256 pubkey nonce).1 then
        { g with powSeen := insert (powKey pubkey nonce) g.powSeen }
      else g := by
  rw [Guard.checkPoW]
  split_ifs <;> simp_all

/-- A sweep of the entries `es` keeps what has room. -/
lemma lookup_foldl_erase {es : List (Sigma fun _ : String => EnrollBucket)} {now : ℚ}
    {m : GoMap String EnrollBucket} {ip : String} {b : EnrollBucket} :
    (es.foldl (fun m e => if enrollBurst ≤ tokensAt e.2 now then m.erase e.1 else m) m).lookup ip =
        some b ↔
      m.lookup ip = some b ∧ ∀ b', ⟨ip, b'⟩ ∈ es → tokensAt b' now < enrollBurst := by
  induction es generalizing m with
  | nil => simp
  | cons e es ih =>
      have hhead : (if enrollBurst ≤ tokensAt e.2 now then m.erase e.1 else m).lookup ip = some b ↔
          m.lookup ip = some b ∧ (e.1 = ip → tokensAt e.2 now < enrollBurst) := by
        split
        · rename_i hfull
          rw [lookup_erase]
          split
          · rename_i heq
            refine ⟨nofun, fun h => ?_⟩
            exact absurd hfull (not_le.mpr (h.2 heq.symm))
          · rename_i hne
            exact ⟨fun h => ⟨h, fun heq => absurd heq.symm hne⟩, And.left⟩
        · rename_i hroom
          exact ⟨fun h => ⟨h, fun _ => not_le.mp hroom⟩, And.left⟩
      rw [List.foldl_cons, ih, hhead, and_assoc]
      refine and_congr_right fun _ => ⟨?_, fun h => ⟨?_, fun b' hb' => ?_⟩⟩
      · rintro ⟨hfirst, hrest⟩ b' hb'
        obtain rfl | hb' := List.mem_cons.mp hb'
        · exact hfirst rfl
        · exact hrest b' hb'
      · rintro rfl
        exact h e.2 (List.mem_cons_self ..)
      · exact h b' (List.mem_cons_of_mem _ hb')

/-- **A pass forgets the full buckets.** -/
lemma lookup_gcOnce {now : ℚ} {ip : String} {b : EnrollBucket} :
    (g.gcOnce now).enrollIP.lookup ip = some b ↔
      g.enrollIP.lookup ip = some b ∧ tokensAt b now < enrollBurst := by
  have hswept : (g.gcOnce now).enrollIP = g.enrollIP.entries.foldl
      (fun m e => if enrollBurst ≤ tokensAt e.2 now then m.erase e.1 else m) g.enrollIP := by
    rw [Guard.gcOnce]
    split <;> rfl
  rw [hswept, lookup_foldl_erase]
  refine and_congr_right fun hb => ⟨fun h => h b (AList.mem_lookup_iff.mp hb), fun h b' hb' => ?_⟩
  have hsame := AList.mem_lookup_iff.mpr hb'
  rw [hb] at hsame
  cases hsame
  exact h

/-- **What an enrollment does that passes**: it has a token, a key and a proof
of work that was not spent. -/
lemma handleEnroll_passed {ip : String} {body : Option EnrollRequest} {now : ℚ} :
    (g.handleEnroll sha256 ip body now).1 = .passed ↔
      (g.allowEnroll ip now).1 = true ∧ ∃ req, body = some req ∧
        (decodeKey req.pubKey).isSome ∧
        ((g.allowEnroll ip now).2.checkPoW sha256 req.pubKey req.powNonce).1 = true := by
  rw [Guard.handleEnroll]
  cases hallow : (g.allowEnroll ip now).1 with
  | false => simp [hallow]
  | true =>
      cases body with
      | none => simp [hallow]
      | some req =>
          cases hkey : decodeKey req.pubKey with
          | none => simp [hallow, hkey]
          | some raw =>
              cases hpow : ((g.allowEnroll ip now).2.checkPoW sha256 req.pubKey req.powNonce).1 with
              | false => simp [hallow, hkey, hpow]
              | true => simp [hallow, hkey, hpow]

/-- The rate limit decides alone who is turned away by it, and nothing else
touches the buckets. -/
lemma handleEnroll_enrollIP (sha256 : ByteArray → Digest) (g : Guard) (ip : String)
    (body : Option EnrollRequest) (now : ℚ) :
    ((g.handleEnroll sha256 ip body now).1 ≠ .rateLimited ↔ (g.allowEnroll ip now).1 = true) ∧
      (g.handleEnroll sha256 ip body now).2.enrollIP = (g.allowEnroll ip now).2.enrollIP := by
  rw [Guard.handleEnroll]
  cases hallow : (g.allowEnroll ip now).1 with
  | false => simp [hallow]
  | true =>
      cases body with
      | none => simp [hallow]
      | some req =>
          cases hkey : decodeKey req.pubKey with
          | none => simp [hallow, hkey]
          | some raw =>
              have hframe := @checkPoW_enrollIP sha256 (g.allowEnroll ip now).2 req.pubKey
                req.powNonce
              cases hpow : ((g.allowEnroll ip now).2.checkPoW sha256 req.pubKey req.powNonce).1 with
              | false => simp [hallow, hkey, hpow, hframe]
              | true => simp [hallow, hkey, hpow, hframe]

/-- An enrollment spends at most its own proof of work, and does if it
passes. -/
lemma handleEnroll_pow (sha256 : ByteArray → Digest) (g : Guard) (ip : String)
    (body : Option EnrollRequest) (now : ℚ) :
    g.powSeen ⊆ (g.handleEnroll sha256 ip body now).2.powSeen ∧
      (∀ key ∈ (g.handleEnroll sha256 ip body now).2.powSeen, key ∉ g.powSeen →
        ∃ req ∈ body, key = powKey req.pubKey req.powNonce) ∧
      (g.handleEnroll sha256 ip body now).2.powSeenPrev = g.powSeenPrev ∧
      (g.handleEnroll sha256 ip body now).2.powRotatedAt = g.powRotatedAt ∧
      ((g.handleEnroll sha256 ip body now).1 = .passed → ∀ req ∈ body,
        powKey req.pubKey req.powNonce ∈ (g.handleEnroll sha256 ip body now).2.powSeen) := by
  obtain ⟨hseen, hprev, hrotated⟩ := allowEnroll_pow g ip now
  rw [Guard.handleEnroll]
  cases hallow : (g.allowEnroll ip now).1 with
  | false => simp +contextual [hallow, hseen, hprev, hrotated]
  | true =>
      cases body with
      | none => simp +contextual [hallow, hseen, hprev, hrotated]
      | some req =>
          cases hkey : decodeKey req.pubKey with
          | none => simp +contextual [hallow, hkey, hseen, hprev, hrotated]
          | some raw =>
              have hstate := @checkPoW_snd sha256 (g.allowEnroll ip now).2 req.pubKey req.powNonce
              cases hpow : ((g.allowEnroll ip now).2.checkPoW sha256 req.pubKey req.powNonce).1 with
              | false =>
                  rw [hpow, if_neg Bool.false_ne_true] at hstate
                  simp +contextual [hallow, hkey, hpow, hstate, hseen, hprev, hrotated]
              | true =>
                  rw [hpow, if_pos rfl] at hstate
                  simp +contextual [hallow, hkey, hpow, hstate, hseen, hprev, hrotated]

end Calls

end CumulusVpn.Enrollment
