/-
The proof of work of an enrollment is spent once (`checkPoW` of
`gateway/internal/api/pow.go`, `gcOnce` and `handleEnroll` of
`gateway/internal/api/api.go`).

The replay guard is keyed by `pubkey|nonce`, while the work is over the bytes
of both in a row; and the decoder of the keys ignores line breaks.

* `Remembers`: a key is spent from a time on, or a generation went by;
* `Remembers.handleEnroll`, `Remembers.gcOnce`: **no pass forgets a key before
  a generation went by**;
* `length_of_decodeKey`: a key has 44 characters next to its line breaks;
* `Ambiguous`: a line break may belong to the key or to the nonce;
* `splits_eq`: otherwise there is one way to split the bytes;
* `work_once_iff`: **a solved preimage is accepted once per generation exactly
  when it is not ambiguous**.
-/
import CumulusVpn.Gateway.EnrollGuard
import CumulusVpn.Lib.StepSystem

namespace CumulusVpn.Enrollment

open StepSystem
open Peers (decodeKey Identity)

variable {sha256 : ByteArray → Digest}

/-! ### The replay guard -/

/-- The guard remembers a key that was spent at `spent`, or a generation went
by until `now`. -/
def Remembers (g : Guard) (key : String) (spent now : ℚ) : Prop :=
  key ∈ g.powSeen ∨ (key ∈ g.powSeenPrev ∧ spent ≤ g.powRotatedAt) ∨ spent + powGeneration ≤ now

/-- No pass rotates for the size of the guard alone. -/
def RotatesInTime (g : Guard) : Call → Prop
  | .enroll _ _ _ => True
  | .gc now => powGeneration ≤ now - g.powRotatedAt ∨ g.powSeen.card ≤ maxPowSeen

section Steps

variable {g : Guard} {key : String} {spent start now : ℚ}

lemma Remembers.handleEnroll (h : Remembers g key spent start) (hnow : start ≤ now) (ip : String)
    (body : Option EnrollRequest) :
    Remembers (g.handleEnroll sha256 ip body now).2 key spent now := by
  obtain ⟨hseen, -, hprev, hrotated, -⟩ := handleEnroll_pow sha256 g ip body now
  obtain hkey | ⟨hkey, hspent⟩ | hold := h
  · exact Or.inl (hseen hkey)
  · exact Or.inr (Or.inl ⟨by rwa [hprev], by rwa [hrotated]⟩)
  · exact Or.inr (Or.inr (hold.trans hnow))

/-- **A key outlives a rotation in the previous generation, and the next
rotation comes a generation later.** -/
lemma Remembers.gcOnce (h : Remembers g key spent start) (hspent : spent ≤ now)
    (hnow : start ≤ now) (hrotates : RotatesInTime g (.gc now)) :
    Remembers (g.gcOnce now) key spent now := by
  by_cases hdue : powGeneration ≤ now - g.powRotatedAt
  · have hprev : (g.gcOnce now).powSeenPrev = g.powSeen ∧ (g.gcOnce now).powRotatedAt = now := by
      rw [Guard.gcOnce, if_pos (Or.inl hdue)]
      exact ⟨rfl, rfl⟩
    obtain hkey | ⟨-, hrotated⟩ | hold := h
    · exact Or.inr (Or.inl ⟨by rwa [hprev.1], by rwa [hprev.2]⟩)
    · exact Or.inr (Or.inr (by linarith))
    · exact Or.inr (Or.inr (hold.trans hnow))
  · have hsize : ¬ maxPowSeen < g.powSeen.card :=
      not_lt.mpr (Or.resolve_left hrotates hdue)
    have hsame : (g.gcOnce now).powSeen = g.powSeen ∧
        (g.gcOnce now).powSeenPrev = g.powSeenPrev ∧
        (g.gcOnce now).powRotatedAt = g.powRotatedAt := by
      rw [Guard.gcOnce, if_neg (not_or.mpr ⟨hdue, hsize⟩)]
      exact ⟨rfl, rfl, rfl⟩
    obtain hkey | ⟨hkey, hrotated⟩ | hold := h
    · exact Or.inl (by rwa [hsame.1])
    · exact Or.inr (Or.inl ⟨by rwa [hsame.2.1], by rwa [hsame.2.2]⟩)
    · exact Or.inr (Or.inr (hold.trans hnow))

/-- A key that is remembered passes only when a generation went by. -/
lemma Remembers.le_of_passed (h : Remembers g key spent start) (hnow : start ≤ now) {ip : String}
    {req : EnrollRequest} (hkey : powKey req.pubKey req.powNonce = key)
    (hpassed : (g.handleEnroll sha256 ip (some req) now).1 = .passed) :
    spent + powGeneration ≤ now := by
  obtain ⟨-, req', hreq, -, hpow⟩ := handleEnroll_passed.mp hpassed
  obtain rfl := Option.some.inj hreq
  obtain ⟨-, -, -, hseen, hprev⟩ := checkPoW_eq_true.mp hpow
  obtain ⟨hseenEq, hprevEq, -⟩ := allowEnroll_pow g ip now
  rw [hkey] at hseen hprev
  rw [hseenEq] at hseen
  rw [hprevEq] at hprev
  obtain hin | ⟨hin, -⟩ | hold := h
  · exact absurd hin hseen
  · exact absurd hin hprev
  · exact hold.trans hnow

end Steps

/-! ### Runs -/

/-- A request was accepted. -/
def Answer.Passes (a : Answer) (req : EnrollRequest) : Prop :=
  a.verdict = .passed ∧ a.body = some req

/-- A spent key is accepted again only when a generation went by. -/
lemma le_now_of_remembers {key : String} {spent : ℚ} : ∀ {g : Guard} {start : ℚ}
    {calls : List Call}, Remembers g key spent start → spent ≤ start →
      (∀ c ∈ calls, start ≤ c.now) → InTime calls →
      Along (total (Guard.step sha256)) RotatesInTime g calls →
      ∀ a ∈ answers sha256 g calls, ∀ req, a.Passes req →
        powKey req.pubKey req.powNonce = key → spent + powGeneration ≤ a.now
  | g, start, [], _, _, _, _, _, a, ha => by cases ha
  | g, start, .enroll ip body now :: calls, h, hspent, hstart, htime, hrotates, a, ha => by
      have hnow : start ≤ now := hstart _ (List.mem_cons_self ..)
      obtain ⟨hhead, htail⟩ := List.pairwise_cons.mp htime
      rw [along_total_cons] at hrotates
      intro req hpasses hkey
      rw [answers] at ha
      obtain rfl | ha := List.mem_cons.mp ha
      · obtain ⟨hpassed, hbody⟩ := hpasses
        simp only at hpassed hbody
        subst hbody
        exact h.le_of_passed hnow hkey hpassed
      · exact le_now_of_remembers (h.handleEnroll hnow ip body) (hspent.trans hnow) hhead htail
          hrotates.2 a ha req hpasses hkey
  | g, start, .gc now :: calls, h, hspent, hstart, htime, hrotates, a, ha => by
      have hnow : start ≤ now := hstart _ (List.mem_cons_self ..)
      obtain ⟨hhead, htail⟩ := List.pairwise_cons.mp htime
      rw [along_total_cons] at hrotates
      rw [answers] at ha
      exact le_now_of_remembers (h.gcOnce (hspent.trans hnow) hnow hrotates.1) (hspent.trans hnow)
        hhead htail hrotates.2 a ha

/-- **The same request is accepted once per generation.** -/
lemma answers_pairwise : ∀ {g : Guard} {calls : List Call}, InTime calls →
    Along (total (Guard.step sha256)) RotatesInTime g calls →
      (answers sha256 g calls).Pairwise fun a a' => ∀ req, a.Passes req → a'.Passes req →
        a.now + powGeneration ≤ a'.now
  | _, [], _, _ => List.Pairwise.nil
  | g, .enroll ip body now :: calls, htime, hrotates => by
      obtain ⟨hhead, htail⟩ := List.pairwise_cons.mp htime
      rw [along_total_cons] at hrotates
      rw [answers]
      refine List.pairwise_cons.mpr ⟨fun a' ha' req hpasses hpasses' => ?_,
        answers_pairwise htail hrotates.2⟩
      obtain ⟨hpassed, hbody⟩ := hpasses
      have hspent : Remembers (g.step sha256 (.enroll ip body now))
          (powKey req.pubKey req.powNonce) now now :=
        Or.inl ((handleEnroll_pow _ g ip body now).2.2.2.2 hpassed req hbody)
      exact le_now_of_remembers hspent le_rfl hhead htail hrotates.2 a' ha' req hpasses' rfl
  | g, .gc now :: calls, htime, hrotates => by
      rw [along_total_cons] at hrotates
      rw [answers]
      exact answers_pairwise (List.pairwise_cons.mp htime).2 hrotates.2

/-! ### How the bytes may be split -/

/-- **A key has 44 characters next to its line breaks.** -/
lemma length_of_decodeKey {pubkey : String} (h : (decodeKey pubkey).isSome) :
    (pubkey.toList.filter fun c => ¬ (c = '\n' ∨ c = '\r')).length = 44 := by
  obtain ⟨raw, hraw⟩ := Option.isSome_iff_exists.mp h
  obtain ⟨hquanta, hlen⟩ := Option.filter_eq_some_iff.mp hraw
  obtain ⟨-, pad, hpad, hlength⟩ := Base64.decodeQuanta_text hquanta
  have hraw : raw.length = 32 := by simpa using hlen
  omega

/-- A line break in the preimage that the key and the nonce may both have. -/
def Ambiguous (preimage : ByteArray) : Prop :=
  ∃ (pubkey : String) (c : Char) (nonce : String),
    preimage = (pubkey ++ String.singleton c ++ nonce).toUTF8 ∧ (decodeKey pubkey).isSome ∧
      (c = '\n' ∨ c = '\r') ∧ nonce ≠ "" ∧ nonce.utf8ByteSize < maxNonceLen

/-- What follows a key within another one is a line break. -/
lemma ambiguous_of_longer {pubkey nonce : String} {c : Char} {cs : List Char}
    (h : (decodeKey pubkey).isSome) (hlong : (decodeKey (pubkey ++ String.ofList (c :: cs))).isSome)
    (hnonce : nonce ≠ "") (hlen : (String.ofList (c :: cs) ++ nonce).utf8ByteSize ≤ maxNonceLen) :
    Ambiguous (pubkey ++ (String.ofList (c :: cs) ++ nonce)).toUTF8 := by
  have hkey := length_of_decodeKey h
  have hmore := length_of_decodeKey hlong
  rw [String.toList_append, String.toList_ofList, List.filter_append, List.length_append,
    hkey] at hmore
  have hnone : (c :: cs).filter (fun c => ¬ (c = '\n' ∨ c = '\r')) = [] :=
    List.eq_nil_of_length_eq_zero (by omega)
  have hbreak : c = '\n' ∨ c = '\r' := by
    simpa [or_iff_not_imp_left] using List.filter_eq_nil_iff.mp hnone c (List.mem_cons_self ..)
  have hsplit : String.ofList (c :: cs) = String.singleton c ++ String.ofList cs :=
    String.toList_inj.mp (by simp)
  rw [hsplit, String.append_assoc, String.utf8ByteSize_append,
    String.utf8ByteSize_singleton] at hlen
  have hpos := c.utf8Size_pos
  refine ⟨pubkey, c, String.ofList cs ++ nonce, ?_, h, hbreak, fun hempty => ?_, by omega⟩
  · rw [hsplit, String.append_assoc, String.append_assoc]
  · exact hnonce (String.append_eq_empty_iff.mp hempty).2

/-- **Where the preimage is not ambiguous, it is split in one way.** -/
lemma splits_eq {pubkey nonce pubkey' nonce' : String} (h : (decodeKey pubkey).isSome)
    (h' : (decodeKey pubkey').isSome) (hnonce : nonce ≠ "") (hnonce' : nonce' ≠ "")
    (hlen : nonce.utf8ByteSize ≤ maxNonceLen) (hlen' : nonce'.utf8ByteSize ≤ maxNonceLen)
    (hsame : pubkey ++ nonce = pubkey' ++ nonce')
    (hclear : ¬ Ambiguous (pubkey ++ nonce).toUTF8) : pubkey = pubkey' ∧ nonce = nonce' := by
  have hlists := congrArg String.toList hsame
  rw [String.toList_append, String.toList_append] at hlists
  obtain ⟨rest, hkey, hrest⟩ | ⟨rest, hkey, hrest⟩ := List.append_eq_append_iff.mp hlists
  · have hkey : pubkey' = pubkey ++ String.ofList rest := String.toList_inj.mp (by simp [hkey])
    have hrest : nonce = String.ofList rest ++ nonce' := String.toList_inj.mp (by simp [hrest])
    cases rest with
    | nil => simp_all
    | cons c cs =>
        rw [hrest] at hclear hlen
        rw [hkey] at h'
        exact absurd (ambiguous_of_longer h h' hnonce' hlen) hclear
  · have hkey : pubkey = pubkey' ++ String.ofList rest := String.toList_inj.mp (by simp [hkey])
    have hrest : nonce' = String.ofList rest ++ nonce := String.toList_inj.mp (by simp [hrest])
    cases rest with
    | nil => simp_all
    | cons c cs =>
        rw [hsame, hrest] at hclear
        rw [hrest] at hlen'
        rw [hkey] at h
        exact absurd (ambiguous_of_longer h' h hnonce hlen') hclear

/-! ### One proof of work, one enrollment -/

/-- An answer accepts the preimage. -/
def Answer.Spends (preimage : ByteArray) (a : Answer) : Prop :=
  ∃ req, a.Passes req ∧ req.pubKey.toUTF8 ++ req.powNonce.toUTF8 = preimage

/-- What an accepted request met. -/
lemma passes_spec : ∀ {g : Guard} {calls : List Call}, ∀ a ∈ answers sha256 g calls, ∀ req,
    a.Passes req → (decodeKey req.pubKey).isSome ∧ req.powNonce ≠ "" ∧
      req.powNonce.utf8ByteSize ≤ maxNonceLen ∧
      Solved sha256 (req.pubKey.toUTF8 ++ req.powNonce.toUTF8)
  | _, [], a, ha => by cases ha
  | g, .enroll ip body now :: calls, a, ha => by
      intro req hpasses
      rw [answers] at ha
      obtain rfl | ha := List.mem_cons.mp ha
      · obtain ⟨-, req', hreq, hkey, hpow⟩ := handleEnroll_passed.mp hpasses.1
        obtain rfl : req' = req := Option.some.inj (hreq.symm.trans hpasses.2)
        obtain ⟨hne, hle, hsolved, -⟩ := checkPoW_eq_true.mp hpow
        exact ⟨hkey, hne, hle, hsolved⟩
      · exact passes_spec a ha req hpasses
  | g, .gc now :: calls, a, ha => passes_spec a (by rwa [answers] at ha)

/-- Every run accepts the preimage at most once within a generation. -/
def OncePerGeneration (sha256 : ByteArray → Digest) (preimage : ByteArray) : Prop :=
  ∀ start calls, (∀ c ∈ calls, start ≤ c.now) → InTime calls →
    Along (total (Guard.step sha256)) RotatesInTime (Guard.new start) calls →
      (answers sha256 (Guard.new start) calls).Pairwise fun a a' =>
        a.Spends preimage → a'.Spends preimage → a.now + powGeneration ≤ a'.now

/-- Moving a line break from the nonce to the key is another key of the replay
guard, of the same preimage. -/
lemma powKey_move {pubkey nonce : String} {c : Char} (hbreak : c = '\n' ∨ c = '\r') :
    powKey (pubkey ++ String.singleton c) nonce ≠ powKey pubkey (String.singleton c ++ nonce) := by
  intro heq
  have hlists := congrArg String.toList heq
  simp only [powKey, String.toList_append, String.toList_singleton, List.append_assoc,
    List.append_cancel_left_eq] at hlists
  obtain rfl | rfl := hbreak
  · simp at hlists
  · simp at hlists

/-- The bytes are the same with the line break in the nonce. -/
lemma toUTF8_move (pubkey nonce : String) (c : Char) :
    pubkey.toUTF8 ++ (String.singleton c ++ nonce).toUTF8 =
      (pubkey ++ String.singleton c ++ nonce).toUTF8 := by
  rw [String.append_assoc]
  exact String.toByteArray_append.symm

/-- A line break after a key is not part of it. -/
lemma decodeKey_append {pubkey : String} {c : Char} (hbreak : c = '\n' ∨ c = '\r') :
    decodeKey (pubkey ++ String.singleton c) = decodeKey pubkey := by
  rw [decodeKey, decodeKey, String.toList_append, String.toList_singleton, List.filter_append,
    List.filter_cons_of_neg (by simpa [or_iff_not_imp_left] using hbreak), List.filter_nil,
    List.append_nil]

/-- A request passes at the first attempt of its IP, unless it was spent. -/
lemma passed_of_first {g : Guard} {ip : String} {req : EnrollRequest} {now : ℚ}
    (hip : g.enrollIP.lookup ip = none) (hkey : (decodeKey req.pubKey).isSome)
    (hne : req.powNonce ≠ "") (hle : req.powNonce.utf8ByteSize ≤ maxNonceLen)
    (hsolved : Solved sha256 (req.pubKey.toUTF8 ++ req.powNonce.toUTF8))
    (hseen : powKey req.pubKey req.powNonce ∉ g.powSeen)
    (hprev : powKey req.pubKey req.powNonce ∉ g.powSeenPrev) :
    (g.handleEnroll sha256 ip (some req) now).1 = .passed := by
  obtain ⟨hseenEq, hprevEq, -⟩ := allowEnroll_pow g ip now
  refine handleEnroll_passed.mpr ⟨?_, req, rfl, hkey, checkPoW_eq_true.mpr
    ⟨hne, hle, hsolved, by rwa [hseenEq], by rwa [hprevEq]⟩⟩
  rw [Guard.allowEnroll, hip]

/-- A line break that goes with the nonce and then with the key: one solved
preimage is accepted twice. -/
lemma answers_ambiguous {pubkey nonce : String} {c : Char} (start : ℚ)
    (hkey : (decodeKey pubkey).isSome) (hbreak : c = '\n' ∨ c = '\r') (hne : nonce ≠ "")
    (hlen : nonce.utf8ByteSize < maxNonceLen)
    (hsolved : Solved sha256 (pubkey ++ String.singleton c ++ nonce).toUTF8) :
    answers sha256 (.new start)
        [.enroll "192.0.2.1" (some ⟨pubkey, String.singleton c ++ nonce⟩) start,
          .enroll "192.0.2.2" (some ⟨pubkey ++ String.singleton c, nonce⟩) start] =
      [⟨"192.0.2.1", some ⟨pubkey, String.singleton c ++ nonce⟩, start, .passed⟩,
        ⟨"192.0.2.2", some ⟨pubkey ++ String.singleton c, nonce⟩, start, .passed⟩] := by
  have hsize : (String.singleton c ++ nonce).utf8ByteSize ≤ maxNonceLen := by
    have hone : c.utf8Size = 1 := by obtain rfl | rfl := hbreak <;> rfl
    rw [String.utf8ByteSize_append, String.utf8ByteSize_singleton, hone]
    omega
  have hfirst : ((Guard.new start).handleEnroll sha256 "192.0.2.1"
      (some ⟨pubkey, String.singleton c ++ nonce⟩) start).1 = .passed :=
    passed_of_first rfl hkey (fun h => hne (String.append_eq_empty_iff.mp h).2) hsize
      (by rwa [toUTF8_move]) (Finset.notMem_empty _) (Finset.notMem_empty _)
  obtain ⟨-, hspent, hprev, -⟩ := handleEnroll_pow sha256 (.new start) "192.0.2.1"
    (some ⟨pubkey, String.singleton c ++ nonce⟩) start
  obtain ⟨-, hbuckets⟩ := handleEnroll_enrollIP sha256 (.new start) "192.0.2.1"
    (some ⟨pubkey, String.singleton c ++ nonce⟩) start
  have hwork : Solved sha256 ((pubkey ++ String.singleton c).toUTF8 ++ nonce.toUTF8) := by
    have hbytes : (pubkey ++ String.singleton c).toUTF8 ++ nonce.toUTF8 =
        (pubkey ++ String.singleton c ++ nonce).toUTF8 := String.toByteArray_append.symm
    rwa [hbytes]
  have hsecond : ((Guard.step sha256 (.new start) (.enroll "192.0.2.1"
      (some ⟨pubkey, String.singleton c ++ nonce⟩) start)).handleEnroll sha256 "192.0.2.2"
        (some ⟨pubkey ++ String.singleton c, nonce⟩) start).1 = .passed := by
    refine passed_of_first ?_ (by rwa [decodeKey_append hbreak]) hne hlen.le hwork
      (fun hin => ?_) (fun hin => ?_)
    · show ((Guard.new start).handleEnroll sha256 _ _ _).2.enrollIP.lookup _ = none
      rw [hbuckets]
      rfl
    · obtain ⟨req, hreq, heq⟩ := hspent _ hin (Finset.notMem_empty _)
      obtain rfl := Option.some.inj hreq
      exact powKey_move hbreak heq
    · rw [Guard.step, hprev] at hin
      exact Finset.notMem_empty _ hin
  rw [answers, answers, answers, hfirst, hsecond]

/-- **A solved and ambiguous preimage is accepted twice at once.** -/
lemma not_oncePerGeneration {preimage : ByteArray} (hsolved : Solved sha256 preimage)
    (h : Ambiguous preimage) : ¬ OncePerGeneration sha256 preimage := by
  obtain ⟨pubkey, c, nonce, rfl, hkey, hbreak, hnonce, hlen⟩ := h
  intro honce
  have hpair := honce 0 [.enroll "192.0.2.1" (some ⟨pubkey, String.singleton c ++ nonce⟩) 0,
    .enroll "192.0.2.2" (some ⟨pubkey ++ String.singleton c, nonce⟩) 0]
    (by simp [Call.now]) (by simp [InTime, Call.now]) (by simp [RotatesInTime])
  rw [answers_ambiguous 0 hkey hbreak hnonce hlen hsolved] at hpair
  have hfar := (List.pairwise_cons.mp hpair).1 _ (List.mem_cons_self ..)
    ⟨_, ⟨rfl, rfl⟩, toUTF8_move pubkey nonce c⟩ ⟨_, ⟨rfl, rfl⟩, String.toByteArray_append.symm⟩
  exact absurd hfar (by norm_num)

/-- **A preimage is accepted once per generation, whatever passes fall in
between, exactly if it is not solved or not ambiguous.** -/
theorem work_once_iff (sha256 : ByteArray → Digest) (preimage : ByteArray) :
    OncePerGeneration sha256 preimage ↔ ¬ (Solved sha256 preimage ∧ Ambiguous preimage) := by
  refine ⟨fun honce h => not_oncePerGeneration h.1 h.2 honce, ?_⟩
  intro hclear start calls _ htime hrotates
  refine (answers_pairwise htime hrotates).imp_of_mem fun {a a'} ha ha' hpair => ?_
  rintro ⟨req, hpasses, hreq⟩ ⟨req', hpasses', hreq'⟩
  obtain ⟨hkey, hne, hle, hsolved⟩ := passes_spec a ha req hpasses
  obtain ⟨hkey', hne', hle', -⟩ := passes_spec a' ha' req' hpasses'
  rw [hreq] at hsolved
  have hsame : req.pubKey ++ req.powNonce = req'.pubKey ++ req'.powNonce := by
    apply String.toByteArray_inj.mp
    rw [String.toByteArray_append, String.toByteArray_append]
    exact hreq.trans hreq'.symm
  have hbytes : (req.pubKey ++ req.powNonce).toUTF8 = preimage :=
    String.toByteArray_append.trans hreq
  obtain ⟨hpub, hnon⟩ := splits_eq hkey hkey' hne hne' hle hle' hsame
    (by rw [hbytes]; exact fun hamb => hclear ⟨hsolved, hamb⟩)
  obtain rfl : req = req' := by
    cases req
    cases req'
    simp_all
  exact hpair req hpasses hpasses'

/-! ### A preimage that is accepted twice -/

/-- The digest of `twicePreimage`. -/
def twiceDigest : Digest :=
  ⟨[0x00, 0x00, 0x0b, 0x13, 0x6d, 0xb0, 0x76, 0xeb, 0xd5, 0x9b, 0x8c, 0x0b, 0xad, 0x8a, 0x14, 0xbd,
    0x19, 0xda, 0x9e, 0x0d, 0xc8, 0xc6, 0x6b, 0x72, 0x28, 0x1b, 0xd7, 0x4a, 0x61, 0xe5, 0x85, 0x0e],
    rfl⟩

/-- A preimage of two proofs: the line break is the key's or the nonce's. -/
def twicePreimage : ByteArray :=
  ("AAAAAAAAAAAAAAAAAAAAAAAAAAAAAAAAAAAAAAAAAAA=" ++ String.singleton '\n' ++ "1170013").toUTF8

/-- The line break goes with the nonce first, and with the key then. -/
theorem work_twice : ¬ OncePerGeneration (fun _ => twiceDigest) twicePreimage :=
  have hsolved : hasLeadingZeroBits twiceDigest.1 powBits = true := by decide
  not_oncePerGeneration hsolved ⟨_, _, _, rfl, by decide, Or.inl rfl, by decide, by decide⟩

end CumulusVpn.Enrollment
