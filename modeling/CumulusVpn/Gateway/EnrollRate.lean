/-
The rate limit on enrollments and the sweeps of its buckets (`allowEnroll` and
`gcOnce` of `gateway/internal/api/api.go`).

* `Buckets`, `decisions`: the limit without sweeps, with a bucket for every IP;
* `Refines`: the map stands for the buckets; an IP that is missing in it has a
  full one, now and later;
* `Refines.allowEnroll`, `Refines.gcOnce`: an attempt and a sweep keep it so;
* `answers_decisions`: every run decides as the limit without sweeps;
* `sweeps_neutral`: **sweeps change no decision, and no IP gets more than the
  burst and one enrollment per window**.
-/
import CumulusVpn.Gateway.EnrollGuard

namespace CumulusVpn.Enrollment

open TokenBucket
open Peers (lookup_insert)

/-! ### The limit without sweeps -/

/-- The bucket of an address, as a rate. -/
def enrollRate : Rate ℚ where
  burst := enrollBurst
  window := enrollWindow
  one_le_burst := by norm_num
  window_pos := by norm_num

lemma tokensAt_eq (b : EnrollBucket) (now : ℚ) : tokensAt b now = level enrollRate b now := by
  rw [tokensAt, level]
  by_cases hlate : b.last < now
  · rw [if_neg (not_not.mpr hlate), if_neg (not_le.mpr hlate)]
    show (if enrollBurst < b.tokens + (now - b.last) / enrollWindow then enrollBurst
      else b.tokens + (now - b.last) / enrollWindow) =
        min enrollBurst (b.tokens + (now - b.last) / enrollWindow)
    rw [min_def]
    split_ifs <;> linarith
  · rw [if_pos hlate, if_pos (not_lt.mp hlate)]

/-- A bucket for every IP. -/
abbrev Buckets := String → EnrollBucket

/-- Who tries to enroll, and when. -/
def Call.attempt : Call → Option (String × ℚ)
  | .enroll ip _ now => some (ip, now)
  | .gc _ => none

/-- The attempts of a run. -/
def attempts (calls : List Call) : List (String × ℚ) := calls.filterMap Call.attempt

@[simp] lemma attempts_enroll (ip : String) (body : Option EnrollRequest) (now : ℚ)
    (calls : List Call) :
    attempts (.enroll ip body now :: calls) = (ip, now) :: attempts calls := rfl

@[simp] lemma attempts_gc (now : ℚ) (calls : List Call) :
    attempts (.gc now :: calls) = attempts calls := rfl

/-- Who is admitted. -/
def decisions : Buckets → List (String × ℚ) → List (String × ℚ × Bool)
  | _, [] => []
  | f, (ip, now) :: rest =>
      (ip, now, (take enrollRate (f ip) now).1) ::
        decisions (Function.update f ip (take enrollRate (f ip) now).2) rest

/-- The decision of the rate limit. -/
def Answer.decision (a : Answer) : String × ℚ × Bool :=
  (a.ip, a.now, decide (a.verdict ≠ .rateLimited))

/-- An IP is granted what its bucket grants. -/
lemma granted_decisions (ip : String) : ∀ (f : Buckets) (rest : List (String × ℚ)),
    ((decisions f rest).filter fun d => d.1 = ip ∧ d.2.2 = true).map (fun d => d.2.1) =
      granted enrollRate (f ip) ((rest.filter fun r => r.1 = ip).map Prod.snd)
  | f, [] => rfl
  | f, (ip', now) :: rest => by
      have ih := granted_decisions ip (Function.update f ip' (take enrollRate (f ip') now).2) rest
      rw [decisions]
      by_cases hip : ip' = ip
      · subst hip
        rw [Function.update_self] at ih
        have hfirst : ((ip', now) :: rest).filter (fun r => r.1 = ip') =
            (ip', now) :: rest.filter fun r => r.1 = ip' := List.filter_cons_of_pos (by simp)
        rw [hfirst, List.map_cons, granted, ← ih]
        cases (take enrollRate (f ip') now).1 with
        | false => simp
        | true => simp
      · rw [Function.update_of_ne (Ne.symm hip)] at ih
        rw [List.filter_cons_of_neg (by simp [hip]), List.filter_cons_of_neg (by simp [hip]), ih]

/-! ### The map of buckets -/

/-- The map stands for the buckets `f` from `now` on. -/
structure Refines (g : Guard) (f : Buckets) (now : ℚ) : Prop where
  kept : ∀ ip b, g.enrollIP.lookup ip = some b → b = f ip
  missing : ∀ ip, g.enrollIP.lookup ip = none → ∀ later, now ≤ later →
    level enrollRate (f ip) later = enrollBurst
  le_burst : ∀ ip, (f ip).tokens ≤ enrollBurst

/-- All buckets are full. -/
def allFull (start : ℚ) : Buckets := fun _ => ⟨enrollBurst, start⟩

lemma refines_new (start start' now : ℚ) : Refines (Guard.new start) (allFull start') now where
  kept ip b h := by cases h
  missing ip _ later _ := level_of_full (r := enrollRate) rfl later
  le_burst ip := le_rfl

section Steps

variable {g : Guard} {f : Buckets} {start now : ℚ}

lemma Refines.level_eq (h : Refines g f start) (hnow : start ≤ now) (ip : String) :
    level enrollRate (f ip) now =
      match g.enrollIP.lookup ip with
      | none => enrollBurst
      | some b => tokensAt b now := by
  cases hb : g.enrollIP.lookup ip with
  | none => exact h.missing ip hb now hnow
  | some b =>
      obtain rfl := h.kept ip b hb
      exact (tokensAt_eq _ now).symm

/-- **An attempt is decided as if there were no sweeps.** -/
lemma Refines.allowEnroll (h : Refines g f start) (hnow : start ≤ now) (ip : String) :
    (g.allowEnroll ip now).1 = (take enrollRate (f ip) now).1 ∧
      (g.allowEnroll ip now).2.enrollIP =
        g.enrollIP.insert ip (take enrollRate (f ip) now).2 := by
  have hlevel := h.level_eq hnow ip
  rw [Guard.allowEnroll, take]
  cases hb : g.enrollIP.lookup ip with
  | none =>
      rw [hb] at hlevel
      simp only at hlevel
      rw [hlevel, if_neg (by norm_num)]
      exact ⟨rfl, rfl⟩
  | some b =>
      rw [hb] at hlevel
      simp only at hlevel ⊢
      rw [hlevel]
      split_ifs <;> exact ⟨rfl, rfl⟩

/-- The bucket that was taken from is in the map. -/
lemma Refines.insert (h : Refines g f start) (hnow : start ≤ now) {ip : String}
    {g' : Guard} (hg' : g'.enrollIP = g.enrollIP.insert ip (take enrollRate (f ip) now).2) :
    Refines g' (Function.update f ip (take enrollRate (f ip) now).2) now := by
  refine ⟨fun ip' b hb => ?_, fun ip' hb later hlater => ?_, fun ip' => ?_⟩
  · rw [hg', lookup_insert] at hb
    by_cases hip : ip' = ip
    · rw [if_pos hip] at hb
      rw [hip, Function.update_self]
      exact (Option.some.inj hb).symm
    · rw [if_neg hip] at hb
      rw [Function.update_of_ne hip]
      exact h.kept ip' b hb
  · rw [hg', lookup_insert] at hb
    by_cases hip : ip' = ip
    · rw [if_pos hip] at hb
      cases hb
    · rw [if_neg hip] at hb
      rw [Function.update_of_ne hip]
      exact h.missing ip' hb later (hnow.trans hlater)
  · by_cases hip : ip' = ip
    · rw [hip, Function.update_self]
      exact tokens_take_le (h.le_burst ip) now
    · rw [Function.update_of_ne hip]
      exact h.le_burst ip'

/-- **A sweep forgets only what is full from now on.** -/
lemma Refines.gcOnce (h : Refines g f start) (hnow : start ≤ now) :
    Refines (g.gcOnce now) f now := by
  refine ⟨fun ip b hb => h.kept ip b (lookup_gcOnce.mp hb).1, fun ip hnone later hlater => ?_,
    h.le_burst⟩
  cases hb : g.enrollIP.lookup ip with
  | none => exact h.missing ip hb later (hnow.trans hlater)
  | some b =>
      obtain rfl := h.kept ip b hb
      have hfull : enrollBurst ≤ tokensAt (f ip) now := by
        by_contra hroom
        rw [lookup_gcOnce.mpr ⟨hb, not_le.mp hroom⟩] at hnone
        cases hnone
      rw [tokensAt_eq] at hfull
      exact level_eq_burst_of_le (h.le_burst ip) hfull hlater

end Steps

/-! ### Runs -/

section Runs

variable {sha256 : ByteArray → Digest}

/-- **A run decides as the limit without sweeps.** -/
lemma answers_decisions : ∀ {g : Guard} {f : Buckets} {start : ℚ} {calls : List Call},
    Refines g f start → (∀ c ∈ calls, start ≤ c.now) → InTime calls →
      (answers sha256 g calls).map Answer.decision = decisions f (attempts calls)
  | _, _, _, [], _, _, _ => rfl
  | g, f, start, .enroll ip body now :: calls, h, hstart, htime => by
      have hnow : start ≤ now := hstart _ (List.mem_cons_self ..)
      obtain ⟨hhead, htail⟩ := List.pairwise_cons.mp htime
      obtain ⟨htaken, hbuckets⟩ := h.allowEnroll hnow ip
      obtain ⟨hverdict, hframe⟩ := handleEnroll_enrollIP sha256 g ip body now
      have hdecision : decide ((g.handleEnroll sha256 ip body now).1 ≠ .rateLimited) =
          (take enrollRate (f ip) now).1 := by
        rw [← htaken]
        exact Bool.eq_iff_iff.mpr (decide_eq_true_iff.trans hverdict)
      have hrest := answers_decisions (h.insert hnow (hframe.trans hbuckets)) hhead htail
      rw [answers, List.map_cons, attempts_enroll, decisions, Answer.decision, hdecision]
      exact congrArg _ hrest
  | g, f, start, .gc now :: calls, h, hstart, htime => by
      have hnow : start ≤ now := hstart _ (List.mem_cons_self ..)
      obtain ⟨hhead, htail⟩ := List.pairwise_cons.mp htime
      rw [answers, attempts_gc]
      exact answers_decisions (h.gcOnce hnow) hhead htail

/-- A run from the start. -/
lemma answers_new (start start' : ℚ) {calls : List Call} (htime : InTime calls) :
    (answers sha256 (.new start) calls).map Answer.decision =
      decisions (allFull start') (attempts calls) := by
  cases calls with
  | nil => rfl
  | cons c calls =>
      refine answers_decisions (refines_new start start' c.now) (fun c' hc' => ?_) htime
      obtain rfl | hc' := List.mem_cons.mp hc'
      · exact le_rfl
      · exact (List.pairwise_cons.mp htime).1 c' hc'

/-- The attempts of a run come at nondecreasing times. -/
lemma attempts_inTime {calls : List Call} (htime : InTime calls) :
    (attempts calls).Pairwise fun r r' => r.2 ≤ r'.2 := by
  refine List.Pairwise.filterMap _ (fun c c' hle r hr r' hr' => ?_) htime
  cases c with
  | enroll ip body now =>
      cases c' with
      | enroll ip' body' now' =>
          cases hr
          cases hr'
          exact hle
      | gc now' => cases hr'
  | gc now => cases hr

lemma exists_le_attempts {calls : List Call} (htime : InTime calls) :
    ∃ first, ∀ r ∈ attempts calls, first ≤ r.2 := by
  have hsorted := attempts_inTime htime
  cases hcalls : attempts calls with
  | nil => exact ⟨0, nofun⟩
  | cons r rest =>
      rw [hcalls] at hsorted
      refine ⟨r.2, fun r' hr' => ?_⟩
      obtain rfl | hr' := List.mem_cons.mp hr'
      · exact le_rfl
      · exact (List.pairwise_cons.mp hsorted).1 r' hr'

/-- The admissions of an IP in an interval are tokens of its bucket. -/
lemma countP_answers (start first : ℚ) {calls : List Call} (htime : InTime calls) (ip : String)
    (a e : ℚ) :
    (answers sha256 (.new start) calls).countP (fun x =>
        x.ip = ip ∧ x.verdict ≠ .rateLimited ∧ a ≤ x.now ∧ x.now ≤ e) =
      (granted enrollRate ⟨enrollBurst, first⟩
        (((attempts calls).filter fun r => r.1 = ip).map Prod.snd)).countP
          fun t => a ≤ t ∧ t ≤ e := by
  have hgranted := granted_decisions ip (allFull first) (attempts calls)
  have hbucket : allFull first ip = ⟨enrollBurst, first⟩ := rfl
  rw [← hbucket, ← hgranted, ← answers_new start first htime, List.countP_map, List.countP_filter,
    List.countP_map]
  refine List.countP_congr fun x _ => ?_
  have hdecision : x.decision = (x.ip, x.now, decide (x.verdict ≠ .rateLimited)) := rfl
  simp only [hdecision, Function.comp_apply, decide_eq_true_eq, Bool.and_eq_true]
  tauto

/-- **Two runs that differ in their sweeps let through the same attempts, and no IP
gets more than the burst and one enrollment per window.** -/
theorem sweeps_neutral (sha256 : ByteArray → Digest) {calls calls' : List Call}
    (htime : InTime calls) (htime' : InTime calls') (hsame : attempts calls = attempts calls')
    (start start' : ℚ) :
    (answers sha256 (.new start) calls).map Answer.decision =
        (answers sha256 (.new start') calls').map Answer.decision ∧
      ∀ ip a T, 0 ≤ T →
        (((answers sha256 (.new start) calls).countP fun x =>
          x.ip = ip ∧ x.verdict ≠ .rateLimited ∧ a ≤ x.now ∧ x.now ≤ a + T : ℕ) : ℚ) ≤
          enrollBurst + T / enrollWindow := by
  refine ⟨?_, fun ip a T hT => ?_⟩
  · rw [answers_new start 0 htime, hsame, ← answers_new start' 0 htime']
  · obtain ⟨first, hfirst⟩ := exists_le_attempts htime
    rw [countP_answers start first htime]
    refine countP_granted_le (r := enrollRate) hT le_rfl (by norm_num) (fun t ht => ?_) ?_
    · obtain ⟨r, hr, rfl⟩ := List.mem_map.mp ht
      exact hfirst r (List.mem_filter.mp hr).1
    · exact ((attempts_inTime htime).filter _).map _ fun r r' hle => hle

/-- A sweep between two attempts. -/
theorem sweeps_neutral_between :
    (answers (fun _ => ⟨List.replicate 32 0, rfl⟩) (.new 0)
        [.enroll "192.0.2.1" none 0, .gc 2, .enroll "192.0.2.1" none 3]).map Answer.decision =
      (answers (fun _ => ⟨List.replicate 32 0, rfl⟩) (.new 0)
        [.enroll "192.0.2.1" none 0, .enroll "192.0.2.1" none 3]).map Answer.decision :=
  (@sweeps_neutral _ [.enroll "192.0.2.1" none 0, .gc 2, .enroll "192.0.2.1" none 3]
    [.enroll "192.0.2.1" none 0, .enroll "192.0.2.1" none 3] (by norm_num [InTime, Call.now])
    (by norm_num [InTime, Call.now]) rfl 0 0).1

end Runs

end CumulusVpn.Enrollment
