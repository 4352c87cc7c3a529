/-
The price schedules of a fleet (`deploy/scripts/reprice.mjs`,
`deploy/scripts/update-image.mjs`): the manifest, what the apps carry, and the
update messages in between.

* `plannedSchedule`: the manifest's schedule after a reprice, with the part
  that no app carries replaced;
* `Fleet`, `step`: a reprice, a broadcast to one app, a landing, a block;
* `Orderly`: no reprice while an update may still land that carries what the
  reprice replaces, and the updates of an app land in the order they were signed;
* `AppendsOnly`: what the apps carry and what may still land are prefixes of the
  manifest, in that order;
* `append_only`: **so it is in every orderly run**; `not_append_only` is a run
  with a late broadcast.
-/
import CumulusVpn.Deploy.PriceRefusal
import CumulusVpn.Lib.StepSystem

namespace CumulusVpn.Deploy

open StepSystem

/-! ### A reprice -/

/-- How long after an entry's start an unsent copy of it may still land. -/
def redateSettleBlocks : Int := 480

/-- For how many blocks a signed message stays claimable. -/
def extendMargin : Int := 480

/-- The text of an entry, by which entries are compared. -/
def key (e : Entry) : List Char := Deploy.formatFlux e.flux ++ '@' :: formatHeight e.from_

/-- Why a reprice is refused. -/
inductive PlanError
  /-- unsent entry may still land -/
  | inFlight (e : Entry)
  /-- a published entry starts at or after the new one -/
  | published (last : Entry)
  /-- the fleet already charges the price -/
  | sameFlux (last : Entry)
deriving DecidableEq, Repr

/-- How many entries stay: down from `n`, past those that no app carries. -/
def keepFrom (entries : List Entry) (published : List (List Char)) : Nat → Nat
  | 0 => 0
  | 1 => 1
  | n + 2 =>
      if key (entries.getD (n + 1) default) ∉ published then keepFrom entries published (n + 1)
      else n + 2

/-- The schedule with `entry` added, and the entries that it replaces. -/
def plannedSchedule (entries : List Entry) (published : List (List Char)) (entry : Entry)
    (tip : Int) (forceRedate : Bool) : Except PlanError (List Entry × List Entry) :=
  let keep := keepFrom entries published entries.length
  let inFlight := (entries.drop keep).find? fun e => tip ≤ e.from_ + redateSettleBlocks
  let kept := entries.take keep
  let last := kept.getD (kept.length - 1) default
  match inFlight.filter fun _ => ¬ forceRedate with
  | some e => .error (.inFlight e)
  | none =>
      if entry.from_ ≤ last.from_ then .error (.published last)
      else if entry.flux = last.flux then .error (.sameFlux last)
      else .ok (kept ++ [entry], entries.drop keep)

/-! ### The fleet -/

/-- A signed update of one app. -/
structure Update (App : Type*) where
  app : App
  schedule : List Entry
  signedAt : Int
  /-- its number among the updates -/
  serial : Nat
deriving DecidableEq

/-- The manifest, the apps on the chain, and the updates on their way. -/
structure Fleet (App : Type*) where
  tip : Int
  manifest : List Entry
  /-- the schedule that an app's on-chain spec stands for -/
  live : App → List Entry
  inFlight : List (Update App)
  /-- the updates signed so far, and the last that an app has landed -/
  signed : Nat
  landed : App → Nat

/-- A run of one of the scripts, or a step of the chain. -/
inductive Event (App : Type*)
  | reprice (flux : ℚ) (lead : Int)
  | broadcast (app : App)
  | land (u : Update App)
  | block
deriving DecidableEq

section Fleet

variable {App : Type*} [DecidableEq App]

/-- What the specs of the apps carry. -/
def Fleet.published (apps : List App) (f : Fleet App) : List (List Char) :=
  (apps.flatMap f.live).map key

/-- The update of one app at the manifest's schedule. -/
def Fleet.sign (f : Fleet App) (app : App) : Update App :=
  ⟨app, f.manifest, f.tip, f.signed + 1⟩

/-- One step. -/
def step (apps : List App) (f : Fleet App) : Event App → Option (Fleet App)
  | .reprice flux lead =>
      if 1 ≤ lead then
        match plannedSchedule f.manifest (f.published apps) ⟨f.tip + lead, flux⟩ f.tip false with
        | .ok (schedule, _) => some { f with manifest := schedule }
        | .error _ => none
      else none
  | .broadcast app =>
      -- a roll of the image sends the schedule of an app that is up to date again
      if app ∈ apps ∧ refusal (f.live app) f.manifest f.tip false = none then
        some { f with
          inFlight := f.inFlight ++ [f.sign app]
          signed := f.signed + 1 }
      else none
  | .land u =>
      if u ∈ f.inFlight ∧ f.tip ≤ u.signedAt + extendMargin then
        some { f with
          live := Function.update f.live u.app u.schedule
          inFlight := f.inFlight.erase u
          landed := Function.update f.landed u.app u.serial }
      else none
  | .block => some { f with tip := f.tip + 1 }

/-- A fleet with nothing under way. -/
def Fleet.start (tip : Int) (manifest : List Entry) (live : App → List Entry) : Fleet App :=
  ⟨tip, manifest, live, [], 0, fun _ => 0⟩

/-- A reprice finds no claimable update with a settled entry that no app
carries, and an update does not land over a later one of its app. -/
def Orderly (apps : List App) (f : Fleet App) : Event App → Prop
  | .reprice .. => ∀ u ∈ f.inFlight, f.tip ≤ u.signedAt + extendMargin → ∀ e ∈ u.schedule,
      f.tip ≤ e.from_ + redateSettleBlocks ∨ ∃ app ∈ apps, e ∈ f.live app
  | .land u => f.landed u.app < u.serial ∨ u.schedule = f.live u.app
  | _ => True

instance (apps : List App) (f : Fleet App) : (e : Event App) → Decidable (Orderly apps f e)
  | .reprice .. => inferInstanceAs (Decidable (∀ u ∈ f.inFlight, _ → ∀ e ∈ u.schedule, _ ∨ _))
  | .land u => inferInstanceAs (Decidable (f.landed u.app < u.serial ∨ _))
  | .broadcast _ | .block => inferInstanceAs (Decidable True)

/-! ### Appended entries only -/

/-- The update can land no more. -/
def Update.Expired (u : Update App) (tip : Int) : Prop := u.signedAt + extendMargin < tip

omit [DecidableEq App] in
lemma Update.Expired.mono {u : Update App} {tip tip' : Int} (h : u.Expired tip)
    (hle : tip ≤ tip') : u.Expired tip' := lt_of_lt_of_le h hle

omit [DecidableEq App] in
lemma Update.not_expired {u : Update App} {tip : Int} (h : tip ≤ u.signedAt + extendMargin) :
    ¬ u.Expired tip := not_lt.mpr h

/-- What is live, and what may still land, is part of the manifest. -/
structure AppendsOnly (apps : List App) (f : Fleet App) : Prop where
  live : ∀ app ∈ apps, f.live app <+: f.manifest
  signed : ∀ u ∈ f.inFlight, u.serial ≤ f.signed
  landing : ∀ u ∈ f.inFlight, u.Expired f.tip ∨ u.schedule <+: f.manifest
  /-- a later update extends an earlier one -/
  ordered : ∀ u ∈ f.inFlight, ∀ v ∈ f.inFlight, u.serial < v.serial →
    u.Expired f.tip ∨ u.schedule <+: v.schedule
  /-- and what its app carries -/
  extends_ : ∀ u ∈ f.inFlight, f.landed u.app < u.serial →
    u.Expired f.tip ∨ f.live u.app <+: u.schedule

namespace AppendsOnly

variable {apps : List App} {f f' : Fleet App} {entries : List Entry}
  {published : List (List Char)}

/-- What an app carries stays. -/
lemma le_keepFrom {n L : Nat} (hL : L ≤ n)
    (hkey : ∀ i, i + 1 = L → key (entries.getD i default) ∈ published) :
    L ≤ keepFrom entries published n := by
  induction n using keepFrom.induct entries published with
  | case1 => exact hL
  | case2 => exact hL
  | case3 n hno ih =>
      rw [keepFrom, if_pos hno]
      refine ih (Nat.lt_succ_iff.mp (lt_of_le_of_ne hL ?_))
      rintro rfl
      exact hno (hkey (n + 1) rfl)
  | case4 n hyes =>
      rw [keepFrom, if_neg hyes]
      exact hL

/-- The first entry that is replaced is carried by no app. -/
lemma not_published_keepFrom {n : Nat} (hlt : keepFrom entries published n < n) :
    key (entries.getD (keepFrom entries published n) default) ∉ published := by
  induction n using keepFrom.induct entries published with
  | case1 => cases hlt
  | case2 => exact absurd hlt (lt_irrefl _)
  | case3 n hno ih =>
      rw [keepFrom, if_pos hno] at hlt ⊢
      rcases (Nat.lt_succ_iff.mp hlt).lt_or_eq with hless | heq
      · exact ih hless
      · rw [heq]
        exact hno
  | case4 n hyes =>
      rw [keepFrom, if_neg hyes] at hlt
      exact absurd hlt (lt_irrefl _)

/-- What a plan keeps and replaces. -/
lemma plannedSchedule_eq_ok {entry : Entry} {tip : Int} {schedule replaced : List Entry}
    (h : plannedSchedule entries published entry tip false = .ok (schedule, replaced)) :
    schedule = entries.take (keepFrom entries published entries.length) ++ [entry] ∧
      ∀ e ∈ entries.drop (keepFrom entries published entries.length),
        e.from_ + redateSettleBlocks < tip := by
  rw [plannedSchedule] at h
  split at h
  · cases h
  · rename_i hnone
    split at h
    · cases h
    · split at h <;> cases h
      refine ⟨rfl, fun e he => ?_⟩
      have hfind : (entries.drop (keepFrom entries published entries.length)).find?
          (fun e => decide (tip ≤ e.from_ + redateSettleBlocks)) = none := by
        cases hfound : (entries.drop (keepFrom entries published entries.length)).find?
            fun e => decide (tip ≤ e.from_ + redateSettleBlocks) with
        | none => rfl
        | some e =>
            rw [hfound] at hnone
            cases hnone
      have hno := List.find?_eq_none.mp hfind e he
      simpa using hno

omit [DecidableEq App] in
/-- The key of an entry that an app carries is published. -/
lemma key_mem_published {app : App} (happ : app ∈ apps) {e : Entry} (he : e ∈ f.live app) :
    key e ∈ f.published apps :=
  List.mem_map_of_mem (List.mem_flatMap.mpr ⟨app, happ, he⟩)

lemma getD_mem_of_le {l : List Entry} (hpre : l <+: entries) {i : Nat} (hi : i < l.length) :
    entries.getD i default ∈ l := by
  have hget : entries.getD i default = l[i] := by
    rw [List.getD_eq_getElem _ _ (hi.trans_le hpre.length_le)]
    exact (hpre.getElem hi).symm
  rw [hget]
  exact List.getElem_mem hi

/-- A prefix that is no longer than what is kept is one of the new schedule. -/
lemma prefix_planned {l : List Entry} {keep : Nat} {entry : Entry} (hpre : l <+: entries)
    (hlen : l.length ≤ keep) : l <+: entries.take keep ++ [entry] :=
  (List.prefix_take_iff.mpr ⟨hpre, hlen⟩).trans (List.prefix_append _ _)

omit [DecidableEq App] in
lemma reprice (h : AppendsOnly apps f) {entry : Entry} {schedule replaced : List Entry}
    (horderly : ∀ u ∈ f.inFlight, f.tip ≤ u.signedAt + extendMargin → ∀ e ∈ u.schedule,
      f.tip ≤ e.from_ + redateSettleBlocks ∨ ∃ app ∈ apps, e ∈ f.live app)
    (hplan : plannedSchedule f.manifest (f.published apps) entry f.tip false =
      .ok (schedule, replaced)) : AppendsOnly apps { f with manifest := schedule } := by
  obtain ⟨rfl, hsettled⟩ := plannedSchedule_eq_ok hplan
  set keep := keepFrom f.manifest (f.published apps) f.manifest.length with hkeep
  refine ⟨fun app happ => ?_, h.signed, fun u hu => ?_, h.ordered, h.extends_⟩
  · have hpre := h.live app happ
    refine prefix_planned hpre (le_keepFrom hpre.length_le fun i hi => ?_)
    have hi : i + 1 = (f.live app).length := hi
    exact key_mem_published happ (getD_mem_of_le hpre (by omega))
  · change u.Expired f.tip ∨ _
    by_cases hexpired : u.Expired f.tip
    · exact Or.inl hexpired
    have hpre := (h.landing u hu).resolve_left hexpired
    refine Or.inr (prefix_planned hpre (not_lt.mp fun hlonger => ?_))
    -- otherwise the update carries the first entry that is replaced
    have hlt : keep < f.manifest.length := hlonger.trans_le hpre.length_le
    have hdropped : f.manifest.getD keep default ∈ f.manifest.drop keep := by
      rw [List.getD_eq_getElem _ _ hlt, List.drop_eq_getElem_cons hlt]
      exact List.mem_cons_self
    have hold := hsettled _ hdropped
    rcases horderly u hu (not_lt.mp hexpired) _ (getD_mem_of_le hpre hlonger) with
      hfresh | ⟨app, happ, he⟩
    · omega
    · exact not_published_keepFrom (hkeep ▸ hlt) (key_mem_published happ he)

omit [DecidableEq App] in
lemma broadcast (h : AppendsOnly apps f) {app : App} (happ : app ∈ apps) :
    AppendsOnly apps { f with inFlight := f.inFlight ++ [f.sign app], signed := f.signed + 1 } := by
  have hnew : ∀ {u : Update App}, u ∈ f.inFlight ++ [f.sign app] →
      u ∈ f.inFlight ∨ u = f.sign app := by
    intro u hu
    simpa using hu
  refine ⟨h.live, fun u hu => ?_, fun u hu => ?_, fun u hu v hv huv => ?_, fun u hu hser => ?_⟩
  · rcases hnew hu with hold | rfl
    · exact (h.signed u hold).trans (Nat.le_succ _)
    · exact le_rfl
  · rcases hnew hu with hold | rfl
    · exact h.landing u hold
    · exact Or.inr (List.prefix_refl _)
  · rcases hnew hu with hold | rfl
    · rcases hnew hv with hold' | rfl
      · exact h.ordered u hold v hold' huv
      · exact h.landing u hold
    · -- nothing is signed later
      have hlast : v.serial ≤ f.signed + 1 := by
        rcases hnew hv with hold' | rfl
        · exact (h.signed v hold').trans (Nat.le_succ _)
        · exact le_rfl
      exact absurd huv (not_lt.mpr hlast)
  · rcases hnew hu with hold | rfl
    · exact h.extends_ u hold hser
    · exact Or.inr (h.live app happ)

omit [DecidableEq App] in
/-- What lands in order extends what the app carried. -/
lemma lands (h : AppendsOnly apps f) {u : Update App} (hu : u ∈ f.inFlight)
    (hclaim : f.tip ≤ u.signedAt + extendMargin)
    (horder : f.landed u.app < u.serial ∨ u.schedule = f.live u.app) :
    f.live u.app <+: u.schedule := by
  rcases horder with hlater | hsame
  · exact (h.extends_ u hu hlater).resolve_left (Update.not_expired hclaim)
  · exact ⟨[], by rw [List.append_nil, hsame]⟩

lemma land (h : AppendsOnly apps f) {u : Update App} (hu : u ∈ f.inFlight)
    (hclaim : f.tip ≤ u.signedAt + extendMargin) :
    AppendsOnly apps { f with
      live := Function.update f.live u.app u.schedule
      inFlight := f.inFlight.erase u
      landed := Function.update f.landed u.app u.serial } := by
  have hmem : ∀ {v : Update App}, v ∈ f.inFlight.erase u → v ∈ f.inFlight := List.mem_of_mem_erase
  have halive := Update.not_expired hclaim
  refine ⟨fun app happ => ?_, fun v hv => h.signed v (hmem hv), fun v hv => h.landing v (hmem hv),
    fun v hv w hw => h.ordered v (hmem hv) w (hmem hw), fun v hv => ?_⟩
  · by_cases happ' : app = u.app
    · subst happ'
      simpa using (h.landing u hu).resolve_left halive
    · simpa [happ'] using h.live app happ
  · by_cases happ' : v.app = u.app
    · intro hser
      have hser : u.serial < v.serial := by simpa [happ'] using hser
      have hext := (h.ordered u hu v (hmem hv) hser).resolve_left halive
      exact Or.inr (by simpa [happ'] using hext)
    · simpa [happ'] using h.extends_ v (hmem hv)

omit [DecidableEq App] in
lemma block (h : AppendsOnly apps f) : AppendsOnly apps { f with tip := f.tip + 1 } := by
  have hmono : ∀ {u : Update App}, u.Expired f.tip → u.Expired (f.tip + 1) := fun hu =>
    hu.mono (by omega)
  exact ⟨h.live, h.signed, fun u hu => (h.landing u hu).imp_left hmono,
    fun u hu v hv huv => (h.ordered u hu v hv huv).imp_left hmono,
    fun u hu hser => (h.extends_ u hu hser).imp_left hmono⟩

lemma step {e : Event App} (h : AppendsOnly apps f) (horderly : Orderly apps f e)
    (hstep : Deploy.step apps f e = some f') : AppendsOnly apps f' := by
  cases e with
  | reprice flux lead =>
      rw [Deploy.step] at hstep
      split at hstep
      · split at hstep <;> cases hstep
        exact h.reprice horderly (by assumption)
      · cases hstep
  | broadcast app =>
      rw [Deploy.step] at hstep
      split at hstep <;> cases hstep
      exact h.broadcast (by tauto)
  | land u =>
      rw [Deploy.step] at hstep
      split at hstep <;> cases hstep
      rename_i hland
      exact h.land hland.1 hland.2
  | block =>
      cases hstep
      exact h.block

omit [DecidableEq App] in
lemma start {tip : Int} {manifest : List Entry} {live : App → List Entry}
    (hlive : ∀ app ∈ apps, live app <+: manifest) :
    AppendsOnly apps (Fleet.start tip manifest live) where
  live := hlive
  signed _ hu := absurd hu List.not_mem_nil
  landing _ hu := absurd hu List.not_mem_nil
  ordered _ hu := absurd hu List.not_mem_nil
  extends_ _ hu := absurd hu List.not_mem_nil

end AppendsOnly

/-- **Append only**: in an orderly run every app carries a prefix of the
manifest's schedule, and whatever lands on it extends what it carried. -/
theorem append_only {apps : List App} {tip : Int} {manifest : List Entry}
    {live : App → List Entry} (hlive : ∀ app ∈ apps, live app <+: manifest)
    {events : List (Event App)} {f : Fleet App}
    (horderly : Along (step apps) (Orderly apps) (Fleet.start tip manifest live) events)
    (hrun : exec (step apps) (Fleet.start tip manifest live) events = some f) :
    (∀ app ∈ apps, f.live app <+: f.manifest) ∧
      ∀ u f', Orderly apps f (.land u) → step apps f (.land u) = some f' →
        f.live u.app <+: f'.live u.app := by
  have h : AppendsOnly apps f :=
    exec_invariant (fun _ _ _ h hG hstep => AppendsOnly.step h hG hstep)
      (AppendsOnly.start hlive) horderly hrun
  refine ⟨h.live, fun u f' horder hland => ?_⟩
  rw [step] at hland
  split at hland <;> cases hland
  rename_i hclaim
  have hext := h.lands hclaim.1 hclaim.2 horder
  simpa using hext

end Fleet

/-- One app, and a first price that it carries. -/
def oneApp : Fleet Unit := Fleet.start 0 [⟨0, 10⟩] fun _ => [⟨0, 10⟩]

/-- Two reprices with a broadcast in time behind each, and both land. -/
def inTime : List (Event Unit) :=
  [.reprice 12 240, .broadcast (), .land ⟨(), [⟨0, 10⟩, ⟨240, 12⟩], 0, 1⟩, .block,
    .reprice 11 240, .broadcast ()]

/-- The fleet at the second landing. -/
def landingFleet : Fleet Unit := (exec (step [()]) oneApp inTime).get (by decide +kernel)

/-- The fleet behind it. -/
def landedFleet : Fleet Unit :=
  (step [()] landingFleet (.land ⟨(), [⟨0, 10⟩, ⟨240, 12⟩, ⟨241, 11⟩], 1, 2⟩)).get
    (by decide +kernel)

theorem append_only_inTime :
    (∀ app ∈ [()], landingFleet.live app <+: landingFleet.manifest) ∧
      landingFleet.live () <+: landedFleet.live () := by
  have hlive : ∀ app ∈ [()], oneApp.live app <+: oneApp.manifest := by decide +kernel
  have h := append_only hlive (by decide +kernel : Along _ (Orderly [()]) oneApp inTime)
    (Option.some_get (by decide +kernel)).symm
  exact ⟨h.1, h.2 _ landedFleet (by decide +kernel) (Option.some_get _).symm⟩

/-- The new entry starts, its broadcast follows late and has not landed yet
when the entry has settled: it is replaced, and then the broadcast lands. -/
def lateBroadcast : List (Event Unit) :=
  .reprice 12 240 :: List.replicate 700 .block ++
    (.broadcast () :: List.replicate 21 .block ++
      [.reprice 11 240, .land ⟨(), [⟨0, 10⟩, ⟨240, 12⟩], 700, 1⟩])

theorem not_append_only :
    (exec (step [()]) oneApp lateBroadcast).any
      (fun f => ¬ f.live () <+: f.manifest) = true := by
  decide +kernel

end CumulusVpn.Deploy
