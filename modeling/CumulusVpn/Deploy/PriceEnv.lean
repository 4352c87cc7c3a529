/-
The price in the environment of an app (`mergeEnv` of
`deploy/scripts/update-image.mjs`, `priceEnv` of `deploy/scripts/price.mjs`).

* `priceEnv`, `mergeEnv`: what is written for a schedule, and where;
* `envGet_merge`: an assignment that is written is the one that is read;
* `Merged`: what a merge leaves of the environment;
* `price_env`: **a merge touches its own variables only, and the schedule that
  is read is the one that was written**.
-/
import CumulusVpn.Deploy.PriceRefusal
import CumulusVpn.Lib.KeyedMerge

namespace CumulusVpn.Deploy

/-! ### Writing -/

/-- The price of the last entry. -/
def latestPrice (entries : List Entry) : ℚ := (entries.getD (entries.length - 1) default).flux

/-- The spec env for a schedule: both variables, always. -/
def priceEnv (entries : List Entry) : List String :=
  ["CVPN_PRICE_FLUX=" ++ String.ofList (Deploy.formatFlux (latestPrice entries)),
    "CVPN_PRICE_SCHEDULE=" ++ formatSchedule entries]

/-- `e.split('=')[0]` -/
def envKey (e : String) : List Char := e.toList.takeWhile (· ≠ '=')

/-- A key of ours is rewritten where it already sits, its duplicates dropped, and
a new one is appended. -/
def mergeEnv (current desired : List String) : List String :=
  KeyedMerge.merge envKey current desired

example : mergeEnv ["A=1", "CVPN_PRICE_FLUX", "B", "A=2", "CVPN_PRICE_FLUX=7"]
    ["CVPN_PRICE_FLUX=20", "CVPN_PRICE_SCHEDULE=20@0"] =
      ["A=1", "CVPN_PRICE_FLUX=20", "B", "A=2", "CVPN_PRICE_SCHEDULE=20@0"] := by decide +kernel

/-! ### Reading -/

section Env

variable {env desired : List String} {entries : List Entry} {key value : String} {e : String}

lemma envKey_assign (hkey : '=' ∉ key.toList) : envKey (key ++ "=" ++ value) = key.toList := by
  have hchars : ∀ c ∈ key.toList, decide (c ≠ '=') = true := fun c hc =>
    decide_eq_true fun heq => hkey (heq ▸ hc)
  rw [envKey, String.toList_append, String.toList_append, List.append_assoc,
    List.takeWhile_append_of_pos hchars]
  simp

/-- The value of an assignment. -/
lemma dropWhile_assign (hkey : '=' ∉ key.toList) :
    ((key ++ "=" ++ value).toList.dropWhile (· ≠ '=')).tail = value.toList := by
  have hchars : ∀ c ∈ key.toList, decide (c ≠ '=') = true := fun c hc =>
    decide_eq_true fun heq => hkey (heq ▸ hc)
  rw [String.toList_append, String.toList_append, List.append_assoc,
    List.dropWhile_append_of_pos hchars]
  simp

/-- **What is written is what is read.** -/
lemma envGet_merge (hkey : '=' ∉ key.toList)
    (hdesired : key ++ "=" ++ value ∈ KeyedMerge.ofList envKey desired) :
    envGet (mergeEnv env desired) key = some value.toList := by
  have hone := KeyedMerge.filter_key_merge env desired hdesired
  simp only [envKey_assign hkey] at hone
  have hfind : (mergeEnv env desired).find? (fun kv => '=' ∈ kv.toList ∧
      kv.toList.takeWhile (· ≠ '=') = key.toList) = some (key ++ "=" ++ value) := by
    calc (mergeEnv env desired).find? (fun kv => '=' ∈ kv.toList ∧
          kv.toList.takeWhile (· ≠ '=') = key.toList)
      _ = ((mergeEnv env desired).filter fun kv => envKey kv = key.toList).find? fun kv =>
          '=' ∈ kv.toList := by
        rw [List.find?_filter]
        refine congrArg (fun p => List.find? p _) (funext fun kv => ?_)
        simp [envKey, and_comm]
      _ = [key ++ "=" ++ value].find? fun kv => '=' ∈ kv.toList := by rw [mergeEnv, hone]
      _ = some (key ++ "=" ++ value) := by simp
  rw [envGet, hfind, Option.map_some, dropWhile_assign hkey]

end Env

/-- What a merge leaves of the environment. -/
structure Merged (env desired merged : List String) : Prop where
  /-- the other variables keep their values, their order and their number -/
  others : merged.filter (fun e => envKey e ∉ desired.map envKey) =
    env.filter fun e => envKey e ∉ desired.map envKey
  /-- each owned key is there once, as an assignment that is desired -/
  once : ∀ key ∈ desired.map envKey, ∃ e ∈ desired, merged.filter (fun e => envKey e = key) = [e]
  again : mergeEnv merged desired = merged

lemma merged_mergeEnv (env desired : List String) : Merged env desired (mergeEnv env desired) where
  others := by
    have hkept := @KeyedMerge.filter_merge _ _ _ envKey env desired
    convert hkept
    exact rfl
  once key hkey := by
    obtain ⟨e, he, rfl⟩ := List.mem_map.mp (KeyedMerge.mem_map_ofList.mpr hkey)
    exact ⟨e, KeyedMerge.mem_of_mem_ofList he, KeyedMerge.filter_key_merge env desired he⟩
  again := KeyedMerge.merge_merge env desired

/-- **The price that is written is the price that is read**, and nothing else is
touched. -/
theorem price_env (env : List String) :
    (∀ desired, Merged env desired (mergeEnv env desired)) ∧
      ∀ raw entries, parseSchedule raw = .ok entries →
        scheduleFromEnv (mergeEnv env (priceEnv entries)) = some (.schedule entries) := by
  refine ⟨merged_mergeEnv env, fun raw entries hparse => ?_⟩
  obtain ⟨s, rfl, hwire⟩ := ((parseScheduleWith_iff splitIsSpace_wire).mp hparse).exists_schedule
  have hkeys : KeyedMerge.ofList envKey (priceEnv s.entries) = priceEnv s.entries := by
    refine KeyedMerge.ofList_eq_self (List.pairwise_pair.mpr ?_)
    have hflux : envKey ("CVPN_PRICE_FLUX" ++ "=" ++
        String.ofList (Deploy.formatFlux (latestPrice s.entries))) = "CVPN_PRICE_FLUX".toList :=
      envKey_assign (by decide)
    have hsched : envKey ("CVPN_PRICE_SCHEDULE" ++ "=" ++ formatSchedule s.entries) =
        "CVPN_PRICE_SCHEDULE".toList := envKey_assign (by decide)
    exact fun heq => absurd (hflux.symm.trans (heq.trans hsched)) (by decide)
  have hround : parseSchedule (formatSchedule s.entries) = .ok s.entries := by
    rw [(toString_eq hwire).2]
    exact toOption_iff.mp (roundTrips hwire).gateway.2
  have hread : envGet (mergeEnv env (priceEnv s.entries)) "CVPN_PRICE_SCHEDULE" =
      some (formatSchedule s.entries).toList := by
    refine envGet_merge (by decide) ?_
    rw [hkeys]
    exact List.mem_cons_of_mem _ List.mem_cons_self
  have hblank : Split.trim (formatSchedule s.entries).toList ≠ [] := fun hnil => by
    have hempty : parseSchedule (formatSchedule s.entries) = .error .emptySchedule := by
      rw [parseSchedule, parseScheduleWith]
      exact if_pos hnil
    rw [hempty] at hround
    cases hround
  rw [scheduleFromEnv, hread, Option.filter_some, if_pos (decide_eq_true hblank)]
  dsimp only
  rw [String.ofList_toList, hround]
  rfl

/-- A price drop, read back from an environment that had the old price twice. -/
theorem price_env_drop : scheduleFromEnv (mergeEnv
      ["CVPN_PRICE_FLUX=20", "NAME", "CVPN_PRICE_FLUX=25"] (priceEnv [⟨0, 20⟩, ⟨100, 25 / 2⟩])) =
    some (.schedule [⟨0, 20⟩, ⟨100, 25 / 2⟩]) :=
  (price_env _).2 "20@0,12.5@100" _ (by decide +kernel)

end CumulusVpn.Deploy
