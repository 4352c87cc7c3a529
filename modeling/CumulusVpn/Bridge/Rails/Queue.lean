/-
The queue of payments under the steps of the server.

* `Grown`: a table of unique keys that only grows, by entries with a property;
* `Db.grants`: the events in the queue with the days that they grant;
* `grown_worker`: the workers add what they are asked to grant;
* `grown_step`: **a step adds the payments that its stretch writes, or those
  of vouchers**.
-/
import CumulusVpn.Bridge.Rails.Step

namespace CumulusVpn.Bridge

/-! ### Tables that grow -/

/-- Nothing is lost, what is new meets `P`, and keys stay unique. -/
structure Grown {κ α : Type} (P : κ × α → Prop) (gs gs' : List (κ × α)) : Prop where
  kept : gs ⊆ gs'
  new : ∀ g ∈ gs', g ∈ gs ∨ P g
  nodup : (gs.map Prod.fst).Nodup → (gs'.map Prod.fst).Nodup

section Grown

variable {κ α : Type} {P Q : κ × α → Prop} {gs gs' gs'' : List (κ × α)}

lemma Grown.refl (P : κ × α → Prop) (gs : List (κ × α)) : Grown P gs gs :=
  ⟨List.Subset.refl gs, fun _ hg => Or.inl hg, id⟩

lemma Grown.of_eq (h : gs' = gs) : Grown P gs gs' := h ▸ .refl P gs

lemma Grown.imp (h : Grown P gs gs') (hPQ : ∀ g, P g → Q g) : Grown Q gs gs' :=
  ⟨h.kept, fun g hg => (h.new g hg).imp_right (hPQ g), h.nodup⟩

lemma Grown.trans (h : Grown P gs gs') (h' : Grown P gs' gs'') : Grown P gs gs'' where
  kept := List.Subset.trans h.kept h'.kept
  new g hg := by
    rcases h'.new g hg with hg | hg
    · exact h.new g hg
    · exact Or.inr hg
  nodup := h'.nodup ∘ h.nodup

/-- An entry with a new key. -/
lemma Grown.snoc {g : κ × α} (hnew : g.1 ∉ gs.map Prod.fst) (hg : P g) :
    Grown P gs (gs ++ [g]) where
  kept := List.subset_append_left gs [g]
  new g' hg' := by
    rcases List.mem_append.mp hg' with hg' | hg'
    · exact Or.inl hg'
    · obtain rfl := List.mem_singleton.mp hg'
      exact Or.inr hg
  nodup hnodup := by
    rw [List.map_append, List.map_singleton, List.nodup_append]
    refine ⟨hnodup, List.nodup_singleton _, ?_⟩
    intro k hk k' hk' heq
    rw [List.mem_singleton.mp hk'] at heq
    exact hnew (heq ▸ hk)

end Grown

/-! ### The grants in the queue -/

/-- The event of a row and the days that it grants. -/
def PaymentRow.grant (r : PaymentRow) : (Rail × String) × Int := (r.event, r.days)

/-- What the rows grant, by their events. -/
def Db.grants (db : Db) : List ((Rail × String) × Int) := db.payments.map PaymentRow.grant

/-- The grant that a payment asks for. -/
def NewPayment.grant (p : NewPayment) : (Rail × String) × Int := ((p.rail, p.eventKey), p.days)

lemma Db.mem_events {db : Db} {event : Rail × String} :
    event ∈ db.grants.map Prod.fst ↔ ∃ r ∈ db.payments, r.event = event := by
  simp [grants, PaymentRow.grant]

/-- An insert adds its grant, unless the event has one. -/
lemma Db.grown_insertIdempotent (db : Db) (p : NewPayment) (now : Int) :
    Grown (· = p.grant) db.grants (db.insertIdempotent p now).1.grants := by
  rcases db.insertIdempotent_cases p now with ⟨-, heq⟩ | ⟨hnew, r, hevent, hdays, heq⟩
  · exact .of_eq (by rw [heq])
  · have hgrant : r.grant = p.grant := by rw [PaymentRow.grant, hevent, hdays, NewPayment.grant]
    rw [grants, grants, heq, List.map_append, List.map_singleton, hgrant]
    refine .snoc (fun hmem => ?_) rfl
    obtain ⟨r', hr', hsame⟩ := mem_events.mp hmem
    exact hnew r' hr' hsame

/-- Afterwards the event has a grant. -/
lemma Db.event_insertIdempotent (db : Db) (p : NewPayment) (now : Int) :
    (p.rail, p.eventKey) ∈ (db.insertIdempotent p now).1.grants.map Prod.fst := by
  rw [mem_events]
  rcases db.insertIdempotent_cases p now with ⟨⟨r, hr, hrail, hkey⟩, heq⟩ |
    ⟨-, r, hevent, -, heq⟩
  · rw [heq]
    exact ⟨r, hr, by rw [PaymentRow.event, hrail, hkey]⟩
  · rw [heq]
    exact ⟨r, List.mem_append_right _ List.mem_cons_self, hevent⟩

/-- An event that has a grant gets no other. -/
lemma Db.insertIdempotent_of_mem {db : Db} {p : NewPayment} (now : Int)
    (h : (p.rail, p.eventKey) ∈ db.grants.map Prod.fst) : (db.insertIdempotent p now).1 = db := by
  rcases db.insertIdempotent_cases p now with ⟨-, heq⟩ | ⟨hnew, -⟩
  · exact heq
  · obtain ⟨r, hr, hevent⟩ := mem_events.mp h
    exact absurd hevent (hnew r hr)

/-! ### The workers -/

section Workers

variable (db : Db) (id attempts : Nat) (txid error : String) (now : Int)

@[simp] lemma Db.grants_markBroadcast (tx : RawTx) (fluxZats : Int) :
    (db.markBroadcast id txid tx fluxZats now).grants = db.grants :=
  map_updateRow (g := PaymentRow.grant) (by exact fun _ => rfl) db.payments

@[simp] lemma Db.grants_markConfirmed : (db.markConfirmed id now).grants = db.grants :=
  map_updateRow (g := PaymentRow.grant) (by exact fun _ => rfl) db.payments

@[simp] lemma Db.grants_resetExpired : (db.resetExpired id txid).grants = db.grants :=
  map_updateRow (g := PaymentRow.grant) (by exact fun _ => rfl) db.payments

@[simp] lemma Db.grants_recordFailure :
    (db.recordFailure id attempts error now).grants = db.grants :=
  map_updateRow (g := PaymentRow.grant) (by exact fun _ => rfl) db.payments

end Workers

/-- The workers add what they are asked to grant, and nothing else. -/
lemma grown_worker {c : Config} {s s' : System} {a : Action} (h : step c s a = some s') :
    Grown (fun g => ∃ p now, a = .grant p now ∧ g = p.grant) s.db.grants s'.db.grants := by
  cases anyStep_statement (step_le_anyStep h) with
  | none hdb => exact .of_eq (by rw [hdb])
  | insert p now hdb =>
      rw [hdb]
      exact (s.db.grown_insertIdempotent p now).imp fun g hg => ⟨p, now, rfl, hg⟩
  | failure hrow error now hdb => exact .of_eq (by rw [hdb, Db.grants_recordFailure])
  | broadcast hrow hprepared now hdb => exact .of_eq (by rw [hdb, Db.grants_markBroadcast])
  | confirmed hrow now hdb => exact .of_eq (by rw [hdb, Db.grants_markConfirmed])
  | expired hrow hdb => exact .of_eq (by rw [hdb, Db.grants_resetExpired])

namespace Rails

/-! ### The server -/

/-- The grants in the queue of a server. -/
def Server.grants (s : Server) : List ((Rail × String) × Int) := s.workers.db.grants

/-- A statement adds the payment that it inserts. -/
lemma grown_write (s : Server) (w : Write) :
    Grown (fun g => ∃ p, w = .payment p ∧ g = p.grant) s.grants (s.write w).grants := by
  cases w with
  | payment p =>
      exact (s.workers.db.grown_insertIdempotent p s.nowS).imp fun g hg => ⟨p, rfl, hg⟩
  | _ => exact .refl _ _

lemma grown_writeAll (s : Server) (ws : List Write) :
    Grown (fun g => ∃ p, .payment p ∈ ws ∧ g = p.grant) s.grants (s.writeAll ws).grants := by
  induction ws generalizing s with
  | nil => exact .refl _ _
  | cons w ws ih =>
      have hfirst := (grown_write s w).imp (Q := fun g => ∃ p, .payment p ∈ w :: ws ∧ g = p.grant)
        fun g ⟨p, hw, hg⟩ => ⟨p, hw ▸ List.mem_cons_self, hg⟩
      exact hfirst.trans ((ih (s.write w)).imp fun g ⟨p, hp, hg⟩ =>
        ⟨p, List.mem_cons_of_mem w hp, hg⟩)

/-- **A step adds the payments that its stretch writes, or those of
vouchers.** -/
theorem grown_step {c : RailsConfig} {s s' : Server} {a : Action} (h : step c s a = some s') :
    Grown (fun g => g.1.1 = .voucher ∨ ∃ s₀ ws next, Stretch c s s₀ a ws next ∧
      ∃ p, .payment p ∈ ws ∧ g = p.grant) s.grants s'.grants := by
  rcases step_cases h with ⟨s₀, ws, next, hs, rfl⟩ | ⟨b, workers, hallowed, hworkers, rfl⟩ |
    ⟨nowMs, -, rfl⟩ | ⟨workers, hworkers, rfl⟩
  · obtain ⟨tasks, -, hs₀⟩ := hs.eq
    have hbefore : s₀.grants = s.grants := by rw [hs₀]; rfl
    have hafter : (s₀.finish ws next).grants = (s₀.writeAll ws).grants :=
      congrArg (fun workers => workers.db.grants) (Server.workers_finish s₀ ws next)
    rw [hafter, ← hbefore]
    exact (grown_writeAll s₀ ws).imp fun g hg => Or.inr ⟨s₀, ws, next, hs, hg⟩
  · refine (grown_worker hworkers).imp ?_
    rintro g ⟨p, now, rfl, rfl⟩
    exact Or.inl (of_decide_eq_true hallowed)
  · exact .refl _ _
  · refine (grown_worker hworkers).imp ?_
    rintro g ⟨p, now, hcrash, -⟩
    cases hcrash

end Rails

end CumulusVpn.Bridge
