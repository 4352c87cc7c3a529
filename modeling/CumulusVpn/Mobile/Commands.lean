/-
The steps of the Android controller keep what holds of the device.

* `Steady.runWorker`, `Steady.deliver`: the threads and the main thread;
* `stopTunnel_eq`, `Steady.stopTunnel`: a STOP, at any time;
* `Steady.startOn`, `Steady.startMultihop_unparsed`: a START of a service at rest;
* `Steady.holdOn`: a HOLD of a service at rest with a session;
* `steady_boot`: the device as it boots.
-/
import CumulusVpn.Mobile.Stages

namespace CumulusVpn.Mobile.Android

namespace Host

variable {h : Host} {n : Nat} {ph : Phase} {p a : Prop}

/-- What a STOP can end. -/
def Endable (h : Host) : Prop := (∃ p, h.Closing p) ∨ ∃ n ph, h.Serving n ph

lemma Endable.stop (he : h.Endable) (hp : h.Placed) : (h.startService .stop n).Ended a := by
  rcases he with ⟨p, hc⟩ | ⟨n', ph, hs⟩
  · exact Ended.stop hc hp
  · exact hs.stop

/-- A service at rest has nothing up but on its current instance. -/
lemma Endable.up_of_free (he : h.Endable) (hfree : h.Free) (i : Nat) (hup : h.session i ≠ .down) :
    i = h.current ∧ h.running = true := by
  rcases he with ⟨p, hc⟩ | ⟨n', ph, hs⟩
  · obtain ⟨hi, hrunning, -⟩ := hc.up_of_free hfree hup
    exact ⟨hi, hrunning⟩
  · by_contra hno
    by_cases hi : i = h.current
    · exact hno ⟨hi, hs.running⟩
    · exact hup (hs.others i hi)

/-- A service at rest that serves has come to the end of its command. -/
lemma Serving.rest_of_free (hs : h.Serving n ph) (hfree : h.Free) : ph = .rest := by
  have hplace := hs.place
  cases ph with
  | rest => rfl
  | sent action =>
      have hmain := hfree.1
      rw [hplace.2.1] at hmain
      cases hmain
  | doing task =>
      have hidle := hfree.2 _ hplace.2.2.1
      rw [not_idle_of_serves hplace.1] at hidle
      cases hidle

end Host

namespace Device

variable {d d' : Device} {k j : Service} {w : Worker} {o : Host.Outcome} {task : Task}
  {rest : List Task} {m : Message} {ms : List Message} {n : Nat} {ph : Host.Phase} {a : Action}

/-! ### The threads -/

lemma Steady.runWorker (hi : Steady d) (hw : w ∈ (d.host k).workers)
    (hmem : w.tasks = task :: rest) : Steady (d.runWorker k w o task rest) := by
  have hlive : ∀ n ph, d.Live k n ph → Advances d (d.runWorker k w o task rest) k n ph :=
    fun n ph hl => hl.run hi.sound (hi.stage k.other) hw hmem
  rw [runWorker_eq] at hlive ⊢
  exact (turn_run hi.sound hw hmem).steady hi hlive

lemma Steady.deliver (hi : Steady d) (hmain : (d.host k).main = m :: ms) :
    Steady (d.deliver k m ms) := by
  have hlive : ∀ n ph, d.Live k n ph → Advances d (d.deliver k m ms) k n ph :=
    fun n ph hl => hl.deliver hmain
  rw [deliver_eq] at hlive ⊢
  exact (turn_deliver hi.sound hmain).steady hi hlive

/-! ### The commands -/

lemma Stage.endable (hs : d.Stage k) : (d.host k).Endable := by
  rcases hs with hg | hl | ⟨n, ph, hl⟩
  · exact Or.inl ⟨_, hg.closing⟩
  · exact Or.inl ⟨_, hl.closing⟩
  · exact Or.inr ⟨n, ph, hl.serving⟩

lemma startService_self : (d.startService k a).host k = (d.host k).startService a d.commands :=
  Function.update_self _ _ _

lemma startService_other : (d.startService k a).host k.other = d.host k.other :=
  Function.update_of_ne k.other_ne _ _

/-- A STOP leaves a service that goes down on its way. -/
lemma Gone.startService (hg : d.Gone j) (hs : Sound d) (k : Service) :
    (d.startService k .stop).Gone j := by
  rcases k.eq_or_other j with rfl | rfl
  · rw [Gone, startService_self]
    exact Host.Ended.stop hg.closing (hs.placed j)
  · rw [Gone, startService_other]
    exact hg

/-- The three parts of a STOP. -/
def askStop (d : Device) : Device :=
  { d with
    commands := d.commands + 1
    asked := .stop
    currentState := .disconnecting
    held := false }

/-- The service that retires is stopped at once. -/
def stopRetiring (d : Device) : Device :=
  match d.retiring with
  | some service => d.retireOther service
  | none => d

/-- The service that is active is stopped. -/
def stopActive (d : Device) : Device :=
  if d.active .obfs then d.startService .obfs .stop
  else if d.active .multihop then d.startService .multihop .stop
  else { d with currentState := .disconnected }

lemma stopTunnel_eq (d : Device) : d.stopTunnel = d.askStop.stopRetiring.stopActive := rfl

lemma Sound.askStop (hs : Sound d) : Sound d.askStop :=
  hs.of_same rfl rfl (Nat.le_succ _) (fun hne => hne) rfl fun _ ha => ha

lemma Sound.stopRetiring (hs : Sound d) : Sound d.stopRetiring := by
  rw [Device.stopRetiring]
  cases hr : d.retiring with
  | none => exact hs
  | some k =>
      have hs' : Sound { d with retiring := none } :=
        hs.of_same rfl rfl (Nat.le_refl _) (fun hne => hne) rfl fun _ ha => ha
      have hsame : d.retireOther k = { d with retiring := none }.startService k .stop := if_pos hr
      simp only [hsame]
      exact hs'.startService k nofun

/-- A service that is replaced is told at the latest by a STOP. -/
lemma stopRetiring_gone (hs : Sound d) (hstage : ∀ j, d.Stage j) :
    d.stopRetiring.active = d.active ∧ d.stopRetiring.asked = d.asked ∧
      (∀ j, (d.stopRetiring.host j).Endable) ∧ ∀ j, d.active j = false → d.stopRetiring.Gone j := by
  rw [stopRetiring]
  cases hr : d.retiring with
  | none =>
      refine ⟨rfl, rfl, fun j => (hstage j).endable, fun j hj => ?_⟩
      rcases hstage j with hg | hl | ⟨n, ph, hl⟩
      · exact hg
      · exact absurd (hl.retiring.symm.trans hr) nofun
      · exact absurd (hl.active.symm.trans hj) nofun
  | some k =>
      have hsame : d.retireOther k = { d with retiring := none }.startService k .stop := if_pos hr
      have hgone : ∀ {b : Prop}, ((d.host k).startService .stop d.commands).Ended b :=
        (hstage k).endable.stop (hs.placed k)
      simp only [hsame]
      refine ⟨rfl, rfl, fun j => ?_, fun j hj => ?_⟩
      · rcases k.eq_or_other j with rfl | rfl
        · rw [startService_self]
          exact Or.inl ⟨_, (hgone (b := False)).closing⟩
        · rw [startService_other]
          exact (hstage k.other).endable
      · rcases k.eq_or_other j with rfl | rfl
        · rw [Gone, startService_self]
          exact hgone
        · rw [Gone, startService_other]
          rcases hstage k.other with hg | hl | ⟨n, ph, hl⟩
          · exact hg
          · exact absurd (Option.some.inj (hl.retiring.symm.trans hr)) k.other_ne
          · exact absurd (hl.active.symm.trans hj) nofun

/-- Where the stage of a service rests on. -/
lemma Stage.of_same (hs : d.Stage k) (hhost : d'.host = d.host) (hactive : d'.active = d.active)
    (hretiring : d'.retiring = d.retiring) (hvpn : d'.vpn = d.vpn)
    (hfailed : ∀ n ∈ d.failed, n ∈ d'.failed) : d'.Stage k := by
  rcases hs with hg | hl | ⟨n, ph, hl⟩
  · refine Or.inl ?_
    rw [Gone, hhost, hactive]
    exact hg
  · refine Or.inr (Or.inl ⟨?_, hretiring.trans hl.retiring, ?_, ?_⟩)
    · rw [hactive]
      exact hl.inactive
    · rw [hhost]
      exact hl.spent
    · rw [hhost]
      exact hl.closing
  · refine Or.inr (Or.inr ⟨n, ph, ?_, ?_, ?_, ?_, fun hph => hfailed n (hl.blamed hph), ?_⟩)
    · rw [hactive]
      exact hl.active
    · rw [hhost]
      exact hl.serving
    · rw [hhost]
      exact hl.spent
    · rw [Carries, hhost, hvpn]
      exact hl.carries
    · rw [Gone, hhost, hactive]
      exact hl.alone

/-- A STOP to the active service leaves both on their way down. -/
lemma gone_of_active (hs : Sound d) (ha : d.active k = true) (hend : (d.host k).Endable)
    (hgone : ∀ j, d.active j = false → d.Gone j) (j : Service) :
    (d.startService k .stop).Gone j := by
  rcases k.eq_or_other j with rfl | rfl
  · rw [Gone, startService_self]
    exact hend.stop (hs.placed j)
  · refine (hgone k.other ?_).startService hs k
    by_contra hno
    have hother := hs.lead k.other (Bool.of_not_eq_false hno)
    exact k.other_ne (hother.trans (hs.lead k ha).symm)

/-- A STOP may come at any time. -/
lemma Steady.stopTunnel (hi : Steady d) : Steady d.stopTunnel := by
  have hstage : ∀ j, d.askStop.Stage j := fun j =>
    (hi.stage j).of_same rfl rfl rfl rfl fun _ hn => hn
  have hs : Sound d.askStop.stopRetiring := hi.sound.askStop.stopRetiring
  obtain ⟨hactive, hasked, hend, hgone⟩ := stopRetiring_gone hi.sound.askStop hstage
  rw [← hactive] at hgone
  -- with everything on its way down, only what is reported is left to see
  have hsteady : ∀ {e : Device}, Sound e → (∀ j, e.Gone j) → e.asked = .stop →
      ((∀ j, e.active j = false) → e.currentState = .disconnected) → Steady e := by
    intro e hs' hall hstop hstate
    refine ⟨hs', fun j => Or.inl (hall j), ?_⟩
    rw [Obeys, hstop]
    exact ⟨hall, fun hno => Or.inl (hstate hno)⟩
  rw [stopTunnel_eq, stopActive]
  split
  · rename_i ha
    refine hsteady (hs.startService _ (by simp)) (gone_of_active hs ha (hend _) hgone) hasked ?_
    exact fun hno => Bool.noConfusion (ha.symm.trans (hno .obfs))
  · rename_i hobfs
    split
    · rename_i ha
      refine hsteady (hs.startService _ (by simp)) (gone_of_active hs ha (hend _) hgone) hasked ?_
      exact fun hno => Bool.noConfusion (ha.symm.trans (hno .multihop))
    · rename_i hmultihop
      refine hsteady (hs.of_same rfl rfl (Nat.le_refl _) (fun hne => hne) rfl fun _ ha => ha)
        (fun j => hgone j ?_) hasked fun _ => rfl
      cases j with
      | obfs => exact Bool.of_not_eq_true hobfs
      | multihop => exact Bool.of_not_eq_true hmultihop

/-! ### A START -/

lemma startOn_self :
    ((d.ask k).startOn k).host k =
      { d.host k with newest := d.commands + 1 }.startService (.start (d.active k.other))
        (d.commands + 1) := by
  simp [ask, startOn, startService, setHost]

lemma startOn_other : ((d.ask k).startOn k).host k.other = d.host k.other := by
  simp [ask, startOn, startService, setHost]

/-- A START is the newest, and nothing else is under way. -/
lemma Sound.startOn (hs : Sound d) (hfree : (d.host k).Free) (hover : (d.host k.other).Over) :
    Sound ((d.ask k).startOn k) := by
  have hp := hs.placed k
  have hp' : { d.host k with newest := d.commands + 1 }.Placed := ⟨hp.1, hp.2, hp.3, hp.4, hp.5⟩
  have hle := hs.newest_le k
  have hle' := hs.newest_le k.other
  refine ⟨fun j hj => of_decide_eq_true hj, fun j => ?_, fun j => ?_, fun j => ?_, fun j => ?_,
    fun j i hv => ?_, fun j hf => ?_⟩
  all_goals rcases k.eq_or_other j with rfl | rfl
  · rw [startOn_self]
    exact hp'.startService _ _
  · rw [startOn_other]
    exact hs.placed _
  · rw [startOn_self]
    exact (hs.numbered j).startNewest hp hfree (Nat.le_succ_of_le hle)
  · rw [startOn_other]
    exact hs.numbered _
  · rw [startOn_self]
    exact Nat.le_of_eq Host.startService_newest
  · rw [startOn_other]
    exact Nat.le_succ_of_le hle'
  · rw [startOn_self, startOn_other]
    exact Host.Sent.startService (hs.later j) fun _ => Nat.le_succ_of_le hle'
  · rw [startOn_other]
    exact hover.sent
  · rw [startOn_self, Host.startService_session hp' (hs.vpn j i hv)]
    exact hs.vpn j i hv
  · rw [startOn_other]
    exact hs.vpn _ i hv
  · rw [startOn_self, Host.Failing, Host.startService_workers] at hf
    exact hs.blamed j hf
  · rw [startOn_other] at hf
    exact hs.blamed _ hf

/-- A START comes to a service at rest, and the other one opens nothing. -/
lemma Steady.startOn (hi : Steady d) (hfree : (d.host k).Free) (hover : (d.host k.other).Over) :
    Steady ((d.ask k).startOn k) := by
  have hp := hi.sound.placed k
  have hp' : { d.host k with newest := d.commands + 1 }.Placed := ⟨hp.1, hp.2, hp.3, hp.4, hp.5⟩
  have hserving := hp'.serving (r := d.active k.other) (n := d.commands + 1) hfree fun i hup =>
    (hi.stage k).endable.up_of_free hfree i hup
  have hlive : ((d.ask k).startOn k).Live k (d.commands + 1)
      (.sent (.start (d.active k.other))) := by
    refine ⟨decide_eq_true rfl, ?_, ?_, by simp, by simp, by simp⟩
    · rw [startOn_self]
      exact hserving
    · rw [startOn_other]
      exact hover
  refine ⟨hi.sound.startOn hfree hover, fun j => ?_, Or.inr ⟨_, hlive, rfl, by simp⟩⟩
  rcases k.eq_or_other j with rfl | rfl
  · exact Or.inr (Or.inr ⟨_, _, hlive⟩)
  · have hinactive : ((d.ask k).startOn k).active k.other = false := decide_eq_false k.other_ne
    rcases hi.stage k.other with hg | hleft | ⟨n, ph, hl⟩
    · refine Or.inl ?_
      rw [Gone, startOn_other, hinactive]
      exact hg.mono fun hno => Bool.noConfusion hno
    · refine Or.inr (Or.inl ⟨hinactive, ?_, ?_, ?_⟩)
      · exact (if_neg (by simp [ask, hleft.inactive])).trans hleft.retiring
      · rw [startOn_other]
        exact hleft.spent
      · rw [startOn_other]
        exact hleft.closing
    · refine Or.inr (Or.inl ⟨hinactive, if_pos hl.active, ?_, ?_⟩)
      · rw [startOn_other]
        exact hover
      · rw [startOn_other]
        exact hl.serving.closing hover

/-- A START that does not parse, while no session of its service is active. -/
lemma Steady.startMultihop_unparsed (hi : Steady d) (ha : d.active .multihop = false) :
    Steady (d.startMultihop false) := by
  have hactive : (d.startMultihop false).active = d.active := by
    refine Function.update_eq_self_iff.mpr ?_
    exact ha.symm
  have hfailed : ∀ n ∈ d.failed, n ∈ (d.startMultihop false).failed := fun n hn =>
    List.mem_cons_of_mem _ hn
  refine ⟨hi.sound.of_same rfl rfl (Nat.le_succ _) (fun _ => List.cons_ne_nil _ _) rfl
    fun j hj => hactive ▸ hj, fun j => (hi.stage j).of_same rfl hactive rfl rfl hfailed, ?_⟩
  exact Or.inl List.mem_cons_self

/-! ### A HOLD -/

/-- A HOLD comes to a service at rest with a session to hold. -/
lemma Steady.holdOn (hi : Steady d) (ha : d.active k = true) (hfree : (d.host k).Free)
    (hup : (d.host k).session (d.host k).current ≠ .down) : Steady (d.holdOn k) := by
  have hsound : Sound { d with
      commands := d.commands + 1, asked := .hold k (d.commands + 1) } :=
    hi.sound.of_same rfl rfl (Nat.le_succ _) (fun hne => hne) rfl fun _ ha => ha
  have hself : (d.holdOn k).host k = (d.host k).startService .hold (d.commands + 1) :=
    startService_self
  have hother : (d.holdOn k).host k.other = d.host k.other := startService_other
  have hlive : (d.holdOn k).Live k (d.commands + 1) (.sent .hold) := by
    rcases hi.stage k with hg | hleft | ⟨n, ph, hl⟩
    · exact absurd (hg.closing.down_of_free hfree _) hup
    · exact absurd (hleft.inactive.symm.trans ha) nofun
    · obtain rfl := hl.serving.rest_of_free hfree
      refine ⟨ha, ?_, ?_, by simp, by simp, nofun⟩
      · rw [hself]
        exact hl.serving.again
      · rw [hother]
        exact hl.spent
  refine ⟨hsound.startService k nofun, fun j => ?_, Or.inr ⟨_, hlive, rfl, nofun⟩⟩
  rcases k.eq_or_other j with rfl | rfl
  · exact Or.inr (Or.inr ⟨_, _, hlive⟩)
  · rcases hi.stage k.other with hg | hleft | ⟨n, ph, hl⟩
    · refine Or.inl ?_
      rw [Gone, hother]
      exact hg
    · refine Or.inr (Or.inl ⟨hleft.inactive, hleft.retiring, ?_, ?_⟩)
      · rw [hother]
        exact hleft.spent
      · rw [hother]
        exact hleft.closing
    · exact absurd ((hi.sound.lead _ hl.active).trans (hi.sound.lead k ha).symm) k.other_ne

lemma steady_boot : Steady boot := by
  have hempty : ∀ k, boot.Gone k := fun k => Host.ended_empty nofun
  have hnil : ∀ {w : Worker}, w ∉ Host.empty.workers := fun hw => List.not_mem_nil hw
  have hmain : ∀ {m : Message}, m ∉ Host.empty.main := fun hm => List.not_mem_nil hm
  refine ⟨⟨nofun, fun k => ?_, fun k => ?_, fun k => Nat.le_refl 0, fun k => ?_, nofun, ?_⟩,
    fun k => Or.inl (hempty k), hempty, fun _ => Or.inl rfl⟩
  · exact ⟨fun _ _ => rfl, fun m hm => absurd hm hmain, fun _ _ _ _ hm => absurd hm hmain,
      fun w hw => absurd hw hnil, fun w hw => absurd hw hnil⟩
  · exact ⟨nofun, fun m hm => absurd hm hmain, fun _ _ _ _ hm => absurd hm hmain,
      fun w hw => absurd hw hnil, fun w hw => absurd hw hnil, fun w hw => absurd hw hnil⟩
  · exact ⟨fun m hm => absurd hm hmain, fun w hw => absurd hw hnil⟩
  · rintro k ⟨w, hw, -⟩
    exact absurd hw hnil

end Device

end CumulusVpn.Mobile.Android
