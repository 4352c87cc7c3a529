/-
The kill switch of the desktop client, one firewall command at a time
(`clients/desktop/src-tauri/tunnel/src/killswitch.rs`).

`engage` is a fixed list of commands for each backend; it fails when one of
them fails, with the commands before it done.  The rule texts are left out:
what matters here is which of our rules are installed and whether plaintext
egress is blocked.

* `Firewall.run`: the commands, with every state passed through on record;
* `engage`, `disengage`;
* `Firewall.Blocking`: plaintext egress is blocked;
* `blocking_engage`: on macOS and Windows **a re-engage never opens a
  window**, whether it succeeds or not; `not_blocking_engage_linux`: on Linux
  every re-engage does.
-/
import Mathlib.Tactic.Common

namespace CumulusVpn.Desktop

/-- Where the leak-protection rules get installed. -/
inductive Backend
  | macosPf
  | linuxNftables
  | windowsWfp
deriving DecidableEq, Repr

/-- The rules of the `CumulusVPN` firewall-rule group. -/
inductive WinRule
  | endpoint
  | tunnel
  | splitBypass
  | dns
deriving DecidableEq, Repr

/-- What of ours is installed in the firewall of the machine. -/
structure Firewall where
  /-- the pf anchor holds our rules -/
  anchor : Bool
  /-- pf's main ruleset evaluates the anchor -/
  main : Bool
  /-- the nftables table exists -/
  table : Bool
  /-- the rules of our group -/
  rules : List WinRule
  /-- `DefaultOutboundAction` is `Block` -/
  blockOutbound : Bool
deriving DecidableEq, Repr

namespace Firewall

/-- Nothing of ours is installed. -/
def clear : Firewall := ⟨false, false, false, [], false⟩

/-- Plaintext egress is blocked by our rules. -/
def Blocking (f : Firewall) : Backend → Prop
  | .macosPf => f.anchor ∧ f.main
  | .linuxNftables => f.table
  | .windowsWfp => f.blockOutbound

instance (f : Firewall) (b : Backend) : Decidable (f.Blocking b) := by
  cases b with
  | macosPf => exact inferInstanceAs (Decidable (_ ∧ _))
  | linuxNftables => exact inferInstanceAs (Decidable (_ = _))
  | windowsWfp => exact inferInstanceAs (Decidable (_ = _))

end Firewall

/-- The commands that change the firewall. -/
inductive FwCommand
  /-- `pfctl -a com.cumulusvpn -f -` -/
  | loadAnchor
  /-- `pfctl -f -` with the ruleset that evaluates the anchor -/
  | loadMain
  /-- `pfctl -a com.cumulusvpn -F all` -/
  | flushAnchor
  /-- `pfctl -f /etc/pf.conf` -/
  | restoreMain
  /-- `nft delete table inet cumulusvpn` -/
  | deleteTable
  /-- `nft -f -` -/
  | loadTable
  /-- `Remove-NetFirewallRule -Group 'CumulusVPN'` -/
  | removeGroup
  /-- `New-NetFirewallRule … -Group 'CumulusVPN'` -/
  | newRule (rule : WinRule)
  /-- `Set-NetFirewallProfile -All -DefaultOutboundAction Block` -/
  | blockOutbound
  /-- `Set-NetFirewallProfile -All -DefaultOutboundAction Allow` -/
  | allowOutbound
deriving DecidableEq, Repr

/-- The firewall after a command that succeeds. -/
def Firewall.apply (f : Firewall) : FwCommand → Firewall
  | .loadAnchor => { f with anchor := true }
  | .loadMain => { f with main := true }
  | .flushAnchor => { f with anchor := false }
  | .restoreMain => { f with main := false }
  | .deleteTable => { f with table := false }
  | .loadTable => { f with table := true }
  | .removeGroup => { f with rules := [] }
  | .newRule rule => { f with rules := f.rules ++ [rule] }
  | .blockOutbound => { f with blockOutbound := true }
  | .allowOutbound => { f with blockOutbound := false }

/-- The firewall with the states it passed through, newest first. -/
structure FwLog where
  now : Firewall
  past : List Firewall
deriving DecidableEq, Repr

/-- Runs commands one after the other. -/
def FwLog.run (l : FwLog) : List FwCommand → FwLog
  | [] => l
  | c :: cs => FwLog.run ⟨l.now.apply c, l.now :: l.past⟩ cs

/-- Plaintext egress is, and always was, blocked. -/
def FwLog.Blocking (l : FwLog) (b : Backend) : Prop :=
  l.now.Blocking b ∧ ∀ f ∈ l.past, f.Blocking b

instance (l : FwLog) (b : Backend) : Decidable (l.Blocking b) :=
  inferInstanceAs (Decidable (_ ∧ ∀ f ∈ l.past, _))

/-- What goes wrong when a command of `engage` fails. -/
def FwCommand.failure : FwCommand → String
  | .loadAnchor => "failed to load kill-switch anchor"
  | .loadMain => "failed to load kill-switch ruleset"
  | .loadTable => "failed to load nftables kill switch"
  | .newRule .endpoint => "failed to add endpoint allow rule"
  | .newRule .tunnel => "failed to add tunnel allow rule"
  | .newRule .splitBypass => "failed to add split bypass rule"
  | .newRule .dns => "failed to add DNS leak rules"
  | .blockOutbound => "failed to set block policy"
  | _ => ""

/-- What `engage` clears first, best effort. -/
def engagePrelude : Backend → List FwCommand
  | .macosPf => []
  | .linuxNftables => [.deleteTable]
  | .windowsWfp => [.removeGroup]

/-- The commands of `engage_macos`, `engage_linux` and `engage_windows` that
have to succeed. -/
def engageCommands (bypassCidrs : List String) : Backend → List FwCommand
  | .macosPf => [.loadAnchor, .loadMain]
  | .linuxNftables => [.loadTable]
  | .windowsWfp =>
      [.newRule .endpoint, .newRule .tunnel] ++
      (if bypassCidrs = [] then [] else [.newRule .splitBypass]) ++
      [.newRule .dns, .blockOutbound]

/-- How far an `engage` gets. -/
inductive EngageAnswer
  /-- an invalid prefix or interface name stops it before the first command -/
  | invalid (text : String)
  /-- `done` of its commands succeed -/
  | runs (done : Nat)

/-- The kill switch is put in: a command that fails ends it, and those before it
are in force. -/
def engage (b : Backend) (bypassCidrs : List String) (a : EngageAnswer) (l : FwLog) :
    Except String Unit × FwLog :=
  match a with
  | .invalid text => (.error text, l)
  | .runs done =>
      (match (engageCommands bypassCidrs b).drop done with
        | [] => .ok ()
        | c :: _ => .error c.failure,
      l.run (engagePrelude b ++ (engageCommands bypassCidrs b).take done))

/-- The commands of `disengage`, all best effort. -/
def disengageCommands : Backend → List FwCommand
  | .macosPf => [.flushAnchor, .restoreMain]
  | .linuxNftables => [.deleteTable]
  | .windowsWfp => [.allowOutbound, .removeGroup]

/-- The kill switch is taken out; its commands are run whatever they answer. -/
def disengage (b : Backend) (l : FwLog) : FwLog := l.run (disengageCommands b)

/-! ### What the commands leave -/

/-- Only the part of the firewall that the backend uses is ever ours. -/
def Firewall.Native (f : Firewall) : Backend → Prop
  | .macosPf => f.table = false ∧ f.rules = [] ∧ f.blockOutbound = false
  | .linuxNftables => f.anchor = false ∧ f.main = false ∧ f.rules = [] ∧ f.blockOutbound = false
  | .windowsWfp => f.anchor = false ∧ f.main = false ∧ f.table = false

lemma Firewall.native_clear (b : Backend) : Firewall.clear.Native b := by
  cases b <;> simp [Native, clear]

lemma FwLog.now_run (l : FwLog) (cs : List FwCommand) :
    (l.run cs).now = cs.foldl Firewall.apply l.now := by
  induction cs generalizing l with
  | nil => rfl
  | cons c cs ih => exact ih _

/-- What every command of a list preserves, the list preserves. -/
lemma FwLog.now_run_invariant {P : Firewall → Prop} {cs : List FwCommand} {l : FwLog}
    (hstep : ∀ c ∈ cs, ∀ f, P f → P (f.apply c)) (hnow : P l.now) : P (l.run cs).now := by
  induction cs generalizing l with
  | nil => exact hnow
  | cons c cs ih =>
      exact ih (fun c' hc' => hstep c' (List.mem_cons_of_mem _ hc'))
        (hstep c List.mem_cons_self l.now hnow)

/-- The states passed through while a list runs keep it too. -/
lemma FwLog.past_run_invariant {P : Firewall → Prop} {cs : List FwCommand} {l : FwLog}
    (hstep : ∀ c ∈ cs, ∀ f, P f → P (f.apply c)) (hnow : P l.now) (hpast : ∀ f ∈ l.past, P f) :
    ∀ f ∈ (l.run cs).past, P f := by
  induction cs generalizing l with
  | nil => exact hpast
  | cons c cs ih =>
      refine ih (fun c' hc' => hstep c' (List.mem_cons_of_mem _ hc')) ?_ ?_
      · exact hstep c List.mem_cons_self l.now hnow
      · intro f hf
        rcases List.mem_cons.mp hf with rfl | hf
        · exact hnow
        · exact hpast f hf

/-- The commands of a backend leave the other backends alone. -/
lemma native_apply {b : Backend} {bypassCidrs : List String} {c : FwCommand}
    (hc : c ∈ engagePrelude b ++ engageCommands bypassCidrs b) {f : Firewall}
    (hf : f.Native b) : (f.apply c).Native b := by
  cases b with
  | macosPf =>
      simp only [engagePrelude, engageCommands, List.nil_append, List.mem_cons,
        List.not_mem_nil, or_false] at hc
      rcases hc with rfl | rfl <;> exact hf
  | linuxNftables =>
      simp only [engagePrelude, engageCommands, List.cons_append, List.nil_append, List.mem_cons,
        List.not_mem_nil, or_false] at hc
      rcases hc with rfl | rfl <;> exact hf
  | windowsWfp =>
      cases c <;> first
        | exact hf
        | simp [engagePrelude, engageCommands] at hc

lemma mem_engage {b : Backend} {bypassCidrs : List String} {done : Nat} {c : FwCommand}
    (hc : c ∈ engagePrelude b ++ (engageCommands bypassCidrs b).take done) :
    c ∈ engagePrelude b ++ engageCommands bypassCidrs b :=
  List.mem_append.mpr ((List.mem_append.mp hc).imp_right List.mem_of_mem_take)

lemma native_engage {b : Backend} {l : FwLog} (h : l.now.Native b) (bypassCidrs : List String)
    (a : EngageAnswer) : (engage b bypassCidrs a l).2.now.Native b := by
  cases a with
  | invalid text => exact h
  | runs done =>
      exact FwLog.now_run_invariant (P := fun f => f.Native b)
        (fun c hc f hf => native_apply (mem_engage hc) hf) h

/-- **`disengage` removes all of ours**, whatever was installed. -/
lemma now_disengage {b : Backend} {l : FwLog} (h : l.now.Native b) :
    (disengage b l).now = Firewall.clear := by
  rw [disengage, FwLog.now_run]
  obtain ⟨⟨anchor, main, table, rules, block⟩, past⟩ := l
  cases b with
  | macosPf =>
      obtain ⟨rfl, rfl, rfl⟩ := h
      rfl
  | linuxNftables =>
      obtain ⟨rfl, rfl, rfl, rfl⟩ := h
      rfl
  | windowsWfp =>
      obtain ⟨rfl, rfl, rfl⟩ := h
      rfl

/-! ### Re-engaging -/

/-- A complete `engage` blocks plaintext egress. -/
lemma blocking_of_engage {b : Backend} {bypassCidrs : List String} {a : EngageAnswer} {l : FwLog}
    (h : (engage b bypassCidrs a l).1 = .ok ()) :
    (engage b bypassCidrs a l).2.now.Blocking b := by
  cases a with
  | invalid text => cases h
  | runs done =>
      simp only [engage] at h ⊢
      split at h
      · rename_i hdrop
        rw [List.take_of_length_le (List.drop_eq_nil_iff.mp hdrop), FwLog.now_run,
          List.foldl_append]
        cases b with
        | macosPf => exact ⟨rfl, rfl⟩
        | linuxNftables => rfl
        | windowsWfp =>
            rw [engageCommands, List.foldl_append]
            rfl
      · cases h

/-- On macOS and Windows a re-engage over an engaged switch never opens a
window, however far it gets. -/
lemma blocking_engage {b : Backend} (hb : b ≠ .linuxNftables) {l : FwLog} (h : l.Blocking b)
    (bypassCidrs : List String) (a : EngageAnswer) : (engage b bypassCidrs a l).2.Blocking b := by
  cases a with
  | invalid text => exact h
  | runs done =>
      have hstep : ∀ c ∈ engagePrelude b ++ (engageCommands bypassCidrs b).take done,
          ∀ f, Firewall.Blocking f b → (f.apply c).Blocking b := by
        intro c hc f hf
        have hmem := mem_engage hc
        cases b with
        | macosPf =>
            simp only [engagePrelude, engageCommands, List.nil_append, List.mem_cons,
              List.not_mem_nil, or_false] at hmem
            rcases hmem with rfl | rfl
            · exact ⟨rfl, hf.2⟩
            · exact ⟨hf.1, rfl⟩
        | linuxNftables => exact absurd rfl hb
        | windowsWfp =>
            cases c <;> first
              | exact hf
              | rfl
              | simp [engagePrelude, engageCommands] at hmem
      exact ⟨FwLog.now_run_invariant (P := fun f => f.Blocking b) hstep h.1,
        FwLog.past_run_invariant hstep h.1 h.2⟩

/-- On Linux a re-engage deletes the table before it loads the new one. -/
lemma not_blocking_engage_linux (l : FwLog) (bypassCidrs : List String) (done : Nat) :
    ¬ (engage .linuxNftables bypassCidrs (.runs done) l).2.Blocking .linuxNftables := by
  have hopen : ¬ (l.now.apply .deleteTable).Blocking .linuxNftables := by
    simp [Firewall.apply, Firewall.Blocking]
  intro h
  match done with
  | 0 => exact hopen h.1
  | n + 1 => exact hopen (h.2 _ (by simp [engage, engagePrelude, engageCommands, FwLog.run]))

/-- `disengage` lets plaintext egress through. -/
lemma not_blocking_disengage (b : Backend) (l : FwLog) : ¬ (disengage b l).Blocking b := by
  intro h
  have hnow := h.1
  rw [disengage, FwLog.now_run] at hnow
  cases b <;> simp [disengageCommands, Firewall.apply, Firewall.Blocking] at hnow

end CumulusVpn.Desktop
