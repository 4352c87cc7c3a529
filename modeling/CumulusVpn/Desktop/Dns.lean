/-
The system resolver on macOS (`mod macos` of
`clients/desktop/src-tauri/tunnel/src/dns.rs`).

The dynamic store maps the texts of its keys to property lists.  `scutil`
prints what `READ_SCRIPT` matches as an outline, and runs a script command by
command; a command of the model is a line of the script.

* `Layer`, `dnsKey`, `backupKey`, `isSafeServiceId`: where things are;
* `Snapshot`, `parseSnapshot`: what is read of the outline;
* `planApply`, `planRestore`, `verify`: the scripts, and the check;
* `Store`, `Command.run`, `scutilShow`: the store and `scutil`;
* `Mac`, `step`: the owners of the services, the tunnel and its crashes, one
  command at a time.
-/
import Mathlib.Data.Char
import Mathlib.Data.List.AList
import Mathlib.Data.List.Lex
import Mathlib.Data.List.Sort
import CumulusVpn.Lib.Outline
import CumulusVpn.Lib.StepSystem

namespace CumulusVpn.Desktop.Dns

open Outline Trim

/-! ### Keys -/

/-- Marks a dictionary as ours; its value is the server list. -/
def marker : Text := "CumulusVPNOverride".toList

/-- Marks a backup of a key that did not exist. -/
def absent : Text := "CumulusVPNAbsent".toList

/-- Where the backups are. -/
def backupPrefix : Text := "State:/Network/CumulusVPN/Backup/".toList

/-- The two layers of the store: what is in force, and what was configured. -/
inductive Layer
  | state
  | setup
deriving DecidableEq, Repr

namespace Layer

/-- The first part of a key of the layer. -/
def name : Layer → Text
  | state => "State".toList
  | setup => "Setup".toList

/-- The layer that a part of a key names. -/
def parse (s : Text) : Option Layer :=
  if s = "State".toList then some state
  else if s = "Setup".toList then some setup
  else none

end Layer

/-- What the keys of the services of a layer begin with. -/
def servicePrefix (layer : Layer) : Text := layer.name ++ ":/Network/Service/".toList

/-- What the keys of DNS settings end with. -/
def dnsSuffix : Text := "/DNS".toList

/-- The key of a service's DNS settings. -/
def dnsKey (layer : Layer) (id : Text) : Text := servicePrefix layer ++ (id ++ dnsSuffix)

/-- The key of our backup of them. -/
def backupKey (layer : Layer) (id : Text) : Text := backupPrefix ++ (layer.name ++ '/' :: id)

/-- `State:/Network/Global/IPv4`, or that of IPv6. -/
def globalKey (v6 : Bool) : Text :=
  "State:/Network/Global/IPv".toList ++ [if v6 then '6' else '4']

/-- An identifier that may stand in a script. -/
def isSafeServiceId (id : Text) : Bool :=
  !id.isEmpty && decide (id.length ≤ 128) &&
    id.all fun c => c.isAlphanum || c = '-' || c = '_' || c = '.'

/-! ### What is read -/

/-- A `BTreeMap`; `inOrder` walks it. -/
abbrev BTreeMap (κ ν : Type) := AList fun _ : κ => ν

/-- The top-level scalars and arrays of scalars. -/
structure Dict where
  scalars : BTreeMap Text Text
  arrays : BTreeMap Text (List Text)

namespace Dict

/-- A dictionary without entries. -/
def empty : Dict := ⟨∅, ∅⟩

/-- The text under a name, if there is one. -/
def scalar (d : Dict) (key : Text) : Option Text := d.scalars.lookup key

/-- Neither a text nor a list is in it. -/
def isEmpty (d : Dict) : Bool := d.scalars.entries.isEmpty && d.arrays.entries.isEmpty

end Dict

/-- A service in one of the layers. -/
abbrev Service := Layer × Text

/-- What a read of the store finds. -/
structure Snapshot where
  /-- every service DNS entity -/
  dns : BTreeMap Service Dict
  /-- our backups, by what they were taken from -/
  backups : BTreeMap Service Dict
  /-- the primary IPv4 and IPv6 services -/
  primaries : List Text

namespace Snapshot

/-- A read that found nothing. -/
def empty : Snapshot := ⟨∅, ∅, []⟩

/-- The service of a DNS key. -/
def serviceOf (layer : Layer) (key : Text) : Option Text :=
  (stripPrefix (servicePrefix layer) key).bind (stripSuffix dnsSuffix)

/-- A dictionary goes to the part of the snapshot that its key belongs to, and
anywhere else nowhere. -/
def insert (s : Snapshot) (key : Text) (dict : Dict) : Snapshot :=
  match stripPrefix backupPrefix key with
  | some rest =>
      match Layer.parse (rest.takeWhile (· ≠ '/')), rest.dropWhile (· ≠ '/') with
      | some layer, _ :: id =>
          if isSafeServiceId id then { s with backups := s.backups.insert (layer, id) dict } else s
      | _, _ => s
  | none =>
      if key = globalKey false ∨ key = globalKey true then
        match dict.scalar "PrimaryService".toList with
        | some primary =>
            if isSafeServiceId primary ∧ ¬ s.primaries.any (· = primary) then
              { s with primaries := s.primaries ++ [primary] }
            else s
        | none => s
      else
        match serviceOf .state key with
        | some id =>
            if isSafeServiceId id then { s with dns := s.dns.insert (.state, id) dict } else s
        | none =>
            match serviceOf .setup key with
            | some id =>
                if isSafeServiceId id then { s with dns := s.dns.insert (.setup, id) dict } else s
            | none => s

/-- The service has DNS settings in one of the layers. -/
def hasDns (s : Snapshot) (id : Text) : Bool :=
  (s.dns.lookup (.state, id)).isSome || (s.dns.lookup (.setup, id)).isSome

end Snapshot

/-- The variables of `parse_snapshot`. -/
structure Parser where
  snap : Snapshot
  key : Option Text
  dict : Dict
  array : Option (Text × List Text)
  /-- depth inside a value that is not modelled -/
  skip : Nat

namespace Parser

/-- The parser before the first line. -/
def start : Parser := ⟨.empty, none, .empty, none, 0⟩

/-- A line that opens or closes a store key. -/
def storeKey (s : Parser) (trimmed : Text) : Parser :=
  if trimmed = ['}'] then
    match s.key with
    | some k => { s with snap := s.snap.insert k s.dict, key := none, dict := .empty }
    | none => s
  else
    match stripSuffix (colon ++ dictOpens) trimmed with
    | some k => { s with key := some k, dict := .empty, array := none }
    | none => s

/-- A line of a store key's dictionary. -/
def property (s : Parser) (trimmed : Text) : Parser :=
  if trimmed = ['}'] then
    match s.array with
    | some (name, items) =>
        { s with dict.arrays := s.dict.arrays.insert name items, array := none }
    | none => s
  else
    match splitOnce colon trimmed with
    | some (name, value) =>
        if value = arrayOpens then { s with array := some (name, []) }
        else if value.getLast? = some '{' then { s with skip := 1 }
        else { s with dict.scalars := s.dict.scalars.insert name value }
    | none => s

/-- A line of an array. -/
def item (s : Parser) (trimmed : Text) : Parser :=
  match splitOnce colon trimmed with
  | some (_, value) =>
      if value.getLast? = some '{' then { s with skip := 1 }
      else { s with array := s.array.map fun a => (a.1, a.2 ++ [value]) }
  | none => s

/-- The parser after a line; how far it is indented says what it belongs to. -/
def line (s : Parser) (l : Text) : Parser :=
  if 0 < s.skip then
    if opens l then { s with skip := s.skip + 1 }
    else if closes l then { s with skip := s.skip - 1 }
    else s
  else
    let indent := (l.takeWhile (· = ' ')).length
    if indent = 2 then s.storeKey (trimmed l)
    else if indent = 4 ∧ s.key.isSome then s.property (trimmed l)
    else if indent = 6 ∧ s.array.isSome then s.item (trimmed l)
    else s

end Parser

/-- The snapshot in the output of the read script. -/
def parseSnapshot (text : Text) : Snapshot := ((lines text).foldl Parser.line .start).snap

/-! ### Scripts -/

/-- The characters that a server address may have. -/
def isAddressChar (c : Char) : Bool :=
  c.isDigit || (decide ('a' ≤ c) && decide (c ≤ 'f')) || c = '.' || c = ':'

/-- An IP address, by its text. -/
abbrev AddressText := {t : Text // t ≠ [] ∧ ∀ c ∈ t, isAddressChar c = true}

/-- The marker's value: the server list, joined by commas. -/
def markerValue (servers : List AddressText) : Text := [','].intercalate (servers.map Subtype.val)

/-- A line of a script. -/
inductive Command
  /-- `d.init` -/
  | init
  | get (key : Text)
  | set (key : Text)
  | remove (key : Text)
  /-- `d.remove` -/
  | removeEntry (name : Text)
  /-- `d.add name * values` -/
  | addArray (name : Text) (values : List Text)
  /-- `d.add name value` -/
  | add (name value : Text)
  /-- `d.add name # value` -/
  | addNumber (name : Text) (value : Nat)
  | quit
deriving DecidableEq

/-- The commands that write our settings under a key, over what is on the stack. -/
def overrideLines (key : Text) (servers : List AddressText) : List Command :=
  [.removeEntry "ServerPort".toList,
    .addArray "ServerAddresses".toList (servers.map Subtype.val),
    .add marker (markerValue servers),
    .set key]

/-- The order of a `BTreeMap`'s keys. -/
def keyLe (a b : Service) : Prop :=
  (a.1 = .state ∧ b.1 = .setup) ∨ (a.1 = b.1 ∧ a.2 ≤ b.2)

instance : DecidableRel keyLe := fun _ _ => inferInstanceAs (Decidable (_ ∨ _))

/-- The entries of a map in the order of their keys, as `BTreeMap` iterates. -/
def inOrder (m : BTreeMap Service Dict) : List (Service × Dict) :=
  (m.entries.map fun e => (e.1, e.2)).insertionSort fun e f => keyLe e.1 f.1

/-- What is done about a service that has a DNS entity. -/
def planEntry (servers : List AddressText) (e : Service × Dict) : List Command :=
  match e.2.scalar marker with
  | some m =>
      if m = markerValue servers then []
      else .init :: .get (dnsKey e.1.1 e.1.2) :: overrideLines (dnsKey e.1.1 e.1.2) servers
  | none =>
      .init :: .get (dnsKey e.1.1 e.1.2) :: .set (backupKey e.1.1 e.1.2) ::
        overrideLines (dnsKey e.1.1 e.1.2) servers

/-- And about a primary service that has none. -/
def planPrimary (servers : List AddressText) (id : Text) : List Command :=
  .init :: .addNumber absent 1 :: .set (backupKey .state id) :: .init ::
    overrideLines (dnsKey .state id) servers

/-- A script ends with `quit`, unless it is empty. -/
def script (out : List Command) : List Command := if out = [] then [] else out ++ [.quit]

/-- The script that takes over every service of the snapshot. -/
def planApply (snap : Snapshot) (servers : List AddressText) : List Command :=
  script ((inOrder snap.dns).flatMap (planEntry servers) ++
    (snap.primaries.filter fun id => !snap.hasDns id).flatMap (planPrimary servers))

/-- What is done about a backup. -/
def planBackup (snap : Snapshot) (e : Service × Dict) : List Command :=
  (if (snap.dns.lookup e.1).any fun d => (d.scalar marker).isSome then
    if (e.2.scalar absent).isSome || e.2.isEmpty then [.remove (dnsKey e.1.1 e.1.2)]
    else [.init, .get (backupKey e.1.1 e.1.2), .set (dnsKey e.1.1 e.1.2)]
  else []) ++ [.remove (backupKey e.1.1 e.1.2)]

/-- The script that undoes every override there is a backup of. -/
def planRestore (snap : Snapshot) : List Command :=
  script ((inOrder snap.backups).flatMap (planBackup snap))

/-- Whether the override took, by a snapshot from after it. -/
def verify (snap : Snapshot) (servers : List AddressText) : Except String Unit :=
  let missed :=
    (snap.dns.entries.filter fun e => e.2.scalar marker ≠ some (markerValue servers)).length
  if 0 < missed then
    .error (toString missed ++ " network service DNS setting(s) could not be taken over")
  else if snap.primaries.any fun id => !snap.hasDns id then
    .error "the primary network service has no DNS setting"
  else .ok ()

/-! ### The dynamic store -/

/-- A value of the store: names and property lists. -/
abbrev Dictionary := AList fun _ : Text => Value

/-- The dynamic store. -/
abbrev Store := AList fun _ : Text => Dictionary

/-- What follows a prefix is a service's name. -/
def isServiceName (t : Text) : Bool := !t.isEmpty && decide ('/' ∉ t)

/-- The pattern of `READ_SCRIPT`. -/
def readPattern (key : Text) : Bool :=
  decide (key = globalKey false) || decide (key = globalKey true) ||
    [Layer.state, Layer.setup].any fun layer =>
      (Snapshot.serviceOf layer key).any isServiceName ||
        (stripPrefix (backupPrefix ++ (layer.name ++ ['/'])) key).any isServiceName

/-- A key with its dictionary, as `scutil` prints it. -/
def outlineKey (key : Text) (d : Dictionary) : List Text :=
  (Value.dict (d.entries.map fun e => (e.1, e.2))).outline (List.replicate 2 ' ') key

/-- The output of `READ_SCRIPT`. -/
def scutilShow (store : Store) : Text :=
  unlines (dictOpens :: ((store.entries.filter fun e => readPattern e.1).flatMap fun e =>
    outlineKey e.1 e.2) ++ [['}']])

/-- The snapshot of a store: what the parser makes of what `scutil` prints. -/
def read (store : Store) : Snapshot := parseSnapshot (scutilShow store)

/-- One command of `scutil`, on the store and its dictionary. -/
def Command.run (c : Command) (s : Store × Dictionary) : Store × Dictionary :=
  match c with
  | .init => (s.1, ∅)
  -- `No such key` leaves the dictionary as it is
  | .get key => (s.1, (s.1.lookup key).getD s.2)
  | .set key => (s.1.insert key s.2, s.2)
  | .remove key => (s.1.erase key, s.2)
  | .removeEntry name => (s.1, s.2.erase name)
  | .addArray name values => (s.1, s.2.insert name (.array (values.map .text)))
  | .add name value => (s.1, s.2.insert name (.text value))
  | .addNumber name value => (s.1, s.2.insert name (.text (Nat.toDigits 10 value)))
  | .quit => s

/-! ### Runs -/

/-- The store, with the script that `scutil` runs. -/
structure Mac where
  store : Store
  /-- what the owner of each DNS key last published -/
  published : Service → Option Dictionary
  /-- the dictionary of `scutil` -/
  value : Dictionary
  pending : List Command

/-- What happens on the machine. -/
inductive Event
  /-- the owner of a DNS key publishes it -/
  | publish (service : Service) (d : Dictionary)
  /-- or removes it -/
  | withdraw (service : Service)
  /-- the primary services change -/
  | primary (v6 : Bool) (d : Option Dictionary)
  /-- the tunnel applies, or re-asserts -/
  | apply (servers : List AddressText)
  /-- the tunnel restores, or recovers at boot -/
  | restore
  /-- the next command of the script -/
  | command
  | crash

/-- The machine after an event; none where the tunnel is not at it. -/
def step (m : Mac) : Event → Option Mac
  | .publish service d => some { m with
      store := m.store.insert (dnsKey service.1 service.2) d
      published := Function.update m.published service (some d) }
  | .withdraw service => some { m with
      store := m.store.erase (dnsKey service.1 service.2)
      published := Function.update m.published service none }
  | .primary v6 (some d) => some { m with store := m.store.insert (globalKey v6) d }
  | .primary v6 none => some { m with store := m.store.erase (globalKey v6) }
  | .apply servers =>
      if m.pending ≠ [] then none
      -- a session without servers leaves the resolver alone
      else if servers = [] then some m
      else some { m with value := ∅, pending := planApply (read m.store) servers }
  | .restore =>
      if m.pending ≠ [] then none
      else some { m with value := ∅, pending := planRestore (read m.store) }
  | .command =>
      match m.pending with
      | [] => none
      | c :: rest => some { m with
          store := (c.run (m.store, m.value)).1
          value := (c.run (m.store, m.value)).2
          pending := rest }
  | .crash => some { m with value := ∅, pending := [] }

end CumulusVpn.Desktop.Dns
