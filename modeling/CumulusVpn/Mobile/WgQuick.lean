/-
The configs that the iOS extension reads (`WgQuick` of
`PacketTunnelProvider.swift`).

Texts are lists of scalars.  Swift reads a carriage return and the line feed
behind it as one `Character`, which is no line break.

* `lines`: the lines of a text;
* `Fields`, `Fields.read`: what the lines have set;
* `WgQuick`, `wgQuick`: a config, as it is read.
-/
import CumulusVpn.Lib.KeyValue
import CumulusVpn.Mobile.Routes

namespace CumulusVpn.Mobile.Ios

open CumulusVpn.Split

/-- The scalars of a text, and which of them break its lines; `cr` when a
carriage return is in front of the text. -/
def breaks : Bool → List Char → List (Char × Bool)
  | _, [] => []
  | cr, c :: cs =>
      (c, if c = '\n' then !cr else decide (c = '\r' ∧ cs.head? ≠ some '\n')) ::
        breaks (decide (c = '\r')) cs

/-- `text.split(whereSeparator: { $0 == "\n" || $0 == "\r" })` -/
def lines (text : List Char) : List (List Char) :=
  (((breaks false text).splitOnP Prod.snd).map (List.map Prod.fst)).filter (· ≠ [])

/-- `lowercased()` of a scalar, as far as it gives an ASCII letter. -/
def lowercased (c : Char) : Char := if c = '\u212a' then 'k' else c.toLower

/-- A bare address. -/
def isIpLiteral (s : List Char) : Bool := (ipv4Value s).isSome || (ipv6Value s).isSome

/-- The AmneziaWG keys, in the order of the UAPI. -/
def obfsKeys : List (List Char) :=
  ["jc", "jmin", "jmax", "s1", "s2", "h1", "h2", "h3", "h4"].map String.toList

/-- What the lines have set. -/
structure Fields where
  priv : Option (List Char)
  pub : Option (List Char)
  addr : Option (List Char)
  dns : List (List Char)
  endpoint : Option (List Char)
  sni : Option (List Char)
  allowed : List (List Char)
  obfsVals : List Char → Option (List Char)

/-- A config before its first line. -/
def Fields.empty : Fields := ⟨none, none, none, [], none, none, [], fun _ => none⟩

/-- `val.split(separator: ",").map { $0.trimmingCharacters(in: .whitespaces) }` -/
def entries (val : List Char) : List (List Char) := (split val ',').map (Trim.trim isWhitespace)

local instance lawful_key : LawfulBEq (List Char) := inferInstance

/-- A line `key = val`. -/
def Fields.set (f : Fields) (key val : List Char) : Fields :=
  if key = "privatekey".toList then { f with priv := some val }
  else if key = "publickey".toList then { f with pub := some val }
  else if key = "address".toList then
    { f with addr := (split ((split val ',').head?.getD val) '/').head? }
  else if key = "dns".toList then { f with dns := (entries val).filter isIpLiteral }
  else if key = "endpoint".toList then { f with endpoint := some val }
  else if key = "allowedips".toList then { f with allowed := entries val }
  else if key ∈ obfsKeys then { f with obfsVals := Function.update f.obfsVals key (some val) }
  else if key = "cvpn_tls_sni".toList then { f with sni := some val }
  else f

/-- A line; one without `=` is left out. -/
def Fields.read (f : Fields) (raw : List Char) : Fields :=
  let line := Trim.trim isWhitespace raw
  if '=' ∈ line then
    f.set ((Trim.trim isWhitespace (line.takeWhile (· ≠ '='))).map lowercased)
      (Trim.trim isWhitespace (line.dropWhile (· ≠ '=')).tail)
  else f

/-- What is read of a config. -/
structure WgQuick where
  privateKey : List Char
  peerPublicKey : List Char
  /-- the first address, its mask stripped -/
  address : Option (List Char)
  dns : List (List Char)
  endpointHost : Option (List Char)
  /-- zero if absent -/
  endpointPort : Int
  /-- the AmneziaWG parameters as UAPI -/
  obfs : List Char
  tlsSni : Option (List Char)
  allowedIps : List (List Char)
deriving DecidableEq, Repr

/-- The host and the port of an endpoint, around its last colon; a port that is
no `Int` is zero. -/
def splitEndpoint (endpoint : List Char) : List Char × Int :=
  if ':' ∈ endpoint then
    (((endpoint.reverse.dropWhile (· ≠ ':')).tail).reverse,
      ((readInt (endpoint.reverse.takeWhile (· ≠ ':')).reverse).filter fun n =>
        -2 ^ 63 ≤ n ∧ n < 2 ^ 63).getD 0)
  else (endpoint, 0)

/-- The UAPI lines of the parameters that are set. -/
def Fields.obfs (f : Fields) : List Char :=
  (obfsKeys.filterMap fun k => (f.obfsVals k).map fun v => k ++ '=' :: v ++ ['\n']).flatten

/-- `WgQuick.init?` -/
def wgQuick (text : List Char) : Option WgQuick :=
  let f := (lines text).foldl Fields.read .empty
  match f.priv, f.pub with
  | some priv, some pub =>
      some
        { privateKey := priv
          peerPublicKey := pub
          address := f.addr
          dns := f.dns
          endpointHost := f.endpoint.map fun endpoint => (splitEndpoint endpoint).1
          endpointPort := (f.endpoint.map fun endpoint => (splitEndpoint endpoint).2).getD 0
          obfs := f.obfs
          tlsSni := f.sni
          allowedIps := f.allowed }
  | _, _ => none

example :
    (wgQuick "PrivateKey = a=\nPublicKey=b\r\nEndpoint = 1.2.3.4:51820\nDNS=1.1.1.1, x".toList).map
    (fun q => (q.privateKey, q.dns)) = some ("a=".toList, ["1.1.1.1".toList]) := by decide +kernel

/-! ### The settings of a text -/

/-- The setting of a line, its key in lower case. -/
def setting (raw : List Char) : Option KeyValue.Setting :=
  (KeyValue.readLine isWhitespace raw).map fun s => (s.1.map lowercased, s.2)

/-- The settings of a text, in order. -/
def settings (text : List Char) : List KeyValue.Setting := (lines text).filterMap setting

section Lines

open KeyValue

variable {text raw : List Char} {s : Setting}

/-- A line is read for its setting. -/
lemma read_eq (f : Fields) (raw : List Char) :
    f.read raw = (setting raw).elim f fun s => f.set s.1 s.2 := by
  rw [Fields.read, setting, readLine, splitOnce_equals]
  by_cases h : '=' ∈ Trim.trim isWhitespace raw
  · simp only [if_pos h]
    rfl
  · simp only [if_neg h]
    rfl

/-- The lines of a text are read for its settings. -/
lemma foldl_read (f : Fields) (text : List Char) :
    (lines text).foldl Fields.read f = (settings text).foldl (fun f s => f.set s.1 s.2) f := by
  rw [settings]
  induction lines text generalizing f with
  | nil => rfl
  | cons raw raws ih =>
      rw [List.foldl_cons, ih, read_eq]
      cases h : setting raw with
      | none => rw [List.filterMap_cons_none h, Option.elim_none]
      | some s => rw [List.filterMap_cons_some h, Option.elim_some, List.foldl_cons]

/-- Without carriage returns, the line feeds break the lines. -/
lemma lines_of_notMem (h : '\r' ∉ text) : lines text = (text.splitOn '\n').filter (· ≠ []) := by
  rw [lines]
  congr 1
  induction text with
  | nil => rfl
  | cons c text ih =>
      obtain ⟨hc, htext⟩ := List.ne_and_not_mem_of_not_mem_cons h
      have hbreaks : breaks false (c :: text) = (c, decide (c = '\n')) :: breaks false text := by
        simp [breaks, hc.symm]
      rw [hbreaks, List.splitOnP_cons_eq_if_modifyHead, List.splitOn_cons_eq_if_modifyHead,
        ← ih htext]
      by_cases hfeed : c = '\n'
      · simp [hfeed]
      · simp only [hfeed, decide_false, Bool.false_eq_true, if_false, beq_iff_eq]
        cases (breaks false text).splitOnP Prod.snd <;> rfl

/-- A carriage return has its line feed behind it. -/
def Paired (line : List Char) : Prop := ∀ a b, line = a ++ '\r' :: b → b.head? = some '\n'

/-- **A carriage return in a line has its line feed behind it.** -/
lemma paired_of_mem_lines (h : raw ∈ lines text) : Paired raw := by
  have hparts : ∀ cr, ∀ part ∈ (breaks cr text).splitOnP Prod.snd, Paired (part.map Prod.fst) := by
    clear h
    induction text with
    | nil =>
        intro cr part hpart a b heq
        obtain rfl := List.mem_singleton.mp hpart
        simp at heq
    | cons c text ih =>
        intro cr part hpart
        rw [breaks, List.splitOnP_cons_eq_if_modifyHead] at hpart
        by_cases hflag :
            (if c = '\n' then !cr else decide (c = '\r' ∧ text.head? ≠ some '\n')) = true
        · rw [if_pos hflag] at hpart
          obtain rfl | hpart := List.mem_cons.mp hpart
          · intro a b heq
            simp at heq
          · exact ih _ part hpart
        · rw [if_neg hflag] at hpart
          cases hrest : (breaks (decide (c = '\r')) text).splitOnP Prod.snd with
          | nil => exact absurd hrest (List.splitOnP_ne_nil _ _)
          | cons first parts =>
              rw [hrest, List.modifyHead_cons] at hpart
              obtain rfl | hpart := List.mem_cons.mp hpart
              · intro a b heq
                cases a with
                | nil =>
                    -- the line feed behind it is read as the same character
                    obtain ⟨rfl, rfl⟩ := List.cons.inj heq
                    cases text with
                    | nil => simp at hflag
                    | cons d text =>
                        obtain rfl : d = '\n' := by simpa using hflag
                        rw [decide_eq_true rfl, breaks, if_pos rfl,
                          List.splitOnP_cons_eq_if_modifyHead, if_neg (by simp)] at hrest
                        cases hnext : (breaks (decide ('\n' = '\r')) text).splitOnP Prod.snd with
                        | nil => exact absurd hnext (List.splitOnP_ne_nil _ _)
                        | cons second parts =>
                            rw [hnext, List.modifyHead_cons] at hrest
                            rw [← (List.cons.inj hrest).1]
                            rfl
                | cons d a =>
                    exact ih _ first (hrest ▸ List.mem_cons_self) a b (List.cons.inj heq).2
              · exact ih _ part (hrest ▸ List.mem_cons_of_mem first hpart)
  obtain ⟨line, hline, rfl⟩ := List.mem_map.mp (List.mem_of_mem_filter h)
  exact hparts false line hline

lemma isBlank_isWhitespace : IsBlank isWhitespace where
  space := by decide
  equals := by decide
  word c hc := by
    have hblank := Trim.isWhitespace_eq_false_of_isAlphanum hc
    simp only [Trim.isWhitespace, Bool.or_eq_false_iff, Trim.isControlSpace,
      Bool.and_eq_false_iff, decide_eq_false_iff_not] at hblank
    rw [isWhitespace, hblank.1.1.2, Bool.false_or, decide_eq_false_iff_not]
    omega

/-- A setting is read as it was written. -/
lemma setting_line (hkey : IsKey s.1) (hvalue : Trim.trim isWhitespace s.2 = s.2) :
    setting (line s) = some (s.1.map lowercased, s.2) := by
  rw [setting, readLine_line isBlank_isWhitespace hkey hvalue, Option.map_some]

/-- **A value without line feeds has no carriage returns.** -/
lemma return_notMem_of_mem_settings (h : s ∈ settings text) (hfeed : '\n' ∉ s.2) :
    '\r' ∉ s.2 := by
  obtain ⟨raw, hraw, hset⟩ := List.mem_filterMap.mp h
  obtain ⟨s, hread, rfl⟩ := Option.map_eq_some_iff.mp hset
  obtain ⟨-, front, back, hline, hback⟩ := of_readLine hread
  intro hmem
  obtain ⟨a, b, hvalue⟩ := List.append_of_mem hmem
  dsimp only at hvalue hfeed
  have hnext := paired_of_mem_lines hraw (front ++ a) (b ++ back) (by rw [hline, hvalue]; simp)
  cases b with
  | nil =>
      have hblank := hback '\n' (List.mem_of_mem_head? hnext)
      exact absurd hblank (by decide)
  | cons c b =>
      obtain rfl := Option.some.inj hnext
      exact hfeed (by simp [hvalue])

end Lines

end CumulusVpn.Mobile.Ios
