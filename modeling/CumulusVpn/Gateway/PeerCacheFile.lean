/-
The file of the peer cache (`gateway/internal/wg/peercache.go`, and the boot of
`gateway/cmd/gateway/main.go`).

Files are bytes; `runes` gives the characters of a line.

* `CacheFile`: what opening and reading the path comes to;
* `loadPeerCacheFile`, `savePeerCache`: reading and writing it;
* `Node`: the gateway beside its file, which it replaces only when the file
  was read completely;
* `Complete`: a file was read to its end, with every well-formed row;
* `FailsAtOnce`: reading fails before the first line;
* `peer_cache_not_lost`: **a file is kept unless it was absent or read
  completely**, but where reading fails at once.
-/
import CumulusVpn.Gateway.PeerTable
import CumulusVpn.Lib.LineScanner
import Mathlib.Data.List.Sort

namespace CumulusVpn.Peers

open StepSystem

/-! ### The file -/

/-- The contents of a file. -/
abbrev Bytes := List UInt8

/-- What a process finds at the path of the cache. -/
inductive CacheFile
  | absent
  /-- opening fails -/
  | unreadable
  /-- the bytes up to the end, or up to where reading fails -/
  | content (bytes : Bytes) (failing : Bool)
deriving DecidableEq

/-- `bufio.MaxScanTokenSize` -/
def maxScanTokenSize : Nat := 64 * 1024

/-- The lines of the bytes, and whether reading them fails. -/
def scanFile (bytes : Bytes) (failing : Bool) : List Bytes × Bool :=
  LineScanner.scan maxScanTokenSize failing bytes

section Load

variable (runes : Bytes → List Char) (max : Nat) (now : Int)

/-- `LoadPeerCache`: the records, and whether the file may be replaced. -/
def loadPeerCacheFile : CacheFile → List PeerRecord × Bool
  | .absent => ([], true)
  | .unreadable => ([], false)
  | .content bytes failing =>
      match scanFile bytes failing with
      -- the error of the scanner is not asked for
      | ([], _) => ([], true)
      | (version :: lines, err) =>
          if trimSpace (runes version) = "cvpn-peers-v2".toList ∨
              trimSpace (runes version) = "cvpn-peers-v1".toList then
            match loadRecords max now (lines.map runes) [] with
            | (recs, false) => (recs, false)
            | (recs, true) => (recs, !err)
          else ([], false)

end Load

/-- `%d` of the Unix time; the zero time is written as zero. -/
def stampText (seen : Option Int) : List Char :=
  let secs := seen.getD 0
  (if secs < 0 then ['-'] else []) ++ Nat.toDigits 10 secs.natAbs

/-- The dotted quad of an address. -/
def addrText (a : Addr) : List Char :=
  List.intercalate ['.'] ([a.b0, a.b1, a.b2, a.b3].map (Nat.toDigits 10))

/-- `"%s %s %d"` -/
def rowText (r : PeerRecord) : List Char :=
  r.pubKey.toList ++ ' ' :: (addrText r.addr ++ ' ' :: stampText r.seen)

/-- The bytes of a text. -/
def utf8 (cs : List Char) : Bytes := cs.flatMap String.utf8EncodeChar

/-- `sorted[i].PubKey < sorted[j].PubKey` -/
def KeyLE (r r' : PeerRecord) : Prop := r.pubKey ≤ r'.pubKey

instance : DecidableRel KeyLE := fun r r' => inferInstanceAs (Decidable (r.pubKey ≤ r'.pubKey))

/-- The bytes that `savePeerCache` writes. -/
def savePeerCache (recs : List PeerRecord) : Bytes :=
  ("cvpn-peers-v2".toList :: (recs.insertionSort KeyLE).map rowText).flatMap fun line =>
    utf8 line ++ [10]

/-! ### The gateway beside its file -/

/-- A gateway with its cache on disk. -/
structure Node where
  gateway : Gateway
  /-- `cachePath` is set -/
  persists : Bool
  file : CacheFile

namespace Node

/-- The boot: the file is read, and replaced from now on if it was read
completely. -/
def boot (runes : Bytes → List Char) (own : Identity) (max : Nat) (now : Int) (file : CacheFile)
    (fails : Fails) (listeners : List Listener) : Node where
  gateway := .boot own now (loadPeerCacheFile runes max now file).1 fails listeners
  persists := (loadPeerCacheFile runes max now file).2
  file := file

/-- A call of an operation; `saved` says whether the device saved its table
during it. -/
def step (c : Config) (n : Node) (e : Event × Bool) : Option Node :=
  (Peers.step c n.gateway e.1).map fun g =>
    { n with
      gateway := g
      file :=
        if n.persists ∧ e.2 then .content (savePeerCache g.dev.peerRecords) false else n.file }

end Node

/-! ### Complete reads -/

/-- The records hold every row that names a key for the first time. -/
def Returned (now : Int) (lines : List (List Char)) (recs : List PeerRecord) : Prop :=
  ∀ before line after r, lines = before ++ line :: after → parseRecord now line = some r →
    (∀ l ∈ before, ∀ r', parseRecord now l = some r' → r'.pubKey ≠ r.pubKey) → r ∈ recs

/-- The file was read to its end, and every well-formed row is among the
records. -/
def Complete (runes : Bytes → List Char) (now : Int) (recs : List PeerRecord) :
    CacheFile → Prop
  | .absent => False
  | .unreadable => False
  | .content bytes failing =>
      (scanFile bytes failing).2 = false ∧
        Returned now ((scanFile bytes failing).1.tail.map runes) recs

/-- Reading fails before a byte is read, or within a first line that is too
long. -/
def FailsAtOnce : CacheFile → Prop
  | .absent => False
  | .unreadable => False
  | .content bytes failing =>
      (bytes = [] ∧ failing = true) ∨ maxScanTokenSize ≤ (bytes.takeWhile (· ≠ 10)).length

section Complete

variable {runes : Bytes → List Char} {max : Nat} {now : Int}

/-- Where the ceiling is not reached, what is taken stays, and every new key is
taken. -/
lemma mem_loadRecords {lines : List (List Char)} {recs : List PeerRecord}
    (h : (loadRecords max now lines recs).2 = true) :
    (∀ r ∈ recs, r ∈ (loadRecords max now lines recs).1) ∧
    ∀ before line after r, lines = before ++ line :: after → parseRecord now line = some r →
      (∀ l ∈ before, ∀ r', parseRecord now l = some r' → r'.pubKey ≠ r.pubKey) →
      (∀ r' ∈ recs, r'.pubKey ≠ r.pubKey) → r ∈ (loadRecords max now lines recs).1 := by
  induction lines generalizing recs with
  | nil => exact ⟨fun r hr => hr, fun before line after r hlines => by simp at hlines⟩
  | cons first lines ih =>
      -- a first line that is passed over
      have hskip : (loadRecords max now lines recs).2 = true →
          (∀ r, parseRecord now first = some r → ∃ r' ∈ recs, r'.pubKey = r.pubKey) →
          (∀ r ∈ recs, r ∈ (loadRecords max now lines recs).1) ∧
          ∀ before line after r, first :: lines = before ++ line :: after →
            parseRecord now line = some r →
            (∀ l ∈ before, ∀ r', parseRecord now l = some r' → r'.pubKey ≠ r.pubKey) →
            (∀ r' ∈ recs, r'.pubKey ≠ r.pubKey) → r ∈ (loadRecords max now lines recs).1 := by
        intro hrest hfirst
        obtain ⟨hkept, htaken⟩ := ih hrest
        refine ⟨hkept, fun before line after r hlines hr hbefore hrecs => ?_⟩
        cases before with
        | nil =>
            obtain ⟨rfl, rfl⟩ := List.cons.inj hlines
            obtain ⟨r', hr', hsame⟩ := hfirst r hr
            exact absurd hsame (hrecs r' hr')
        | cons l before =>
            obtain ⟨rfl, rfl⟩ := List.cons.inj hlines
            exact htaken before line after r rfl hr
              (fun l' hl' => hbefore l' (List.mem_cons_of_mem _ hl')) hrecs
      rw [loadRecords] at h ⊢
      cases hparse : parseRecord now first with
      | none =>
          rw [hparse] at h
          exact hskip h fun r hr => by cases hparse.symm.trans hr
      | some r₀ =>
          rw [hparse] at h
          dsimp only at h ⊢
          by_cases hdup : recs.any (fun r' => r'.pubKey = r₀.pubKey) = true
          · rw [if_pos hdup] at h ⊢
            refine hskip h fun r hr => ?_
            obtain rfl := Option.some.inj (hparse.symm.trans hr)
            obtain ⟨r', hr', hsame⟩ := List.any_eq_true.mp hdup
            exact ⟨r', hr', of_decide_eq_true hsame⟩
          · rw [if_neg hdup] at h ⊢
            by_cases hfull : max > 0 ∧ recs.length + 1 ≥ max
            · rw [if_pos hfull] at h
              cases h
            · rw [if_neg hfull] at h ⊢
              obtain ⟨hkept, htaken⟩ := ih h
              refine ⟨fun r hr => hkept r (List.mem_append_left _ hr), ?_⟩
              intro before line after r hlines hr hbefore hrecs
              cases before with
              | nil =>
                  obtain ⟨rfl, rfl⟩ := List.cons.inj hlines
                  obtain rfl := Option.some.inj (hparse.symm.trans hr)
                  exact hkept r₀ (List.mem_append_right _ (List.mem_singleton_self r₀))
              | cons l before =>
                  obtain ⟨rfl, rfl⟩ := List.cons.inj hlines
                  refine htaken before line after r rfl hr
                    (fun l' hl' => hbefore l' (List.mem_cons_of_mem _ hl')) ?_
                  intro r' hr'
                  rcases List.mem_append.mp hr' with hr' | hr'
                  · exact hrecs r' hr'
                  · rw [List.mem_singleton.mp hr']
                    exact hbefore first List.mem_cons_self r₀ hparse

lemma complete_of_loadRecords {lines : List (List Char)}
    (h : (loadRecords max now lines []).2 = true) :
    Returned now lines (loadRecords max now lines []).1 :=
  fun before line after r hlines hr hnew =>
    (mem_loadRecords h).2 before line after r hlines hr hnew nofun

/-- A content that may be replaced was read completely, or an error came before
the first line. -/
lemma complete_or_failed {bytes : Bytes} {failing : Bool}
    (h : (loadPeerCacheFile runes max now (.content bytes failing)).2 = true) :
    Complete runes now (loadPeerCacheFile runes max now (.content bytes failing)).1
        (.content bytes failing) ∨ scanFile bytes failing = ([], true) := by
  rw [Complete]
  rw [loadPeerCacheFile] at h ⊢
  cases hscan : scanFile bytes failing with
  | mk lines err =>
      rw [hscan] at h
      cases lines with
      | nil =>
          cases err with
          | true => exact Or.inr rfl
          | false => exact Or.inl ⟨rfl, fun before line after r hlines => by simp at hlines⟩
      | cons version lines =>
          left
          dsimp only at h ⊢
          split at h
          · rename_i hversion
            rw [if_pos hversion]
            cases hload : loadRecords max now (lines.map runes) [] with
            | mk recs done =>
                rw [hload] at h
                cases done with
                | false => cases h
                | true =>
                    have hreturned := @complete_of_loadRecords max now (lines.map runes)
                      (by rw [hload])
                    rw [hload] at hreturned
                    exact ⟨by simpa using h, hreturned⟩
          · cases h

lemma scanFile_eq_iff {bytes : Bytes} {failing : Bool} :
    scanFile bytes failing = ([], true) ↔ FailsAtOnce (.content bytes failing) :=
  LineScanner.scan_eq_iff

/-- What is read of a file that fails at once. -/
lemma loadPeerCacheFile_of_failsAtOnce {file : CacheFile} (h : FailsAtOnce file) :
    loadPeerCacheFile runes max now file = ([], true) ∧
      ∀ recs, ¬ (file = .absent ∨ Complete runes now recs file) := by
  cases file with
  | absent => cases h
  | unreadable => cases h
  | content bytes failing =>
      rw [← scanFile_eq_iff] at h
      refine ⟨by rw [loadPeerCacheFile, h], fun recs hsafe => ?_⟩
      rcases hsafe with hsafe | hsafe
      · cases hsafe
      · rw [Complete, h] at hsafe
        exact absurd hsafe.1 nofun

end Complete

/-! ### Runs -/

section Runs

variable {c : Config}

/-- A gateway that does not persist leaves the file alone. -/
lemma Node.file_step {n n' : Node} {e : Event × Bool} (hoff : n.persists = false)
    (h : n.step c e = some n') : n'.persists = false ∧ n'.file = n.file := by
  obtain ⟨g, -, rfl⟩ := Option.map_eq_some_iff.mp h
  refine ⟨hoff, if_neg fun hsave => ?_⟩
  rw [hoff] at hsave
  exact absurd hsave.1 nofun

/-- **A file is replaced only when it was absent or read completely**, just where
reading does not fail at once; in every run from a file that may not be replaced
it stays as it is. -/
theorem peer_cache_not_lost (runes : Bytes → List Char) (c : Config) (own : Identity) (max : Nat)
    (now : Int) (file : CacheFile) (fails : Fails) (listeners : List Listener) :
    (((loadPeerCacheFile runes max now file).2 = true →
      file = .absent ∨ Complete runes now (loadPeerCacheFile runes max now file).1 file) ↔
        ¬ FailsAtOnce file) ∧
    ((loadPeerCacheFile runes max now file).2 = false → ∀ es n,
      exec (Node.step c) (.boot runes own max now file fails listeners) es = some n →
        n.file = file) := by
  refine ⟨⟨fun hsafe hfails => ?_, fun hreads hclean => ?_⟩, fun hunclean es n hrun => ?_⟩
  · obtain ⟨hload, hnot⟩ := @loadPeerCacheFile_of_failsAtOnce runes max now file hfails
    rw [hload] at hsafe
    exact hnot _ (hsafe rfl)
  · cases file with
    | absent => exact Or.inl rfl
    | unreadable => cases hclean
    | content bytes failing =>
        rcases complete_or_failed hclean with hcomplete | hfailed
        · exact Or.inr hcomplete
        · exact absurd (scanFile_eq_iff.mp hfailed) hreads
  · have hstep : ∀ (n : Node) (e : Event × Bool) (n' : Node),
        n.persists = false ∧ n.file = file → True → n.step c e = some n' →
          n'.persists = false ∧ n'.file = file := by
      intro n e n' hn _ h
      obtain ⟨hoff, hfile⟩ := Node.file_step hn.1 h
      exact ⟨hoff, hfile.trans hn.2⟩
    have hboot : (Node.boot runes own max now file fails listeners).persists = false ∧
        (Node.boot runes own max now file fails listeners).file = file := ⟨hunclean, rfl⟩
    exact (exec_invariant hstep hboot (along_of_forall (fun _ _ => trivial) _ es) hrun).2

/-- The characters of a line of ASCII. -/
def asciiRunes (bytes : Bytes) : List Char := bytes.map fun b => Char.ofNat b.toNat

/-- A file that cannot be opened outlives an enrollment that saves. -/
theorem peer_cache_not_lost_unreadable :
    ∃ n, exec (Node.step roomy)
        (.boot asciiRunes [9] 100 0 .unreadable (fun _ => false) [⟨some fun _ => false, false⟩])
        ((enrollment zeroKey).map fun e => (e, true)) = some n ∧
      n.gateway.dev.peerAddr zeroKey = some ⟨10, 8, 0, 2⟩ ∧ n.file = .unreadable := by
  have hrun : (exec (Node.step roomy)
      (.boot asciiRunes [9] 100 0 .unreadable (fun _ => false) [⟨some fun _ => false, false⟩])
      ((enrollment zeroKey).map fun e => (e, true))).any fun n =>
        n.gateway.dev.peerAddr zeroKey = some ⟨10, 8, 0, 2⟩ := by decide +kernel
  obtain ⟨n, hn, haddr⟩ := (Option.any_eq_true _ _).mp hrun
  refine ⟨n, hn, of_decide_eq_true haddr, ?_⟩
  exact (peer_cache_not_lost asciiRunes roomy [9] 100 0 .unreadable _ _).2 rfl _ n hn

/-- A file whose first read fails counts as read completely, and is
replaced. -/
theorem not_peer_cache_not_lost :
    (¬ ∀ (runes : Bytes → List Char) (max : Nat) (now : Int) (file : CacheFile),
      (loadPeerCacheFile runes max now file).2 = true →
        file = .absent ∨ Complete runes now (loadPeerCacheFile runes max now file).1 file) ∧
    ((exec (Node.step roomy)
      (.boot asciiRunes [9] 100 0 (.content [] true) (fun _ => false) [])
      [(.request zeroKey false, true)]).map Node.file =
        some (.content (utf8 "cvpn-peers-v2\n".toList) false)) := by
  have hfails : FailsAtOnce (.content [] true) := Or.inl ⟨rfl, rfl⟩
  refine ⟨fun hsafe => ?_, by decide +kernel⟩
  obtain ⟨hload, hnot⟩ := @loadPeerCacheFile_of_failsAtOnce asciiRunes 100 0 _ hfails
  have hclean := hsafe asciiRunes 100 0 (.content [] true) (by rw [hload])
  exact hnot _ hclean

end Runs

end CumulusVpn.Peers
