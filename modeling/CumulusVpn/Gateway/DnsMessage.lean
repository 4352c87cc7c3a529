/-
Lookups that the gateway answers, as texts
(`gateway/internal/dnsproxy/message.go`, `providers.go`, and the exchanges of
`proxy.go`).

* `Library`: the message parser and builder, which is not read here;
* `isQuery`, `checkResponse`, `fitUDP`: what is asked of a message, and what
  goes back over UDP;
* `Resolvers`, `Resolvers.new`, `providers`: who answers a lookup;
* `dohExchange`, `plainExchange`: the two ways to an answer;
* `Answers`, `answers_dohExchange`, `answers_plainExchange`: **every answer
  carries the identifier of its query and fits a message**;
* `length_fitUDP_le`: what goes back over UDP fits, unless it is rebuilt.
-/
import CumulusVpn.Gateway.Forward
import CumulusVpn.Lib.Framing

namespace CumulusVpn.Lookups

open Framing Egress

/-- A DNS message. -/
abbrev Msg : Type := List UInt8

/-- The length of a header. -/
abbrev headerLen : Nat := 12

/-- What every client takes over UDP. -/
abbrev minUDP : Nat := 512

/-- The most that is sent over UDP. -/
abbrev maxUDP : Nat := 1232

/-- The longest message. -/
abbrev maxMessage : Nat := 65535

/-! ### Messages -/

/-- What is looked at of a header. -/
structure Header where
  response : Bool
  opCode : Nat
deriving DecidableEq, Repr

/-- The package `dnsmessage`: what its parser finds in a message. -/
structure Library where
  start : Msg → Option Header
  /-- the first question parses -/
  question : Msg → Bool
  /-- the class of the first OPT record, when the walk to it succeeds -/
  optClass : Msg → Option Nat
  /-- the header with the bit for truncation, and the questions -/
  truncated : Msg → Option Msg
  /-- `Start` reads a whole header -/
  headerLen_le : ∀ m, (start m).isSome → headerLen ≤ m.length

section Message

variable (lib : Library)

/-- The message is a standard query with a question. -/
def isQuery (m : Msg) : Bool :=
  match lib.start m with
  | none => false
  | some h => if h.response || h.opCode ≠ 0 then false else lib.question m

/-- The message is a response. -/
def checkResponse (m : Msg) : Bool :=
  match lib.start m with
  | none => false
  | some h => h.response

/-- `binary.BigEndian.Uint16`. -/
def messageID (m : Msg) : Nat := ofBigEndian (m.take 2)

/-- The message under another number. -/
def setMessageID (m : Msg) (id : Nat) : Msg := bigEndian 2 id ++ m.drop 2

/-- The bit for truncation in the second word of the header. -/
def isTruncated (m : Msg) : Bool :=
  headerLen ≤ m.length && ofBigEndian ((m.drop 2).take 2) / 2 ^ 9 % 2 = 1

/-- What the client's OPT record allows. -/
def udpLimit (query : Msg) : Nat :=
  match lib.start query with
  | none => minUDP
  | some _ =>
      match lib.optClass query with
      | none => minUDP
      | some size => min (max size minUDP) maxUDP

/-- The flags with the bit that says so. -/
def setTruncated (word : Nat) : Nat := if word / 2 ^ 9 % 2 = 1 then word else word + 2 ^ 9

/-- A response without its answers; only the header where the library cannot
build one. -/
def truncate (resp : Msg) : Msg :=
  match (lib.start resp).bind fun _ => lib.truncated resp with
  | some out => out
  | none =>
      let out := resp.take 4 ++ List.replicate (headerLen - (resp.take 4).length) 0
      out.take 2 ++ bigEndian 2 (setTruncated (ofBigEndian ((out.drop 2).take 2))) ++ out.drop 4

/-- A response that the client can take over UDP. -/
def fitUDP (query resp : Msg) : Msg :=
  if resp.length ≤ udpLimit lib query then resp else truncate lib resp

end Message

section Identifiers

variable {lib : Library} {m : Msg}

lemma headerLen_le_of_checkResponse (h : checkResponse lib m = true) : headerLen ≤ m.length := by
  unfold checkResponse at h
  split at h
  · cases h
  · rename_i hstart
    exact lib.headerLen_le m (by rw [hstart]; rfl)

lemma messageID_lt (m : Msg) : messageID m < 256 ^ 2 := by
  refine (ofBigEndian_lt _).trans_le (Nat.pow_le_pow_right (by omega) ?_)
  rw [List.length_take]
  omega

@[simp] lemma length_setMessageID (hm : headerLen ≤ m.length) (id : Nat) :
    (setMessageID m id).length = m.length := by
  have htwo : 2 ≤ m.length := Nat.le_trans (by decide) hm
  rw [setMessageID, List.length_append, length_bigEndian, List.length_drop]
  omega

lemma messageID_setMessageID (m : Msg) {id : Nat} (hid : id < 256 ^ 2) :
    messageID (setMessageID m id) = id := by
  have htake : (setMessageID m id).take 2 = bigEndian 2 id :=
    List.take_append_of_le_length (by simp) |>.trans (List.take_of_length_le (by simp))
  rw [messageID, htake, ofBigEndian_bigEndian hid]

/-- An answer that fits is sent as it is. -/
lemma fitUDP_of_le {query resp : Msg} (h : resp.length ≤ udpLimit lib query) :
    fitUDP lib query resp = resp :=
  if_pos h

lemma udpLimit_bounds (query : Msg) :
    minUDP ≤ udpLimit lib query ∧ udpLimit lib query ≤ maxUDP := by
  unfold udpLimit
  split
  · decide
  · split
    · decide
    · exact ⟨le_min (le_max_right _ _) (by decide), min_le_right _ _⟩

/-- **What goes back over UDP fits**, unless its questions alone do not. -/
theorem length_fitUDP_le {query resp : Msg}
    (hbuilt : ∀ out, lib.truncated resp = some out → out.length ≤ minUDP) :
    (fitUDP lib query resp).length ≤ udpLimit lib query := by
  have hmin : minUDP ≤ udpLimit lib query := (udpLimit_bounds query).1
  by_cases h : resp.length ≤ udpLimit lib query
  · rwa [fitUDP_of_le h]
  · rw [fitUDP, if_neg h, truncate]
    split
    · rename_i out hout
      obtain ⟨-, -, htruncated⟩ := Option.bind_eq_some_iff.mp hout
      exact (hbuilt out htruncated).trans hmin
    · have hheader : headerLen ≤ minUDP := by decide
      refine le_trans ?_ (hheader.trans hmin)
      simp only [List.length_append, List.length_take, List.length_drop, List.length_replicate,
        length_bigEndian, headerLen]
      omega

end Identifiers

/-! ### Resolvers -/

/-- A provider of encrypted DNS, and the addresses it answers for. -/
structure Provider where
  name : String
  host : String
  addrs : List Ip
  /-- addresses that are answered by this provider, and never dialed -/
  retired : List Ip
deriving DecidableEq, Repr

/-- Who answers at an address. -/
structure Resolvers where
  upstreams : Ip → Option Provider

/-- A map with one more entry. -/
def insert {β : Type} (m : Ip → Option β) (a : Ip) (b : β) : Ip → Option β :=
  fun x => if x = a then some b else m x

namespace Resolvers

/-- The entries of one provider, its retired addresses last. -/
def add (r : Resolvers) (pr : Provider) : Resolvers :=
  (pr.addrs ++ pr.retired).foldl (fun r a => ⟨insert r.upstreams a pr⟩) r

/-- The resolvers of the providers. -/
def new (provs : List Provider) : Resolvers := provs.foldl add ⟨fun _ => none⟩

/-- The address is one of a provider's. -/
def handles (r : Resolvers) (dst : Ip) : Bool := (r.upstreams dst).isSome

end Resolvers

/-- An IPv4 address by its four numbers. -/
def quad (a b c d : Nat) : Ip := .v4 (BitVec.ofNat 32 (((a * 256 + b) * 256 + c) * 256 + d))

/-- The providers that are deployed. -/
def providers : List Provider :=
  [⟨"cloudflare", "cloudflare-dns.com", [quad 1 1 1 1, quad 1 0 0 1], []⟩,
    ⟨"cloudflare-security", "security.cloudflare-dns.com", [quad 1 1 1 2, quad 1 0 0 2], []⟩,
    ⟨"cloudflare-family", "family.cloudflare-dns.com", [quad 1 1 1 3, quad 1 0 0 3], []⟩,
    ⟨"quad9", "dns.quad9.net", [quad 9 9 9 9, quad 149 112 112 112], [quad 194 242 2 2]⟩,
    ⟨"adguard", "dns.adguard-dns.com", [quad 94 140 14 14, quad 94 140 15 15], []⟩,
    ⟨"google", "dns.google", [quad 8 8 8 8, quad 8 8 4 4], []⟩,
    ⟨"dns4eu", "protective.joindns4.eu", [quad 86 54 11 1, quad 86 54 11 201], []⟩]

/-! ### Exchanges -/

/-- What the provider's server sends back over HTTPS. -/
structure Reply where
  status : Nat
  contentType : String
  body : Msg
deriving DecidableEq, Repr

section Exchange

variable (lib : Library) (query : Msg)

/-- `exchange` of a provider; no reply is an error of the client's. -/
def dohExchange (reply : Option Reply) : Option Msg :=
  reply.bind fun res =>
    if res.status ≠ 200 then none
    else if ! "application/dns-message".toList.isPrefixOf res.contentType.toList then none
    else if res.body.length > maxMessage then none
    else if ! checkResponse lib res.body then none
    else some (setMessageID res.body (messageID query))

/-- The answer that `plainUDP` waits for. -/
def isAnswer (m : Msg) : Bool :=
  headerLen ≤ m.length && messageID m = messageID query && checkResponse lib m

/-- The datagrams that arrive before the deadline; each fills the buffer at
most. -/
def plainUDP (datagrams : List Msg) : Option Msg :=
  (datagrams.map (List.take maxMessage)).find? (isAnswer lib query)

/-- The stream that arrives before the deadline. -/
def plainTCP (stream : List UInt8) : Option Msg :=
  (pop 2 stream).bind fun read => if isAnswer lib query read.1 then some read.1 else none

/-- A lookup in plain text: over UDP, and again over TCP where the response is
truncated. -/
def plainExchange (datagrams : List Msg) (stream : List UInt8) : Option Msg :=
  match plainUDP lib query datagrams with
  | none => none
  | some resp => if isTruncated resp then plainTCP lib query stream else some resp

end Exchange

/-- An answer for the client that sent the query. -/
structure Answers (query resp : Msg) : Prop where
  id : messageID resp = messageID query
  header : headerLen ≤ resp.length
  fits : resp.length ≤ maxMessage

instance (query resp : Msg) : Decidable (Answers query resp) :=
  decidable_of_iff (messageID resp = messageID query ∧ headerLen ≤ resp.length ∧
    resp.length ≤ maxMessage)
    ⟨fun h => ⟨h.1, h.2.1, h.2.2⟩, fun h => ⟨h.id, h.header, h.fits⟩⟩

section Answers

variable {lib : Library} {query resp : Msg}

/-- An answer over HTTPS carries the identifier that was left out. -/
theorem answers_dohExchange {reply : Option Reply} (h : dohExchange lib query reply = some resp) :
    Answers query resp := by
  obtain ⟨res, -, h⟩ := Option.bind_eq_some_iff.mp h
  split at h
  · cases h
  split at h
  · cases h
  split at h
  · cases h
  rename_i hfits
  split at h
  · cases h
  rename_i hcheck
  obtain rfl := Option.some.inj h
  have hheader := headerLen_le_of_checkResponse (by simpa using hcheck)
  refine ⟨messageID_setMessageID _ (messageID_lt _), ?_, ?_⟩
  · rwa [length_setMessageID hheader]
  · rw [length_setMessageID hheader]
    exact Nat.not_lt.mp hfits

lemma isAnswer_iff {m : Msg} :
    isAnswer lib query m = true ↔
      headerLen ≤ m.length ∧ messageID m = messageID query ∧ checkResponse lib m = true := by
  simp [isAnswer, and_assoc]

theorem answers_plainExchange {datagrams : List Msg} {stream : List UInt8}
    (h : plainExchange lib query datagrams stream = some resp) : Answers query resp := by
  unfold plainExchange at h
  split at h
  · cases h
  · rename_i found hudp
    split at h
    · obtain ⟨⟨body, rest⟩, hpop, hbody⟩ := Option.bind_eq_some_iff.mp h
      have hsize : body.length < 256 ^ 2 := (pop_eq_some_iff.mp hpop).1
      dsimp only at hbody
      split at hbody
      · rename_i hanswer
        obtain rfl := Option.some.inj hbody
        obtain ⟨hlen, hid, -⟩ := isAnswer_iff.mp hanswer
        exact ⟨hid, hlen, Nat.le_of_lt_succ hsize⟩
      · cases hbody
    · obtain rfl := Option.some.inj h
      have hfound := List.find?_some hudp
      obtain ⟨hlen, hid, -⟩ := isAnswer_iff.mp hfound
      obtain ⟨whole, -, rfl⟩ := List.mem_map.mp (List.mem_of_find?_eq_some hudp)
      refine ⟨hid, hlen, ?_⟩
      rw [List.length_take]
      omega

end Answers

end CumulusVpn.Lookups
