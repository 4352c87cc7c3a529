/-
The messages between the app and its privileged helper
(`clients/desktop/src-tauri/protocol/src/lib.rs`, and what `helper_client.rs`
makes of a failed exchange).

* `Codec`: `serde_json`, whose texts of the messages are not read here;
* `writeFrame`, `readFrame`: a message behind its length, which is capped;
* `readFrame_eq_ok_iff`: **a message is read exactly from a stream that begins
  with the frame of a text of it**;
* `readFrame_writeFrame`: **what is written is read**, and what is behind it is
  left;
* `Failure.fromIo`, `describe`: what the app says when the helper cannot be used;
* `dispatch`, `dispatch_ne_refusal`: **no answer of the tunnel manager reads as
  a refusal of the peer**.
-/
import CumulusVpn.Desktop.Manager
import CumulusVpn.Lib.Framing

namespace CumulusVpn.Desktop.Helper

open Framing

variable {α : Type}

/-! ### Messages -/

/-- The largest message that either side reads. -/
abbrev maxFrame : Nat := 1024 * 1024

/-- What the helper says to a peer it refuses. -/
def notAuthorised : String := "not authorised"

/-- The unit that runs the helper. -/
def linuxUnit : String := "cumulusvpn-helper.service"

/-- The group whose accounts it serves. -/
def linuxGroup : String := "cumulusvpn"

/-- The binary of the app. -/
def appBinaryName : String := "cumulusvpn-desktop"

/-- What the app asks of the helper. -/
inductive Request
  | connect (r : ConnectRequest)
  | connectMultihop (r : MultihopRequest)
  | disconnect
  | status
  | ping
deriving DecidableEq, Repr

/-- What the helper answers. -/
inductive Response
  | status (s : TunnelStatus)
  | pong (version : String)
  | error (message : String)
deriving DecidableEq, Repr

/-- The answer to a peer that is not the app. -/
def Response.refusal : Response := .error notAuthorised

/-- `serde_json` for the messages of one type; an error is its text. -/
structure Codec (α : Type) where
  toVec : α → List UInt8
  fromSlice : List UInt8 → Except String α

/-- A message that is read as another one, which is the same message where the
codec reads back what it writes. -/
def Codec.Reads (c : Codec α) (sent got : α) : Prop := c.fromSlice (c.toVec sent) = .ok got

instance [DecidableEq α] (c : Codec α) (sent got : α) : Decidable (c.Reads sent got) :=
  inferInstanceAs (Decidable (_ = _))

/-! ### Frames -/

/-- The kinds of an `io::Error` that are told apart. -/
inductive ErrorKind
  | notFound
  | connectionRefused
  | permissionDenied
  | unexpectedEof
  | invalidInput
  | invalidData
  | other
deriving DecidableEq, Repr

/-- An `io::Error`: its kind and its text. -/
structure IoError where
  kind : ErrorKind
  text : String
  /-- `get_ref`: an error of a program, and not of the system -/
  custom : Bool
deriving DecidableEq, Repr

namespace IoError

/-- What is written is longer than a frame. -/
def frameTooLarge : IoError := ⟨.invalidInput, "frame too large", true⟩

/-- A header announces more than a frame. -/
def exceedsMaximum : IoError := ⟨.invalidData, "frame exceeds maximum", true⟩

/-- The stream ends inside a frame. -/
def endOfStream : IoError := ⟨.unexpectedEof, "failed to fill whole buffer", false⟩

end IoError

/-- The bytes that `write_frame` writes, before any of them fails. -/
def writeFrame (c : Codec α) (value : α) : Except IoError (List UInt8) :=
  let body := c.toVec value
  if body.length < 2 ^ 32 ∧ body.length ≤ maxFrame then .ok (bigEndian 4 body.length ++ body)
  else .error .frameTooLarge

/-- `read_frame` on what has arrived of the stream, with what is behind the
frame; none while it waits for more. -/
def readFrame (c : Codec α) (closed : Bool) (r : List UInt8) :
    Option (Except IoError (α × List UInt8)) :=
  match readFull 4 r with
  | none => if closed then some (.error .endOfStream) else none
  | some (lenBuf, r) =>
      let len := ofBigEndian lenBuf
      -- before the body is allocated
      if len > maxFrame then some (.error .exceedsMaximum)
      else
        match readFull len r with
        | none => if closed then some (.error .endOfStream) else none
        | some (body, r) =>
            match c.fromSlice body with
            | .ok value => some (.ok (value, r))
            | .error text => some (.error ⟨.other, text, true⟩)

section Frames

variable {c : Codec α} {closed : Bool} {value : α} {r rest bytes : List UInt8}

lemma fits_of_le {body : List UInt8} (h : body.length ≤ maxFrame) : Fits 4 body := by
  show body.length < 256 ^ 4
  have : maxFrame < 256 ^ 4 := by decide
  omega

lemma writeFrame_eq_ok (h : writeFrame c value = .ok bytes) :
    bytes = frame 4 (c.toVec value) ∧ (c.toVec value).length ≤ maxFrame := by
  rw [writeFrame] at h
  split at h
  · rename_i hsize
    exact ⟨(Except.ok.inj h).symm, hsize.2⟩
  · cases h

lemma writeFrame_of_le (h : (c.toVec value).length ≤ maxFrame) :
    writeFrame c value = .ok (frame 4 (c.toVec value)) := by
  have hsize : (c.toVec value).length < 2 ^ 32 := by
    have : maxFrame < 2 ^ 32 := by decide
    omega
  rw [writeFrame, if_pos ⟨hsize, h⟩]
  rfl

/-- **A message is read exactly from a stream that begins with the frame of a
text of it.** -/
theorem readFrame_eq_ok_iff :
    readFrame c closed r = some (.ok (value, rest)) ↔
      ∃ body, body.length ≤ maxFrame ∧ pop 4 r = some (body, rest) ∧
        c.fromSlice body = .ok value := by
  unfold readFrame pop
  cases hheader : readFull 4 r with
  | none => cases closed <;> simp
  | some header =>
      obtain ⟨lenBuf, behind⟩ := header
      rw [Option.bind_some]
      dsimp only
      by_cases hlen : ofBigEndian lenBuf > maxFrame
      · rw [if_pos hlen]
        constructor
        · intro h
          cases h
        · rintro ⟨body, hbody, hpop, -⟩
          rw [← (readFull_eq_some_iff.mp hpop).1] at hlen
          omega
      · rw [if_neg hlen]
        cases hbody : readFull (ofBigEndian lenBuf) behind with
        | none => cases closed <;> simp
        | some read =>
            obtain ⟨body, left⟩ := read
            have hsize := (readFull_eq_some_iff.mp hbody).1
            have hle : body.length ≤ maxFrame := by omega
            dsimp only
            cases hslice : c.fromSlice body with
            | error text => simp [hslice]
            | ok found =>
                simp only [Option.some.injEq, Except.ok.injEq, Prod.mk.injEq]
                constructor
                · rintro ⟨rfl, rfl⟩
                  exact ⟨body, hle, ⟨rfl, rfl⟩, hslice⟩
                · rintro ⟨body', -, ⟨rfl, rfl⟩, hslice'⟩
                  rw [hslice] at hslice'
                  exact ⟨Except.ok.inj hslice', rfl⟩

/-- **What is written is read**, whatever follows it. -/
theorem readFrame_writeFrame {got : α} (h : writeFrame c value = .ok bytes)
    (hreads : c.Reads value got)
    (rest : List UInt8) : readFrame c closed (bytes ++ rest) = some (.ok (got, rest)) := by
  obtain ⟨rfl, hsize⟩ := writeFrame_eq_ok h
  exact readFrame_eq_ok_iff.mpr ⟨c.toVec value, hsize, pop_frame_append (fits_of_le hsize) rest,
    hreads⟩

end Frames

/-! ### The app's view of a failure -/

/-- The systems that the messages tell apart. -/
inductive Os
  | macos
  | linux
  | windows
deriving DecidableEq, Repr

/-- A transport failure. -/
inductive Failure
  | unreachable (message : String)
  | denied (message : String)
deriving DecidableEq, Repr

/-- What the app shows when the helper refuses it. -/
def refusedMessage : Os → String
  | .linux =>
      "CumulusVPN's network helper refused this app. Run the installed app (/usr/bin/" ++
        appBinaryName ++ "), from an account in the " ++ linuxGroup ++ " group."
  | .windows =>
      "CumulusVPN's network helper refused this app. Run CumulusVPN from its install folder, " ++
        "or reinstall it."
  | .macos => "CumulusVPN's network helper refused this app. Reinstall the app."

/-- What the app shows of an error of the socket. -/
def describe (os : Os) (e : IoError) : String :=
  match e.kind with
  | .notFound | .connectionRefused =>
      match os with
      | .linux =>
          "CumulusVPN's network helper is not running. Start it with: " ++
            "sudo systemctl enable --now " ++ linuxUnit
      | .windows =>
          "CumulusVPN's network helper is not running. Start the \"CumulusVPN Helper\" " ++
            "service, or reinstall CumulusVPN."
      | .macos => "CumulusVPN's network helper is not running. Open Settings to finish setup."
  | .permissionDenied =>
      if os = .linux ∧ ¬ e.custom then
        "This account cannot use CumulusVPN's network helper yet. Log out and back in after " ++
          "installing; if that does not help, run: sudo usermod -aG " ++ linuxGroup ++ " \"$USER\""
      else if e.custom then "cannot trust the network helper: " ++ e.text
      else refusedMessage os
  | _ => "cannot reach the network helper: " ++ e.text

/-- The failure that an error of the socket is. -/
def Failure.fromIo (os : Os) (e : IoError) : Failure :=
  match e.kind with
  | .permissionDenied => .denied (describe os e)
  | _ => .unreachable (describe os e)

/-! ### Dispatch -/

/-- The reply to a request, with what the tunnel manager made of it. -/
def dispatch (version : String) (request : Request) (result : Except TunnelError TunnelStatus) :
    Response :=
  match request, result with
  | .ping, _ => .pong version
  | _, .ok status => .status status
  | _, .error e => .error e.message

lemma message_ne_notAuthorised (e : TunnelError) : e.message ≠ notAuthorised := by
  -- no error of the manager begins like the refusal
  have hsplit : ∀ p text : String, p.toList.take 2 ≠ ['n', 'o'] → 2 ≤ p.length →
      p ++ text ≠ notAuthorised := by
    intro p text hhead hlength heq
    have hlist := congrArg (fun s : String => s.toList.take 2) heq
    have hp : 2 ≤ p.toList.length := by rwa [String.length_toList]
    simp only [String.toList_append, List.take_append_of_le_length hp] at hlist
    exact hhead (hlist.trans (by decide))
  cases e with
  | badConfig text => exact hsplit _ _ (by decide) (by decide)
  | uapi text => exact hsplit _ _ (by decide) (by decide)
  | killSwitch text => exact hsplit _ _ (by decide) (by decide)
  | sidecar text => exact hsplit _ _ (by decide) (by decide)
  | notConnected => decide

/-- **No answer of the tunnel manager reads as a refusal.** -/
theorem dispatch_ne_refusal (version : String) (request : Request)
    (result : Except TunnelError TunnelStatus) : dispatch version request result ≠ .refusal := by
  unfold dispatch
  split
  · exact fun h => by cases h
  · exact fun h => by cases h
  · exact fun h => message_ne_notAuthorised _ (Response.error.inj h)

end CumulusVpn.Desktop.Helper
