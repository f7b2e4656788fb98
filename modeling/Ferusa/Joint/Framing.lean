import Ferusa.Lib.Framing
import Ferusa.Core.Auth

/-!
# Messages as bytes

Every message travels as a frame around its JSON. Two encoders write
it – the one of `ferusa-core`, and the one the phone uses for messages
that hold secrets –, one decoder takes a whole buffer, and each side has
a reader that takes one message from a stream.

The JSON itself is `serde_json`'s business and a parameter
(`SerdeJson`): what is assumed of it, message by message, is that its
text parses back. Arithmetic that Rust checks is checked here, and a
call that panics ends in `Fault.panicked`, so that the absence of panics
is a statement.
-/

open Framing

/-- **`serde_json`, on messages.** -/
structure SerdeJson where
  /-- `serde_json::to_vec`. -/
  toVec : FerusaMessage → Except String Bytes
  /-- `serde_json::from_slice`. -/
  fromSlice : Bytes → Except String FerusaMessage

/-- The JSON of a message, which parses back. -/
def SerdeJson.RoundTrips (serde : SerdeJson) (m : FerusaMessage) (json : Bytes) : Prop :=
  serde.toVec m = .ok json ∧ serde.fromSlice json = .ok m

/-- The errors of the framing. -/
inductive FerusaError where
  | protocol (kind details : String)
  | messageTooShort
  | messageTruncated (expected got : Nat)
  | messageTrailingBytes (expected got : Nat)
  | json (details : String)
  deriving DecidableEq

/-- The text of an error. -/
def FerusaError.toString : FerusaError → String
  | protocol kind details => s!"protocol error: {kind}: {details}"
  | messageTooShort => "message too short"
  | messageTruncated expected got =>
    s!"message truncated: expected {expected} payload bytes, got {got}"
  | messageTrailingBytes expected got =>
    s!"message has trailing bytes: expected {expected} total bytes, got {got}"
  | json details => details

/-- **How a call ends that does not return**: with an error, or by a
panic. -/
inductive Fault (ε : Type) where
  | failed (e : ε)
  | panicked
  deriving DecidableEq

namespace Checked

variable {ε : Type}

/-- A subtraction, which panics below zero. -/
def sub (a b : Nat) : Except (Fault ε) Nat :=
  if b ≤ a then .ok (a - b) else .error .panicked

/-- `usize::checked_add`. -/
def add (usizeMax a b : Nat) : Option Nat :=
  if a + b ≤ usizeMax then some (a + b) else none

/-- `bytes[start..stop]`, which panics outside the bytes. -/
def slice (bytes : Bytes) (start stop : Nat) : Except (Fault ε) Bytes :=
  if start ≤ stop ∧ stop ≤ bytes.length then .ok ((bytes.take stop).drop start)
  else .error .panicked

theorem sub_of_le {a b : Nat} (h : b ≤ a) : (sub a b : Except (Fault ε) Nat) = .ok (a - b) :=
  if_pos h

end Checked

/-- The pointer widths the two programs are built for. -/
inductive PointerWidth where
  | bits32
  | bits64
  deriving DecidableEq

/-- `usize::MAX`. -/
def PointerWidth.usizeMax : PointerWidth → Nat
  | bits32 => 2 ^ 32 - 1
  | bits64 => 2 ^ 64 - 1

/-! ## Encoders -/

/-- `checked_payload_len`. -/
def checkedPayloadLen (len : Nat) : Except FerusaError Nat :=
  if len < 2 ^ 32 then .ok len
  else .error (.protocol "message_too_large"
    s!"encoded JSON payload is {len} bytes; maximum is {2 ^ 32 - 1}")

variable (serde : SerdeJson)

/-- **`FerusaMessage::encode`.** -/
def FerusaMessage.encode (m : FerusaMessage) : Except FerusaError Bytes := do
  let json ← (serde.toVec m).mapError FerusaError.json
  let len ← checkedPayloadLen json.length
  pure (toLeBytes len ++ json)

/-- **`encode_secret_message`**: the length is cut to 32 bits. -/
def Phone.encodeSecretMessage (m : FerusaMessage) : Except Anyhow Bytes := do
  let json ← (serde.toVec m).mapError fun e => ["encode secret message JSON", e]
  let len := json.length % 2 ^ 32
  pure (toLeBytes len ++ json)

/-! ## The decoder -/

/-- The part of `decode` after the header. -/
def FerusaMessage.decodePayload (usizeMax : Nat) (bytes : Bytes) (len : Nat) :
    Except (Fault FerusaError) FerusaMessage := do
  let got ← Checked.sub bytes.length 4
  let totalLen ← match Checked.add usizeMax len 4 with
    | some totalLen => .ok totalLen
    | none => .error (.failed (.messageTruncated len got))
  if bytes.length < totalLen then
    .error (.failed (.messageTruncated len got))
  else if bytes.length > totalLen then
    .error (.failed (.messageTrailingBytes totalLen bytes.length))
  else
    let json ← Checked.slice bytes 4 totalLen
    (serde.fromSlice json).mapError fun e => .failed (.json e)

/-- **`FerusaMessage::decode`**, where `usize` goes up to
`usizeMax`. -/
def FerusaMessage.decode (usizeMax : Nat) (bytes : Bytes) :
    Except (Fault FerusaError) FerusaMessage :=
  match bytes with
  | b₀ :: b₁ :: b₂ :: b₃ :: _ => decodePayload serde usizeMax bytes (fromLeBytes b₀ b₁ b₂ b₃)
  | _ => .error (.failed .messageTooShort)

/-! ## The readers of the two sides -/

/-- The largest payload either side reads from a stream. -/
def maxStreamPayload : Nat := 1024 * 1024

/-- A decoded message, under the context its reader adds; a panic is one
of the reader. -/
def underContext (message : String) :
    Except (Fault FerusaError) FerusaMessage → Except (Fault Anyhow) FerusaMessage
  | .ok m => .ok m
  | .error (.failed e) => .error (.failed [message, e.toString])
  | .error .panicked => .error .panicked

/-- What both readers do after the header, with the words they differ
in: the payload it announces, and the decoder on both together. -/
def readPayload (usizeMax : Nat) (tooLarge : Nat → String) (decodeContext : String)
    (header : Bytes) (len : Nat) : Reader (Fault Anyhow) FerusaMessage := fun input =>
  if len > maxStreamPayload then .error (.failed [tooLarge len])
  else do
    let (payload, rest) ← Reader.exact (.failed ["read message payload"]) len input
    let m ← underContext decodeContext
      (FerusaMessage.decode serde usizeMax (header ++ payload))
    pure (m, rest)

/-- What both readers do, from the four bytes of the header. -/
def readFrame (usizeMax : Nat) (tooLarge : Nat → String) (decodeContext : String) :
    Reader (Fault Anyhow) FerusaMessage := fun input => do
  let (header, rest) ← Reader.exact (.failed ["read message header"]) 4 input
  match header with
  | [b₀, b₁, b₂, b₃] =>
    readPayload serde usizeMax tooLarge decodeContext header (fromLeBytes b₀ b₁ b₂ b₃) rest
  | _ => .error .panicked

/-- **`read_ferusa_message`** of the command line. -/
def Desktop.readMessage (usizeMax : Nat) : Reader (Fault Anyhow) FerusaMessage :=
  readFrame serde usizeMax (fun len => s!"pairing message too large: {len}")
    "decode pairing message"

/-- **`read_ferusa_message_unbounded`** of the phone. -/
def Phone.readMessage (usizeMax : Nat) : Reader (Fault Anyhow) FerusaMessage :=
  readFrame serde usizeMax (fun len => s!"message too large: {len}") "decode message"

/-! ## Frames -/

variable {serde} {m : FerusaMessage} {json bytes : Bytes} {usizeMax : Nat}

/-- What `encode` gives is the frame of the JSON. -/
theorem FerusaMessage.encode_eq (h : serde.toVec m = .ok json) (hlen : json.length < 2 ^ 32) :
    m.encode serde = .ok (frame json) := by
  unfold FerusaMessage.encode
  rw [h]
  show (checkedPayloadLen json.length >>= fun len => pure (toLeBytes len ++ json)) = _
  unfold checkedPayloadLen
  rw [if_pos hlen]
  rfl

/-- So is what the phone's own encoder gives. -/
theorem Phone.encodeSecretMessage_eq (h : serde.toVec m = .ok json)
    (hlen : json.length < 2 ^ 32) : encodeSecretMessage serde m = .ok (frame json) := by
  unfold Phone.encodeSecretMessage
  rw [h]
  show Except.ok (toLeBytes (json.length % 2 ^ 32) ++ json) = _
  rw [Nat.mod_eq_of_lt hlen]
  rfl

/-- **What the decoder does after a header**, without the checks that
always pass. -/
theorem FerusaMessage.decodePayload_eq {len : Nat} (h : 4 ≤ bytes.length) :
    decodePayload serde usizeMax bytes len =
      if len + 4 ≤ usizeMax ∧ len + 4 ≤ bytes.length then
        if bytes.length = len + 4 then
          (serde.fromSlice (bytes.drop 4)).mapError fun e => .failed (.json e)
        else .error (.failed (.messageTrailingBytes (len + 4) bytes.length))
      else .error (.failed (.messageTruncated len (bytes.length - 4))) := by
  unfold decodePayload Checked.add
  rw [Checked.sub_of_le h]
  by_cases hmax : len + 4 ≤ usizeMax
  · rw [if_pos hmax]
    show (if bytes.length < len + 4 then
          Except.error (Fault.failed (FerusaError.messageTruncated len (bytes.length - 4)))
        else if bytes.length > len + 4 then
          Except.error (Fault.failed (FerusaError.messageTrailingBytes (len + 4) bytes.length))
        else Checked.slice bytes 4 (len + 4) >>= fun json =>
          (serde.fromSlice json).mapError fun e => Fault.failed (FerusaError.json e)) = _
    by_cases hlt : bytes.length < len + 4
    · rw [if_pos hlt, if_neg (by omega)]
    · rw [if_neg hlt]
      by_cases hgt : bytes.length > len + 4
      · rw [if_pos hgt, if_pos ⟨hmax, by omega⟩, if_neg (by omega)]
      · have hlength : bytes.length = len + 4 := by omega
        rw [if_neg hgt, if_pos ⟨hmax, by omega⟩, if_pos hlength]
        unfold Checked.slice
        rw [if_pos (by omega), List.take_of_length_le (Nat.le_of_eq hlength)]
        rfl
  · rw [if_neg hmax, if_neg (by omega)]
    rfl

/-- **A frame decodes to what its payload parses to.** -/
theorem FerusaMessage.decode_frame (hlen : json.length < 2 ^ 32)
    (hmax : json.length + 4 ≤ usizeMax) :
    decode serde usizeMax (frame json) =
      (serde.fromSlice json).mapError fun e => .failed (.json e) := by
  have hlength : (frame json).length = 4 + json.length := length_frame json
  show decodePayload serde usizeMax (frame json) (fromLeBytes _ _ _ _) = _
  rw [fromLeBytes_ofNat hlen, decodePayload_eq (by omega), if_pos (by omega),
    if_pos (by omega)]
  rfl

/-- **What is accepted is one frame**, the payload of which parses. -/
theorem FerusaMessage.decode_eq_ok (h : decode serde usizeMax bytes = .ok m) :
    ∃ json, bytes = frame json ∧ json.length < 2 ^ 32 ∧ serde.fromSlice json = .ok m := by
  unfold decode at h
  split at h
  · next b₀ b₁ b₂ b₃ json =>
    have hlt := fromLeBytes_lt b₀ b₁ b₂ b₃
    have hbytes := toLeBytes_fromLeBytes b₀ b₁ b₂ b₃
    rw [decodePayload_eq (by simp)] at h
    split at h
    · split at h
      · next hlength =>
        have hlen : json.length = fromLeBytes b₀ b₁ b₂ b₃ := by simpa using hlength
        refine ⟨json, ?_, hlen ▸ hlt, ?_⟩
        · rw [frame, hlen, hbytes]
          rfl
        · change (serde.fromSlice json).mapError _ = _ at h
          cases hjson : serde.fromSlice json with
          | ok m' =>
            rw [hjson] at h
            exact congrArg Except.ok (Except.ok.inj h)
          | error e =>
            rw [hjson] at h
            cases h
      · cases h
    · cases h
  · cases h

/-- **The decoder never panics.** -/
theorem FerusaMessage.decode_ne_panicked :
    decode serde usizeMax bytes ≠ .error .panicked := by
  unfold decode
  split
  · rw [decodePayload_eq (by simp)]
    split
    · split
      · cases serde.fromSlice _ with
        | ok m => exact nofun
        | error e => exact nofun
      · exact nofun
    · exact nofun
  · exact nofun

/-! ## Streams -/

/-- With its header there, a reader goes on with the payload. -/
theorem readFrame_cons {tooLarge : Nat → String} {decodeContext : String}
    (b₀ b₁ b₂ b₃ : UInt8) (rest : Bytes) :
    readFrame serde usizeMax tooLarge decodeContext (b₀ :: b₁ :: b₂ :: b₃ :: rest) =
      readPayload serde usizeMax tooLarge decodeContext [b₀, b₁, b₂, b₃]
        (fromLeBytes b₀ b₁ b₂ b₃) rest := by
  have hexact : Reader.exact (Fault.failed ["read message header"]) 4
      ([b₀, b₁, b₂, b₃] ++ rest) = .ok ([b₀, b₁, b₂, b₃], rest) :=
    Reader.exact_append (by rfl) rest
  unfold readFrame
  show (Reader.exact (Fault.failed ["read message header"]) 4 ([b₀, b₁, b₂, b₃] ++ rest) >>= _) = _
  rw [hexact]
  rfl

/-- **A reader takes one frame** from the front of a stream and leaves
what follows. -/
theorem readFrame_frame {tooLarge : Nat → String} {decodeContext : String}
    (hjson : serde.fromSlice json = .ok m) (hlen : json.length ≤ maxStreamPayload)
    (hmax : maxStreamPayload + 4 ≤ usizeMax) (rest : Bytes) :
    readFrame serde usizeMax tooLarge decodeContext (frame json ++ rest) = .ok (m, rest) := by
  have hlt : json.length < 2 ^ 32 := by
    unfold maxStreamPayload at hlen
    omega
  have hdecode : FerusaMessage.decode serde usizeMax (frame json) = .ok m := by
    rw [FerusaMessage.decode_frame hlt (Nat.le_trans (Nat.add_le_add_right hlen 4) hmax), hjson]
    rfl
  show readFrame serde usizeMax tooLarge decodeContext
    (_ :: _ :: _ :: _ :: (json ++ rest)) = _
  rw [readFrame_cons, fromLeBytes_ofNat hlt]
  unfold readPayload
  rw [if_neg (Nat.not_lt.mpr hlen), Reader.exact_append rfl]
  show (underContext decodeContext (FerusaMessage.decode serde usizeMax (frame json)) >>= _) = _
  rw [hdecode]
  rfl

/-- A sequence panics only where one of its parts does. -/
theorem bind_ne_panicked {ε α β : Type} {x : Except (Fault ε) α} {f : α → Except (Fault ε) β}
    (hx : x ≠ .error .panicked) (hf : ∀ a, x = .ok a → f a ≠ .error .panicked) :
    (x >>= f) ≠ .error .panicked := by
  cases x with
  | ok a => exact hf a rfl
  | error e => exact fun h => hx (congrArg Except.error (Except.error.inj h))

theorem underContext_ne_panicked {message : String}
    {r : Except (Fault FerusaError) FerusaMessage} (h : r ≠ .error .panicked) :
    underContext message r ≠ .error .panicked := by
  match r, h with
  | .ok _, _ => exact nofun
  | .error (.failed _), _ => exact nofun
  | .error .panicked, h => exact absurd rfl h

theorem Reader.exact_ne_panicked {e : Anyhow} {n : Nat} {input : Bytes} :
    Reader.exact (Fault.failed e) n input ≠ .error .panicked := by
  unfold Reader.exact
  split
  · exact nofun
  · exact nofun

theorem readPayload_ne_panicked {tooLarge : Nat → String} {decodeContext : String}
    {header input : Bytes} {len : Nat} :
    readPayload serde usizeMax tooLarge decodeContext header len input ≠ .error .panicked := by
  unfold readPayload
  split
  · exact nofun
  · refine bind_ne_panicked Reader.exact_ne_panicked fun x _ => ?_
    exact bind_ne_panicked (underContext_ne_panicked FerusaMessage.decode_ne_panicked)
      fun _ _ => nofun

/-- **A reader never panics either.** -/
theorem readFrame_ne_panicked {tooLarge : Nat → String} {decodeContext : String} {input : Bytes} :
    readFrame serde usizeMax tooLarge decodeContext input ≠ .error .panicked := by
  refine bind_ne_panicked Reader.exact_ne_panicked fun x hx => ?_
  obtain ⟨-, hlength⟩ := Reader.exact_eq_ok hx
  match x, hlength with
  | ([b₀, b₁, b₂, b₃], rest), _ => exact readPayload_ne_panicked

/-! ## The wire -/

theorem PointerWidth.le_usizeMax (w : PointerWidth) : maxStreamPayload + 4 ≤ w.usizeMax := by
  cases w with
  | bits32 => decide
  | bits64 => decide

/-- **Wire framing is exact and streamable.** Both encoders give the same
bytes, which decode to the message; whatever is decoded is one length
before as many bytes that parse, and nothing makes the decoder panic;
and from messages one after the other, whatever follows, the readers of
both sides take those messages in order and leave what follows. -/
theorem wire_framing_exact (serde : SerdeJson) (w : PointerWidth) :
    (∀ m json, serde.RoundTrips m json → json.length ≤ maxStreamPayload →
      ∃ bytes, m.encode serde = .ok bytes ∧ Phone.encodeSecretMessage serde m = .ok bytes ∧
        FerusaMessage.decode serde w.usizeMax bytes = .ok m) ∧
    (∀ bytes, FerusaMessage.decode serde w.usizeMax bytes ≠ .error .panicked ∧
      ∀ m, FerusaMessage.decode serde w.usizeMax bytes = .ok m →
        ∃ json, bytes = toLeBytes json.length ++ json ∧ json.length < 2 ^ 32 ∧
          serde.fromSlice json = .ok m) ∧
    ∀ ms : List FerusaMessage,
      (∀ m ∈ ms, ∃ json, serde.RoundTrips m json ∧ json.length ≤ maxStreamPayload) →
      ∃ encodings, ms.mapM (FerusaMessage.encode serde) = .ok encodings ∧
        ∀ rest, Reader.many (Desktop.readMessage serde w.usizeMax) ms.length
            (encodings.flatten ++ rest) = .ok (ms, rest) ∧
          Reader.many (Phone.readMessage serde w.usizeMax) ms.length
            (encodings.flatten ++ rest) = .ok (ms, rest) := by
  have hlt {json : Bytes} (hlen : json.length ≤ maxStreamPayload) : json.length < 2 ^ 32 := by
    unfold maxStreamPayload at hlen
    omega
  refine ⟨fun m json hjson hlen => ?_, fun bytes => ⟨FerusaMessage.decode_ne_panicked,
    fun m hm => FerusaMessage.decode_eq_ok hm⟩, fun ms hms => ?_⟩
  · refine ⟨frame json, FerusaMessage.encode_eq hjson.1 (hlt hlen),
      Phone.encodeSecretMessage_eq hjson.1 (hlt hlen), ?_⟩
    rw [FerusaMessage.decode_frame (hlt hlen)
      (Nat.le_trans (Nat.add_le_add_right hlen 4) w.le_usizeMax), hjson.2]
    rfl
  · choose! json hjson using hms
    have hmany {tooLarge : Nat → String} {decodeContext : String} (rest : Bytes) :
        Reader.many (readFrame serde w.usizeMax tooLarge decodeContext) ms.length
          (ms.flatMap (fun m => frame (json m)) ++ rest) = .ok (ms, rest) :=
      Reader.many_flatMap (fun m hm rest =>
        readFrame_frame (hjson m hm).1.2 (hjson m hm).2 w.le_usizeMax rest) rest
    have hencode : ms.mapM (FerusaMessage.encode serde) = .ok (ms.map fun m => frame (json m)) := by
      clear hmany
      induction ms with
      | nil => rfl
      | cons m ms ih =>
        rw [List.mapM_cons, FerusaMessage.encode_eq (hjson m List.mem_cons_self).1.1
          (hlt (hjson m List.mem_cons_self).2), ih fun x hx => hjson x (List.mem_cons_of_mem m hx)]
        rfl
    refine ⟨_, hencode, fun rest => ?_⟩
    rw [← List.flatMap_def]
    exact ⟨hmany rest, hmany rest⟩

/-- The JSON of a ping. -/
def pingText : Bytes :=
  [0x7b, 0x22, 0x74, 0x79, 0x70, 0x65, 0x22, 0x3a, 0x22, 0x70, 0x69, 0x6e, 0x67, 0x22, 0x7d]

/-- `serde_json` on pings alone. -/
def pingJson : SerdeJson where
  toVec m := if m = .ping then .ok pingText else .error "not a ping"
  fromSlice bytes := if bytes = pingText then .ok .ping else .error "not a ping"

/-- Two pings on the wire. -/
theorem wire_framing_exact_pings :
    ∃ encodings, [FerusaMessage.ping, .ping].mapM (FerusaMessage.encode pingJson) =
        .ok encodings ∧
      ∀ rest, Reader.many (Phone.readMessage pingJson PointerWidth.bits64.usizeMax) 2
        (encodings.flatten ++ rest) = .ok ([.ping, .ping], rest) := by
  have hping : ∀ m ∈ [FerusaMessage.ping, .ping],
      ∃ json, pingJson.RoundTrips m json ∧ json.length ≤ maxStreamPayload := by
    intro m hm
    obtain rfl : m = .ping := by simpa using hm
    exact ⟨pingText, ⟨rfl, rfl⟩, by decide⟩
  obtain ⟨encodings, hencodings, hread⟩ := (wire_framing_exact pingJson .bits64).2.2 _ hping
  exact ⟨encodings, hencodings, fun rest => (hread rest).2⟩
