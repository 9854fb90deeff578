import SecureGateway.E2ee.Crypto

/-!
# The envelope of a frame (`protocol.go`)

What the relay reads of a frame before it passes the bytes on. `json.Unmarshal` is a parameter:
the relay's own runs need no more of it, and the readers of the SDKs are compared with one.
-/

namespace SecureGateway.Relay.Protocol
open E2ee (Bytes)

def version : ℤ := 1

def typeMsg : String := "msg"
def typeAck : String := "ack"
def typeAuthRefresh : String := "auth_refresh"
def typeError : String := "error"
def typeSys : String := "sys"

/- `Payload` is what a `json.RawMessage` is kept as. -/
structure Envelope (Payload : Type) where
  v : ℤ := 0
  type : String := ""
  id : String := ""
  ts : ℤ := 0
  payload : Payload
  deriving DecidableEq, Repr

inductive DecodeError
  | oversize
  | malformed
  | unsupportedVersion (v : ℤ)
  | unknownType (type : String)
  | missingID
  deriving DecidableEq, Repr

variable {Payload : Type}

def Envelope.validate (e : Envelope Payload) : Except DecodeError (Envelope Payload) :=
  if e.v≠version then .error (.unsupportedVersion e.v)
  else if e.type ∉ [typeMsg,typeAck,typeAuthRefresh,typeError,typeSys] then
    .error (.unknownType e.type)
  else if e.id = "" then .error .missingID
  else .ok e

/- `Decode`; a limit that is not positive disables the size check. -/
def decode (unmarshal : Bytes → Option (Envelope Payload)) (maxBytes : ℤ) (raw : Bytes) :
    Except DecodeError (Envelope Payload) :=
  if 0 < maxBytes ∧ maxBytes<raw.length then .error .oversize
  else
    match unmarshal raw with
    | some e => e.validate
    | none => .error .malformed

theorem Envelope.validate_eq_ok {e e' : Envelope Payload} (h : e.validate = .ok e') :
    e'=e ∧ e.v=version ∧ e.type∈[typeMsg,typeAck,typeAuthRefresh,typeError,typeSys] := by
  unfold validate at h
  split at h
  · cases h
  next hversion =>
    split at h
    · cases h
    next htype =>
      split at h
      · cases h
      · cases h
        exact ⟨rfl,not_not.mp hversion,not_not.mp htype⟩

theorem decode_eq_ok {unmarshal : Bytes → Option (Envelope Payload)} {maxBytes : ℤ} {raw : Bytes}
    {e : Envelope Payload} (h : decode unmarshal maxBytes raw = .ok e) :
    unmarshal raw=some e ∧ e.v=version ∧
      e.type∈[typeMsg,typeAck,typeAuthRefresh,typeError,typeSys] := by
  unfold decode at h
  split at h
  · cases h
  split at h
  next e' hu =>
    obtain ⟨rfl,hvalid⟩:=Envelope.validate_eq_ok h
    exact ⟨hu,hvalid⟩
  · cases h

end SecureGateway.Relay.Protocol
