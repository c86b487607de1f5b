import Mathlib.Algebra.Group.Int.Defs
import Mathlib.Data.List.Nodup

/-!
# Errors of the service

`src/common/error.cpp` and `lib/errors.ts`: a native error is sent as an object with its code
and its message, and JS makes an instance of the class registered for the code of it.
-/

namespace VideoNode.Common

/-- `TwilioErrorClass`, with the arguments of `defineError`; `lib/errors.ts:53–65`. -/
structure TwilioErrorClass where
  name : String
  code : Int
  defaultMessage : String
  deriving DecidableEq, Repr

/-- `TwilioError` and its subclasses, told apart by `name`; `lib/errors.ts:11–20`. -/
structure TwilioError where
  name : String
  code : Int
  message : String
  deriving DecidableEq, Repr

/-- The object native code sends for an error. -/
structure TwilioErrorObject where
  code : Int
  message : String
  deriving DecidableEq, Repr

/-- The conversion of a `uint32_t` to an `int`. -/
def intOfUInt32 (code : UInt32) : Int := code.toBitVec.toInt

/-- The codes of the service are the same as an `int`. -/
theorem intOfUInt32_of_lt {code : UInt32} (h : code.toNat < 2147483648) :
    intOfUInt32 code = code.toNat := by
  rw [intOfUInt32, BitVec.toInt_eq_toNat_of_lt]
  · rfl
  · rw [UInt32.toNat_toBitVec]
    omega

/-- `createTwilioErrorObject`; `src/common/error.cpp:11–16`. -/
def createTwilioErrorObject (code : Int) (message : String) : TwilioErrorObject :=
  ⟨code, message⟩

namespace TwilioError

/-- The classes the loop registers, in its order; `lib/errors.ts:296–325`. -/
def subclasses : List TwilioErrorClass :=
  [⟨"AccessTokenInvalidError", 20101, "Invalid Access Token"⟩,
    ⟨"AccessTokenHeaderInvalidError", 20102, "Invalid Access Token header"⟩,
    ⟨"AccessTokenIssuerInvalidError", 20103, "Invalid Access Token issuer/subject"⟩,
    ⟨"AccessTokenExpiredError", 20104, "Access Token expired or expiration date invalid"⟩,
    ⟨"AccessTokenNotYetValidError", 20105, "Access Token not yet valid"⟩,
    ⟨"AccessTokenGrantsInvalidError", 20106, "Invalid Access Token grants"⟩,
    ⟨"AccessTokenSignatureInvalidError", 20107, "Invalid Access Token signature"⟩,
    ⟨"SignalingConnectionError", 53000, "Signaling connection error"⟩,
    ⟨"SignalingConnectionDisconnectedError", 53001, "Signaling connection disconnected"⟩,
    ⟨"SignalingConnectionTimeoutError", 53002, "Signaling connection timed out"⟩,
    ⟨"RoomConnectFailedError", 53104, "Unable to connect to Room"⟩,
    ⟨"RoomMaxParticipantsExceededError", 53105, "Room contains too many Participants"⟩,
    ⟨"RoomNotFoundError", 53106, "Room not found"⟩,
    ⟨"RoomCompletedError", 53118, "Room completed"⟩,
    ⟨"ParticipantMaxTracksExceededError", 53203,
      "The maximum number of published tracks allowed in the Room at the same time has been " ++
        "reached"⟩,
    ⟨"ParticipantDuplicateIdentityError", 53205,
      "Participant disconnected because of duplicate identity"⟩,
    ⟨"TrackInvalidError", 53300, "Track is invalid"⟩,
    ⟨"TrackNameInvalidError", 53301, "Track name is invalid"⟩,
    ⟨"TrackNameTooLongError", 53302, "Track name is too long"⟩,
    ⟨"TrackNameCharsInvalidError", 53303, "Track name contains invalid characters"⟩,
    ⟨"MediaClientLocalDescFailedError", 53400,
      "Client is unable to create or apply a local media description"⟩,
    ⟨"MediaServerLocalDescFailedError", 53401,
      "Server is unable to create or apply a local media description"⟩,
    ⟨"MediaClientRemoteDescFailedError", 53402,
      "Client is unable to apply a remote media description"⟩,
    ⟨"MediaServerRemoteDescFailedError", 53403,
      "Server is unable to apply a remote media description"⟩,
    ⟨"MediaNoSupportedCodecError", 53404, "No supported codec"⟩,
    ⟨"MediaConnectionError", 53405, "Media connection failed or Media activity ceased"⟩
  ]

/-- `SUBCLASSES_BY_CODE[code]`. -/
def subclassByCode (code : Int) : Option TwilioErrorClass :=
  subclasses.find? fun c ↦ c.code = code

/-- `new Subclass()`; `lib/errors.ts:56–59`. -/
def ofClass (c : TwilioErrorClass) : TwilioError := ⟨c.name, c.code, c.defaultMessage⟩

/-- `twilioErrorFromCode` of an integer; `lib/errors.ts:333–342`. -/
def twilioErrorFromCode (code : Int) (message : String) : TwilioError :=
  match subclassByCode code with
  | some c => ofClass c
  | none => ⟨"TwilioError", code, message⟩

/-- `liftTwilioError` of what native code sends, or of nothing; `lib/errors.ts:350–366`. -/
def liftTwilioError : Option TwilioErrorObject → TwilioError
  | some raw => twilioErrorFromCode raw.code raw.message
  | none => ⟨"TwilioError", 0, "Unknown error"⟩

/-- No two classes are registered for one code, so the order of the loop is of no account. -/
theorem nodup_subclasses : (subclasses.map TwilioErrorClass.code).Nodup := by decide

/-- A class is found under its code. -/
theorem subclassByCode_eq_some {code : Int} {c : TwilioErrorClass} :
    subclassByCode code = some c ↔ c ∈ subclasses ∧ c.code = code := by
  constructor
  · intro h
    exact ⟨List.mem_of_find?_eq_some h, by simpa using List.find?_some h⟩
  · rintro ⟨hc, rfl⟩
    cases hf : subclassByCode c.code with
    | none =>
      have hn := List.find?_eq_none.mp hf c hc
      simp at hn
    | some d =>
      have hd : d.code = c.code := by simpa using List.find?_some hf
      rw [List.inj_on_of_nodup_map nodup_subclasses (List.mem_of_find?_eq_some hf) hc hd]

/-- The error for a code: of the class registered for it, with the message of the class, or a plain
one that keeps the message. -/
inductive Lifted (code : Int) (message : String) : TwilioError → Prop where
  | known {c : TwilioErrorClass} (hc : c ∈ subclasses) (h : c.code = code) :
      Lifted code message (ofClass c)
  | unknown (h : ∀ c ∈ subclasses, c.code ≠ code) :
      Lifted code message ⟨"TwilioError", code, message⟩

/-- `twilioErrorFromCode` makes the error for its code. -/
theorem lifted_twilioErrorFromCode (code : Int) (message : String) :
    Lifted code message (twilioErrorFromCode code message) := by
  unfold twilioErrorFromCode
  split
  · next c hc =>
    obtain ⟨hmem, hcode⟩ := subclassByCode_eq_some.mp hc
    exact .known hmem hcode
  · next hn => exact .unknown fun c hc ↦ by simpa using List.find?_eq_none.mp hn c hc

end TwilioError

end VideoNode.Common
