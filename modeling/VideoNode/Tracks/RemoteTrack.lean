import VideoNode.Frames.Options

/-!
# Remote tracks

`RemoteVideoTrack`, `RemoteAudioTrack` and `RemoteDataTrack` of `lib/remote_track.ts`: each is
one wrapper around a native track, with at most one receiver. A native call returns or throws,
and the caller of a method says which. Of a `FrameStream` only its end is kept here.
-/

namespace VideoNode.Tracks

open VideoNode.Js VideoNode.Frames

/-- A native remote track, by address; all JS objects the native layer mints for one track stand
for it. -/
abbrev NativeTrack := Nat

/-- `kind` of a native track; the native layer knows three of them. -/
inductive NativeKind where
  | video
  | audio
  | data
  | other (kind : String)
  deriving DecidableEq, Repr

/-- How a native call ends. -/
abbrev NativeCall := Except JsError Unit

/-- How the native calls of one `_end()` end, if it makes them. -/
structure EndCalls where
  sinkStats : NativeCall
  detachFrameSink : NativeCall
  removeMessageCallback : NativeCall

/-- No native call throws. -/
def EndCalls.returning : EndCalls := ⟨.ok (), .ok (), .ok ()⟩

/-- Members of `RemoteMediaTrack`; `lib/remote_track.ts:63–79`. A stream is named by the order of
the `frames()` calls that made one; `ended` says which have ended, `sink` is the one the native
frame sink feeds. -/
structure MediaTrack where
  native : NativeTrack
  stream : Option Nat
  ended : List Bool
  sink : Option Nat
  deriving DecidableEq, Repr

namespace MediaTrack

/-- The constructor; `lib/remote_track.ts:76–79`. -/
def create (native : NativeTrack) : MediaTrack := ⟨native, none, [], none⟩

/-- The error of a second receiver; `lib/remote_track.ts:113–118`. -/
def alreadyActive (sid : Option String) : JsError :=
  ⟨.error, "A receiver is already active on track " ++ sid.getD "undefined" ++
    ". Each track supports a single receiver; " ++
    "fan out within your own loop if you need several consumers.", none⟩

/-- `frames(options)`; `lib/remote_track.ts:112–165`. -/
def frames (kind : TrackKind) (sid : Option String) (t : MediaTrack) (options : JsValue)
    (attachFrameSink : NativeCall) : MediaTrack × Except JsError Nat :=
  if t.stream.isSome then (t, .error (alreadyActive sid)) else
    match resolveOptions kind options with
    | .error error => (t, .error error)
    | .ok _ =>
      let r := t.ended.length
      match attachFrameSink with
      | .ok () => ({ t with ended := t.ended ++ [false], stream := some r, sink := some r }, .ok r)
      | .error cause => ({ t with ended := t.ended ++ [false] }, .error cause)

/-- What `frames()` has its stream call when it ends; `lib/remote_track.ts:126–139`. -/
def onEnd (t : MediaTrack) (calls : EndCalls) : MediaTrack × NativeCall :=
  match calls.sinkStats with
  | .error error => (t, .error error)
  | .ok () =>
    match calls.detachFrameSink with
    | .ok () => ({ t with stream := none, sink := none }, .ok ())
    | .error _ => ({ t with stream := none }, .ok ())

/-- `end()` of a stream; `lib/frame_stream.ts:179–200`. -/
def endStream (t : MediaTrack) (r : Nat) (calls : EndCalls) : MediaTrack × NativeCall :=
  if t.ended[r]? = some false then onEnd { t with ended := t.ended.set r true } calls
  else (t, .ok ())

/-- `_end()`; `lib/remote_track.ts:181–183`. -/
def endTrack (t : MediaTrack) (calls : EndCalls) : MediaTrack × NativeCall :=
  match t.stream with
  | none => (t, .ok ())
  | some r => t.endStream r calls

end MediaTrack

/-- Members of `RemoteDataTrack`; `lib/remote_track.ts:228–240`. `callback` says whether the
native message callback is installed. -/
structure DataTrack where
  native : NativeTrack
  attached : Bool
  callback : Bool
  deriving DecidableEq, Repr

namespace DataTrack

/-- The constructor; `lib/remote_track.ts:237–240`. -/
def create (native : NativeTrack) : DataTrack := ⟨native, false, false⟩

/-- `ensureMessageSink('message')`; `lib/remote_track.ts:284–288`. -/
def ensureMessageSink (t : DataTrack) (onMessage : NativeCall) : DataTrack × NativeCall :=
  if t.attached then (t, .ok ()) else
    match onMessage with
    | .ok () => ({ t with attached := true, callback := true }, .ok ())
    | .error error => ({ t with attached := true }, .error error)

/-- `_end()`; `lib/remote_track.ts:366–374`. -/
def endTrack (t : DataTrack) (calls : EndCalls) : DataTrack :=
  if !t.attached then t else
    match calls.removeMessageCallback with
    | .ok () => { t with attached := false, callback := false }
    | .error _ => { t with attached := false }

end DataTrack

/-- `RemoteTrack`; `lib/remote_track.ts:377–378`. -/
inductive RemoteTrack where
  | video (t : MediaTrack)
  | audio (t : MediaTrack)
  | data (t : DataTrack)
  deriving DecidableEq, Repr

namespace RemoteTrack

/-- `_native`. -/
def native : RemoteTrack → NativeTrack
  | .video t | .audio t => t.native
  | .data t => t.native

/-- `kind`. -/
def kind : RemoteTrack → NativeKind
  | .video _ => .video
  | .audio _ => .audio
  | .data _ => .data

/-- A receiver is attached: a stream, or the message callback. -/
def receiving : RemoteTrack → Bool
  | .video t | .audio t => t.stream.isSome
  | .data t => t.attached

/-- The constructor for a kind; `lib/track_registry.ts:57–71`. -/
def create (kind : NativeKind) (native : NativeTrack) : Except JsError RemoteTrack :=
  match kind with
  | .video => .ok (.video (.create native))
  | .audio => .ok (.audio (.create native))
  | .data => .ok (.data (.create native))
  | .other kind => .error ⟨.error, "Unexpected remote track kind: ", some (.string kind)⟩

/-- `_end()` of the class of the track. -/
def endTrack (t : RemoteTrack) (calls : EndCalls) : RemoteTrack × NativeCall :=
  match t with
  | .video t => ((t.endTrack calls).map .video id)
  | .audio t => ((t.endTrack calls).map .audio id)
  | .data t => (.data (t.endTrack calls), .ok ())

/-- `frames(options)`; a data track has none. -/
def frames (sid : Option String) (t : RemoteTrack) (options : JsValue)
    (attachFrameSink : NativeCall) : RemoteTrack :=
  match t with
  | .video t => .video (t.frames .video sid options attachFrameSink).1
  | .audio t => .audio (t.frames .audio sid options attachFrameSink).1
  | .data t => .data t

/-- Adding a `message` listener; a media track emits no such event. -/
def listen (t : RemoteTrack) (onMessage : NativeCall) : RemoteTrack :=
  match t with
  | .data t => .data (t.ensureMessageSink onMessage).1
  | t => t

/-- `return()` of an iterator; `lib/frame_stream.ts:228–232`. -/
def returnIterator (t : RemoteTrack) (r : Nat) (calls : EndCalls) : RemoteTrack :=
  match t with
  | .video t => .video (t.endStream r calls).1
  | .audio t => .audio (t.endStream r calls).1
  | .data t => .data t

/-- What a track was made for never changes. -/
structure Same (t t' : RemoteTrack) : Prop where
  native : t'.native = t.native
  kind : t'.kind = t.kind

/-- A track is the same track as itself. -/
theorem Same.refl (t : RemoteTrack) : Same t t := ⟨rfl, rfl⟩

/-- A new track stands for the native one it is made on, and has its kind. -/
theorem create_ok {kind : NativeKind} {native : NativeTrack} {t : RemoteTrack}
    (h : create kind native = .ok t) : t.native = native ∧ t.kind = kind := by
  cases kind <;> cases h <;> exact ⟨rfl, rfl⟩

section Frame

variable {sid : Option String} {t : RemoteTrack} {options : JsValue} {call : NativeCall} {r : Nat}
  {calls : EndCalls}

private theorem native_onEnd (t : MediaTrack) : (t.onEnd calls).1.native = t.native := by
  unfold MediaTrack.onEnd
  split
  · rfl
  · split <;> rfl

private theorem native_endStream (t : MediaTrack) :
    (t.endStream r calls).1.native = t.native := by
  unfold MediaTrack.endStream
  split
  · exact native_onEnd _
  · rfl

private theorem native_endMedia (t : MediaTrack) : (t.endTrack calls).1.native = t.native := by
  unfold MediaTrack.endTrack
  split
  · rfl
  · exact native_endStream t

private theorem native_endData (t : DataTrack) : (t.endTrack calls).native = t.native := by
  unfold DataTrack.endTrack
  split
  · rfl
  · split <;> rfl

private theorem native_frames (kind : TrackKind) (t : MediaTrack) :
    (t.frames kind sid options call).1.native = t.native := by
  unfold MediaTrack.frames
  split
  · rfl
  · split
    · rfl
    · cases call <;> rfl

private theorem native_ensureMessageSink (t : DataTrack) :
    (t.ensureMessageSink call).1.native = t.native := by
  unfold DataTrack.ensureMessageSink
  split
  · rfl
  · cases call <;> rfl

/-- Ending a track. -/
theorem same_endTrack : Same t (t.endTrack calls).1 := by
  cases t with
  | video t => exact ⟨native_endMedia t, rfl⟩
  | audio t => exact ⟨native_endMedia t, rfl⟩
  | data t => exact ⟨native_endData t, rfl⟩

/-- `frames()`. -/
theorem same_frames : Same t (t.frames sid options call) := by
  cases t with
  | video t => exact ⟨native_frames .video t, rfl⟩
  | audio t => exact ⟨native_frames .audio t, rfl⟩
  | data t => exact ⟨rfl, rfl⟩

/-- Adding a listener. -/
theorem same_listen : Same t (t.listen call) := by
  cases t with
  | video t => exact ⟨rfl, rfl⟩
  | audio t => exact ⟨rfl, rfl⟩
  | data t => exact ⟨native_ensureMessageSink t, rfl⟩

/-- Returning from an iterator. -/
theorem same_returnIterator : Same t (t.returnIterator r calls) := by
  cases t with
  | video t => exact ⟨native_endStream t, rfl⟩
  | audio t => exact ⟨native_endStream t, rfl⟩
  | data t => exact ⟨rfl, rfl⟩

end Frame

end RemoteTrack

end VideoNode.Tracks
