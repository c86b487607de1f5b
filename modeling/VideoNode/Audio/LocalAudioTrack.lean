import VideoNode.Audio.NodeAudioDevice
import VideoNode.Js.Value

/-!
# Writing to a local audio track

`LocalAudioTrackWrap::Write` (`src/media/local_audio_track_wrap.cpp`): what it throws for, what it
pushes into the shared device and the statistics it keeps for its own track.
-/

namespace VideoNode.Audio

open VideoNode.Js

/-- The argument of `write()` as the wrap reads it; `pcm` is the samples of the `Buffer` there,
if it is one. -/
structure AudioFrameInput (S : Type) where
  pcm : Option (List S)
  frames : JsValue
  timestamp : JsValue

/-- Members of `LocalAudioTrackWrap`; `src/media/local_audio_track_wrap.h:76–87`. The last
timestamp is present when `hasLastTimestamp_` is set. -/
structure LocalAudioTrack where
  hasSource : Bool
  framesWritten : Nat
  framesDropped : Nat
  lastTimestampUs : Option Int
  timestampRegressions : Nat
  deriving DecidableEq, Repr

/-- `src/media/local_audio_track_wrap.cpp:130–144`; the bound is `INT64_MAX` as a double. -/
def checkFrames : JsValue → Except JsError Nat
  | .number n =>
    match n.isInteger with
    | some i =>
      if 0 < i ∧ i ≤ 2 ^ 63 then .ok i.toNat
      else .error ⟨.rangeError, "AudioFrameInput frames must be a positive integer", none⟩
    | none => .error ⟨.rangeError, "AudioFrameInput frames must be a positive integer", none⟩
  | _ =>
    .error ⟨.typeError, "AudioFrameInput requires frames (number of samples per channel)", none⟩

/-- `src/media/local_audio_track_wrap.cpp:161–179`; an absent timestamp is the present time. -/
def checkTimestamp (nowUs : Int) : JsValue → Except JsError Int
  | .undefined => .ok nowUs
  | .number n =>
    match n.isInteger with
    | some i => if 0 ≤ i ∧ i ≤ 9007199254740991 then .ok i else .error outOfRange
    | none => .error outOfRange
  | _ =>
    .error ⟨.typeError, "AudioFrameInput.timestamp must be a number (microseconds)", none⟩
where
  outOfRange : JsError := ⟨.rangeError, "AudioFrameInput.timestamp must be a non-negative whole " ++
    "number of microseconds within Number.MAX_SAFE_INTEGER", none⟩

namespace LocalAudioTrack

variable {S : Type}

/-- A wrap that has written nothing; one that `NewInstance` made has a source. -/
def create (hasSource : Bool) : LocalAudioTrack := ⟨hasSource, 0, 0, none, 0⟩

/-- Everything `write()` throws for, or the samples it pushes and their timestamp;
`src/media/local_audio_track_wrap.cpp:118–179`. -/
def checkInput (t : LocalAudioTrack) (nowUs : Int) (frame : Option (AudioFrameInput S)) :
    Except JsError (List S × Int) :=
  match frame with
  | none => .error ⟨.typeError, "write() expects an AudioFrameInput object", none⟩
  | some frame =>
    match frame.pcm with
    | none => .error ⟨.typeError, "AudioFrameInput requires a pcm Buffer", none⟩
    | some pcm => do
      let frames ← checkFrames frame.frames
      if pcm.length < frames then
        .error ⟨.rangeError, "AudioFrameInput pcm buffer is smaller than frames", none⟩
      if !t.hasSource then
        .error ⟨.error, "LocalAudioTrack is not bound to a source", none⟩
      let timestampUs ← checkTimestamp nowUs frame.timestamp
      pure (pcm.take frames, timestampUs)

/-- The statistics after a push; `src/media/local_audio_track_wrap.cpp:186–193`. -/
def count (t : LocalAudioTrack) (accepted : Bool) (timestampUs : Int) : LocalAudioTrack :=
  if accepted then
    { t with
      framesWritten := t.framesWritten + 1
      timestampRegressions := t.timestampRegressions +
        match t.lastTimestampUs with
        | some last => if timestampUs ≤ last then 1 else 0
        | none => 0
      lastTimestampUs := some timestampUs }
  else { t with framesDropped := t.framesDropped + 1 }

/-- `src/media/local_audio_track_wrap.cpp:115–195`: what it returns, the track and the device. -/
def write (t : LocalAudioTrack) (d : NodeAudioDevice S) (nowUs : Int)
    (frame : Option (AudioFrameInput S)) :
    Except JsError (Bool × LocalAudioTrack × NodeAudioDevice S) := do
  let (samples, timestampUs) ← t.checkInput nowUs frame
  let (accepted, device) := d.pushRecordingData samples
  pure (accepted, t.count accepted timestampUs, device)

/-- A write of valid input is one push, counted by its outcome. -/
theorem write_of_input {t : LocalAudioTrack} {d : NodeAudioDevice S} {nowUs : Int}
    {frame : Option (AudioFrameInput S)} {samples : List S} {timestampUs : Int}
    (h : t.checkInput nowUs frame = .ok (samples, timestampUs)) :
    t.write d nowUs frame = .ok ((d.pushRecordingData samples).1,
      t.count (d.pushRecordingData samples).1 timestampUs, (d.pushRecordingData samples).2) := by
  rw [write, h]
  rfl

/-- `src/media/local_audio_track_wrap.cpp:229–232`. -/
def clearBuffer (t : LocalAudioTrack) (d : NodeAudioDevice S) : NodeAudioDevice S :=
  if t.hasSource then d.clearRecordingBuffer else d

end LocalAudioTrack

end VideoNode.Audio
