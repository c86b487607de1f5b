import VideoNode.Audio.LocalAudioTrack
import VideoNode.Js.Napi

/-!
# Writing any argument to a local audio track

`LocalAudioTrackWrap::Write` (`src/media/local_audio_track_wrap.cpp`) on whatever JavaScript passes,
getters that throw included: its reads and its checks in the order in which it makes them. Of a
frame none of whose getters throws it checks what `checkInput` does.
-/

namespace VideoNode.Audio

open VideoNode.Js

/-- An `int16_t` in memory. -/
abbrev Int16Sample := UInt8 × UInt8

/-- The bytes of a `Buffer<int16_t>`; an odd byte at the end belongs to no sample. -/
def int16Samples : List UInt8 → List Int16Sample
  | first :: second :: bytes => (first, second) :: int16Samples bytes
  | _ => []

/-- `src/media/local_audio_track_wrap.cpp:125–128`. -/
def readPcm (frame : Reads) : Except JsError (List Int16Sample) := do
  let present ← frame.has "pcm"
  throwIf (present = false) noBuffer
  let v ← frame.get "pcm"
  let bytes ← orThrow v.buffer? noBuffer
  pure (int16Samples bytes)
where
  noBuffer : JsError := ⟨.typeError, "AudioFrameInput requires a pcm Buffer", none⟩

namespace LocalAudioTrack

/-- Everything `write()` throws for, or the samples it pushes and their timestamp; absent is an
argument that is missing or no object. `src/media/local_audio_track_wrap.cpp:115–179`. -/
def checkReads (t : LocalAudioTrack) (nowUs : Int) (info : Option Reads) :
    Except JsError (List Int16Sample × Int) := do
  let frame ← orThrow info ⟨.typeError, "write() expects an AudioFrameInput object", none⟩
  let pcm ← readPcm frame
  -- Both checks only tell numbers and `undefined` from the rest.
  let frames ← checkFrames (← frame.get "frames").described
  throwIf (pcm.length < frames)
    ⟨.rangeError, "AudioFrameInput pcm buffer is smaller than frames", none⟩
  throwIf (t.hasSource = false)
    ⟨.error, "LocalAudioTrack is not bound to a source", none⟩
  let timestamp ← frame.given "timestamp"
  let timestampUs ← checkTimestamp nowUs (timestamp.elim .undefined NapiValue.described)
  pure (pcm.take frames, timestampUs)

/-- `src/media/local_audio_track_wrap.cpp:115–195`: what it returns or throws, the track and the
device. -/
def writeReads (t : LocalAudioTrack) (d : NodeAudioDevice Int16Sample) (nowUs : Int)
    (info : Option Reads) :
    Except JsError Bool × LocalAudioTrack × NodeAudioDevice Int16Sample :=
  match t.checkReads nowUs info with
  | .error e => (.error e, t, d)
  | .ok (samples, timestampUs) =>
    let r := d.pushRecordingData samples
    (.ok r.1, t.count r.1 timestampUs, r.2)

end LocalAudioTrack

/-- What `write()` reads of an object none of whose getters throws. -/
def AudioFrameInput.ofValue (v : NapiValue) : AudioFrameInput Int16Sample where
  pcm := ((v.present? "pcm").bind NapiValue.buffer?).map int16Samples
  frames := (v.get "frames").described
  timestamp := ((v.present? "timestamp").elim .undefined NapiValue.described)

private theorem readPcm_reads (v : NapiValue) :
    readPcm v.reads = orThrow (AudioFrameInput.ofValue v).pcm readPcm.noBuffer := by
  show (throwIf (v.has "pcm" = false) readPcm.noBuffer >>= fun _ ↦
    orThrow (v.get "pcm").buffer? readPcm.noBuffer >>= fun bytes ↦ pure (int16Samples bytes)) = _
  cases hp : v.has "pcm" with
  | false => simp [AudioFrameInput.ofValue, NapiValue.present?, throwIf, orThrow, hp, bind,
      Except.bind]
  | true =>
    cases hb : (v.get "pcm").buffer? <;>
      simp [AudioFrameInput.ofValue, NapiValue.present?, throwIf, orThrow, hp, hb, bind,
        Except.bind, pure, Except.pure]

private theorem given_reads (v : NapiValue) : ∃ g, v.reads.given "timestamp" = .ok g ∧
    g.elim .undefined NapiValue.described = (AudioFrameInput.ofValue v).timestamp := by
  cases hp : v.has "timestamp" with
  | false =>
    refine ⟨none, Reads.given_of_absent (congrArg Except.ok hp), ?_⟩
    simp [AudioFrameInput.ofValue, NapiValue.present?, hp]
  | true =>
    cases hu : (v.get "timestamp").isUndefined with
    | false =>
      refine ⟨some _, Reads.given_of_present (congrArg Except.ok hp) rfl hu, ?_⟩
      simp [AudioFrameInput.ofValue, NapiValue.present?, hp]
    | true =>
      refine ⟨none, ?_, ?_⟩
      · show (if v.has "timestamp" = true then
          (pure (if (v.get "timestamp").isUndefined then none else some (v.get "timestamp")) :
            Except JsError (Option NapiValue)) else pure none) = .ok none
        rw [if_pos hp, if_pos hu]
        rfl
      · -- `undefined` is what an absent timestamp is, too.
        have hv : v.get "timestamp" = .undefined := by
          cases hv : v.get "timestamp" with
          | undefined => rfl
          | _ => rw [hv] at hu; cases hu
        simp [AudioFrameInput.ofValue, NapiValue.present?, hp, hv, NapiValue.described]

/-- Of a frame none of whose getters throws, reading and checking is checking what was read. -/
theorem LocalAudioTrack.checkReads_reads (t : LocalAudioTrack) (nowUs : Int) (v : NapiValue) :
    t.checkReads nowUs (some v.reads) = t.checkInput nowUs (some (.ofValue v)) := by
  obtain ⟨g, hg, ht⟩ := given_reads v
  show (readPcm v.reads >>= fun pcm ↦ checkFrames (v.get "frames").described >>= fun frames ↦
    throwIf (pcm.length < frames) _ >>= fun _ ↦ throwIf (t.hasSource = false) _ >>= fun _ ↦
    v.reads.given "timestamp" >>= fun timestamp ↦
    checkTimestamp nowUs (timestamp.elim .undefined NapiValue.described) >>= fun timestampUs ↦
    pure (pcm.take frames, timestampUs)) = _
  rw [readPcm_reads, hg]
  show (orThrow (AudioFrameInput.ofValue v).pcm _ >>= fun pcm ↦
    checkFrames (AudioFrameInput.ofValue v).frames >>= fun frames ↦
    throwIf (pcm.length < frames) _ >>= fun _ ↦ throwIf (t.hasSource = false) _ >>= fun _ ↦
    checkTimestamp nowUs (g.elim .undefined NapiValue.described) >>= fun timestampUs ↦
    pure (pcm.take frames, timestampUs)) = _
  rw [ht, checkInput]
  cases (AudioFrameInput.ofValue v).pcm with
  | none => rfl
  | some pcm =>
    cases checkFrames (AudioFrameInput.ofValue v).frames with
    | error e => rfl
    | ok frames =>
      by_cases hl : pcm.length < frames
      · simp [orThrow, throwIf, hl, bind, Except.bind]
      · cases t.hasSource <;> simp [orThrow, throwIf, hl, bind, Except.bind, pure, Except.pure]

namespace LocalAudioTrack

/-- Writing a frame none of whose getters throws is writing what was read. -/
theorem writeReads_reads (t : LocalAudioTrack) (d : NodeAudioDevice Int16Sample) (nowUs : Int)
    (v : NapiValue) :
    t.writeReads d nowUs (some v.reads) = match t.write d nowUs (some (.ofValue v)) with
      | .error e => (.error e, t, d)
      | .ok (accepted, u, device) => (.ok accepted, u, device) := by
  rw [writeReads, write, checkReads_reads]
  cases t.checkInput nowUs (some (.ofValue v)) with
  | error e => rfl
  | ok input => rfl

/-- The timestamp that has been checked is the one the frame gives, or the present time. -/
theorem timestamp_of_checkReads {t : LocalAudioTrack} {nowUs timestampUs : Int}
    {info : Option Reads} {samples : List Int16Sample}
    (h : t.checkReads nowUs info = .ok (samples, timestampUs)) : ∃ frame g, info = some frame ∧
      frame.given "timestamp" = .ok g ∧
      checkTimestamp nowUs (g.elim .undefined NapiValue.described) = .ok timestampUs := by
  simp only [checkReads, bind_eq_ok, orThrow_eq_ok, pure_eq_ok, Prod.mk.injEq] at h
  obtain ⟨frame, hi, -, -, -, -, -, -, -, -, -, -, g, hg, ts, hts, -, rfl⟩ := h
  exact ⟨frame, g, hi, hg, hts⟩

/-- Every write either throws and leaves the track and the device, or is one push counted by its
outcome. -/
theorem writeReads_cases (t : LocalAudioTrack) (d : NodeAudioDevice Int16Sample) (nowUs : Int)
    (info : Option Reads) :
    (∃ e, t.writeReads d nowUs info = (.error e, t, d)) ∨
    ∃ samples timestampUs, t.checkReads nowUs info = .ok (samples, timestampUs) ∧
      t.writeReads d nowUs info = (.ok (d.pushRecordingData samples).1,
        t.count (d.pushRecordingData samples).1 timestampUs, (d.pushRecordingData samples).2) := by
  cases hi : t.checkReads nowUs info with
  | error e =>
    left
    exact ⟨e, by rw [writeReads, hi]⟩
  | ok input =>
    right
    exact ⟨_, _, rfl, by rw [writeReads, hi]⟩

end LocalAudioTrack

end VideoNode.Audio
