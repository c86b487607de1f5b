import VideoNode.Audio.WriteInput
import VideoNode.Video.PinnedSource

/-!
# Frames as they are declared

`VideoFrameInput` and `AudioFrameInput` of `lib/types.ts` as an application puts them together. A
track with a source throws for none that is well formed.
-/

namespace VideoNode

open VideoNode.Js VideoNode.Video VideoNode.Audio

-- A property that may be left out.
private def optionalProp (key : String) (value : Option Int) : List (String × NapiValue) :=
  (value.map fun i ↦ (key, .ofInt i)).toList

/-- `VideoFrameInput`; `lib/types.ts:41–61`. -/
structure Video.GivenFrame where
  width : Int
  height : Int
  y : Plane
  u : Plane
  v : Plane
  timestamp : Option Int
  rotation : Option VideoRotation

/-- `AudioFrameInput`; `lib/types.ts:97–104`. -/
structure Audio.GivenFrame where
  pcm : List UInt8
  frames : Int
  timestamp : Option Int

/-- A timestamp that is given is a whole number of microseconds that a double can hold. -/
def GivenTimestamp (timestamp : Option Int) : Prop :=
  ∀ i ∈ timestamp, 0 ≤ i ∧ i < 2 ^ 53

namespace Video.GivenFrame

/-- The object that is passed. -/
def object (f : GivenFrame) : NapiValue :=
  .ofProps ([("format", .string "I420"), ("width", .ofInt f.width), ("height", .ofInt f.height),
    ("y", planeObject f.y.data f.y.stride f.width f.height),
    ("u", planeObject f.u.data f.u.stride (chroma f.width) (chroma f.height)),
    ("v", planeObject f.v.data f.v.stride (chroma f.width) (chroma f.height))] ++
    optionalProp "timestamp" f.timestamp ++
    optionalProp "rotation" (f.rotation.map VideoRotation.degrees))

/-- The sizes are even and have 32 bits, and each plane has its rows, one stride apart. -/
structure WellFormed (f : GivenFrame) : Prop where
  width : 0 < f.width ∧ f.width % 2 = 0 ∧ f.width < 2 ^ 31
  height : 0 < f.height ∧ f.height % 2 = 0 ∧ f.height < 2 ^ 31
  y_stride : f.width ≤ f.y.stride ∧ f.y.stride < 2 ^ 31
  u_stride : chroma f.width ≤ f.u.stride ∧ f.u.stride < 2 ^ 31
  v_stride : chroma f.width ≤ f.v.stride ∧ f.v.stride < 2 ^ 31
  y_length : f.y.stride * f.height ≤ f.y.data.length
  u_length : f.u.stride * chroma f.height ≤ f.u.data.length
  v_length : f.v.stride * chroma f.height ≤ f.v.data.length
  timestamp : GivenTimestamp f.timestamp

variable {f : GivenFrame} {t : LocalVideoTrack}

private theorem timestamp_object (h : GivenTimestamp f.timestamp) (nowUs : Int) :
    ∃ g, f.object.reads.given "timestamp" = .ok g ∧
      Video.checkTimestamp nowUs g = .ok (f.timestamp.getD nowUs) := by
  obtain ⟨_, _, _, _, _, timestamp, rotation⟩ := f
  cases timestamp with
  | none =>
    refine ⟨none, Reads.given_of_absent ?_, rfl⟩
    cases rotation <;> rfl
  | some i =>
    obtain ⟨h0, h1⟩ := h i rfl
    refine ⟨some (.ofInt i), Reads.given_of_present ?_ ?_ rfl, ?_⟩
    · cases rotation <;> rfl
    · cases rotation <;> rfl
    · have hi : (JsNumber.finite i).isInteger = some i := NapiValue.integer?_ofInt i
      simp only [Video.checkTimestamp, NapiValue.ofInt, hi]
      rw [if_neg (by omega), if_neg (by omega)]
      rfl

private theorem rotation_object (f : GivenFrame) :
    ∃ g, f.object.reads.given "rotation" = .ok g ∧
      checkRotation g = .ok (f.rotation.getD .rotation0) := by
  obtain ⟨_, _, _, _, _, timestamp, rotation⟩ := f
  cases rotation with
  | none =>
    refine ⟨none, Reads.given_of_absent ?_, rfl⟩
    cases timestamp <;> rfl
  | some r =>
    refine ⟨some (.ofInt r.degrees), Reads.given_of_present ?_ ?_ rfl, ?_⟩
    · cases timestamp <;> rfl
    · cases timestamp <;> rfl
    · cases r <;> rfl

/-- A well-formed frame passes every check of a track with a source that does not expect another
size. -/
theorem accepts_object (h : f.WellFormed) (ha : ¬ t.Disagrees f.width f.height)
    (hs : t.videoSource ≠ none) (nowUs : Int) :
    t.Accepts nowUs f.object.reads ⟨f.width, f.height, f.y, f.u, f.v, f.timestamp.getD nowUs,
      f.rotation.getD .rotation0⟩ := by
  obtain ⟨hw, hh, hys, hus, hvs, hyl, hul, hvl, ht⟩ := h
  have hwb : -2 ^ 31 ≤ f.width ∧ f.width < 2 ^ 31 := ⟨by omega, hw.2.2⟩
  have hhb : -2 ^ 31 ≤ f.height ∧ f.height < 2 ^ 31 := ⟨by omega, hh.2.2⟩
  have hyb : -2 ^ 31 ≤ f.y.stride ∧ f.y.stride < 2 ^ 31 := ⟨by omega, hys.2⟩
  have hub : -2 ^ 31 ≤ f.u.stride ∧ f.u.stride < 2 ^ 31 := ⟨by omega, hus.2⟩
  have hvb : -2 ^ 31 ≤ f.v.stride ∧ f.v.stride < 2 ^ 31 := ⟨by omega, hvs.2⟩
  constructor
  · rfl
  · exact checkSize_ofInt rfl rfl hwb hhb
  · exact readPlane_planeObject rfl rfl hyb
  · exact readPlane_planeObject rfl rfl hub
  · exact readPlane_planeObject rfl rfl hvb
  · exact LocalVideoTrack.geometry_of_planes hw hh ha hys hus hvs hyl hul hvl
  · exact timestamp_object ht nowUs
  · exact rotation_object f
  · exact hs

/-- It is written, and delivered or not. -/
theorem write_object (h : f.WellFormed) (ha : ¬ t.Disagrees f.width f.height)
    (hs : t.videoSource ≠ none) (nowUs : Int) (delivered : Bool) :
    ∃ u, t.write nowUs delivered (some f.object.reads) = some (.ok delivered, u) := by
  have hacc := accepts_object h ha hs nowUs
  obtain ⟨buffer, -, hw⟩ := LocalVideoTrack.write_of_accepts hacc delivered
  exact ⟨_, hw⟩

end Video.GivenFrame

namespace Audio.GivenFrame

/-- The object that is passed. -/
def object (f : GivenFrame) : NapiValue :=
  .ofProps ([("pcm", .ofBytes f.pcm), ("frames", .ofInt f.frames)] ++
    optionalProp "timestamp" f.timestamp)

/-- There are two bytes for each frame, and there is one. -/
structure WellFormed (f : GivenFrame) : Prop where
  frames : 0 < f.frames ∧ f.frames < 2 ^ 53
  pcm : f.frames * 2 ≤ f.pcm.length
  timestamp : GivenTimestamp f.timestamp

variable {f : GivenFrame} {t : LocalAudioTrack}

private theorem ofValue_object (f : GivenFrame) :
    AudioFrameInput.ofValue f.object = ⟨some (int16Samples f.pcm), .number (.finite f.frames),
      (f.timestamp.map fun i : Int ↦ JsValue.number (.finite i)).getD .undefined⟩ := by
  obtain ⟨pcm, frames, timestamp⟩ := f
  cases timestamp <;> rfl

private theorem length_int16Samples (bytes : List UInt8) :
    (int16Samples bytes).length = bytes.length / 2 := by
  induction bytes using int16Samples.induct with
  | case1 first second bytes ih =>
    simp only [int16Samples, List.length_cons, ih]
    omega
  | case2 bytes h =>
    match bytes with
    | [] => rfl
    | [_] => simp [int16Samples]
    | first :: second :: bytes => exact absurd rfl (h first second bytes)

/-- A track with a source takes as many samples of a well-formed frame as it says. -/
theorem checkInput_object (h : f.WellFormed) (hs : t.hasSource = true) (nowUs : Int) :
    t.checkInput nowUs (some (.ofValue f.object)) =
      .ok ((int16Samples f.pcm).take f.frames.toNat, f.timestamp.getD nowUs) := by
  obtain ⟨⟨hf0, hf1⟩, hp, ht⟩ := h
  have hi : ∀ i : Int, (JsNumber.finite i).isInteger = some i := NapiValue.integer?_ofInt
  have hframes : checkFrames (.number (.finite f.frames)) = .ok f.frames.toNat := by
    simp only [checkFrames, hi]
    rw [if_pos (by omega)]
  have hlen : ¬ (int16Samples f.pcm).length < f.frames.toNat := by
    rw [length_int16Samples]
    omega
  have htime : Audio.checkTimestamp nowUs
      ((f.timestamp.map fun i : Int ↦ JsValue.number (.finite i)).getD .undefined) =
        .ok (f.timestamp.getD nowUs) := by
    cases hts : f.timestamp with
    | none => rfl
    | some i =>
      obtain ⟨h0, h1⟩ := ht i hts
      simp only [Option.map_some, Option.getD_some, Audio.checkTimestamp, hi]
      rw [if_pos (by omega)]
  rw [ofValue_object]
  simp only [LocalAudioTrack.checkInput, hframes, hlen, hs, htime, bind, Except.bind, pure,
    Except.pure, if_false, Bool.not_true, Bool.false_eq_true]

/-- It is written, and accepted or not. -/
theorem writeReads_object (h : f.WellFormed) (hs : t.hasSource = true)
    (d : NodeAudioDevice Int16Sample) (nowUs : Int) :
    ∃ accepted u d', t.writeReads d nowUs (some f.object.reads) = (.ok accepted, u, d') := by
  rw [LocalAudioTrack.writeReads_reads, LocalAudioTrack.write, checkInput_object h hs nowUs]
  exact ⟨_, _, _, rfl⟩

end Audio.GivenFrame

end VideoNode
