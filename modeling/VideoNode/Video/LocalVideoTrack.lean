import VideoNode.Js.Napi
import VideoNode.Video.I420

/-!
# Writing to a local video track

`LocalVideoTrackWrap::Write` (`src/media/local_video_track_wrap.cpp`): what it throws for, in the
order of its checks, the frame it copies and pushes and the statistics it keeps. Sizes are computed
in machine integers, so that an overflow would show.
-/

namespace VideoNode.Video

open VideoNode.Js

/-- `src/media/local_video_track_wrap.cpp:9–17`. -/
def toFiniteInt32 : NapiValue → Option Int
  | .number n =>
    match n.isInteger with
    | some i => if i < -2 ^ 31 ∨ 2 ^ 31 - 1 < i then none else some i
    | none => none
  | _ => none

/-- Addition of `int32_t`. -/
def add32 (a b : Int) : Int := (a + b).bmod (2 ^ 32)

/-- Multiplication of `int32_t` values that have been cast to `size_t`. -/
def mulSize (a b : Int) : Int := a % 2 ^ 64 * (b % 2 ^ 64) % 2 ^ 64

/-- A frame that `PushFrame` has been called with. -/
structure PushedFrame where
  buffer : I420Buffer
  timestampUs : Int
  rotation : VideoRotation
  deriving DecidableEq, Repr

/-- Members of `LocalVideoTrackWrap`; `src/media/local_video_track_wrap.h:57–84`. The source is the
frames pushed to it, an expected size of zero is none, and the last timestamp is present when
`hasLastTimestamp_` is set. -/
structure LocalVideoTrack where
  videoSource : Option (List PushedFrame)
  expectedWidth : Int
  expectedHeight : Int
  framesWritten : Nat
  framesDropped : Nat
  lastTimestampUs : Option Int
  timestampRegressions : Nat
  deriving DecidableEq, Repr

/-- What `write()` has read once every check has passed. -/
structure VideoFrameInput where
  width : Int
  height : Int
  y : Plane
  u : Plane
  v : Plane
  timestampUs : Int
  rotation : VideoRotation

/-- `src/media/local_video_track_wrap.cpp:112–140`. -/
def readPlane (frame : Reads) (key : String) : Except JsError Plane := do
  let present ← frame.has key
  throwIf (present = false)
    ⟨.typeError, "VideoFrameInput requires an I420Plane '" ++ key ++ "'", none⟩
  let v ← frame.get key
  throwIf (v.isObject = false)
    ⟨.typeError, "VideoFrameInput." ++ key ++ " must be an I420Plane object", none⟩
  let data ← orThrow ((v.present? "data").bind NapiValue.buffer?)
    ⟨.typeError, "VideoFrameInput." ++ key ++ ".data must be a Buffer", none⟩
  let stride ← orThrow (toFiniteInt32 (v.get "stride"))
    ⟨.typeError, "VideoFrameInput." ++ key ++ ".stride must be a finite integer", none⟩
  pure ⟨data, stride⟩

/-- `src/media/local_video_track_wrap.cpp:153–161`. -/
def checkFormat (frame : Reads) : Except JsError Unit := do
  match ← frame.given "format" with
  | none => pure ()
  | some f =>
    throwIf (f.text? ≠ some "I420") ⟨.typeError, "VideoFrameInput.format must be 'I420'", none⟩

/-- `src/media/local_video_track_wrap.cpp:163–169`. -/
def checkSize (frame : Reads) : Except JsError (Int × Int) := do
  let width ← orThrow (toFiniteInt32 (← frame.get "width")) notFinite
  let height ← orThrow (toFiniteInt32 (← frame.get "height")) notFinite
  pure (width, height)
where
  notFinite : JsError :=
    ⟨.typeError, "VideoFrameInput requires finite integer width and height", none⟩

/-- `src/media/local_video_track_wrap.cpp:218–245`; an absent timestamp is the present time. -/
def checkTimestamp (nowUs : Int) : Option NapiValue → Except JsError Int
  | none => .ok nowUs
  | some (.number n) =>
    match n.isInteger with
    | none =>
      .error ⟨.rangeError, "VideoFrameInput.timestamp must be a whole number of microseconds", none⟩
    | some i =>
      if i < 0 then .error ⟨.rangeError, "VideoFrameInput.timestamp must be non-negative", none⟩
      else if 9007199254740991 < i then
        .error ⟨.rangeError, "VideoFrameInput.timestamp exceeds Number.MAX_SAFE_INTEGER", none⟩
      else .ok i
  | some _ =>
    .error ⟨.typeError, "VideoFrameInput.timestamp must be a number (microseconds)", none⟩

/-- `src/media/local_video_track_wrap.cpp:247–265`; an absent rotation is none. -/
def checkRotation : Option NapiValue → Except JsError VideoRotation
  | none => .ok .rotation0
  | some v => do
    let r ← orThrow (toFiniteInt32 v)
      ⟨.typeError, "VideoFrameInput rotation must be a finite integer", none⟩
    match r with
    | 0 => pure .rotation0
    | 90 => pure .rotation90
    | 180 => pure .rotation180
    | 270 => pure .rotation270
    | _ => .error ⟨.rangeError, "VideoFrameInput rotation must be 0, 90, 180, or 270", none⟩

namespace LocalVideoTrack

/-- A track that has written nothing and expects no size; one that `NewInstance` made has a
source. -/
def create (hasSource : Bool) : LocalVideoTrack :=
  ⟨if hasSource then some [] else none, 0, 0, 0, 0, none, 0⟩

/-- The size disagrees with the one the track was configured with. -/
def Disagrees (t : LocalVideoTrack) (width height : Int) : Prop :=
  t.expectedWidth ≠ 0 ∧ width ≠ t.expectedWidth ∨
    t.expectedHeight ≠ 0 ∧ height ≠ t.expectedHeight

instance (t : LocalVideoTrack) (width height : Int) : Decidable (t.Disagrees width height) :=
  inferInstanceAs (Decidable (_ ∨ _))

/-- `src/media/local_video_track_wrap.cpp:177–214`. -/
def checkGeometry (t : LocalVideoTrack) (width height : Int) (y u v : Plane) :
    Except JsError Unit := do
  throwIf (width ≤ 0 ∨ height ≤ 0)
    ⟨.rangeError, "VideoFrameInput width and height must be positive", none⟩
  throwIf (width % 2 ≠ 0 ∨ height % 2 ≠ 0)
    ⟨.rangeError, "VideoFrameInput width and height must be even", none⟩
  throwIf (t.Disagrees width height) ⟨.rangeError,
    "VideoFrameInput dimensions do not match the track's configured source size", none⟩
  let uvWidth := (add32 width 1).tdiv 2
  let uvHeight := (add32 height 1).tdiv 2
  throwIf (y.stride < width ∨ u.stride < uvWidth ∨ v.stride < uvWidth)
    ⟨.rangeError, "VideoFrameInput strides must be >= plane widths", none⟩
  throwIf (y.data.length < mulSize y.stride height ∨ u.data.length < mulSize u.stride uvHeight ∨
      v.data.length < mulSize v.stride uvHeight)
    ⟨.rangeError, "VideoFrameInput plane buffers are smaller than stride*height", none⟩

/-- Everything `write()` throws for, or what it goes on with; absent is an argument that is missing
or no object. `src/media/local_video_track_wrap.cpp:143–270`. -/
def checkInput (t : LocalVideoTrack) (nowUs : Int) (info : Option Reads) :
    Except JsError VideoFrameInput := do
  let frame ← orThrow info ⟨.typeError, "write() expects a VideoFrameInput object", none⟩
  checkFormat frame
  let (width, height) ← checkSize frame
  let y ← readPlane frame "y"
  let u ← readPlane frame "u"
  let v ← readPlane frame "v"
  t.checkGeometry width height y u v
  let timestampUs ← checkTimestamp nowUs (← frame.given "timestamp")
  let rotation ← checkRotation (← frame.given "rotation")
  throwIf (t.videoSource = none) ⟨.error, "LocalVideoTrack is not bound to a source", none⟩
  pure ⟨width, height, y, u, v, timestampUs, rotation⟩

/-- The source after a call of `PushFrame`. -/
def pushFrame (t : LocalVideoTrack) (f : PushedFrame) : LocalVideoTrack :=
  { t with videoSource := t.videoSource.map (· ++ [f]) }

/-- The statistics after a push; `src/media/local_video_track_wrap.cpp:281–288`. -/
def count (t : LocalVideoTrack) (delivered : Bool) (timestampUs : Int) : LocalVideoTrack :=
  if delivered then
    { t with
      framesWritten := t.framesWritten + 1
      timestampRegressions := t.timestampRegressions +
        match t.lastTimestampUs with
        | some last => if timestampUs ≤ last then 1 else 0
        | none => 0
      lastTimestampUs := some timestampUs }
  else { t with framesDropped := t.framesDropped + 1 }

/-- Counting a push leaves the source. -/
@[simp] theorem count_videoSource (t : LocalVideoTrack) (delivered : Bool) (timestampUs : Int) :
    (t.count delivered timestampUs).videoSource = t.videoSource := by
  unfold count
  split <;> rfl

/-- Counting a push leaves the expected width. -/
@[simp] theorem count_expectedWidth (t : LocalVideoTrack) (delivered : Bool) (timestampUs : Int) :
    (t.count delivered timestampUs).expectedWidth = t.expectedWidth := by
  unfold count
  split <;> rfl

/-- Counting a push leaves the expected height. -/
@[simp] theorem count_expectedHeight (t : LocalVideoTrack) (delivered : Bool) (timestampUs : Int) :
    (t.count delivered timestampUs).expectedHeight = t.expectedHeight := by
  unfold count
  split <;> rfl

/-- `src/media/local_video_track_wrap.cpp:143–290`: what it returns or throws, and the track; none
if it reads outside a buffer. Whether the frame was delivered is the adapter's choice. -/
def write (t : LocalVideoTrack) (nowUs : Int) (delivered : Bool) (info : Option Reads) :
    Option (Except JsError Bool × LocalVideoTrack) :=
  match t.checkInput nowUs info with
  | .error e => some (.error e, t)
  | .ok i =>
    (I420Buffer.copy i.width i.height i.y i.u i.v).map fun buffer ↦
      (.ok delivered,
        (t.pushFrame ⟨buffer, i.timestampUs, i.rotation⟩).count delivered i.timestampUs)

end LocalVideoTrack

/-- What is read is an integer in the range of the type. -/
theorem toFiniteInt32_eq_some {v : NapiValue} {i : Int} :
    toFiniteInt32 v = some i ↔ v.integer? = some i ∧ -2 ^ 31 ≤ i ∧ i < 2 ^ 31 := by
  cases v with
  | number n =>
    show (match n.isInteger with
      | some i => if i < -2 ^ 31 ∨ 2 ^ 31 - 1 < i then none else some i
      | none => none) = some i ↔ n.isInteger = some i ∧ _
    cases n.isInteger with
    | none => simp
    | some j =>
      by_cases hj : j < -2 ^ 31 ∨ 2 ^ 31 - 1 < j
      · simp only [if_pos hj, reduceCtorEq, Option.some.injEq, false_iff]
        omega
      · simp only [if_neg hj, Option.some.injEq]
        omega
  | _ => simp [toFiniteInt32, NapiValue.integer?, NapiValue.number?]

/-- An integer that has been read is in the range of its type. -/
theorem toFiniteInt32_bounds {v : NapiValue} {i : Int} (h : toFiniteInt32 v = some i) :
    -2 ^ 31 ≤ i ∧ i < 2 ^ 31 :=
  (toFiniteInt32_eq_some.mp h).2

/-- A whole number in range is read as it is. -/
theorem toFiniteInt32_ofInt {i : Int} (h : -2 ^ 31 ≤ i ∧ i < 2 ^ 31) :
    toFiniteInt32 (.ofInt i) = some i :=
  toFiniteInt32_eq_some.mpr ⟨NapiValue.integer?_ofInt i, h⟩

/-- A sum in range does not wrap. -/
theorem add32_eq {a b : Int} (h : -2 ^ 31 ≤ a + b ∧ a + b < 2 ^ 31) : add32 a b = a + b := by
  apply Int.bmod_eq_of_le <;> omega

/-- A product of non-negative 32-bit integers does not wrap in 64 bits. -/
theorem mulSize_eq {a b : Int} (ha : 0 ≤ a ∧ a < 2 ^ 31) (hb : 0 ≤ b ∧ b < 2 ^ 31) :
    mulSize a b = a * b := by
  have h0 : 0 ≤ a * b := Int.mul_nonneg ha.1 hb.1
  have h1 : a * b ≤ 2 ^ 31 * 2 ^ 31 := by
    apply Int.mul_le_mul <;> omega
  rw [mulSize, Int.emod_eq_of_lt ha.1, Int.emod_eq_of_lt hb.1, Int.emod_eq_of_lt h0] <;> omega

/-- A plane that was read has a stride of 32 bits. -/
theorem readPlane_stride {frame : Reads} {key : String} {p : Plane}
    (h : readPlane frame key = .ok p) : -2 ^ 31 ≤ p.stride ∧ p.stride < 2 ^ 31 := by
  simp only [readPlane, bind_eq_ok, orThrow_eq_ok, pure_eq_ok] at h
  obtain ⟨present, -, -, -, v, -, -, -, data, -, stride, hs, rfl⟩ := h
  exact toFiniteInt32_bounds hs

/-- A size that was read has 32 bits in each dimension. -/
theorem checkSize_bounds {frame : Reads} {w h : Int} (hs : checkSize frame = .ok (w, h)) :
    (-2 ^ 31 ≤ w ∧ w < 2 ^ 31) ∧ -2 ^ 31 ≤ h ∧ h < 2 ^ 31 := by
  simp only [checkSize, bind_eq_ok, orThrow_eq_ok, pure_eq_ok, Prod.mk.injEq] at hs
  obtain ⟨wv, -, width, hw, hv, -, height, hh, rfl, rfl⟩ := hs
  exact ⟨toFiniteInt32_bounds hw, toFiniteInt32_bounds hh⟩

/-- A size of whole numbers in range is read as it is. -/
theorem checkSize_ofInt {frame : Reads} {w h : Int} (hw : frame.get "width" = .ok (.ofInt w))
    (hh : frame.get "height" = .ok (.ofInt h)) (hwb : -2 ^ 31 ≤ w ∧ w < 2 ^ 31)
    (hhb : -2 ^ 31 ≤ h ∧ h < 2 ^ 31) : checkSize frame = .ok (w, h) := by
  simp only [checkSize, bind_eq_ok, orThrow_eq_ok, pure_eq_ok]
  exact ⟨_, hw, w, toFiniteInt32_ofInt hwb, _, hh, h, toFiniteInt32_ofInt hhb, rfl⟩

namespace LocalVideoTrack

/-- The sizes `write()` goes on with. -/
structure Geometry (t : LocalVideoTrack) (width height : Int) (y u v : Plane) : Prop where
  width_pos : 0 < width
  height_pos : 0 < height
  width_even : width % 2 = 0
  height_even : height % 2 = 0
  agrees : ¬ t.Disagrees width height
  y_stride : width ≤ y.stride
  u_stride : (add32 width 1).tdiv 2 ≤ u.stride
  v_stride : (add32 width 1).tdiv 2 ≤ v.stride
  y_length : mulSize y.stride height ≤ y.data.length
  u_length : mulSize u.stride ((add32 height 1).tdiv 2) ≤ u.data.length
  v_length : mulSize v.stride ((add32 height 1).tdiv 2) ≤ v.data.length

/-- The geometry checks pass exactly on such sizes. -/
theorem checkGeometry_eq_ok {t : LocalVideoTrack} {width height : Int} {y u v : Plane} {e : Unit} :
    t.checkGeometry width height y u v = .ok e ↔ t.Geometry width height y u v := by
  simp only [checkGeometry, bind_eq_ok, throwIf_eq_ok, not_or, Int.not_le, not_not, Int.not_lt]
  constructor
  · rintro ⟨-, ⟨hw, hh⟩, -, ⟨hwe, hhe⟩, -, ha, -, ⟨hy, hu, hv⟩, hyl, hul, hvl⟩
    exact ⟨hw, hh, hwe, hhe, ha, hy, hu, hv, hyl, hul, hvl⟩
  · intro h
    exact ⟨(), ⟨h.width_pos, h.height_pos⟩, (), ⟨h.width_even, h.height_even⟩, (), h.agrees,
      (), ⟨h.y_stride, h.u_stride, h.v_stride⟩, h.y_length, h.u_length, h.v_length⟩

/-- The input of a frame each of whose checks passes. -/
structure Accepts (t : LocalVideoTrack) (nowUs : Int) (frame : Reads) (i : VideoFrameInput) :
    Prop where
  format : checkFormat frame = .ok ()
  size : checkSize frame = .ok (i.width, i.height)
  y : readPlane frame "y" = .ok i.y
  u : readPlane frame "u" = .ok i.u
  v : readPlane frame "v" = .ok i.v
  geometry : t.Geometry i.width i.height i.y i.u i.v
  timestamp : ∃ g, frame.given "timestamp" = .ok g ∧ checkTimestamp nowUs g = .ok i.timestampUs
  rotation : ∃ g, frame.given "rotation" = .ok g ∧ checkRotation g = .ok i.rotation
  source : t.videoSource ≠ none

/-- The checks of `write()` pass exactly when each of them does. -/
theorem checkInput_eq_ok {t : LocalVideoTrack} {nowUs : Int} {info : Option Reads}
    {i : VideoFrameInput} :
    t.checkInput nowUs info = .ok i ↔ ∃ frame, info = some frame ∧ t.Accepts nowUs frame i := by
  simp only [checkInput, bind_eq_ok, orThrow_eq_ok, throwIf_eq_ok, checkGeometry_eq_ok, pure_eq_ok,
    Prod.exists]
  constructor
  · rintro ⟨frame, hi, ⟨⟩, hf, w, h, hs, y, hy, u, hu, v, hv, -, hg, g, hgt, ts, hts, r, hgr, rot,
      hrot, -, hsrc, rfl⟩
    exact ⟨frame, hi, hf, hs, hy, hu, hv, hg, ⟨g, hgt, hts⟩, ⟨r, hgr, hrot⟩, hsrc⟩
  · rintro ⟨frame, hi, hf, hs, hy, hu, hv, hg, ⟨g, hgt, hts⟩, ⟨r, hgr, hrot⟩, hsrc⟩
    exact ⟨frame, hi, (), hf, _, _, hs, _, hy, _, hu, _, hv, (), hg, g, hgt, _, hts, r, hgr, _,
      hrot, (), hsrc, rfl⟩

end LocalVideoTrack

end VideoNode.Video
