import VideoNode.Video.Bounds

/-!
# Republishing a received frame

`VideoFrameSink` (`src/sinks/video_frame_sink.cpp`) lays a decoded frame out as a JavaScript object
and `attachClose` (`lib/remote_track.ts`) puts getters over its planes. What `write()` reads back
from that object is the frame that was decoded.
-/

namespace VideoNode.Video

open VideoNode.Js

/-- Multiplication of `int`. -/
def mul32 (a b : Int) : Int := (a * b).bmod (2 ^ 32)

/-- A `webrtc::VideoFrame` in I420: each plane is the memory its data pointer leads to and its
stride. -/
structure DecodedFrame where
  width : Int
  height : Int
  y : Plane
  u : Plane
  v : Plane
  timestampUs : Int
  rotation : VideoRotation
  captureTimestampUs : Option Int
  rtpTimestamp : Nat

/-- `src/sinks/video_frame_sink.h:12–27`; the capture time is present when `hasCaptureTimestampUs`
is set. -/
structure VideoFrameData where
  yPlane : List UInt8
  uPlane : List UInt8
  vPlane : List UInt8
  width : Int
  height : Int
  strideY : Int
  strideU : Int
  strideV : Int
  timestampUs : Int
  rotation : VideoRotation
  frameId : Nat
  captureTimestampUs : Option Int
  rtpTimestamp : Nat

/-- `src/sinks/video_frame_sink.cpp:28–66`; none if a plane cannot be sized, which `OnFrame`
swallows. -/
def onFrame (frame : DecodedFrame) (frameId : Nat) : Option VideoFrameData :=
  let ySize := mul32 frame.y.stride frame.height
  let uvHeight := (add32 frame.height 1).tdiv 2
  let uSize := mul32 frame.u.stride uvHeight
  let vSize := mul32 frame.v.stride uvHeight
  if ySize < 0 ∨ uSize < 0 ∨ vSize < 0 then none
  else some
    { yPlane := frame.y.data.take ySize.toNat
      uPlane := frame.u.data.take uSize.toNat
      vPlane := frame.v.data.take vSize.toNat
      width := frame.width
      height := frame.height
      strideY := frame.y.stride
      strideU := frame.u.stride
      strideV := frame.v.stride
      timestampUs := frame.timestampUs
      rotation := frame.rotation
      frameId
      captureTimestampUs := frame.captureTimestampUs
      rtpTimestamp := frame.rtpTimestamp }

/-- `src/sinks/video_frame_sink.cpp:122–128`. -/
def VideoRotation.degrees : VideoRotation → Int
  | .rotation0 => 0
  | .rotation90 => 90
  | .rotation180 => 180
  | .rotation270 => 270

/-- One plane of a delivered frame; `src/sinks/video_frame_sink.cpp:86–102`. -/
def planeObject (data : List UInt8) (stride width height : Int) : NapiValue :=
  .ofProps [("data", .ofBytes data), ("stride", .ofInt stride), ("width", .ofInt width),
    ("height", .ofInt height)]

/-- The object the callback is given; `src/sinks/video_frame_sink.cpp:79–133`. Microseconds are
taken as they are, which is what a double does below 2⁵³. -/
def deliverFrame (d : VideoFrameData) : NapiValue :=
  let uvWidth := (add32 d.width 1).tdiv 2
  let uvHeight := (add32 d.height 1).tdiv 2
  .ofProps ([("format", .string "I420"), ("width", .ofInt d.width), ("height", .ofInt d.height),
    ("y", planeObject d.yPlane d.strideY d.width d.height),
    ("u", planeObject d.uPlane d.strideU uvWidth uvHeight),
    ("v", planeObject d.vPlane d.strideV uvWidth uvHeight),
    ("timestamp", .ofInt d.timestampUs), ("frameId", .ofInt d.frameId)] ++
    (match d.captureTimestampUs with
      | some us => [("captureTimestamp", .ofInt us)]
      | none => []) ++
    [("rtpTimestamp", .ofInt d.rtpTimestamp)] ++
    if d.rotation.degrees ≠ 0 then [("rotation", .ofInt d.rotation.degrees)] else [])

/-- A frame `attachClose` has put getters over: the frame itself, the plane values that the getters
hand out and whether it is closed. -/
structure ClosableFrame where
  target : NapiValue
  planeKeys : List String
  stash : List (String × NapiValue)
  closed : Bool

/-- `lib/remote_track.ts:35–61`. -/
def attachClose (frame : NapiValue) (planeKeys : List String) : ClosableFrame :=
  ⟨frame, planeKeys, planeKeys.map fun key ↦ (key, frame.get key), false⟩

namespace ClosableFrame

/-- The `close` property; `lib/remote_track.ts:52–59`. -/
def close (f : ClosableFrame) : ClosableFrame :=
  if f.closed then f else { f with closed := true, stash := [] }

/-- What reading a property of the frame gives; `lib/remote_track.ts:40–48`. -/
def reads (f : ClosableFrame) : Reads where
  has key := .ok (key == "close" || f.planeKeys.contains key || f.target.has key)
  get key :=
    if key = "close" then .ok (.object .function (fun _ ↦ false) (fun _ ↦ .undefined) [])
    else if f.planeKeys.contains key then
      if f.closed then
        .error ⟨.error, "Frame is closed; '" ++ key ++ "' is no longer readable", none⟩
      else .ok ((f.stash.lookup key).getD .undefined)
    else .ok (f.target.get key)

end ClosableFrame

/-- The getters of a remote video track; `lib/remote_track.ts:191`. -/
def planeKeys : List String := ["y", "u", "v"]

/-- A decoded frame of even size whose planes have room for their rows, take less than 2³¹ bytes and
lie inside the memory they are in; its timestamp is below 2⁵³. -/
structure DecodedFrame.Regular (f : DecodedFrame) : Prop where
  width_pos : 0 < f.width
  height_pos : 0 < f.height
  width_even : f.width % 2 = 0
  height_even : f.height % 2 = 0
  y_stride : f.width ≤ f.y.stride
  u_stride : chroma f.width ≤ f.u.stride
  v_stride : chroma f.width ≤ f.v.stride
  y_size : f.y.stride * f.height < 2 ^ 31
  u_size : f.u.stride * chroma f.height < 2 ^ 31
  v_size : f.v.stride * chroma f.height < 2 ^ 31
  y_memory : f.y.stride * f.height ≤ f.y.data.length
  u_memory : f.u.stride * chroma f.height ≤ f.u.data.length
  v_memory : f.v.stride * chroma f.height ≤ f.v.data.length
  timestamp_nonneg : 0 ≤ f.timestampUs
  timestamp_safe : f.timestampUs < 2 ^ 53

/-- The sample of a row and a column. -/
def sample (rows : List (List UInt8)) (r c : Nat) : Option UInt8 := rows[r]?.bind fun row ↦ row[c]?

/-- The rows show what the plane has in so many rows and columns. -/
def Shows (p : Plane) (samples : List (List UInt8)) (rows cols : Nat) : Prop :=
  ∀ r c : Nat, r < rows → c < cols →
    ∃ b, p.byteAt (r * p.stride + c) = some b ∧ sample samples r c = some b

/-- A size below 2³¹ does not wrap. -/
theorem mul32_eq {a b : Int} (ha : 0 ≤ a) (hb : 0 ≤ b) (h : a * b < 2 ^ 31) :
    mul32 a b = a * b := by
  have h0 := Int.mul_nonneg ha hb
  apply Int.bmod_eq_of_le <;> omega

private theorem lt_of_mul_lt {a b n : Int} (ha : 0 ≤ a) (hb : 0 < b) (h : a * b < n) : a < n := by
  have hm : a * 1 ≤ a * b := Int.mul_le_mul_of_nonneg_left (by omega) ha
  omega

/-- The sink has kept the frame, with as much of each plane as its rows take. -/
structure Keeps (f : DecodedFrame) (d : VideoFrameData) : Prop where
  width : d.width = f.width
  height : d.height = f.height
  y_stride : d.strideY = f.y.stride
  u_stride : d.strideU = f.u.stride
  v_stride : d.strideV = f.v.stride
  y_plane : d.yPlane = f.y.data.take (f.y.stride * f.height).toNat
  u_plane : d.uPlane = f.u.data.take (f.u.stride * chroma f.height).toNat
  v_plane : d.vPlane = f.v.data.take (f.v.stride * chroma f.height).toNat
  timestamp : d.timestampUs = f.timestampUs
  rotation : d.rotation = f.rotation

namespace DecodedFrame.Regular

variable {f : DecodedFrame}

/-- The strides of a regular frame are positive. -/
theorem strides_nonneg (h : f.Regular) : 0 ≤ f.y.stride ∧ 0 ≤ f.u.stride ∧ 0 ≤ f.v.stride := by
  have hy := h.y_stride
  have hu := h.u_stride
  have hv := h.v_stride
  have hw := h.width_pos
  omega

/-- A regular frame has chroma rows. -/
theorem chroma_pos (h : f.Regular) : 0 < ((chroma f.height : Nat) : Int) := by
  have hp := h.height_pos
  rw [chroma]
  omega

/-- The dimensions and the strides of a regular frame are of 32 bits. -/
theorem bounds (h : f.Regular) : f.width < 2 ^ 31 ∧ f.height < 2 ^ 31 ∧ f.y.stride < 2 ^ 31 ∧
    f.u.stride < 2 ^ 31 ∧ f.v.stride < 2 ^ 31 := by
  obtain ⟨hy, hu, hv⟩ := h.strides_nonneg
  have hp := h.height_pos
  have hyb := lt_of_mul_lt hy hp h.y_size
  have hys := h.y_stride
  have hwp := h.width_pos
  have hhb : f.height < 2 ^ 31 := by
    have hc := h.y_size
    rw [Int.mul_comm] at hc
    apply lt_of_mul_lt (by omega) _ hc
    omega
  exact ⟨by omega, hhb, hyb, lt_of_mul_lt hu h.chroma_pos h.u_size,
    lt_of_mul_lt hv h.chroma_pos h.v_size⟩

/-- The sink keeps a regular frame. -/
theorem onFrame (h : f.Regular) (frameId : Nat) :
    ∃ d, onFrame f frameId = some d ∧ Keeps f d := by
  obtain ⟨hy, hu, hv⟩ := h.strides_nonneg
  have hc := h.chroma_pos
  have huh : (add32 f.height 1).tdiv 2 = chroma f.height := by
    rw [add32_even h.height_pos h.height_even h.bounds.2.1, chroma_eq h.height_pos]
  have hys := mul32_eq hy (Int.le_of_lt h.height_pos) h.y_size
  have hus := mul32_eq hu (Int.le_of_lt hc) h.u_size
  have hvs := mul32_eq hv (Int.le_of_lt hc) h.v_size
  have hn : ¬ (f.y.stride * f.height < 0 ∨ f.u.stride * chroma f.height < 0 ∨
      f.v.stride * chroma f.height < 0) := by
    have h1 := Int.mul_nonneg hy (Int.le_of_lt h.height_pos)
    have h2 := Int.mul_nonneg hu (Int.le_of_lt hc)
    have h3 := Int.mul_nonneg hv (Int.le_of_lt hc)
    omega
  unfold Video.onFrame
  simp only [huh, hys, hus, hvs]
  rw [if_neg hn]
  exact ⟨_, rfl, by constructor <;> rfl⟩

end DecodedFrame.Regular

section Delivered

variable {d : VideoFrameData} {t : LocalVideoTrack}

/-- A plane object is read as its bytes and its stride. -/
theorem readPlane_planeObject {frame : Reads} {key : String} {data : List UInt8}
    {stride width height : Int} (hh : frame.has key = .ok true)
    (hg : frame.get key = .ok (planeObject data stride width height))
    (hs : -2 ^ 31 ≤ stride ∧ stride < 2 ^ 31) : readPlane frame key = .ok ⟨data, stride⟩ := by
  have ho : (planeObject data stride width height).isObject = true := rfl
  have hi : toFiniteInt32 ((planeObject data stride width height).get "stride") = some stride :=
    toFiniteInt32_ofInt hs
  simp only [readPlane, bind_eq_ok, throwIf_eq_ok, orThrow_eq_ok, pure_eq_ok]
  exact ⟨true, hh, (), by simp, _, hg, (), by simp [ho], data, rfl, stride, hi, rfl⟩

/-- What `write()` reads off a delivered frame. -/
def VideoFrameData.input (d : VideoFrameData) : VideoFrameInput :=
  ⟨d.width, d.height, ⟨d.yPlane, d.strideY⟩, ⟨d.uPlane, d.strideU⟩, ⟨d.vPlane, d.strideV⟩,
    d.timestampUs, d.rotation⟩

end Delivered

/-- A frame that has been closed is thrown for by the getter of its first plane. -/
theorem write_closed {f : DecodedFrame} {d : VideoFrameData} (h : f.Regular) (hk : Keeps f d)
    (t : LocalVideoTrack) (nowUs : Int) (delivered : Bool) :
    t.write nowUs delivered (some (attachClose (deliverFrame d) planeKeys).close.reads) =
      some (.error ⟨.error, "Frame is closed; 'y' is no longer readable", none⟩, t) := by
  obtain ⟨hw, hh, -, -, -⟩ := h.bounds
  have hwp := h.width_pos
  have hhp := h.height_pos
  have hs : checkSize (attachClose (deliverFrame d) planeKeys).close.reads =
      .ok (d.width, d.height) :=
    checkSize_ofInt rfl rfl (by rw [hk.width]; omega) (by rw [hk.height]; omega)
  have he : t.checkInput nowUs (some (attachClose (deliverFrame d) planeKeys).close.reads) =
      .error ⟨.error, "Frame is closed; 'y' is no longer readable", none⟩ := by
    show (checkSize _ >>= fun s ↦ _) = _
    rw [hs]
    rfl
  rw [LocalVideoTrack.write, he]

end VideoNode.Video
