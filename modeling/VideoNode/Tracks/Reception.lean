import VideoNode.Frames.MediaTrack
import VideoNode.Tracks.RemoteTrack

/-!
# The slot of a track and what it receives

`Frames.MediaTrack` follows every frame of one track, and `Tracks.MediaTrack` the receiver slots of
the many tracks of a Room. Both are `RemoteMediaTrack` of `lib/remote_track.ts`: where no native
call throws, the first one refines the second, and a step that is neither `frames()` nor an end
leaves the slot as it is.
-/

namespace VideoNode.Tracks

open VideoNode.Js VideoNode.Lts

/-- What is called on a media track. -/
inductive SlotCall where
  | frames (options : JsValue)
  | endTrack

namespace MediaTrack

variable {P : Type} {kind : Frames.TrackKind} {timestamp : Frames.FrameData P → JsNumber}

/-- The slot of a track on which no native call throws. -/
def slot (kind : Frames.TrackKind) (sid : Option String) (native : NativeTrack) :
    Machine MediaTrack SlotCall where
  init := .create native
  step t := fun
    | .frames options => some (t.frames kind sid options (.ok ())).1
    | .endTrack => some (t.endTrack .returning).1

/-- The slot of a track whose frames are followed: the active receiver is the last one made, and
those before it have ended. -/
def ofReception (native : NativeTrack) (w : Frames.MediaTrack P) : MediaTrack :=
  match w.stream with
  | none => ⟨native, none, List.replicate w.past.length true, none⟩
  | some _ => ⟨native, some w.past.length, List.replicate w.past.length true ++ [false],
      some w.past.length⟩

/-- `frames()` fills the slot where it makes a receiver, and only then. -/
theorem ofReception_frames (sid : Option String) (native : NativeTrack)
    (w : Frames.MediaTrack P) (options : JsValue) : ofReception native (w.frames kind options) =
      ((ofReception native w).frames kind sid options (.ok ())).1 := by
  obtain ⟨stream, past, given⟩ := w
  cases stream with
  | some r => simp [ofReception, Frames.MediaTrack.frames, frames]
  | none =>
    cases hr : Frames.resolveOptions kind options with
    | error error =>
      simp [ofReception, Frames.MediaTrack.frames, Frames.Receiver.frames, frames, hr, Except.map]
    | ok opts =>
      simp [ofReception, Frames.MediaTrack.frames, Frames.Receiver.frames, frames, hr, Except.map]

/-- An end of the active receiver empties the slot. -/
theorem ofReception_end {w w' : Frames.MediaTrack P} (native : NativeTrack)
    (hs : w.step kind timestamp .end_ = some w') :
    ofReception native w' = ((ofReception native w).endTrack .returning).1 := by
  obtain ⟨stream, past, given⟩ := w
  cases stream with
  | none =>
    cases hs
    rfl
  | some r =>
    obtain ⟨receiver, -, rfl⟩ := Option.map_eq_some_iff.mp hs
    simp [ofReception, endTrack, endStream, onEnd, EndCalls.returning, List.replicate_succ']

/-- A step that is neither `frames()` nor an end moves frames, and leaves the slot. -/
theorem ofReception_step {w w' : Frames.MediaTrack P} {a : Frames.MediaTrackAct P}
    (native : NativeTrack) (hf : ∀ options, a ≠ .frames options) (he : a ≠ .end_)
    (hs : w.step kind timestamp a = some w') : ofReception native w' = ofReception native w := by
  obtain ⟨stream, past, given⟩ := w
  cases a with
  | frames options => exact absurd rfl (hf options)
  | end_ => exact absurd rfl he
  | onFrame decoded =>
    cases stream with
    | none =>
      cases hs
      rfl
    | some r =>
      obtain ⟨r', -, rfl⟩ := Option.map_eq_some_iff.mp hs
      rfl
  | receiver a =>
    obtain ⟨r, rfl, hr⟩ := Option.bind_eq_some_iff.mp hs
    obtain ⟨receiver, -, rfl⟩ := Option.map_eq_some_iff.mp hr
    rfl
  | past i a =>
    obtain ⟨old, -, ho⟩ := Option.bind_eq_some_iff.mp hs
    obtain ⟨receiver, -, rfl⟩ := Option.map_eq_some_iff.mp ho
    simp [ofReception]

/-- The track that follows frames refines the one that follows its slot. -/
theorem refines_slot (kind : Frames.TrackKind) (timestamp : Frames.FrameData P → JsNumber)
    (sid : Option String) (native : NativeTrack) :
    Machine.Refines (Frames.MediaTrack.machine kind timestamp) (slot kind sid native)
      (ofReception native) where
  init := rfl
  step := by
    intro w a w' _ _ hs
    have hs : w.step kind timestamp a = some w' := hs
    cases a with
    | frames options =>
      cases hs
      refine ⟨[.frames options], ?_⟩
      rw [Machine.exec_singleton, ofReception_frames sid]
      rfl
    | end_ =>
      refine ⟨[.endTrack], ?_⟩
      rw [Machine.exec_singleton, ofReception_end native hs]
      rfl
    | _ => exact ⟨[], by rw [ofReception_step native (by nofun) (by nofun) hs]; rfl⟩

end MediaTrack

end VideoNode.Tracks
