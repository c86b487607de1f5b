import VideoNode.Js.Map
import VideoNode.Local.DataTrack

/-!
# Rooms and the tracks they publish

`lib/local_participant.ts` and the parts of `lib/room.ts` that count a data track as published.
Every Room keeps its own map of the data tracks it ever counted; the count itself is a member
of the native track, shared by all Rooms.
-/

namespace VideoNode.Local

open VideoNode.Js VideoNode.Common VideoNode.Lts

/-- The kinds of local track. -/
inductive LocalKind where
  | video
  | audio
  | data
  deriving DecidableEq, Repr

/-- `kind` of a track. -/
def LocalKind.text : LocalKind → String
  | .video => "video"
  | .audio => "audio"
  | .data => "data"

/-- A local track object: two objects are the same when all of this is. -/
structure LocalTrack where
  id : Nat
  kind : LocalKind
  name : String
  deriving DecidableEq, Repr

/-- The native side of every track object. -/
abbrev Tracks := LocalTrack → TrackSends

/-- `RoomDataTracks`; `lib/local_participant.ts:27`. -/
abbrev RoomDataTracks := JsMap LocalTrack Bool

/-- Call a method of one track that settles nothing. -/
def Tracks.call (ts : Tracks) (track : LocalTrack)
    (method : LocalDataTrackWrap → LocalDataTrackWrap) : Tracks :=
  Function.update ts track { ts track with wrap := method (ts track).wrap }

/-- `_settlePendingIfUnpublished` of one track. -/
def Tracks.settle (ts : Tracks) (track : LocalTrack) (error : String) : Tracks :=
  Function.update ts track
    ((ts track).apply ((ts track).wrap.settlePendingIfUnpublished error))

/-- `lib/local_participant.ts:30–35`. -/
def markPublished (dataTracks : RoomDataTracks) (ts : Tracks) (track : LocalTrack) :
    RoomDataTracks × Tracks :=
  if track.kind ≠ .data ∨ dataTracks.get track = some true then (dataTracks, ts)
  else (dataTracks.set track true, ts.call track .attachRoom)

/-- `lib/local_participant.ts:37–42`. -/
def markUnpublished (dataTracks : RoomDataTracks) (ts : Tracks) (track : LocalTrack) :
    RoomDataTracks × Tracks :=
  if dataTracks.get track = some true then
    (dataTracks.set track false, ts.call track .detachRoom)
  else (dataTracks, ts)

/-- Members of `LocalParticipant` that the publishing paths use. -/
structure LocalParticipant where
  publishedTracks : JsMap String LocalTrack

namespace LocalParticipant

/-- `_assertUniqueName`; `lib/local_participant.ts:240–247`. -/
def assertUniqueName (p : LocalParticipant) (track : LocalTrack) : Except JsError Unit :=
  match p.publishedTracks.get track.name with
  | some existing =>
    if existing = track then .ok ()
    else .error ⟨.error, "A different track named \"" ++ track.name ++
      "\" is already published. Track names must be unique.", none⟩
  | none => .ok ()

/-- The seeding loop of the constructor; `lib/local_participant.ts:102–105`. -/
def seed (p : LocalParticipant) : List LocalTrack → Except JsError LocalParticipant
  | [] => .ok p
  | track :: seeded => do
    p.assertUniqueName track
    seed { p with publishedTracks := p.publishedTracks.set track.name track } seeded

end LocalParticipant

/-- Members of `Room` that the publishing paths use. `participant` is the object the
application may still hold after `dispose()`. -/
structure Room where
  seededTracks : List LocalTrack
  dataTracks : RoomDataTracks
  participant : Option LocalParticipant
  disposed : Bool

namespace Room

/-- The constructor; `lib/room.ts:244–252`. -/
def construct (seeded : List LocalTrack) (ts : Tracks) : Room × Tracks :=
  let marked := seeded.foldl (fun s track ↦ markPublished s.1 s.2 track) (.empty, ts)
  (⟨seeded, marked.1, none, false⟩, marked.2)

-- A disposed Room has no native local participant left to register a callback with.
/-- The `localParticipant` getter; `lib/room.ts:331–340`. -/
def localParticipant (r : Room) : Except JsError Room :=
  match r.participant, r.disposed with
  | some _, false => .ok r
  | _, _ => do
    let p ← LocalParticipant.seed ⟨.empty⟩ r.seededTracks
    if r.disposed then
      .error ⟨.typeError, "Cannot read properties of undefined (reading 'setEventCallback')", none⟩
    else .ok { r with participant := some p }

/-- `publishTrack`; `lib/local_participant.ts:211–218`. `result` is what the native call
returns. -/
def publishTrack (r : Room) (p : LocalParticipant) (ts : Tracks) (track : LocalTrack)
    (result : Bool) : Except JsError (Room × Tracks × Bool) := do
  p.assertUniqueName track
  if result then
    let published := p.publishedTracks.set track.name track
    let marked := markPublished r.dataTracks ts track
    .ok ({ r with participant := some ⟨published⟩, dataTracks := marked.1 }, marked.2, true)
  else .ok (r, ts, false)

/-- `unpublishTrack`; `lib/local_participant.ts:227–234`. -/
def unpublishTrack (r : Room) (p : LocalParticipant) (ts : Tracks) (track : LocalTrack)
    (result : Bool) : Room × Tracks × Bool :=
  if result then
    let published := p.publishedTracks.delete track.name
    let marked := markUnpublished r.dataTracks ts track
    ({ r with participant := some ⟨published⟩, dataTracks := marked.1 }, marked.2, true)
  else (r, ts, false)

/-- The `trackPublicationFailed` event up to its `emit`, with the track the listeners get;
`lib/local_participant.ts:108–125`. An empty name is no name. -/
def trackPublicationFailed (r : Room) (p : LocalParticipant) (ts : Tracks)
    (trackName : Option String) : Room × Tracks × Option LocalTrack :=
  match trackName.filter (· ≠ "") with
  | none => (r, ts, none)
  | some name =>
    let failedTrack := p.publishedTracks.get name
    let r := { r with participant := some ⟨p.publishedTracks.delete name⟩ }
    match failedTrack with
    | none => (r, ts, none)
    | some track =>
      if track.kind = .data then
        let marked := markUnpublished r.dataTracks ts track
        ({ r with dataTracks := marked.1 },
          marked.2.settle track "Data track publication failed before the send completed",
          some track)
      else (r, ts, some track)

/-- `dispose()`; `lib/room.ts:402–423`. -/
def dispose (r : Room) (ts : Tracks) : Room × Tracks :=
  let visit (published : Bool) (t : TrackSends) : TrackSends :=
    let t := if published then { t with wrap := t.wrap.detachRoom } else t
    t.apply (t.wrap.settlePendingIfUnpublished "Room was disposed before the send completed")
  ({ r with
      participant := r.participant.map fun _ ↦ ⟨.empty⟩
      dataTracks := .empty
      disposed := true }, r.dataTracks.forEach visit ts)

end Room

end VideoNode.Local
