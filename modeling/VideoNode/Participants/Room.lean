import VideoNode.Js.Emitter
import VideoNode.Lts.Machine
import VideoNode.Tracks.Registry

/-!
# The participants of a Room, as JavaScript sees them

`Room` of `lib/room.ts` and `RemoteParticipant` of `lib/remote_participant.ts` as event emitters:
the wrappers cached by SID, the listeners that carry track events from a participant to the Room,
the track registry, and what the callbacks of the native layer do with them. The Room is not
disposed. What a listener of the application does, and how it ends, is part of the event that
calls it; listeners are added and removed between events. Native objects, and records the native
layer sends that are only passed on, are named by numbers.
-/

namespace VideoNode.Participants

open VideoNode.Js VideoNode.Lts VideoNode.Tracks

/-- A native participant object. -/
abbrev NativeParticipant := Nat

/-- A record or value of the native layer that is passed on. -/
abbrev Payload := Nat

/-- What the native layer answers for its objects; none of it changes. -/
structure Natives where
  sid : NativeParticipant → String
  trackSid : NativeTrack → String
  kind : NativeTrack → NativeKind

/-- `sid` of a native track, as the registry reads it. -/
def Natives.trackSid? (N : Natives) (n : NativeTrack) : Option String := some (N.trackSid n)

/-- `BUBBLED_TRACK_EVENTS`; `lib/room.ts:207–217`. -/
inductive TrackEvent where
  | trackSubscribed
  | trackUnsubscribed
  | trackSubscriptionFailed
  | trackPublished
  | trackUnpublished
  | trackEnabled
  | trackDisabled
  | videoTrackSwitchedOff
  | videoTrackSwitchedOn
  deriving DecidableEq, Repr

/-- `BUBBLED_TRACK_EVENTS`, in its order. -/
def bubbledTrackEvents : List TrackEvent :=
  [.trackSubscribed, .trackUnsubscribed, .trackSubscriptionFailed, .trackPublished,
    .trackUnpublished, .trackEnabled, .trackDisabled, .videoTrackSwitchedOff,
    .videoTrackSwitchedOn]

/-- `RemoteParticipantEvents`; `lib/remote_participant.ts:64–150`. -/
inductive ParticipantEvent where
  | track (e : TrackEvent)
  | networkQualityLevelChanged
  deriving DecidableEq, Repr

/-- `PARTICIPANT_EVENTS`; `lib/room.ts:194–200`. -/
inductive PresenceEvent where
  | participantConnected
  | participantDisconnected
  | participantReconnecting
  | participantReconnected
  | dominantSpeakerChanged
  deriving DecidableEq, Repr

/-- The Room events that concern no participant. -/
inductive PlainEvent where
  | connectFailure
  | reconnecting
  | reconnected
  | recordingStarted
  | recordingStopped
  | transcription
  deriving DecidableEq, Repr

/-- `RoomEvents`; `lib/room.ts:25–192`. -/
inductive RoomEvent where
  | presence (e : PresenceEvent)
  | disconnected
  | plain (e : PlainEvent)
  | track (e : TrackEvent)
  deriving DecidableEq, Repr

/-- An argument of an emit. Participants and tracks are named by their positions; an `error` is
made by `liftTwilioError` and a `publication` by `remoteTrackPublicationFor`. -/
inductive Arg where
  | participant (p : Nat)
  | track (w : Nat)
  | publication (raw : Payload)
  | error (raw : Option Payload)
  | data (raw : Payload)
  | room
  | null
  | undefined
  deriving DecidableEq, Repr

/-- What is made of a value, and `undefined` without one. -/
def Arg.ofData (f : Payload → Arg) (data : Option Payload) : Arg := data.elim .undefined f

/-- `data ? liftTwilioError(data) : undefined`. -/
def Arg.ofError (data : Option Payload) : Arg := data.elim .undefined fun raw ↦ .error (some raw)

/-- Who listens on a participant: the Room, or the application. -/
inductive ParticipantListener where
  /-- The function made in `_bubbleTrackEvents`; `lib/room.ts:438–440`. -/
  | bubble
  | application (n : Nat)
  deriving DecidableEq, Repr

/-- Members of `RemoteParticipant`, and whether `dispose()` was called. -/
structure RemoteParticipant where
  native : NativeParticipant
  listeners : Emitter ParticipantEvent ParticipantListener
  disposed : Bool
  deriving DecidableEq, Repr

/-- What happened, in order. `left` says that `participantDisconnected` has been handled. -/
inductive Entry where
  /-- A participant was mentioned by its SID, and this wrapper was handed out for it. -/
  | mention (sid : String) (p : Nat)
  /-- An emit on a participant. -/
  | raise (sid : String) (p : Nat) (e : ParticipantEvent) (args : List Arg)
  /-- An emit on the Room. -/
  | emit (e : RoomEvent) (args : List Arg)
  | left (sid : String)
  deriving DecidableEq, Repr

/-- The wrappers ever made, `_remoteParticipantCache`, the native callbacks that call into a
wrapper, the Room's listeners and `_tracks`. -/
structure Room where
  participants : List RemoteParticipant
  remoteParticipantCache : JsMap String Nat
  eventCallbacks : JsMap NativeParticipant Nat
  listeners : Emitter RoomEvent Nat
  tracks : TrackRegistry
  log : List Entry

/-- What the application calls on the Room, or on a track it holds. -/
inductive Use where
  /-- `room.participants`, with what the native Room answers. -/
  | participants (natives : List NativeParticipant)
  | remoteParticipants (natives : List NativeParticipant)
  | dominantSpeaker (native : Option NativeParticipant)
  | frames (w : Nat) (options : JsValue) (attachFrameSink : NativeCall)
  | listen (w : Nat) (onMessage : NativeCall)
  | returnIterator (w r : Nat) (calls : EndCalls)

/-- What a listener of the application does when it is called. -/
structure Reaction where
  uses : List Use
  ends : Completion

/-- The reactions of the application's listeners, by their names. -/
abbrev Behavior := Nat → Reaction

namespace Room

/-- A new Room. -/
def create : Room := ⟨[], .empty, .empty, .empty, .empty, []⟩

/-- One more entry. -/
def record (s : Room) (entry : Entry) : Room := { s with log := s.log ++ [entry] }

/-- `_bubbleTrackEvents(participant)` on a new participant; `lib/room.ts:435–442`. -/
def bubbleTrackEvents : Emitter ParticipantEvent ParticipantListener :=
  bubbledTrackEvents.foldl (fun m e ↦ m.on (.track e) .bubble) .empty

/-- `new RemoteParticipant(native, …)`, made to bubble; `lib/room.ts:448–449`. -/
def newParticipant (n : NativeParticipant) : RemoteParticipant := ⟨n, bubbleTrackEvents, false⟩

variable (N : Natives)

/-- `_wrapRemoteParticipant(native)`; `lib/room.ts:444–453`. -/
def wrapRemoteParticipant (s : Room) (n : NativeParticipant) : Room × Nat :=
  match s.remoteParticipantCache.get (N.sid n) with
  | some p => (s.record (.mention (N.sid n) p), p)
  | none =>
    let p := s.participants.length
    ({ s with
      participants := s.participants ++ [newParticipant n]
      eventCallbacks := s.eventCallbacks.set n p
      remoteParticipantCache := s.remoteParticipantCache.set (N.sid n) p }.record
        (.mention (N.sid n) p), p)

/-- `participants`; `lib/room.ts:347–363`. -/
def readParticipants (s : Room) (natives : List NativeParticipant) : Room × JsMap String Nat :=
  natives.foldl (fun (s, map) n ↦
    let (s, p) := s.wrapRemoteParticipant N n
    (s, map.set (N.sid n) p)) (s, .empty)

/-- `remoteParticipants`; `lib/room.ts:365–367`. -/
def readRemoteParticipants (s : Room) (natives : List NativeParticipant) : Room × List Nat :=
  let (s, map) := s.readParticipants N natives
  (s, map.entries.map Prod.snd)

/-- `dominantSpeaker`; `lib/room.ts:324–328`. -/
def dominantSpeaker (s : Room) (native : Option NativeParticipant) : Room × Option Nat :=
  match native with
  | none => (s, none)
  | some n =>
    let (s, p) := s.wrapRemoteParticipant N n
    (s, some p)

/-- `_seedExistingParticipants()`; `lib/room.ts:429–433`. -/
def seedExistingParticipants (s : Room) (natives : List NativeParticipant) : Room :=
  natives.foldl (fun s n ↦ (s.wrapRemoteParticipant N n).1) s

/-- A call on a track wrapper. -/
def onTrack (s : Room) (w : Nat) (f : RemoteTrack → RemoteTrack) : Room :=
  { s with tracks := s.tracks.modify w f }

/-- A call of the application. -/
def use (s : Room) : Use → Room
  | .participants natives => (s.readParticipants N natives).1
  | .remoteParticipants natives => (s.readRemoteParticipants N natives).1
  | .dominantSpeaker native => (s.dominantSpeaker N native).1
  | .frames w options attachFrameSink =>
    let sid := (s.tracks.tracks[w]?).map fun t ↦ N.trackSid t.native
    s.onTrack w fun t ↦ t.frames sid options attachFrameSink
  | .listen w onMessage => s.onTrack w fun t ↦ t.listen onMessage
  | .returnIterator w r calls => s.onTrack w fun t ↦ t.returnIterator r calls

variable (b : Behavior)

/-- A listener of the application is called. -/
def react (n : Nat) (s : Room) : Room × Completion :=
  ((b n).uses.foldl (use N) s, (b n).ends)

/-- The Room's listeners. -/
def slot : Emitter.Slot Room RoomEvent Nat where
  read s := s.listeners
  write s m := { s with listeners := m }

/-- `emit(event, …)` on the Room. -/
def emit (e : RoomEvent) (args : List Arg) (s : Room) : Room × Completion :=
  Emitter.emit slot (react N b) e (s.record (.emit e args))

/-- The listeners of a participant. -/
def participantSlot (p : Nat) : Emitter.Slot Room ParticipantEvent ParticipantListener where
  read s := (s.participants[p]?).elim .empty RemoteParticipant.listeners
  write s m :=
    { s with participants := s.participants.modify p fun x ↦ { x with listeners := m } }

/-- A listener of a participant is called; the Room's one re-emits with the participant behind
the arguments, `lib/room.ts:438–440`. -/
def notify (p : Nat) (e : ParticipantEvent) (args : List Arg) :
    ParticipantListener → Room → Room × Completion
  | .bubble, s =>
    match e with
    | .track e => s.emit N b (.track e) (args ++ [.participant p])
    | .networkQualityLevelChanged => (s, .returned)
  | .application n, s => s.react N b n

/-- `emit(event, …)` on a participant. -/
def emitParticipant (p : Nat) (e : ParticipantEvent) (args : List Arg) (s : Room) :
    Room × Completion :=
  let sid := (s.participants[p]?).elim "" fun x ↦ N.sid x.native
  Emitter.emit (participantSlot p) (notify N b p e args) e (s.record (.raise sid p e args))

/-- `dispose()` of a participant; `lib/remote_participant.ts:269–271`. -/
def disposeParticipant (s : Room) (p : Nat) : Room :=
  { s with participants := s.participants.modify p fun x ↦
    { x with listeners := x.listeners.removeAllListeners, disposed := true } }

end Room

/-- An event of a native participant, with its data. The events of one publication are told apart
by `PUBLICATION_EVENTS`, those of one track by `TRACK_OBJECT_EVENTS`. -/
inductive NativeParticipantEvent where
  | trackSubscriptionFailed (error publication : Option Payload)
  | trackSubscribed (track : NativeTrack) (publication : Payload)
  | trackUnsubscribed (track : NativeTrack) (publication : Payload)
  | trackPublished (publication : Option Payload)
  | trackUnpublished (publication : Option Payload)
  | trackEnabled (publication : Option Payload)
  | trackDisabled (publication : Option Payload)
  | videoTrackSwitchedOff (track : NativeTrack)
  | videoTrackSwitchedOn (track : NativeTrack)
  | networkQualityLevelChanged (level : Payload)
  deriving DecidableEq, Repr

/-- An event of the native Room, with its data. -/
inductive NativeRoomEvent where
  /-- With what the native Room answers for its participants. -/
  | connected (natives : List NativeParticipant)
  | presence (e : PresenceEvent) (data : Option NativeParticipant)
  | disconnected (error : Option Payload)
  | plain (e : PlainEvent) (data : Option Payload)
  deriving DecidableEq, Repr

namespace Room

variable (N : Natives) (b : Behavior)

/-- How a native call ends, for the caller of the function that makes it. -/
def ending : NativeCall → Completion
  | .ok () => .returned
  | .error _ => .threw

/-- `registry.wrapRemoteTrack(track)`. -/
def wrapTrack (calls : Nat → EndCalls) (s : Room) (n : NativeTrack) :
    Room × Except JsError Nat :=
  let r := s.tracks.wrapRemoteTrack N.trackSid? N.kind calls n
  ({ s with tracks := r.1 }, r.2)

/-- `registry.releaseRemoteTrack(wrapped.sid)`. -/
def releaseTrack (calls : Nat → EndCalls) (s : Room) (w : Nat) : Room × Completion :=
  let sid := (s.tracks.tracks[w]?).map fun t ↦ N.trackSid t.native
  let r := s.tracks.releaseRemoteTrack calls sid
  ({ s with tracks := r.1 }, ending r.2)

/-- An event whose sole argument is a publication. -/
def onPublication (p : Nat) (e : TrackEvent) (publication : Option Payload) (s : Room) :
    Room × Completion :=
  match publication with
  | none => (s, .returned)
  | some raw => s.emitParticipant N b p (.track e) [.publication raw]

/-- An event whose first argument is the wrapper of a track. -/
def onTrackObject (calls : Nat → EndCalls) (p : Nat) (e : TrackEvent) (n : NativeTrack)
    (publication : List Arg) (s : Room) : Room × Completion :=
  match s.wrapTrack N calls n with
  | (s, .error _) => (s, .threw)
  | (s, .ok w) => s.emitParticipant N b p (.track e) (.track w :: publication)

/-- `trackUnsubscribed`; `lib/remote_participant.ts:180–196`. -/
def onTrackUnsubscribed (wrapCalls releaseCalls : Nat → EndCalls) (p : Nat) (n : NativeTrack)
    (publication : Payload) (s : Room) : Room × Completion :=
  match s.wrapTrack N wrapCalls n with
  | (s, .error _) => (s, .threw)
  | (s, .ok w) =>
    match s.emitParticipant N b p (.track .trackUnsubscribed)
      [.track w, .publication publication] with
    | (s, .threw) => (s, .threw)
    | (s, .returned) => s.releaseTrack N releaseCalls w

/-- The callback of a native participant; `lib/remote_participant.ts:169–206`. `wrapCalls` and
`releaseCalls` are the outcomes of the native calls of the wrappers that end. -/
def onParticipantEvent (wrapCalls releaseCalls : Nat → EndCalls) (p : Nat) (s : Room) :
    NativeParticipantEvent → Room × Completion
  | .trackSubscriptionFailed error publication =>
    s.emitParticipant N b p (.track .trackSubscriptionFailed)
      [.error error, .ofData .publication publication]
  | .trackSubscribed track publication =>
    s.onTrackObject N b wrapCalls p .trackSubscribed track [.publication publication]
  | .trackUnsubscribed track publication =>
    s.onTrackUnsubscribed N b wrapCalls releaseCalls p track publication
  | .trackPublished publication => s.onPublication N b p .trackPublished publication
  | .trackUnpublished publication => s.onPublication N b p .trackUnpublished publication
  | .trackEnabled publication => s.onPublication N b p .trackEnabled publication
  | .trackDisabled publication => s.onPublication N b p .trackDisabled publication
  | .videoTrackSwitchedOff track => s.onTrackObject N b wrapCalls p .videoTrackSwitchedOff track []
  | .videoTrackSwitchedOn track => s.onTrackObject N b wrapCalls p .videoTrackSwitchedOn track []
  | .networkQualityLevelChanged level =>
    s.emitParticipant N b p .networkQualityLevelChanged [.data level]

/-- What the Room does behind a `participantDisconnected` nobody threw on; `lib/room.ts:276–277`. -/
def forget (s : Room) (p : Nat) : Room :=
  let sid := (s.participants[p]?).elim "" fun x ↦ N.sid x.native
  let s := s.disposeParticipant p
  { s with remoteParticipantCache := s.remoteParticipantCache.delete sid }

/-- `PARTICIPANT_EVENTS`; `lib/room.ts:272–278`. -/
def onPresenceEvent (e : PresenceEvent) (data : Option NativeParticipant) (s : Room) :
    Room × Completion :=
  match data with
  | none => s.emit N b (.presence e) [.null]
  | some n =>
    let (s, p) := s.wrapRemoteParticipant N n
    match s.emit N b (.presence e) [.participant p] with
    | (s, .threw) => (s, .threw)
    | (s, .returned) => (if e = .participantDisconnected then s.forget N p else s, .returned)

/-- What an event of its own is emitted with; `lib/room.ts:284–290`. -/
def plainArg (e : PlainEvent) (data : Option Payload) : Arg :=
  match e with
  | .connectFailure => .error data
  | .reconnecting => .ofError data
  | .reconnected | .recordingStarted | .recordingStopped | .transcription => .ofData .data data

/-- The callback of the native Room; `lib/room.ts:254–291`. -/
def onRoomEvent (releaseCalls : Nat → EndCalls) (s : Room) :
    NativeRoomEvent → Room × Completion
  | .connected natives => (s.seedExistingParticipants N natives, .returned)
  | .presence e data => s.onPresenceEvent N b e data
  | .disconnected error =>
    let r := s.tracks.releaseAllRemoteTracks releaseCalls
    match r.2 with
    | .error _ => ({ s with tracks := r.1 }, .threw)
    | .ok () => { s with tracks := r.1 }.emit N b .disconnected [.room, .ofError error]
  | .plain e data => s.emit N b (.plain e) [plainArg e data]

end Room

/-- How a listener is added. -/
inductive Adding where
  | on
  | once
  | prependListener
  | prependOnceListener
  deriving DecidableEq, Repr

/-- The method of the name. -/
def Adding.add {E F : Type} (how : Adding) (m : Emitter E F) (event : E) (listener : F) :
    Emitter E F :=
  match how with
  | .on => m.on event listener
  | .once => m.once event listener
  | .prependListener => m.prependListener event listener
  | .prependOnceListener => m.prependOnceListener event listener

/-- What happens to a Room. -/
inductive Act where
  /-- The native Room calls back. -/
  | room (ev : NativeRoomEvent) (b : Behavior) (releaseCalls : Nat → EndCalls)
  /-- A native participant calls back. -/
  | participant (n : NativeParticipant) (ev : NativeParticipantEvent) (b : Behavior)
    (wrapCalls releaseCalls : Nat → EndCalls)
  | use (u : Use)
  | listen (how : Adding) (e : RoomEvent) (n : Nat)
  | removeListener (e : RoomEvent) (n : Nat)
  | listenParticipant (p : Nat) (how : Adding) (e : ParticipantEvent) (n : Nat)
  | removeParticipantListener (p : Nat) (e : ParticipantEvent) (n : Nat)

namespace Room

variable (N : Natives)

/-- A call of an emitter method on a participant. -/
def onListeners (s : Room) (p : Nat)
    (f : Emitter ParticipantEvent ParticipantListener →
      Emitter ParticipantEvent ParticipantListener) : Room :=
  { s with participants := s.participants.modify p fun x ↦ { x with listeners := f x.listeners } }

/-- `participantDisconnected` was handled, and of whom. -/
def leaver : NativeRoomEvent → Option NativeParticipant
  | .presence .participantDisconnected data => data
  | _ => none

/-- One step; a native participant without a callback drops its events. -/
def step (s : Room) : Act → Option Room
  | .room ev b releaseCalls =>
    let t := (s.onRoomEvent N b releaseCalls ev).1
    some ((leaver ev).elim t fun n ↦ t.record (.left (N.sid n)))
  | .participant n ev b wrapCalls releaseCalls =>
    (s.eventCallbacks.get n).map fun p ↦
      (s.onParticipantEvent N b wrapCalls releaseCalls p ev).1
  | .use u => some (s.use N u)
  | .listen how e n => some { s with listeners := how.add s.listeners e n }
  | .removeListener e n => some { s with listeners := s.listeners.removeListener e n }
  | .listenParticipant p how e n => some (s.onListeners p fun m ↦ how.add m e (.application n))
  | .removeParticipantListener p e n =>
    some (s.onListeners p fun m ↦ m.removeListener e (.application n))

/-- A new Room, and everything that can happen to it. -/
def machine : Machine Room Act where
  init := create
  step := step N

end Room

end VideoNode.Participants
