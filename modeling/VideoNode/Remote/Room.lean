import VideoNode.Js.Map
import VideoNode.Remote.Participant

/-!
# The remote participants of a Room

`RoomObserverWrap` (`src/video/room_observer_wrap.{h,cpp}`), the participant getters of `RoomWrap`
(`src/video/room_wrap.cpp`) and the event callback of `Room` (`lib/room.ts`) over one undisposed
Room. rtc-cpp's callbacks, the JS thread's reads and every step of every `drain()` interleave
freely; drains of different queues may do so here although one JS thread runs them all. A native
participant is named by its address and reports a SID; what rtc-cpp's collections hold is up to
the environment.
-/

namespace VideoNode.Remote

open VideoNode.Common VideoNode.Lts VideoNode.Js

/-- A native `RemoteParticipant`, by address. -/
abbrev Handle := Nat

/-- Room callbacks that name no participant; `src/video/room_observer_wrap.cpp:131–154,231–237,
249–253`. -/
inductive PlainEvent where
  | disconnected
  | connectFailure
  | reconnecting
  | reconnected
  | recordingStarted
  | recordingStopped
  | transcription
  deriving DecidableEq, Repr

/-- Room events with the participant they are about. -/
inductive RoomEvent where
  | connected
  | participantConnected (p : Handle)
  | participantDisconnected (p : Handle)
  | participantReconnecting (p : Handle)
  | participantReconnected (p : Handle)
  | dominantSpeakerChanged (p : Option Handle)
  | plain (event : PlainEvent)
  deriving DecidableEq, Repr

/-- The participant an event hands to JS. -/
def RoomEvent.participant : RoomEvent → Option Handle
  | .participantConnected p | .participantDisconnected p | .participantReconnecting p
  | .participantReconnected p => some p
  | .dominantSpeakerChanged p => p
  | .connected | .plain _ => none

/-- A callback on the Room's queue, with the position of its event among the Room callbacks and
the observer it has captured. -/
structure Task where
  index : Nat
  event : RoomEvent
  observer : Option Nat
  deriving DecidableEq, Repr

/-- A Room: its native participants, the observer registry, the wrap cache of `RoomWrap`, the
`RemoteParticipant` cache of `Room` (a `RemoteParticipant` is named by the wrap it was made on),
the queue of Room events, and every Room callback raised so far. `holder` records which native
participant a SID was last reported for. -/
structure Room (Sid : Type) where
  participant : Handle → Participant
  holder : Sid → Option Handle
  participantObservers : JsMap Sid (Handle × Nat)
  participantCache : JsMap Sid (Handle × Nat)
  remoteParticipantCache : JsMap Sid (Handle × Nat)
  context : Traffic Task
  raised : List RoomEvent

/-- What the signaling thread and the JS thread do. -/
inductive RoomAct where
  /-- The native Room has these participants at the time. -/
  | onConnected (existing : List Handle)
  | onParticipantConnected (p : Handle)
  | onParticipantDisconnected (p : Handle)
  | onParticipantReconnecting (p : Handle)
  | onParticipantReconnected (p : Handle)
  | onDominantSpeakerChanged (p : Option Handle)
  | onPlain (event : PlainEvent)
  /-- Any callback of `RemoteParticipantObserver`. -/
  | onTrackEvent (p : Handle)
  /-- A step of the `drain()` of Room events; the native Room has these participants at the
  time. -/
  | turn (t : Turn) (participants : List Handle)
  /-- A step of the `drain()` of a wrap. -/
  | participantTurn (p : Handle) (j : Nat) (t : Turn)
  /-- A read of `room.participants` that finds these native participants. -/
  | participants (participants : List Handle)
  /-- A read of `room.dominantSpeaker`. -/
  | dominantSpeaker (p : Option Handle)
  /-- The garbage collector destroys a wrap that no cache refers to. -/
  | collect (p : Handle) (j : Nat)
  deriving DecidableEq, Repr

namespace Room

variable {Sid : Type}

/-- A Room nothing was reported to. -/
def init : Room Sid :=
  { participant := fun _ ↦ .init, holder := fun _ ↦ none, participantObservers := .empty,
    participantCache := .empty, remoteParticipantCache := .empty,
    context := (Traffic.machine Task 0).init, raised := [] }

/-- Update what belongs to one native participant. -/
def modify (s : Room Sid) (p : Handle) (f : Participant → Participant) : Room Sid :=
  { s with participant := Function.update s.participant p (f (s.participant p)) }

/-- `asyncContext_->dispatch` in `dispatchRaw` and `dispatchEvent`;
`src/video/room_observer_wrap.cpp:79–107`. -/
def dispatch (s : Room Sid) (task : Task) : Room Sid :=
  { s with context := (s.context.step (.dispatch task)).getD s.context }

/-- `dispatchEvent` of the next Room callback; `src/video/room_observer_wrap.cpp:93–107`. -/
def dispatchEvent (s : Room Sid) (event : RoomEvent) (observer : Option Nat) : Room Sid :=
  { s.dispatch ⟨s.raised.length, event, observer⟩ with raised := s.raised ++ [event] }

/-- `onConnected`, whose observer for the local participant is not a remote one's;
`src/video/room_observer_wrap.cpp:109–125`. -/
def onConnected (s : Room Sid) (existing : List Handle) : Room Sid :=
  { s with
    participant := fun p ↦
      if p ∈ existing then
        { s.participant p with
          presentAt := (s.participant p).presentAt.or (some (s.participant p).raised) }
      else s.participant p }.dispatchEvent .connected none

variable [DecidableEq Sid] (sid : Handle → Sid)

/-- rtc-cpp names a participant, in a callback or a collection. It names none that has
disconnected. -/
def mention (s : Room Sid) (p : Handle) : Option (Room Sid) :=
  if (s.participant p).gone then none
  else match s.holder (sid p) with
    | none => some { s with holder := Function.update s.holder (sid p) (some p) }
    | some q =>
      if q = p then some s
      else some { s.modify q fun x ↦ { x with superseded := true } with
        holder := Function.update s.holder (sid p) (some p) }

/-- Create, install and register an observer; `src/video/room_observer_wrap.cpp:69–71`. -/
def installObserver (s : Room Sid) (p : Handle) : Room Sid × Nat :=
  let o := (s.participant p).observers.length
  ({ s.modify p Participant.createObserver with
    participantObservers := s.participantObservers.set (sid p) (p, o) }, o)

/-- `src/video/room_observer_wrap.cpp:55–72`. -/
def getOrCreateParticipantObserver (s : Room Sid) (p : Handle) : Room Sid × Nat :=
  match s.participantObservers.get (sid p) with
  | some (q, o) =>
    if q = p ∧ (s.participant p).isObserverClosed o = false then (s, o)
    else installObserver sid
      { s with participantObservers := s.participantObservers.delete (sid p) } p
  | none => installObserver sid s p

/-- A Room callback about a participant dispatches an event that carries the participant's
observer. -/
def dispatchParticipantEvent (s : Room Sid) (p : Handle) (event : RoomEvent) : Room Sid :=
  let observed := getOrCreateParticipantObserver sid s p
  observed.1.dispatchEvent event (some observed.2)

/-- `src/video/room_observer_wrap.cpp:156–165`. -/
def onParticipantConnected (s : Room Sid) (p : Handle) : Room Sid :=
  (dispatchParticipantEvent sid s p (.participantConnected p)).modify p fun x ↦
    { x with connectedAt := x.connectedAt.or (some x.raised) }

/-- `src/video/room_observer_wrap.cpp:217–222`. -/
def onParticipantReconnecting (s : Room Sid) (p : Handle) : Room Sid :=
  dispatchParticipantEvent sid s p (.participantReconnecting p)

/-- `src/video/room_observer_wrap.cpp:224–229`. -/
def onParticipantReconnected (s : Room Sid) (p : Handle) : Room Sid :=
  dispatchParticipantEvent sid s p (.participantReconnected p)

/-- The case of a speaker; `src/video/room_observer_wrap.cpp:239–247`. -/
def onDominantSpeakerChanged (s : Room Sid) (p : Handle) : Room Sid :=
  dispatchParticipantEvent sid s p (.dominantSpeakerChanged (some p))

/-- `ForgetParticipantObserver`; `src/video/room_observer_wrap.cpp:74–77`. -/
def forgetParticipantObserver (s : Room Sid) (p : Handle) : Room Sid :=
  { s with participantObservers := s.participantObservers.delete (sid p) }

/-- The event waits on the participant's own queue first;
`src/video/room_observer_wrap.cpp:167–215`. -/
def onParticipantDisconnected (s : Room Sid) (p : Handle) : Room Sid :=
  let observed := getOrCreateParticipantObserver sid s p
  { (forgetParticipantObserver sid observed.1 p).modify p fun x ↦
      { x.enqueue observed.2 (.raw s.raised.length) with disconnectedAt := some x.raised } with
    raised := s.raised ++ [.participantDisconnected p] }

/-- `_wrapRemoteParticipant` of a wrap; `lib/room.ts:444–453`. -/
def wrapRemoteParticipant (s : Room Sid) (native : Handle × Nat) : Room Sid :=
  match s.remoteParticipantCache.get (sid native.1) with
  | some _ => s
  | none =>
    { s.modify native.1 fun x ↦ x.setEventCallback native.2 with
      remoteParticipantCache := s.remoteParticipantCache.set (sid native.1) native }

/-- `NewInstance` of a participant with the given observer; the wrap is the last one made. -/
def newInstance (s : Room Sid) (p : Handle) (o : Nat) : Room Sid × (Handle × Nat) :=
  (s.modify p fun x ↦ x.newInstance o, (p, (s.participant p).wraps.length))

/-- One entry of a read of `room.participants`, in `GetRemoteParticipants` and then in the getter:
entries have different SIDs, so what either does for one leaves the others alone.
`src/video/room_wrap.cpp:670–702`, `lib/room.ts:347–362`. -/
def readParticipant (s : Room Sid) (p : Handle) : Option (Room Sid) :=
  (mention sid s p).map fun s ↦
    match s.participantCache.get (sid p) with
    | some native => wrapRemoteParticipant sid s native
    | none =>
      let observed := getOrCreateParticipantObserver sid s p
      let made := observed.1.newInstance p observed.2
      wrapRemoteParticipant sid
        { made.1 with participantCache := made.1.participantCache.set (sid p) made.2 } made.2

/-- Reads of `room.participants`, entry by entry. -/
def entries : Machine (Room Sid) Handle := ⟨init, readParticipant sid⟩

/-- A read of `room.dominantSpeaker` that finds a speaker; `src/video/room_wrap.cpp:657–668`,
`lib/room.ts:324–328`. -/
def readDominantSpeaker (s : Room Sid) (p : Handle) : Option (Room Sid) :=
  (mention sid s p).map fun s ↦
    let observed := getOrCreateParticipantObserver sid s p
    let made := observed.1.newInstance p observed.2
    wrapRemoteParticipant sid made.1 made.2

/-- A callback on the Room's queue, up to and including the listeners it calls: the JS thread
seeds the existing participants when `connected` arrives, and wraps the participant of any other
event. `src/video/room_observer_wrap.cpp:93–107,200–212`, `lib/room.ts:254–291,425–433`. -/
def deliver (s : Room Sid) (task : Task) (participants : List Handle) : Option (Room Sid) :=
  match task.event, task.observer with
  | .connected, _ => (entries sid).exec s participants
  | .participantDisconnected p, some o =>
    let made := s.newInstance p o
    some (wrapRemoteParticipant sid
      { made.1 with participantCache := made.1.participantCache.delete (sid p) } made.2)
  | event, observer =>
    match event.participant, observer with
    | some p, some o =>
      let made := s.newInstance p o
      some (wrapRemoteParticipant sid made.1 made.2)
    | _, _ => some s

/-- What the event callback does once the listeners have returned; a listener that throws skips
it. `lib/room.ts:275–278`. -/
def afterEmit (s : Room Sid) (task : Task) : Room Sid :=
  match task.event with
  | .participantDisconnected p =>
    { s with remoteParticipantCache := s.remoteParticipantCache.delete (sid p) }
  | _ => s

/-- A step of the `drain()` of Room events. -/
def turn (s : Room Sid) (t : Turn) (participants : List Handle) : Option (Room Sid) :=
  (s.context.step (.turn t)).bind fun context ↦
    match t, s.context.loop.starts, s.context.loop.drain with
    | .next, some task, _ => deliver sid { s with context := context } task participants
    | .returned, _, .calling task _ => some (afterEmit sid { s with context := context } task)
    | _, _, _ => some { s with context := context }

/-- A step of the `drain()` of a participant's wrap. A hop that starts there puts the
`participantDisconnected` on the Room's queue, with the observer it was delivered through. -/
def participantTurn (s : Room Sid) (p : Handle) (j : Nat) (t : Turn) : Option (Room Sid) :=
  ((s.participant p).turn j t).map fun turned ↦
    let s' := s.modify p fun _ ↦ turned.1
    match turned.2 with
    | none => s'
    | some (i, o) => s'.dispatch ⟨i, .participantDisconnected p, some o⟩

/-- One step of one thread. -/
def step (s : Room Sid) : RoomAct → Option (Room Sid)
  | .onConnected existing => some (s.onConnected existing)
  | .onParticipantConnected p => (mention sid s p).map fun s ↦ onParticipantConnected sid s p
  | .onParticipantDisconnected p =>
    (mention sid s p).map fun s ↦ onParticipantDisconnected sid s p
  | .onParticipantReconnecting p =>
    (mention sid s p).map fun s ↦ onParticipantReconnecting sid s p
  | .onParticipantReconnected p => (mention sid s p).map fun s ↦ onParticipantReconnected sid s p
  | .onDominantSpeakerChanged none => some (s.dispatchEvent (.dominantSpeakerChanged none) none)
  | .onDominantSpeakerChanged (some p) =>
    (mention sid s p).map fun s ↦ onDominantSpeakerChanged sid s p
  | .onPlain event => some (s.dispatchEvent (.plain event) none)
  | .onTrackEvent p => some (s.modify p Participant.raise)
  | .turn t participants => turn sid s t participants
  | .participantTurn p j t => s.participantTurn p j t
  | .participants participants => (entries sid).exec s participants
  | .dominantSpeaker none => some s
  | .dominantSpeaker (some p) => readDominantSpeaker sid s p
  | .collect p j =>
    if s.remoteParticipantCache.get (sid p) = some (p, j) ∨
        s.participantCache.get (sid p) = some (p, j) then none
    else ((s.participant p).destroyWrap j).map fun x ↦ s.modify p fun _ ↦ x

/-- A Room and everything that can happen to it. -/
def machine : Machine (Room Sid) RoomAct := ⟨init, step sid⟩

/-- The positions of the Room callbacks in the order their events reached JS. -/
def emitted (s : Room Sid) : List Nat := s.context.started.map Task.index

/-- How often `participantDisconnected` was emitted for a participant. -/
def disconnects (s : Room Sid) (p : Handle) : Nat :=
  s.context.started.countP fun t ↦ t.event = .participantDisconnected p

/-- The events of a participant that reached the event callback of any of its wraps. -/
def received (s : Room Sid) (p : Handle) : List Nat := (s.participant p).wraps.flatMap Wrap.received

/-- No drain is running, and nothing is queued, on the Room or on any wrap of the participant. -/
structure Drained (s : Room Sid) (p : Handle) : Prop where
  room : s.context.loop.drain = .idle ∧ s.context.loop.ctx.queue = []
  wraps : ∀ w ∈ (s.participant p).wraps,
    w.context.loop.drain = .idle ∧ w.context.loop.ctx.queue = []

instance (s : Room Sid) (p : Handle) : Decidable (Drained s p) :=
  decidable_of_iff ((s.context.loop.drain = .idle ∧ s.context.loop.ctx.queue = []) ∧
    ∀ w ∈ (s.participant p).wraps, w.context.loop.drain = .idle ∧ w.context.loop.ctx.queue = [])
    ⟨fun h ↦ ⟨h.1, h.2⟩, fun h ↦ ⟨h.1, h.2⟩⟩

/-- A whole `drain()` of Room events that starts so many callbacks, whose listeners return. -/
def drainRun (n : Nat) (participants : List Handle) : List RoomAct :=
  [.turn .onAsync [], .turn .swap []] ++
    (List.replicate n [RoomAct.turn .next participants, .turn .returned []]).flatten ++
    [.turn .next []]

/-- A whole `drain()` of a wrap that starts so many callbacks, whose listeners return. -/
def participantDrainRun (p : Handle) (j n : Nat) : List RoomAct :=
  [.participantTurn p j .onAsync, .participantTurn p j .swap] ++
    (List.replicate n
      [RoomAct.participantTurn p j .next, .participantTurn p j .returned]).flatten ++
    [.participantTurn p j .next]

end Room

end VideoNode.Remote
