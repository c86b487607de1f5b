import VideoNode.Lts.Machine
import VideoNode.Tracks.Registry

/-!
# Subscriptions to remote tracks

The track callbacks of `RemoteParticipantObserverImpl` and the track getters of
`RemoteParticipantWrap` (`src/video/remote_participant_wrap.cpp`), the event callback of
`RemoteParticipant` (`lib/remote_participant.ts`) and the track registry of the Room. A callback
of rtc-cpp changes what is subscribed at once and queues an event, which JS handles later; a read
of a track collection finds what is subscribed at the time. Listeners run between the two steps
of the handling of an event and may do whatever the application may.
-/

namespace VideoNode.Tracks

open VideoNode.Js VideoNode.Lts

/-- `PUBLICATION_EVENTS`; `lib/remote_participant.ts:34–39`. -/
inductive PublicationEvent where
  | trackPublished
  | trackUnpublished
  | trackEnabled
  | trackDisabled
  deriving DecidableEq, Repr

/-- `TRACK_OBJECT_EVENTS`; `lib/remote_participant.ts:31`. -/
inductive TrackObjectEvent where
  | videoTrackSwitchedOff
  | videoTrackSwitchedOn
  deriving DecidableEq, Repr

/-- An event with the native track its payload carries; a publication has one while it is
subscribed. -/
inductive TrackEvent where
  | trackSubscribed (track : NativeTrack) (isSubscribed : Bool)
  | trackUnsubscribed (track : NativeTrack) (isSubscribed : Bool)
  | publication (event : PublicationEvent) (track : Option NativeTrack)
  | trackObject (event : TrackObjectEvent) (track : NativeTrack)
  deriving DecidableEq, Repr

namespace TrackEvent

/-- The native track in the payload. -/
def track : TrackEvent → Option NativeTrack
  | .trackSubscribed n _ | .trackUnsubscribed n _ | .trackObject _ n => some n
  | .publication _ track => track

/-- The event is a `trackUnsubscribed`. -/
def isUnsubscribed : TrackEvent → Bool
  | .trackUnsubscribed _ _ => true
  | _ => false

/-- The native track and the wrapper of a `trackSubscribed`. -/
def hands : TrackEvent → Option Nat → List (NativeTrack × Nat)
  | .trackSubscribed n _, some w => [(n, w)]
  | _, _ => []

end TrackEvent

/-- What the remote participants of one Room are subscribed to, their events that are not handled
yet (the one being handled comes first), and the registry. `handling` is the participant whose
event is being handled, with the wrapper its listeners get. `handed` records which wrapper the
listeners of each `trackSubscribed` got for which native track. -/
structure Subscriptions where
  subscribed : Nat → List NativeTrack
  queue : Nat → List TrackEvent
  handling : Option (Nat × Option Nat)
  registry : TrackRegistry
  handed : List (NativeTrack × Nat)

/-- What the signaling thread and the JS thread do; `calls` says how native calls end. -/
inductive SubscriptionAct where
  | onTrackSubscribed (n : NativeTrack)
  | onTrackUnsubscribed (n : NativeTrack)
  | onPublicationEvent (p : Nat) (event : PublicationEvent) (track : Option NativeTrack)
  | onTrackObjectEvent (event : TrackObjectEvent) (n : NativeTrack)
  /-- The event callback runs up to the listeners. -/
  | deliver (p : Nat) (calls : Nat → EndCalls)
  /-- The listeners have returned. -/
  | emitted (calls : Nat → EndCalls)
  /-- A read of `videoTracks`, `audioTracks` or `dataTracks`; `tracks` reads all three. -/
  | tracks (p : Nat) (c : NativeKind) (calls : Nat → EndCalls)
  | frames (w : Nat) (options : JsValue) (attachFrameSink : NativeCall)
  | listen (w : Nat) (onMessage : NativeCall)
  | returnIterator (w : Nat) (r : Nat) (calls : EndCalls)
  /-- `'disconnected'` or `Room.dispose()`; `lib/room.ts:282,413`. -/
  | releaseAll (calls : Nat → EndCalls)

namespace Subscriptions

/-- A Room without subscriptions. -/
def init : Subscriptions := ⟨fun _ ↦ [], fun _ ↦ [], none, .empty, []⟩

/-- `dispatchEvent`; `src/video/remote_participant_wrap.cpp:251–256`. -/
def dispatchEvent (s : Subscriptions) (p : Nat) (event : TrackEvent) : Subscriptions :=
  { s with queue := Function.update s.queue p (s.queue p ++ [event]) }

/-- A call of the application on one wrapper. -/
def modify (s : Subscriptions) (w : Nat) (f : RemoteTrack → RemoteTrack) : Subscriptions :=
  { s with registry := s.registry.modify w f }

section

variable (sid : NativeTrack → Option String) (kind : NativeTrack → NativeKind)
  (publisher : NativeTrack → Nat)

/-- No other track with the SID of this one is subscribed, nor is it itself. -/
def vacant (s : Subscriptions) (n : NativeTrack) : Bool :=
  (s.subscribed (publisher n)).all fun m ↦ m ≠ n ∧ (sid m ≠ sid n ∨ sid n = none)

/-- `onAudioTrackSubscribed` and its siblings; `src/video/remote_participant_wrap.cpp:143–148`. -/
def onTrackSubscribed (s : Subscriptions) (n : NativeTrack) : Option Subscriptions :=
  if s.vacant sid publisher n then
    let p := publisher n
    some (dispatchEvent
      { s with subscribed := Function.update s.subscribed p (s.subscribed p ++ [n]) } p
      (.trackSubscribed n true))
  else none

/-- `onAudioTrackUnsubscribed` and its siblings;
`src/video/remote_participant_wrap.cpp:153–158`. -/
def onTrackUnsubscribed (s : Subscriptions) (n : NativeTrack) : Option Subscriptions :=
  let p := publisher n
  if n ∈ s.subscribed p then
    some (dispatchEvent
      { s with subscribed := Function.update s.subscribed p ((s.subscribed p).filter (· ≠ n)) } p
      (.trackUnsubscribed n false))
  else none

/-- `dispatchPublicationEvent`; `src/video/remote_participant_wrap.cpp:293–304`. -/
def onPublicationEvent (s : Subscriptions) (p : Nat) (event : PublicationEvent)
    (track : Option NativeTrack) : Option Subscriptions :=
  if ∀ n ∈ track, n ∈ s.subscribed p then some (s.dispatchEvent p (.publication event track))
  else none

/-- `onVideoTrackSwitchedOff` and `onVideoTrackSwitchedOn`, about a subscribed track;
`src/video/remote_participant_wrap.cpp:195–206`. -/
def onTrackObjectEvent (s : Subscriptions) (event : TrackObjectEvent) (n : NativeTrack) :
    Option Subscriptions :=
  if n ∈ s.subscribed (publisher n) then
    some (s.dispatchEvent (publisher n) (.trackObject event n))
  else none

/-- The constructor of `RemoteTrackPublication`; `lib/track_publication.ts:112–118`. -/
def publication (calls : Nat → EndCalls) (r : TrackRegistry) (track : Option NativeTrack) :
    TrackRegistry × Except JsError Unit :=
  match track with
  | none => (r, .ok ())
  | some n => (r.wrapRemoteTrack sid kind calls n).map id (·.map fun _ ↦ ())

/-- `trackSubscribed` and `trackUnsubscribed` up to `emit`: the track, then its publication;
`lib/remote_participant.ts:180–190`. -/
def subscriptionEvent (calls : Nat → EndCalls) (r : TrackRegistry) (n : NativeTrack)
    (isSubscribed : Bool) : TrackRegistry × Except JsError Nat :=
  match r.wrapRemoteTrack sid kind calls n with
  | (r, .error error) => (r, .error error)
  | (r, .ok w) =>
    (publication sid kind calls r (if isSubscribed then some n else none)).map id
      (·.map fun _ ↦ w)

/-- The event callback up to `emit`, with the wrapper the listeners get;
`lib/remote_participant.ts:169–205`. -/
def eventCallback (calls : Nat → EndCalls) (r : TrackRegistry) (event : TrackEvent) :
    TrackRegistry × Except JsError (Option Nat) :=
  match event with
  | .trackSubscribed n isSubscribed | .trackUnsubscribed n isSubscribed =>
    (subscriptionEvent sid kind calls r n isSubscribed).map id (·.map some)
  | .publication _ track => (publication sid kind calls r track).map id (·.map fun _ ↦ none)
  | .trackObject _ n => (r.wrapRemoteTrack sid kind calls n).map id (·.map some)

/-- What the event callback does when the listeners have returned;
`lib/remote_participant.ts:191–195`. -/
def afterEmit (calls : Nat → EndCalls) (r : TrackRegistry) (event : TrackEvent)
    (wrapped : Option Nat) : TrackRegistry :=
  match event, wrapped with
  | .trackUnsubscribed _ _, some w =>
    (r.releaseRemoteTrack calls (r.tracks[w]?.bind fun t ↦ sid t.native)).1
  | _, _ => r

/-- The event callback starts on the next event of a participant. -/
def deliver (s : Subscriptions) (p : Nat) (calls : Nat → EndCalls) : Option Subscriptions :=
  match s.handling, s.queue p with
  | none, event :: rest =>
    match eventCallback sid kind calls s.registry event with
    | (r, .ok w) => some { s with
        registry := r
        handling := some (p, w)
        handed := s.handed ++ event.hands w }
    | (r, .error _) => some { s with registry := r, queue := Function.update s.queue p rest }
  | _, _ => none

/-- The event callback resumes after the listeners. -/
def emitted (s : Subscriptions) (calls : Nat → EndCalls) : Option Subscriptions :=
  match s.handling with
  | none => none
  | some (p, w) =>
    match s.queue p with
    | [] => none
    | event :: rest => some { s with
        handling := none
        queue := Function.update s.queue p rest
        registry := afterEmit sid calls s.registry event w }

/-- `GetVideoTracks`, `GetAudioTracks` or `GetDataTracks`: the tracks of the publications that are
subscribed; `src/video/remote_participant_wrap.cpp:452–522`. -/
def collection (s : Subscriptions) (p : Nat) (c : NativeKind) : List NativeTrack :=
  (s.subscribed p).filter fun n ↦ kind n = c

/-- `videoTracks`, `audioTracks` or `dataTracks` over what the native getter has found; an error
leaves the loop. `lib/remote_participant.ts:232–257`. -/
def readTracks (calls : Nat → EndCalls) (r : TrackRegistry) : List NativeTrack → TrackRegistry
  | [] => r
  | n :: found =>
    match publication sid kind calls r (some n) with
    | (r, .error _) => r
    | (r, .ok ()) => readTracks calls r found

/-- One step of one thread. -/
def step (s : Subscriptions) : SubscriptionAct → Option Subscriptions
  | .onTrackSubscribed n => s.onTrackSubscribed sid publisher n
  | .onTrackUnsubscribed n => s.onTrackUnsubscribed publisher n
  | .onPublicationEvent p event track => s.onPublicationEvent p event track
  | .onTrackObjectEvent event n => s.onTrackObjectEvent publisher event n
  | .deliver p calls => s.deliver sid kind p calls
  | .emitted calls => s.emitted sid calls
  | .tracks p c calls =>
    some { s with registry := readTracks sid kind calls s.registry (s.collection kind p c) }
  | .frames w options attachFrameSink =>
    some (s.modify w fun t ↦ t.frames (sid t.native) options attachFrameSink)
  | .listen w onMessage => some (s.modify w fun t ↦ t.listen onMessage)
  | .returnIterator w r calls => some (s.modify w fun t ↦ t.returnIterator r calls)
  | .releaseAll calls =>
    some { s with registry := (s.registry.releaseAllRemoteTracks calls).1 }

/-- A Room as a machine. -/
def machine : Machine Subscriptions SubscriptionAct := ⟨init, step sid kind publisher⟩

end

end Subscriptions

end VideoNode.Tracks
