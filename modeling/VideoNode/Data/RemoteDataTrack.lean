import Mathlib.Logic.Function.Basic
import VideoNode.Common.Delivery

/-!
# Remote data tracks

`src/media/remote_data_track_wrap.cpp`: native data tracks, the observer each of them has while
it is wrapped, the wraps JS holds, and the registrations through which a wrap finds the observer
of its track. Native tracks are numbered as they are allocated; an address may be used again once
the track there is freed. What a weak handle refers to is there as long as something owns it.
-/

namespace VideoNode.Data

open VideoNode.Common VideoNode.Lts

/-- What a publisher sends. -/
inductive Message where
  | text (message : String)
  | binary (data : List UInt8)
  deriving DecidableEq, Repr

/-- Where a subscription is: until its unsubscribe callback, until the event of that is handled,
and after that. -/
inductive Phase where
  | subscribed
  | unsubscribing
  | unsubscribed
  deriving DecidableEq, Repr

/-- A native track; `alive` says that it is not freed, and `observer` is a weak handle. -/
structure NativeDataTrack where
  address : Nat
  alive : Bool
  phase : Phase
  observer : Option Nat
  deriving DecidableEq, Repr

/-- Members of `RemoteDataTrackObserverImpl`; `src/media/remote_data_track_wrap.cpp:115–121`. A
target is a wrap. -/
structure Observer where
  closed : Bool
  targets : List Nat
  deriving DecidableEq, Repr

namespace Observer

/-- The constructor; `src/media/remote_data_track_wrap.cpp:27`. -/
def create : Observer := ⟨false, []⟩

/-- `bind`; `src/media/remote_data_track_wrap.cpp:36–40`. -/
def bind (o : Observer) (wrap : Nat) : Observer :=
  if o.closed then o else { o with targets := o.targets ++ [wrap] }

/-- `unbind`; `src/media/remote_data_track_wrap.cpp:45–50`. -/
def unbind (o : Observer) (wrap : Nat) : Observer :=
  { o with targets := o.targets.filter (· ≠ wrap) }

/-- `close`; `src/media/remote_data_track_wrap.cpp:54–59`. -/
def close (o : Observer) : Observer :=
  if o.closed then o else ⟨true, []⟩

end Observer

/-- What waits in the queue of a wrap: a message, and the observer whose `closed_` is looked at
when its turn comes. -/
abbrev Pending := Message × Nat

/-- Members of `RemoteDataTrackWrap`; `src/media/remote_data_track_wrap.h:57–61`. `since` is how
many messages were raised before it was bound, and `turns` records the messages handed to
`onMessage`, with the callback that was installed then. -/
structure Wrap where
  track : Nat
  observer : Nat
  alive : Bool
  messageCallback : Option Nat
  traffic : Traffic Pending
  since : Nat
  turns : List (Message × Option Nat)

namespace Wrap

/-- A wrap with an unlimited queue; `src/media/remote_data_track_wrap.cpp:178–181`. -/
def create (track observer since : Nat) : Wrap where
  track := track
  observer := observer
  alive := true
  messageCallback := none
  traffic := (Traffic.machine Pending 0).init
  since := since
  turns := []

/-- Queue a message; `src/media/remote_data_track_wrap.cpp:62–72`. -/
def dispatch (pending : Pending) (w : Wrap) : Wrap :=
  match w.traffic.step (.dispatch pending) with
  | none => w
  | some traffic => { w with traffic := traffic }

/-- `onMessage` and `onBufferMessage`: the callback gets the message if there is one;
`src/media/remote_data_track_wrap.cpp:236–249`. -/
def onMessage (w : Wrap) (message : Message) : Wrap :=
  { w with turns := w.turns ++ [(message, w.messageCallback)] }

/-- What a queued message does when its turn comes; `src/media/remote_data_track_wrap.cpp:66–70`. -/
def run (w : Wrap) (closed : Nat → Bool) (pending : Pending) : Wrap :=
  if !w.alive then w else if closed pending.2 then w else w.onMessage pending.1

end Wrap

/-- `DataTrackRegistration`; `src/media/remote_data_track_wrap.cpp:133–136`. -/
structure Registration where
  track : Nat
  observer : Nat
  deriving DecidableEq, Repr

/-- All native data tracks, observers and wraps of a process, with `g_dataTrackObservers` by
address, and every message raised so far with its track. -/
structure DataTracks where
  tracks : List NativeDataTrack
  observers : List Observer
  wraps : List Wrap
  registrations : Nat → Option Registration
  raised : List (Nat × Message)

namespace DataTracks

/-- A process without data tracks. -/
def init : DataTracks := ⟨[], [], [], fun _ ↦ none, []⟩

/-- The wraps of a track own its observer between them. -/
def observerExpired (s : DataTracks) (o : Nat) : Bool :=
  !s.wraps.any fun w ↦ w.alive && w.observer == o

/-- The track was freed. -/
def trackExpired (s : DataTracks) (n : Nat) : Bool :=
  !s.tracks[n]?.any NativeDataTrack.alive

/-- Whether an observer is closed. -/
def closed (s : DataTracks) (o : Nat) : Bool := s.observers[o]?.any Observer.closed

/-- `pruneDataTrackObservers`; `src/media/remote_data_track_wrap.cpp:143–151`. -/
def pruneDataTrackObservers (s : DataTracks) : DataTracks :=
  { s with registrations := fun a ↦ (s.registrations a).filter fun r ↦
      !(s.trackExpired r.track || s.observerExpired r.observer) }

/-- The observer registered for this very track, if it is still there;
`src/media/remote_data_track_wrap.cpp:187–190`. -/
def registered (s : DataTracks) (n address : Nat) : Option Nat :=
  ((s.registrations address).filter fun r ↦
    r.track == n && !s.trackExpired r.track && !s.observerExpired r.observer).map
      Registration.observer

/-- Install a new observer on a track; `src/media/remote_data_track_wrap.cpp:192–197`. -/
def install (s : DataTracks) (n : Nat) (track : NativeDataTrack) : DataTracks :=
  let s := s.pruneDataTrackObservers
  let o := s.observers.length
  { s with
    tracks := s.tracks.set n { track with observer := some o }
    observers := s.observers ++ [.create]
    registrations := Function.update s.registrations track.address (some ⟨n, o⟩) }

/-- Make a wrap and bind it; `src/media/remote_data_track_wrap.cpp:178–181,199–200`. -/
def addWrap (s : DataTracks) (n o : Nat) : DataTracks :=
  { s with
    wraps := s.wraps ++ [.create n o s.raised.length]
    observers := s.observers.modify o (·.bind s.wraps.length) }

/-- `NewInstance`; `src/media/remote_data_track_wrap.cpp:175–203`. -/
def newInstance (s : DataTracks) (n : Nat) (track : NativeDataTrack) : DataTracks :=
  match s.registered n track.address with
  | some o => s.addWrap n o
  | none => (s.install n track).addWrap n s.observers.length

/-- `CloseObserver`; `src/media/remote_data_track_wrap.cpp:205–216`. -/
def closeObserver (s : DataTracks) (n : Nat) (track : NativeDataTrack) : DataTracks :=
  let s := { s with tracks := s.tracks.set n { track with observer := none } }
  match s.registrations track.address with
  | none => s
  | some r =>
    { s with
      observers :=
        if s.observerExpired r.observer then s.observers
        else s.observers.modify r.observer Observer.close
      registrations := Function.update s.registrations track.address none }

/-- The destructor of a wrap; `src/media/remote_data_track_wrap.cpp:222–234`. -/
def destroyWrap (s : DataTracks) (i : Nat) (w : Wrap) (traffic : Traffic Pending) : DataTracks :=
  { s with
    wraps := s.wraps.set i { w with alive := false, traffic := traffic }
    observers := s.observers.modify w.observer (·.unbind i) }

/-- Whether a wrap is not destroyed. -/
def wrapAlive (s : DataTracks) (i : Nat) : Bool := s.wraps[i]?.any Wrap.alive

/-- `forEachTarget`; `src/media/remote_data_track_wrap.cpp:95–112`. -/
def forEachTarget (s : DataTracks) (o : Nat) (message : Message) : DataTracks :=
  match s.observers[o]? with
  | none => s
  | some observer =>
    if observer.closed then s else
      let targets := observer.targets.filter s.wrapAlive
      { s with
        observers := s.observers.set o { observer with targets := targets }
        wraps := targets.foldl (fun wraps i ↦ wraps.modify i (Wrap.dispatch (message, o)))
          s.wraps }

/-- The native library raises a message: it reaches the observer if that is still there. -/
def onMessage (s : DataTracks) (n : Nat) (track : NativeDataTrack) (message : Message) :
    DataTracks :=
  let s := { s with raised := s.raised ++ [(n, message)] }
  match track.observer with
  | none => s
  | some o => if s.observerExpired o then s else s.forEachTarget o message

end DataTracks

/-- What the native library, the JS thread and the garbage collector do. -/
inductive DataAct where
  /-- A track is subscribed, at an address that no other track has now. -/
  | subscribe (address : Nat)
  | onMessage (n : Nat) (message : Message)
  /-- The unsubscribe callback, which queues the event. -/
  | onDataTrackUnsubscribed (n : Nat)
  /-- The event: `NewInstance` for its payload, then `CloseObserver`. -/
  | trackUnsubscribed (n : Nat)
  /-- Nothing holds the track any more. -/
  | free (n : Nat)
  | newInstance (n : Nat)
  | installCallback (i : Nat) (callback : Nat)
  | removeMessageCallback (i : Nat)
  | turn (i : Nat) (t : Turn)
  | destroy (i : Nat)
  deriving DecidableEq, Repr

namespace DataTracks

/-- Change a wrap that is not destroyed. -/
def onWrap (s : DataTracks) (i : Nat) (f : Wrap → Option Wrap) : Option DataTracks :=
  match s.wraps[i]? with
  | none => none
  | some w => if w.alive then (f w).map fun w ↦ { s with wraps := s.wraps.set i w } else none

/-- Do something with a track that is not freed. -/
def onTrack (s : DataTracks) (n : Nat) (p : NativeDataTrack → Bool)
    (f : NativeDataTrack → DataTracks) : Option DataTracks :=
  match s.tracks[n]? with
  | none => none
  | some track => if track.alive && p track then some (f track) else none

/-- A turn of the queue of a wrap; a message whose turn comes is run. -/
def turned (s : DataTracks) (w : Wrap) (t : Turn) (traffic : Traffic Pending) : Wrap :=
  match w.traffic.loop.started t with
  | none => { w with traffic := traffic }
  | some pending => Wrap.run { w with traffic := traffic } s.closed pending

/-- Change the phase of a track. -/
def setPhase (s : DataTracks) (n : Nat) (phase : Phase) : DataTracks :=
  { s with tracks := s.tracks.modify n ({ · with phase := phase }) }

/-- One step of one thread. -/
def step (s : DataTracks) : DataAct → Option DataTracks
  | .subscribe address =>
    if s.tracks.any fun t ↦ t.alive && t.address == address then none
    else some { s with tracks := s.tracks ++ [⟨address, true, .subscribed, none⟩] }
  | .onMessage n message =>
    s.onTrack n (·.phase == .subscribed) fun track ↦ s.onMessage n track message
  | .onDataTrackUnsubscribed n =>
    s.onTrack n (·.phase == .subscribed) fun _ ↦ s.setPhase n .unsubscribing
  | .trackUnsubscribed n =>
    s.onTrack n (·.phase == .unsubscribing) fun track ↦
      let s := s.newInstance n track
      (s.closeObserver n track).setPhase n .unsubscribed
  | .free n =>
    s.onTrack n (fun _ ↦ !s.wraps.any fun w ↦ w.alive && w.track == n) fun track ↦
      { s with tracks := s.tracks.set n { track with alive := false } }
  | .newInstance n => s.onTrack n (·.phase != .unsubscribed) (s.newInstance n)
  | .installCallback i callback =>
    s.onWrap i fun w ↦ some { w with messageCallback := some callback }
  | .removeMessageCallback i => s.onWrap i fun w ↦ some { w with messageCallback := none }
  | .turn i t =>
    match s.wraps[i]? with
    | none => none
    | some w => (w.traffic.step (.turn t)).map fun traffic ↦
        { s with wraps := s.wraps.set i (s.turned w t traffic) }
  | .destroy i =>
    match s.wraps[i]? with
    | none => none
    | some w => if w.alive then (w.traffic.step .destroy).map (s.destroyWrap i w) else none

/-- A process as a machine. -/
def machine : Machine DataTracks DataAct := ⟨init, step⟩

end DataTracks

end VideoNode.Data
