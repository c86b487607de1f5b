import VideoNode.Common.Errors
import VideoNode.Remote.Binding
import VideoNode.Tracks.Registries
import VideoNode.Tracks.Subscription

/-!
# What the events of a participant say

The payloads the observers of one participant ship (`src/video/remote_participant_wrap.cpp`) and
what its `RemoteParticipant` makes of them (`lib/remote_participant.ts`). rtc-cpp goes on changing
its publications while an event waits, so each callback reads the publication it names when it is
raised, and the event is built from that.
-/

namespace VideoNode.Remote

open VideoNode.Js VideoNode.Common VideoNode.Lts VideoNode.Tracks

/-- The kinds of publication, which are classes of their own in rtc-cpp and in JS. -/
inductive PublicationKind where
  | video
  | audio
  | data
  deriving DecidableEq, Repr

/-- The text the observer's methods for a kind pass on. -/
def PublicationKind.text : PublicationKind → String
  | .video => "video"
  | .audio => "audio"
  | .data => "data"

/-- What rtc-cpp answers for a publication. -/
structure RemotePublication where
  trackSid : String
  trackName : String
  kind : PublicationKind
  isTrackEnabled : Bool
  isTrackSubscribed : Bool
  remoteTrack : Option NativeTrack

/-- `PublicationSnapshot`; `src/video/remote_participant_wrap.cpp:16–21`. -/
structure PublicationSnapshot where
  trackSid : String
  trackName : String
  enabled : Bool
  subscribed : Bool

/-- `SnapshotPublication`; `src/video/remote_participant_wrap.cpp:23–26`. -/
def RemotePublication.snapshot (pub : RemotePublication) : PublicationSnapshot :=
  ⟨pub.trackSid, pub.trackName, pub.isTrackEnabled, pub.isTrackSubscribed⟩

/-- A publication object as the native layer ships it; without a `track` it has no such property. -/
structure RawRemoteTrackPublication where
  trackSid : String
  trackName : String
  kind : String
  isTrackEnabled : Bool
  isSubscribed : Bool
  track : Option NativeTrack

/-- `MakePublicationObject`; `src/video/remote_participant_wrap.cpp:33–49`. -/
def PublicationSnapshot.makePublicationObject (snapshot : PublicationSnapshot) (kind : String)
    (trackValue : Option NativeTrack) : RawRemoteTrackPublication where
  trackSid := snapshot.trackSid
  trackName := snapshot.trackName
  kind := kind
  isTrackEnabled := snapshot.enabled
  isSubscribed := snapshot.subscribed
  track := if snapshot.subscribed then trackValue else none

/-- The events whose payload is a track with its publication; `lib/remote_participant.ts:180`. -/
inductive SubscriptionEvent where
  | trackSubscribed
  | trackUnsubscribed
  deriving DecidableEq, Repr

/-- The names of a participant's events. -/
inductive EventName where
  | publication (event : PublicationEvent)
  | subscription (event : SubscriptionEvent)
  | trackSubscriptionFailed
  | trackObject (event : TrackObjectEvent)
  | networkQualityLevelChanged
  deriving DecidableEq, Repr

-- rtc-cpp may name no publication where one was enabled and is gone.
/-- What rtc-cpp raises, with the number of the publication it names. The three kinds have a method
each, which differ in the text of the kind;
`src/video/remote_participant_wrap.cpp:128–248`. -/
inductive Callback where
  | onPublicationEvent (event : PublicationEvent) (pub : Option Nat)
  | onSubscriptionEvent (event : SubscriptionEvent) (pub : Nat) (track : NativeTrack)
  | onTrackSubscriptionFailed (pub : Nat) (code : UInt32) (message : String)
  | onTrackObjectEvent (event : TrackObjectEvent) (track : NativeTrack)
  | onNetworkQualityLevelChanged (level : Int)

/-- What the `createArgs` of an event has captured. -/
inductive Captured where
  | publication (event : PublicationEvent) (snapshot : PublicationSnapshot) (kind : String)
      (track : Option NativeTrack)
  | subscription (event : SubscriptionEvent) (snapshot : PublicationSnapshot) (kind : String)
      (track : NativeTrack)
  | subscriptionFailed (snapshot : PublicationSnapshot) (kind : String) (code : UInt32)
      (message : String)
  | trackObject (event : TrackObjectEvent) (track : NativeTrack)
  | level (lvl : Int)

/-- What is read on the signaling thread; `dispatchPublicationEvent` and its siblings,
`src/video/remote_participant_wrap.cpp:293–320`. -/
def Callback.capture (pubs : Nat → RemotePublication) : Callback → Option Captured
  | .onPublicationEvent event pub => pub.map fun i ↦
    .publication event (pubs i).snapshot (pubs i).kind.text (pubs i).remoteTrack
  | .onSubscriptionEvent event i track =>
    some (.subscription event (pubs i).snapshot (pubs i).kind.text track)
  | .onTrackSubscriptionFailed i code message =>
    some (.subscriptionFailed (pubs i).snapshot (pubs i).kind.text code message)
  | .onTrackObjectEvent event track => some (.trackObject event track)
  | .onNetworkQualityLevelChanged level => some (.level level)

/-- The native track whose wrapper an event carries; that of a publication only while rtc-cpp has
it subscribed. -/
def Callback.track? (pubs : Nat → RemotePublication) : Callback → Option NativeTrack
  | .onPublicationEvent _ pub =>
    pub.bind fun i ↦ if (pubs i).isTrackSubscribed then (pubs i).remoteTrack else none
  | .onSubscriptionEvent _ _ track | .onTrackObjectEvent _ track => some track
  | .onTrackSubscriptionFailed .. | .onNetworkQualityLevelChanged _ => none

/-- The one argument of the native event callback. -/
inductive Payload where
  | publication (raw : RawRemoteTrackPublication)
  | subscription (track : NativeTrack) (publication : RawRemoteTrackPublication)
  | subscriptionFailed (error : TwilioErrorObject) (publication : RawRemoteTrackPublication)
  | track (track : NativeTrack)
  | level (lvl : Int)

namespace Captured

/-- The event that is emitted. -/
def event : Captured → EventName
  | .publication event _ _ _ => .publication event
  | .subscription event _ _ _ => .subscription event
  | .subscriptionFailed _ _ _ _ => .trackSubscriptionFailed
  | .trackObject event _ => .trackObject event
  | .level _ => .networkQualityLevelChanged

/-- `createArgs`, on the JS thread; `MakeSubscriptionPayload` is lines 53–62. -/
def createArgs : Captured → Payload
  | .publication _ snapshot kind track => .publication (snapshot.makePublicationObject kind track)
  | .subscription _ snapshot kind track =>
    .subscription track (snapshot.makePublicationObject kind (some track))
  | .subscriptionFailed snapshot kind code message =>
    .subscriptionFailed (createTwilioErrorObject (intOfUInt32 code) message)
      (snapshot.makePublicationObject kind none)
  | .trackObject _ track => .track track
  | .level lvl => .level lvl

end Captured

/-- A `RemoteTrackPublication`, of the class for its kind, with the wrapper of its track;
`lib/track_publication.ts:23–40,105–119`. -/
structure RemoteTrackPublication where
  cls : PublicationKind
  trackSid : String
  trackName : String
  kind : String
  isTrackEnabled : Bool
  isSubscribed : Bool
  track : Option Nat
  deriving DecidableEq, Repr

/-- An argument a listener gets. -/
inductive ListenerArg where
  | track (w : Nat)
  | publication (p : RemoteTrackPublication)
  | error (e : TwilioError)
  | level (lvl : Int)
  deriving DecidableEq, Repr

/-- The wrapper an argument is, or has. -/
def ListenerArg.wrapper? : ListenerArg → Option Nat
  | .track w => some w
  | .publication p => p.track
  | .error _ | .level _ => none

namespace RawRemoteTrackPublication

/-- The class `remoteTrackPublicationFor` takes; `lib/remote_participant.ts:46–53`. -/
def cls (raw : RawRemoteTrackPublication) : PublicationKind :=
  if raw.kind = "video" then .video else if raw.kind = "audio" then .audio else .data

/-- The constructor, once the track is resolved. -/
def publish (raw : RawRemoteTrackPublication) (track : Option Nat) : RemoteTrackPublication :=
  ⟨raw.cls, raw.trackSid, raw.trackName, raw.kind, raw.isTrackEnabled, raw.isSubscribed, track⟩

end RawRemoteTrackPublication

section

variable (sid : NativeTrack → Option String) (kind : NativeTrack → NativeKind)

/-- `remoteTrackPublicationFor`; `lib/remote_participant.ts:42–54`. -/
def remoteTrackPublicationFor (calls : Nat → EndCalls) (r : TrackRegistry)
    (raw : RawRemoteTrackPublication) : TrackRegistry × Except JsError RemoteTrackPublication :=
  match raw.track with
  | none => (r, .ok (raw.publish none))
  | some n =>
    match r.wrapRemoteTrack sid kind calls n with
    | (r, .error error) => (r, .error error)
    | (r, .ok w) => (r, .ok (raw.publish (some w)))

/-- The event callback up to `emit`, with the arguments of that;
`lib/remote_participant.ts:169–205`. -/
def eventCallback (calls : Nat → EndCalls) (r : TrackRegistry) :
    Payload → TrackRegistry × Except JsError (List ListenerArg)
  | .publication raw =>
    (remoteTrackPublicationFor sid kind calls r raw).map id (·.map fun p ↦ [.publication p])
  | .subscription track raw =>
    match r.wrapRemoteTrack sid kind calls track with
    | (r, .error error) => (r, .error error)
    | (r, .ok w) =>
      (remoteTrackPublicationFor sid kind calls r raw).map id
        (·.map fun p ↦ [.track w, .publication p])
  | .subscriptionFailed error raw =>
    (remoteTrackPublicationFor sid kind calls r raw).map id
      (·.map fun p ↦ [.error (TwilioError.liftTwilioError (some error)), .publication p])
  | .track track =>
    (r.wrapRemoteTrack sid kind calls track).map id (·.map fun w ↦ [.track w])
  | .level lvl => (r, .ok [.level lvl])

end

section

variable {sid : NativeTrack → Option String} {kind : NativeTrack → NativeKind}
  {calls : Nat → EndCalls} {r r' : TrackRegistry}

variable (sid kind) in
/-- A wrapper is one for the SID of a native track, and of its kind. -/
def Stands (r : TrackRegistry) (w : Nat) (n : NativeTrack) : Prop :=
  ∃ t, r.tracks[w]? = some t ∧ sid t.native = sid n ∧ t.kind = kind n

/-- Wrappers go on standing for what they stand for. -/
theorem Stands.of_kept {w : Nat} {n : NativeTrack} (h : Stands sid kind r w n)
    (hk : TrackRegistry.Kept r r') : Stands sid kind r' w n := by
  obtain ⟨t, ht, hs, hkind⟩ := h
  obtain ⟨t', ht', hsame⟩ := hk.same w t ht
  exact ⟨t', ht', by rw [hsame.native, hs], by rw [hsame.kind, hkind]⟩

/-- What `wrapRemoteTrack` returns stands for what it was given. -/
theorem stands_of_wrapped {n : NativeTrack} {res : TrackRegistry × Except JsError Nat} {w : Nat}
    (h : TrackRegistry.Wrapped sid kind calls r n res) (hl : r.Law sid kind)
    (hw : res.2 = .ok w) : Stands sid kind res.1 w n := by
  cases h with
  | @found k w t hk hg ht he =>
    cases hw
    obtain ⟨u, hu, hs, -⟩ := hl.cached k w hg
    cases ht.symm.trans hu
    exact ⟨t, ht, hs.trans hk.symm, he⟩
  | made hc ht =>
    cases hw
    obtain ⟨hn, hkind⟩ := RemoteTrack.create_ok ht
    exact ⟨_, by simp, by rw [hn], hkind⟩
  | failed hc => cases hw

variable (sid kind) in
/-- A publication object says what rtc-cpp answered, and has a track exactly while it was
subscribed and there was one. -/
structure Shows (r : TrackRegistry) (p : RemoteTrackPublication) (pub : RemotePublication)
    (track : Option NativeTrack) : Prop where
  cls : p.cls = pub.kind
  trackSid : p.trackSid = pub.trackSid
  trackName : p.trackName = pub.trackName
  text : p.kind = pub.kind.text
  isTrackEnabled : p.isTrackEnabled = pub.isTrackEnabled
  isSubscribed : p.isSubscribed = pub.isTrackSubscribed
  track_isSome : p.track.isSome = (pub.isTrackSubscribed && track.isSome)
  track : ∀ w n, p.track = some w → track = some n → Stands sid kind r w n

/-- A publication object goes on saying it. -/
theorem Shows.of_kept {p : RemoteTrackPublication} {pub : RemotePublication}
    {track : Option NativeTrack} (h : Shows sid kind r p pub track)
    (hk : TrackRegistry.Kept r r') : Shows sid kind r' p pub track :=
  { h with track := fun w n hw hn ↦ (h.track w n hw hn).of_kept hk }

variable (sid kind) in
/-- What the listeners get for a callback, in terms of what rtc-cpp held when it raised it. The
publication of a subscribed track with a SID has the wrapper they get for the track itself; an error
is the one for its code, which an `int` can hold unless it is of 2³¹ or more. -/
inductive Tells (r : TrackRegistry) (pubs : Nat → RemotePublication) :
    Callback → EventName → List ListenerArg → Prop where
  | publication {event : PublicationEvent} {i : Nat} {p : RemoteTrackPublication}
      (hp : Shows sid kind r p (pubs i) (pubs i).remoteTrack) :
      Tells r pubs (.onPublicationEvent event (some i)) (.publication event) [.publication p]
  | subscription {event : SubscriptionEvent} {i w : Nat} {n : NativeTrack}
      {p : RemoteTrackPublication} (hw : Stands sid kind r w n)
      (hp : Shows sid kind r p (pubs i) (some n))
      (hs : sid n ≠ none → ∀ v, p.track = some v → v = w) :
      Tells r pubs (.onSubscriptionEvent event i n) (.subscription event)
        [.track w, .publication p]
  | subscriptionFailed {i : Nat} {code : UInt32} {message : String} {e : TwilioError}
      {p : RemoteTrackPublication}
      (he : code.toNat < 2147483648 → TwilioError.Lifted code.toNat message e)
      (hp : Shows sid kind r p (pubs i) none) :
      Tells r pubs (.onTrackSubscriptionFailed i code message) .trackSubscriptionFailed
        [.error e, .publication p]
  | trackObject {event : TrackObjectEvent} {n : NativeTrack} {w : Nat}
      (hw : Stands sid kind r w n) :
      Tells r pubs (.onTrackObjectEvent event n) (.trackObject event) [.track w]
  | level {lvl : Int} :
      Tells r pubs (.onNetworkQualityLevelChanged lvl) .networkQualityLevelChanged [.level lvl]

/-- What was told goes on being so. -/
theorem Tells.of_kept {pubs : Nat → RemotePublication} {c : Callback} {event : EventName}
    {args : List ListenerArg} (h : Tells sid kind r pubs c event args)
    (hk : TrackRegistry.Kept r r') : Tells sid kind r' pubs c event args := by
  cases h with
  | publication hp => exact .publication (hp.of_kept hk)
  | subscription hw hp hs => exact .subscription (hw.of_kept hk) (hp.of_kept hk) hs
  | subscriptionFailed he hp => exact .subscriptionFailed he (hp.of_kept hk)
  | trackObject hw => exact .trackObject (hw.of_kept hk)
  | level => exact .level

/-- The class for the text of a kind is the one of the kind. -/
theorem cls_makePublicationObject (pub : RemotePublication) (track : Option NativeTrack) :
    (pub.snapshot.makePublicationObject pub.kind.text track).cls = pub.kind := by
  cases h : pub.kind <;>
    simp [RawRemoteTrackPublication.cls, PublicationSnapshot.makePublicationObject,
      PublicationKind.text]

/-- Whatever the publication was made of, an object of it shows that. -/
theorem shows_publish {pub : RemotePublication} {track : Option NativeTrack} {w : Option Nat}
    (hs : w.isSome = (pub.isTrackSubscribed && track.isSome))
    (hw : ∀ v n, w = some v → track = some n → Stands sid kind r v n) :
    Shows sid kind r ((pub.snapshot.makePublicationObject pub.kind.text track).publish w) pub
      track where
  cls := cls_makePublicationObject pub track
  trackSid := rfl
  trackName := rfl
  text := rfl
  isTrackEnabled := rfl
  isSubscribed := rfl
  track_isSome := hs
  track := hw

/-- Making a publication object keeps what wrapping keeps. -/
theorem remoteTrackPublicationFor_keeps {q : TrackRegistry → Prop}
    (hq : ∀ r n, q r → q (r.wrapRemoteTrack sid kind calls n).1) (raw : RawRemoteTrackPublication)
    (h : q r) : q (remoteTrackPublicationFor sid kind calls r raw).1 := by
  unfold remoteTrackPublicationFor
  split
  · exact h
  · next n _ =>
    have hn := hq r n h
    split
    · next he => rwa [he] at hn
    · next he => rwa [he] at hn

/-- The event callback keeps what wrapping keeps. -/
theorem eventCallback_keeps {q : TrackRegistry → Prop}
    (hq : ∀ r n, q r → q (r.wrapRemoteTrack sid kind calls n).1) (payload : Payload) (h : q r) :
    q (eventCallback sid kind calls r payload).1 := by
  cases payload with
  | publication raw => exact remoteTrackPublicationFor_keeps hq raw h
  | subscription track raw =>
    have hn := hq r track h
    simp only [eventCallback]
    split
    · next he => rwa [he] at hn
    · next he =>
      rw [he] at hn
      exact remoteTrackPublicationFor_keeps hq raw hn
  | subscriptionFailed error raw => exact remoteTrackPublicationFor_keeps hq raw h
  | track track => exact hq r track h
  | level lvl => exact h

-- Each wrapping keeps the law that the next one needs.
private theorem kept_of_wraps (r₀ : TrackRegistry) (t : TrackRegistry) (n : NativeTrack)
    (h : t.Law sid kind ∧ TrackRegistry.Kept r₀ t) :
    (t.wrapRemoteTrack sid kind calls n).1.Law sid kind ∧
      TrackRegistry.Kept r₀ (t.wrapRemoteTrack sid kind calls n).1 := by
  have hw := TrackRegistry.wrapped calls h.1 n
  exact ⟨hw.law h.1, h.2.trans hw.kept⟩

variable (calls) in
/-- Making a publication object leaves the wrappers there are. -/
theorem kept_of_published (hl : r.Law sid kind) (raw : RawRemoteTrackPublication) :
    TrackRegistry.Kept r (remoteTrackPublicationFor sid kind calls r raw).1 :=
  (remoteTrackPublicationFor_keeps (kept_of_wraps r) raw ⟨hl, .refl r⟩).2

variable (calls) in
/-- So does the event callback. -/
theorem kept_of_eventCallback (hl : r.Law sid kind) (payload : Payload) :
    TrackRegistry.Kept r (eventCallback sid kind calls r payload).1 :=
  (eventCallback_keeps (kept_of_wraps r) payload ⟨hl, .refl r⟩).2

private theorem published_cases {pub : RemotePublication} {track : Option NativeTrack}
    {p : RemoteTrackPublication} (h : remoteTrackPublicationFor sid kind calls r
      (pub.snapshot.makePublicationObject pub.kind.text track) = (r', .ok p)) :
    ((pub.isTrackSubscribed = true → track = none) ∧
      p = (pub.snapshot.makePublicationObject pub.kind.text track).publish none) ∨
    ∃ n w, pub.isTrackSubscribed = true ∧ track = some n ∧
      r.wrapRemoteTrack sid kind calls n = (r', .ok w) ∧
      p = (pub.snapshot.makePublicationObject pub.kind.text track).publish (some w) := by
  have hraw : (pub.snapshot.makePublicationObject pub.kind.text track).track =
      if pub.isTrackSubscribed then track else none := rfl
  simp only [remoteTrackPublicationFor, hraw] at h
  cases hsub : pub.isTrackSubscribed with
  | false =>
    simp only [hsub, Bool.false_eq_true, if_false] at h
    cases h
    exact .inl ⟨nofun, rfl⟩
  | true =>
    simp only [hsub, if_true] at h
    cases track with
    | none =>
      cases h
      exact .inl ⟨fun _ ↦ rfl, rfl⟩
    | some n =>
      simp only at h
      split at h
      · cases h
      · next w he =>
        cases h
        exact .inr ⟨n, w, rfl, rfl, he, rfl⟩

/-- What `remoteTrackPublicationFor` makes of an object the native layer ships. -/
theorem published (hl : r.Law sid kind) {pub : RemotePublication} {track : Option NativeTrack}
    {p : RemoteTrackPublication} (h : remoteTrackPublicationFor sid kind calls r
      (pub.snapshot.makePublicationObject pub.kind.text track) = (r', .ok p)) :
    Shows sid kind r' p pub track := by
  rcases published_cases h with ⟨hnone, rfl⟩ | ⟨n, w, hsub, rfl, he, rfl⟩
  · refine shows_publish ?_ fun v n hv ↦ by cases hv
    cases hsub : pub.isTrackSubscribed with
    | false => simp
    | true => simp [hnone hsub]
  · have hw := TrackRegistry.wrapped calls hl n
    rw [he] at hw
    apply shows_publish
    · simp [hsub]
    · rintro v m ⟨⟩ ⟨⟩
      exact stands_of_wrapped hw hl rfl

/-- A native track that was just wrapped has its wrapper still. -/
theorem wrap_again (hl : r.Law sid kind) {n : NativeTrack} {w : Nat}
    (h : r.wrapRemoteTrack sid kind calls n = (r', .ok w)) (hk : sid n ≠ none) :
    r'.wrapRemoteTrack sid kind calls n = (r', .ok w) := by
  obtain ⟨k, hk⟩ := Option.ne_none_iff_exists'.mp hk
  have hw := TrackRegistry.wrapped calls hl n
  rw [h] at hw
  obtain ⟨t, ht, -, hkind⟩ := stands_of_wrapped hw hl rfl
  exact TrackRegistry.wrapRemoteTrack_of_cached hk (hw.get_of_ok rfl hk) ht hkind

-- The object of a subscription event is made where the track was just wrapped.
private theorem published_again (hl : r.Law sid kind) {n : NativeTrack} {w : Nat}
    (h : r.wrapRemoteTrack sid kind calls n = (r', .ok w)) (hk : sid n ≠ none)
    (pub : RemotePublication) :
    remoteTrackPublicationFor sid kind calls r'
        (pub.snapshot.makePublicationObject pub.kind.text (some n)) =
      (r', .ok ((pub.snapshot.makePublicationObject pub.kind.text (some n)).publish
        (if pub.isTrackSubscribed then some w else none))) := by
  have hraw : (pub.snapshot.makePublicationObject pub.kind.text (some n)).track =
      if pub.isTrackSubscribed then some n else none := rfl
  simp only [remoteTrackPublicationFor, hraw]
  cases hsub : pub.isTrackSubscribed with
  | false => rfl
  | true => simp [wrap_again hl h hk]

/-- The wrapper an object has is the one of the track that was subscribed, and is cached. -/
theorem cached_of_published (hl : r.Law sid kind) {pub : RemotePublication}
    {track : Option NativeTrack} {p : RemoteTrackPublication}
    (h : remoteTrackPublicationFor sid kind calls r
      (pub.snapshot.makePublicationObject pub.kind.text track) = (r', .ok p)) {w : Nat}
    (hw : p.track = some w) : pub.isTrackSubscribed = true ∧ ∃ n, track = some n ∧
      ∀ k, sid n = some k → r'.registry.get k = some w := by
  rcases published_cases h with ⟨-, rfl⟩ | ⟨n, v, hsub, rfl, he, rfl⟩
  · cases hw
  · cases hw
    have hwr := TrackRegistry.wrapped calls hl n
    rw [he] at hwr
    exact ⟨hsub, n, rfl, fun k hk ↦ hwr.get_of_ok rfl hk⟩

private theorem of_map_ok {A B : Type} {x : TrackRegistry × Except JsError A} {f : A → B} {b : B}
    (h : x.map id (·.map f) = (r', .ok b)) : ∃ a, x = (r', .ok a) ∧ b = f a := by
  obtain ⟨t, a⟩ := x
  cases a with
  | error error => cases h
  | ok a =>
    cases h
    exact ⟨a, rfl, rfl⟩

/-- What the event callback makes of a payload tells what rtc-cpp held at the callback. -/
theorem told (hl : r.Law sid kind) {pubs : Nat → RemotePublication} {c : Callback}
    {captured : Captured} (hc : c.capture pubs = some captured) {args : List ListenerArg}
    (h : eventCallback sid kind calls r captured.createArgs = (r', .ok args)) :
    Tells sid kind r' pubs c captured.event args := by
  cases c with
  | onPublicationEvent event pub =>
    obtain ⟨i, rfl, rfl⟩ := Option.map_eq_some_iff.mp hc
    obtain ⟨p, hp, rfl⟩ := of_map_ok h
    exact .publication (published hl hp)
  | onSubscriptionEvent event i n =>
    cases hc
    simp only [Captured.createArgs, eventCallback] at h
    split at h
    · cases h
    · next r₁ w hw =>
      have hwr := TrackRegistry.wrapped calls hl n
      rw [hw] at hwr
      have hl₁ : r₁.Law sid kind := hwr.law hl
      obtain ⟨p, hp, rfl⟩ := of_map_ok h
      have hk := kept_of_published calls hl₁
        ((pubs i).snapshot.makePublicationObject (pubs i).kind.text (some n))
      rw [hp] at hk
      exact .subscription ((stands_of_wrapped hwr hl rfl).of_kept hk) (published hl₁ hp)
        fun hn v hv ↦ by
          rw [published_again hl hw hn] at hp
          cases hp
          simp only [RawRemoteTrackPublication.publish] at hv
          split at hv
          · exact (Option.some.inj hv).symm
          · cases hv
  | onTrackSubscriptionFailed i code message =>
    cases hc
    obtain ⟨p, hp, rfl⟩ := of_map_ok h
    refine .subscriptionFailed (fun hlt ↦ ?_) (published hl hp)
    rw [← intOfUInt32_of_lt hlt]
    exact TwilioError.lifted_twilioErrorFromCode _ message
  | onTrackObjectEvent event n =>
    cases hc
    obtain ⟨w, hw, rfl⟩ := of_map_ok (x := r.wrapRemoteTrack sid kind calls n) h
    have hwr := TrackRegistry.wrapped calls hl n
    rw [hw] at hwr
    exact .trackObject (stands_of_wrapped hwr hl rfl)
  | onNetworkQualityLevelChanged lvl =>
    cases hc
    cases h
    exact .level

/-- A wrapper the listeners get is the one of the track the callback names, and is cached under the
SID of that. -/
theorem cached_of_eventCallback (hl : r.Law sid kind) {pubs : Nat → RemotePublication}
    {c : Callback} {captured : Captured} (hc : c.capture pubs = some captured)
    {args : List ListenerArg}
    (h : eventCallback sid kind calls r captured.createArgs = (r', .ok args)) {w : Nat}
    (hw : w ∈ args.filterMap ListenerArg.wrapper?) :
    ∃ n, c.track? pubs = some n ∧ ∀ k, sid n = some k → r'.registry.get k = some w := by
  cases c with
  | onPublicationEvent event pub =>
    obtain ⟨i, rfl, rfl⟩ := Option.map_eq_some_iff.mp hc
    obtain ⟨p, hp, rfl⟩ := of_map_ok h
    obtain ⟨hsub, n, hn, hg⟩ := cached_of_published hl hp (by simpa [ListenerArg.wrapper?] using hw)
    exact ⟨n, by simpa [Callback.track?, hsub] using hn, hg⟩
  | onSubscriptionEvent event i n =>
    cases hc
    refine ⟨n, rfl, fun k hk ↦ ?_⟩
    have hne : sid n ≠ none := by simp [hk]
    simp only [Captured.createArgs, eventCallback] at h
    split at h
    · cases h
    · next r₁ v hv =>
      -- The object is made where the track is cached, so it has its wrapper or none.
      obtain ⟨p, hp, rfl⟩ := of_map_ok h
      rw [published_again hl hv hne] at hp
      cases hp
      have hwr := TrackRegistry.wrapped calls hl n
      rw [hv] at hwr
      have hwv : w = v := by
        simp only [List.filterMap_cons, ListenerArg.wrapper?, List.filterMap_nil,
          RawRemoteTrackPublication.publish] at hw
        split at hw <;> simp_all
      rw [hwv]
      exact hwr.get_of_ok rfl hk
  | onTrackSubscriptionFailed i code message =>
    cases hc
    obtain ⟨p, hp, rfl⟩ := of_map_ok h
    obtain ⟨-, n, hn, -⟩ := cached_of_published hl hp (by simpa [ListenerArg.wrapper?] using hw)
    cases hn
  | onTrackObjectEvent event n =>
    cases hc
    obtain ⟨v, hv, rfl⟩ := of_map_ok (x := r.wrapRemoteTrack sid kind calls n) h
    have hwr := TrackRegistry.wrapped calls hl n
    rw [hv] at hwr
    obtain rfl : w = v := by simpa [ListenerArg.wrapper?] using hw
    exact ⟨n, rfl, fun k hk ↦ hwr.get_of_ok rfl hk⟩
  | onNetworkQualityLevelChanged lvl =>
    cases hc
    cases h
    cases hw

private theorem cached_published (hl : r.Law sid kind) {k : String} {w : Nat}
    (hg : r.registry.get k = some w) (raw : RawRemoteTrackPublication)
    (hn : ∀ n, raw.track = some n → ¬ r.Replaces sid kind k n) :
    (remoteTrackPublicationFor sid kind calls r raw).1.registry.get k = some w := by
  unfold remoteTrackPublicationFor
  split
  · exact hg
  · next n he =>
    have hw := (TrackRegistry.wrapped calls hl n).get_of_cached hg (hn n he)
    split
    · next he => rwa [he] at hw
    · next he => rwa [he] at hw

/-- What is cached stays cached through the event callback, unless the track the callback names
takes it away. -/
theorem cached_eventCallback (hl : r.Law sid kind) {k : String} {w : Nat}
    (hg : r.registry.get k = some w) {pubs : Nat → RemotePublication} {c : Callback}
    {captured : Captured} (hc : c.capture pubs = some captured)
    (hn : ∀ n, c.track? pubs = some n → ¬ r.Replaces sid kind k n) :
    (eventCallback sid kind calls r captured.createArgs).1.registry.get k = some w := by
  cases c with
  | onPublicationEvent event pub =>
    obtain ⟨i, rfl, rfl⟩ := Option.map_eq_some_iff.mp hc
    exact cached_published hl hg _ fun n he ↦ hn n he
  | onSubscriptionEvent event i n =>
    cases hc
    have hwr := TrackRegistry.wrapped calls hl n
    have hw := hwr.get_of_cached hg (hn n rfl)
    simp only [Captured.createArgs, eventCallback]
    split
    · next he => rwa [he] at hw
    · next r₁ v he =>
      rw [he] at hw hwr
      by_cases hk : sid n = none
      · refine cached_published (hwr.law hl) hw _ fun m hm hrep ↦ ?_
        simp only [PublicationSnapshot.makePublicationObject] at hm
        split at hm
        · cases hm
          cases hk.symm.trans hrep.1
        · cases hm
      · simp only [published_again hl he hk]
        exact hw
  | onTrackSubscriptionFailed i code message =>
    cases hc
    refine cached_published hl hg _ fun n he ↦ ?_
    simp [PublicationSnapshot.makePublicationObject] at he
  | onTrackObjectEvent event n =>
    cases hc
    exact (TrackRegistry.wrapped calls hl n).get_of_cached hg (hn n rfl)
  | onNetworkQualityLevelChanged lvl =>
    cases hc
    exact hg

end

end VideoNode.Remote
