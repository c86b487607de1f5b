import VideoNode.Tracks.Subscription

/-!
# Ending the receivers of a Room

Native calls return here, as those of `src/media/remote_{video,audio,data}_track_wrap.cpp` do.
Then a track has at most one receiver, and it is the one `_end()` ends; what ends every wrapper
the registry has cached leaves no receiver exactly where none is on another wrapper.
-/

namespace VideoNode.Tracks

open VideoNode.Js VideoNode.Frames VideoNode.Lts

namespace MediaTrack

/-- The one stream that has not ended is the current one. -/
def Sound (t : MediaTrack) : Prop := ∀ r, t.ended[r]? = some false ↔ t.stream = some r

/-- A track without a receiver. -/
theorem sound_create (n : NativeTrack) : (create n).Sound := by
  intro r
  simp [create]

/-- `frames()` starts a stream only where there is none. -/
theorem sound_frames {t : MediaTrack} (h : t.Sound) (kind : TrackKind) (sid : Option String)
    (options : JsValue) : (t.frames kind sid options (.ok ())).1.Sound := by
  unfold frames
  split
  · exact h
  · next hs =>
    split
    · exact h
    · intro r
      have hnone : t.stream = none := by simpa using hs
      have hno : t.ended[r]? ≠ some false := by
        rw [ne_eq, h r, hnone]
        simp
      rw [List.getElem?_append]
      simp only [Option.some.injEq]
      split
      · next hlt =>
        simp only [hno, false_iff]
        omega
      · next hge =>
        rw [List.getElem?_singleton]
        split
        · simp only [true_iff]
          omega
        · simp only [reduceCtorEq, false_iff]
          omega

/-- Ending a stream ends that one, and frees the track if it was current. -/
theorem endStream_sound {t : MediaTrack} (h : t.Sound) (r : Nat) :
    (t.endStream r .returning).1.Sound ∧ (t.endStream r .returning).2 = .ok () := by
  unfold endStream
  split
  · next hr =>
    refine ⟨fun i ↦ ?_, rfl⟩
    simp only [onEnd, EndCalls.returning, reduceCtorEq, iff_false]
    intro hi
    have hlt := (List.getElem?_eq_some_iff.mp hr).1
    by_cases hir : r = i
    · subst hir
      rw [List.getElem?_set_self hlt] at hi
      cases hi
    · rw [List.getElem?_set_ne hir, h i, (h r).mp hr] at hi
      cases hi
      exact hir rfl
  · exact ⟨h, rfl⟩

end MediaTrack

namespace RemoteTrack

/-- A stream has not ended, or the native message callback is installed. -/
def live : RemoteTrack → Bool
  | .video t | .audio t => t.ended.contains false
  | .data t => t.callback

/-- The receiver is the one `_end()` ends. -/
def Sound : RemoteTrack → Prop
  | .video t | .audio t => t.Sound
  | .data t => t.callback = t.attached

/-- A new track has no receiver. -/
theorem sound_create {kind : NativeKind} {n : NativeTrack} {t : RemoteTrack}
    (h : create kind n = .ok t) : t.Sound ∧ t.live = false := by
  cases kind <;> cases h
  · exact ⟨MediaTrack.sound_create n, rfl⟩
  · exact ⟨MediaTrack.sound_create n, rfl⟩
  · exact ⟨rfl, rfl⟩

/-- `frames()`. -/
theorem sound_frames {t : RemoteTrack} (h : t.Sound) (sid : Option String) (options : JsValue) :
    (t.frames sid options (.ok ())).Sound := by
  cases t with
  | video t => exact MediaTrack.sound_frames h .video sid options
  | audio t => exact MediaTrack.sound_frames h .audio sid options
  | data t => exact h

/-- Adding a listener. -/
theorem sound_listen {t : RemoteTrack} (h : t.Sound) : (t.listen (.ok ())).Sound := by
  cases t with
  | video t => exact h
  | audio t => exact h
  | data t =>
    simp only [listen, DataTrack.ensureMessageSink]
    split
    · exact h
    · rfl

/-- Returning from an iterator. -/
theorem sound_returnIterator {t : RemoteTrack} (h : t.Sound) (r : Nat) :
    (t.returnIterator r .returning).Sound := by
  cases t with
  | video t => exact (MediaTrack.endStream_sound h r).1
  | audio t => exact (MediaTrack.endStream_sound h r).1
  | data t => exact h

private theorem dead_of_sound {t : MediaTrack} (h : t.Sound) (hn : t.stream = none) :
    t.ended.contains false = false := by
  rw [← Bool.not_eq_true, List.contains_iff_mem]
  intro hm
  obtain ⟨r, hr⟩ := List.mem_iff_getElem?.mp hm
  rw [h r, hn] at hr
  cases hr

private theorem ends_media {t : MediaTrack} (h : t.Sound) :
    (t.endTrack .returning).1.Sound ∧ (t.endTrack .returning).1.stream = none ∧
      (t.endTrack .returning).2 = .ok () := by
  unfold MediaTrack.endTrack
  split
  · next hn => exact ⟨h, hn, rfl⟩
  · next r hr =>
    obtain ⟨hs, he⟩ := MediaTrack.endStream_sound h r
    refine ⟨hs, ?_, he⟩
    simp [MediaTrack.endStream, (h r).mpr hr, MediaTrack.onEnd, EndCalls.returning]

/-- What `_end()` leaves: a track without a receiver. -/
structure Ends (t : RemoteTrack) (r : RemoteTrack × NativeCall) : Prop where
  sound : r.1.Sound
  dead : r.1.live = false
  ok : r.2 = .ok ()
  idle : t.live = false → r.1 = t

/-- `_end()` ends the receiver, and a track without one is left as it is. -/
theorem ends_endTrack {t : RemoteTrack} (h : t.Sound) : Ends t (t.endTrack .returning) := by
  have hidle : ∀ m : MediaTrack, m.Sound → m.ended.contains false = false →
      m.endTrack .returning = (m, .ok ()) := by
    intro m hm hd
    unfold MediaTrack.endTrack
    split
    · rfl
    · next r hr =>
      have hmem := List.mem_of_getElem? ((hm r).mpr hr)
      rw [← Bool.not_eq_true, List.contains_iff_mem] at hd
      exact absurd hmem hd
  cases t with
  | video t =>
    obtain ⟨hs, hn, he⟩ := ends_media h
    exact ⟨hs, dead_of_sound hs hn, he, fun hd ↦ by simp [endTrack, hidle t h hd]⟩
  | audio t =>
    obtain ⟨hs, hn, he⟩ := ends_media h
    exact ⟨hs, dead_of_sound hs hn, he, fun hd ↦ by simp [endTrack, hidle t h hd]⟩
  | data t =>
    have h : t.callback = t.attached := h
    simp only [endTrack, DataTrack.endTrack]
    split
    · next ha =>
      have ha : t.attached = false := by simpa using ha
      exact ⟨h, h.trans ha, rfl, fun _ ↦ rfl⟩
    · next ha =>
      have ha : t.attached = true := by simpa using ha
      refine ⟨rfl, rfl, rfl, fun hd ↦ ?_⟩
      have hd : t.callback = false := hd
      rw [h, ha] at hd
      cases hd

end RemoteTrack

namespace TrackRegistry

/-- No native call throws. -/
def returning (_ : Nat) : EndCalls := .returning

/-- On every wrapper `_end()` ends the receiver. -/
def Sound (s : TrackRegistry) : Prop :=
  ∀ (w : Nat) (t : RemoteTrack), s.tracks[w]? = some t → t.Sound

/-- No wrapper has a receiver. -/
def Silent (s : TrackRegistry) : Prop :=
  ∀ (w : Nat) (t : RemoteTrack), s.tracks[w]? = some t → t.live = false

/-- Whoever has a receiver is cached. -/
def Accounted (s : TrackRegistry) : Prop :=
  ∀ (w : Nat) (t : RemoteTrack), s.tracks[w]? = some t → t.live = true →
    ∃ k, s.registry.get k = some w

variable {sid : NativeTrack → Option String} {kind : NativeTrack → NativeKind}
  {s s' : TrackRegistry} {n : NativeTrack}

private theorem sound_set {w : Nat} {t t' : RemoteTrack} (h : s.Sound)
    (ht : s.tracks[w]? = some t) (h' : t'.Sound) (r : JsMap String Nat) :
    Sound ⟨s.tracks.set w t', r⟩ := by
  intro v u hu
  rcases Parties.getElem?_set ht hu with ⟨-, rfl⟩ | ⟨-, hu⟩
  · exact h'
  · exact h v u hu

/-- A call that keeps every track sound keeps the registry so. -/
theorem sound_modify (h : s.Sound) (w : Nat) {f : RemoteTrack → RemoteTrack}
    (hf : ∀ t : RemoteTrack, t.Sound → (f t).Sound) : (s.modify w f).Sound := by
  cases ht : s.tracks[w]? with
  | none =>
    rw [modify, List.modify_eq_self (List.getElem?_eq_none_iff.mp ht)]
    exact h
  | some t =>
    rw [modify, Parties.modify_eq_set_of ht]
    exact sound_set h ht (hf t (h w t ht)) s.registry

/-- Wrapping a native track keeps the registry sound. -/
theorem sound_wrapped {r : TrackRegistry × Except JsError Nat}
    (hr : s.Wrapped sid kind returning n r) (h : s.Sound) : r.1.Sound := by
  have hc : ∀ {s₀}, s.Cleared sid kind returning n s₀ → s₀.Sound := by
    intro s₀ hc
    cases hc with
    | absent he => exact h
    | ended hk hw ht hne => exact sound_set h ht (RemoteTrack.ends_endTrack (h _ _ ht)).sound _
  cases hr with
  | found hk hw ht he => exact h
  | made hcl ht =>
    intro v u hu
    rcases Parties.getElem?_concat hu with ⟨-, rfl⟩ | hu
    · exact (RemoteTrack.sound_create ht).1
    · exact hc hcl v u hu
  | failed hcl => exact hc hcl

-- What ending some wrappers leaves.
private structure Ended (s : TrackRegistry) (ws : List Nat) (r : TrackRegistry × NativeCall) :
    Prop where
  ok : r.2 = .ok ()
  sound : r.1.Sound
  registry : r.1.registry = s.registry
  length : r.1.tracks.length = s.tracks.length
  dead : ∀ (v : Nat) (t : RemoteTrack), v ∈ ws → r.1.tracks[v]? = some t → t.live = false
  rest : ∀ v : Nat, v ∉ ws → r.1.tracks[v]? = s.tracks[v]?
  idle : ∀ (v : Nat) (t : RemoteTrack), s.tracks[v]? = some t → t.live = false →
    r.1.tracks[v]? = some t

private theorem ended_endTrack (h : s.Sound) (w : Nat) : Ended s [w] (s.endTrack returning w) := by
  unfold endTrack
  split
  · next hw =>
    refine ⟨rfl, h, rfl, rfl, fun v t hv ht ↦ ?_, fun _ _ ↦ rfl, fun _ _ ht _ ↦ ht⟩
    rw [List.mem_singleton.mp hv, hw] at ht
    cases ht
  · next u hu =>
    have he := RemoteTrack.ends_endTrack (h w u hu)
    refine ⟨he.ok, sound_set h hu he.sound _, rfl, List.length_set, fun v t hv ht ↦ ?_,
      fun v hv ↦ ?_, fun v t ht hd ↦ ?_⟩
    · rw [List.mem_singleton.mp hv] at ht
      cases (Parties.getElem?_set_self hu).symm.trans ht
      exact he.dead
    · exact List.getElem?_set_ne fun heq ↦ hv (by simp [heq])
    · rcases Parties.getElem?_after_set hu ht with ⟨rfl, rfl, hb⟩ | ⟨-, hb⟩
      · exact (hb _).trans (congrArg some (he.idle hd))
      · exact hb _

private theorem ended_endTracks (ws : List Nat) (h : s.Sound) :
    Ended s ws (s.endTracks returning ws) := by
  induction ws generalizing s with
  | nil =>
    exact ⟨rfl, h, rfl, rfl, fun v t hv ↦ (by cases hv), fun _ _ ↦ rfl, fun _ _ ht _ ↦ ht⟩
  | cons w ws ih =>
    have hw := ended_endTrack h w
    unfold endTracks
    generalize s.endTrack returning w = r at hw
    obtain ⟨r, result⟩ := r
    obtain rfl : result = .ok () := hw.ok
    have hws := ih hw.sound
    refine ⟨hws.ok, hws.sound, hws.registry.trans hw.registry, hws.length.trans hw.length,
      fun v t hv ht ↦ ?_, fun v hv ↦ ?_, fun v t ht hd ↦ hws.idle v t (hw.idle v t ht hd) hd⟩
    · by_cases hmem : v ∈ ws
      · exact hws.dead v t hmem ht
      · have hvw : v = w := by simpa [hmem] using hv
        rw [hws.rest v hmem] at ht
        exact hw.dead v t (by simp [hvw]) ht
    · simp only [List.mem_cons, not_or] at hv
      rw [hws.rest v hv.2]
      exact hw.rest v (by simpa using hv.1)

/-- What is cached is what the loop of `releaseAllRemoteTracks()` goes through. -/
theorem mem_values {w : Nat} :
    w ∈ s.registry.entries.map Prod.snd ↔ ∃ k, s.registry.get k = some w := by
  simp only [List.mem_map, Prod.exists, exists_eq_right, JsMap.mem_entries]

private theorem ended_releaseAll (h : s.Sound) :
    (s.releaseAllRemoteTracks returning).2 = .ok () ∧
      ∃ r, Ended s (s.registry.entries.map Prod.snd) (r, .ok ()) ∧
        (s.releaseAllRemoteTracks returning).1 = { r with registry := .empty } := by
  have he := ended_endTracks (s.registry.entries.map Prod.snd) h
  unfold releaseAllRemoteTracks
  generalize s.endTracks returning (s.registry.entries.map Prod.snd) = r at he
  obtain ⟨r, result⟩ := r
  obtain rfl : result = .ok () := he.ok
  exact ⟨rfl, r, he, rfl⟩

/-- Whether all receivers are accounted for can be checked. -/
instance (s : TrackRegistry) : Decidable s.Accounted :=
  decidable_of_iff (∀ w ∈ List.range s.tracks.length, ∀ t ∈ s.tracks[w]?, t.live = true →
      w ∈ s.registry.entries.map Prod.snd) <| by
    simp only [mem_values, Option.mem_def, List.mem_range]
    constructor
    · intro h w t ht
      exact h w (List.getElem?_eq_some_iff.mp ht).1 t ht
    · intro h w _ t ht
      exact h w t ht

/-- Releasing all leaves no receiver exactly if no wrapper that is not cached has one. -/
theorem silent_releaseAll_iff (h : s.Sound) :
    (s.releaseAllRemoteTracks returning).1.Silent ↔ s.Accounted := by
  obtain ⟨-, r, he, hr⟩ := ended_releaseAll h
  rw [hr]
  constructor
  · intro hsil w t ht hlive
    rw [← mem_values]
    apply Classical.byContradiction
    intro hno
    have hd := hsil w t ((he.rest w hno).trans ht)
    rw [hlive] at hd
    cases hd
  · intro hacc w t ht
    by_cases hw : w ∈ s.registry.entries.map Prod.snd
    · exact he.dead w t hw ht
    · have ht : s.tracks[w]? = some t := (he.rest w hw).symm.trans ht
      cases hlive : t.live with
      | false => rfl
      | true => exact absurd (mem_values.mpr (hacc w t ht hlive)) hw

/-- Releasing all keeps the registry sound. -/
theorem sound_releaseAll (h : s.Sound) : (s.releaseAllRemoteTracks returning).1.Sound := by
  obtain ⟨-, r, he, hr⟩ := ended_releaseAll h
  rw [hr]
  exact he.sound

/-- Releasing a SID keeps the registry sound. -/
theorem sound_release (h : s.Sound) (k : Option String) :
    (s.releaseRemoteTrack returning k).1.Sound := by
  have hd : (s.delete k).Sound := by
    cases k with
    | none => exact h
    | some k => exact h
  unfold releaseRemoteTrack
  split
  · exact h
  · exact (ended_endTrack hd _).sound

end TrackRegistry

open TrackRegistry (returning)

/-- The native calls of an action return. -/
def SubscriptionAct.Returns : SubscriptionAct → Prop
  | .deliver _ calls | .emitted calls | .tracks _ _ calls | .releaseAll calls => calls = returning
  | .frames _ _ call | .listen _ call => call = .ok ()
  | .returnIterator _ _ calls => calls = .returning
  | .onTrackSubscribed _ | .onTrackUnsubscribed _ | .onPublicationEvent _ _ _
  | .onTrackObjectEvent _ _ => True

namespace Subscriptions

variable {sid : NativeTrack → Option String} {kind : NativeTrack → NativeKind}
  {publisher : NativeTrack → Nat} {s s' : Subscriptions} {r : TrackRegistry}

/-- What is cached is where it belongs, and every receiver is the one `_end()` ends. -/
structure Good (sid : NativeTrack → Option String) (kind : NativeTrack → NativeKind)
    (r : TrackRegistry) : Prop where
  law : r.Law sid kind
  sound : r.Sound

private theorem good_shrunk {r' : TrackRegistry} (h : Good sid kind r) (hr : r.Shrunk r')
    (hs : r'.Sound) : Good sid kind r' :=
  ⟨hr.law h.law, hs⟩

private theorem good_wrap (h : Good sid kind r) (n : NativeTrack) :
    Good sid kind (r.wrapRemoteTrack sid kind returning n).1 := by
  have hw := TrackRegistry.wrapped returning h.law n
  exact ⟨hw.law h.law, TrackRegistry.sound_wrapped hw h.sound⟩

private theorem good_publication (h : Good sid kind r) (track : Option NativeTrack) :
    Good sid kind (publication sid kind returning r track).1 := by
  cases track with
  | none => exact h
  | some n => exact good_wrap h n

private theorem good_subscriptionEvent (h : Good sid kind r) (n : NativeTrack)
    (isSubscribed : Bool) :
    Good sid kind (subscriptionEvent sid kind returning r n isSubscribed).1 := by
  have hw := good_wrap h n
  unfold subscriptionEvent
  generalize r.wrapRemoteTrack sid kind returning n = r' at hw
  obtain ⟨r', result⟩ := r'
  cases result with
  | error error => exact hw
  | ok w => exact good_publication hw _

private theorem good_eventCallback (h : Good sid kind r) (event : TrackEvent) :
    Good sid kind (eventCallback sid kind returning r event).1 := by
  cases event with
  | trackSubscribed n b => exact good_subscriptionEvent h n b
  | trackUnsubscribed n b => exact good_subscriptionEvent h n b
  | publication event track => exact good_publication h track
  | trackObject event n => exact good_wrap h n

private theorem good_afterEmit (h : Good sid kind r) (event : TrackEvent) (w : Option Nat) :
    Good sid kind (afterEmit sid returning r event w) := by
  unfold afterEmit
  split
  · exact good_shrunk h (TrackRegistry.shrunk_releaseRemoteTrack ..)
      (TrackRegistry.sound_release h.sound _)
  · exact h

private theorem good_readTracks (found : List NativeTrack) (h : Good sid kind r) :
    Good sid kind (readTracks sid kind returning r found) := by
  induction found generalizing r with
  | nil => exact h
  | cons n found ih =>
    have hp := good_publication h (some n)
    unfold readTracks
    generalize publication sid kind returning r (some n) = r' at hp
    obtain ⟨r', result⟩ := r'
    cases result with
    | error error => exact hp
    | ok u => exact ih hp

/-- Every step whose native calls return keeps the registry good. -/
theorem good_step {a : SubscriptionAct} (h : Good sid kind s.registry) (ha : a.Returns)
    (hs : step sid kind publisher s a = some s') : Good sid kind s'.registry := by
  cases a with
  | onTrackSubscribed n =>
    simp only [step, onTrackSubscribed, Option.ite_none_right_eq_some, Option.some.injEq] at hs
    obtain ⟨-, rfl⟩ := hs
    exact h
  | onTrackUnsubscribed n =>
    simp only [step, onTrackUnsubscribed, Option.ite_none_right_eq_some, Option.some.injEq] at hs
    obtain ⟨-, rfl⟩ := hs
    exact h
  | onPublicationEvent p event track =>
    simp only [step, onPublicationEvent, Option.ite_none_right_eq_some, Option.some.injEq] at hs
    obtain ⟨-, rfl⟩ := hs
    exact h
  | onTrackObjectEvent event n =>
    simp only [step, onTrackObjectEvent, Option.ite_none_right_eq_some, Option.some.injEq] at hs
    obtain ⟨-, rfl⟩ := hs
    exact h
  | deliver p calls =>
    obtain rfl : calls = returning := ha
    simp only [step, deliver] at hs
    split at hs
    · next event rest hh hq =>
      have hg := good_eventCallback h event
      generalize eventCallback sid kind returning s.registry event = r at hs hg
      obtain ⟨r, result⟩ := r
      cases result <;> cases hs <;> exact hg
    · cases hs
  | emitted calls =>
    obtain rfl : calls = returning := ha
    simp only [step, emitted] at hs
    split at hs
    · cases hs
    · split at hs
      · cases hs
      · cases hs
        exact good_afterEmit h _ _
  | tracks p c calls =>
    obtain rfl : calls = returning := ha
    cases hs
    exact good_readTracks _ h
  | frames w options call =>
    obtain rfl : call = .ok () := ha
    cases hs
    exact good_shrunk h (TrackRegistry.shrunk_modify _ w fun _ ↦ RemoteTrack.same_frames)
      (TrackRegistry.sound_modify h.sound w fun _ ht ↦ RemoteTrack.sound_frames ht _ _)
  | listen w call =>
    obtain rfl : call = .ok () := ha
    cases hs
    exact good_shrunk h (TrackRegistry.shrunk_modify _ w fun _ ↦ RemoteTrack.same_listen)
      (TrackRegistry.sound_modify h.sound w fun _ ↦ RemoteTrack.sound_listen)
  | returnIterator w i calls =>
    obtain rfl : calls = .returning := ha
    cases hs
    exact good_shrunk h (TrackRegistry.shrunk_modify _ w fun _ ↦ RemoteTrack.same_returnIterator)
      (TrackRegistry.sound_modify h.sound w fun _ ht ↦ RemoteTrack.sound_returnIterator ht i)
  | releaseAll calls =>
    obtain rfl : calls = returning := ha
    cases hs
    exact good_shrunk h (TrackRegistry.shrunk_releaseAllRemoteTracks _)
      (TrackRegistry.sound_releaseAll h.sound)

/-- Whenever a Room has ended what its registry has cached, no wrapper has a receiver. -/
def Silences (sid : NativeTrack → Option String) (kind : NativeTrack → NativeKind)
    (publisher : NativeTrack → Nat) (s : Subscriptions) (a : SubscriptionAct) : Prop :=
  ∀ calls, a = .releaseAll calls → ∀ s', step sid kind publisher s a = some s' →
    s'.registry.Silent

/-- Whenever a Room ends, whoever has a receiver is cached. -/
def Accounts (s : Subscriptions) (a : SubscriptionAct) : Prop :=
  ∀ calls, a = .releaseAll calls → s.registry.Accounted

/-- Whether a step accounts for all receivers can be checked. -/
instance (s : Subscriptions) : ∀ a, Decidable (s.Accounts a)
  | .releaseAll calls => decidable_of_iff s.registry.Accounted (by simp [Accounts])
  | .onTrackSubscribed _ | .onTrackUnsubscribed _ | .onPublicationEvent _ _ _
  | .onTrackObjectEvent _ _ | .deliver _ _ | .emitted _ | .tracks _ _ _ | .frames _ _ _
  | .listen _ _ | .returnIterator _ _ _ => isTrue (by simp [Accounts])

/-- In a run no wrapper has a receiver whenever the Room has ended, by `'disconnected'` or by
`dispose()`, exactly if each time only wrappers that the registry had cached had one. -/
theorem teardown_silent_iff (as : List SubscriptionAct) (has : ∀ a ∈ as, a.Returns) :
    (machine sid kind publisher).Along (Silences sid kind publisher) init as ↔
      (machine sid kind publisher).Along Accounts init as := by
  refine Machine.along_iff (i := fun s ↦ Good sid kind s.registry)
    (fun s a t ha hs ht ↦ good_step hs (has a ha) ht) (fun s a ha hs ↦ ?_) ?_
  · refine forall₂_congr fun calls hcalls ↦ ?_
    subst hcalls
    obtain rfl : calls = returning := has _ ha
    rw [← TrackRegistry.silent_releaseAll_iff hs.sound]
    simp [step]
  · refine ⟨⟨fun k w hw ↦ ?_⟩, fun w t ht ↦ ?_⟩
    · cases hw
    · cases ht

-- Both kinds of receiver are there when the Room ends.
private def receivingBoth : List SubscriptionAct :=
  [.onTrackSubscribed 0, .onTrackSubscribed 1, .deliver 0 returning, .emitted returning,
    .deliver 0 returning, .emitted returning, .frames 0 .undefined (.ok ()), .listen 1 (.ok ())]

/-- A Room that ends while a video track and a data track have receivers. -/
theorem teardown_silent_iff_both :
    (machine (fun n ↦ some (toString n)) (fun n ↦ if n = 0 then .video else .data)
      fun _ ↦ 0).Along
      (Silences (fun n ↦ some (toString n)) (fun n ↦ if n = 0 then .video else .data) fun _ ↦ 0)
      init (receivingBoth ++ [.releaseAll returning]) := by
  apply (teardown_silent_iff _ ?_).mpr
  · decide +kernel
  · simp [receivingBoth, SubscriptionAct.Returns]

-- The application holds the wrapper of a track that is unsubscribed, and starts a receiver.
private def receivingLate : List SubscriptionAct :=
  [.onTrackSubscribed 0, .deliver 0 returning, .emitted returning, .onTrackUnsubscribed 0,
    .deliver 0 returning, .emitted returning, .frames 0 .undefined (.ok ())]

/-- A receiver on a wrapper that the registry has forgotten outlives the Room. -/
theorem teardown_unended :
    ¬ ∀ as : List SubscriptionAct, (∀ a ∈ as, a.Returns) →
      (machine (fun _ ↦ some "MT") (fun _ ↦ .video) fun _ ↦ 0).Along
        (Silences (fun _ ↦ some "MT") (fun _ ↦ .video) fun _ ↦ 0) init as := by
  intro h
  have hrun : ((machine (fun _ ↦ some "MT") (fun _ ↦ .video) fun _ ↦ 0).exec init
      receivingLate).map (fun s ↦
        (s.registry.releaseAllRemoteTracks returning).1.tracks.map RemoteTrack.live) =
      some [true] := by decide +kernel
  obtain ⟨s, hs, hlive⟩ := Option.map_eq_some_iff.mp hrun
  have ha := (h (receivingLate ++ [.releaseAll returning])
    (by simp [receivingLate, SubscriptionAct.Returns])).append hs
  have hsil := ha.1 returning rfl _ rfl
  obtain ⟨t, ht, htl⟩ := List.map_eq_singleton_iff.mp hlive
  have hd := hsil 0 t (by simp [ht])
  rw [htl] at hd
  cases hd

end Subscriptions

end VideoNode.Tracks
