import VideoNode.Tracks.Subscription

/-!
# A track SID that is subscribed again

The registry keeps the wrapper of the first native track it sees for a SID until a
`trackUnsubscribed` about the SID is handled. Events come in the order rtc-cpp reported them, so
an event finds the wrapper of its own native track, unless a read of a track collection has made
one for a later native track ahead of the events about the earlier one.
-/

namespace VideoNode.Tracks

open VideoNode.Js VideoNode.Lts

namespace Subscriptions

section

variable (sid : NativeTrack → Option String) (kind : NativeTrack → NativeKind)
  (publisher : NativeTrack → Nat)

/-- A wrapper of `m` that is cached under `k` meets, among the queued events about `k`, first
those about `m` up to its `trackUnsubscribed`; where that is not queued, `m` is subscribed. -/
def Settles (k : String) (m : NativeTrack) (subscribed : List NativeTrack) :
    List TrackEvent → Prop
  | [] => m ∈ subscribed
  | event :: queue =>
    if event.track.bind sid = some k then
      event.track = some m ∧ (event.isUnsubscribed = true ∨ Settles k m subscribed queue)
    else Settles k m subscribed queue

/-- A wrapper made for any event of the queue, when its turn comes, settles. -/
def Shaped (subscribed : List NativeTrack) : List TrackEvent → Prop
  | [] => True
  | event :: queue =>
    (∀ n k, event.track = some n → sid n = some k → event.isUnsubscribed = false →
      Settles sid k n subscribed queue) ∧ Shaped subscribed queue

/-- What one participant is subscribed to agrees with its queue. -/
structure Party (p : Nat) (subscribed : List NativeTrack) (queue : List TrackEvent) : Prop where
  owned : ∀ n, n ∈ subscribed → publisher n = p
  single : ∀ n m k, n ∈ subscribed → m ∈ subscribed → sid n = some k → sid m = some k → n = m
  mine : ∀ event n, event ∈ queue → event.track = some n → publisher n = p
  shaped : Shaped sid subscribed queue

/-- Subscriptions and queues agree, and what is cached settles. -/
structure Inv (s : Subscriptions) : Prop where
  party : ∀ p, Party sid publisher p (s.subscribed p) (s.queue p)
  law : s.registry.Law sid kind
  settled : ∀ k m, s.registry.backing k = some m →
    Settles sid k m (s.subscribed (publisher m)) (s.queue (publisher m))
  head : ∀ p w, s.handling = some (p, w) → ∃ event rest, s.queue p = event :: rest ∧
    (event.isUnsubscribed = true →
      ∃ w' t, w = some w' ∧ s.registry.tracks[w']? = some t ∧ event.track = some t.native)
  handed : ∀ n w, (n, w) ∈ s.handed → ∃ t, s.registry.tracks[w]? = some t ∧ t.native = n

/-- No event that is queued or being handled is about another native track with its SID. -/
def Clean (s : Subscriptions) (n : NativeTrack) : Prop :=
  ∀ event ∈ s.queue (publisher n), ∀ m ∈ event.track, sid m = sid n → sid n = none ∨ m = n

/-- A condition on each publication a read of a track collection goes through. -/
def Reads (c : TrackRegistry → NativeTrack → Prop) (calls : Nat → EndCalls) (r : TrackRegistry) :
    List NativeTrack → Prop
  | [] => True
  | n :: found => c r n ∧
    match publication sid kind calls r (some n) with
    | (_, .error _) => True
    | (r, .ok ()) => Reads c calls r found

/-- A read makes no wrapper for a native track while an event about another one with its SID is
queued or being handled. -/
def Admits (s : Subscriptions) : SubscriptionAct → Prop
  | .tracks p c calls => Reads sid kind
    (fun r n ↦ r.Mints sid kind n → Clean sid publisher s n) calls s.registry
    (s.collection kind p c)
  | _ => True

private def decidableReads (c : TrackRegistry → NativeTrack → Prop) [∀ r n, Decidable (c r n)]
    (calls : Nat → EndCalls) : ∀ (r : TrackRegistry) (found : List NativeTrack),
      Decidable (Reads sid kind c calls r found)
  | _, [] => isTrue True.intro
  | r, n :: found =>
    match h : publication sid kind calls r (some n) with
    | (_, .error _) => decidable_of_iff (c r n) (by simp [Reads, h])
    | (r', .ok ()) =>
      have := decidableReads c calls r' found
      decidable_of_iff (c r n ∧ Reads sid kind c calls r' found) (by simp [Reads, h])

instance (s : Subscriptions) (n : NativeTrack) : Decidable (Clean sid publisher s n) :=
  inferInstanceAs (Decidable (∀ event ∈ s.queue (publisher n), ∀ m ∈ event.track, _))

instance (s : Subscriptions) (a : SubscriptionAct) : Decidable (Admits sid kind publisher s a) :=
  match a with
  | .tracks p c calls => decidableReads sid kind _ calls s.registry (s.collection kind p c)
  | .onTrackSubscribed _ | .onTrackUnsubscribed _ | .onPublicationEvent _ _ _
  | .onTrackObjectEvent _ _ | .deliver _ _ | .emitted _ | .frames _ _ _ | .listen _ _
  | .returnIterator _ _ _ | .releaseAll _ => isTrue True.intro

/-- The native track of the `trackUnsubscribed` that a participant handles next. -/
def nextUnsubscribed (s : Subscriptions) (p : Nat) : Option NativeTrack :=
  match s.queue p with
  | .trackUnsubscribed n _ :: _ => some n
  | _ => none

/-- The native track whose `trackUnsubscribed` a step handles a part of. -/
def unsubscribing (s : Subscriptions) : SubscriptionAct → Option NativeTrack
  | .deliver p _ => s.nextUnsubscribed p
  | .emitted _ => s.handling.bind fun handling ↦ s.nextUnsubscribed handling.1
  | _ => none

variable {sid kind publisher} {s s' : Subscriptions}

/-- No subscriptions. -/
theorem inv_init : Inv sid kind publisher init := by
  refine ⟨fun p ↦ ⟨?_, ?_, ?_, True.intro⟩, ⟨?_⟩, ?_, ?_, ?_⟩
  · intro n hn
    cases hn
  · intro n m k hn
    cases hn
  · intro event n he
    cases he
  · intro k w hw
    cases hw
  · intro k m hm
    cases hm
  · intro p w hh
    cases hh
  · intro n w hn
    cases hn

/-- A wrapper that settles meets an event about its SID as one about its native track. -/
theorem settles_cons {k : String} {m : NativeTrack} {l : List NativeTrack} {event : TrackEvent}
    {q : List TrackEvent} : Settles sid k m l (event :: q) ↔
      (event.track.bind sid = some k →
        event.track = some m ∧ (event.isUnsubscribed = true ∨ Settles sid k m l q)) ∧
      (event.track.bind sid ≠ some k → Settles sid k m l q) := by
  rw [Settles]
  split
  · next ha => simp [ha]
  · next ha => simp [ha]

private theorem settles_append {k : String} {m : NativeTrack} {l l' : List NativeTrack}
    {q q' : List TrackEvent} (h : Settles sid k m l q) (hl : m ∈ l → Settles sid k m l' q') :
    Settles sid k m l' (q ++ q') := by
  induction q with
  | nil => exact hl h
  | cons event q ih =>
    obtain ⟨ha, hn⟩ := settles_cons.mp h
    rw [List.cons_append]
    exact settles_cons.mpr ⟨fun he ↦ ⟨(ha he).1, (ha he).2.imp_right ih⟩, fun he ↦ ih (hn he)⟩

private theorem shaped_append {l l' : List NativeTrack} {q q' : List TrackEvent}
    (h : Shaped sid l q) (hl : ∀ n k, sid n = some k → n ∈ l → Settles sid k n l' q')
    (hq : Shaped sid l' q') : Shaped sid l' (q ++ q') := by
  induction q with
  | nil => exact hq
  | cons event q ih =>
    exact ⟨fun n k ht hk hu ↦ settles_append (h.1 n k ht hk hu) (hl n k hk), ih h.2⟩

-- What rtc-cpp leaves subscribed when it reports an event.
private structure Reports (sid : NativeTrack → Option String) (publisher : NativeTrack → Nat)
    (p : Nat) (subscribed : List NativeTrack) (event : TrackEvent) (l : List NativeTrack) :
    Prop where
  owned : ∀ n, n ∈ l → publisher n = p
  single : ∀ n m k, n ∈ l → m ∈ l → sid n = some k → sid m = some k → n = m
  mine : ∀ n, event.track = some n → publisher n = p
  settles : ∀ n k, sid n = some k → n ∈ subscribed → Settles sid k n l [event]
  current : ∀ n, event.track = some n → event.isUnsubscribed = false → n ∈ l

private theorem Party.report {p : Nat} {l l' : List NativeTrack} {q : List TrackEvent}
    {event : TrackEvent} (h : Party sid publisher p l q) (hr : Reports sid publisher p l event l') :
    Party sid publisher p l' (q ++ [event]) := by
  refine ⟨hr.owned, hr.single, ?_, ?_⟩
  · intro e n he ht
    rcases List.mem_append.mp he with he | he
    · exact h.mine e n he ht
    · cases List.mem_singleton.mp he
      exact hr.mine n ht
  · exact shaped_append h.shaped hr.settles
      ⟨fun n _ ht _ hu ↦ hr.current n ht hu, True.intro⟩

private theorem inv_report {p : Nat} {event : TrackEvent} {l : List NativeTrack}
    (h : Inv sid kind publisher s) (hr : Reports sid publisher p (s.subscribed p) event l) :
    Inv sid kind publisher
      (dispatchEvent { s with subscribed := Function.update s.subscribed p l } p event) := by
  refine ⟨fun q ↦ ?_, h.law, fun k m hb ↦ ?_, fun q w hh ↦ ?_, h.handed⟩
  · by_cases hq : q = p
    · subst hq
      simpa only [dispatchEvent, Function.update_self] using (h.party q).report hr
    · simpa only [dispatchEvent, Function.update_of_ne hq] using h.party q
  · have hs := h.settled k m hb
    by_cases hm : publisher m = p
    · subst hm
      have hk := h.law.sid_of_backing hb
      simpa only [dispatchEvent, Function.update_self] using settles_append hs (hr.settles m k hk)
    · simpa only [dispatchEvent, Function.update_of_ne hm] using hs
  · obtain ⟨e, rest, he, hu⟩ := h.head q w hh
    by_cases hq : q = p
    · subst hq
      exact ⟨e, rest ++ [event], by simp [dispatchEvent, he], hu⟩
    · exact ⟨e, rest, by simp [dispatchEvent, Function.update_of_ne hq, he], hu⟩

private theorem inv_onTrackSubscribed {n : NativeTrack} (h : Inv sid kind publisher s)
    (hs : s.onTrackSubscribed sid publisher n = some s') : Inv sid kind publisher s' := by
  unfold onTrackSubscribed at hs
  split at hs
  · next hv =>
    cases hs
    have hp := h.party (publisher n)
    have hv : ∀ m ∈ s.subscribed (publisher n), ∀ k, sid m = some k → sid n ≠ some k := by
      intro m hm k hk hn
      have := List.all_eq_true.mp hv m hm
      simp [hk, hn] at this
    refine inv_report h ⟨?_, ?_, ?_, ?_, ?_⟩
    · intro m hm
      rcases List.mem_append.mp hm with hm | hm
      · exact hp.owned m hm
      · rw [List.mem_singleton.mp hm]
    · intro m m' k hm hm' hk hk'
      rcases List.mem_append.mp hm with hm | hm
      · rcases List.mem_append.mp hm' with hm' | hm'
        · exact hp.single m m' k hm hm' hk hk'
        · cases List.mem_singleton.mp hm'
          exact absurd hk' (hv m hm k hk)
      · cases List.mem_singleton.mp hm
        rcases List.mem_append.mp hm' with hm' | hm'
        · exact absurd hk (hv m' hm' k hk')
        · exact (List.mem_singleton.mp hm').symm
    · rintro m hm
      cases hm
      rfl
    · intro m k hk hm
      exact settles_cons.mpr ⟨fun ha ↦ absurd ha (hv m hm k hk), fun _ ↦ List.mem_append_left _ hm⟩
    · rintro m hm -
      cases hm
      exact List.mem_append_right _ (List.mem_singleton_self _)
  · cases hs

private theorem inv_onTrackUnsubscribed {n : NativeTrack} (h : Inv sid kind publisher s)
    (hs : s.onTrackUnsubscribed publisher n = some s') : Inv sid kind publisher s' := by
  simp only [onTrackUnsubscribed] at hs
  split at hs
  · next hn =>
    cases hs
    have hp := h.party (publisher n)
    refine inv_report h ⟨?_, ?_, ?_, ?_, ?_⟩
    · exact fun m hm ↦ hp.owned m (List.mem_filter.mp hm).1
    · exact fun m m' k hm hm' ↦
        hp.single m m' k (List.mem_filter.mp hm).1 (List.mem_filter.mp hm').1
    · rintro m hm
      cases hm
      rfl
    · intro m k hk hm
      refine settles_cons.mpr ⟨fun ha ↦ ?_, fun ha ↦ ?_⟩
      · rw [hp.single m n k hm hn hk ha]
        exact ⟨rfl, .inl rfl⟩
      · have hne : m ≠ n := by
          rintro rfl
          exact ha hk
        exact List.mem_filter.mpr ⟨hm, by simpa using hne⟩
    · rintro m - hu
      cases hu
  · cases hs

private theorem inv_current {p : Nat} {event : TrackEvent} (h : Inv sid kind publisher s)
    (ht : ∀ n, event.track = some n → n ∈ s.subscribed p) :
    Inv sid kind publisher (s.dispatchEvent p event) := by
  have hp := h.party p
  have hr : Reports sid publisher p (s.subscribed p) event (s.subscribed p) := by
    refine ⟨hp.owned, hp.single, fun n hn ↦ hp.owned n (ht n hn), fun m k hk hm ↦ ?_,
      fun n hn _ ↦ ht n hn⟩
    refine settles_cons.mpr ⟨fun ha ↦ ?_, fun _ ↦ hm⟩
    obtain ⟨n, hn, hnk⟩ := Option.bind_eq_some_iff.mp ha
    rw [hn, hp.single n m k (ht n hn) hm hnk hk]
    exact ⟨rfl, .inr hm⟩
  have hi := inv_report h hr
  rwa [Function.update_eq_self] at hi

private theorem inv_registry {r : TrackRegistry} (h : Inv sid kind publisher s)
    (hl : r.Law sid kind) (hk : s.registry.Kept r) (hs : ∀ k m, r.backing k = some m →
      Settles sid k m (s.subscribed (publisher m)) (s.queue (publisher m))) :
    Inv sid kind publisher { s with registry := r } := by
  refine ⟨h.party, hl, hs, fun p w hh ↦ ?_, fun n w hn ↦ ?_⟩
  · obtain ⟨event, rest, he, hu⟩ := h.head p w hh
    refine ⟨event, rest, he, fun hun ↦ ?_⟩
    obtain ⟨w', t, hw, ht, hn⟩ := hu hun
    obtain ⟨t', ht', hsame⟩ := hk.same w' t ht
    exact ⟨w', t', hw, ht', by rw [hsame.native, hn]⟩
  · obtain ⟨t, ht, hn⟩ := h.handed n w hn
    obtain ⟨t', ht', hsame⟩ := hk.same w t ht
    exact ⟨t', ht', hsame.native.trans hn⟩

private theorem inv_shrunk {r : TrackRegistry} (h : Inv sid kind publisher s)
    (hr : s.registry.Shrunk r) : Inv sid kind publisher { s with registry := r } :=
  inv_registry h (hr.law h.law) hr.toKept fun k m hb ↦ h.settled k m (hr.backing h.law hb)

private theorem inv_wrap {calls : Nat → EndCalls} {n : NativeTrack}
    {r : TrackRegistry × Except JsError Nat} (h : Inv sid kind publisher s)
    (hr : s.registry.Wrapped sid kind calls n r)
    (hm : s.registry.Mints sid kind n → ∀ k, sid n = some k →
      Settles sid k n (s.subscribed (publisher n)) (s.queue (publisher n))) :
    Inv sid kind publisher { s with registry := r.1 } := by
  refine inv_registry h (hr.law h.law) hr.kept fun k m hb ↦ ?_
  rcases hr.backing h.law hb with hb | ⟨hk, rfl, hmint⟩
  · exact h.settled k m hb
  · exact hm hmint k hk

private theorem settles_of_clean {n : NativeTrack} {k : String} {l : List NativeTrack}
    {q : List TrackEvent} (hn : n ∈ l) (hk : sid n = some k)
    (hq : ∀ event ∈ q, ∀ m ∈ event.track, sid m = sid n → sid n = none ∨ m = n) :
    Settles sid k n l q := by
  induction q with
  | nil => exact hn
  | cons event q ih =>
    have ih := ih fun e he ↦ hq e (List.mem_cons_of_mem _ he)
    refine settles_cons.mpr ⟨fun ha ↦ ?_, fun _ ↦ ih⟩
    obtain ⟨m, hm, hmk⟩ := Option.bind_eq_some_iff.mp ha
    rcases hq event (List.mem_cons_self ..) m hm (hmk.trans hk.symm) with hno | rfl
    · rw [hk] at hno
      cases hno
    · exact ⟨hm, .inr ih⟩

private theorem inv_tracks {calls : Nat → EndCalls} {p : Nat} (found : List NativeTrack)
    (h : Inv sid kind publisher s) (hfound : ∀ n ∈ found, n ∈ s.subscribed p)
    (hc : Reads sid kind (fun r n ↦ r.Mints sid kind n → Clean sid publisher s n) calls s.registry
      found) :
    Inv sid kind publisher
      { s with registry := readTracks sid kind calls s.registry found } := by
  -- Reading changes the registry only, so the condition on queues is about one and the same state.
  have hall : ∀ (found : List NativeTrack) (r : TrackRegistry), (∀ n ∈ found, n ∈ s.subscribed p) →
      Reads sid kind (fun r n ↦ r.Mints sid kind n → Clean sid publisher s n) calls r found →
      Inv sid kind publisher { s with registry := r } →
      Inv sid kind publisher { s with registry := readTracks sid kind calls r found } := by
    intro found
    induction found with
    | nil => exact fun r _ _ h ↦ h
    | cons n found ih =>
      intro r hf hc h
      have hn := hf n (List.mem_cons_self ..)
      have howned : publisher n = p := (h.party p).owned n hn
      have hi : Inv sid kind publisher
          { s with registry := (publication sid kind calls r (some n)).1 } := by
        refine inv_wrap (s := { s with registry := r }) h (TrackRegistry.wrapped calls h.law n)
          fun hm k hk ↦ ?_
        exact settles_of_clean (howned.symm ▸ hn) hk (hc.1 hm)
      have hc := hc.2
      unfold readTracks
      revert hi hc
      cases publication sid kind calls r (some n) with
      | mk r' result =>
        cases result with
        | error error => exact fun hi _ ↦ hi
        | ok u => exact fun hi hc ↦ ih r' (fun m hm ↦ hf m (List.mem_cons_of_mem _ hm)) hc hi
  exact hall found s.registry hfound hc h

-- What the event callback needs of the registry, and what it leaves, when it has the next event of
-- participant `p`.
private structure Callback (sid : NativeTrack → Option String) (kind : NativeTrack → NativeKind)
    (publisher : NativeTrack → Nat) (s : Subscriptions) (event : TrackEvent)
    (r : TrackRegistry × Except JsError (Option Nat)) : Prop where
  inv : Inv sid kind publisher { s with registry := r.1 }
  steady : ∀ (w : Nat) (t : RemoteTrack), s.registry.tracks[w]? = some t →
    r.1.tracks[w]? = some t
  backed : ∀ w, r.2 = .ok (some w) → ∃ t, r.1.tracks[w]? = some t ∧ event.track = some t.native
  wraps : ∀ w, r.2 = .ok w → event.isUnsubscribed = true → ∃ w', w = some w'
  cleared : ∀ error, r.2 = .error error → ∀ n k, event.track = some n → sid n = some k →
    r.1.backing k = none

private theorem inv_pop {p : Nat} {event : TrackEvent} {rest : List TrackEvent} {r : TrackRegistry}
    (h : Inv sid kind publisher s) (hq : s.queue p = event :: rest) (hr : s.registry.Shrunk r)
    (hclear : event.isUnsubscribed = true → ∀ n k, event.track = some n → sid n = some k →
      r.backing k = none) :
    Inv sid kind publisher
      { s with handling := none, queue := Function.update s.queue p rest, registry := r } := by
  refine ⟨fun q ↦ ?_, hr.law h.law, fun k m hb ↦ ?_, fun q w hh ↦ (by cases hh),
    fun n w hn ↦ ?_⟩
  · by_cases he : q = p
    · subst he
      have hp := h.party q
      rw [hq] at hp
      simp only [Function.update_self]
      exact ⟨hp.owned, hp.single, fun e n hm ↦ hp.mine e n (List.mem_cons_of_mem _ hm), hp.shaped.2⟩
    · simpa only [Function.update_of_ne he] using h.party q
  · have hold := hr.backing h.law hb
    have hs := h.settled k m hold
    by_cases he : publisher m = p
    · rw [he, hq] at hs
      simp only [he, Function.update_self]
      obtain ⟨ha, hn⟩ := settles_cons.mp hs
      by_cases habout : event.track.bind sid = some k
      · obtain ⟨htrack, hu | hrest⟩ := ha habout
        · -- The entry of a track that was unsubscribed is gone.
          rw [hclear hu m k htrack (h.law.sid_of_backing hold)] at hb
          cases hb
        · exact hrest
      · exact hn habout
    · simpa only [Function.update_of_ne he] using hs
  · obtain ⟨t, ht, hn⟩ := h.handed n w hn
    obtain ⟨t', ht', hsame⟩ := hr.same w t ht
    exact ⟨t', ht', hsame.native.trans hn⟩

private theorem shrunk_afterEmit {calls : Nat → EndCalls} (r : TrackRegistry) (event : TrackEvent)
    (w : Option Nat) : r.Shrunk (afterEmit sid calls r event w) := by
  unfold afterEmit
  split
  · exact TrackRegistry.shrunk_releaseRemoteTrack ..
  · exact .refl r

private theorem inv_emitted {calls : Nat → EndCalls} (h : Inv sid kind publisher s)
    (hs : s.emitted sid calls = some s') : Inv sid kind publisher s' := by
  unfold emitted at hs
  split at hs
  · cases hs
  · next p w hh =>
    obtain ⟨event, rest, hq, hu⟩ := h.head p w hh
    rw [hq] at hs
    cases hs
    refine inv_pop h hq (shrunk_afterEmit ..) fun hun n k hn hk ↦ ?_
    obtain ⟨w', t, rfl, ht, htn⟩ := hu hun
    cases event with
    | trackUnsubscribed m b =>
      rw [hn] at htn
      cases htn
      simp only [afterEmit, ht, Option.bind_some, hk]
      exact TrackRegistry.backing_releaseRemoteTrack ..
    | _ => cases hun

section Sole

variable (hsole : ∀ n m k, sid n = some k → sid m = some k → publisher n = publisher m)

include hsole in
private theorem backing_of_head {p : Nat} {event : TrackEvent} {rest : List TrackEvent}
    (h : Inv sid kind publisher s) (hq : s.queue p = event :: rest) {n : NativeTrack}
    (hn : event.track = some n) {k : String} {m : NativeTrack} (hk : sid n = some k)
    (hb : s.registry.backing k = some m) : m = n := by
  have hp : publisher n = p := (h.party p).mine event n (by rw [hq]; exact List.mem_cons_self ..) hn
  have hs := h.settled k m hb
  rw [hsole m n k (h.law.sid_of_backing hb) hk, hp, hq] at hs
  have hm := ((settles_cons.mp hs).1 (by rw [hn]; exact hk)).1
  rw [hn] at hm
  cases hm
  rfl

-- What wrapping the native track of the next event leaves.
private structure Wrap (sid : NativeTrack → Option String) (kind : NativeTrack → NativeKind)
    (publisher : NativeTrack → Nat) (s : Subscriptions) (n : NativeTrack)
    (r : TrackRegistry × Except JsError Nat) : Prop where
  inv : Inv sid kind publisher { s with registry := r.1 }
  steady : ∀ (w : Nat) (t : RemoteTrack), s.registry.tracks[w]? = some t →
    r.1.tracks[w]? = some t
  backed : ∀ w, r.2 = .ok w → ∃ t, r.1.tracks[w]? = some t ∧ t.native = n
  cleared : ∀ error, r.2 = .error error → ∀ k, sid n = some k → r.1.backing k = none

include hsole in
private theorem wrap_head {calls : Nat → EndCalls} {p : Nat} {event : TrackEvent}
    {rest : List TrackEvent} (h : Inv sid kind publisher s) (hq : s.queue p = event :: rest)
    {n : NativeTrack} (hn : event.track = some n) :
    Wrap sid kind publisher s n (s.registry.wrapRemoteTrack sid kind calls n) := by
  have hr := TrackRegistry.wrapped calls h.law n
  have hb : ∀ k m, sid n = some k → s.registry.backing k = some m → m = n :=
    fun k m hk hb ↦ backing_of_head hsole h hq hn hk hb
  refine ⟨inv_wrap h hr fun _ k hk ↦ ?_, fun w t ht ↦ hr.steady h.law hb ht,
    fun w hw ↦ hr.native_of_ok hw hb, fun error he k hk ↦ hr.backing_of_error he hk⟩
  have hp : publisher n = p := (h.party p).mine event n (by rw [hq]; exact List.mem_cons_self ..) hn
  have hshaped := (h.party p).shaped
  rw [hq] at hshaped
  rw [hp, hq]
  refine settles_cons.mpr ⟨fun _ ↦ ⟨hn, ?_⟩, fun ha ↦ absurd (by rw [hn]; exact hk) ha⟩
  cases hu : event.isUnsubscribed with
  | true => exact .inl rfl
  | false => exact .inr (hshaped.1 n k hn hk hu)

include hsole in
private theorem wrap_subscriptionEvent {calls : Nat → EndCalls} {p : Nat} {event : TrackEvent}
    {rest : List TrackEvent} (h : Inv sid kind publisher s) (hq : s.queue p = event :: rest)
    {n : NativeTrack} (hn : event.track = some n) (isSubscribed : Bool) :
    Wrap sid kind publisher s n (subscriptionEvent sid kind calls s.registry n isSubscribed) := by
  have hw : Wrap sid kind publisher s n (s.registry.wrapRemoteTrack sid kind calls n) :=
    wrap_head hsole h hq hn
  unfold subscriptionEvent
  generalize s.registry.wrapRemoteTrack sid kind calls n = r at hw
  obtain ⟨r, result⟩ := r
  cases result with
  | error error => exact ⟨hw.inv, hw.steady, fun w he ↦ (by cases he), hw.cleared⟩
  | ok w =>
    cases isSubscribed with
    | false => exact hw
    | true =>
      -- The publication wraps the track once more, and finds it unless it has no SID.
      have hw' : Wrap sid kind publisher { s with registry := r } n
          (r.wrapRemoteTrack sid kind calls n) := wrap_head hsole hw.inv hq hn
      simp only [publication, if_true]
      generalize r.wrapRemoteTrack sid kind calls n = r' at hw'
      obtain ⟨r', result⟩ := r'
      refine ⟨hw'.inv, fun v t ht ↦ hw'.steady v t (hw.steady v t ht), fun v he ↦ ?_,
        fun error he k hk ↦ ?_⟩
      · cases result with
        | error error => cases he
        | ok u =>
          cases he
          obtain ⟨t, ht, htn⟩ := hw.backed w rfl
          exact ⟨t, hw'.steady w t ht, htn⟩
      · cases result with
        | error e => exact hw'.cleared e rfl k hk
        | ok u => cases he

private theorem Wrap.callback {event : TrackEvent} {n : NativeTrack}
    {r : TrackRegistry × Except JsError Nat} (h : Wrap sid kind publisher s n r)
    (hn : event.track = some n) :
    Callback sid kind publisher s event (r.map id (·.map some)) := by
  obtain ⟨r, result⟩ := r
  cases result with
  | error error =>
    refine ⟨h.inv, h.steady, fun w he ↦ (by cases he), fun w he ↦ (by cases he), ?_⟩
    intro e _ m k hm hk
    rw [hn] at hm
    cases hm
    exact h.cleared error rfl k hk
  | ok w =>
    refine ⟨h.inv, h.steady, fun v he ↦ ?_, fun v he _ ↦ ?_, fun e he ↦ (by cases he)⟩
    · cases he
      obtain ⟨t, ht, htn⟩ := h.backed w rfl
      exact ⟨t, ht, by rw [hn, htn]⟩
    · cases he
      exact ⟨w, rfl⟩

include hsole in
private theorem callback {p : Nat} {event : TrackEvent} {rest : List TrackEvent}
    (h : Inv sid kind publisher s) (hq : s.queue p = event :: rest) (calls : Nat → EndCalls) :
    Callback sid kind publisher s event (eventCallback sid kind calls s.registry event) := by
  cases event with
  | trackSubscribed n b => exact (wrap_subscriptionEvent hsole h hq rfl b).callback rfl
  | trackUnsubscribed n b => exact (wrap_subscriptionEvent hsole h hq rfl b).callback rfl
  | trackObject event n => exact (wrap_head hsole h hq rfl).callback rfl
  | publication event track =>
    cases track with
    | none =>
      exact ⟨h, fun _ _ ht ↦ ht, fun w he ↦ (by cases he), fun w _ hu ↦ (by cases hu),
        fun e he ↦ (by cases he)⟩
    | some n =>
      have hw : Wrap sid kind publisher s n (s.registry.wrapRemoteTrack sid kind calls n) :=
        wrap_head hsole h hq rfl
      simp only [eventCallback, publication]
      generalize s.registry.wrapRemoteTrack sid kind calls n = r at hw
      obtain ⟨r, result⟩ := r
      cases result with
      | error error =>
        refine ⟨hw.inv, hw.steady, fun w he ↦ (by cases he), fun w he ↦ (by cases he), ?_⟩
        intro e _ m k hm hk
        cases hm
        exact hw.cleared error rfl k hk
      | ok w =>
        exact ⟨hw.inv, hw.steady, fun v he ↦ (by cases he), fun w _ hu ↦ (by cases hu),
          fun e he ↦ (by cases he)⟩

include hsole in
private theorem inv_deliver {calls : Nat → EndCalls} {p : Nat} (h : Inv sid kind publisher s)
    (hs : s.deliver sid kind p calls = some s') : Inv sid kind publisher s' := by
  unfold deliver at hs
  split at hs
  · next event rest hh hq =>
    have hc := callback hsole h hq calls
    generalize eventCallback sid kind calls s.registry event = r at hs hc
    obtain ⟨r, result⟩ := r
    cases result with
    | error error =>
      cases hs
      have hi := inv_pop (s := { s with registry := r }) hc.inv hq (.refl r)
        fun _ n k hn hk ↦ hc.cleared error rfl n k hn hk
      simpa only [hh] using hi
    | ok w =>
      cases hs
      refine ⟨hc.inv.party, hc.inv.law, hc.inv.settled, fun q v hv ↦ ?_, fun n v hn ↦ ?_⟩
      · cases hv
        refine ⟨event, rest, hq, fun hun ↦ ?_⟩
        obtain ⟨w', rfl⟩ := hc.wraps w rfl hun
        obtain ⟨t, ht, htn⟩ := hc.backed w' rfl
        exact ⟨w', t, rfl, ht, htn⟩
      · rcases List.mem_append.mp hn with hn | hn
        · exact hc.inv.handed n v hn
        · cases event with
          | trackSubscribed m b =>
            cases w with
            | none => cases hn
            | some w =>
              cases List.mem_singleton.mp hn
              obtain ⟨t, ht, htn⟩ := hc.backed v rfl
              cases htn
              exact ⟨t, ht, rfl⟩
          | _ => cases w <;> cases hn
  · cases hs

include hsole in
/-- Every step that the condition admits keeps the invariant. -/
theorem inv_step {a : SubscriptionAct} (h : Inv sid kind publisher s)
    (ha : Admits sid kind publisher s a) (hs : step sid kind publisher s a = some s') :
    Inv sid kind publisher s' := by
  cases a with
  | onTrackSubscribed n => exact inv_onTrackSubscribed h hs
  | onTrackUnsubscribed n => exact inv_onTrackUnsubscribed h hs
  | onPublicationEvent p event track =>
    simp only [step, onPublicationEvent] at hs
    split at hs
    · next ht =>
      cases hs
      exact inv_current h ht
    · cases hs
  | onTrackObjectEvent event n =>
    simp only [step, onTrackObjectEvent] at hs
    split at hs
    · next hn =>
      cases hs
      refine inv_current h fun m hm ↦ ?_
      cases hm
      exact hn
    · cases hs
  | deliver p calls => exact inv_deliver hsole h hs
  | emitted calls => exact inv_emitted h hs
  | tracks p c calls =>
    cases hs
    exact inv_tracks _ h (fun n hn ↦ (List.mem_filter.mp hn).1) ha
  | frames w options call =>
    cases hs
    exact inv_shrunk h (TrackRegistry.shrunk_modify _ w fun _ ↦ RemoteTrack.same_frames)
  | listen w call =>
    cases hs
    exact inv_shrunk h (TrackRegistry.shrunk_modify _ w fun _ ↦ RemoteTrack.same_listen)
  | returnIterator w r calls =>
    cases hs
    exact inv_shrunk h (TrackRegistry.shrunk_modify _ w fun _ ↦ RemoteTrack.same_returnIterator)
  | releaseAll calls =>
    cases hs
    exact inv_shrunk h (TrackRegistry.shrunk_releaseAllRemoteTracks _)

private theorem queue_of_nextUnsubscribed {p : Nat} {n : NativeTrack}
    (h : s.nextUnsubscribed p = some n) :
    ∃ b rest, s.queue p = .trackUnsubscribed n b :: rest := by
  unfold nextUnsubscribed at h
  split at h
  · next m b rest hq =>
    cases h
    exact ⟨b, rest, hq⟩
  · cases h

include hsole in
private theorem steady_deliver {calls : Nat → EndCalls} {p w : Nat} {t : RemoteTrack}
    (h : Inv sid kind publisher s) (hs : s.deliver sid kind p calls = some s')
    (ht : s.registry.tracks[w]? = some t) : s'.registry.tracks[w]? = some t := by
  unfold deliver at hs
  split at hs
  · next event rest hh hq =>
    have hc := callback hsole h hq calls
    generalize eventCallback sid kind calls s.registry event = r at hs hc
    obtain ⟨r, result⟩ := r
    cases result with
    | error error =>
      cases hs
      exact hc.steady w t ht
    | ok v =>
      cases hs
      exact hc.steady w t ht
  · cases hs

include hsole in
private theorem steady_emitted {calls : Nat → EndCalls} {n : NativeTrack} {w : Nat}
    {t : RemoteTrack} (h : Inv sid kind publisher s) (hs : s.emitted sid calls = some s')
    (hn : unsubscribing s (.emitted calls) = some n) (ht : s.registry.tracks[w]? = some t)
    (hne : t.native ≠ n) : s'.registry.tracks[w]? = some t := by
  obtain ⟨⟨p, v⟩, hh, hn⟩ := Option.bind_eq_some_iff.mp hn
  obtain ⟨b, rest, hq⟩ := queue_of_nextUnsubscribed hn
  obtain ⟨event, rest', hq', hu⟩ := h.head p v hh
  cases hq.symm.trans hq'
  obtain ⟨v, u, rfl, hvu, hun⟩ := hu rfl
  cases hun
  unfold emitted at hs
  rw [hh] at hs
  simp only [hq] at hs
  cases hs
  refine TrackRegistry.steady_releaseRemoteTrack ht fun k hk hw ↦ hne ?_
  rw [hvu, Option.bind_some] at hk
  -- What is cached under the SID of the track that was unsubscribed stands for that track.
  exact backing_of_head hsole h hq rfl hk (TrackRegistry.backing_eq_some.mpr ⟨w, t, hw, ht, rfl⟩)

include hsole in
/-- In every run in which no read of a track collection makes a wrapper for a native track while
an event about another one with its SID is queued or being handled: the listeners of each
`trackSubscribed` got a wrapper of the native track it was about, and no step of the handling of
a `trackUnsubscribed` touches a wrapper of another native track. -/
theorem subscription_backed (as : List SubscriptionAct)
    (ha : (machine sid kind publisher).Along (Admits sid kind publisher) init as)
    (s : Subscriptions) (hs : (machine sid kind publisher).exec init as = some s) :
    (∀ n w, (n, w) ∈ s.handed → ∃ t, s.registry.tracks[w]? = some t ∧ t.native = n) ∧
    ∀ (a : SubscriptionAct) (s' : Subscriptions) (n : NativeTrack) (w : Nat) (t : RemoteTrack),
      step sid kind publisher s a = some s' → unsubscribing s a = some n →
      s.registry.tracks[w]? = some t → t.native ≠ n → s'.registry.tracks[w]? = some t := by
  have hi : Inv sid kind publisher s :=
    Machine.exec_invariant_along (m := machine sid kind publisher)
      (c := Admits sid kind publisher) (p := Inv sid kind publisher)
      (fun _ _ _ h ha hs ↦ inv_step hsole h ha hs) inv_init ha hs
  refine ⟨hi.handed, fun a s' n w t hs' hn ht hne ↦ ?_⟩
  cases a with
  | deliver p calls => exact steady_deliver hsole hi hs' ht
  | emitted calls => exact steady_emitted hsole hi hs' hn ht hne
  | _ => cases hn

end Sole

end

private def returning (_ : Nat) : EndCalls := .returning

-- Subscribed, received from, unsubscribed and subscribed again, with a read in between that finds
-- the older wrapper.
private def resubscribing : List SubscriptionAct :=
  [.onTrackSubscribed 1, .deliver 0 returning, .emitted returning, .frames 0 .undefined (.ok ()),
    .onTrackUnsubscribed 1, .onTrackSubscribed 2, .tracks 0 .video returning, .deliver 0 returning,
    .emitted returning, .deliver 0 returning, .emitted returning]

/-- A track that is subscribed again gets a wrapper of its own. -/
theorem subscription_backed_again : ∃ s : Subscriptions,
    (machine (fun _ ↦ some "MT") (fun _ ↦ .video) fun _ ↦ 0).Reachable s ∧
    s.handed = [(1, 0), (2, 1)] ∧ ∃ t, s.registry.tracks[1]? = some t ∧ t.native = 2 := by
  have ha : (machine (fun _ ↦ some "MT") (fun _ ↦ .video) fun _ ↦ 0).Along
      (Admits (fun _ ↦ some "MT") (fun _ ↦ .video) fun _ ↦ 0) init resubscribing := by
    decide +kernel
  have hrun : ((machine (fun _ ↦ some "MT") (fun _ ↦ .video) fun _ ↦ 0).exec init
      resubscribing).map (fun s ↦ s.handed) = some [(1, 0), (2, 1)] := by decide +kernel
  obtain ⟨s, hs, hh⟩ := Option.map_eq_some_iff.mp hrun
  have hb := subscription_backed (fun _ _ _ _ _ ↦ rfl) resubscribing ha s hs
  exact ⟨s, ⟨resubscribing, hs⟩, hh, hb.1 2 1 (by simp [hh])⟩

-- The read finds the newer native track while all events wait.
private def readingAhead : List SubscriptionAct :=
  [.onTrackSubscribed 1, .onTrackUnsubscribed 1, .onTrackSubscribed 2, .tracks 0 .video returning,
    .frames 0 .undefined (.ok ()), .deliver 0 returning]

/-- A read ahead of the events gives `trackSubscribed` the wrapper of a later native track, whose
receiver the `trackUnsubscribed` of the earlier one ends. -/
theorem subscription_crossed :
    (¬ ∀ s : Subscriptions, (machine (fun _ ↦ some "MT") (fun _ ↦ .video) fun _ ↦ 0).Reachable s →
      ∀ n w, (n, w) ∈ s.handed → ∃ t, s.registry.tracks[w]? = some t ∧ t.native = n) ∧
    ¬ ∀ s : Subscriptions, (machine (fun _ ↦ some "MT") (fun _ ↦ .video) fun _ ↦ 0).Reachable s →
      ∀ (a : SubscriptionAct) (s' : Subscriptions) (n : NativeTrack) (w : Nat) (t : RemoteTrack),
        step (fun _ ↦ some "MT") (fun _ ↦ .video) (fun _ ↦ 0) s a = some s' →
        unsubscribing s a = some n → s.registry.tracks[w]? = some t → t.native ≠ n →
        t.native ∈ s.subscribed 0 → t.receiving = true →
        ∃ t', s'.registry.tracks[w]? = some t' ∧ t'.receiving = true := by
  constructor
  · intro h
    have hrun : ((machine (fun _ ↦ some "MT") (fun _ ↦ .video) fun _ ↦ 0).exec init
        readingAhead).map (fun s ↦ (s.handed, s.registry.tracks[0]?.map RemoteTrack.native)) =
        some ([(1, 0)], some 2) := by decide +kernel
    obtain ⟨s, hs, hr⟩ := Option.map_eq_some_iff.mp hrun
    simp only [Prod.mk.injEq] at hr
    obtain ⟨hh, hn⟩ := hr
    obtain ⟨t, ht, ht'⟩ := h s ⟨readingAhead, hs⟩ 1 0 (by simp [hh])
    simp [ht, ht'] at hn
  · intro h
    have hrun : ((machine (fun _ ↦ some "MT") (fun _ ↦ .video) fun _ ↦ 0).exec init
        (readingAhead ++ [.emitted returning, .deliver 0 returning])).map (fun s ↦
          (unsubscribing s (.emitted returning), s.subscribed 0,
            s.registry.tracks[0]?.map fun t ↦ (t.native, t.receiving),
            (step (fun _ ↦ some "MT") (fun _ ↦ .video) (fun _ ↦ 0) s (.emitted returning)).bind
              fun s' ↦ s'.registry.tracks[0]?.map RemoteTrack.receiving)) =
        some (some 1, [2], some (2, true), some false) := by decide +kernel
    obtain ⟨s, hs, hr⟩ := Option.map_eq_some_iff.mp hrun
    simp only [Prod.mk.injEq] at hr
    obtain ⟨hu, hsub, ht, hs'⟩ := hr
    obtain ⟨t, ht, hnr⟩ := Option.map_eq_some_iff.mp ht
    simp only [Prod.mk.injEq] at hnr
    obtain ⟨s', hs', hlast⟩ := Option.bind_eq_some_iff.mp hs'
    obtain ⟨t', ht', hr'⟩ := h s ⟨_, hs⟩ _ s' 1 0 t hs' hu ht (by simp [hnr]) (by simp [hnr, hsub])
      hnr.2
    simp [ht', hr'] at hlast

end Subscriptions

end VideoNode.Tracks
