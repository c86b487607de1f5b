import VideoNode.Local.Failures

/-!
# Publications of the local participant

The `LocalTrackPublication`s an application gets (`lib/track_publication.ts`) from the collections
and the `trackPublished` event of `lib/local_participant.ts`. Their tracks are looked up by name in
what the participant published, and each of them unpublishes its track once.
-/

namespace VideoNode.Local

open VideoNode.Js VideoNode.Lts

/-- What rtc-cpp answers for a publication of the local participant. -/
structure NativePublication where
  trackSid : String
  trackName : String
  isTrackEnabled : Bool

/-- `TrackPublication` as the native layer sends it. -/
structure RawTrackPublication where
  trackSid : String
  trackName : String
  kind : String
  isTrackEnabled : Option Bool

/-- An entry of a native collection; `src/video/local_participant_wrap.cpp:264–271`. -/
def NativePublication.entry (kind : String) (pub : NativePublication) : RawTrackPublication :=
  ⟨pub.trackSid, pub.trackName, kind, some pub.isTrackEnabled⟩

/-- `GetVideoTracks`; `src/video/local_participant_wrap.cpp:256–274`. -/
def getVideoTracks (publications : List NativePublication) : List RawTrackPublication :=
  publications.map (·.entry "video")

/-- `GetAudioTracks`; `src/video/local_participant_wrap.cpp:276–294`. -/
def getAudioTracks (publications : List NativePublication) : List RawTrackPublication :=
  publications.map (·.entry "audio")

/-- `GetDataTracks`; `src/video/local_participant_wrap.cpp:296–314`. -/
def getDataTracks (publications : List NativePublication) : List RawTrackPublication :=
  publications.map (·.entry "data")

/-- `dispatchTrackEvent`, whose payload does not say whether the track is enabled;
`src/video/local_participant_wrap.cpp:45–58,112–120`. -/
def dispatchTrackEvent (trackSid trackName kind : String) : RawTrackPublication :=
  ⟨trackSid, trackName, kind, none⟩

/-- A `LocalTrackPublication`, of the class for its kind. `unpublishFn` is whether `#unpublish` is
still there; `lib/track_publication.ts:23–60`. -/
structure LocalTrackPublication where
  cls : LocalKind
  trackSid : String
  trackName : String
  kind : String
  isTrackEnabled : Option Bool
  track : Option LocalTrack
  unpublishFn : Bool
  deriving DecidableEq, Repr

/-- `unpublish()`, with the track it calls `unpublishTrack` with, if it does;
`lib/track_publication.ts:68–74`. -/
def LocalTrackPublication.unpublish (pub : LocalTrackPublication) :
    Option LocalTrack × LocalTrackPublication :=
  if pub.unpublishFn && pub.track.isSome then (pub.track, { pub with unpublishFn := false })
  else (none, pub)

namespace LocalParticipant

/-- The constructor as the participant calls it. -/
def publication (p : LocalParticipant) (cls : LocalKind) (raw : RawTrackPublication) :
    LocalTrackPublication :=
  ⟨cls, raw.trackSid, raw.trackName, raw.kind, raw.isTrackEnabled,
    p.publishedTracks.get raw.trackName, true⟩

/-- The loop of a collection. -/
def collection (p : LocalParticipant) (cls : LocalKind) (raws : List RawTrackPublication) :
    JsMap String LocalTrackPublication :=
  JsMap.empty.setAll (raws.map fun raw ↦ (raw.trackSid, p.publication cls raw))

/-- `videoTracks`; `lib/local_participant.ts:165–172`. -/
def videoTracks (p : LocalParticipant) (publications : List NativePublication) :
    JsMap String LocalTrackPublication :=
  p.collection .video (getVideoTracks publications)

/-- `audioTracks`; `lib/local_participant.ts:175–182`. -/
def audioTracks (p : LocalParticipant) (publications : List NativePublication) :
    JsMap String LocalTrackPublication :=
  p.collection .audio (getAudioTracks publications)

/-- `dataTracks`; `lib/local_participant.ts:185–192`. -/
def dataTracks (p : LocalParticipant) (publications : List NativePublication) :
    JsMap String LocalTrackPublication :=
  p.collection .data (getDataTracks publications)

/-- `tracks`; `lib/local_participant.ts:195–201`. -/
def tracks (p : LocalParticipant) (video audio data : List NativePublication) :
    JsMap String LocalTrackPublication :=
  ((JsMap.empty.setAll (p.videoTracks video).entries).setAll (p.audioTracks audio).entries).setAll
    (p.dataTracks data).entries

/-- `_resolvePublishedTrack`; `lib/local_participant.ts:253–282`. -/
def resolvePublishedTrack (p : LocalParticipant) (raw : Option RawTrackPublication) :
    Except JsError (Option LocalTrackPublication) :=
  match raw.filter (·.trackSid ≠ "") with
  | none => .ok none
  | some raw =>
    if raw.kind = "video" then .ok (some (p.publication .video raw))
    else if raw.kind = "audio" then .ok (some (p.publication .audio raw))
    else if raw.kind = "data" then .ok (some (p.publication .data raw))
    else .error ⟨.error, "Unexpected track kind: " ++ raw.kind, none⟩

end LocalParticipant

/-- A publication object, with the number of the native publication it was made of, whether that was
still there then, and what rtc-cpp answered for whether it is enabled: an event does not ask. -/
structure Handle where
  publication : Nat
  natively : Bool
  answered : Option Bool
  pub : LocalTrackPublication
  deriving DecidableEq, Repr

/-- A `LocalParticipant` with every publication object it made. -/
structure Publications where
  publishing : Publishing
  handles : List Handle

/-- What happens to a participant and its publication objects. -/
inductive PublicationsAct where
  | publishing (a : PublishingAct)
  /-- A collection is read while rtc-cpp lists these publications. -/
  | collection (kind : LocalKind) (answer : List Nat) (enabled : Nat → Bool)
  /-- A `trackPublished` event is handled, however long ago it was raised. -/
  | trackPublished (i : Nat)
  | unpublish (h : Nat) (result : Bool)

namespace Publishing

variable (sid : Nat → String)

/-- What rtc-cpp answers for publications it lists. -/
def natives (s : Publishing) (answer : List Nat) (enabled : Nat → Bool) : List NativePublication :=
  answer.filterMap fun i ↦ s.publications[i]?.map fun e ↦ ⟨sid i, e.1.name, enabled i⟩

/-- It lists publications of the kind that are still there. -/
def Lists (s : Publishing) (kind : LocalKind) (answer : List Nat) : Prop :=
  ∀ i ∈ answer, ∃ e ∈ s.publications[i]?, e.1.kind = kind ∧ e.2 = .published

instance (s : Publishing) (kind : LocalKind) (answer : List Nat) :
    Decidable (s.Lists kind answer) :=
  inferInstanceAs (Decidable (∀ i ∈ answer, ∃ e ∈ s.publications[i]?, _))

end Publishing

/-- A publication keeps its number and its track. -/
theorem Publishing.publication_kept {m : Nat} {s s' : Publishing} {a : PublishingAct}
    (hs : s.step m a = some s') {i : Nat} {t : LocalTrack} {st : PublicationState}
    (hi : s.publications[i]? = some (t, st)) : ∃ st', s'.publications[i]? = some (t, st') := by
  cases a with
  | track track a =>
    obtain ⟨u, -, rfl⟩ := Option.map_eq_some_iff.mp hs
    exact ⟨st, hi⟩
  | localParticipant =>
    simp only [step] at hs
    split at hs
    · cases hs
      exact ⟨st, hi⟩
    · cases hs
      exact ⟨st, hi⟩
  | publishTrack track result =>
    obtain ⟨p, -, rfl⟩ := Option.map_eq_some_iff.mp hs
    split
    · exact ⟨st, hi⟩
    · dsimp only
      split
      · refine ⟨st, ?_⟩
        rw [List.getElem?_append_left (List.getElem?_eq_some_iff.mp hi).1]
        exact hi
      · exact ⟨st, hi⟩
  | unpublishTrack track result =>
    obtain ⟨p, -, rfl⟩ := Option.map_eq_some_iff.mp hs
    dsimp only
    split
    · rw [List.getElem?_map, hi, Option.map_some, drop]
      split
      · next he =>
        cases he
        exact ⟨.unpublished, rfl⟩
      · exact ⟨st, rfl⟩
    · exact ⟨st, hi⟩
  | fail j =>
    obtain ⟨e, he, rfl⟩ := Option.map_eq_some_iff.mp hs
    by_cases hij : j = i
    · subst hij
      rw [hi] at he
      cases he
      dsimp only
      rw [Parties.getElem?_set_self hi, giveUp]
      split
      · exact ⟨.failed, rfl⟩
      · exact ⟨st, rfl⟩
    · exact ⟨st, by rw [← hi]; exact List.getElem?_set_ne hij⟩
  | trackPublicationFailed j =>
    simp only [step] at hs
    split at hs
    · cases hs
      exact ⟨st, hi⟩
    · cases hs

namespace Publications

variable (sid : Nat → String)

/-- The publication objects of a collection. -/
def entries (s : Publications) (p : LocalParticipant) (kind : LocalKind) (answer : List Nat)
    (enabled : Nat → Bool) : List Handle :=
  answer.filterMap fun i ↦ s.publishing.publications[i]?.map fun e ↦
    ⟨i, true, some (enabled i),
      p.publication kind (NativePublication.entry kind.text ⟨sid i, e.1.name, enabled i⟩)⟩

/-- One step. -/
def step (m : Nat) (s : Publications) : PublicationsAct → Option Publications
  | .publishing a => (s.publishing.step m a).map fun t ↦ { s with publishing := t }
  | .collection kind answer enabled =>
    s.publishing.room.participant.bind fun p ↦
      if s.publishing.Lists kind answer then
        some { s with handles := s.handles ++ entries sid s p kind answer enabled }
      else none
  | .trackPublished i =>
    s.publishing.room.participant.bind fun p ↦ s.publishing.publications[i]?.map fun e ↦
      match p.resolvePublishedTrack (some (dispatchTrackEvent (sid i) e.1.name e.1.kind.text)) with
      | .ok (some pub) => { s with handles := s.handles ++ [⟨i, e.2 = .published, none, pub⟩] }
      | _ => s
  | .unpublish h result =>
    s.handles[h]?.bind fun hd ↦
      match hd.pub.unpublish with
      | (none, _) => some s
      | (some track, pub) =>
        (s.publishing.step m (.unpublishTrack track result)).map fun t ↦
          { publishing := t, handles := s.handles.set h { hd with pub := pub } }

/-- A participant right after `connect`. -/
def machine (m : Nat) (seeded : List LocalTrack) (ts : Tracks) :
    Machine Publications PublicationsAct where
  init := ⟨.connect seeded ts, []⟩
  step := step sid m

/-- The object whose `unpublish()` calls `unpublishTrack`. -/
def unpublishes (s : Publications) : PublicationsAct → List Nat
  | .unpublish h _ => if ((s.handles[h]?).bind (·.pub.unpublish.1)).isSome then [h] else []
  | _ => []

/-- What a step is to a participant whose publication objects are not looked at. -/
def calls (s : Publications) : PublicationsAct → List PublishingAct
  | .publishing a => [a]
  | .unpublish h result =>
    (((s.handles[h]?).bind (·.pub.unpublish.1)).map (PublishingAct.unpublishTrack · result)).toList
  | .collection .. | .trackPublished .. => []

/-- A publication object tells what rtc-cpp answered for the publication of a track. -/
structure Describes (hd : Handle) (t : LocalTrack) : Prop where
  cls : hd.pub.cls = t.kind
  trackSid : hd.pub.trackSid = sid hd.publication
  trackName : hd.pub.trackName = t.name
  kind : hd.pub.kind = t.kind.text
  isTrackEnabled : hd.pub.isTrackEnabled = hd.answered

/-- A publication object as it is made, from the publication as it is then. -/
structure Made (s : Publishing) (hd : Handle) : Prop where
  describes : ∃ t st, s.publications[hd.publication]? = some (t, st) ∧ Describes sid hd t ∧
    (hd.natively = true → st = .published)
  track : ∃ p, s.room.participant = some p ∧ hd.pub.track = p.publishedTracks.get hd.pub.trackName
  unpublishFn : hd.pub.unpublishFn = true

variable {sid} {m : Nat} {s s' : Publications} {p : LocalParticipant} {kind : LocalKind}

private theorem made_publication {x : Publishing} (hp : x.room.participant = some p) {i : Nat}
    {t : LocalTrack} {st : PublicationState} (hx : x.publications[i]? = some (t, st))
    {natively : Bool} (hn : natively = true → st = .published) (enabled : Option Bool) :
    Made sid x
      ⟨i, natively, enabled, p.publication t.kind ⟨sid i, t.name, t.kind.text, enabled⟩⟩ :=
  { describes := ⟨t, st, hx, ⟨rfl, rfl, rfl, rfl, rfl⟩, hn⟩
    track := ⟨p, hp, rfl⟩
    unpublishFn := rfl }

private theorem made_entries (hp : s.publishing.room.participant = some p) {answer : List Nat}
    (hl : s.publishing.Lists kind answer) (enabled : Nat → Bool) :
    ∀ hd ∈ entries sid s p kind answer enabled, Made sid s.publishing hd := by
  intro hd hm
  obtain ⟨i, hmem, he⟩ := List.mem_filterMap.mp hm
  obtain ⟨⟨t, st⟩, hx, rfl⟩ := Option.map_eq_some_iff.mp he
  obtain ⟨e, he, hk, hst⟩ := hl i hmem
  rw [hx] at he
  cases he
  cases hk
  exact made_publication hp hx (fun _ ↦ hst) (some (enabled i))

/-- A publication event of a kind there is makes an object of its class, if it has a SID. -/
theorem resolvePublishedTrack_dispatchTrackEvent (p : LocalParticipant) (trackSid name : String)
    (kind : LocalKind) :
    p.resolvePublishedTrack (some (dispatchTrackEvent trackSid name kind.text)) =
      .ok (if trackSid = "" then none
        else some (p.publication kind (dispatchTrackEvent trackSid name kind.text))) := by
  by_cases h : trackSid = ""
  · simp [LocalParticipant.resolvePublishedTrack, dispatchTrackEvent, Option.filter_some, h]
  · cases kind <;> simp [LocalParticipant.resolvePublishedTrack, dispatchTrackEvent,
      Option.filter_some, LocalKind.text, h]

/-- The ways a step changes the participant and its publication objects. -/
inductive Stepped (sid : Nat → String) (m : Nat) (s : Publications) (a : PublicationsAct)
    (s' : Publications) : Prop where
  | called {b : PublishingAct} (hc : s.calls a = [b]) (hu : s.unpublishes a = [])
      (hs : s.publishing.step m b = some s'.publishing) (hh : s'.handles = s.handles)
  | used {h : Nat} {hd : Handle} {track : LocalTrack} {result : Bool}
      (hc : s.calls a = [.unpublishTrack track result]) (hu : s.unpublishes a = [h])
      (hs : s.publishing.step m (.unpublishTrack track result) = some s'.publishing)
      (hget : s.handles[h]? = some hd) (hf : hd.pub.unpublishFn = true)
      (ht : hd.pub.track = some track)
      (hh : s'.handles =
        s.handles.set h { hd with pub := { hd.pub with unpublishFn := false } })
  | made {l : List Handle} (hc : s.calls a = []) (hu : s.unpublishes a = [])
      (hs : s'.publishing = s.publishing) (hh : s'.handles = s.handles ++ l)
      (hl : ∀ hd ∈ l, Made sid s.publishing hd)

/-- Every step is one of the three. -/
theorem stepped {a : PublicationsAct} (hs : step sid m s a = some s') :
    Stepped sid m s a s' := by
  cases a with
  | publishing a =>
    obtain ⟨t, ht, rfl⟩ := Option.map_eq_some_iff.mp hs
    exact .called rfl rfl ht rfl
  | collection kind answer enabled =>
    obtain ⟨p, hp, hs⟩ := Option.bind_eq_some_iff.mp hs
    split at hs
    · next hl =>
      cases hs
      exact .made rfl rfl rfl rfl (made_entries hp hl enabled)
    · cases hs
  | trackPublished i =>
    obtain ⟨p, hp, hs⟩ := Option.bind_eq_some_iff.mp hs
    obtain ⟨⟨t, st⟩, hx, hs⟩ := Option.map_eq_some_iff.mp hs
    rw [resolvePublishedTrack_dispatchTrackEvent] at hs
    by_cases hsid : sid i = ""
    · rw [if_pos hsid] at hs
      subst hs
      exact .made rfl rfl rfl (List.append_nil _).symm (fun hd hm ↦ by cases hm)
    · rw [if_neg hsid] at hs
      subst hs
      refine .made rfl rfl rfl rfl fun hd hm ↦ ?_
      rw [List.mem_singleton.mp hm]
      exact made_publication hp hx (fun h ↦ of_decide_eq_true h) none
  | unpublish h result =>
    obtain ⟨hd, hget, hs⟩ := Option.bind_eq_some_iff.mp hs
    cases ht : hd.pub.track with
    | none =>
      simp only [LocalTrackPublication.unpublish, ht, Option.isSome_none, Bool.and_false,
        Bool.false_eq_true, if_false] at hs
      cases hs
      refine .made ?_ ?_ rfl (List.append_nil _).symm (fun hd hm ↦ by cases hm)
      · simp [calls, hget, LocalTrackPublication.unpublish, ht]
      · simp [unpublishes, hget, LocalTrackPublication.unpublish, ht]
    | some track =>
      cases hf : hd.pub.unpublishFn with
      | false =>
        simp only [LocalTrackPublication.unpublish, hf, Bool.false_and, Bool.false_eq_true,
          if_false] at hs
        cases hs
        refine .made ?_ ?_ rfl (List.append_nil _).symm (fun hd hm ↦ by cases hm)
        · simp [calls, hget, LocalTrackPublication.unpublish, hf]
        · simp [unpublishes, hget, LocalTrackPublication.unpublish, hf]
      | true =>
        simp only [LocalTrackPublication.unpublish, hf, ht, Option.isSome_some, Bool.and_self,
          if_true] at hs
        obtain ⟨t, hstep, rfl⟩ := Option.map_eq_some_iff.mp hs
        refine .used ?_ ?_ hstep hget hf ht (by simp [ht])
        · simp [calls, hget, LocalTrackPublication.unpublish, hf, ht]
        · simp [unpublishes, hget, LocalTrackPublication.unpublish, hf, ht]

/-- What holds of a participant and its publication objects, whatever is called. -/
structure Inv (sid : Nat → String) (s : Publications) : Prop where
  publishing : s.publishing.Inv
  describes : ∀ hd ∈ s.handles, ∃ t st,
    s.publishing.publications[hd.publication]? = some (t, st) ∧ Describes sid hd t
  named : ∀ hd ∈ s.handles, ∀ u, hd.pub.track = some u → u.name = hd.pub.trackName

/-- Every publication object made while its publication was there has the track of it. -/
def Exact (s : Publications) : Prop :=
  ∀ hd ∈ s.handles, hd.natively = true → ∃ t st,
    s.publishing.publications[hd.publication]? = some (t, st) ∧ hd.pub.track = some t

/-- Every step keeps the invariant. -/
theorem inv_step (hi : Inv sid s) {a : PublicationsAct} (hs : step sid m s a = some s') :
    Inv sid s' := by
  cases stepped hs with
  | called hc hu hs hh =>
    refine ⟨Publishing.inv_step hi.publishing hs, fun hd hm ↦ ?_, fun hd hm ↦ ?_⟩
    · rw [hh] at hm
      obtain ⟨t, st, hx, hdesc⟩ := hi.describes hd hm
      obtain ⟨st', hx'⟩ := Publishing.publication_kept hs hx
      exact ⟨t, st', hx', hdesc⟩
    · rw [hh] at hm
      exact hi.named hd hm
  | @used h hd track result hc hu hs hget hf ht hh =>
    have hmem := List.mem_of_getElem? hget
    refine ⟨Publishing.inv_step hi.publishing hs, fun d hm ↦ ?_, fun d hm ↦ ?_⟩
    · rw [hh] at hm
      rcases Parties.mem_of_mem_set hm with rfl | hm
      · obtain ⟨t, st, hx, hdesc⟩ := hi.describes hd hmem
        obtain ⟨st', hx'⟩ := Publishing.publication_kept hs hx
        exact ⟨t, st', hx', { hdesc with }⟩
      · obtain ⟨t, st, hx, hdesc⟩ := hi.describes d hm
        obtain ⟨st', hx'⟩ := Publishing.publication_kept hs hx
        exact ⟨t, st', hx', hdesc⟩
    · rw [hh] at hm
      rcases Parties.mem_of_mem_set hm with rfl | hm
      · exact hi.named hd hmem
      · exact hi.named d hm
  | made hc hu hs hh hl =>
    refine ⟨hs ▸ hi.publishing, fun hd hm ↦ ?_, fun hd hm ↦ ?_⟩
    · rw [hs]
      rw [hh] at hm
      rcases List.mem_append.mp hm with hm | hm
      · exact hi.describes hd hm
      · obtain ⟨t, st, hx, hdesc, -⟩ := (hl hd hm).describes
        exact ⟨t, st, hx, hdesc⟩
    · rw [hh] at hm
      rcases List.mem_append.mp hm with hm | hm
      · exact hi.named hd hm
      · obtain ⟨p, hp, ht⟩ := (hl hd hm).track
        intro u hu
        exact hi.publishing.named p _ u hp (ht.symm.trans hu)

/-- A step from where the map has what is published keeps the objects exact. -/
theorem exact_step (hh : s.publishing.Holds) (he : s.Exact) {a : PublicationsAct}
    (hs : step sid m s a = some s') : s'.Exact := by
  cases stepped hs with
  | called hc hu hs hh' =>
    intro hd hm hn
    rw [hh'] at hm
    obtain ⟨t, st, hx, ht⟩ := he hd hm hn
    obtain ⟨st', hx'⟩ := Publishing.publication_kept hs hx
    exact ⟨t, st', hx', ht⟩
  | @used h hd track result hc hu hs hget hf ht hh' =>
    intro d hm hn
    rw [hh'] at hm
    have hd' : ∃ d' ∈ s.handles, d'.natively = d.natively ∧ d'.publication = d.publication ∧
        d'.pub.track = d.pub.track := by
      rcases Parties.mem_of_mem_set hm with rfl | hm
      · exact ⟨hd, List.mem_of_getElem? hget, rfl, rfl, rfl⟩
      · exact ⟨d, hm, rfl, rfl, rfl⟩
    obtain ⟨d', hm', hnat, hpub, htrack⟩ := hd'
    obtain ⟨t, st, hx, ht⟩ := he d' hm' (hnat.trans hn)
    obtain ⟨st', hx'⟩ := Publishing.publication_kept hs hx
    exact ⟨t, st', hpub ▸ hx', htrack ▸ ht⟩
  | made hc hu hs hh' hl =>
    intro hd hm hn
    rw [hs]
    rw [hh'] at hm
    rcases List.mem_append.mp hm with hm | hm
    · exact he hd hm hn
    · obtain ⟨t, st, hx, hdesc, hst⟩ := (hl hd hm).describes
      obtain ⟨p, hp, ht⟩ := (hl hd hm).track
      cases hst hn
      refine ⟨t, .published, hx, ?_⟩
      rw [ht, hdesc.trackName]
      exact hh p hp t (List.mem_of_getElem? hx)

/-- What a step calls is a run of the participant. -/
theorem exec_calls {seeded : List LocalTrack} {ts : Tracks} {a : PublicationsAct}
    (hs : step sid m s a = some s') :
    (Publishing.machine m seeded ts).exec s.publishing (s.calls a) = some s'.publishing := by
  cases stepped hs with
  | called hc hu hs hh =>
    rw [hc, Machine.exec_singleton]
    exact hs
  | used hc hu hs hget hf ht hh =>
    rw [hc, Machine.exec_singleton]
    exact hs
  | made hc hu hs hh hl =>
    rw [hc, hs]
    rfl

-- By induction on the run: an object that is used up in its first step is not used in the rest.
private theorem used_once {seeded : List LocalTrack} {ts : Tracks} {run : List PublicationsAct}
    (hr : (machine sid m seeded ts).exec s run = some s') :
    ((machine sid m seeded ts).collect unpublishes s run).Nodup ∧
      ∀ h ∈ (machine sid m seeded ts).collect unpublishes s run, ∀ hd,
        s.handles[h]? = some hd → hd.pub.unpublishFn = true := by
  induction run generalizing s with
  | nil => exact ⟨List.nodup_nil, fun h hm ↦ by cases hm⟩
  | cons a run ih =>
    obtain ⟨r, ha, hr⟩ := Machine.exec_cons_some.mp hr
    obtain ⟨hnodup, hlive⟩ := ih hr
    simp only [Machine.collect, ha, Option.map_some, Option.getD_some]
    cases stepped ha with
    | called hc hu hs hh =>
      rw [hu, List.nil_append]
      exact ⟨hnodup, fun h hm hd hget ↦ hlive h hm hd (hh ▸ hget)⟩
    | @used h hd track result hc hu hs hget hf ht hh =>
      rw [hu]
      have hset : r.handles[h]? = some { hd with pub := { hd.pub with unpublishFn := false } } := by
        rw [hh]
        exact Parties.getElem?_set_self hget
      constructor
      · refine List.nodup_cons.mpr ⟨fun hm ↦ ?_, hnodup⟩
        cases hlive h hm _ hset
      · intro i hm d hd'
        rcases List.mem_cons.mp hm with rfl | hm
        · rw [hget] at hd'
          cases hd'
          exact hf
        · by_cases hi : h = i
          · subst hi
            cases hlive h hm _ hset
          · refine hlive i hm d ?_
            rw [hh, List.getElem?_set_ne hi]
            exact hd'
    | made hc hu hs hh hl =>
      rw [hu, List.nil_append]
      refine ⟨hnodup, fun h hm hd hget ↦ hlive h hm hd ?_⟩
      rw [hh, List.getElem?_append_left (List.getElem?_eq_some_iff.mp hget).1]
      exact hget

end Publications

section

variable {sid : Nat → String} {x : Publishing} {p : LocalParticipant} {kind : LocalKind}
  {answer : List Nat} {enabled : Nat → Bool}

/-- An entry of a collection is the publication object of a publication that is there. -/
structure Listed (sid : Nat → String) (enabled : Nat → Bool) (x : Publishing)
    (p : LocalParticipant) (k : String) (pub : LocalTrackPublication) (i : Nat) : Prop where
  sid : sid i = k
  pub : ∃ t, x.publications[i]? = some (t, .published) ∧
    pub = p.publication t.kind (NativePublication.entry t.kind.text ⟨k, t.name, enabled i⟩)

private theorem listed_of_mem (hl : x.Lists kind answer) {k : String}
    {pub : LocalTrackPublication}
    (h : (k, pub) ∈ (p.collection kind
      ((x.natives sid answer enabled).map (·.entry kind.text))).entries) :
    ∃ i ∈ answer, Listed sid enabled x p k pub i := by
  rw [JsMap.mem_entries] at h
  rcases JsMap.mem_of_get_setAll h with h | h
  · simp only [Publishing.natives, List.mem_map, List.mem_filterMap] at h
    obtain ⟨raw, ⟨native, ⟨i, hi, hn⟩, rfl⟩, he⟩ := h
    obtain ⟨⟨t, st⟩, hx, rfl⟩ := Option.map_eq_some_iff.mp hn
    obtain ⟨e, hm, hk, hst⟩ := hl i hi
    rw [hx] at hm
    cases hm
    cases hk
    cases hst
    cases he
    exact ⟨i, hi, rfl, t, hx, rfl⟩
  · cases h

private theorem mem_collection (hl : x.Lists kind answer) {i : Nat} (hi : i ∈ answer) :
    sid i ∈ ((p.collection kind
      ((x.natives sid answer enabled).map (·.entry kind.text))).entries).map Prod.fst := by
  obtain ⟨e, hx, -, -⟩ := hl i hi
  have hsome : ((p.collection kind
      ((x.natives sid answer enabled).map (·.entry kind.text))).get (sid i)).isSome := by
    apply JsMap.isSome_get_setAll
    left
    simp only [Publishing.natives, List.map_map, List.mem_map, List.mem_filterMap]
    refine ⟨⟨sid i, e.1.name, enabled i⟩, ⟨i, hi, ?_⟩, rfl⟩
    rw [Option.mem_def.mp hx]
    rfl
  obtain ⟨pub, hpub⟩ := Option.isSome_iff_exists.mp hsome
  exact List.mem_map.mpr ⟨(sid i, pub), JsMap.mem_entries.mpr hpub, rfl⟩

variable (p enabled) in
/-- `tracks` has exactly the publications rtc-cpp lists, each under its SID. -/
theorem tracks_listed (hsid : Function.Injective sid) {video audio data : List Nat}
    (hv : x.Lists .video video) (ha : x.Lists .audio audio) (hd : x.Lists .data data) :
    (∀ k pub, (p.tracks (x.natives sid video enabled) (x.natives sid audio enabled)
        (x.natives sid data enabled)).get k = some pub →
      ∃ i ∈ video ++ audio ++ data, Listed sid enabled x p k pub i) ∧
    ∀ i ∈ video ++ audio ++ data, ∃ pub, (p.tracks (x.natives sid video enabled)
      (x.natives sid audio enabled) (x.natives sid data enabled)).get (sid i) = some pub ∧
        Listed sid enabled x p (sid i) pub i := by
  have hlisted : ∀ k pub, (p.tracks (x.natives sid video enabled) (x.natives sid audio enabled)
        (x.natives sid data enabled)).get k = some pub →
      ∃ i ∈ video ++ audio ++ data, Listed sid enabled x p k pub i := by
    intro k pub h
    simp only [List.mem_append]
    rcases JsMap.mem_of_get_setAll h with h | h
    · obtain ⟨i, hi, hl⟩ := listed_of_mem hd h
      exact ⟨i, .inr hi, hl⟩
    · rcases JsMap.mem_of_get_setAll h with h | h
      · obtain ⟨i, hi, hl⟩ := listed_of_mem ha h
        exact ⟨i, .inl (.inr hi), hl⟩
      · rcases JsMap.mem_of_get_setAll h with h | h
        · obtain ⟨i, hi, hl⟩ := listed_of_mem hv h
          exact ⟨i, .inl (.inl hi), hl⟩
        · cases h
  refine ⟨hlisted, fun i hi ↦ ?_⟩
  have hsome : ((p.tracks (x.natives sid video enabled) (x.natives sid audio enabled)
      (x.natives sid data enabled)).get (sid i)).isSome := by
    apply JsMap.isSome_get_setAll
    rcases List.mem_append.mp hi with hi | hi
    · right
      apply JsMap.isSome_get_setAll
      rcases List.mem_append.mp hi with hi | hi
      · right
        apply JsMap.isSome_get_setAll
        exact .inl (mem_collection hv hi)
      · exact .inl (mem_collection ha hi)
    · exact .inl (mem_collection hd hi)
  obtain ⟨pub, hpub⟩ := Option.isSome_iff_exists.mp hsome
  obtain ⟨j, -, hl⟩ := hlisted (sid i) pub hpub
  cases hsid hl.sid
  exact ⟨pub, hpub, hl⟩

end

namespace Publishing

/-- A participant that was not asked for yet keeps the invariant. -/
theorem inv_connect (seeded : List LocalTrack) (ts : Tracks) : (connect seeded ts).Inv where
  named := fun p n u hp ↦ by cases hp
  seeded := fun _ u hu ↦ by
    obtain ⟨track, ht, he⟩ := List.mem_map.mp hu
    cases he
    exact ht
  undisposed := rfl

/-- `tracks` has, under the SID of each publication rtc-cpp lists, an object that tells what it
answers and has the track of it, and it has nothing else. -/
def TracksExact (sid : Nat → String) (x : Publishing) : Prop :=
  ∀ p, x.room.participant = some p → ∀ (enabled : Nat → Bool) (video audio data : List Nat),
    x.Lists .video video → x.Lists .audio audio → x.Lists .data data →
    (∀ k pub, (p.tracks (x.natives sid video enabled) (x.natives sid audio enabled)
        (x.natives sid data enabled)).get k = some pub → ∃ i ∈ video ++ audio ++ data, sid i = k) ∧
    ∀ i ∈ video ++ audio ++ data, ∃ t, x.publications[i]? = some (t, .published) ∧
      (p.tracks (x.natives sid video enabled) (x.natives sid audio enabled)
        (x.natives sid data enabled)).get (sid i) =
          some ⟨t.kind, sid i, t.name, t.kind.text, some (enabled i), some t, true⟩

/-- It has these where the map has what is published. -/
theorem tracksExact_of_holds {sid : Nat → String} {x : Publishing}
    (hsid : Function.Injective sid) (hh : x.Holds) : x.TracksExact sid := by
  intro p hp enabled video audio data hv ha hd
  obtain ⟨hlisted, hhas⟩ := tracks_listed p enabled hsid hv ha hd
  constructor
  · intro k pub hget
    obtain ⟨i, hi, hl⟩ := hlisted k pub hget
    exact ⟨i, hi, hl.sid⟩
  · intro i hi
    obtain ⟨pub, hget, hl⟩ := hhas i hi
    obtain ⟨t, hx, rfl⟩ := hl.pub
    refine ⟨t, hx, ?_⟩
    rw [hget, ← hh p hp t (List.mem_of_getElem? hx)]
    rfl

end Publishing

namespace Publications

variable {sid : Nat → String} {m : Nat} {s : Publications}

/-- In every run of a participant and its publication objects, which the application may keep and
use for as long as it likes: what it does is a run of the participant; each object tells what
rtc-cpp answered for its publication, and its track, if it has one, has its name; and each calls
`unpublishTrack` at most once. If moreover names are only freed while nobody else has them, each
object made while its publication was there has exactly the track of it, and `tracks` has one for
each publication rtc-cpp lists, and nothing else. -/
theorem publications_exact {seeded : List LocalTrack} {ts : Tracks} {run : List PublicationsAct}
    (hsid : Function.Injective sid)
    (hr : (machine sid m seeded ts).exec (machine sid m seeded ts).init run = some s) :
    (Publishing.machine m seeded ts).exec (.connect seeded ts)
        ((machine sid m seeded ts).collect calls (machine sid m seeded ts).init run) =
      some s.publishing ∧
    (∀ hd ∈ s.handles, (∃ t st, s.publishing.publications[hd.publication]? = some (t, st) ∧
      Describes sid hd t) ∧ ∀ u, hd.pub.track = some u → u.name = hd.pub.trackName) ∧
    ((machine sid m seeded ts).collect unpublishes (machine sid m seeded ts).init run).Nodup ∧
    ((Publishing.machine m seeded ts).Along Publishing.Clear (.connect seeded ts)
        ((machine sid m seeded ts).collect calls (machine sid m seeded ts).init run) →
      s.Exact ∧ s.publishing.TracksExact sid) := by
  have hinit : Inv sid (machine sid m seeded ts).init :=
    ⟨Publishing.inv_connect seeded ts, (fun hd hm ↦ by cases hm), (fun hd hm ↦ by cases hm)⟩
  have hinv : Inv sid s :=
    Machine.exec_invariant (p := Inv sid) (fun _ _ _ hi hs ↦ inv_step hi hs) hinit hr
  have hcalls : ∀ y a z, (machine sid m seeded ts).step y a = some z →
      (Publishing.machine m seeded ts).exec y.publishing (y.calls a) = some z.publishing :=
    fun _ _ _ hs ↦ exec_calls hs
  refine ⟨Machine.exec_collect hcalls hr, fun hd hm ↦ ⟨hinv.describes hd hm, hinv.named hd hm⟩,
    (used_once hr).1, fun hc ↦ ?_⟩
  have hkeep : ∀ y a z, (Inv sid y ∧ y.publishing.Holds ∧ y.Exact) →
      (Publishing.machine m seeded ts).Along Publishing.Clear y.publishing (y.calls a) →
      (machine sid m seeded ts).step y a = some z →
      Inv sid z ∧ z.publishing.Holds ∧ z.Exact := by
    rintro y a z ⟨hi, hh, he⟩ hclear hs
    refine ⟨inv_step hi hs, ?_, exact_step hh he hs⟩
    cases stepped hs with
    | called hb hu hs hh' =>
      rw [hb] at hclear
      exact (Publishing.holds_step hi.publishing hh hs).mpr hclear.1
    | used hb hu hs hget hf ht hh' =>
      rw [hb] at hclear
      exact (Publishing.holds_step hi.publishing hh hs).mpr hclear.1
    | made hb hu hs hh' hl => exact hs ▸ hh
  obtain ⟨-, hh, he⟩ := Machine.exec_invariant_along hkeep
    ⟨hinit, (fun p hp ↦ by cases hp), (fun hd hm ↦ by cases hm)⟩
    (Machine.Along.of_collect hcalls hc) hr
  exact ⟨he, Publishing.tracksExact_of_holds hsid hh⟩

private def sids (i : Nat) : String := String.ofList ('M' :: 'T' :: List.replicate i '0')

private theorem sids_injective : Function.Injective sids := by
  intro i j h
  have hl := congrArg List.length (String.ofList_injective h)
  simpa using hl

private def camera : LocalTrack := ⟨0, .video, "camera"⟩

private def unused : Tracks := fun _ ↦ ⟨.newInstance, [], []⟩

-- The event that a track was published comes when it is unpublished again.
private def late : List PublicationsAct :=
  [.publishing .localParticipant, .publishing (.publishTrack camera true),
    .collection .video [0] (fun _ ↦ true), .unpublish 0 true, .unpublish 0 true, .trackPublished 0]

/-- An object of a collection has its track, and uses it once; one of a late event has none. -/
theorem publications_exact_late : ∃ s, (machine sids 65536 [] unused).exec
      (machine sids 65536 [] unused).init late = some s ∧ s.Exact ∧
    s.handles.map (·.pub.track) = [some camera, none] ∧
    s.handles.map (·.pub.isTrackEnabled) = [some true, none] ∧
    ((machine sids 65536 [] unused).collect unpublishes (machine sids 65536 [] unused).init
      late) = [0] := by
  have hr : (machine sids 65536 [] unused).exec (machine sids 65536 [] unused).init late =
      some _ := rfl
  obtain ⟨-, -, -, hexact⟩ := publications_exact sids_injective hr
  refine ⟨_, hr, (hexact ?_).1, rfl, rfl, rfl⟩
  have hcalls : (machine sids 65536 [] unused).collect calls (machine sids 65536 [] unused).init
      late = [.localParticipant, .publishTrack camera true, .unpublishTrack camera true] := rfl
  rw [hcalls]
  refine ⟨trivial, ?_⟩
  rintro _ ⟨⟩
  refine ⟨trivial, ?_⟩
  rintro _ ⟨⟩
  refine ⟨fun _ _ u hu hne hname ↦ hne ?_, fun _ _ ↦ trivial⟩
  rcases List.mem_singleton.mp hu with ⟨⟩
  exact List.mem_singleton_self _

end Publications

end VideoNode.Local
