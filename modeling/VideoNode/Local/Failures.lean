import VideoNode.Local.Rooms

/-!
# Failing publications

One `LocalParticipant` beside its native participant, which accepts publications, drops them again
and lets them fail. A failure names the track only, and comes when it comes.
-/

namespace VideoNode.Local

open VideoNode.Js VideoNode.Lts

/-- What has become of a publication the native participant accepted. -/
inductive PublicationState where
  | published
  | unpublished
  | failed
  deriving DecidableEq, Repr

/-- A Room with the native side of its tracks, the publications its native participant accepted,
and the tracks of the failures that are not handled yet. -/
structure Publishing where
  room : Room
  tracks : Tracks
  publications : List (LocalTrack × PublicationState)
  failures : List LocalTrack

/-- What the application, the native participant and the event queue do; `track` is whatever else
is done to a track, also by other Rooms. -/
inductive PublishingAct where
  | track (track : LocalTrack) (a : TrackAct)
  | localParticipant
  | publishTrack (track : LocalTrack) (result : Bool)
  | unpublishTrack (track : LocalTrack) (result : Bool)
  /-- The native participant gives up an accepted publication and raises its failure. -/
  | fail (i : Nat)
  /-- One of the failures is handled. -/
  | trackPublicationFailed (i : Nat)

namespace Publishing

/-- A Room right after `connect`, whose native participant has accepted the seeded tracks. -/
def connect (seeded : List LocalTrack) (ts : Tracks) : Publishing :=
  let r := Room.construct seeded ts
  ⟨r.1, r.2, seeded.map (·, .published), []⟩

/-- The native participant publishes the track. -/
def Natively (s : Publishing) (track : LocalTrack) : Prop :=
  (track, .published) ∈ s.publications

instance (s : Publishing) (track : LocalTrack) : Decidable (s.Natively track) :=
  inferInstanceAs (Decidable (_ ∈ _))

/-- The native participant drops what it publishes of a track. -/
def drop (track : LocalTrack) (e : LocalTrack × PublicationState) :
    LocalTrack × PublicationState :=
  if e = (track, .published) then (track, .unpublished) else e

/-- A publication fails, if it is still there. -/
def giveUp (e : LocalTrack × PublicationState) : LocalTrack × PublicationState :=
  if e.2 = .published then (e.1, .failed) else e

/-- One step. `publishTrack` asks the native participant only for a name that is free. -/
def step (m : Nat) (s : Publishing) : PublishingAct → Option Publishing
  | .track track a =>
    ((s.tracks track).step m a).map fun t ↦
      { s with tracks := Function.update s.tracks track t }
  | .localParticipant =>
    match s.room.localParticipant with
    | .ok r => some { s with room := r }
    | .error _ => some s
  | .publishTrack track result =>
    s.room.participant.map fun p ↦
      match s.room.publishTrack p s.tracks track result with
      | .error _ => s
      | .ok (r, ts, accepted) =>
        { s with
          room := r
          tracks := ts
          publications :=
            if accepted then s.publications ++ [(track, .published)] else s.publications }
  | .unpublishTrack track result =>
    s.room.participant.map fun p ↦
      let u := s.room.unpublishTrack p s.tracks track result
      { s with
        room := u.1
        tracks := u.2.1
        publications := if u.2.2 then s.publications.map (drop track) else s.publications }
  | .fail i =>
    s.publications[i]?.map fun e ↦
      { s with
        publications := s.publications.set i (giveUp e)
        failures := s.failures ++ [e.1] }
  | .trackPublicationFailed i =>
    match s.room.participant, s.failures[i]? with
    | some p, some track =>
      let f := s.room.trackPublicationFailed p s.tracks (some track.name)
      some { s with room := f.1, tracks := f.2.1, failures := s.failures.eraseIdx i }
    | _, _ => none

/-- One `LocalParticipant` as a machine. -/
def machine (m : Nat) (seeded : List LocalTrack) (ts : Tracks) :
    Machine Publishing PublishingAct := ⟨connect seeded ts, step m⟩

/-- A different track with the name of one that is natively published is refused. -/
def Refuses (s : Publishing) : Prop :=
  ∀ p, s.room.participant = some p → ∀ u, s.Natively u → ∀ track, track ≠ u →
    track.name = u.name → ∃ error, p.assertUniqueName track = .error error

/-- Handling the failure of one track leaves every other track that is natively published as it
is, and published in the Room if it was. -/
def Charges (m : Nat) (s : Publishing) (a : PublishingAct) : Prop :=
  ∀ i track, a = .trackPublicationFailed i → s.failures[i]? = some track →
    ∀ s', s.step m a = some s' → ∀ u, u ≠ track → s.Natively u →
      s'.tracks u = s.tracks u ∧ s'.room.dataTracks.get u = s.room.dataTracks.get u

/-- No natively published track but those excepted has the name. -/
def Free (s : Publishing) (name : String) (except : List LocalTrack) : Prop :=
  ∀ u, s.Natively u → u ∉ except → u.name ≠ name

/-- A failure is handled when its name is free natively, and `unpublishTrack` succeeds only for a
track that no other has the name of. -/
def Clear (s : Publishing) : PublishingAct → Prop
  | .trackPublicationFailed i =>
    s.room.participant.isSome → ∀ track, s.failures[i]? = some track → track.name ≠ "" →
      s.Free track.name []
  | .unpublishTrack track result =>
    s.room.participant.isSome → result = true → s.Free track.name [track]
  | .track _ _ | .localParticipant | .publishTrack _ _ | .fail _ => True

/-- What every step keeps: what is named in the map has that name, and until there is a
participant only seeded tracks are published. -/
structure Inv (s : Publishing) : Prop where
  named : ∀ p n u, s.room.participant = some p → p.publishedTracks.get n = some u → u.name = n
  seeded : s.room.participant = none → ∀ u, s.Natively u → u ∈ s.room.seededTracks
  undisposed : s.room.disposed = false

/-- The map has every natively published track under its name. -/
def Holds (s : Publishing) : Prop :=
  ∀ p, s.room.participant = some p → ∀ u, s.Natively u → p.publishedTracks.get u.name = some u

/-- Another track is refused exactly if the map has the one that is published. -/
theorem refuses_iff {s : Publishing} (h : Inv s) : s.Refuses ↔ s.Holds := by
  constructor
  · intro hr p hp u hu
    -- Were the name free, or another track's, that track would be accepted.
    cases hg : p.publishedTracks.get u.name with
    | none =>
      have hne : (⟨u.id + 1, u.kind, u.name⟩ : LocalTrack) ≠ u := by
        intro he
        have hid := congrArg LocalTrack.id he
        simp at hid
      obtain ⟨error, he⟩ := hr p hp u hu _ hne rfl
      simp [LocalParticipant.assertUniqueName, hg] at he
    | some v =>
      by_cases hv : v = u
      · rw [hv]
      · obtain ⟨error, he⟩ := hr p hp u hu v hv (h.named p u.name v hp hg)
        rw [LocalParticipant.assertUniqueName, h.named p u.name v hp hg, hg] at he
        simp at he
  · intro hh p hp u hu track hne hname
    have hg := hh p hp u hu
    rw [← hname] at hg
    simp only [LocalParticipant.assertUniqueName, hg]
    rw [if_neg (Ne.symm hne)]
    exact ⟨_, rfl⟩

end Publishing

namespace LocalParticipant

variable {p p' : LocalParticipant} {track : LocalTrack} {seeded : List LocalTrack}

/-- A name that is free, or the track's own. -/
theorem assertUniqueName_ok (h : p.assertUniqueName track = .ok ()) (v : LocalTrack)
    (hv : p.publishedTracks.get track.name = some v) : v = track := by
  rw [assertUniqueName, hv] at h
  simp only at h
  split at h
  · next he => exact he
  · cases h

private theorem seed_kept (h : p.seed seeded = .ok p') {n : String} {v : LocalTrack}
    (hv : p.publishedTracks.get n = some v) : p'.publishedTracks.get n = some v := by
  induction seeded generalizing p with
  | nil =>
    cases h
    exact hv
  | cons track seeded ih =>
    cases hu : p.assertUniqueName track with
    | error error => simp [seed, hu, bind, Except.bind] at h
    | ok u =>
      simp only [seed, hu, bind, Except.bind] at h
      apply ih h
      rw [JsMap.get_set]
      split
      · next hn =>
        subst hn
        rw [assertUniqueName_ok hu v hv]
      · exact hv

/-- Seeding puts every track under its name. -/
theorem seed_get (h : p.seed seeded = .ok p') (hu : track ∈ seeded) :
    p'.publishedTracks.get track.name = some track := by
  induction seeded generalizing p with
  | nil => cases hu
  | cons u seeded ih =>
    cases hn : p.assertUniqueName u with
    | error error => simp [seed, hn, bind, Except.bind] at h
    | ok x =>
      simp only [seed, hn, bind, Except.bind] at h
      rcases List.mem_cons.mp hu with rfl | hu
      · apply seed_kept h
        rw [JsMap.get_set, if_pos rfl]
      · exact ih h hu

/-- Seeding names every track as it is named. -/
theorem seed_named (h : p.seed seeded = .ok p')
    (hp : ∀ n v, p.publishedTracks.get n = some v → v.name = n) (n : String) (v : LocalTrack)
    (hv : p'.publishedTracks.get n = some v) : v.name = n := by
  induction seeded generalizing p with
  | nil =>
    cases h
    exact hp n v hv
  | cons u seeded ih =>
    cases hn : p.assertUniqueName u with
    | error error => simp [seed, hn, bind, Except.bind] at h
    | ok x =>
      simp only [seed, hn, bind, Except.bind] at h
      refine ih h fun n v hv ↦ ?_
      rw [JsMap.get_set] at hv
      split at hv
      · next he =>
        cases hv
        exact he.symm
      · exact hp n v hv

end LocalParticipant

/-- What the getter does: nothing, or it seeds the participant. -/
theorem Room.localParticipant_ok {r r' : Room} (h : r.localParticipant = .ok r')
    (hd : r.disposed = false) :
    r' = r ∨ r.participant = none ∧ ∃ p,
      LocalParticipant.seed ⟨.empty⟩ r.seededTracks = .ok p ∧
      r' = { r with participant := some p } := by
  cases hp : r.participant with
  | some p =>
    simp only [Room.localParticipant, hp, hd] at h
    cases h
    exact .inl rfl
  | none =>
    simp only [Room.localParticipant, hp] at h
    cases hs : LocalParticipant.seed ⟨.empty⟩ r.seededTracks with
    | error error => simp [hs, bind, Except.bind] at h
    | ok p =>
      simp only [hs, bind, Except.bind] at h
      rw [if_neg (by simp [hd])] at h
      cases h
      exact .inr ⟨rfl, p, rfl, rfl⟩

namespace Publishing

/-- The ways a step changes the map of names and what is natively published. -/
inductive Stepped (s : Publishing) (a : PublishingAct) (s' : Publishing) : Prop where
  | kept (hp : s'.room.participant = s.room.participant)
      (hn : ∀ u, s'.Natively u → s.Natively u) (hc : s.Clear a)
  | seeded (p : LocalParticipant) (hs : LocalParticipant.seed ⟨.empty⟩ s.room.seededTracks = .ok p)
      (hp : s.room.participant = none) (hp' : s'.room.participant = some p)
      (hn : ∀ u, s'.Natively u → s.Natively u) (hc : s.Clear a)
  | published (p : LocalParticipant) (track : LocalTrack) (hp : s.room.participant = some p)
      (hu : p.assertUniqueName track = .ok ())
      (hp' : s'.room.participant = some ⟨p.publishedTracks.set track.name track⟩)
      (hn : ∀ u, s'.Natively u → s.Natively u ∨ u = track) (hc : s.Clear a)
  | freed (p : LocalParticipant) (name : String) (except : List LocalTrack)
      (hp : s.room.participant = some p)
      (hp' : s'.room.participant = some ⟨p.publishedTracks.delete name⟩)
      (hn : ∀ u, s'.Natively u ↔ s.Natively u ∧ u ∉ except)
      (hc : s.Clear a ↔ s.Free name except)

/-- A step with what it never changes of the Room. -/
structure Steps (s : Publishing) (a : PublishingAct) (s' : Publishing) : Prop where
  seededTracks : s'.room.seededTracks = s.room.seededTracks
  disposed : s'.room.disposed = s.room.disposed
  stepped : Stepped s a s'

private theorem natively_drop {publications : List (LocalTrack × PublicationState)}
    {track u : LocalTrack} : (u, .published) ∈ publications.map (drop track) ↔
      (u, .published) ∈ publications ∧ u ∉ [track] := by
  simp only [List.mem_map, List.mem_singleton]
  constructor
  · rintro ⟨e, he, heq⟩
    unfold drop at heq
    split at heq
    · cases heq
    · next hne =>
      subst heq
      refine ⟨he, fun hu ↦ hne ?_⟩
      rw [hu]
  · rintro ⟨hm, hne⟩
    refine ⟨_, hm, ?_⟩
    unfold drop
    rw [if_neg fun he ↦ hne (Prod.mk.inj he).1]

private theorem natively_giveUp {publications : List (LocalTrack × PublicationState)} {i : Nat}
    {e : LocalTrack × PublicationState} {u : LocalTrack}
    (h : (u, .published) ∈ publications.set i (giveUp e)) : (u, .published) ∈ publications := by
  rcases Parties.mem_of_mem_set h with he | h
  · exfalso
    unfold giveUp at he
    split at he
    · cases he
    · next hne => exact hne (congrArg Prod.snd he).symm
  · exact h

/-- Every step is one of the four. -/
theorem steps {m : Nat} {s s' : Publishing} {a : PublishingAct} (hi : Inv s)
    (h : s.step m a = some s') : Steps s a s' := by
  cases a with
  | track track a =>
    obtain ⟨t, -, rfl⟩ := Option.map_eq_some_iff.mp h
    exact ⟨rfl, rfl, .kept rfl (fun _ hu ↦ hu) True.intro⟩
  | localParticipant =>
    simp only [step] at h
    split at h
    · next r hr =>
      cases h
      rcases Room.localParticipant_ok hr hi.undisposed with rfl | ⟨hn, p, hs, rfl⟩
      · exact ⟨rfl, rfl, .kept rfl (fun _ hu ↦ hu) True.intro⟩
      · exact ⟨rfl, rfl, .seeded p hs hn rfl (fun _ hu ↦ hu) True.intro⟩
    · cases h
      exact ⟨rfl, rfl, .kept rfl (fun _ hu ↦ hu) True.intro⟩
  | publishTrack track result =>
    obtain ⟨p, hp, rfl⟩ := Option.map_eq_some_iff.mp h
    cases hu : p.assertUniqueName track with
    | error error =>
      simp only [Room.publishTrack, hu, bind, Except.bind]
      exact ⟨rfl, rfl, .kept rfl (fun _ hu ↦ hu) True.intro⟩
    | ok x =>
      simp only [Room.publishTrack, hu, bind, Except.bind]
      cases result with
      | false => exact ⟨rfl, rfl, .kept rfl (fun _ hu ↦ hu) True.intro⟩
      | true =>
        refine ⟨rfl, rfl, .published p track hp hu rfl (fun u hu ↦ ?_) True.intro⟩
        rcases List.mem_append.mp hu with hu | hu
        · exact .inl hu
        · rw [List.mem_singleton] at hu
          exact .inr (congrArg Prod.fst hu)
  | unpublishTrack track result =>
    obtain ⟨p, hp, rfl⟩ := Option.map_eq_some_iff.mp h
    cases result with
    | false =>
      refine ⟨rfl, rfl, .kept rfl (fun _ hu ↦ hu) fun _ hr ↦ ?_⟩
      cases hr
    | true =>
      refine ⟨rfl, rfl, .freed p track.name [track] hp rfl (fun u ↦ natively_drop) ?_⟩
      simp [Clear, hp]
  | fail i =>
    obtain ⟨e, he, rfl⟩ := Option.map_eq_some_iff.mp h
    exact ⟨rfl, rfl, .kept rfl (fun _ hu ↦ natively_giveUp hu) True.intro⟩
  | trackPublicationFailed i =>
    simp only [step] at h
    split at h
    · next p track hp ht =>
      cases h
      by_cases hname : track.name = ""
      · have hf : (some track.name).filter (· ≠ "") = none := by simp [hname]
        simp only [Room.trackPublicationFailed, hf]
        refine ⟨rfl, rfl, .kept rfl (fun _ hu ↦ hu) fun _ t ht' hne ↦ absurd hname ?_⟩
        rw [ht] at ht'
        cases ht'
        exact hne
      · have hf : (some track.name).filter (· ≠ "") = some track.name := by simp [hname]
        have hclear : s.Clear (.trackPublicationFailed i) ↔ s.Free track.name [] := by
          simp [Clear, hp, ht, hname]
        simp only [Room.trackPublicationFailed, hf]
        cases hg : p.publishedTracks.get track.name with
        | none =>
          exact ⟨rfl, rfl, .freed p track.name [] hp rfl (fun u ↦ by simp [Natively]) hclear⟩
        | some v =>
          simp only
          split
          · exact ⟨rfl, rfl, .freed p track.name [] hp rfl (fun u ↦ by simp [Natively]) hclear⟩
          · exact ⟨rfl, rfl, .freed p track.name [] hp rfl (fun u ↦ by simp [Natively]) hclear⟩
    · cases h

/-- Every step keeps the invariant. -/
theorem inv_step {m : Nat} {s s' : Publishing} {a : PublishingAct} (hi : Inv s)
    (h : s.step m a = some s') : Inv s' := by
  obtain ⟨hseeded, hdisposed, hs⟩ := steps hi h
  have hund : s'.room.disposed = false := hdisposed.trans hi.undisposed
  cases hs with
  | kept hp hn hc =>
    refine ⟨fun p n u hp' ↦ hi.named p n u (hp ▸ hp'), fun hnone u hu ↦ ?_, hund⟩
    rw [hseeded]
    exact hi.seeded (hp ▸ hnone) u (hn u hu)
  | seeded p hs hp hp' hn hc =>
    refine ⟨fun q n u hq hg ↦ ?_, fun hnone ↦ ?_, hund⟩
    · rw [hp'] at hq
      cases hq
      exact LocalParticipant.seed_named hs (by simp) n u hg
    · rw [hp'] at hnone
      cases hnone
  | published p track hp hu hp' hn hc =>
    refine ⟨fun q n u hq hg ↦ ?_, fun hnone ↦ ?_, hund⟩
    · rw [hp'] at hq
      cases hq
      rw [JsMap.get_set] at hg
      split at hg
      · next he =>
        cases hg
        exact he.symm
      · exact hi.named p n u hp hg
    · rw [hp'] at hnone
      cases hnone
  | freed p name except hp hp' hn hc =>
    refine ⟨fun q n u hq hg ↦ ?_, fun hnone ↦ ?_, hund⟩
    · rw [hp'] at hq
      cases hq
      rw [JsMap.get_delete] at hg
      split at hg
      · cases hg
      · exact hi.named p n u hp hg
    · rw [hp'] at hnone
      cases hnone

/-- A step keeps every natively published track under its name exactly if it is clear. -/
theorem holds_step {m : Nat} {s s' : Publishing} {a : PublishingAct} (hi : Inv s) (hs : s.Holds)
    (h : s.step m a = some s') : s'.Holds ↔ s.Clear a := by
  cases (steps hi h).stepped with
  | kept hp hn hc =>
    refine iff_of_true (fun p hp' u hu ↦ ?_) hc
    rw [hp] at hp'
    exact hs p hp' u (hn u hu)
  | seeded p hseed hp hp' hn hc =>
    refine iff_of_true (fun q hq u hu ↦ ?_) hc
    rw [hp'] at hq
    cases hq
    exact LocalParticipant.seed_get hseed (hi.seeded hp u (hn u hu))
  | published p track hp hu hp' hn hc =>
    refine iff_of_true (fun q hq u hnat ↦ ?_) hc
    rw [hp'] at hq
    cases hq
    rw [JsMap.get_set]
    split
    · next he =>
      rcases hn u hnat with hnat | rfl
      · have hg := hs p hp u hnat
        rw [he] at hg
        rw [LocalParticipant.assertUniqueName_ok hu u hg]
      · rfl
    · next he =>
      rcases hn u hnat with hnat | rfl
      · exact hs p hp u hnat
      · exact absurd rfl he
  | freed p name except hp hp' hn hc =>
    rw [hc]
    constructor
    · intro hh u hu hne heq
      have hg := hh _ hp' u ((hn u).mpr ⟨hu, hne⟩)
      simp [JsMap.get_delete, heq] at hg
    · intro hfree q hq u hu
      rw [hp'] at hq
      cases hq
      obtain ⟨hu, hne⟩ := (hn u).mp hu
      rw [JsMap.get_delete, if_neg (hfree u hu hne)]
      exact hs p hp u hu

/-- A clear step charges no other track. -/
theorem charges_of_clear {m : Nat} {s : Publishing} {a : PublishingAct} (hi : Inv s)
    (hc : s.Clear a) : s.Charges m a := by
  rintro i track rfl ht s' hs u hne hu
  simp only [step, ht] at hs
  split at hs
  · next p t hp ht' =>
    cases ht'
    cases hs
    by_cases hname : track.name = ""
    · have hf : (some track.name).filter (· ≠ "") = none := by simp [hname]
      simp only [Room.trackPublicationFailed, hf, and_self]
    · have hfree := hc (by rw [hp]; rfl) track ht hname u hu (by simp)
      have hf : (some track.name).filter (· ≠ "") = some track.name := by simp [hname]
      simp only [Room.trackPublicationFailed, hf]
      cases hg : p.publishedTracks.get track.name with
      | none => exact ⟨rfl, rfl⟩
      | some v =>
        -- What the failure finds under its name has that name, and the other track has not.
        have hv : u ≠ v := by
          rintro rfl
          exact hfree (hi.named p _ u hp hg)
        simp only
        split
        · constructor
          · simp only [Tracks.settle, Function.update_of_ne hv, markUnpublished]
            split
            · simp only [Tracks.call, Function.update_of_ne hv]
            · rfl
          · simp only [markUnpublished]
            split
            · rw [JsMap.get_set, if_neg hv]
            · rfl
        · exact ⟨rfl, rfl⟩
  · cases hs

/-- In a run every failure is charged to its own track only, and in every state a different track
is refused under the name of one that is natively published, exactly if every failure is handled
while its name is free natively and `unpublishTrack` succeeds only for a track that no other has
the name of. -/
theorem failures_charged_iff (m : Nat) (seeded : List LocalTrack) (ts : Tracks)
    (as : List PublishingAct) :
    ((machine m seeded ts).Always Refuses (connect seeded ts) as ∧
      (machine m seeded ts).Along (Charges m) (connect seeded ts) as) ↔
      (machine m seeded ts).Along Clear (connect seeded ts) as := by
  have hinit : Inv (connect seeded ts) := by
    refine ⟨fun p n u hp ↦ ?_, fun _ u hu ↦ ?_, rfl⟩
    · cases hp
    · obtain ⟨track, ht, he⟩ := List.mem_map.mp hu
      cases he
      exact ht
  have hfirst : (connect seeded ts).Refuses := by
    intro p hp
    cases hp
  have hkeep : ∀ (s : Publishing) (a : PublishingAct) (t : Publishing), Inv s →
      (machine m seeded ts).step s a = some t → Inv t := fun s a t hi ht ↦ inv_step hi ht
  have hnone : ∀ (s : Publishing) (a : PublishingAct), Inv s →
      (machine m seeded ts).step s a = none → s.Clear a := by
    intro s a _ ha
    cases a with
    | track track a => exact True.intro
    | localParticipant => exact True.intro
    | publishTrack track result => exact True.intro
    | fail i => exact True.intro
    | unpublishTrack track result =>
      intro hp
      obtain ⟨p, hp⟩ := Option.isSome_iff_exists.mp hp
      simp [machine, step, hp] at ha
    | trackPublicationFailed i =>
      intro hp track ht
      obtain ⟨p, hp⟩ := Option.isSome_iff_exists.mp hp
      simp [machine, step, hp, ht] at ha
  have hiff := Machine.always_iff_along hkeep
    (fun s a t hi hr ht ↦ by
      rw [refuses_iff (hkeep s a t hi ht)]
      exact holds_step hi ((refuses_iff hi).mp hr) ht) hnone hinit hfirst as
  rw [hiff]
  refine ⟨fun h ↦ h.1, fun h ↦ ⟨h, ?_⟩⟩
  refine Machine.Along.mono (fun s a t hi _ hs ↦ hkeep s a t hi hs) ?_ hinit h
  exact fun s a hi hc ↦ charges_of_clear hi hc

private def older : LocalTrack := ⟨0, .data, "data"⟩

private def newer : LocalTrack := ⟨1, .data, "data"⟩

private def newest : LocalTrack := ⟨2, .data, "data"⟩

private def freshTracks : Tracks := fun _ ↦ ⟨.newInstance, [], []⟩

-- The older track fails when it is already unpublished and the newer one has its name.
private def reusing : List PublishingAct :=
  [.localParticipant, .publishTrack older true, .unpublishTrack older true,
    .publishTrack newer true, .track newer (.send [.buffer [1]] 7), .fail 0]

/-- A failure that comes after its name is reused takes the newer track's Room away, settles what
it has sent, and frees its name. -/
theorem failures_charged_reused :
    (¬ ∀ as, (machine 65536 [] freshTracks).Along (Charges 65536) (connect [] freshTracks) as) ∧
    ¬ ∀ as, (machine 65536 [] freshTracks).Always Refuses (connect [] freshTracks) as := by
  constructor
  · intro h
    have hrun : ((machine 65536 [] freshTracks).exec (connect [] freshTracks) reusing).map
        (fun s ↦ (s.failures[0]?, decide (s.Natively newer), (s.tracks newer).wrap.pendingSends,
          (s.step 65536 (.trackPublicationFailed 0)).map fun s' ↦
            (s'.tracks newer).wrap.pendingSends)) =
        some (some older, true, [7], some []) := by decide +kernel
    obtain ⟨s, hs, hr⟩ := Option.map_eq_some_iff.mp hrun
    simp only [Prod.mk.injEq, decide_eq_true_eq] at hr
    obtain ⟨hf, hn, hp, hs'⟩ := hr
    obtain ⟨s', hstep, hp'⟩ := Option.map_eq_some_iff.mp hs'
    have ha := (h (reusing ++ [.trackPublicationFailed 0])).append hs
    obtain ⟨ht, -⟩ := ha.1 0 older rfl hf s' hstep newer (by decide) hn
    rw [ht, hp] at hp'
    cases hp'
  · intro h
    have hrun : ((machine 65536 [] freshTracks).exec (connect [] freshTracks)
        (reusing ++ [.trackPublicationFailed 0])).bind
        (fun s ↦ s.room.participant.map fun p ↦
          (decide (s.Natively newer), (p.assertUniqueName newest).toBool)) =
        some (true, true) := by decide +kernel
    obtain ⟨s, hs, hr⟩ := Option.bind_eq_some_iff.mp hrun
    obtain ⟨p, hp, hr⟩ := Option.map_eq_some_iff.mp hr
    simp only [Prod.mk.injEq, decide_eq_true_eq] at hr
    obtain ⟨error, he⟩ := (h _).last hs p hp newer hr.1 newest (by decide) rfl
    rw [he] at hr
    cases hr.2

end Publishing

end VideoNode.Local
