import VideoNode.Local.Publishing
import VideoNode.Lts.Parties

/-!
# Rooms and data tracks in every order

Any number of Rooms and tracks: Rooms are constructed, publish, unpublish, see publications fail
and are disposed, while each track sends, gets reports and is destroyed. Every Room step is a
run of each track's own machine, so what holds of a track in all its runs holds here, and the
count a track keeps agrees with the maps of the Rooms.
-/

namespace VideoNode.Local

open VideoNode.Js VideoNode.Common VideoNode.Lts

/-- All tracks and all Rooms, with the pairs of Room and track ever counted as published. -/
structure Sdk where
  tracks : Tracks
  rooms : List Room
  counted : List (Nat × LocalTrack)

/-- What the JS layer does with one Room; `result` is what a native call returned. -/
inductive RoomAct where
  | localParticipant
  | publishTrack (track : LocalTrack) (result : Bool)
  | unpublishTrack (track : LocalTrack) (result : Bool)
  | trackPublicationFailed (trackName : Option String)
  | dispose
  deriving DecidableEq, Repr

/-- What happens to tracks and Rooms. -/
inductive SdkAct where
  | send (track : LocalTrack) (args : List JsValue) (id : Nat)
  | onSendProcessed (track : LocalTrack) (r : SendReport)
  | turn (track : LocalTrack) (t : Turn)
  | destroy (track : LocalTrack)
  | construct (seeded : List LocalTrack)
  | room (i : Nat) (a : RoomAct)

/-- One step of a Room. The methods of a `LocalParticipant` need the object, and the native
`publishTrack` of a disposed Room returns `false`; a method that throws changes nothing. -/
def Room.step (r : Room) (ts : Tracks) : RoomAct → Option (Room × Tracks)
  | .localParticipant =>
    match r.localParticipant with
    | .ok r => some (r, ts)
    | .error _ => some (r, ts)
  | .publishTrack track result =>
    match r.participant with
    | none => none
    | some p =>
      if r.disposed ∧ result then none else
        match r.publishTrack p ts track result with
        | .ok s => some (s.1, s.2.1)
        | .error _ => some (r, ts)
  | .unpublishTrack track result =>
    r.participant.map fun p ↦
      let s := r.unpublishTrack p ts track result
      (s.1, s.2.1)
  | .trackPublicationFailed trackName =>
    r.participant.map fun p ↦
      let s := r.trackPublicationFailed p ts trackName
      (s.1, s.2.1)
  | .dispose => some (r.dispose ts)

namespace Sdk

/-- The tracks a Room counts now. -/
def countedBy (i : Nat) (r : Room) : List (Nat × LocalTrack) :=
  r.dataTracks.entries.filterMap fun e ↦ if e.2 then some (i, e.1) else none

/-- Put a Room back, and remember what it counts. -/
def putRoom (s : Sdk) (i : Nat) (r : Room × Tracks) : Sdk where
  tracks := r.2
  rooms := s.rooms.set i r.1
  counted := s.counted ++ countedBy i r.1

/-- One step of one track. -/
def trackStep (m : Nat) (s : Sdk) (track : LocalTrack) (a : TrackAct) : Option Sdk :=
  ((s.tracks track).step m a).map fun t ↦
    { s with tracks := Function.update s.tracks track t }

/-- One step of the system. -/
def step (kMaxMessageSize : Nat) (s : Sdk) : SdkAct → Option Sdk
  | .send track args id => s.trackStep kMaxMessageSize track (.send args id)
  | .onSendProcessed track r => s.trackStep kMaxMessageSize track (.onSendProcessed r)
  | .turn track t => s.trackStep kMaxMessageSize track (.turn t)
  | .destroy track => s.trackStep kMaxMessageSize track .destroy
  | .construct seeded =>
    let r := Room.construct seeded s.tracks
    some { tracks := r.2, rooms := s.rooms ++ [r.1],
           counted := s.counted ++ countedBy s.rooms.length r.1 }
  | .room i a =>
    match s.rooms[i]? with
    | none => none
    | some r => (r.step s.tracks a).map (s.putRoom i)

/-- Fresh tracks, no Room yet, and everything that can happen. -/
def machine (kMaxMessageSize : Nat) : Machine Sdk SdkAct where
  init := ⟨fun _ ↦ ⟨.newInstance, [], []⟩, [], []⟩
  step := step kMaxMessageSize

end Sdk

/-- Whether a Room's map counts a track as published, as a number. -/
def RoomDataTracks.counts (d : RoomDataTracks) (track : LocalTrack) : Nat :=
  (decide (d.get track = some true)).toNat

/-- A change of one Room's map and of the tracks that keeps every entry of the map, moves each
track's count with the map's, and does to each track only what can be done to a track. -/
structure Marks (m : Nat) (d : RoomDataTracks) (ts : Tracks) (d' : RoomDataTracks) (ts' : Tracks) :
    Prop where
  runs : ∀ t, ∃ as, (TrackSends.machine m).exec (ts t) as = some (ts' t)
  rooms : ∀ t, d.counts t ≤ (ts t).wrap.rooms →
    (ts' t).wrap.rooms + d.counts t = (ts t).wrap.rooms + d'.counts t
  entries : ∀ t, (d.get t).isSome → (d'.get t).isSome
  pending : ∀ t, (ts' t).wrap.pendingSends ≠ [] → (ts t).wrap.pendingSends ≠ []

namespace Marks

variable {m : Nat} {d d' d'' : RoomDataTracks} {ts ts' ts'' : Tracks}

/-- Nothing changes. -/
theorem refl (m : Nat) (d : RoomDataTracks) (ts : Tracks) : Marks m d ts d ts :=
  ⟨fun _ ↦ ⟨[], rfl⟩, fun _ _ ↦ rfl, fun _ h ↦ h, fun _ h ↦ h⟩

/-- One change after another. -/
theorem trans (h : Marks m d ts d' ts') (h' : Marks m d' ts' d'' ts'') :
    Marks m d ts d'' ts'' := by
  constructor
  · intro t
    obtain ⟨as, ha⟩ := h.runs t
    obtain ⟨bs, hb⟩ := h'.runs t
    exact ⟨as ++ bs, by rw [Machine.exec_append, ha]; exact hb⟩
  · intro t hle
    have h1 := h.rooms t hle
    have h2 := h'.rooms t (by omega)
    omega
  · exact fun t he ↦ h'.entries t (h.entries t he)
  · exact fun t hp ↦ h.pending t (h'.pending t hp)

private theorem of_update {track : LocalTrack} {v : Bool} {a : TrackAct} {t' : TrackSends}
    (ha : (ts track).step m a = some t')
    (hr : d.counts track ≤ (ts track).wrap.rooms →
      t'.wrap.rooms + d.counts track = (ts track).wrap.rooms + v.toNat)
    (hp : t'.wrap.pendingSends ≠ [] → (ts track).wrap.pendingSends ≠ []) :
    Marks m d ts (d.set track v) (Function.update ts track t') := by
  constructor
  · intro t
    by_cases ht : t = track
    · subst ht
      refine ⟨[a], ?_⟩
      rw [Function.update_self, Machine.exec_singleton]
      exact ha
    · exact ⟨[], by rw [Function.update_of_ne ht]; rfl⟩
  · intro t hle
    by_cases ht : t = track
    · subst ht
      rw [Function.update_self, hr hle]
      simp [RoomDataTracks.counts, JsMap.get_set]
    · rw [Function.update_of_ne ht]
      simp [RoomDataTracks.counts, JsMap.get_set, ht]
  · intro t he
    rw [JsMap.get_set]
    split
    · rfl
    · exact he
  · intro t
    by_cases ht : t = track
    · subst ht
      rw [Function.update_self]
      exact hp
    · rw [Function.update_of_ne ht]
      exact id

end Marks

/-- `markPublished` attaches the Room exactly when it starts to count the track. -/
theorem marks_markPublished (m : Nat) (d : RoomDataTracks) (ts : Tracks) (track : LocalTrack) :
    Marks m d ts (markPublished d ts track).1 (markPublished d ts track).2 := by
  unfold markPublished
  split
  · exact Marks.refl m d ts
  · next hn =>
    obtain ⟨-, hd⟩ := not_or.mp hn
    apply Marks.of_update (a := .attachRoom) rfl
    · intro _
      simp [RoomDataTracks.counts, hd, LocalDataTrackWrap.attachRoom]
    · exact id

/-- `markUnpublished` detaches the Room exactly when it stops counting the track. -/
theorem marks_markUnpublished (m : Nat) (d : RoomDataTracks) (ts : Tracks) (track : LocalTrack) :
    Marks m d ts (markUnpublished d ts track).1 (markUnpublished d ts track).2 := by
  unfold markUnpublished
  split
  · next hd =>
    apply Marks.of_update (a := .detachRoom) rfl
    · intro hle
      simp only [RoomDataTracks.counts, hd, decide_true, Bool.toNat_true] at hle ⊢
      simp only [LocalDataTrackWrap.detachRoom]
      rw [if_pos (by omega)]
      simp only [Bool.toNat_false]
      omega
    · intro hp
      simp only [LocalDataTrackWrap.detachRoom] at hp
      split at hp <;> exact hp
  · exact Marks.refl m d ts

/-- Settling a track that is in no Room moves no count. -/
theorem marks_settle (m : Nat) (d : RoomDataTracks) (ts : Tracks) (track : LocalTrack)
    (error : String) : Marks m d ts d (ts.settle track error) := by
  have hw : ∀ w : LocalDataTrackWrap, (w.settlePendingIfUnpublished error).1.rooms = w.rooms ∧
      ((w.settlePendingIfUnpublished error).1.pendingSends ≠ [] → w.pendingSends ≠ []) := by
    intro w
    unfold LocalDataTrackWrap.settlePendingIfUnpublished
    split
    · next hp => exact ⟨rfl, fun _ ↦ hp.2⟩
    · exact ⟨rfl, id⟩
  unfold Tracks.settle
  constructor
  · intro t
    by_cases ht : t = track
    · subst ht
      refine ⟨[.settlePendingIfUnpublished error], ?_⟩
      rw [Function.update_self, Machine.exec_singleton]
      rfl
    · exact ⟨[], by rw [Function.update_of_ne ht]; rfl⟩
  · intro t _
    by_cases ht : t = track
    · subst ht
      rw [Function.update_self]
      simp only [TrackSends.apply, (hw _).1]
    · rw [Function.update_of_ne ht]
  · exact fun _ h ↦ h
  · intro t
    by_cases ht : t = track
    · subst ht
      rw [Function.update_self]
      exact (hw _).2
    · rw [Function.update_of_ne ht]
      exact id

private theorem markUnpublished_get {d : RoomDataTracks} {ts : Tracks} {track t : LocalTrack}
    (h : (markUnpublished d ts track).1.get t = some false) : (d.get t).isSome := by
  unfold markUnpublished at h
  split at h
  · next hd =>
    rw [JsMap.get_set] at h
    split at h
    · next ht =>
      rw [ht, hd]
      rfl
    · rw [h]
      rfl
  · rw [h]
    rfl

private theorem markPublished_get {d : RoomDataTracks} {ts : Tracks} {track t : LocalTrack}
    (h : (markPublished d ts track).1.get t = some false) : d.get t = some false := by
  unfold markPublished at h
  split at h
  · exact h
  · rw [JsMap.get_set] at h
    split at h
    · cases h
    · exact h

/-- What `dispose()` does to the tracks of a Room's map: it takes back the Room's count, and a
track it leaves with no Room has nothing pending. -/
structure Disposes (m : Nat) (d : RoomDataTracks) (ts ts' : Tracks) : Prop where
  runs : ∀ t, ∃ as, (TrackSends.machine m).exec (ts t) as = some (ts' t)
  rooms : ∀ t, d.counts t ≤ (ts t).wrap.rooms →
    (ts' t).wrap.rooms + d.counts t = (ts t).wrap.rooms
  pending : ∀ t, (ts' t).wrap.pendingSends ≠ [] → (ts t).wrap.pendingSends ≠ [] ∧
    ((d.get t).isSome → 0 < (ts' t).wrap.rooms)

/-- `dispose()` visits every track of the map. -/
theorem disposes (m : Nat) (r : Room) (ts : Tracks) :
    Disposes m r.dataTracks ts (r.dispose ts).2 := by
  have hs : ∀ (w : LocalDataTrackWrap) (error : String),
      (w.settlePendingIfUnpublished error).1.rooms = w.rooms ∧
      ((w.settlePendingIfUnpublished error).1.pendingSends ≠ [] →
        w.pendingSends ≠ [] ∧ 0 < w.rooms) := by
    intro w error
    unfold LocalDataTrackWrap.settlePendingIfUnpublished
    split
    · refine ⟨rfl, fun hp ↦ absurd rfl hp⟩
    · next hn =>
      refine ⟨rfl, fun hp ↦ ⟨hp, ?_⟩⟩
      by_cases hr : w.rooms = 0
      · exact absurd ⟨hr, hp⟩ hn
      · omega
  have hd : ∀ w : LocalDataTrackWrap, w.detachRoom.pendingSends = w.pendingSends := by
    intro w
    unfold LocalDataTrackWrap.detachRoom
    split <;> rfl
  constructor
  · intro t
    simp only [Room.dispose, JsMap.forEach_apply]
    cases r.dataTracks.get t with
    | none => exact ⟨[], rfl⟩
    | some v =>
      cases v with
      | false => exact ⟨[.settlePendingIfUnpublished _], rfl⟩
      | true => exact ⟨[.detachRoom, .settlePendingIfUnpublished _], rfl⟩
  · intro t hle
    simp only [Room.dispose, JsMap.forEach_apply, RoomDataTracks.counts] at hle ⊢
    cases hg : r.dataTracks.get t with
    | none => rfl
    | some v =>
      rw [hg] at hle
      cases v with
      | false => simp [TrackSends.apply, (hs _ _).1]
      | true =>
        simp only [if_true, TrackSends.apply, (hs _ _).1, decide_true, Bool.toNat_true] at hle ⊢
        simp only [LocalDataTrackWrap.detachRoom]
        rw [if_pos (by omega)]
        simp only
        omega
  · intro t
    simp only [Room.dispose, JsMap.forEach_apply]
    cases r.dataTracks.get t with
    | none => exact fun hp ↦ ⟨hp, fun he ↦ by cases he⟩
    | some v =>
      cases v with
      | false =>
        intro hp
        obtain ⟨hq, hr⟩ := (hs _ _).2 hp
        exact ⟨hq, fun _ ↦ by simp only [TrackSends.apply, (hs _ _).1]; exact hr⟩
      | true =>
        intro hp
        obtain ⟨hq, hr⟩ := (hs _ _).2 hp
        simp only [if_true, hd] at hq
        exact ⟨hq, fun _ ↦ by simp only [TrackSends.apply, (hs _ _).1]; exact hr⟩

/-- The two ways a Room step can change its map and the tracks. -/
inductive RoomStepped (m : Nat) (r : Room) (ts : Tracks) (r' : Room) (ts' : Tracks) : Prop where
  | marked (hm : Marks m r.dataTracks ts r'.dataTracks ts') (hd : r'.disposed = r.disposed)
      (hf : ∀ t, r'.dataTracks.get t = some false → (r.dataTracks.get t).isSome)
      (he : r.disposed = true → r.dataTracks = .empty → r'.dataTracks = .empty)
  | disposed (hd : Disposes m r.dataTracks ts ts') (he : r'.dataTracks = .empty)

private theorem stepped_same {m : Nat} {r r' : Room} {ts : Tracks}
    (hd : r'.dataTracks = r.dataTracks) (hp : r'.disposed = r.disposed) :
    RoomStepped m r ts r' ts := by
  refine .marked ?_ hp ?_ ?_
  · rw [hd]
    exact Marks.refl m _ ts
  · intro t h
    rw [← hd, h]
    rfl
  · intro _ he
    rw [hd, he]

private theorem markUnpublished_empty (ts : Tracks) (track : LocalTrack) :
    (markUnpublished .empty ts track).1 = .empty := by
  simp [markUnpublished]

/-- Reading the local participant leaves the tracks, the Room's map and its end. -/
theorem localParticipant_step {r r' : Room} {ts ts' : Tracks}
    (h : r.step ts .localParticipant = some (r', ts')) :
    r'.dataTracks = r.dataTracks ∧ r'.disposed = r.disposed ∧ ts' = ts := by
  simp only [Room.step] at h
  split at h
  · next v hv =>
    cases h
    simp only [Room.localParticipant] at hv
    split at hv
    · cases hv
      exact ⟨rfl, rfl, rfl⟩
    · cases hs : LocalParticipant.seed ⟨.empty⟩ r.seededTracks with
      | error e => simp [hs, bind, Except.bind] at hv
      | ok p =>
        simp only [hs, bind, Except.bind] at hv
        split at hv
        · cases hv
        · cases hv
          exact ⟨rfl, rfl, rfl⟩
  · cases h
    exact ⟨rfl, rfl, rfl⟩

/-- Every step of a Room is one of the two. -/
theorem room_stepped {m : Nat} {r r' : Room} {ts ts' : Tracks} {a : RoomAct}
    (h : r.step ts a = some (r', ts')) : RoomStepped m r ts r' ts' := by
  cases a with
  | localParticipant =>
    obtain ⟨hd, hp, rfl⟩ := localParticipant_step h
    exact stepped_same hd hp
  | publishTrack track result =>
    simp only [Room.step] at h
    split at h
    · cases h
    · next p hp =>
      split at h
      · cases h
      · next hn =>
        split at h
        · next v hv =>
          cases h
          simp only [Room.publishTrack] at hv
          cases hu : p.assertUniqueName track with
          | error e => simp [hu, bind, Except.bind] at hv
          | ok _ =>
            simp only [hu, bind, Except.bind] at hv
            split at hv
            · next hr =>
              cases hv
              refine .marked (marks_markPublished m _ ts track) rfl ?_ ?_
              · intro t ht
                rw [markPublished_get ht]
                rfl
              · exact fun hd _ ↦ absurd ⟨hd, hr⟩ hn
            · cases hv
              exact stepped_same rfl rfl
        · cases h
          exact stepped_same rfl rfl
  | unpublishTrack track result =>
    obtain ⟨p, hp, h⟩ := Option.map_eq_some_iff.mp h
    simp only [Room.unpublishTrack] at h
    split at h
    · cases h
      refine .marked (marks_markUnpublished m _ ts track) rfl (fun t ↦ markUnpublished_get) ?_
      intro _ he
      simp only [he]
      exact markUnpublished_empty ts track
    · cases h
      exact stepped_same rfl rfl
  | trackPublicationFailed trackName =>
    obtain ⟨p, hp, h⟩ := Option.map_eq_some_iff.mp h
    simp only [Room.trackPublicationFailed] at h
    split at h
    · cases h
      exact stepped_same rfl rfl
    · next name hname =>
      cases hg : p.publishedTracks.get name with
      | none =>
        simp only [hg] at h
        cases h
        exact stepped_same rfl rfl
      | some track =>
        simp only [hg] at h
        split at h
        · cases h
          refine .marked ((marks_markUnpublished m _ ts track).trans (marks_settle m _ _ track _))
            rfl (fun t ↦ markUnpublished_get) ?_
          intro _ he
          simp only [he]
          exact markUnpublished_empty ts track
        · cases h
          exact stepped_same rfl rfl
  | dispose =>
    cases h
    exact .disposed (disposes m r ts) rfl

namespace Sdk

/-- How many Rooms count a track as published. -/
def countingRooms (s : Sdk) (track : LocalTrack) : Nat :=
  s.rooms.countP fun r ↦ r.dataTracks.get track = some true

/-- What every step keeps: each track is in a state of its own runs, its count is that of the
Rooms, a disposed Room has an empty map, a pending send is on a track some Room still has in its
map, and what a Room has in its map it has counted. -/
structure Inv (m : Nat) (s : Sdk) : Prop where
  track : ∀ t, (TrackSends.machine m).Reachable (s.tracks t)
  rooms : ∀ t, (s.tracks t).wrap.rooms = s.countingRooms t
  disposed : ∀ r ∈ s.rooms, r.disposed = true → r.dataTracks = .empty
  kept : ∀ t, (s.tracks t).wrap.pendingSends ≠ [] → ∃ r ∈ s.rooms, (r.dataTracks.get t).isSome
  counted : ∀ i r t, s.rooms[i]? = some r → (r.dataTracks.get t).isSome → (i, t) ∈ s.counted

private theorem mem_countedBy {i : Nat} {r : Room} {t : LocalTrack}
    (h : r.dataTracks.get t = some true) : (i, t) ∈ countedBy i r := by
  simp only [countedBy, List.mem_filterMap]
  exact ⟨(t, true), JsMap.mem_entries.mpr h, rfl⟩

private theorem countingRooms_set {s : Sdk} {i : Nat} {r : Room} (r' : Room)
    (h : s.rooms[i]? = some r) (t : LocalTrack) :
    (s.rooms.set i r').countP (fun r ↦ r.dataTracks.get t = some true) + r.dataTracks.counts t =
      s.countingRooms t + r'.dataTracks.counts t ∧ r.dataTracks.counts t ≤ s.countingRooms t := by
  exact ⟨Parties.countP_set (b := r') (fun r ↦ r.dataTracks.get t = some true) h,
    Parties.le_countP (fun r : Room ↦ r.dataTracks.get t = some true) h⟩

private theorem inv_marked {m : Nat} {s : Sdk} {i : Nat} {r r' : Room} {ts' : Tracks}
    (h : Inv m s) (hr : s.rooms[i]? = some r)
    (hm : Marks m r.dataTracks s.tracks r'.dataTracks ts') (hd : r'.disposed = r.disposed)
    (hf : ∀ t, r'.dataTracks.get t = some false → (r.dataTracks.get t).isSome)
    (he : r.disposed = true → r.dataTracks = .empty → r'.dataTracks = .empty) :
    Inv m (s.putRoom i (r', ts')) := by
  constructor
  · intro t
    obtain ⟨as, ha⟩ := hm.runs t
    exact (h.track t).exec ha
  · intro t
    obtain ⟨hc, hle⟩ := countingRooms_set r' hr t
    have hrooms := hm.rooms t (by rw [h.rooms t]; exact hle)
    have hinv := h.rooms t
    simp only [putRoom, countingRooms] at hc hrooms hinv ⊢
    omega
  · intro q hq hqd
    rcases Parties.mem_of_mem_set hq with rfl | hq
    · rw [hd] at hqd
      exact he hqd (h.disposed r (List.mem_iff_getElem?.mpr ⟨i, hr⟩) hqd)
    · exact h.disposed q hq hqd
  · intro t hp
    obtain ⟨q, hq, hqt⟩ := h.kept t (hm.pending t hp)
    rcases Parties.eq_or_mem_set (b := r') hr hq with rfl | hq
    · exact ⟨r', List.mem_iff_getElem?.mpr ⟨i, Parties.getElem?_set_self hr⟩, hm.entries t hqt⟩
    · exact ⟨q, hq, hqt⟩
  · intro j q t hq hqt
    rcases Parties.getElem?_set hr hq with ⟨rfl, rfl⟩ | ⟨-, hq⟩
    · cases hv : q.dataTracks.get t with
      | none => simp [hv] at hqt
      | some v =>
        cases v with
        | true => exact List.mem_append_right _ (mem_countedBy hv)
        | false => exact List.mem_append_left _ (h.counted j r t hr (hf t hv))
    · exact List.mem_append_left _ (h.counted j q t hq hqt)

private theorem inv_disposed {m : Nat} {s : Sdk} {i : Nat} {r r' : Room} {ts' : Tracks}
    (h : Inv m s) (hr : s.rooms[i]? = some r) (hd : Disposes m r.dataTracks s.tracks ts')
    (he : r'.dataTracks = .empty) : Inv m (s.putRoom i (r', ts')) := by
  have hcount : ∀ t, (ts' t).wrap.rooms =
      (s.rooms.set i r').countP fun r ↦ r.dataTracks.get t = some true := by
    intro t
    have hz : r'.dataTracks.counts t = 0 := by simp [RoomDataTracks.counts, he]
    obtain ⟨hc, hle⟩ := countingRooms_set r' hr t
    have hrooms := hd.rooms t (by rw [h.rooms t]; exact hle)
    have hinv := h.rooms t
    omega
  constructor
  · intro t
    obtain ⟨as, ha⟩ := hd.runs t
    exact (h.track t).exec ha
  · exact hcount
  · intro q hq hqd
    rcases Parties.mem_of_mem_set hq with rfl | hq
    · exact he
    · exact h.disposed q hq hqd
  · intro t hp
    obtain ⟨hp, hpos⟩ := hd.pending t hp
    obtain ⟨q, hq, hqt⟩ := h.kept t hp
    rcases Parties.eq_or_mem_set (b := r') hr hq with rfl | hq
    · -- The disposed Room had the track, so another Room still counts it.
      have hpos := hpos hqt
      rw [hcount t] at hpos
      obtain ⟨q', hq', hqt'⟩ := List.countP_pos_iff.mp hpos
      simp only [decide_eq_true_eq] at hqt'
      exact ⟨q', hq', by rw [hqt']; rfl⟩
    · exact ⟨q, hq, hqt⟩
  · intro j q t hq hqt
    rcases Parties.getElem?_set hr hq with ⟨rfl, rfl⟩ | ⟨-, hq⟩
    · simp [he] at hqt
    · exact List.mem_append_left _ (h.counted j q t hq hqt)

private theorem inv_trackStep {m : Nat} {s s' : Sdk} {track : LocalTrack} {a : TrackAct}
    (h : Inv m s)
    (ha : a ≠ .attachRoom ∧ a ≠ .detachRoom ∧ ∀ e, a ≠ .settlePendingIfUnpublished e)
    (hs : s.trackStep m track a = some s') : Inv m s' := by
  obtain ⟨t', ht', rfl⟩ := Option.map_eq_some_iff.mp hs
  obtain ⟨hrooms, hpend⟩ := TrackSends.step_frame ha ht'
  constructor
  · intro t
    by_cases ht : t = track
    · subst ht
      simp only [Function.update_self]
      exact (h.track t).step ht'
    · simp only [Function.update_of_ne ht]
      exact h.track t
  · intro t
    by_cases ht : t = track
    · subst ht
      simp only [Function.update_self, hrooms]
      exact h.rooms t
    · simp only [Function.update_of_ne ht]
      exact h.rooms t
  · exact h.disposed
  · intro t hp
    by_cases ht : t = track
    · subst ht
      simp only [Function.update_self] at hp
      rcases hpend hp with hq | hpos
      · exact h.kept t hq
      · rw [h.rooms t, countingRooms] at hpos
        obtain ⟨q, hq, hqt⟩ := List.countP_pos_iff.mp hpos
        simp only [decide_eq_true_eq] at hqt
        exact ⟨q, hq, by rw [hqt]; rfl⟩
    · simp only [Function.update_of_ne ht] at hp
      exact h.kept t hp
  · exact h.counted

private theorem marks_foldl (m : Nat) (seeded : List LocalTrack) (d : RoomDataTracks)
    (ts : Tracks) (hd : ∀ t, d.get t ≠ some false) :
    let x := seeded.foldl (fun s track ↦ markPublished s.1 s.2 track) (d, ts)
    Marks m d ts x.1 x.2 ∧ ∀ t, x.1.get t ≠ some false := by
  induction seeded generalizing d ts with
  | nil => exact ⟨Marks.refl m d ts, hd⟩
  | cons track seeded ih =>
    have hp : ∀ t, (markPublished d ts track).1.get t ≠ some false :=
      fun t ht ↦ hd t (markPublished_get ht)
    obtain ⟨hm, hx⟩ := ih (markPublished d ts track).1 (markPublished d ts track).2 hp
    exact ⟨(marks_markPublished m d ts track).trans hm, hx⟩

private theorem inv_construct {m : Nat} {s : Sdk} {r : Room} {ts : Tracks} (h : Inv m s)
    (hm : Marks m .empty s.tracks r.dataTracks ts)
    (ht : ∀ t, r.dataTracks.get t ≠ some false) (hd : r.disposed = false) :
    Inv m ⟨ts, s.rooms ++ [r], s.counted ++ countedBy s.rooms.length r⟩ := by
  constructor
  · intro t
    obtain ⟨as, ha⟩ := hm.runs t
    exact (h.track t).exec ha
  · intro t
    have hz : RoomDataTracks.counts .empty t = 0 := by simp [RoomDataTracks.counts]
    have hrooms := hm.rooms t (by omega)
    have hinv := h.rooms t
    simp only [countingRooms, Parties.countP_concat] at hinv ⊢
    simp only [RoomDataTracks.counts] at hrooms hz
    omega
  · intro q hq hqd
    rcases List.mem_append.mp hq with hq | hq
    · exact h.disposed q hq hqd
    · rw [List.mem_singleton] at hq
      rw [hq, hd] at hqd
      cases hqd
  · intro t hp
    obtain ⟨q, hq, hqt⟩ := h.kept t (hm.pending t hp)
    exact ⟨q, List.mem_append_left _ hq, hqt⟩
  · intro i q t hq hqt
    simp only [List.mem_append]
    rcases Parties.getElem?_concat hq with ⟨rfl, rfl⟩ | hq
    · cases hv : q.dataTracks.get t with
      | none => simp [hv] at hqt
      | some v =>
        cases v with
        | true => exact .inr (mem_countedBy hv)
        | false => exact absurd hv (ht t)
    · exact .inl (h.counted i q t hq hqt)

/-- Every step keeps the invariant. -/
theorem inv_step {m : Nat} {s s' : Sdk} {a : SdkAct} (h : Inv m s)
    (hs : s.step m a = some s') : Inv m s' := by
  cases a with
  | send track args id => exact inv_trackStep h (by simp) hs
  | onSendProcessed track r => exact inv_trackStep h (by simp) hs
  | turn track t => exact inv_trackStep h (by simp) hs
  | destroy track => exact inv_trackStep h (by simp) hs
  | construct seeded =>
    cases hs
    obtain ⟨hm, ht⟩ := marks_foldl m seeded .empty s.tracks (by simp)
    exact inv_construct h hm ht rfl
  | room i a =>
    simp only [step] at hs
    split at hs
    · cases hs
    · next r hr =>
      obtain ⟨⟨r', ts'⟩, hx, rfl⟩ := Option.map_eq_some_iff.mp hs
      cases room_stepped (m := m) hx with
      | marked hm hd hf he => exact inv_marked h hr hm hd hf he
      | disposed hd he => exact inv_disposed h hr hd he

/-- The invariant holds in every interleaving. -/
theorem inv_of_reachable {m : Nat} {s : Sdk} (h : (machine m).Reachable s) : Inv m s := by
  apply h.invariant
  · refine ⟨fun _ ↦ Machine.reachable_init _, fun _ ↦ rfl, ?_, fun _ hp ↦ absurd rfl hp, ?_⟩
    · intro r hr
      cases hr
    · intro i r t hr
      simp [machine] at hr
  · exact fun _ _ _ hi hs ↦ inv_step hi hs

private def dataTrack : LocalTrack := ⟨0, .data, "data"⟩

-- Two sends of a published track; the engine has reported that the first one failed, and the drain
-- is about to start on that.
private def reporting : List SdkAct :=
  [.construct [dataTrack], .send dataTrack [.buffer [1]] 7, .send dataTrack [.buffer [2]] 8,
    .onSendProcessed dataTrack ⟨7, false, "lost"⟩, .turn dataTrack .onAsync,
    .turn dataTrack .swap]

end Sdk

end VideoNode.Local
