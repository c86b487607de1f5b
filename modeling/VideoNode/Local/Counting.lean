import VideoNode.Local.Rooms
import VideoNode.Lts.Alternation

/-!
# Counting the Rooms of a data track

The calls on native tracks that each step of a Room makes, in the order the source makes them.
A step changes the tracks through these calls only, and between an `_attachRoom` and a
`_detachRoom` of one Room on one track there is never another.
-/

namespace VideoNode.Local

open VideoNode.Js VideoNode.Lts

/-- A call on a native track. -/
abbrev TrackCall := LocalTrack × TrackAct

/-- All tracks together, where a call is a step of the track it is made on. -/
def Tracks.machine (m : Nat) : Machine Tracks TrackCall where
  init := fun _ ↦ ⟨.newInstance, [], []⟩
  step ts c := ((ts c.1).step m c.2).map (Function.update ts c.1)

/-- `_attachRoom` is `true` and `_detachRoom` is `false`. -/
def TrackCall.mark : TrackCall → Option (LocalTrack × Bool)
  | (track, .attachRoom) => some (track, true)
  | (track, .detachRoom) => some (track, false)
  | _ => none

/-- The tracks a map has as published. -/
def RoomDataTracks.on (d : RoomDataTracks) (track : LocalTrack) : Bool :=
  decide (d.get track = some true)

/-- Calls of `markPublished`; `lib/local_participant.ts:30–35`. -/
def markPublishedCalls (d : RoomDataTracks) (track : LocalTrack) : List TrackCall :=
  if track.kind ≠ .data ∨ d.get track = some true then [] else [(track, .attachRoom)]

/-- Calls of `markUnpublished`; `lib/local_participant.ts:37–42`. -/
def markUnpublishedCalls (d : RoomDataTracks) (track : LocalTrack) : List TrackCall :=
  if d.get track = some true then [(track, .detachRoom)] else []

/-- Calls of the constructor of a Room; `lib/room.ts:252`. -/
def constructCalls (d : RoomDataTracks) (ts : Tracks) : List LocalTrack → List TrackCall
  | [] => []
  | track :: seeded =>
    let marked := markPublished d ts track
    markPublishedCalls d track ++ constructCalls marked.1 marked.2 seeded

namespace Room

/-- Calls of `publishTrack`; `lib/local_participant.ts:211–218`. -/
def publishTrackCalls (r : Room) (p : LocalParticipant) (track : LocalTrack) (result : Bool) :
    List TrackCall :=
  match p.assertUniqueName track with
  | .error _ => []
  | .ok () => if result then markPublishedCalls r.dataTracks track else []

/-- Calls of the `trackPublicationFailed` event; `lib/local_participant.ts:108–125`. -/
def trackPublicationFailedCalls (r : Room) (p : LocalParticipant) (trackName : Option String) :
    List TrackCall :=
  match trackName.filter (· ≠ "") with
  | none => []
  | some name =>
    match p.publishedTracks.get name with
    | none => []
    | some track =>
      if track.kind = .data then
        markUnpublishedCalls r.dataTracks track ++
          [(track, .settlePendingIfUnpublished
            "Data track publication failed before the send completed")]
      else []

/-- Calls of one turn of the loop in `dispose()`; `lib/room.ts:416–419`. -/
def disposeCalls (e : LocalTrack × Bool) : List TrackCall :=
  (if e.2 then [(e.1, .detachRoom)] else []) ++
    [(e.1, .settlePendingIfUnpublished "Room was disposed before the send completed")]

/-- The calls of a step of a Room. -/
def calls (r : Room) : RoomAct → List TrackCall
  | .localParticipant => []
  | .publishTrack track result =>
    match r.participant with
    | none => []
    | some p => r.publishTrackCalls p track result
  | .unpublishTrack track result =>
    if result then markUnpublishedCalls r.dataTracks track else []
  | .trackPublicationFailed trackName =>
    match r.participant with
    | none => []
    | some p => r.trackPublicationFailedCalls p trackName
  | .dispose => r.dataTracks.entries.flatMap disposeCalls

end Room

/-- The calls `cs` turn the map `d` and the tracks `ts` into `d'` and `ts'`. -/
structure Calls (m : Nat) (d : RoomDataTracks) (ts : Tracks) (cs : List TrackCall)
    (d' : RoomDataTracks) (ts' : Tracks) : Prop where
  run : (Tracks.machine m).exec ts cs = some ts'
  alternates : Alternates d.on (cs.filterMap TrackCall.mark)
  opened : opened d.on (cs.filterMap TrackCall.mark) = d'.on

namespace Calls

variable {m : Nat} {d d' d'' : RoomDataTracks} {ts ts' ts'' : Tracks} {cs cs' : List TrackCall}

/-- Without a call nothing changes. -/
theorem refl (m : Nat) (d : RoomDataTracks) (ts : Tracks) : Calls m d ts [] d ts :=
  ⟨rfl, True.intro, rfl⟩

/-- Calls one after another. -/
theorem trans (h : Calls m d ts cs d' ts') (h' : Calls m d' ts' cs' d'' ts'') :
    Calls m d ts (cs ++ cs') d'' ts'' := by
  constructor
  · rw [Machine.exec_append, h.run]
    exact h'.run
  · rw [List.filterMap_append, alternates_append, h.opened]
    exact ⟨h.alternates, h'.alternates⟩
  · rw [List.filterMap_append, opened_append, h.opened]
    exact h'.opened

end Calls

private theorem on_set (d : RoomDataTracks) (track : LocalTrack) (v : Bool) :
    RoomDataTracks.on (d.set track v) = Function.update d.on track v := by
  funext t
  by_cases ht : t = track
  · subst ht
    simp [RoomDataTracks.on, JsMap.get_set]
  · rw [Function.update_of_ne ht]
    simp [RoomDataTracks.on, JsMap.get_set, ht]

/-- `markPublished` changes the track through its calls. -/
theorem calls_markPublished (m : Nat) (d : RoomDataTracks) (ts : Tracks) (track : LocalTrack) :
    Calls m d ts (markPublishedCalls d track) (markPublished d ts track).1
      (markPublished d ts track).2 := by
  unfold markPublishedCalls markPublished
  split
  · exact Calls.refl m d ts
  · next hn =>
    obtain ⟨-, hd⟩ := not_or.mp hn
    refine ⟨rfl, ⟨?_, True.intro⟩, (on_set d track true).symm⟩
    show d.on track ≠ true
    simpa [RoomDataTracks.on] using hd

/-- `markUnpublished` changes the track through its calls. -/
theorem calls_markUnpublished (m : Nat) (d : RoomDataTracks) (ts : Tracks) (track : LocalTrack) :
    Calls m d ts (markUnpublishedCalls d track) (markUnpublished d ts track).1
      (markUnpublished d ts track).2 := by
  unfold markUnpublishedCalls markUnpublished
  split
  · next hd =>
    refine ⟨rfl, ⟨?_, True.intro⟩, (on_set d track false).symm⟩
    show d.on track ≠ false
    simpa [RoomDataTracks.on] using hd
  · exact Calls.refl m d ts

private theorem calls_settle (m : Nat) (d : RoomDataTracks) (ts : Tracks) (track : LocalTrack)
    (error : String) :
    Calls m d ts [(track, .settlePendingIfUnpublished error)] d (ts.settle track error) :=
  ⟨rfl, True.intro, rfl⟩

/-- The constructor of a Room changes the tracks through its calls. -/
theorem calls_construct (m : Nat) (d : RoomDataTracks) (ts : Tracks) (seeded : List LocalTrack) :
    let x := seeded.foldl (fun s track ↦ markPublished s.1 s.2 track) (d, ts)
    Calls m d ts (constructCalls d ts seeded) x.1 x.2 := by
  induction seeded generalizing d ts with
  | nil => exact Calls.refl m d ts
  | cons track seeded ih => exact (calls_markPublished m d ts track).trans (ih ..)

private theorem exec_flatMap {m : Nat} {f : Tracks → LocalTrack × Bool → Tracks}
    {g : LocalTrack × Bool → List TrackCall}
    (h : ∀ ts e, (Tracks.machine m).exec ts (g e) = some (f ts e))
    (es : List (LocalTrack × Bool)) (ts : Tracks) :
    (Tracks.machine m).exec ts (es.flatMap g) = some (es.foldl f ts) := by
  induction es generalizing ts with
  | nil => rfl
  | cons e es ih =>
    rw [List.flatMap_cons, Machine.exec_append, h, Option.bind_some, ih]
    rfl

private theorem mark_disposeCalls (e : LocalTrack × Bool) :
    (Room.disposeCalls e).filterMap TrackCall.mark = if e.2 then [(e.1, false)] else [] := by
  unfold Room.disposeCalls
  split <;> rfl

-- By induction on the entries that are left, none of which is about a track already visited.
private theorem marks_dispose (es : List (LocalTrack × Bool)) (s : LocalTrack → Bool)
    (hn : (es.map Prod.fst).Nodup) (hs : ∀ e ∈ es, s e.1 = e.2) :
    Alternates s ((es.flatMap Room.disposeCalls).filterMap TrackCall.mark) ∧
    ∀ t, opened s ((es.flatMap Room.disposeCalls).filterMap TrackCall.mark) t =
      (s t && !decide (t ∈ es.map Prod.fst)) := by
  induction es generalizing s with
  | nil => exact ⟨True.intro, fun t ↦ by simp [opened]⟩
  | cons e es ih =>
    simp only [List.map_cons, List.nodup_cons] at hn
    obtain ⟨he, hn⟩ := hn
    rw [List.flatMap_cons, List.filterMap_append, mark_disposeCalls]
    have hv : s e.1 = e.2 := hs e (List.mem_cons_self ..)
    have hrest : ∀ e' ∈ es, s e'.1 = e'.2 := fun e' h ↦ hs e' (List.mem_cons_of_mem e h)
    cases hb : e.2 with
    | false =>
      obtain ⟨ha, ho⟩ := ih s hn hrest
      refine ⟨ha, fun t ↦ ?_⟩
      simp only [Bool.false_eq_true, if_false, List.nil_append, ho, List.map_cons, List.mem_cons]
      by_cases ht : t = e.1
      · simp [ht, hv, hb]
      · simp [ht]
    | true =>
      have hne : ∀ e' ∈ es, e'.1 ≠ e.1 := by
        intro e' h heq
        exact he (heq ▸ List.mem_map_of_mem h)
      have hset : ∀ e' ∈ es, Function.update s e.1 false e'.1 = e'.2 := by
        intro e' h
        rw [Function.update_of_ne (hne e' h)]
        exact hrest e' h
      obtain ⟨ha, ho⟩ := ih (Function.update s e.1 false) hn hset
      refine ⟨⟨?_, ha⟩, fun t ↦ ?_⟩
      · show s e.1 ≠ false
        rw [hv, hb]
        simp
      · refine (ho t).trans ?_
        by_cases ht : t = e.1
        · simp [ht]
        · simp [ht]

private theorem calls_dispose (m : Nat) (r : Room) (ts : Tracks) :
    Calls m r.dataTracks ts (r.dataTracks.entries.flatMap Room.disposeCalls)
      (r.dispose ts).1.dataTracks (r.dispose ts).2 := by
  have hs : ∀ e ∈ r.dataTracks.entries, r.dataTracks.on e.1 = e.2 := by
    intro e he
    simp [RoomDataTracks.on, JsMap.mem_entries.mp he]
  obtain ⟨ha, ho⟩ := marks_dispose r.dataTracks.entries r.dataTracks.on r.dataTracks.nodup hs
  refine ⟨?_, ha, ?_⟩
  · refine exec_flatMap (fun ts e ↦ ?_) r.dataTracks.entries ts
    obtain ⟨track, published⟩ := e
    cases published with
    | false => rfl
    | true =>
      simp [Room.disposeCalls, Machine.exec, Tracks.machine, TrackSends.step, Function.update_idem]
  · funext t
    rw [ho]
    show (_ && _) = RoomDataTracks.on .empty t
    cases hg : r.dataTracks.get t with
    | none => simp [RoomDataTracks.on, hg]
    | some v =>
      have hm : t ∈ r.dataTracks.entries.map Prod.fst :=
        List.mem_map_of_mem (f := Prod.fst) (JsMap.mem_entries.mpr hg)
      simp only [hm, decide_true, Bool.not_true, Bool.and_false]
      rfl

private theorem calls_trackPublicationFailed (m : Nat) (r : Room) (p : LocalParticipant)
    (ts : Tracks) (trackName : Option String) :
    Calls m r.dataTracks ts (r.trackPublicationFailedCalls p trackName)
      (r.trackPublicationFailed p ts trackName).1.dataTracks
      (r.trackPublicationFailed p ts trackName).2.1 := by
  unfold Room.trackPublicationFailedCalls Room.trackPublicationFailed
  generalize trackName.filter (· ≠ "") = found
  cases found with
  | none => exact Calls.refl m _ _
  | some name =>
    dsimp only
    generalize p.publishedTracks.get name = failedTrack
    cases failedTrack with
    | none => exact Calls.refl m _ _
    | some track =>
      by_cases hk : track.kind = .data
      · simp only [hk, if_true]
        exact (calls_markUnpublished m _ _ _).trans (calls_settle m _ _ _ _)
      · simp only [hk, if_false]
        exact Calls.refl m _ _

/-- A step of a Room changes the tracks through its calls. -/
theorem room_calls {m : Nat} {r r' : Room} {ts ts' : Tracks} {a : RoomAct}
    (h : r.step ts a = some (r', ts')) :
    Calls m r.dataTracks ts (r.calls a) r'.dataTracks ts' := by
  cases a with
  | localParticipant =>
    obtain ⟨hd, -, rfl⟩ := localParticipant_step h
    rw [hd]
    exact Calls.refl m _ _
  | publishTrack track result =>
    simp only [Room.step] at h
    split at h
    · cases h
    · next p hp =>
      simp only [Room.calls, hp, Room.publishTrackCalls]
      split at h
      · cases h
      · simp only [Room.publishTrack] at h
        cases hu : p.assertUniqueName track with
        | error e =>
          simp only [hu, bind, Except.bind] at h
          cases h
          exact Calls.refl m _ _
        | ok u =>
          simp only [hu, bind, Except.bind] at h
          cases result with
          | true =>
            cases h
            exact calls_markPublished m _ _ _
          | false =>
            cases h
            exact Calls.refl m _ _
  | unpublishTrack track result =>
    obtain ⟨p, hp, h⟩ := Option.map_eq_some_iff.mp h
    cases result with
    | true =>
      cases h
      exact calls_markUnpublished m _ _ _
    | false =>
      cases h
      exact Calls.refl m _ _
  | trackPublicationFailed trackName =>
    obtain ⟨p, hp, h⟩ := Option.map_eq_some_iff.mp h
    cases h
    simp only [Room.calls, hp]
    exact calls_trackPublicationFailed m r p ts trackName
  | dispose =>
    cases h
    exact calls_dispose m r ts

private theorem rooms_step {m : Nat} {t t' : TrackSends} {a : TrackAct}
    (h : t.step m a = some t') (ha : a ≠ .attachRoom) (hd : a ≠ .detachRoom) :
    t'.wrap.rooms = t.wrap.rooms := by
  by_cases hs : ∃ e, a = .settlePendingIfUnpublished e
  · obtain ⟨e, rfl⟩ := hs
    cases h
    simp only [TrackSends.apply, LocalDataTrackWrap.settlePendingIfUnpublished]
    split <;> rfl
  · exact (TrackSends.step_frame ⟨ha, hd, fun e he ↦ hs ⟨e, he⟩⟩ h).1

/-- A run of calls that attach and detach by turns moves the count of every track with what is
published. -/
theorem exec_rooms {m : Nat} {cs : List TrackCall} {on : LocalTrack → Bool} {ts ts' : Tracks}
    (ha : Alternates on (cs.filterMap TrackCall.mark))
    (hle : ∀ t, (on t).toNat ≤ (ts t).wrap.rooms)
    (h : (Tracks.machine m).exec ts cs = some ts') (t : LocalTrack) :
    (ts' t).wrap.rooms + (on t).toNat =
      (ts t).wrap.rooms + (opened on (cs.filterMap TrackCall.mark) t).toNat := by
  induction cs generalizing on ts with
  | nil =>
    cases h
    rfl
  | cons c cs ih =>
    obtain ⟨track, a⟩ := c
    obtain ⟨ts₁, h₁, h⟩ := Machine.exec_cons_some.mp h
    obtain ⟨u, hu, hu₁⟩ := Option.map_eq_some_iff.mp h₁
    have hts₁ : Function.update ts track u = ts₁ := hu₁
    subst hts₁
    -- The call moves the count of its own track as it moves what is published.
    have hmove : ∀ on' : LocalTrack → Bool, (∀ t', t' ≠ track → on' t' = on t') →
        u.wrap.rooms + (on track).toNat = (ts track).wrap.rooms + (on' track).toNat →
        ∀ t', (Function.update ts track u t').wrap.rooms + (on t').toNat =
          (ts t').wrap.rooms + (on' t').toNat := by
      intro on' hne heq t'
      by_cases ht : t' = track
      · subst ht
        simpa using heq
      · rw [Function.update_of_ne ht, hne t' ht]
    have hgo : ∀ on', Alternates on' (cs.filterMap TrackCall.mark) →
        (∀ t', t' ≠ track → on' t' = on t') →
        u.wrap.rooms + (on track).toNat = (ts track).wrap.rooms + (on' track).toNat →
        (ts' t).wrap.rooms + (on t).toNat =
          (ts t).wrap.rooms + (opened on' (cs.filterMap TrackCall.mark) t).toNat := by
      intro on' ha' hne heq
      have hm := hmove on' hne heq
      have hih := ih ha' (fun t' ↦ by have h₁ := hm t'; have h₂ := hle t'; omega) h
      have hmt := hm t
      omega
    have hlet := hle track
    by_cases hatt : a = .attachRoom
    · subst hatt
      cases hu
      obtain ⟨hv, ha⟩ := ha
      have hv : on track = false := by simpa using hv
      refine hgo (Function.update on track true) ha (fun t' ht ↦ Function.update_of_ne ht ..) ?_
      simp [LocalDataTrackWrap.attachRoom, hv]
    · by_cases hdet : a = .detachRoom
      · subst hdet
        cases hu
        obtain ⟨hv, ha⟩ := ha
        have hv : on track = true := by simpa using hv
        refine hgo (Function.update on track false) ha (fun t' ht ↦ Function.update_of_ne ht ..) ?_
        simp only [hv, Bool.toNat_true] at hlet
        simp only [LocalDataTrackWrap.detachRoom, Function.update_self, hv, Bool.toNat_true,
          Bool.toNat_false]
        rw [if_pos (by omega)]
        show (ts track).wrap.rooms - 1 + 1 = _
        omega
      · have hnone : TrackCall.mark (track, a) = none := by
          cases a with
          | attachRoom => exact absurd rfl hatt
          | detachRoom => exact absurd rfl hdet
          | send args id => rfl
          | onSendProcessed r => rfl
          | turn t => rfl
          | settlePendingIfUnpublished error => rfl
          | destroy => rfl
        rw [List.filterMap_cons, hnone] at ha ⊢
        refine hgo on ha (fun _ _ ↦ rfl) ?_
        rw [rooms_step hu hatt hdet]

namespace Sdk

/-- The calls of a step, with the Room that makes them; no Room makes those of the application,
of the engine and of the garbage collector. -/
def calls (s : Sdk) : SdkAct → List (Option Nat × TrackCall)
  | .send track args id => [(none, track, .send args id)]
  | .onSendProcessed track r => [(none, track, .onSendProcessed r)]
  | .turn track t => [(none, track, .turn t)]
  | .destroy track => [(none, track, .destroy)]
  | .construct seeded =>
    (constructCalls .empty s.tracks seeded).map (Prod.mk (some s.rooms.length))
  | .room i a =>
    match s.rooms[i]? with
    | none => []
    | some r => (r.calls a).map (Prod.mk (some i))

/-- All calls of a run, in order. -/
def issued (m : Nat) (s : Sdk) : List SdkAct → List (Option Nat × TrackCall)
  | [] => []
  | a :: as =>
    match s.step m a with
    | none => []
    | some s' => s.calls a ++ s'.issued m as

/-- The Rooms that attach to a track and detach from it, in order. -/
def marks (cs : List (Option Nat × TrackCall)) : List ((Option Nat × LocalTrack) × Bool) :=
  cs.filterMap fun c ↦ (TrackCall.mark c.2).map fun e ↦ ((c.1, e.1), e.2)

/-- Whether the map of a Room has a track as published. -/
def on (s : Sdk) : Option Nat × LocalTrack → Bool
  | (none, _) => false
  | (some i, track) => (s.rooms[i]?.map fun r ↦ r.dataTracks.on track).getD false

private theorem marks_append (cs ds : List (Option Nat × TrackCall)) :
    marks (cs ++ ds) = marks cs ++ marks ds := List.filterMap_append ..

private theorem marks_map (i : Option Nat) (cs : List TrackCall) :
    marks (cs.map (Prod.mk i)) =
      (cs.filterMap TrackCall.mark).map fun e ↦ (Prod.mk i e.1, e.2) := by
  simp only [marks, List.filterMap_map, List.map_filterMap]
  rfl

private theorem on_concat {s : Sdk} {r : Room} {ts : Tracks} {c : List (Nat × LocalTrack)}
    (j : Nat) (t : LocalTrack) : (⟨ts, s.rooms ++ [r], c⟩ : Sdk).on (some j, t) =
      if j = s.rooms.length then r.dataTracks.on t else s.on (some j, t) := by
  simp only [on, List.getElem?_append]
  by_cases hlt : j < s.rooms.length
  · rw [if_pos hlt, if_neg (by omega)]
  · rw [if_neg hlt, List.getElem?_eq_none (l := s.rooms) (by omega)]
    by_cases he : j = s.rooms.length
    · simp [he]
    · rw [List.getElem?_eq_none (by simp; omega)]
      simp [he]

private theorem on_putRoom {s : Sdk} {i : Nat} {r : Room} (hr : s.rooms[i]? = some r)
    (r' : Room × Tracks) (j : Nat) (t : LocalTrack) :
    (s.putRoom i r').on (some j, t) =
      if j = i then r'.1.dataTracks.on t else s.on (some j, t) := by
  simp only [on, putRoom]
  by_cases hj : j = i
  · subst hj
    rw [Parties.getElem?_set_self hr]
    simp
  · rw [List.getElem?_set_ne (Ne.symm hj)]
    simp [hj]

/-- What a step does, as calls: they change the tracks as the step does, they attach and detach by
turns, and none detaches where no Room is attached. -/
structure Issues (m : Nat) (s s' : Sdk) (cs : List (Option Nat × TrackCall)) : Prop where
  run : (Tracks.machine m).exec s.tracks (cs.map Prod.snd) = some s'.tracks
  alternates : Alternates s.on (marks cs)
  opened : opened s.on (marks cs) = s'.on
  attached : ∀ before i track after, cs = before ++ (i, track, .detachRoom) :: after →
    ∃ ts, (Tracks.machine m).exec s.tracks (before.map Prod.snd) = some ts ∧
      0 < (ts track).wrap.rooms

private theorem issues_room {s s' : Sdk} {i m : Nat} {d : RoomDataTracks} {cs : List TrackCall}
    {d' : RoomDataTracks} (h : Calls m d s.tracks cs d' s'.tracks)
    (hle : ∀ t, (d.on t).toNat ≤ (s.tracks t).wrap.rooms)
    (hi : ∀ t, s.on (some i, t) = d.on t) (hi' : ∀ t, s'.on (some i, t) = d'.on t)
    (hne : ∀ j t, j ≠ i → s'.on (some j, t) = s.on (some j, t)) :
    Issues m s s' (cs.map (Prod.mk (some i))) := by
  have hinj : Function.Injective (Prod.mk (some i) : LocalTrack → Option Nat × LocalTrack) :=
    fun t u he ↦ (Prod.mk.inj he).2
  have hon : (fun t ↦ s.on (some i, t)) = d.on := funext hi
  have hsnd : (cs.map (Prod.mk (some i))).map Prod.snd = cs := by simp
  constructor
  · rw [hsnd]
    exact h.run
  · rw [marks_map, alternates_map hinj, hon]
    exact h.alternates
  · rw [marks_map]
    funext k
    obtain ⟨j, t⟩ := k
    by_cases hj : j = some i
    · subst hj
      rw [opened_map hinj, hon, h.opened, hi']
    · rw [opened_map_of_ne (f := Prod.mk (some i)) fun u he ↦ hj (Prod.mk.inj he).1.symm]
      cases j with
      | none => rfl
      | some j => exact (hne j t fun he ↦ hj (congrArg some he)).symm
  · intro before j track after he
    have hsplit : cs = before.map Prod.snd ++ (track, .detachRoom) :: after.map Prod.snd := by
      rw [← hsnd, he, List.map_append]
      rfl
    have hrun := h.run
    rw [hsplit, Machine.exec_append] at hrun
    obtain ⟨ts, hts, -⟩ := Option.bind_eq_some_iff.mp hrun
    have halt := h.alternates
    rw [hsplit, List.filterMap_append, alternates_append] at halt
    obtain ⟨hb, hopen, -⟩ := halt
    have hopen : Lts.opened d.on ((before.map Prod.snd).filterMap TrackCall.mark) track = true := by
      simpa using hopen
    have hrooms := exec_rooms hb hle hts track
    rw [hopen] at hrooms
    have hlet := hle track
    refine ⟨ts, hts, ?_⟩
    simp only [Bool.toNat_true] at hrooms
    omega

private theorem issues_track {s s' : Sdk} {m : Nat} {track : LocalTrack} {a : TrackAct}
    (hs : s.trackStep m track a = some s') (ha : a ≠ .attachRoom) (hd : a ≠ .detachRoom) :
    Issues m s s' [(none, track, a)] := by
  obtain ⟨t', ht', rfl⟩ := Option.map_eq_some_iff.mp hs
  have hnone : marks [(none, track, a)] = [] := by
    cases a with
    | attachRoom => exact absurd rfl ha
    | detachRoom => exact absurd rfl hd
    | send args id => rfl
    | onSendProcessed r => rfl
    | turn t => rfl
    | settlePendingIfUnpublished error => rfl
    | destroy => rfl
  constructor
  · simp [Machine.exec, Tracks.machine, ht']
  · rw [hnone]
    exact True.intro
  · rw [hnone]
    rfl
  · intro before i t after he
    have hmem : (i, t, TrackAct.detachRoom) ∈ [((none : Option Nat), track, a)] := by simp [he]
    simp only [List.mem_singleton, Prod.mk.injEq] at hmem
    exact absurd hmem.2.2.symm hd

/-- Every step is its calls. -/
theorem issues {m : Nat} {s s' : Sdk} {a : SdkAct} (hi : Inv m s) (h : s.step m a = some s') :
    Issues m s s' (s.calls a) := by
  cases a with
  | send track args id => exact issues_track h (by simp) (by simp)
  | onSendProcessed track r => exact issues_track h (by simp) (by simp)
  | turn track t => exact issues_track h (by simp) (by simp)
  | destroy track => exact issues_track h (by simp) (by simp)
  | construct seeded =>
    cases h
    refine issues_room (calls_construct m .empty s.tracks seeded) (fun t ↦ ?_) (fun t ↦ ?_)
      (fun t ↦ ?_) (fun j t hj ↦ ?_)
    · simp [RoomDataTracks.on]
    · simp [on, RoomDataTracks.on]
    · rw [on_concat, if_pos rfl]
      rfl
    · rw [on_concat, if_neg hj]
  | room i a =>
    simp only [step] at h
    split at h
    · cases h
    · next r hr =>
      obtain ⟨⟨r', ts'⟩, hx, rfl⟩ := Option.map_eq_some_iff.mp h
      simp only [calls, hr]
      refine issues_room (room_calls (m := m) hx) (fun t ↦ ?_) (fun t ↦ ?_) (fun t ↦ ?_)
        (fun j t hj ↦ ?_)
      · rw [hi.rooms t]
        exact Parties.le_countP (fun r : Room ↦ r.dataTracks.get t = some true) hr
      · simp [on, hr]
      · rw [on_putRoom hr, if_pos rfl]
      · rw [on_putRoom hr, if_neg hj]

/-- A run is its calls. -/
theorem issues_run {m : Nat} {s s' : Sdk} {as : List SdkAct} (hi : Inv m s)
    (h : (machine m).exec s as = some s') : Issues m s s' (s.issued m as) := by
  induction as generalizing s with
  | nil =>
    cases h
    refine ⟨rfl, True.intro, rfl, fun before i track after he ↦ ?_⟩
    simp [issued] at he
  | cons a as ih =>
    obtain ⟨s₁, h₁, h⟩ := Machine.exec_cons_some.mp h
    have hstep : s.step m a = some s₁ := h₁
    have hhead := issues hi hstep
    have htail := ih (inv_step hi hstep) h
    simp only [issued, hstep]
    constructor
    · rw [List.map_append, Machine.exec_append, hhead.run]
      exact htail.run
    · rw [marks_append, alternates_append, hhead.opened]
      exact ⟨hhead.alternates, htail.alternates⟩
    · rw [marks_append, opened_append, hhead.opened]
      exact htail.opened
    · intro before i track after he
      rcases List.append_eq_append_iff.mp he with ⟨cs, rfl, hcs⟩ | ⟨cs, hcs, hrest⟩
      · obtain ⟨ts, hts, hpos⟩ := htail.attached cs i track after hcs
        refine ⟨ts, ?_, hpos⟩
        rw [List.map_append, Machine.exec_append, hhead.run]
        exact hts
      · cases cs with
        | nil =>
          rw [List.append_nil] at hcs
          obtain ⟨ts, hts, hpos⟩ := htail.attached [] i track after hrest.symm
          cases hts
          exact ⟨s₁.tracks, by rw [← hcs]; exact hhead.run, hpos⟩
        | cons c cs =>
          rw [List.cons_append, List.cons.injEq] at hrest
          obtain ⟨rfl, -⟩ := hrest
          exact hhead.attached before i track cs hcs

/-- In every reachable state the count of a data track is the number of undisposed Rooms that have
it as published. The calls of a run, which change the tracks as the run does, detach a Room from
a track only where it was attached once more than detached before, and only from a track that
counts a Room then. -/
theorem attached_by_rooms (m : Nat) (as : List SdkAct) (s : Sdk)
    (h : (machine m).exec (machine m).init as = some s) :
    (∀ track, (s.tracks track).wrap.rooms =
      s.rooms.countP fun r ↦ !r.disposed && r.dataTracks.on track) ∧
    (Tracks.machine m).exec (machine m).init.tracks
      (((machine m).init.issued m as).map Prod.snd) = some s.tracks ∧
    ∀ before i track after,
      (machine m).init.issued m as = before ++ (i, track, .detachRoom) :: after →
      (marks before).count ((i, track), true) = (marks before).count ((i, track), false) + 1 ∧
      ∃ ts, (Tracks.machine m).exec (machine m).init.tracks (before.map Prod.snd) = some ts ∧
        0 < (ts track).wrap.rooms := by
  have hi := inv_of_reachable ⟨as, h⟩
  have hrun := issues_run (inv_of_reachable (m := m) (Machine.reachable_init _)) h
  have hoff : (machine m).init.on = fun _ ↦ false := by
    funext k
    obtain ⟨i, t⟩ := k
    cases i <;> rfl
  refine ⟨fun track ↦ ?_, hrun.run, fun before i track after he ↦ ⟨?_, ?_⟩⟩
  · rw [hi.rooms track, countingRooms]
    apply List.countP_congr
    intro r hr
    cases hd : r.disposed with
    | false => simp [RoomDataTracks.on]
    | true => simp [hi.disposed r hr hd]
  · have halt := hrun.alternates
    rw [he, marks_append, hoff] at halt
    exact Alternates.count_before halt
  · exact hrun.attached before i track after he

private def sharedTrack : LocalTrack := ⟨0, .data, "shared"⟩

-- Two Rooms seeded with one track, the first with it twice; the first is disposed twice.
private def sharingRun : List SdkAct :=
  [.construct [sharedTrack, sharedTrack], .construct [sharedTrack], .room 0 .dispose,
    .room 0 .dispose, .room 1 .localParticipant, .room 1 (.unpublishTrack sharedTrack true),
    .room 1 (.publishTrack sharedTrack true)]

/-- A track that two Rooms had counts the one that is left. -/
theorem attached_by_rooms_shared : ∃ s, (machine 65536).Reachable s ∧
    (s.tracks sharedTrack).wrap.rooms = 1 ∧
    (s.rooms.countP fun r ↦ !r.disposed && r.dataTracks.on sharedTrack) = 1 := by
  have hr : (machine 65536).exec (machine 65536).init sharingRun = some _ := rfl
  have hcount := (attached_by_rooms 65536 sharingRun _ hr).1 sharedTrack
  exact ⟨_, ⟨sharingRun, hr⟩, rfl, hcount.symm⟩

end Sdk

end VideoNode.Local
