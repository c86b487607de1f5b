import VideoNode.Lts.Parties
import VideoNode.Participants.Room

/-!
# What an emit can do

Whatever a listener of the application does, it wraps participants and calls tracks. So a
property of the Room that these keep, and that a `once` wrapper keeps when it fires, is kept by
every emit.
-/

namespace VideoNode.Participants

open VideoNode.Js VideoNode.Lts VideoNode.Tracks

namespace Room

variable {N : Natives} {b : Behavior} {q : Room → Prop}

/-- The Room with a new wrapper, before it is mentioned. -/
def grown (N : Natives) (s : Room) (n : NativeParticipant) : Room :=
  { s with
    participants := s.participants ++ [newParticipant n]
    eventCallbacks := s.eventCallbacks.set n s.participants.length
    remoteParticipantCache := s.remoteParticipantCache.set (N.sid n) s.participants.length }

/-- The two ways to mention a participant. -/
inductive Mentions (N : Natives) (s : Room) (n : NativeParticipant) : Room × Nat → Prop where
  | found {p : Nat} (hp : s.remoteParticipantCache.get (N.sid n) = some p) :
      Mentions N s n (s.record (.mention (N.sid n) p), p)
  | made (hn : s.remoteParticipantCache.get (N.sid n) = none) :
      Mentions N s n ((grown N s n).record (.mention (N.sid n) s.participants.length),
        s.participants.length)

/-- Inversion of `_wrapRemoteParticipant`. -/
theorem mentions (N : Natives) (s : Room) (n : NativeParticipant) :
    Mentions N s n (s.wrapRemoteParticipant N n) := by
  unfold wrapRemoteParticipant
  split
  · next p hp => exact .found hp
  · next hn => exact .made hn

/-- The wrappers there are stay. -/
theorem kept_grown {s : Room} {n : NativeParticipant} {p : Nat} {x : RemoteParticipant}
    (hx : s.participants[p]? = some x) : (grown N s n).participants[p]? = some x := by
  simp only [grown]
  rw [List.getElem?_append_left (List.getElem?_eq_some_iff.mp hx).1]
  exact hx

/-- The new wrapper is behind them. -/
theorem new_grown (s : Room) (n : NativeParticipant) :
    (grown N s n).participants[s.participants.length]? = some (newParticipant n) := by
  simp [grown]

section OnListeners

variable {s : Room} {p i : Nat} {x y : RemoteParticipant}
  {f : Emitter ParticipantEvent ParticipantListener →
    Emitter ParticipantEvent ParticipantListener}

/-- What an emitter method on one participant leaves of a participant. -/
structure Heard (p i : Nat) (f : Emitter ParticipantEvent ParticipantListener →
    Emitter ParticipantEvent ParticipantListener) (x y : RemoteParticipant) : Prop where
  native : y.native = x.native
  disposed : y.disposed = x.disposed
  listeners : y.listeners = if p = i then f x.listeners else x.listeners

private theorem heard (p i : Nat) (f : Emitter ParticipantEvent ParticipantListener →
    Emitter ParticipantEvent ParticipantListener) (x : RemoteParticipant) :
    Heard p i f x (if p = i then { x with listeners := f x.listeners } else x) := by
  by_cases hpi : p = i
  · rw [if_pos hpi]
    exact ⟨rfl, rfl, (if_pos hpi).symm⟩
  · rw [if_neg hpi]
    exact ⟨rfl, rfl, (if_neg hpi).symm⟩

/-- Everybody is still there after an emitter method on one participant. -/
theorem heard_of (hx : s.participants[i]? = some x) :
    ∃ y, (s.onListeners p f).participants[i]? = some y ∧ Heard p i f x y :=
  ⟨_, Parties.getElem?_modify_of hx _, heard p i f x⟩

/-- Everybody was there before an emitter method on one participant. -/
theorem of_heard (hy : (s.onListeners p f).participants[i]? = some y) :
    ∃ x, s.participants[i]? = some x ∧ Heard p i f x y := by
  obtain ⟨x, hx, rfl⟩ := Parties.of_getElem?_modify hy
  exact ⟨x, hx, heard p i f x⟩

end OnListeners

/-- Wrapping participants and calling tracks keeps the property. -/
structure Stable (N : Natives) (q : Room → Prop) : Prop where
  wrap : ∀ s n, q s → q (s.wrapRemoteParticipant N n).1
  track : ∀ (s : Room) (w : Nat) (f : RemoteTrack → RemoteTrack),
    (∀ t, RemoteTrack.Same t (f t)) → q s → q (s.onTrack w f)

/-- A mention grows the Room, if it does, and makes a record. -/
theorem Stable.of_grown (hr : ∀ (s : Room) (entry : Entry), q s → q (s.record entry))
    (hg : ∀ s n, q s → q (grown N s n))
    (ht : ∀ (s : Room) (w : Nat) (f : RemoteTrack → RemoteTrack),
      (∀ t, RemoteTrack.Same t (f t)) → q s → q (s.onTrack w f)) : Stable N q where
  wrap s n h := by
    have hm := mentions N s n
    generalize s.wrapRemoteParticipant N n = r at hm ⊢
    cases hm with
    | found hp => exact hr _ _ h
    | made hn => exact hr _ _ (hg _ _ h)
  track := ht

/-- Reading the participants keeps what is stable. -/
theorem Stable.readParticipants (h : Stable N q) {s : Room} (hs : q s)
    (natives : List NativeParticipant) : q (s.readParticipants N natives).1 := by
  unfold Room.readParticipants
  apply List.foldlRecOn (motive := fun c : Room × JsMap String Nat ↦ q c.1)
  · exact hs
  · intro c hc n _
    exact h.wrap c.1 n hc

/-- Seeding keeps what is stable. -/
theorem Stable.seed (h : Stable N q) {s : Room} (hs : q s) (natives : List NativeParticipant) :
    q (s.seedExistingParticipants N natives) := by
  unfold seedExistingParticipants
  induction natives generalizing s with
  | nil => exact hs
  | cons n l ih =>
    rw [List.foldl_cons]
    exact ih (h.wrap s n hs)

/-- What the application calls keeps what is stable. -/
theorem Stable.use (h : Stable N q) {s : Room} (hs : q s) (u : Use) : q (s.use N u) := by
  cases u with
  | participants natives => exact h.readParticipants hs natives
  | remoteParticipants natives => exact h.readParticipants hs natives
  | dominantSpeaker native =>
    cases native with
    | none => exact hs
    | some n => exact h.wrap s n hs
  | frames w options attachFrameSink => exact h.track s w _ (fun _ ↦ RemoteTrack.same_frames) hs
  | listen w onMessage => exact h.track s w _ (fun _ ↦ RemoteTrack.same_listen) hs
  | returnIterator w r calls =>
    exact h.track s w _ (fun _ ↦ RemoteTrack.same_returnIterator) hs

/-- A listener of the application keeps what is stable. -/
theorem Stable.react (h : Stable N q) {s : Room} (hs : q s) (n : Nat) :
    q (s.react N b n).1 := by
  have hf : ∀ (l : List Use) (s : Room), q s → q (l.foldl (Room.use N) s) := by
    intro l
    induction l with
    | nil => exact fun s hs ↦ hs
    | cons u l ih => exact fun s hs ↦ ih _ (h.use hs u)
  exact hf (b n).uses s hs

/-- An emit on the Room keeps what is stable and what its wrappers keep when they fire. -/
theorem Stable.emit (h : Stable N q)
    (hl : ∀ s i, q s → q { s with listeners := s.listeners.fire i }) {s : Room}
    {e : RoomEvent} {args : List Arg} (hs : q (s.record (.emit e args))) :
    q (s.emit N b e args).1 := by
  apply Emitter.emit_invariant hl
  · exact fun r _ _ s hs ↦ h.react hs r.listener
  · exact hs

private theorem write_fire (s : Room) (p i : Nat) :
    (participantSlot p).write s (((participantSlot p).read s).fire i) =
      s.onListeners p fun m ↦ m.fire i := by
  simp only [participantSlot, onListeners]
  cases hx : s.participants[p]? with
  | none => rw [List.modify_eq_self (List.getElem?_eq_none_iff.mp hx),
      List.modify_eq_self (List.getElem?_eq_none_iff.mp hx)]
  | some x =>
    rw [Parties.modify_eq_set_of hx, Parties.modify_eq_set_of hx]
    rfl

/-- An emit on a participant keeps what is stable, what wrappers keep when they fire, and what
says nothing about the emits on the Room. -/
theorem Stable.emitParticipant (h : Stable N q)
    (hl : ∀ s i, q s → q { s with listeners := s.listeners.fire i })
    (hp : ∀ s p i, q s → q (s.onListeners p fun m ↦ m.fire i))
    (he : ∀ s e args, q s → q (s.record (.emit e args)))
    {s : Room} {p : Nat} {e : ParticipantEvent} {args : List Arg}
    (hs : q (s.record (.raise ((s.participants[p]?).elim "" fun x ↦ N.sid x.native) p e args))) :
    q (s.emitParticipant N b p e args).1 := by
  apply Emitter.emit_invariant _ _ hs
  · intro t i ht
    rw [write_fire]
    exact hp t p i ht
  · intro r _ _ t ht
    cases r.listener with
    | bubble =>
      cases e with
      | track e => exact h.emit hl (he t _ _ ht)
      | networkQualityLevelChanged => exact ht
    | application n => exact h.react ht n

/-- A participant that is there stays. -/
theorem emitParticipant_stays {s : Room} {p i : Nat} {e : ParticipantEvent} {args : List Arg}
    (h : ∃ x, s.participants[i]? = some x) :
    ∃ x, (s.emitParticipant N b p e args).1.participants[i]? = some x := by
  have hst : Stable N fun s ↦ ∃ x, s.participants[i]? = some x := by
    refine ⟨fun s n ⟨x, hx⟩ ↦ ?_, fun _ _ _ _ h ↦ h⟩
    have hm := mentions N s n
    generalize s.wrapRemoteParticipant N n = r at hm ⊢
    cases hm with
    | found hp => exact ⟨x, hx⟩
    | made hn => exact ⟨x, kept_grown (N := N) hx⟩
  apply hst.emitParticipant (fun _ _ h ↦ h) _ (fun _ _ _ h ↦ h) h
  intro s q j ⟨x, hx⟩
  obtain ⟨y, hy, -⟩ := heard_of hx
  exact ⟨y, hy⟩

/-- The callback of a native participant keeps what wrapping and releasing a track and an emit
on the participant keep. -/
theorem onParticipantEvent_keeps {wrapCalls releaseCalls : Nat → EndCalls} {p : Nat}
    (hw : ∀ s n, q s → q (s.wrapTrack N wrapCalls n).1)
    (hr : ∀ s w, q s → q (s.releaseTrack N releaseCalls w).1)
    (he : ∀ s e args, q s → q (s.emitParticipant N b p e args).1) {s : Room} (hs : q s)
    (ev : NativeParticipantEvent) :
    q (s.onParticipantEvent N b wrapCalls releaseCalls p ev).1 := by
  have hpub : ∀ e publication, q (s.onPublication N b p e publication).1 := by
    intro e publication
    cases publication with
    | none => exact hs
    | some raw => exact he s _ _ hs
  have hobj : ∀ e n publication, q (s.onTrackObject N b wrapCalls p e n publication).1 := by
    intro e n publication
    have hn := hw s n hs
    unfold onTrackObject
    split
    · next hc =>
      rw [hc] at hn
      exact hn
    · next hc =>
      rw [hc] at hn
      exact he _ _ _ hn
  cases ev with
  | trackSubscriptionFailed error publication => exact he s _ _ hs
  | trackSubscribed track publication => exact hobj _ _ _
  | trackUnsubscribed track publication =>
    have hn := hw s track hs
    simp only [onParticipantEvent, onTrackUnsubscribed]
    split
    · next hc =>
      rw [hc] at hn
      exact hn
    · next s' w hc =>
      rw [hc] at hn
      have hemit := he s' (.track .trackUnsubscribed) [.track w, .publication publication] hn
      split
      · next hc =>
        rw [hc] at hemit
        exact hemit
      · next hc =>
        rw [hc] at hemit
        exact hr _ w hemit
  | trackPublished publication => exact hpub _ _
  | trackUnpublished publication => exact hpub _ _
  | trackEnabled publication => exact hpub _ _
  | trackDisabled publication => exact hpub _ _
  | videoTrackSwitchedOff track => exact hobj _ _ _
  | videoTrackSwitchedOn track => exact hobj _ _ _
  | networkQualityLevelChanged level => exact he s _ _ hs

/-- What a mention hands out is cached. -/
theorem cached_wrap (s : Room) (n : NativeParticipant) :
    (s.wrapRemoteParticipant N n).1.remoteParticipantCache.get (N.sid n) =
      some (s.wrapRemoteParticipant N n).2 := by
  have hm := mentions N s n
  generalize s.wrapRemoteParticipant N n = r at hm ⊢
  cases hm with
  | found hp => exact hp
  | made hn => simp [record, grown, JsMap.get_set]

/-- What is cached stays so until somebody leaves. -/
theorem stable_cached (k : String) (p : Nat) :
    Stable N fun s ↦ s.remoteParticipantCache.get k = some p where
  wrap s n h := by
    have hm := mentions N s n
    generalize s.wrapRemoteParticipant N n = r at hm ⊢
    cases hm with
    | found hp => exact h
    | made hn =>
      simp only [record, grown, JsMap.get_set]
      split
      · next hk =>
        rw [← hk, h] at hn
        cases hn
      · exact h
  track _ _ _ _ h := h

end Room

end VideoNode.Participants
