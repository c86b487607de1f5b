import VideoNode.Participants.Identity

/-!
# What a listener that throws leaves undone

The clean-up behind `trackUnsubscribed` and `participantDisconnected` comes after the emit, so it
is done exactly where no listener that the emit reaches throws. The emitters are well formed in
every state, whatever was thrown before.
-/

namespace VideoNode.Tracks

open VideoNode.Js VideoNode.Lts

/-- The receiver has ended, or there is none. -/
def RemoteTrack.idle : RemoteTrack → Bool
  | .video t | .audio t => t.stream.all fun r ↦ decide (t.ended[r]? ≠ some false)
  | .data t => !t.attached

/-- `_end()` ends the receiver, whatever the native calls do. -/
theorem RemoteTrack.idle_endTrack (t : RemoteTrack) (calls : EndCalls) :
    (t.endTrack calls).1.idle = true := by
  have hm : ∀ m : MediaTrack, (m.endTrack calls).1.stream.all
      (fun r ↦ decide ((m.endTrack calls).1.ended[r]? ≠ some false)) = true := by
    intro m
    unfold MediaTrack.endTrack
    split
    · next hs => simp [hs]
    · next r hs =>
      unfold MediaTrack.endStream
      split
      · next he =>
        have hlt := (List.getElem?_eq_some_iff.mp he).1
        unfold MediaTrack.onEnd
        split
        · simp [hs, hlt]
        · split <;> rfl
      · next he => simpa [hs] using he
  cases t with
  | video t => exact hm t
  | audio t => exact hm t
  | data t =>
    simp only [RemoteTrack.endTrack, DataTrack.endTrack]
    split
    · next ha => exact ha
    · split <;> rfl

namespace TrackRegistry

variable {sid : NativeTrack → Option String} {kind : NativeTrack → NativeKind}
  {calls : Nat → EndCalls} {s : TrackRegistry} {n : NativeTrack} {k : String} {w : Nat}
  {x : RemoteTrack}

/-- The wrapper a release ends. -/
theorem idle_releaseRemoteTrack (hw : s.registry.get k = some w)
    (hx : (s.releaseRemoteTrack calls (some k)).1.tracks[w]? = some x) : x.idle = true := by
  simp only [releaseRemoteTrack, Option.bind_some, hw, delete, endTrack] at hx
  split at hx
  · next hn =>
    rw [hn] at hx
    cases hx
  · next t ht =>
    rw [Parties.getElem?_set_self ht] at hx
    cases hx
    exact t.idle_endTrack (calls w)

/-- The wrapper that was cached where none can be made. -/
theorem Wrapped.idle_of_error {r : TrackRegistry × Except JsError Nat}
    (h : Wrapped sid kind calls s n r) {error : JsError} (hr : r.2 = .error error)
    (hk : sid n = some k) (hw : s.registry.get k = some w) (hx : r.1.tracks[w]? = some x) :
    x.idle = true := by
  cases h with
  | found => cases hr
  | made => cases hr
  | failed hc =>
    cases hc with
    | absent he =>
      rw [existing, hk, Option.bind_some, hw] at he
      cases he
    | @ended k' w' t hk' hw' ht hne =>
      cases hk.symm.trans hk'
      cases hw.symm.trans hw'
      rw [Parties.getElem?_set_self ht] at hx
      cases hx
      exact t.idle_endTrack (calls w)

end TrackRegistry

end VideoNode.Tracks

namespace VideoNode.Participants

open VideoNode.Js VideoNode.Lts VideoNode.Tracks

/-- The Room listens to every track event, or has stopped listening. -/
structure Tuned (m : Emitter ParticipantEvent ParticipantListener) : Prop where
  wf : m.WF
  bubble : Bubbling m ∨ ∀ r ∈ m.registrations, r.listener ≠ .bubble

namespace Tuned

variable {m : Emitter ParticipantEvent ParticipantListener} {e : ParticipantEvent} {n : Nat}

/-- A new participant. -/
theorem new : Tuned Room.bubbleTrackEvents := by
  refine ⟨?_, .inl Bubbling.new⟩
  have hf : ∀ (l : List TrackEvent) (m : Emitter ParticipantEvent ParticipantListener), m.WF →
      (l.foldl (fun m e ↦ m.on (.track e) .bubble) m).WF := by
    intro l
    induction l with
    | nil => exact fun m h ↦ h
    | cons e l ih => exact fun m h ↦ ih _ (Emitter.wf_on h)
  exact hf _ _ Emitter.wf_empty

private theorem wf_add {E F : Type} {m : Emitter E F} (h : m.WF) (how : Adding) (event : E)
    (listener : F) : (how.add m event listener).WF := by
  cases how with
  | on => exact Emitter.wf_on h
  | once => exact Emitter.wf_once h
  | prependListener => exact Emitter.wf_prependListener h
  | prependOnceListener => exact Emitter.wf_prependOnceListener h

private theorem mem_add {how : Adding} {r : Registration ParticipantEvent ParticipantListener}
    (hr : r ∈ (how.add m e (.application n)).registrations) :
    r ∈ m.registrations ∨ r.listener = .application n := by
  cases how with
  | on | once =>
    simp only [Adding.add, Emitter.registrations_on, Emitter.registrations_once,
      List.mem_append, List.mem_singleton] at hr
    cases hr with
    | inl hr => exact .inl hr
    | inr hr => exact .inr (by rw [hr])
  | prependListener | prependOnceListener =>
    cases List.mem_cons.mp hr with
    | inl hr => exact .inr (by rw [hr])
    | inr hr => exact .inl hr

/-- Listeners of the application are added. -/
theorem add (h : Tuned m) (how : Adding) : Tuned (how.add m e (.application n)) := by
  refine ⟨wf_add h.wf how _ _, ?_⟩
  cases h.bubble with
  | inl hb => exact .inl (hb.add how)
  | inr hb =>
    refine .inr fun r hr hl ↦ ?_
    cases mem_add hr with
    | inl hr => exact hb r hr hl
    | inr ha =>
      rw [ha] at hl
      cases hl

/-- Listeners of the application are removed. -/
theorem remove (h : Tuned m) : Tuned (m.removeListener e (.application n)) := by
  refine ⟨Emitter.wf_removeListener h.wf, ?_⟩
  cases h.bubble with
  | inl hb => exact .inl hb.remove
  | inr hb => exact .inr fun r hr ↦ hb r (Emitter.mem_of_removeListener hr)

/-- A wrapper fires. -/
theorem fire (h : Tuned m) (i : Nat) : Tuned (m.fire i) := by
  refine ⟨Emitter.wf_fire h.wf i, ?_⟩
  cases h.bubble with
  | inl hb => exact .inl (hb.fire i)
  | inr hb => exact .inr fun r hr ↦ hb r (Emitter.mem_of_fire hr)

/-- A disposed participant. -/
theorem removeAll (h : Tuned m) : Tuned m.removeAllListeners := by
  refine ⟨Emitter.wf_removeAllListeners h.wf, .inr fun r hr ↦ ?_⟩
  cases hr

end Tuned

namespace Room

variable {N : Natives} {b : Behavior} {s t : Room}

/-- What holds of a Room in every state. -/
structure Wired (N : Natives) (s : Room) : Prop where
  listeners : s.listeners.WF
  tuned : ∀ (p : Nat) (x : RemoteParticipant), s.participants[p]? = some x → Tuned x.listeners
  cached : ∀ (k : String) (p : Nat), s.remoteParticipantCache.get k = some p →
    ∃ x, s.participants[p]? = some x ∧ N.sid x.native = k
  called : ∀ (n : NativeParticipant) (p : Nat), s.eventCallbacks.get n = some p →
    ∃ x, s.participants[p]? = some x
  law : s.tracks.Law N.trackSid? N.kind

private theorem wired_create : Wired N create where
  listeners := Emitter.wf_empty
  tuned p x hx := by simp [create] at hx
  cached k p hp := by simp [create] at hp
  called n p hp := by simp [create] at hp
  law := ⟨fun k w hw ↦ by simp [create, TrackRegistry.empty] at hw⟩

private theorem wired_record (h : Wired N s) (entry : Entry) : Wired N (s.record entry) :=
  ⟨h.listeners, h.tuned, h.cached, h.called, h.law⟩

private theorem wired_listeners (h : Wired N s) {m : Emitter RoomEvent Nat} (hm : m.WF) :
    Wired N { s with listeners := m } := ⟨hm, h.tuned, h.cached, h.called, h.law⟩

private theorem wired_tracks (h : Wired N s) {r : TrackRegistry}
    (hr : r.Law N.trackSid? N.kind) : Wired N { s with tracks := r } :=
  ⟨h.listeners, h.tuned, h.cached, h.called, hr⟩

private theorem wired_onListeners (h : Wired N s) (p : Nat)
    {f : Emitter ParticipantEvent ParticipantListener →
      Emitter ParticipantEvent ParticipantListener}
    (hf : ∀ m, Tuned m → Tuned (f m)) : Wired N (s.onListeners p f) := by
  refine ⟨h.listeners, fun q y hy ↦ ?_, fun k q hq ↦ ?_, fun n q hq ↦ ?_, h.law⟩
  · obtain ⟨x, hx, he⟩ := of_heard hy
    rw [he.listeners]
    split
    · exact hf _ (h.tuned q x hx)
    · exact h.tuned q x hx
  · obtain ⟨x, hx, hk⟩ := h.cached k q hq
    obtain ⟨y, hy, he⟩ := heard_of hx
    exact ⟨y, hy, he.native ▸ hk⟩
  · obtain ⟨x, hx⟩ := h.called n q hq
    obtain ⟨y, hy, -⟩ := heard_of hx
    exact ⟨y, hy⟩

private theorem wired_grown (h : Wired N s) (n : NativeParticipant) : Wired N (grown N s n) := by
  refine ⟨h.listeners, fun p x hx ↦ ?_, fun k p hp ↦ ?_, fun m p hp ↦ ?_, h.law⟩
  · rcases Parties.getElem?_concat hx with ⟨-, rfl⟩ | hx
    · exact Tuned.new
    · exact h.tuned p x hx
  · simp only [grown, JsMap.get_set] at hp
    split at hp
    · next hk =>
      cases hp
      exact ⟨newParticipant n, new_grown s n, hk.symm⟩
    · obtain ⟨x, hx, hk⟩ := h.cached k p hp
      exact ⟨x, kept_grown hx, hk⟩
  · simp only [grown, JsMap.get_set] at hp
    split at hp
    · cases hp
      exact ⟨newParticipant n, new_grown s n⟩
    · obtain ⟨x, hx⟩ := h.called m p hp
      exact ⟨x, kept_grown hx⟩

private theorem stable_wired : Stable N (Wired N) := by
  refine .of_grown (fun s entry h ↦ wired_record h entry) (fun s n h ↦ wired_grown h n) ?_
  intro s w f hf h
  exact wired_tracks h ((TrackRegistry.shrunk_modify s.tracks w hf).law h.law)

private theorem wired_emit (h : Wired N s) (e : RoomEvent) (args : List Arg) :
    Wired N (s.emit N b e args).1 :=
  stable_wired.emit (fun _ i h ↦ wired_listeners h (Emitter.wf_fire h.listeners i))
    (wired_record h _)

private theorem wired_emitParticipant (h : Wired N s) (p : Nat) (e : ParticipantEvent)
    (args : List Arg) : Wired N (s.emitParticipant N b p e args).1 := by
  apply stable_wired.emitParticipant
  · exact fun _ i h ↦ wired_listeners h (Emitter.wf_fire h.listeners i)
  · exact fun s p i h ↦ wired_onListeners h p fun m hm ↦ hm.fire i
  · exact fun s e args h ↦ wired_record h _
  · exact wired_record h _

private theorem wired_wrapTrack (h : Wired N s) (calls : Nat → EndCalls) (n : NativeTrack) :
    Wired N (s.wrapTrack N calls n).1 :=
  wired_tracks h ((TrackRegistry.wrapped calls h.law n).law h.law)

private theorem wired_releaseTrack (h : Wired N s) (calls : Nat → EndCalls) (w : Nat) :
    Wired N (s.releaseTrack N calls w).1 :=
  wired_tracks h ((TrackRegistry.shrunk_releaseRemoteTrack s.tracks _).law h.law)

private theorem wired_onParticipantEvent (h : Wired N s) (wrapCalls releaseCalls : Nat → EndCalls)
    (p : Nat) (ev : NativeParticipantEvent) :
    Wired N (s.onParticipantEvent N b wrapCalls releaseCalls p ev).1 := by
  apply onParticipantEvent_keeps
  · exact fun s n h ↦ wired_wrapTrack h wrapCalls n
  · exact fun s w h ↦ wired_releaseTrack h releaseCalls w
  · exact fun s e args h ↦ wired_emitParticipant h p e args
  · exact h

private theorem wired_forget (h : Wired N s) (p : Nat) : Wired N (s.forget N p) := by
  have hto : ∀ {q : Nat} {x : RemoteParticipant}, s.participants[q]? = some x →
      ∃ y, (s.forget N p).participants[q]? = some y ∧ y.native = x.native := by
    intro q x hx
    refine ⟨_, Parties.getElem?_modify_of hx _, ?_⟩
    split <;> rfl
  refine ⟨h.listeners, fun q y hy ↦ ?_, fun k q hq ↦ ?_, fun n q hq ↦ ?_, h.law⟩
  · obtain ⟨x, hx, rfl⟩ := Parties.of_getElem?_modify hy
    split
    · exact (h.tuned q x hx).removeAll
    · exact h.tuned q x hx
  · simp only [forget, disposeParticipant, JsMap.get_delete] at hq
    split at hq
    · cases hq
    · obtain ⟨x, hx, hk⟩ := h.cached k q hq
      obtain ⟨y, hy, hn⟩ := hto hx
      exact ⟨y, hy, hn ▸ hk⟩
  · obtain ⟨x, hx⟩ := h.called n q hq
    obtain ⟨y, hy, -⟩ := hto hx
    exact ⟨y, hy⟩

private theorem wired_onPresenceEvent (h : Wired N s) (e : PresenceEvent)
    (data : Option NativeParticipant) : Wired N (s.onPresenceEvent N b e data).1 := by
  cases data with
  | none => exact wired_emit h _ _
  | some n =>
    have hw := stable_wired.wrap s n h
    simp only [onPresenceEvent]
    generalize s.wrapRemoteParticipant N n = r at hw ⊢
    obtain ⟨s', p⟩ := r
    have he : Wired N (s'.emit N b (.presence e) [.participant p]).1 := wired_emit hw _ _
    dsimp only
    generalize s'.emit N b (.presence e) [.participant p] = r at he ⊢
    obtain ⟨t, c⟩ := r
    cases c with
    | threw => exact he
    | returned =>
      dsimp only
      split
      · exact wired_forget he p
      · exact he

private theorem wired_onRoomEvent (h : Wired N s) (releaseCalls : Nat → EndCalls)
    (ev : NativeRoomEvent) : Wired N (s.onRoomEvent N b releaseCalls ev).1 := by
  cases ev with
  | connected natives => exact stable_wired.seed h natives
  | presence e data => exact wired_onPresenceEvent h e data
  | disconnected error =>
    have hl : (s.tracks.releaseAllRemoteTracks releaseCalls).1.Law N.trackSid? N.kind :=
      (TrackRegistry.shrunk_releaseAllRemoteTracks s.tracks).law h.law
    have ht := wired_tracks h hl
    simp only [onRoomEvent]
    split
    · exact ht
    · exact wired_emit ht _ _
  | plain e data => exact wired_emit h _ _

/-- Every step, also one on which a listener throws. -/
theorem wired_step {a : Act} (h : Wired N s) (hs : s.step N a = some t) : Wired N t := by
  cases a with
  | room ev b releaseCalls =>
    cases hs
    have hr : Wired N (s.onRoomEvent N b releaseCalls ev).1 := wired_onRoomEvent h releaseCalls ev
    cases hl : leaver ev with
    | none => exact hr
    | some n => exact wired_record hr _
  | participant n ev b wrapCalls releaseCalls =>
    obtain ⟨p, -, rfl⟩ := Option.map_eq_some_iff.mp hs
    exact wired_onParticipantEvent h wrapCalls releaseCalls p ev
  | use u =>
    cases hs
    exact stable_wired.use h u
  | listen how e n =>
    cases hs
    exact wired_listeners h (Tuned.wf_add h.listeners how e n)
  | removeListener e n =>
    cases hs
    exact wired_listeners h (Emitter.wf_removeListener h.listeners)
  | listenParticipant p how e n =>
    cases hs
    exact wired_onListeners h p fun m hm ↦ hm.add how
  | removeParticipantListener p e n =>
    cases hs
    exact wired_onListeners h p fun m hm ↦ hm.remove

/-- Every reachable state. -/
theorem wired_reachable (h : (machine N).Reachable s) : Wired N s :=
  h.invariant wired_create fun _ _ _ h hs ↦ wired_step h hs

/-- A listener of the application that an emit on the Room calls. -/
def Hears (s : Room) (e : RoomEvent) (n : Nat) : Prop :=
  ∃ r ∈ s.listeners.listening e, r.listener = n

/-- A listener of the application that an emit of a track event on a participant calls, on the
participant or, through the Room's own listener, on the Room. -/
def Reaches (s : Room) (p : Nat) (e : TrackEvent) (n : Nat) : Prop :=
  ∃ x, s.participants[p]? = some x ∧ ∃ r ∈ x.listeners.listening (.track e),
    r.listener = .application n ∨ r.listener = .bubble ∧ s.Hears (.track e) n

private theorem stable_listeners (m : Emitter RoomEvent Nat) :
    Stable N fun s ↦ s.listeners = m :=
  .of_grown (fun _ _ h ↦ h) (fun _ _ h ↦ h) fun _ _ _ _ h ↦ h

private theorem stable_participant (p : Nat) (x : RemoteParticipant) :
    Stable N fun s ↦ s.participants[p]? = some x :=
  .of_grown (fun _ _ h ↦ h) (fun _ _ h ↦ kept_grown h) fun _ _ _ _ h ↦ h

private theorem emit_returned_iff (h : s.listeners.WF) (e : RoomEvent) (args : List Arg) :
    (s.emit N b e args).2 = .returned ↔ ∀ n, s.Hears e n → (b n).ends = .returned := by
  have hr : ∀ (r : Registration RoomEvent Nat) (rs : List (Registration RoomEvent Nat)) (t : Room),
      True → True ∧ (react N b r.listener (Emitter.enter slot r t)).2 = (b r.listener).ends ∧
        (slot.read (react N b r.listener (Emitter.enter slot r t)).1).fired =
          (slot.read (Emitter.enter slot r t)).fired := by
    intro r rs t _
    refine ⟨True.intro, rfl, ?_⟩
    have hl := (stable_listeners (N := N) (Emitter.enter slot r t).listeners).react (b := b) rfl
      r.listener
    exact congrArg Emitter.fired hl
  have hi := Emitter.calls_returned_iff (fun n ↦ (b n).ends) (fun _ _ ↦ True)
    (fun _ _ _ _ ↦ rfl) hr (s := s.record (.emit e args)) True.intro (Emitter.pending_listening h e)
  rw [emit, Emitter.emit]
  apply hi.trans
  constructor
  · rintro hall n ⟨r, hr, hn⟩
    exact hn ▸ hall r hr
  · intro hall r hr
    exact hall r.listener ⟨r, hr, rfl⟩

-- How a listener of a participant ends, with the Room's listeners as they are.
private def endsOf (b : Behavior) (m : Emitter RoomEvent Nat) (e : TrackEvent) :
    ParticipantListener → Completion
  | .bubble => if ∀ r ∈ m.listening (.track e), (b r.listener).ends = .returned then .returned
    else .threw
  | .application n => (b n).ends

-- What holds before the listeners that are still to be called: the Room's own one is at most
-- once among them, and until it is called the Room's listeners are as they were.
private structure Calling (p : Nat) (m : Emitter RoomEvent Nat)
    (rs : List (Registration ParticipantEvent ParticipantListener)) (t : Room) : Prop where
  participant : ∃ x, t.participants[p]? = some x
  single : (rs.filter fun r ↦ decide (r.listener = .bubble)).length ≤ 1
  listeners : (∃ r ∈ rs, r.listener = .bubble) → t.listeners = m

private theorem calling_run {p : Nat} {m : Emitter RoomEvent Nat} (hm : m.WF) (e : TrackEvent)
    (args : List Arg) {r : Registration ParticipantEvent ParticipantListener}
    {rs : List (Registration ParticipantEvent ParticipantListener)}
    (h : Calling p m (r :: rs) t) :
    Calling p m rs (notify N b p (.track e) args r.listener t).1 ∧
      (notify N b p (.track e) args r.listener t).2 = endsOf b m e r.listener ∧
      (notify N b p (.track e) args r.listener t).1.participants[p]? = t.participants[p]? := by
  obtain ⟨x, hx⟩ := h.participant
  have hsingle := h.single
  cases hl : r.listener with
  | bubble =>
    have hlm := h.listeners ⟨r, List.mem_cons_self, hl⟩
    have hkeep : (t.emit N b (.track e) (args ++ [.participant p])).1.participants[p]? = some x :=
      (stable_participant p x).emit (fun _ _ h ↦ h) hx
    have hnone : ∀ r' ∈ rs, r'.listener ≠ .bubble := by
      intro r' hr' hl'
      rw [List.filter_cons_of_pos (by simp [hl]), List.length_cons] at hsingle
      have hmem : r' ∈ rs.filter fun r ↦ decide (r.listener = .bubble) := by simp [hr', hl']
      have hpos := List.length_pos_of_mem hmem
      omega
    refine ⟨⟨⟨x, hkeep⟩, ?_, fun ⟨r', hr', hl'⟩ ↦ absurd hl' (hnone r' hr')⟩, ?_,
      hkeep.trans hx.symm⟩
    · rw [List.filter_eq_nil_iff.mpr fun r' hr' ↦ by simp [hnone r' hr']]
      exact Nat.zero_le 1
    · have hi := emit_returned_iff (N := N) (b := b) (hlm ▸ hm) (.track e)
        (args ++ [.participant p])
      have hc : (t.emit N b (.track e) (args ++ [.participant p])).2 = .returned ↔
          ∀ r ∈ m.listening (.track e), (b r.listener).ends = .returned := by
        rw [hi]
        simp only [Hears, hlm, forall_exists_index, and_imp, forall_apply_eq_imp_iff₂]
      simp only [notify, endsOf]
      split
      · next hall => exact hc.mpr hall
      · next hall =>
        cases hc' : (t.emit N b (.track e) (args ++ [.participant p])).2 with
        | returned => exact absurd (hc.mp hc') hall
        | threw => rfl
  | application n =>
    have hkeep : (t.react N b n).1.participants[p]? = some x :=
      (stable_participant p x).react hx n
    have hlis : (t.react N b n).1.listeners = t.listeners :=
      (stable_listeners t.listeners).react rfl n
    rw [List.filter_cons_of_neg (by simp [hl])] at hsingle
    exact ⟨⟨⟨x, hkeep⟩, hsingle, fun ⟨r', hr', hl'⟩ ↦
      hlis.trans (h.listeners ⟨r', List.mem_cons_of_mem _ hr', hl'⟩)⟩, rfl, hkeep.trans hx.symm⟩

private theorem read_write {p : Nat} {x : RemoteParticipant} (hx : s.participants[p]? = some x)
    (m : Emitter ParticipantEvent ParticipantListener) :
    (participantSlot p).read ((participantSlot p).write s m) = m := by
  simp only [participantSlot]
  rw [Parties.getElem?_modify_of hx, if_pos rfl]
  rfl

private theorem read_congr {p : Nat} (h : s.participants[p]? = t.participants[p]?) :
    (participantSlot p).read s = (participantSlot p).read t := by
  simp only [participantSlot, h]

private theorem calling_enter {p : Nat} {m : Emitter RoomEvent Nat}
    {r : Registration ParticipantEvent ParticipantListener}
    {rs : List (Registration ParticipantEvent ParticipantListener)} (h : Calling p m rs t) :
    Calling p m rs (Emitter.enter (participantSlot p) r t) := by
  unfold Emitter.enter
  split
  · exact h
  · obtain ⟨x, hx⟩ := h.participant
    exact ⟨⟨_, Parties.getElem?_modify_of hx _⟩, h.single, h.listeners⟩

private theorem single_of_tuned {m : Emitter ParticipantEvent ParticipantListener} (h : Tuned m)
    (e : TrackEvent) :
    ((m.listening (.track e)).filter fun r ↦ decide (r.listener = .bubble)).length ≤ 1 := by
  have hand : ((m.listening (.track e)).filter fun r ↦ decide (r.listener = .bubble)) =
      m.registrations.filter fun r ↦ decide (r.event = .track e ∧ r.listener = .bubble) := by
    rw [Emitter.listening, List.filter_filter]
    simp only [Bool.decide_and, Bool.and_comm]
  rw [hand]
  cases h.bubble with
  | inl hb =>
    rw [hb e]
    exact Nat.le_refl 1
  | inr hb =>
    rw [List.filter_eq_nil_iff.mpr fun r hr ↦ by simp [hb r hr]]
    exact Nat.zero_le 1

private theorem emitParticipant_returned_iff (h : Wired N s) {p : Nat} {x : RemoteParticipant}
    (hx : s.participants[p]? = some x) (e : TrackEvent) (args : List Arg) :
    (s.emitParticipant N b p (.track e) args).2 = .returned ↔
      ∀ n, s.Reaches p e n → (b n).ends = .returned := by
  have ht := h.tuned p x hx
  have hread : ∀ entry : Entry, (participantSlot p).read (s.record entry) = x.listeners := by
    intro entry
    simp only [participantSlot, record, hx, Option.elim_some]
  have hw : ∀ rs t m, Calling p s.listeners rs t →
      (participantSlot p).read ((participantSlot p).write t m) = m := by
    intro rs t m hq
    obtain ⟨y, hy⟩ := hq.participant
    exact read_write hy m
  have hr : ∀ r rs t, Calling p s.listeners (r :: rs) t →
      let t' := Emitter.enter (participantSlot p) r t
      Calling p s.listeners rs (notify N b p (.track e) args r.listener t').1 ∧
        (notify N b p (.track e) args r.listener t').2 = endsOf b s.listeners e r.listener ∧
        ((participantSlot p).read (notify N b p (.track e) args r.listener t').1).fired =
          ((participantSlot p).read t').fired := by
    intro r rs t hq
    obtain ⟨hq', he, hp⟩ := calling_run (N := N) (b := b) h.listeners e args (calling_enter hq)
    exact ⟨hq', he, congrArg Emitter.fired (read_congr hp)⟩
  have hcalling : Calling p s.listeners (x.listeners.listening (.track e))
      (s.record (.raise (N.sid x.native) p (.track e) args)) :=
    ⟨⟨x, hx⟩, single_of_tuned ht e, fun _ ↦ rfl⟩
  have hpend : Emitter.Pending ((participantSlot p).read (s.record
      (.raise (N.sid x.native) p (.track e) args))) (x.listeners.listening (.track e)) := by
    rw [hread]
    exact Emitter.pending_listening ht.wf (.track e)
  have hi := Emitter.calls_returned_iff (endsOf b s.listeners e) (Calling p s.listeners) hw hr
    hcalling hpend
  have hemit : s.emitParticipant N b p (.track e) args = Emitter.calls (participantSlot p)
      (notify N b p (.track e) args) (x.listeners.listening (.track e))
      (s.record (.raise (N.sid x.native) p (.track e) args)) := by
    simp only [emitParticipant, Emitter.emit, hread, hx, Option.elim_some]
  rw [hemit, hi]
  constructor
  · rintro hall n ⟨x', hx', r, hr, hn⟩
    rw [hx] at hx'
    cases hx'
    have he := hall r hr
    rcases hn with hn | ⟨hn, r', hr', rfl⟩
    · rw [hn] at he
      exact he
    · rw [hn, endsOf] at he
      split at he
      · next hroom => exact hroom r' hr'
      · cases he
  · intro hall r hr
    cases hl : r.listener with
    | application n => exact hall n ⟨x, hx, r, hr, .inl hl⟩
    | bubble =>
      rw [endsOf, if_pos]
      exact fun r' hr' ↦ hall r'.listener ⟨x, hx, r, hr, .inr ⟨hl, r', hr', rfl⟩⟩

/-- The wrapper `trackUnsubscribed` is about: the one its listeners get, or the one that was
cached where none can be made. -/
def subject (N : Natives) (wrapCalls : Nat → EndCalls) (s : Room) (n : NativeTrack) :
    Option Nat :=
  match (s.wrapTrack N wrapCalls n).2 with
  | .ok w => some w
  | .error _ => s.tracks.registry.get (N.trackSid n)

/-- The clean-up behind `trackUnsubscribed` is done. -/
def Unsubscribed (N : Natives) (wrapCalls : Nat → EndCalls) (s : Room) (n : NativeTrack)
    (t : Room) : Prop :=
  t.tracks.registry.get (N.trackSid n) = none ∧ ∀ (w : Nat) (x : RemoteTrack),
    subject N wrapCalls s n = some w → t.tracks.tracks[w]? = some x → x.idle = true

/-- The clean-up behind `participantDisconnected` is done. -/
def Departed (N : Natives) (s : Room) (n : NativeParticipant) (t : Room) : Prop :=
  t.remoteParticipantCache.get (N.sid n) = none ∧ ∃ x,
    t.participants[(s.wrapRemoteParticipant N n).2]? = some x ∧ x.disposed = true

private theorem stable_registry (r : JsMap String Nat) :
    Stable N fun s ↦ s.tracks.registry = r :=
  .of_grown (fun _ _ h ↦ h) (fun _ _ h ↦ h) fun _ _ _ _ h ↦ h

-- The registry after the listeners: the wrapper they got is still the one that is cached.
private theorem released (h : Wired N t) {k : String} {w : Nat} (calls : Nat → EndCalls)
    (hw : t.tracks.registry.get k = some w) :
    (t.releaseTrack N calls w).1.tracks.registry.get k = none ∧ ∀ x : RemoteTrack,
      (t.releaseTrack N calls w).1.tracks.tracks[w]? = some x → x.idle = true := by
  obtain ⟨x, hx, hsid, -⟩ := h.law.cached k w hw
  have hsid : (t.tracks.tracks[w]?).map (fun t ↦ N.trackSid t.native) = some k := by
    rw [hx]
    exact hsid
  simp only [releaseTrack, hsid]
  exact ⟨TrackRegistry.get_releaseRemoteTrack t.tracks k,
    fun y hy ↦ TrackRegistry.idle_releaseRemoteTrack hw hy⟩

private theorem unsubscribed_iff (h : Wired N s) {p : Nat} {x : RemoteParticipant}
    (hx : s.participants[p]? = some x) (wrapCalls releaseCalls : Nat → EndCalls)
    (n : NativeTrack) (publication : Payload) :
    Unsubscribed N wrapCalls s n
        (s.onTrackUnsubscribed N b wrapCalls releaseCalls p n publication).1 ↔
      (∃ error, (s.wrapTrack N wrapCalls n).2 = .error error) ∨
        ∀ l, s.Reaches p .trackUnsubscribed l → (b l).ends = .returned := by
  have hwrap := TrackRegistry.wrapped wrapCalls h.law n
  have hwired := wired_wrapTrack h wrapCalls n
  have hk : N.trackSid? n = some (N.trackSid n) := rfl
  cases hr : (s.wrapTrack N wrapCalls n).2 with
  | error error =>
    have hwr : s.wrapTrack N wrapCalls n = ((s.wrapTrack N wrapCalls n).1, .error error) := by
      rw [← hr]
    simp only [Unsubscribed, subject, hr, onTrackUnsubscribed]
    rw [hwr]
    refine ⟨fun _ ↦ .inl ⟨error, rfl⟩, fun _ ↦ ⟨hwrap.get_of_error hr hk, fun w y hw hy ↦ ?_⟩⟩
    exact hwrap.idle_of_error hr hk hw hy
  | ok w =>
    have hwr : s.wrapTrack N wrapCalls n = ((s.wrapTrack N wrapCalls n).1, .ok w) := by
      rw [← hr]
    have hcached : (s.wrapTrack N wrapCalls n).1.tracks.registry.get (N.trackSid n) = some w :=
      hwrap.get_of_ok hr hk
    simp only [Unsubscribed, subject, hr, onTrackUnsubscribed]
    rw [hwr]
    generalize hs₁ : (s.wrapTrack N wrapCalls n).1 = s₁ at hwired hcached
    have hx₁ : s₁.participants[p]? = some x := by
      rw [← hs₁]
      exact hx
    have hreach : ∀ l, s₁.Reaches p .trackUnsubscribed l ↔ s.Reaches p .trackUnsubscribed l := by
      intro l
      rw [← hs₁]
      rfl
    have hret := emitParticipant_returned_iff (b := b) hwired hx₁ .trackUnsubscribed
      [.track w, .publication publication]
    have hwired' : Wired N (s₁.emitParticipant N b p (.track .trackUnsubscribed)
      [.track w, .publication publication]).1 := wired_emitParticipant hwired p _ _
    have hreg : (s₁.emitParticipant N b p (.track .trackUnsubscribed)
        [.track w, .publication publication]).1.tracks.registry = s₁.tracks.registry :=
      (stable_registry s₁.tracks.registry).emitParticipant (fun _ _ h ↦ h) (fun _ _ _ h ↦ h)
        (fun _ _ _ h ↦ h) rfl
    simp only [hreach] at hret
    dsimp only
    generalize s₁.emitParticipant N b p (.track .trackUnsubscribed)
      [.track w, .publication publication] = r at hret hwired' hreg ⊢
    obtain ⟨t, c⟩ := r
    rw [← hreg] at hcached
    cases c with
    | threw =>
      simp only [reduceCtorEq, false_iff] at hret
      constructor
      · rintro ⟨hnone, -⟩
        rw [hcached] at hnone
        cases hnone
      · rintro (⟨error, he⟩ | hall)
        · cases he
        · exact absurd hall hret
    | returned =>
      simp only [true_iff] at hret
      obtain ⟨hnone, hidle⟩ := released hwired' releaseCalls hcached
      refine ⟨fun _ ↦ .inr hret, fun _ ↦ ⟨hnone, fun w' y hw' hy ↦ ?_⟩⟩
      cases hw'
      exact hidle y hy

private theorem departed_forget (h : Wired N t) {k : String} {p : Nat}
    (hp : t.remoteParticipantCache.get k = some p) :
    (t.forget N p).remoteParticipantCache.get k = none ∧
      ∃ x, (t.forget N p).participants[p]? = some x ∧ x.disposed = true := by
  obtain ⟨x, hx, hk⟩ := h.cached k p hp
  refine ⟨?_, _, Parties.getElem?_modify_of hx _, by rw [if_pos rfl]⟩
  simp only [forget, hx, Option.elim_some, hk, disposeParticipant, JsMap.get_delete, if_pos]

private theorem departed_iff (h : Wired N s) (n : NativeParticipant) :
    Departed N s n (s.onPresenceEvent N b .participantDisconnected (some n)).1 ↔
      ∀ l, s.Hears (.presence .participantDisconnected) l → (b l).ends = .returned := by
  have hw := stable_wired.wrap s n h
  have hc := cached_wrap (N := N) s n
  have hl := (stable_listeners (N := N) s.listeners).wrap s n rfl
  simp only [Departed, onPresenceEvent]
  generalize s.wrapRemoteParticipant N n = r at hw hc hl ⊢
  obtain ⟨s', p⟩ := r
  have hw : Wired N s' := hw
  have hret := emit_returned_iff (N := N) (b := b) hw.listeners
    (.presence .participantDisconnected) [.participant p]
  have hw' : Wired N (s'.emit N b (.presence .participantDisconnected) [.participant p]).1 :=
    wired_emit hw _ _
  have hc' : (s'.emit N b (.presence .participantDisconnected)
      [.participant p]).1.remoteParticipantCache.get (N.sid n) = some p :=
    (stable_cached (N.sid n) p).emit (fun _ _ h ↦ h) hc
  have hl : s'.listeners = s.listeners := hl
  simp only [Hears, hl] at hret
  dsimp only
  generalize s'.emit N b (.presence .participantDisconnected) [.participant p] = r
    at hret hw' hc' ⊢
  obtain ⟨t, c⟩ := r
  cases c with
  | threw =>
    simp only [reduceCtorEq, false_iff] at hret
    constructor
    · rintro ⟨hnone, _⟩
      rw [hc'] at hnone
      cases hnone
    · intro hall
      exact absurd hall hret
  | returned =>
    simp only [true_iff] at hret
    exact ⟨fun _ ↦ hret, fun _ ↦ departed_forget hw' hc'⟩

/-- The clean-up behind an event is done exactly where no listener of the application that the
event reaches throws. Where no wrapper can be made for the track of a `trackUnsubscribed`, nothing
is emitted, and the registry has forgotten the track. -/
theorem cleanup_iff (h : (machine N).Reachable s) :
    (∀ m p n publication b wrapCalls releaseCalls t, s.eventCallbacks.get m = some p →
      s.step N (.participant m (.trackUnsubscribed n publication) b wrapCalls releaseCalls) =
        some t →
      (Unsubscribed N wrapCalls s n t ↔
        (∃ error, (s.wrapTrack N wrapCalls n).2 = .error error) ∨
          ∀ l, s.Reaches p .trackUnsubscribed l → (b l).ends = .returned)) ∧
    ∀ n b releaseCalls t,
      s.step N (.room (.presence .participantDisconnected (some n)) b releaseCalls) = some t →
      (Departed N s n t ↔
        ∀ l, s.Hears (.presence .participantDisconnected) l → (b l).ends = .returned) := by
  have hw := wired_reachable h
  constructor
  · intro m p n publication b wrapCalls releaseCalls t hp hs
    obtain ⟨x, hx⟩ := hw.called m p hp
    simp only [step, hp, Option.map_some, Option.some.injEq] at hs
    subst hs
    exact unsubscribed_iff hw hx wrapCalls releaseCalls n publication
  · intro n b releaseCalls t hs
    cases hs
    exact departed_iff hw n

-- One participant, whose track is received, and a listener that throws or returns.
private def oneNative : Natives := ⟨fun _ ↦ "PA0", fun _ ↦ "MT0", fun _ ↦ .video⟩

private def reacting (ends : Completion) : Behavior := fun _ ↦ ⟨[], ends⟩

private def receivingRun : List Act :=
  [.room (.connected [0]) (reacting .returned) fun _ ↦ .returning,
    .participant 0 (.trackSubscribed 5 6) (reacting .returned) (fun _ ↦ .returning)
      fun _ ↦ .returning,
    .use (.frames 0 .undefined (.ok ())),
    .listenParticipant 0 .on (.track .trackUnsubscribed) 7,
    .listen .on (.presence .participantDisconnected) 7]

private def unsubscribing (ends : Completion) : Act :=
  .participant 0 (.trackUnsubscribed 5 6) (reacting ends) (fun _ ↦ .returning) fun _ ↦ .returning

private def leaving (ends : Completion) : Act :=
  .room (.presence .participantDisconnected (some 0)) (reacting ends) fun _ ↦ .returning

private theorem receivingRun_runs (a : Act) {g : Room → Option Nat × Option Bool × Option Nat}
    {v : Option Nat × Option Bool × Option Nat}
    (h : (((machine oneNative).exec (machine oneNative).init receivingRun).bind
      fun s ↦ (s.step oneNative a).map g) = some v) :
    ∃ s t, (machine oneNative).exec (machine oneNative).init receivingRun = some s ∧
      s.step oneNative a = some t ∧ g t = v := by
  obtain ⟨s, hs, h⟩ := Option.bind_eq_some_iff.mp h
  obtain ⟨t, ht, hg⟩ := Option.map_eq_some_iff.mp h
  exact ⟨s, t, hs, ht, hg⟩

-- What the registry and the cache hold, and whether the receiver has ended.
private def held (t : Room) : Option Nat × Option Bool × Option Nat :=
  (t.tracks.registry.get "MT0", (t.tracks.tracks[0]?).map RemoteTrack.idle,
    t.remoteParticipantCache.get "PA0")

/-- A listener of `trackUnsubscribed` that throws leaves the receiver running and the track in the
registry, and one of `participantDisconnected` leaves the participant in the cache. -/
theorem cleanup_skipped :
    (∃ s t, (machine oneNative).Reachable s ∧ s.step oneNative (unsubscribing .threw) = some t ∧
      t.tracks.registry.get "MT0" = some 0 ∧
      (t.tracks.tracks[0]?).map RemoteTrack.idle = some false ∧
      ¬Unsubscribed oneNative (fun _ ↦ .returning) s 5 t) ∧
    ∃ s t, (machine oneNative).Reachable s ∧ s.step oneNative (leaving .threw) = some t ∧
      t.remoteParticipantCache.get "PA0" = some 0 ∧ ¬Departed oneNative s 0 t := by
  constructor
  · obtain ⟨s, t, hs, ht, hg⟩ := receivingRun_runs (unsubscribing .threw) (g := held)
      (v := (some 0, some false, some 0)) (by decide +kernel)
    simp only [held, Prod.mk.injEq] at hg
    refine ⟨s, t, ⟨_, hs⟩, ht, hg.1, hg.2.1, fun hu ↦ ?_⟩
    have hn : t.tracks.registry.get "MT0" = none := hu.1
    rw [hg.1] at hn
    cases hn
  · obtain ⟨s, t, hs, ht, hg⟩ := receivingRun_runs (leaving .threw) (g := held)
      (v := (some 0, some false, some 0)) (by decide +kernel)
    simp only [held, Prod.mk.injEq] at hg
    refine ⟨s, t, ⟨_, hs⟩, ht, hg.2.2, fun hd ↦ ?_⟩
    have hn : t.remoteParticipantCache.get "PA0" = none := hd.1
    rw [hg.2.2] at hn
    cases hn

/-- `cleanup_iff` where the listener returns. -/
theorem cleanup_iff_returning :
    (∃ s t, (machine oneNative).exec (machine oneNative).init receivingRun = some s ∧
      s.step oneNative (unsubscribing .returned) = some t ∧
      Unsubscribed oneNative (fun _ ↦ .returning) s 5 t) ∧
    ∃ s t, (machine oneNative).exec (machine oneNative).init receivingRun = some s ∧
      s.step oneNative (leaving .returned) = some t ∧ Departed oneNative s 0 t := by
  constructor
  · obtain ⟨s, t, hs, ht, -⟩ := receivingRun_runs (unsubscribing .returned) (g := held)
      (v := (none, some true, some 0)) (by decide +kernel)
    have hp : ((machine oneNative).exec (machine oneNative).init receivingRun).bind
        (fun s ↦ s.eventCallbacks.get 0) = some 0 := by decide +kernel
    rw [hs, Option.bind_some] at hp
    exact ⟨s, t, hs, ht, ((cleanup_iff ⟨_, hs⟩).1 0 0 5 6 _ _ _ t hp ht).mpr
      (.inr fun _ _ ↦ rfl)⟩
  · obtain ⟨s, t, hs, ht, -⟩ := receivingRun_runs (leaving .returned) (g := held)
      (v := (some 0, some false, none)) (by decide +kernel)
    exact ⟨s, t, hs, ht, ((cleanup_iff ⟨_, hs⟩).2 0 _ _ t ht).mpr fun _ _ ↦ rfl⟩

end Room

end VideoNode.Participants
