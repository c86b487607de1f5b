import VideoNode.Remote.Coherence
import VideoNode.Remote.Logs

/-!
# What a step does to queues and logs

Every step of a Room is one of eight effects on the Room's queue, the Room callbacks raised so
far and the logs of its participants. What the invariants of the logs need to know of a step is
said here once.
-/

namespace VideoNode.Remote

open VideoNode.Common VideoNode.Lts VideoNode.Js

namespace Room

variable {Sid : Type} [DecidableEq Sid] {sid : Handle → Sid}

/-- A change in which nothing is raised, queued or started: every participant changes calmly, one
with a SID of its own is not superseded, and whoever gets a first observer gets a wrap as well,
except for the one named. -/
structure Quiet (sid : Handle → Sid) (named : Option Handle) (s s' : Room Sid) : Prop where
  calm : ∀ p, (s.participant p).Calm (s'.participant p)
  sole : ∀ p, Sole sid p → (s'.participant p).superseded = (s.participant p).superseded
  wrapped : ∀ p, named ≠ some p → (s.participant p).observers = [] →
    (s'.participant p).observers ≠ [] → (s'.participant p).wraps ≠ []
  context : s'.context = s.context
  raised : s'.raised = s.raised

namespace Quiet

variable {named : Option Handle} {s s' s'' : Room Sid} {p : Handle}

omit [DecidableEq Sid] in
/-- No change at all. -/
theorem refl (s : Room Sid) : Quiet sid named s s :=
  ⟨fun _ ↦ .refl _, fun _ _ ↦ rfl, fun _ _ hn h ↦ absurd hn h, rfl, rfl⟩

omit [DecidableEq Sid] in
/-- One quiet change after another. -/
theorem trans (h : Quiet sid named s s') (h' : Quiet sid named s' s'') : Quiet sid named s s'' where
  calm p := (h.calm p).trans (h'.calm p)
  sole p hp := (h'.sole p hp).trans (h.sole p hp)
  wrapped p hp hn hne := by
    by_cases hm : (s'.participant p).observers = []
    · exact h'.wrapped p hp hm hne
    · exact (h'.calm p).wraps_ne_nil (h.wrapped p hp hn hm)
  context := h'.context.trans h.context
  raised := h'.raised.trans h.raised

omit [DecidableEq Sid] in
/-- Naming somebody asks for less. -/
theorem weaken (h : Quiet sid none s s') : Quiet sid named s s' :=
  ⟨h.calm, h.sole, fun p _ ↦ h.wrapped p (by simp), h.context, h.raised⟩

omit [DecidableEq Sid] in
/-- Nobody has to be named who got a wrap. -/
theorem strengthen (h : Quiet sid (some p) s s') (hw : (s'.participant p).wraps ≠ []) :
    Quiet sid none s s' := by
  refine ⟨h.calm, h.sole, ?_, h.context, h.raised⟩
  intro q _ hn hne
  by_cases hq : p = q
  · subst hq
    exact hw
  · exact h.wrapped q (by simpa using hq) hn hne

omit [DecidableEq Sid] in
/-- A calm change of one participant. -/
theorem modify (f : Participant → Participant) (h : (s.participant p).Calm (f (s.participant p)))
    (hg : Sole sid p → (f (s.participant p)).superseded = (s.participant p).superseded)
    (hw : named ≠ some p → (s.participant p).observers = [] →
      (f (s.participant p)).observers ≠ [] → (f (s.participant p)).wraps ≠ []) :
    Quiet sid named s (s.modify p f) := by
  have key : ∀ q, (q = p ∧ (s.modify p f).participant q = f (s.participant p)) ∨
      (s.modify p f).participant q = s.participant q := by
    intro q
    by_cases hq : q = p
    · subst hq
      exact .inl ⟨rfl, participant_modify_self s q f⟩
    · exact .inr (participant_modify_of_ne s f hq)
  refine ⟨?_, ?_, ?_, rfl, rfl⟩ <;> intro q <;> rcases key q with ⟨rfl, he⟩ | he <;> rw [he]
  · exact h
  · exact .refl _
  · exact hg
  · exact fun _ ↦ rfl
  · exact hw
  · exact fun _ hn hne ↦ absurd hn hne

end Quiet

private theorem quiet_mention {s s' : Room Sid} {p : Handle} (ht : Typed sid s)
    (h : mention sid s p = some s') : Quiet sid none s s' := by
  obtain ⟨-, hm⟩ := mentioned h
  cases hm with
  | again hh => exact .refl s
  | first hh => exact ⟨fun _ ↦ .refl _, fun _ _ ↦ rfl, fun _ _ hn h ↦ absurd hn h, rfl, rfl⟩
  | @supersedes q hh hq =>
    have hmod : Quiet sid none s (s.modify q fun x ↦ { x with superseded := true }) := by
      refine .modify (fun x ↦ { x with superseded := true }) (.supersede _) ?_
        fun _ hn h ↦ absurd hn h
      -- Only somebody of the same SID supersedes.
      intro hsole
      exact absurd (hsole p (ht.reported _ _ hh).symm).symm hq
    exact ⟨hmod.calm, hmod.sole, hmod.wrapped, rfl, rfl⟩

private theorem quiet_observed {s : Room Sid} {p : Handle} {r : Room Sid × Nat}
    (hg : (s.participant p).gone = false) (hr : Observed sid s p r) :
    Quiet sid (some p) s r.1 := by
  cases hr with
  | registered hr ho => exact .refl s
  | installed hr hm =>
    have hmod : Quiet sid (some p) s (s.modify p Participant.createObserver) :=
      .modify _ (.createObserver hg) (fun _ ↦ rfl) fun hn ↦ absurd rfl hn
    exact ⟨hmod.calm, hmod.sole, hmod.wrapped, rfl, rfl⟩

private theorem quiet_wrapped {s s' : Room Sid} {native : Handle × Nat}
    (hw : Wrapped sid s native s') : Quiet sid none s s' := by
  cases hw with
  | found hr => exact .refl s
  | made hr =>
    have hmod : Quiet sid none s (s.modify native.1 fun x ↦ x.setEventCallback native.2) :=
      .modify _ (.setEventCallback _ _) (fun _ ↦ rfl) fun _ hn h ↦ absurd hn h
    exact ⟨hmod.calm, hmod.sole, hmod.wrapped, rfl, rfl⟩

private theorem instanced_frame {x x' : Participant} {o : Nat}
    (h : Participant.Instanced x o x') : x'.superseded = x.superseded ∧ x'.wraps ≠ [] := by
  cases h <;> simp

private theorem quiet_hand (s : Room Sid) (p : Handle) (o : Nat) (m : JsMap Sid (Handle × Nat)) :
    Quiet sid none s (hand sid s p o m) ∧ ((hand sid s p o m).participant p).wraps ≠ [] := by
  have hi := Participant.instanced (s.participant p) o
  have hkeep := instanced_frame hi
  have hmod : Quiet sid none s (s.modify p fun x ↦ x.newInstance o) :=
    .modify _ (.instanced hi) (fun _ ↦ hkeep.1) fun _ _ _ ↦ hkeep.2
  have hm : Quiet sid none s { (s.newInstance p o).1 with participantCache := m } :=
    ⟨hmod.calm, hmod.sole, hmod.wrapped, rfl, rfl⟩
  have hw : Quiet sid none { (s.newInstance p o).1 with participantCache := m }
      (hand sid s p o m) := quiet_wrapped (wrapped _ _)
  refine ⟨hm.trans hw, (hw.calm p).wraps_ne_nil ?_⟩
  simpa [newInstance] using hkeep.2

private theorem quiet_handed {s s' : Room Sid} {p : Handle} {o : Nat}
    {m : JsMap Sid (Handle × Nat)} (h : Quiet sid (some p) s s') :
    Quiet sid none s (hand sid s' p o m) := by
  obtain ⟨hh, hw⟩ := quiet_hand s' p o m
  exact (h.trans hh.weaken).strengthen hw

private theorem gone_mention {s s' : Room Sid} {p : Handle} (h : mention sid s p = some s') :
    (s'.participant p).gone = false := by
  obtain ⟨hg, hm⟩ := mentioned h
  cases hm with
  | again hh => exact hg
  | first hh => exact hg
  | supersedes hh hq =>
    have he := participant_modify_of_ne s (fun x ↦ { x with superseded := true }) (Ne.symm hq)
    exact (congrArg Participant.gone he).trans hg

private theorem quiet_read {s s' : Room Sid} {p : Handle} (ht : Typed sid s)
    (h : Read sid s p s') : Quiet sid none s s' := by
  cases h with
  | cached hm hc hw => exact (quiet_mention ht hm).trans (quiet_wrapped hw)
  | made hm hc hr =>
    exact quiet_handed ((quiet_mention ht hm).weaken.trans (quiet_observed (gone_mention hm) hr))

private theorem quiet_entries {s s' : Room Sid} {l : List Handle} (ht : Typed sid s)
    (hx : (entries sid).exec s l = some s') : Quiet sid none s s' := by
  have hb : Typed sid s' ∧ Quiet sid none s s' := by
    refine Machine.exec_invariant (m := entries sid)
      (p := fun s' ↦ Typed sid s' ∧ Quiet sid none s s') ?_ ⟨ht, .refl s⟩ hx
    rintro s₁ p s₂ ⟨ht, hq⟩ hs
    have hr := readParticipant_cases hs
    exact ⟨typed_read ht hr, hq.trans (quiet_read ht hr)⟩
  exact hb.2

private theorem quiet_readDominantSpeaker {s s' : Room Sid} {p : Handle} (ht : Typed sid s)
    (h : readDominantSpeaker sid s p = some s') : Quiet sid none s s' := by
  obtain ⟨s₁, hm, rfl⟩ := Option.map_eq_some_iff.mp h
  exact quiet_handed
    ((quiet_mention ht hm).weaken.trans (quiet_observed (gone_mention hm) (observed s₁ p)))

/-- What a step does to queues and logs. -/
inductive Effect (sid : Handle → Sid) (s s' : Room Sid) : Prop where
  /-- Nothing, however observers, wraps and caches change. -/
  | quiet {c : Traffic Task} (hq : Quiet sid none { s with context := c } s')
      (ha : c.accepted = s.context.accepted) (hst : c.started = s.context.started)
  /-- A callback on the Room's queue starts. -/
  | starts {c : Traffic Task} {task : Task} (hq : Quiet sid none { s with context := c } s')
      (ht : task ∈ s.context.accepted) (ha : c.accepted = s.context.accepted)
      (hst : c.started = s.context.started ++ [task])
  /-- A Room callback other than `onParticipantDisconnected` puts its event on the queue. -/
  | dispatches {s₁ : Room Sid} {event : RoomEvent} {o : Option Nat}
      (hq : Quiet sid event.participant s s₁) (he : ∀ p, event ≠ .participantDisconnected p)
      (hp : s'.participant = s₁.participant)
      (ha : s'.context.accepted = s.context.accepted ++ [⟨s.raised.length, event, o⟩])
      (hst : s'.context.started = s.context.started) (hr : s'.raised = s.raised ++ [event])
  /-- As before, and the participant is announced. -/
  | announces {s₁ : Room Sid} {p : Handle} {o : Option Nat} (hq : Quiet sid (some p) s s₁)
      (hne : (s₁.participant p).observers ≠ []) (hg : (s₁.participant p).gone = false)
      (hp : s'.participant = (s₁.modify p fun x ↦
        { x with connectedAt := x.connectedAt.or (some x.raised) }).participant)
      (ha : s'.context.accepted = s.context.accepted ++
        [⟨s.raised.length, .participantConnected p, o⟩])
      (hst : s'.context.started = s.context.started)
      (hr : s'.raised = s.raised ++ [.participantConnected p])
  /-- The last callback about a participant enqueues a hop. -/
  | parts {s₁ : Room Sid} {p : Handle} {o : Nat} {x : Participant}
      (hq : Quiet sid (some p) s s₁) (ht : (s₁.participant p).Sane)
      (hg : (s₁.participant p).gone = false) (ho : (s₁.participant p).isObserverClosed o = false)
      (hx : Participant.Enqueued (s₁.participant p) o (.raw s.raised.length) x)
      (hp : s'.participant = (s₁.modify p fun _ ↦
        { x with disconnectedAt := some (s₁.participant p).raised }).participant)
      (hc : s'.context = s.context) (hr : s'.raised = s.raised ++ [.participantDisconnected p])
  /-- An event is raised on a participant. -/
  | raises {p : Handle} (hp : s'.participant = (s.modify p Participant.raise).participant)
      (hc : s'.context = s.context) (hr : s'.raised = s.raised)
  /-- A step of the `drain()` of a wrap. -/
  | turns {p : Handle} {j : Nat} {t : Turn} {x : Participant}
      (hx : Participant.Turned (s.participant p) j t x none)
      (hp : s'.participant = (s.modify p fun _ ↦ x).participant)
      (hc : s'.context = s.context) (hr : s'.raised = s.raised)
  /-- A step of the `drain()` of a wrap that starts a hop onto the Room's queue. -/
  | hops {p : Handle} {j : Nat} {t : Turn} {x : Participant} {i o : Nat}
      (hx : Participant.Turned (s.participant p) j t x (some (i, o)))
      (hp : s'.participant = (s.modify p fun _ ↦ x).participant)
      (ha : s'.context.accepted = s.context.accepted ++ [⟨i, .participantDisconnected p, some o⟩])
      (hst : s'.context.started = s.context.started) (hr : s'.raised = s.raised)

omit [DecidableEq Sid] in
private theorem effect_of_quiet {s s' : Room Sid} (hq : Quiet sid none s s') : Effect sid s s' :=
  .quiet (c := s.context) hq rfl rfl

private theorem effect_turn {s s' : Room Sid} {t : Turn} {l : List Handle} (ht : Typed sid s)
    (hd : Drains sid s t l s') : Effect sid s s' := by
  cases hd with
  | @starts c task s' hc hst hd =>
    obtain ⟨ha, hcs, -, -⟩ := Traffic.step_turn hc
    refine .starts ?_ (ht.accepted_of_started hc hst) ha (by rw [hcs, hst]; rfl)
    cases hd with
    | seeded he hx => exact quiet_entries (typed_context ht hc) hx
    | handed hp ho hm => exact (quiet_hand _ _ _ _).1
    | ignored hp => exact .refl _
  | @ends c task rest hc hst hd =>
    obtain ⟨ha, hcs, -, -⟩ := Traffic.step_turn hc
    refine .quiet ?_ ha (by rw [hcs, hst]; simp)
    unfold afterEmit
    split
    · exact ⟨fun _ ↦ .refl _, fun _ _ ↦ rfl, fun _ _ hn h ↦ absurd hn h, rfl, rfl⟩
    · exact .refl _
  | moves hc hst =>
    obtain ⟨ha, hcs, -, -⟩ := Traffic.step_turn hc
    exact .quiet (.refl _) ha (by rw [hcs, hst]; simp)

omit [DecidableEq Sid] in
private theorem dispatchEvent_frame {s : Room Sid}
    (hr : (Traffic.machine Task 0).Reachable s.context)
    (ho : s.context.loop.ctx.closed = false) (event : RoomEvent) (o : Option Nat) :
    (s.dispatchEvent event o).participant = s.participant ∧
    (s.dispatchEvent event o).context.accepted =
      s.context.accepted ++ [⟨s.raised.length, event, o⟩] ∧
    (s.dispatchEvent event o).context.started = s.context.started ∧
    (s.dispatchEvent event o).raised = s.raised ++ [event] := by
  obtain ⟨c, he, -, ha, hst, -, -⟩ := dispatch_eq hr ho ⟨s.raised.length, event, o⟩
  simp only [dispatchEvent, he]
  exact ⟨trivial, ha, hst, trivial⟩

private theorem effect_dispatchEvent {s : Room Sid} {event : RoomEvent} {o : Option Nat}
    (ht : Typed sid s) (he : ∀ p, event ≠ .participantDisconnected p) :
    Effect sid s (s.dispatchEvent event o) := by
  obtain ⟨hp, ha, hst, hr⟩ := dispatchEvent_frame ht.context ht.isOpen event o
  exact .dispatches (.refl s) he hp ha hst hr

private theorem quiet_reported {s s₁ : Room Sid} {p : Handle} (ht : Typed sid s)
    (hm : mention sid s p = some s₁) {r : Room Sid × Nat} (hr : Observed sid s₁ p r) :
    Quiet sid (some p) s r.1 ∧ Typed sid r.1 ∧ (r.1.participant p).observers ≠ [] ∧
      (r.1.participant p).gone = false := by
  obtain ⟨ht₁, hg, hh⟩ := typed_mention ht hm
  obtain ⟨ht₂, hlt⟩ := typed_observed ht₁ hh hr
  refine ⟨(quiet_mention ht hm).weaken.trans (quiet_observed hg hr), ht₂, ?_, observed_gone hg hr⟩
  intro hn
  simp [hn] at hlt

private theorem effect_dispatchParticipantEvent {s s₁ : Room Sid} {p : Handle} {event : RoomEvent}
    (ht : Typed sid s) (hm : mention sid s p = some s₁) (hp : event.participant = some p)
    (he : ∀ p, event ≠ .participantDisconnected p) :
    Effect sid s (dispatchParticipantEvent sid s₁ p event) := by
  have hr : Observed sid s₁ p _ := observed s₁ p
  unfold dispatchParticipantEvent
  generalize getOrCreateParticipantObserver sid s₁ p = r at hr
  obtain ⟨hq, htr, -, -⟩ := quiet_reported ht hm hr
  obtain ⟨hps, ha, hst, hrs⟩ := dispatchEvent_frame htr.context htr.isOpen event (some r.2)
  rw [hq.context, hq.raised] at ha
  rw [hq.context] at hst
  rw [hq.raised] at hrs
  exact .dispatches (hp ▸ hq) he hps ha hst hrs

private theorem effect_onParticipantConnected {s s₁ : Room Sid} {p : Handle} (ht : Typed sid s)
    (hm : mention sid s p = some s₁) : Effect sid s (onParticipantConnected sid s₁ p) := by
  have hr : Observed sid s₁ p _ := observed s₁ p
  unfold onParticipantConnected dispatchParticipantEvent
  generalize getOrCreateParticipantObserver sid s₁ p = r at hr
  obtain ⟨hq, htr, hne, hg⟩ := quiet_reported ht hm hr
  obtain ⟨hps, ha, hst, hrs⟩ :=
    dispatchEvent_frame htr.context htr.isOpen (.participantConnected p) (some r.2)
  rw [hq.context, hq.raised] at ha
  rw [hq.context] at hst
  rw [hq.raised] at hrs
  refine .announces hq hne hg ?_ ha hst hrs
  simp only [modify, hps]

private theorem effect_onParticipantDisconnected {s s₁ : Room Sid} {p : Handle} (ht : Typed sid s)
    (hm : mention sid s p = some s₁) : Effect sid s (onParticipantDisconnected sid s₁ p) := by
  have hr : Observed sid s₁ p _ := observed s₁ p
  unfold onParticipantDisconnected
  generalize getOrCreateParticipantObserver sid s₁ p = r at hr
  obtain ⟨hq, htr, -, hg⟩ := quiet_reported ht hm hr
  have hraised : s₁.raised = s.raised := (mention_frame hm).2.2.2
  have ho : (r.1.participant p).isObserverClosed r.2 = false := by
    cases hr with
    | registered hr ho => exact ho
    | installed hr hm => simp [Participant.createObserver, Participant.isObserverClosed]
  have hx := Participant.enqueued (htr.sane p).law.binding r.2 (.raw s.raised.length)
  refine .parts hq (htr.sane p) hg ho hx ?_ hq.context ?_
  · rw [← hraised]
    rfl
  · rw [← hraised]

/-- Every step has one of these effects. -/
theorem effect_of_step {s s' : Room Sid} {a : RoomAct} (ht : Typed sid s)
    (hs : step sid s a = some s') : Effect sid s s' := by
  cases a with
  | onConnected existing =>
    cases hs
    obtain ⟨hps, ha, hst, hrs⟩ := dispatchEvent_frame (s := { s with
      participant := fun p ↦
        if p ∈ existing then
          { s.participant p with
            presentAt := (s.participant p).presentAt.or (some (s.participant p).raised) }
        else s.participant p }) ht.context ht.isOpen .connected none
    refine Effect.dispatches ?_ (by simp) hps ha hst hrs
    refine ⟨?_, ?_, ?_, rfl, rfl⟩ <;> intro p <;> simp only
    all_goals split
    · exact .presentAt _ _
    · exact .refl _
    · exact fun _ ↦ rfl
    · exact fun _ ↦ rfl
    · exact fun _ hn hne ↦ absurd hn hne
    · exact fun _ hn hne ↦ absurd hn hne
  | onParticipantConnected p =>
    obtain ⟨s₁, hm, rfl⟩ := Option.map_eq_some_iff.mp hs
    exact effect_onParticipantConnected ht hm
  | onParticipantDisconnected p =>
    obtain ⟨s₁, hm, rfl⟩ := Option.map_eq_some_iff.mp hs
    exact effect_onParticipantDisconnected ht hm
  | onParticipantReconnecting p =>
    obtain ⟨s₁, hm, rfl⟩ := Option.map_eq_some_iff.mp hs
    exact effect_dispatchParticipantEvent ht hm rfl (by simp)
  | onParticipantReconnected p =>
    obtain ⟨s₁, hm, rfl⟩ := Option.map_eq_some_iff.mp hs
    exact effect_dispatchParticipantEvent ht hm rfl (by simp)
  | onDominantSpeakerChanged p =>
    cases p with
    | none =>
      cases hs
      exact effect_dispatchEvent ht (by simp)
    | some p =>
      obtain ⟨s₁, hm, rfl⟩ := Option.map_eq_some_iff.mp hs
      exact effect_dispatchParticipantEvent ht hm rfl (by simp)
  | onPlain event =>
    cases hs
    exact effect_dispatchEvent ht (by simp)
  | onTrackEvent p =>
    cases hs
    exact .raises rfl rfl rfl
  | turn t participants => exact effect_turn ht (drains hs)
  | participantTurn p j t =>
    cases participantDrains ht hs with
    | quiet hx => exact .turns hx rfl rfl rfl
    | @hops x i o hx =>
      obtain ⟨c, he, -, ha, hst, -, -⟩ := dispatch_eq (typed_turned ht hx).context
        (typed_turned ht hx).isOpen ⟨i, .participantDisconnected p, some o⟩
      rw [he]
      exact .hops hx rfl ha hst rfl
  | participants participants => exact effect_of_quiet (quiet_entries ht hs)
  | dominantSpeaker p =>
    cases p with
    | none =>
      cases hs
      exact effect_of_quiet (.refl s)
    | some p => exact effect_of_quiet (quiet_readDominantSpeaker ht hs)
  | collect p j =>
    simp only [step] at hs
    split at hs
    · cases hs
    · obtain ⟨x, hx, rfl⟩ := Option.map_eq_some_iff.mp hs
      have hd := Participant.destroyed (ht.sane p).law.binding hx
      have hf : x.superseded = (s.participant p).superseded ∧
          ((s.participant p).observers = [] → x.observers = []) := by
        cases hd <;> simp +contextual
      refine effect_of_quiet (.modify (fun _ ↦ x) (.destroyed hd) (fun _ ↦ hf.1) ?_)
      exact fun _ hn hne ↦ absurd (hf.2 hn) hne

/-- What a step of a Room does to the logs of one participant, when that many Room callbacks were
raised; one with a SID of its own is not superseded. -/
inductive Changed (sole : Prop) (n : Nat) (x : Participant) : Participant → Prop where
  | calm {x' : Participant} (hc : x.Calm x') (hs : sole → x'.superseded = x.superseded) :
      Changed sole n x x'
  | announced {y : Participant} (hc : x.Calm y) (hs : sole → y.superseded = x.superseded)
      (hne : y.observers ≠ []) (hy : y.gone = false) :
      Changed sole n x { y with connectedAt := y.connectedAt.or (some y.raised) }
  | parted {y y' : Participant} {o : Nat} (hc : x.Calm y)
      (hy : sole → y.superseded = x.superseded) (hs : y.Sane) (hg : y.gone = false)
      (ho : y.isObserverClosed o = false) (he : Participant.Enqueued y o (.raw n) y') :
      Changed sole n x { y' with disconnectedAt := some y.raised }
  | raised : Changed sole n x x.raise
  | turned {x' : Participant} {j : Nat} {t : Turn} {hop : Option (Nat × Nat)}
      (ht : x.Turned j t x' hop) : Changed sole n x x'

omit [DecidableEq Sid] in
/-- The effect of a step on one participant. -/
theorem Effect.changed {s s' : Room Sid} (h : Effect sid s s') (p : Handle) :
    Changed (Sole sid p) s.raised.length (s.participant p) (s'.participant p) := by
  cases h with
  | quiet hq ha hst => exact .calm (hq.calm p) (hq.sole p)
  | starts hq ht ha hst => exact .calm (hq.calm p) (hq.sole p)
  | dispatches hq he hp ha hst hr =>
    rw [hp]
    exact .calm (hq.calm p) (hq.sole p)
  | @announces s₁ q o hq hne hg hp ha hst hr =>
    rw [hp]
    by_cases hpq : p = q
    · subst hpq
      rw [participant_modify_self]
      exact .announced (hq.calm p) (hq.sole p) hne hg
    · rw [participant_modify_of_ne s₁ _ hpq]
      exact .calm (hq.calm p) (hq.sole p)
  | @parts s₁ q o x hq ht hg ho hx hp hc hr =>
    rw [hp]
    by_cases hpq : p = q
    · subst hpq
      rw [participant_modify_self]
      exact .parted (hq.calm p) (hq.sole p) ht hg ho hx
    · rw [participant_modify_of_ne s₁ _ hpq]
      exact .calm (hq.calm p) (hq.sole p)
  | @raises q hp hc hr =>
    rw [hp]
    by_cases hpq : p = q
    · subst hpq
      rw [participant_modify_self]
      exact .raised
    · rw [participant_modify_of_ne s _ hpq]
      exact .calm (.refl _) fun _ ↦ rfl
  | @turns q j t x hx hp hc hr =>
    rw [hp]
    by_cases hpq : p = q
    · subst hpq
      rw [participant_modify_self]
      exact .turned hx
    · rw [participant_modify_of_ne s _ hpq]
      exact .calm (.refl _) fun _ ↦ rfl
  | @hops q j t x i o hx hp ha hst hr =>
    rw [hp]
    by_cases hpq : p = q
    · subst hpq
      rw [participant_modify_self]
      exact .turned hx
    · rw [participant_modify_of_ne s _ hpq]
      exact .calm (.refl _) fun _ ↦ rfl

private theorem logged_changed {sole : Prop} {n : Nat} {x x' : Participant} (h : x.Logged)
    (hs : x.Sane) (hc : Changed sole n x x') : x'.Logged := by
  cases hc with
  | calm hc hsup => exact Participant.logged_calm h hc
  | announced hc hsup hne hy =>
    exact Participant.logged_announced (Participant.logged_calm h hc) hne
  | parted hc hy hs hg ho he =>
    exact Participant.logged_parted (Participant.logged_calm h hc) hs hg he
  | raised => exact Participant.logged_raised h hs (Participant.raised_cases hs.law)
  | turned ht => exact Participant.logged_turned h ht

/-- The logs of every participant are in order. -/
theorem logged_of_reachable {s : Room Sid} (h : (machine sid).Reachable s) (p : Handle) :
    (s.participant p).Logged := by
  refine h.invariant_of_reachable (p := fun s ↦ (s.participant p).Logged)
    Participant.logged_init ?_
  intro s a s' hr hl hs
  have ht := typed_of_reachable hr
  exact logged_changed hl (ht.sane p) ((effect_of_step ht hs).changed p)

end Room

end VideoNode.Remote
