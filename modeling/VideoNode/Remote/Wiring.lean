import VideoNode.Remote.Room

/-!
# What the caches of a Room refer to

Facts that hold in every reachable state, however rtc-cpp, reads and drains interleave and
whichever native participants share a SID: registry and caches hold entries of the SID they are
under, every queued event of a participant has captured an observer of it, and a participant that
was not superseded is the one its SID was last reported for.
-/

namespace VideoNode.Remote

open VideoNode.Common VideoNode.Lts VideoNode.Js

namespace Participant

/-- What holds of one participant by itself. -/
structure Sane (x : Participant) : Prop where
  law : x.Law
  observed : ∀ o : Nat, x.observer = some o → o < x.observers.length
  wrapless : x.observers = [] → x.wraps = []
  parting : ∀ (o : Nat) (ob : Observer) (i : Nat), x.observers[o]? = some ob →
    .raw i ∈ ob.accepted → x.gone = true

/-- Nothing made for a participant is unmade, and who has left or was superseded stays so. -/
structure Grows (x x' : Participant) : Prop where
  observers : x.observers.length ≤ x'.observers.length
  wraps : x.wraps.length ≤ x'.wraps.length
  gone : x.gone = true → x'.gone = true
  superseded : x.superseded = true → x'.superseded = true

/-- A participant nothing happened to is sane. -/
theorem sane_init : Sane init := by
  refine ⟨law_init, ?_, ?_, ?_⟩ <;> simp [init]

/-- Nothing happening makes nothing. -/
theorem Grows.refl (x : Participant) : Grows x x := ⟨Nat.le_refl _, Nat.le_refl _, id, id⟩

/-- Who is current afterwards was current before. -/
theorem Grows.current {x x' : Participant} (h : Grows x x') (hx : x'.Current) : x.Current := by
  obtain ⟨hg, hs⟩ := hx
  constructor
  · by_contra hne
    simp [h.gone (by simpa using hne)] at hg
  · by_contra hne
    simp [h.superseded (by simpa using hne)] at hs

/-- Installing an observer. -/
theorem sane_createObserver {x : Participant} (h : Sane x) :
    Sane x.createObserver ∧ Grows x x.createObserver := by
  refine ⟨⟨law_createObserver h.law, ?_, ?_, ?_⟩, ?_, Nat.le_refl _, id, id⟩
  · intro o ho
    cases ho
    simp [createObserver]
  · intro hob
    simp [createObserver] at hob
  · intro o ob i hob hi
    rcases Parties.getElem?_concat hob with ⟨-, rfl⟩ | hob
    · cases hi
    · exact h.parting o ob i hob hi
  · simp [createObserver]

/-- Enqueueing an event, or the last hop of a participant that is gone. -/
theorem sane_enqueue {x x' : Participant} {o : Nat} {event : PendingEvent} (h : Sane x)
    (he : Enqueued x o event x') (hr : ∀ i, event = .raw i → x.gone = true) :
    Sane x' ∧ Grows x x' := by
  have hl := law_enqueue h.law he
  have hadd : ∀ {ob : Observer} {i : Nat}, x.observers[o]? = some ob →
      .raw i ∈ ob.accepted ++ [event] → x.gone = true := by
    intro ob i hob hi
    rcases List.mem_append.mp hi with hi | hi
    · exact h.parting o ob i hob hi
    · exact hr i (List.mem_singleton.mp hi).symm
  cases he with
  | refused hc => exact ⟨h, .refl x⟩
  | @buffered ob hob hc hw =>
    refine ⟨⟨hl, ?_, ?_, ?_⟩, by simp, Nat.le_refl _, id, id⟩
    · simpa using h.observed
    · simpa using h.wrapless
    · intro o' ob' i hob' hi
      rcases Parties.getElem?_set hob hob' with ⟨-, rfl⟩ | ⟨-, hob'⟩
      · exact hadd hob hi
      · exact h.parting o' ob' i hob' hi
  | @queued ob j w c hob hc hwr hw ho hown hs ha hst hcl =>
    refine ⟨⟨hl, ?_, ?_, ?_⟩, by simp, by simp, id, id⟩
    · simpa using h.observed
    · simpa using h.wrapless
    · intro o' ob' i hob' hi
      rcases Parties.getElem?_set hob hob' with ⟨-, rfl⟩ | ⟨-, hob'⟩
      · exact hadd hob hi
      · exact h.parting o' ob' i hob' hi

/-- Making a wrap with an observer of the participant. -/
theorem sane_newInstance {x x' : Participant} {o : Nat} (h : Sane x) (hi : Instanced x o x')
    (ho : o < x.observers.length) :
    Sane x' ∧ Grows x x' ∧ x'.wraps.length = x.wraps.length + 1 := by
  have hl := law_newInstance h.law hi
  cases hi with
  | unbound hob =>
    refine ⟨⟨hl, h.observed, ?_, h.parting⟩, ⟨Nat.le_refl _, by simp, id, id⟩, by simp⟩
    intro hn
    have hn : x.observers = [] := hn
    simp [hn] at ho
  | @bound ob c hob hc hw hs ha hst hcl =>
    refine ⟨⟨hl, ?_, ?_, ?_⟩, ⟨by simp, by simp, id, id⟩, by simp⟩
    · simpa using h.observed
    · intro hn
      have hn : x.observers = [] := by simpa using hn
      simp [hn] at ho
    · intro o' ob' i hob' hi
      rcases Parties.getElem?_set hob hob' with ⟨rfl, rfl⟩ | ⟨-, hob'⟩
      · exact h.parting o' ob i hob hi
      · exact h.parting o' ob' i hob' hi

/-- Setting an event callback. -/
theorem sane_setEventCallback {x : Participant} (j : Nat) (h : Sane x) :
    Sane (x.setEventCallback j) ∧ Grows x (x.setEventCallback j) := by
  refine ⟨⟨law_setEventCallback j h.law, h.observed, ?_, h.parting⟩, Nat.le_refl _, ?_, id, id⟩
  · simpa [setEventCallback] using h.wrapless
  · simp [setEventCallback]

/-- A step of a wrap's `drain()`, which only a participant that is gone makes hops in. -/
theorem sane_turn {x x' : Participant} {j : Nat} {t : Turn} {hop : Option (Nat × Nat)}
    (h : Sane x) (ht : Turned x j t x' hop) : Sane x' ∧ Grows x x' ∧
      (∀ i o, hop = some (i, o) → o < x.observers.length ∧ x.gone = true) := by
  have hl := law_turn h.law ht
  cases ht with
  | quiet hw hc hst =>
    refine ⟨⟨hl, h.observed, ?_, h.parting⟩, ⟨Nat.le_refl _, by simp, id, id⟩, by simp⟩
    simpa using h.wrapless
  | event hw hc hst =>
    refine ⟨⟨hl, h.observed, ?_, h.parting⟩, ⟨Nat.le_refl _, by simp, id, id⟩, by simp⟩
    simpa using h.wrapless
  | @hop w c i hw hc hst =>
    refine ⟨⟨hl, h.observed, ?_, h.parting⟩, ⟨Nat.le_refl _, by simp, id, id⟩, ?_⟩
    · simpa using h.wrapless
    · intro i' o he
      cases he
      obtain ⟨hown, -⟩ := owner_of_started h.law hw hst
      obtain ⟨ob, hob, ha, -⟩ := h.law.owned j w hw hown
      refine ⟨(List.getElem?_eq_some_iff.mp hob).1, h.parting _ ob i hob ?_⟩
      obtain ⟨hca, hcs, -, -⟩ := Traffic.step_turn hc
      have hr : (Traffic.machine PendingEvent 0).Reachable c :=
        Machine.Reachable.step (a := .turn t) (h.law.sound j w hw) hc
      have hmem : .raw i ∈ c.started := by simp [hcs, hst]
      rw [← ha, ← hca]
      exact ((Traffic.lawful hr).pre rfl).subset hmem

/-- Destroying a wrap. -/
theorem sane_destroyWrap {x x' : Participant} {j : Nat} (h : Sane x) (hd : Destroyed x j x') :
    Sane x' ∧ Grows x x' := by
  have hl := law_destroyWrap h.law hd
  cases hd with
  | other hw hc hown =>
    refine ⟨⟨hl, h.observed, ?_, h.parting⟩, Nat.le_refl _, by simp, id, id⟩
    simpa using h.wrapless
  | @owner w c ob ob' hw hc hown hob hcl hwr ha =>
    refine ⟨⟨hl, ?_, ?_, ?_⟩, by simp, by simp, id, id⟩
    · intro o ho
      cases ho
    · simpa using h.wrapless
    · intro o ob₁ i hob₁ hi
      rcases Parties.getElem?_set hob hob₁ with ⟨-, rfl⟩ | ⟨-, hob₁⟩
      · rw [ha] at hi
        exact h.parting _ ob i hob hi
      · exact h.parting o ob₁ i hob₁ hi

/-- An event raised on the participant. -/
theorem sane_raised {x x' : Participant} (h : Sane x) (hr : Raised x x') :
    Sane x' ∧ Grows x x' := by
  cases hr with
  | unheard ho =>
    exact ⟨⟨⟨h.law.sound, h.law.bound, h.law.owned, h.law.unowned, h.law.buffered, h.law.sole⟩,
      h.observed, h.wrapless, h.parting⟩, Nat.le_refl _, Nat.le_refl _, id, id⟩
  | heard ho he =>
    have hs : Sane { x with raised := x.raised + 1, heard := x.heard ++ [x.raised] } :=
      ⟨⟨h.law.sound, h.law.bound, h.law.owned, h.law.unowned, h.law.buffered, h.law.sole⟩,
        h.observed, h.wrapless, h.parting⟩
    obtain ⟨hs', hg⟩ := sane_enqueue hs he (by simp)
    exact ⟨hs', hg.observers, hg.wraps, hg.gone, hg.superseded⟩

/-- What an observer of a participant that is about to be gone accepts. -/
theorem sane_part {x x' : Participant} {o i : Nat} (d : Nat) (h : Sane x)
    (he : Enqueued x o (.raw i) x') :
    Sane { x' with disconnectedAt := some d } ∧
      Grows x { x' with disconnectedAt := some d } := by
  have hl := law_enqueue h.law he
  have hlen : x'.observers.length = x.observers.length ∧ x'.wraps.length = x.wraps.length ∧
      x'.observer = x.observer ∧ x'.superseded = x.superseded := by
    cases he <;> simp
  refine ⟨⟨⟨hl.sound, hl.bound, hl.owned, hl.unowned, hl.buffered, hl.sole⟩, ?_, ?_,
    fun _ _ _ _ _ ↦ rfl⟩, Nat.le_of_eq hlen.1.symm, Nat.le_of_eq hlen.2.1.symm, fun _ ↦ rfl,
    fun hs ↦ hlen.2.2.2.trans hs⟩
  · intro o' ho
    rw [hlen.2.2.1] at ho
    exact hlen.1 ▸ h.observed o' ho
  · intro hn
    have hn : x.observers = [] := by
      rw [← List.length_eq_zero_iff, ← hlen.1]
      exact List.length_eq_zero_iff.mpr hn
    have hw := h.wrapless hn
    rw [← List.length_eq_zero_iff, ← hlen.2.1] at hw
    exact List.length_eq_zero_iff.mp hw

/-- Records of what rtc-cpp did are nothing a participant's observers or wraps depend on. -/
theorem sane_record {x x' : Participant} (h : Sane x) (ho : x'.observer = x.observer)
    (hobs : x'.observers = x.observers) (hw : x'.wraps = x.wraps) (hg : x'.gone = x.gone)
    (hs : x.superseded = true → x'.superseded = true) : Sane x' ∧ Grows x x' := by
  refine ⟨⟨⟨?_, ?_, ?_, ?_, ?_, ?_⟩, ?_, ?_, ?_⟩, Nat.le_of_eq (by rw [hobs]),
    Nat.le_of_eq (by rw [hw]), hg ▸ id, hs⟩
  · exact hw ▸ h.law.sound
  · rw [hw, hobs]
    exact h.law.bound
  · rw [hw, hobs]
    exact h.law.owned
  · exact hw ▸ h.law.unowned
  · exact hobs ▸ h.law.buffered
  · exact hw ▸ h.law.sole
  · rw [ho, hobs]
    exact h.observed
  · rw [hw, hobs]
    exact h.wrapless
  · rw [hobs, hg]
    exact h.parting

end Participant

namespace Room

variable {Sid : Type}

/-- The updated participant. -/
@[simp] theorem participant_modify_self (s : Room Sid) (p : Handle)
    (f : Participant → Participant) : (s.modify p f).participant p = f (s.participant p) := by
  simp [modify]

/-- Every other participant. -/
theorem participant_modify_of_ne (s : Room Sid) {p q : Handle} (f : Participant → Participant)
    (h : q ≠ p) : (s.modify p f).participant q = s.participant q := by
  simp [modify, h]

variable [DecidableEq Sid] {sid : Handle → Sid}

/-- Registry, caches and queue refer to participants of their own SID and to observers and wraps
these have. -/
structure Typed (sid : Handle → Sid) (s : Room Sid) : Prop where
  sane : ∀ p, (s.participant p).Sane
  context : (Traffic.machine Task 0).Reachable s.context
  isOpen : s.context.loop.ctx.closed = false
  registered : ∀ k q o, s.participantObservers.get k = some (q, o) →
    sid q = k ∧ o < (s.participant q).observers.length
  native : ∀ k q j, s.participantCache.get k = some (q, j) →
    sid q = k ∧ j < (s.participant q).wraps.length
  cached : ∀ k q j, s.remoteParticipantCache.get k = some (q, j) →
    sid q = k ∧ j < (s.participant q).wraps.length
  tasks : ∀ t ∈ s.context.accepted, ∀ p, t.event.participant = some p →
    ∃ o, t.observer = some o ∧ o < (s.participant p).observers.length
  parted : ∀ t ∈ s.context.accepted, ∀ p, t.event = .participantDisconnected p →
    (s.participant p).gone = true
  holder : ∀ p, (s.participant p).observers ≠ [] → (s.participant p).Current →
    s.holder (sid p) = some p
  reported : ∀ k p, s.holder k = some p → sid p = k

/-- Nothing refers to anything at first. -/
theorem typed_init : Typed sid (init : Room Sid) where
  sane _ := Participant.sane_init
  context := Machine.reachable_init _
  isOpen := rfl
  registered k q o h := by cases h
  native k q j h := by cases h
  cached k q j h := by cases h
  tasks t ht := by cases ht
  parted t ht := by cases ht
  holder p h := absurd rfl h
  reported k p h := by cases h

/-- Participants that grow keep what refers to them. -/
theorem Typed.grow {s s' : Room Sid} (h : Typed sid s) (hs : ∀ p, (s'.participant p).Sane)
    (hg : ∀ p, (s.participant p).Grows (s'.participant p))
    (hc : s'.context = s.context) (hr : s'.participantObservers = s.participantObservers)
    (hn : s'.participantCache = s.participantCache)
    (hj : s'.remoteParticipantCache = s.remoteParticipantCache)
    (hh : ∀ p, (s'.participant p).observers ≠ [] → (s'.participant p).Current →
      s'.holder (sid p) = some p) (hk : ∀ k p, s'.holder k = some p → sid p = k) :
    Typed sid s' where
  sane := hs
  context := hc ▸ h.context
  isOpen := hc ▸ h.isOpen
  registered k q o hk := by
    obtain ⟨hq, ho⟩ := h.registered k q o (hr ▸ hk)
    exact ⟨hq, Nat.lt_of_lt_of_le ho (hg q).observers⟩
  native k q j hk := by
    obtain ⟨hq, ho⟩ := h.native k q j (hn ▸ hk)
    exact ⟨hq, Nat.lt_of_lt_of_le ho (hg q).wraps⟩
  cached k q j hk := by
    obtain ⟨hq, ho⟩ := h.cached k q j (hj ▸ hk)
    exact ⟨hq, Nat.lt_of_lt_of_le ho (hg q).wraps⟩
  tasks t ht p hp := by
    obtain ⟨o, ho, hl⟩ := h.tasks t (hc ▸ ht) p hp
    exact ⟨o, ho, Nat.lt_of_lt_of_le hl (hg p).observers⟩
  parted t ht p hp := (hg p).gone (h.parted t (hc ▸ ht) p hp)
  holder := hh
  reported := hk

/-- Updating one participant. -/
theorem Typed.modify {s : Room Sid} {p : Handle} {f : Participant → Participant}
    (h : Typed sid s) (hs : (f (s.participant p)).Sane)
    (hg : (s.participant p).Grows (f (s.participant p)))
    (hh : (f (s.participant p)).observers ≠ [] → (f (s.participant p)).Current →
      s.holder (sid p) = some p) : Typed sid (s.modify p f) := by
  refine h.grow ?_ ?_ rfl rfl rfl rfl ?_ h.reported
  · intro q
    by_cases hq : q = p
    · subst hq
      rwa [participant_modify_self]
    · rw [participant_modify_of_ne s f hq]
      exact h.sane q
  · intro q
    by_cases hq : q = p
    · subst hq
      rwa [participant_modify_self]
    · rw [participant_modify_of_ne s f hq]
      exact .refl _
  · intro q hne hcur
    by_cases hq : q = p
    · subst hq
      rw [participant_modify_self] at hne hcur
      exact hh hne hcur
    · rw [participant_modify_of_ne s f hq] at hne hcur
      exact h.holder q hne hcur

/-- The ways rtc-cpp can name a participant. -/
inductive Mentioned (sid : Handle → Sid) (s : Room Sid) (p : Handle) : Room Sid → Prop where
  | again (hh : s.holder (sid p) = some p) : Mentioned sid s p s
  | first (hh : s.holder (sid p) = none) :
      Mentioned sid s p { s with holder := Function.update s.holder (sid p) (some p) }
  | supersedes {q : Handle} (hh : s.holder (sid p) = some q) (hq : q ≠ p) :
      Mentioned sid s p { s.modify q fun x ↦ { x with superseded := true } with
        holder := Function.update s.holder (sid p) (some p) }

/-- Inversion of a mention. -/
theorem mentioned {s s' : Room Sid} {p : Handle} (h : mention sid s p = some s') :
    (s.participant p).gone = false ∧ Mentioned sid s p s' := by
  simp only [mention] at h
  split at h
  · cases h
  · next hg =>
    refine ⟨by simpa using hg, ?_⟩
    split at h
    · next hh =>
      cases h
      exact .first hh
    · next q hh =>
      split at h
      · next hq =>
        cases h
        subst hq
        exact .again hh
      · next hq =>
        cases h
        exact .supersedes hh hq

/-- A mention touches no cache and no queue. -/
theorem mention_frame {s s' : Room Sid} {p : Handle} (h : mention sid s p = some s') :
    s'.participantCache = s.participantCache ∧
      s'.remoteParticipantCache = s.remoteParticipantCache ∧ s'.context = s.context ∧
      s'.raised = s.raised := by
  obtain ⟨-, hm⟩ := mentioned h
  cases hm <;> exact ⟨rfl, rfl, rfl, rfl⟩

/-- A mention supersedes whoever the SID was last reported for, and changes nothing else. -/
theorem typed_mention {s s' : Room Sid} {p : Handle} (h : Typed sid s)
    (hm : mention sid s p = some s') :
    Typed sid s' ∧ (s'.participant p).gone = false ∧ s'.holder (sid p) = some p := by
  obtain ⟨hg, hm⟩ := mentioned hm
  have hrep : ∀ {f : Sid → Option Handle}, (∀ k q, f k = some q → sid q = k) →
      ∀ k q, Function.update f (sid p) (some p) k = some q → sid q = k := by
    intro f hf k q hk
    by_cases he : k = sid p
    · subst he
      rw [Function.update_self] at hk
      cases hk
      rfl
    · rw [Function.update_of_ne he] at hk
      exact hf k q hk
  cases hm with
  | again hh => exact ⟨h, hg, hh⟩
  | first hh =>
    refine ⟨h.grow h.sane (fun _ ↦ .refl _) rfl rfl rfl rfl ?_ (hrep h.reported), hg, by simp⟩
    intro q hne hcur
    have hq := h.holder q hne hcur
    by_cases he : sid q = sid p
    · rw [he, hh] at hq
      cases hq
    · simpa [he] using hq
  | @supersedes q hh hqp =>
    have hgp : ((s.modify q fun x ↦ { x with superseded := true }).participant p).gone = false := by
      rwa [participant_modify_of_ne s _ (Ne.symm hqp)]
    refine ⟨?_, hgp, by simp⟩
    have hset : Participant.Sane { s.participant q with superseded := true } ∧
        Participant.Grows (s.participant q) { s.participant q with superseded := true } :=
      Participant.sane_record (h.sane q) rfl rfl rfl rfl fun _ ↦ rfl
    obtain ⟨hsane, hgrow⟩ := hset
    have hmod : Typed sid (s.modify q fun x ↦ { x with superseded := true }) :=
      h.modify hsane hgrow fun _ hcur ↦ Bool.noConfusion hcur.2
    refine hmod.grow hmod.sane (fun _ ↦ .refl _) rfl rfl rfl rfl ?_ (hrep hmod.reported)
    intro r hne hcur
    have hr : s.holder (sid r) = some r := hmod.holder r hne hcur
    by_cases he : sid r = sid p
    · rw [he, hh] at hr
      cases hr
      have hcur : ((s.modify q fun x ↦ { x with superseded := true }).participant q).Current :=
        hcur
      rw [participant_modify_self] at hcur
      exact Bool.noConfusion hcur.2
    · simpa [he] using hr

/-- What `GetOrCreateParticipantObserver` can do: hand out the registered observer of this very
participant if it is open, or install and register another one. -/
inductive Observed (sid : Handle → Sid) (s : Room Sid) (p : Handle) : Room Sid × Nat → Prop where
  | registered {o : Nat} (hr : s.participantObservers.get (sid p) = some (p, o))
      (ho : (s.participant p).isObserverClosed o = false) : Observed sid s p (s, o)
  | installed {m : JsMap Sid (Handle × Nat)}
      (hr : ∀ o, s.participantObservers.get (sid p) = some (p, o) →
        (s.participant p).isObserverClosed o = true)
      (hm : ∀ k, m.get k = if k = sid p then some (p, (s.participant p).observers.length)
        else s.participantObservers.get k) :
      Observed sid s p ({ s.modify p Participant.createObserver with participantObservers := m },
        (s.participant p).observers.length)

/-- Inversion of `GetOrCreateParticipantObserver`. -/
theorem observed (s : Room Sid) (p : Handle) :
    Observed sid s p (getOrCreateParticipantObserver sid s p) := by
  simp only [getOrCreateParticipantObserver]
  split
  · next q o hr =>
    split
    · next hq =>
      obtain ⟨rfl, ho⟩ := hq
      exact .registered hr ho
    · next hq =>
      refine .installed ?_ ?_
      · intro o' hr'
        rw [hr] at hr'
        cases hr'
        cases hc : (s.participant p).isObserverClosed o with
        | true => rfl
        | false => exact absurd ⟨rfl, hc⟩ hq
      · intro k
        rw [JsMap.get_set, JsMap.get_delete]
        split <;> rfl
  · next hr =>
    refine .installed ?_ (JsMap.get_set _ _ · _)
    intro o hr'
    rw [hr] at hr'
    cases hr'

/-- Getting an observer touches no cache and no queue. -/
theorem observed_frame {s : Room Sid} {p : Handle} {r : Room Sid × Nat}
    (hr : Observed sid s p r) : r.1.participantCache = s.participantCache ∧
      r.1.remoteParticipantCache = s.remoteParticipantCache ∧ r.1.context = s.context ∧
      r.1.raised = s.raised ∧ r.1.holder = s.holder := by
  cases hr <;> exact ⟨rfl, rfl, rfl, rfl, rfl⟩

/-- Getting the observer of a participant leaves it as alive as it was. -/
theorem observed_gone {s : Room Sid} {p : Handle} {r : Room Sid × Nat}
    (hg : (s.participant p).gone = false) (hr : Observed sid s p r) :
    (r.1.participant p).gone = false := by
  cases hr with
  | registered hr ho => exact hg
  | installed hr hm => simpa [Participant.createObserver, Participant.gone] using hg

/-- A participant that a SID was just reported for gets an observer it has. -/
theorem typed_observed {s : Room Sid} {p : Handle} {r : Room Sid × Nat} (h : Typed sid s)
    (hh : s.holder (sid p) = some p) (hr : Observed sid s p r) :
    Typed sid r.1 ∧ r.2 < (r.1.participant p).observers.length := by
  cases hr with
  | registered hr ho => exact ⟨h, (h.registered _ _ _ hr).2⟩
  | @installed m hr hm =>
    obtain ⟨hs, hg⟩ := Participant.sane_createObserver (h.sane p)
    have hmod : Typed sid (s.modify p Participant.createObserver) :=
      h.modify hs hg fun _ _ ↦ hh
    refine ⟨?_, by simp [Participant.createObserver]⟩
    refine ⟨hmod.sane, hmod.context, hmod.isOpen, ?_, hmod.native, hmod.cached, hmod.tasks,
      hmod.parted, hmod.holder, hmod.reported⟩
    intro k q o hk
    have hk : m.get k = some (q, o) := hk
    rw [hm] at hk
    split at hk
    · next he =>
      cases hk
      exact ⟨he.symm, by simp [Participant.createObserver]⟩
    · exact hmod.registered k q o hk

omit [DecidableEq Sid] in
/-- An open queue takes every callback. -/
theorem dispatch_eq {s : Room Sid} (hr : (Traffic.machine Task 0).Reachable s.context)
    (ho : s.context.loop.ctx.closed = false) (task : Task) :
    ∃ c, s.dispatch task = { s with context := c } ∧ (Traffic.machine Task 0).Reachable c ∧
      c.accepted = s.context.accepted ++ [task] ∧ c.started = s.context.started ∧
      c.loop.ctx.closed = false ∧ c.loop.drain = s.context.loop.drain := by
  obtain ⟨c, hc, ha, hst, hcl, hd⟩ :=
    Traffic.step_dispatch_of_open task (Traffic.inv_of_reachable hr) ho
  refine ⟨c, by simp [dispatch, hc], Machine.Reachable.step (a := .dispatch task) hr hc, ha, hst,
    hcl, hd⟩

/-- Dispatching a callback that has captured an observer of its participant. -/
theorem typed_dispatch {s : Room Sid} (task : Task) (h : Typed sid s)
    (ho : ∀ p, task.event.participant = some p →
      ∃ o, task.observer = some o ∧ o < (s.participant p).observers.length)
    (hp : ∀ p, task.event = .participantDisconnected p → (s.participant p).gone = true) :
    Typed sid (s.dispatch task) := by
  obtain ⟨c, he, hr, ha, hst, hcl, -⟩ := dispatch_eq h.context h.isOpen task
  rw [he]
  refine ⟨h.sane, hr, hcl, h.registered, h.native, h.cached, ?_, ?_, h.holder, h.reported⟩
  · intro t ht
    have ht : t ∈ c.accepted := ht
    rw [ha, List.mem_append, List.mem_singleton] at ht
    rcases ht with ht | rfl
    · exact h.tasks t ht
    · exact ho
  · intro t ht
    have ht : t ∈ c.accepted := ht
    rw [ha, List.mem_append, List.mem_singleton] at ht
    rcases ht with ht | rfl
    · exact h.parted t ht
    · exact hp

/-- Making a wrap with an observer of the participant. -/
theorem typed_newInstance {s : Room Sid} {p : Handle} {o : Nat} (h : Typed sid s)
    (ho : o < (s.participant p).observers.length) :
    Typed sid (s.newInstance p o).1 ∧
      (s.newInstance p o).2.2 < ((s.newInstance p o).1.participant p).wraps.length := by
  have hi := Participant.instanced (s.participant p) o
  obtain ⟨hs, hg, hl⟩ := Participant.sane_newInstance (h.sane p) hi ho
  constructor
  · refine h.modify (f := fun x ↦ x.newInstance o) hs hg fun hne hcur ↦
      h.holder p ?_ (hg.current hcur)
    intro hn
    simp [hn] at ho
  · simp only [newInstance, participant_modify_self, hl]
    omega

/-- What `_wrapRemoteParticipant` can do: find a `RemoteParticipant` under the SID, or make one on
the wrap it was given. -/
inductive Wrapped (sid : Handle → Sid) (s : Room Sid) (native : Handle × Nat) : Room Sid → Prop
    where
  | found {r : Handle × Nat} (hr : s.remoteParticipantCache.get (sid native.1) = some r) :
      Wrapped sid s native s
  | made (hr : s.remoteParticipantCache.get (sid native.1) = none) :
      Wrapped sid s native { s.modify native.1 fun x ↦ x.setEventCallback native.2 with
        remoteParticipantCache := s.remoteParticipantCache.set (sid native.1) native }

/-- Inversion of `_wrapRemoteParticipant`. -/
theorem wrapped (s : Room Sid) (native : Handle × Nat) :
    Wrapped sid s native (wrapRemoteParticipant sid s native) := by
  simp only [wrapRemoteParticipant]
  split
  · next hr => exact .found hr
  · next hr => exact .made hr

private theorem typed_modify_same {s : Room Sid} {p : Handle} {f : Participant → Participant}
    (h : Typed sid s)
    (hs : (f (s.participant p)).Sane ∧ (s.participant p).Grows (f (s.participant p)))
    (ho : (f (s.participant p)).observers.length = (s.participant p).observers.length) :
    Typed sid (s.modify p f) := by
  refine h.modify hs.1 hs.2 fun hne hcur ↦ h.holder p ?_ (hs.2.current hcur)
  intro hn
  rw [hn, List.length_nil, List.length_eq_zero_iff] at ho
  exact hne ho

/-- Giving JS a wrap the participant has. -/
theorem typed_wrapped {s s' : Room Sid} {native : Handle × Nat} (h : Typed sid s)
    (hn : native.2 < (s.participant native.1).wraps.length) (hw : Wrapped sid s native s') :
    Typed sid s' := by
  cases hw with
  | found hr => exact h
  | made hr =>
    have hmod : Typed sid (s.modify native.1 fun x ↦ x.setEventCallback native.2) :=
      typed_modify_same h (Participant.sane_setEventCallback native.2 (h.sane native.1)) rfl
    refine ⟨hmod.sane, hmod.context, hmod.isOpen, hmod.registered, hmod.native, ?_, hmod.tasks,
      hmod.parted, hmod.holder, hmod.reported⟩
    intro k q j hk
    simp only [JsMap.get_set] at hk
    split at hk
    · next he =>
      cases hk
      refine ⟨he.symm, ?_⟩
      simpa [Participant.setEventCallback] using hn
    · exact hmod.cached k q j hk

variable (sid) in
/-- Make a wrap of a participant, leave a given wrap cache, and give the wrap to JS. -/
def hand (s : Room Sid) (p : Handle) (o : Nat) (m : JsMap Sid (Handle × Nat)) : Room Sid :=
  wrapRemoteParticipant sid { (s.newInstance p o).1 with participantCache := m }
    (p, (s.participant p).wraps.length)

/-- A wrap cache that differs from the present one in the wrap about to be made, if at all. -/
def CacheOf (sid : Handle → Sid) (s : Room Sid) (p : Handle) (m : JsMap Sid (Handle × Nat)) :
    Prop :=
  ∀ k native, m.get k = some native → s.participantCache.get k = some native ∨
    (k = sid p ∧ native = (p, (s.participant p).wraps.length))

/-- Making a wrap and giving it to JS. -/
theorem typed_hand {s : Room Sid} {p : Handle} {o : Nat} {m : JsMap Sid (Handle × Nat)}
    (h : Typed sid s) (ho : o < (s.participant p).observers.length) (hm : CacheOf sid s p m) :
    Typed sid (hand sid s p o m) := by
  obtain ⟨hmade, hlt⟩ := typed_newInstance h ho
  have hm' : Typed sid { (s.newInstance p o).1 with participantCache := m } := by
    refine ⟨hmade.sane, hmade.context, hmade.isOpen, hmade.registered, ?_, hmade.cached,
      hmade.tasks, hmade.parted, hmade.holder, hmade.reported⟩
    intro k q j hk
    rcases hm k (q, j) hk with hk | ⟨hkp, he⟩
    · exact hmade.native k q j hk
    · cases he
      exact ⟨hkp.symm, hlt⟩
  exact typed_wrapped hm' hlt (wrapped _ _)

/-- The ways an entry of a read of `room.participants` can go. -/
inductive Read (sid : Handle → Sid) (s : Room Sid) (p : Handle) : Room Sid → Prop where
  | cached {s₁ s₂ : Room Sid} {native : Handle × Nat} (hm : mention sid s p = some s₁)
      (hc : s₁.participantCache.get (sid p) = some native) (hw : Wrapped sid s₁ native s₂) :
      Read sid s p s₂
  | made {s₁ : Room Sid} {r : Room Sid × Nat} (hm : mention sid s p = some s₁)
      (hc : s₁.participantCache.get (sid p) = none) (hr : Observed sid s₁ p r) :
      Read sid s p (hand sid r.1 p r.2
        (r.1.participantCache.set (sid p) (p, (r.1.participant p).wraps.length)))

/-- Inversion of an entry of a read of `room.participants`. -/
theorem readParticipant_cases {s s' : Room Sid} {p : Handle}
    (h : readParticipant sid s p = some s') : Read sid s p s' := by
  obtain ⟨s₁, hm, he⟩ := Option.map_eq_some_iff.mp h
  split at he
  · next native hc =>
    rw [← he]
    exact .cached hm hc (wrapped _ _)
  · next hc =>
    rw [← he]
    exact .made hm hc (observed s₁ p)

/-- The ways a callback on the Room's queue can go. -/
inductive Delivered (sid : Handle → Sid) (s : Room Sid) (task : Task) (participants : List Handle) :
    Room Sid → Prop where
  | seeded {s' : Room Sid} (he : task.event = .connected)
      (hx : (entries sid).exec s participants = some s') : Delivered sid s task participants s'
  | handed {p : Handle} {o : Nat} {m : JsMap Sid (Handle × Nat)}
      (hp : task.event.participant = some p) (ho : task.observer = some o)
      (hm : m = s.participantCache ∨ m = s.participantCache.delete (sid p)) :
      Delivered sid s task participants (hand sid s p o m)
  | ignored (hp : ∀ p o, task.event.participant = some p → task.observer ≠ some o) :
      Delivered sid s task participants s

/-- Inversion of a callback on the Room's queue. -/
theorem delivered {s s' : Room Sid} {task : Task} {participants : List Handle}
    (h : deliver sid s task participants = some s') : Delivered sid s task participants s' := by
  obtain ⟨index, event, observer⟩ := task
  unfold deliver at h
  split at h
  · next he => exact .seeded he h
  · next p o he ho =>
    cases h
    simp only at he ho
    subst he ho
    exact .handed rfl rfl (.inr rfl)
  · split at h
    · next p o hp ho =>
      cases h
      exact .handed hp ho (.inl rfl)
    · next hno =>
      cases h
      refine .ignored fun p o hp ho ↦ ?_
      exact hno p o hp ho

/-- Looking a wrap up. -/
theorem cacheOf_same {s : Room Sid} {p : Handle} : CacheOf sid s p s.participantCache :=
  fun _ _ hk ↦ .inl hk

/-- Forgetting a wrap. -/
theorem cacheOf_delete {s : Room Sid} {p : Handle} (k : Sid) :
    CacheOf sid s p (s.participantCache.delete k) := by
  intro k' native hk
  rw [JsMap.get_delete] at hk
  split at hk
  · cases hk
  · exact .inl hk

/-- Remembering the wrap about to be made. -/
theorem cacheOf_set {s : Room Sid} {p : Handle} :
    CacheOf sid s p (s.participantCache.set (sid p) (p, (s.participant p).wraps.length)) := by
  intro k' native hk
  rw [JsMap.get_set] at hk
  split at hk
  · next he =>
    cases hk
    exact .inr ⟨he, rfl⟩
  · exact .inl hk

/-- An entry of a read of `room.participants`. -/
theorem typed_read {s s' : Room Sid} {p : Handle} (h : Typed sid s) (hr : Read sid s p s') :
    Typed sid s' := by
  cases hr with
  | cached hm hc hw =>
    obtain ⟨ht, -, -⟩ := typed_mention h hm
    exact typed_wrapped ht (ht.native _ _ _ hc).2 hw
  | made hm hc hr =>
    obtain ⟨ht, -, hh⟩ := typed_mention h hm
    obtain ⟨ht, ho⟩ := typed_observed ht hh hr
    exact typed_hand ht ho cacheOf_set

/-- A read of `room.participants`. -/
theorem typed_entries {s s' : Room Sid} {l : List Handle} (h : Typed sid s)
    (hx : (entries sid).exec s l = some s') : Typed sid s' := by
  refine Machine.exec_invariant (m := entries sid) (p := Typed sid) ?_ h hx
  exact fun _ _ _ ht hs ↦ typed_read ht (readParticipant_cases hs)

/-- The steps of the `drain()` of Room events: one starts a callback and runs it, one ends a
callback whose listeners have returned, and the others only move the `drain()` on. -/
inductive Drains (sid : Handle → Sid) (s : Room Sid) (t : Turn) (participants : List Handle) :
    Room Sid → Prop where
  | starts {c : Traffic Task} {task : Task} {s' : Room Sid}
      (hc : s.context.step (.turn t) = some c) (hst : s.context.loop.started t = some task)
      (hd : Delivered sid { s with context := c } task participants s') :
      Drains sid s t participants s'
  | ends {c : Traffic Task} {task : Task} {rest : List Task}
      (hc : s.context.step (.turn t) = some c) (hst : s.context.loop.started t = none)
      (hd : s.context.loop.drain = .calling task rest) :
      Drains sid s t participants (afterEmit sid { s with context := c } task)
  | moves {c : Traffic Task} (hc : s.context.step (.turn t) = some c)
      (hst : s.context.loop.started t = none) :
      Drains sid s t participants { s with context := c }

/-- Inversion of a step of the `drain()` of Room events. -/
theorem drains {s s' : Room Sid} {t : Turn} {participants : List Handle}
    (h : turn sid s t participants = some s') : Drains sid s t participants s' := by
  obtain ⟨c, hc, hs⟩ := Option.bind_eq_some_iff.mp h
  cases t with
  | next =>
    cases hst : s.context.loop.starts with
    | none =>
      simp only [hst] at hs
      cases hs
      exact .moves hc hst
    | some task =>
      simp only [hst] at hs
      exact .starts hc hst (delivered hs)
  | returned =>
    cases hd : s.context.loop.drain with
    | calling task rest =>
      simp only [hd] at hs
      cases hs
      exact .ends hc rfl hd
    | _ =>
      simp only [hd] at hs
      cases hs
      exact .moves hc rfl
  | _ =>
    cases hs
    exact .moves hc rfl

/-- Moving the `drain()` of Room events on. -/
theorem typed_context {s : Room Sid} {t : Turn} {c : Traffic Task} (h : Typed sid s)
    (hc : s.context.step (.turn t) = some c) : Typed sid { s with context := c } := by
  obtain ⟨ha, -, hcl, -⟩ := Traffic.step_turn hc
  refine ⟨h.sane, Machine.Reachable.step (a := .turn t) h.context hc, hcl.trans h.isOpen,
    h.registered, h.native, h.cached, ?_, ?_, h.holder, h.reported⟩
  · intro task ht
    exact h.tasks task (ha ▸ ht)
  · intro task ht
    exact h.parted task (ha ▸ ht)

/-- What was started was accepted. -/
theorem Typed.accepted_of_started {s : Room Sid} {t : Turn} {c : Traffic Task} {task : Task}
    (h : Typed sid s) (hc : s.context.step (.turn t) = some c)
    (hst : s.context.loop.started t = some task) : task ∈ s.context.accepted := by
  obtain ⟨ha, hs, -, -⟩ := Traffic.step_turn hc
  have hr : (Traffic.machine Task 0).Reachable c :=
    Machine.Reachable.step (a := .turn t) h.context hc
  have hmem : task ∈ c.started := by simp [hs, hst]
  rw [← ha]
  exact ((Traffic.lawful hr).pre rfl).subset hmem

/-- A step of the `drain()` of Room events. -/
theorem typed_turn {s s' : Room Sid} {t : Turn} {participants : List Handle} (h : Typed sid s)
    (hd : Drains sid s t participants s') : Typed sid s' := by
  cases hd with
  | @starts c task s' hc hst hd =>
    have ht := typed_context h hc
    cases hd with
    | seeded he hx => exact typed_entries ht hx
    | @handed p o m hp ho hm =>
      obtain ⟨o', ho', hlt⟩ := h.tasks task (h.accepted_of_started hc hst) p hp
      rw [ho] at ho'
      cases ho'
      rcases hm with rfl | rfl
      · exact typed_hand ht hlt cacheOf_same
      · exact typed_hand ht hlt (cacheOf_delete _)
    | ignored hp => exact ht
  | @ends c task rest hc hst hd =>
    have ht := typed_context h hc
    unfold afterEmit
    split
    · refine ⟨ht.sane, ht.context, ht.isOpen, ht.registered, ht.native, ?_, ht.tasks, ht.parted,
        ht.holder, ht.reported⟩
      intro k q j hk
      simp only [JsMap.get_delete] at hk
      split at hk
      · cases hk
      · exact ht.cached k q j hk
    · exact ht
  | moves hc hst => exact typed_context h hc

/-- The ways a step of a wrap's `drain()` can go. -/
inductive ParticipantDrains (s : Room Sid) (p : Handle) (j : Nat) (t : Turn) : Room Sid → Prop where
  | quiet {x : Participant} (hx : Participant.Turned (s.participant p) j t x none) :
      ParticipantDrains s p j t (s.modify p fun _ ↦ x)
  | hops {x : Participant} {i o : Nat}
      (hx : Participant.Turned (s.participant p) j t x (some (i, o))) :
      ParticipantDrains s p j t
        ((s.modify p fun _ ↦ x).dispatch ⟨i, .participantDisconnected p, some o⟩)

/-- Inversion of a step of a wrap's `drain()`. -/
theorem participantDrains {s s' : Room Sid} {p : Handle} {j : Nat} {t : Turn} (ht : Typed sid s)
    (h : s.participantTurn p j t = some s') : ParticipantDrains s p j t s' := by
  obtain ⟨⟨x, hop⟩, hx, he⟩ := Option.map_eq_some_iff.mp h
  have hx := Participant.turned (ht.sane p).law hx
  cases hop with
  | none =>
    cases he
    exact .quiet hx
  | some io =>
    obtain ⟨i, o⟩ := io
    cases he
    exact .hops hx

/-- The participant's side of a step of a wrap's `drain()`. -/
theorem typed_turned {s : Room Sid} {p : Handle} {j : Nat} {t : Turn} {x : Participant}
    {hop : Option (Nat × Nat)} (h : Typed sid s)
    (hx : Participant.Turned (s.participant p) j t x hop) : Typed sid (s.modify p fun _ ↦ x) := by
  obtain ⟨hs, hg, -⟩ := Participant.sane_turn (h.sane p) hx
  exact typed_modify_same h ⟨hs, hg⟩ (by cases hx <;> rfl)

/-- A step of a wrap's `drain()`. -/
theorem typed_participantTurn {s s' : Room Sid} {p : Handle} {j : Nat} {t : Turn} (h : Typed sid s)
    (hd : ParticipantDrains s p j t s') : Typed sid s' := by
  cases hd with
  | quiet hx => exact typed_turned h hx
  | @hops x i o hx =>
    obtain ⟨-, hg, hhop⟩ := Participant.sane_turn (h.sane p) hx
    obtain ⟨ho, hgone⟩ := hhop i o rfl
    apply typed_dispatch _ (typed_turned h hx)
    · intro q hq
      cases hq
      refine ⟨o, rfl, ?_⟩
      rw [participant_modify_self]
      exact Nat.lt_of_lt_of_le ho hg.observers
    · intro q hq
      cases hq
      rw [participant_modify_self]
      exact hg.gone hgone

private theorem typed_dispatchEvent {s : Room Sid} {event : RoomEvent} {o : Option Nat}
    (h : Typed sid s) (ho : ∀ p, event.participant = some p →
      ∃ i, o = some i ∧ i < (s.participant p).observers.length)
    (hp : ∀ p, event ≠ .participantDisconnected p) : Typed sid (s.dispatchEvent event o) := by
  have ht := typed_dispatch ⟨s.raised.length, event, o⟩ h ho
    fun p he ↦ absurd he (hp p)
  exact ⟨ht.sane, ht.context, ht.isOpen, ht.registered, ht.native, ht.cached, ht.tasks, ht.parted,
    ht.holder, ht.reported⟩

private theorem typed_dispatchParticipantEvent {s : Room Sid} {p : Handle} {event : RoomEvent}
    (h : Typed sid s) (hh : s.holder (sid p) = some p) (he : event.participant = some p)
    (hp : ∀ p, event ≠ .participantDisconnected p) :
    Typed sid (dispatchParticipantEvent sid s p event) := by
  obtain ⟨ht, ho⟩ := typed_observed h hh (observed s p)
  refine typed_dispatchEvent ht (fun q hq ↦ ?_) hp
  rw [he] at hq
  cases hq
  exact ⟨_, rfl, ho⟩

private theorem typed_onParticipantDisconnected {s : Room Sid} {p : Handle} (h : Typed sid s)
    (hh : s.holder (sid p) = some p) : Typed sid (onParticipantDisconnected sid s p) := by
  obtain ⟨ht, ho⟩ := typed_observed h hh (observed s p)
  have hf : Typed sid (forgetParticipantObserver sid (getOrCreateParticipantObserver sid s p).1 p)
      := by
    refine ⟨ht.sane, ht.context, ht.isOpen, ?_, ht.native, ht.cached, ht.tasks, ht.parted,
      ht.holder, ht.reported⟩
    intro k q o hk
    simp only [forgetParticipantObserver, JsMap.get_delete] at hk
    split at hk
    · cases hk
    · exact ht.registered k q o hk
  have hpart := Participant.sane_part
    ((getOrCreateParticipantObserver sid s p).1.participant p).raised (hf.sane p)
    (Participant.enqueued (hf.sane p).law.binding (getOrCreateParticipantObserver sid s p).2
      (.raw s.raised.length))
  have hmod := hf.modify (p := p) (f := fun x ↦
    { x.enqueue (getOrCreateParticipantObserver sid s p).2 (.raw s.raised.length) with
      disconnectedAt := some x.raised }) hpart.1 hpart.2 fun _ hcur ↦ Bool.noConfusion hcur.1
  exact ⟨hmod.sane, hmod.context, hmod.isOpen, hmod.registered, hmod.native, hmod.cached,
    hmod.tasks, hmod.parted, hmod.holder, hmod.reported⟩

/-- Recording who is in the native Room. -/
theorem typed_present {s : Room Sid} (existing : List Handle) (h : Typed sid s) :
    Typed sid { s with
      participant := fun p ↦
        if p ∈ existing then
          { s.participant p with
            presentAt := (s.participant p).presentAt.or (some (s.participant p).raised) }
        else s.participant p } := by
  have hrec : ∀ p, ∀ x', x' = (if p ∈ existing then
      { s.participant p with
        presentAt := (s.participant p).presentAt.or (some (s.participant p).raised) }
      else s.participant p) → x'.observers = (s.participant p).observers ∧
        x'.Sane ∧ (s.participant p).Grows x' := by
    rintro p x' rfl
    split
    · exact ⟨rfl, Participant.sane_record (h.sane p) rfl rfl rfl rfl id⟩
    · exact ⟨rfl, h.sane p, .refl _⟩
  refine h.grow (fun p ↦ (hrec p _ rfl).2.1) (fun p ↦ (hrec p _ rfl).2.2) rfl rfl rfl rfl ?_
    h.reported
  intro p hne hcur
  obtain ⟨ho, -, hg⟩ := hrec p _ rfl
  exact h.holder p (by rw [← ho]; exact hne) (hg.current hcur)

/-- Every step keeps the references of registry, caches and queue. -/
theorem typed_step {s s' : Room Sid} {a : RoomAct} (h : Typed sid s)
    (hs : step sid s a = some s') : Typed sid s' := by
  cases a with
  | onConnected existing =>
    cases hs
    exact typed_dispatchEvent (typed_present existing h) (by simp [RoomEvent.participant]) (by simp)
  | onParticipantConnected p =>
    obtain ⟨s₁, hm, rfl⟩ := Option.map_eq_some_iff.mp hs
    obtain ⟨ht, -, hh⟩ := typed_mention h hm
    refine typed_modify_same (typed_dispatchParticipantEvent ht hh rfl (by simp)) ?_ rfl
    exact Participant.sane_record ((typed_dispatchParticipantEvent ht hh rfl (by simp)).sane p)
      rfl rfl rfl rfl id
  | onParticipantDisconnected p =>
    obtain ⟨s₁, hm, rfl⟩ := Option.map_eq_some_iff.mp hs
    obtain ⟨ht, -, hh⟩ := typed_mention h hm
    exact typed_onParticipantDisconnected ht hh
  | onParticipantReconnecting p =>
    obtain ⟨s₁, hm, rfl⟩ := Option.map_eq_some_iff.mp hs
    obtain ⟨ht, -, hh⟩ := typed_mention h hm
    exact typed_dispatchParticipantEvent ht hh rfl (by simp)
  | onParticipantReconnected p =>
    obtain ⟨s₁, hm, rfl⟩ := Option.map_eq_some_iff.mp hs
    obtain ⟨ht, -, hh⟩ := typed_mention h hm
    exact typed_dispatchParticipantEvent ht hh rfl (by simp)
  | onDominantSpeakerChanged p =>
    cases p with
    | none =>
      cases hs
      exact typed_dispatchEvent h (by simp [RoomEvent.participant]) (by simp)
    | some p =>
      obtain ⟨s₁, hm, rfl⟩ := Option.map_eq_some_iff.mp hs
      obtain ⟨ht, -, hh⟩ := typed_mention h hm
      exact typed_dispatchParticipantEvent ht hh rfl (by simp)
  | onPlain event =>
    cases hs
    exact typed_dispatchEvent h (by simp [RoomEvent.participant]) (by simp)
  | onTrackEvent p =>
    cases hs
    have hr := Participant.sane_raised (h.sane p) (Participant.raised_cases (h.sane p).law)
    refine typed_modify_same h hr ?_
    cases ho : (s.participant p).observer <;> simp [Participant.raise, ho]
  | turn t participants => exact typed_turn h (drains hs)
  | participantTurn p j t => exact typed_participantTurn h (participantDrains h hs)
  | participants participants => exact typed_entries h hs
  | dominantSpeaker p =>
    cases p with
    | none =>
      cases hs
      exact h
    | some p =>
      obtain ⟨s₁, hm, rfl⟩ := Option.map_eq_some_iff.mp hs
      obtain ⟨ht, -, hh⟩ := typed_mention h hm
      obtain ⟨ht, ho⟩ := typed_observed ht hh (observed s₁ p)
      exact typed_hand ht ho cacheOf_same
  | collect p j =>
    simp only [step] at hs
    split at hs
    · cases hs
    · obtain ⟨x, hx, rfl⟩ := Option.map_eq_some_iff.mp hs
      have hd := Participant.destroyed (h.sane p).law.binding hx
      exact typed_modify_same h (Participant.sane_destroyWrap (h.sane p) hd) (by cases hd <;> simp)

/-- Registry, caches and queue refer to what they should in every reachable state. -/
theorem typed_of_reachable {s : Room Sid} (h : (machine sid).Reachable s) : Typed sid s :=
  h.invariant typed_init fun _ _ _ ht hs ↦ typed_step ht hs

end Room

end VideoNode.Remote
