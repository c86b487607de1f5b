import VideoNode.Remote.Wiring

/-!
# One observer, one wrap, one `RemoteParticipant`

What keeps a participant's events flowing: it has a single observer, which is installed, open and
registered, and the `RemoteParticipant` JS has cached under its SID is made on the wrap that this
observer is bound to. It holds as long as a wrap that is given to JS never meets a cached
`RemoteParticipant` of another native participant.
-/

namespace VideoNode.Remote

open VideoNode.Common VideoNode.Lts VideoNode.Js

namespace Room

variable {Sid : Type} [DecidableEq Sid] {sid : Handle → Sid}

/-- No other native participant reports this one's SID. -/
def Sole (sid : Handle → Sid) (p : Handle) : Prop := ∀ q, sid q = sid p → q = p

/-- A participant whose events JS still has to get: one that was reported, was not superseded and
is not gone, or whose SID is its own and whose `participantDisconnected` has not been delivered. -/
def Attending (sid : Handle → Sid) (s : Room Sid) (p : Handle) : Prop :=
  (s.participant p).observers ≠ [] ∧ (s.participant p).superseded = false ∧
    ((s.participant p).gone = false ∨
      (Sole sid p ∧ ∀ t ∈ s.context.started, t.event ≠ .participantDisconnected p))

/-- A participant has one observer, installed, open and registered. Until that is bound the
participant has no wrap, and no event has handed it to JS; once it is, JS has cached the
`RemoteParticipant` made on the bound wrap, which has an event callback. -/
structure Coherent (sid : Handle → Sid) (s : Room Sid) (p : Handle) (ob : Observer) : Prop where
  observers : (s.participant p).observers = [ob]
  isOpen : ob.closed = false
  observer : (s.participant p).observer = some 0
  registered : (s.participant p).gone = false →
    s.participantObservers.get (sid p) = some (p, 0)
  unbound : ob.wrap = none → (s.participant p).wraps = [] ∧
    ∀ t ∈ s.context.started, t.event.participant ≠ some p
  bound : ∀ j, ob.wrap = some j → s.remoteParticipantCache.get (sid p) = some (p, j) ∧
    ∃ w : Wrap, (s.participant p).wraps[j]? = some w ∧ w.eventCallback = true

/-- A coherent participant has one observer. -/
theorem Coherent.only {s : Room Sid} {p : Handle} {ob ob' : Observer} {o : Nat}
    (h : Coherent sid s p ob) (hob : (s.participant p).observers[o]? = some ob') : ob' = ob := by
  rw [h.observers] at hob
  have ho : o = 0 := by
    have hlt := (List.getElem?_eq_some_iff.mp hob).1
    simpa using hlt
  subst ho
  exact (Option.some.inj hob).symm

private theorem Coherent.of_participant {s s' : Room Sid} {p : Handle} {ob : Observer}
    (h : Coherent sid s p ob) (he : s'.participant p = s.participant p)
    (hr : s'.participantObservers.get (sid p) = s.participantObservers.get (sid p))
    (hst : ob.wrap = none → ∀ t ∈ s'.context.started, t.event.participant ≠ some p)
    (hc : ∀ j, ob.wrap = some j → s'.remoteParticipantCache.get (sid p) = some (p, j)) :
    Coherent sid s' p ob := by
  refine ⟨?_, h.isOpen, ?_, ?_, fun hn ↦ ⟨?_, hst hn⟩, fun j hj ↦ ⟨hc j hj, ?_⟩⟩ <;> rw [he]
  · exact h.observers
  · exact h.observer
  · rw [hr]
    exact h.registered
  · exact (h.unbound hn).1
  · exact (h.bound j hj).2

/-- A participant that is attended to is coherent. -/
def Attended (sid : Handle → Sid) (s : Room Sid) (p : Handle) : Prop :=
  Attending sid s p → ∃ ob, Coherent sid s p ob

/-- JS has no `RemoteParticipant` of another native participant under this one's SID. -/
def Fresh (sid : Handle → Sid) (s : Room Sid) (p : Handle) : Prop :=
  ∀ q j, s.remoteParticipantCache.get (sid p) = some (q, j) → q = p

/-- What a participant needs when a wrap of `q` is given to JS: if they share a SID, they share it
with nobody else, or JS has nothing stale. -/
def FreshFor (sid : Handle → Sid) (p : Handle) (s : Room Sid) (q : Handle) : Prop :=
  sid q = sid p → Sole sid p ∨ Fresh sid s q

private theorem attended_congr {s s' : Room Sid} {p : Handle} (h : Attended sid s p)
    (hobs : (s'.participant p).observers = (s.participant p).observers)
    (hob : (s'.participant p).observer = (s.participant p).observer)
    (hw : (s'.participant p).wraps = (s.participant p).wraps)
    (hsup : (s'.participant p).superseded = false → (s.participant p).superseded = false)
    (hg : (s'.participant p).gone = false → (s.participant p).gone = false)
    (hr : s'.participantObservers.get (sid p) = s.participantObservers.get (sid p))
    (hc : s'.remoteParticipantCache.get (sid p) = s.remoteParticipantCache.get (sid p))
    (hst : s'.context.started = s.context.started) : Attended sid s' p := by
  rintro ⟨hne, hs, hat⟩
  have hat' : Attending sid s p := by
    refine ⟨hobs ▸ hne, hsup hs, ?_⟩
    rw [hst] at hat
    exact hat.imp hg id
  obtain ⟨ob, hco⟩ := h hat'
  refine ⟨ob, hobs.trans hco.observers, hco.isOpen, hob.trans hco.observer, ?_, ?_, ?_⟩
  · intro hgone
    rw [hr]
    exact hco.registered (hg hgone)
  · intro hn
    rw [hw, hst]
    exact hco.unbound hn
  · intro j hj
    rw [hc, hw]
    exact hco.bound j hj

private theorem attended_mention {s s' : Room Sid} {p q : Handle} (h : Attended sid s p)
    (hm : mention sid s q = some s') : Attended sid s' p := by
  obtain ⟨-, hm⟩ := mentioned hm
  cases hm with
  | again hh => exact h
  | first hh => exact attended_congr h rfl rfl rfl id id rfl rfl rfl
  | @supersedes r hh hr =>
    by_cases hp : p = r
    · subst hp
      refine attended_congr h ?_ ?_ ?_ ?_ ?_ rfl rfl rfl <;> simp [Participant.gone]
    · have he := participant_modify_of_ne s (fun x ↦ { x with superseded := true }) hp
      refine attended_congr h ?_ ?_ ?_ ?_ ?_ rfl rfl rfl <;> simp [he]

private theorem not_attending_of_holder {s : Room Sid} {p q : Handle} (ht : Typed sid s)
    (hh : s.holder (sid q) = some q) (hs : sid p = sid q) (hne : p ≠ q) : ¬ Attending sid s p := by
  rintro ⟨hobs, hsup, hg | ⟨hsole, -⟩⟩
  · have hp := ht.holder p hobs ⟨hg, hsup⟩
    rw [hs, hh] at hp
    cases hp
    exact hne rfl
  · exact hne (hsole q hs.symm).symm

private theorem attended_observed {s : Room Sid} {p q : Handle} {r : Room Sid × Nat}
    (h : Attended sid s p) (ht : Typed sid s) (hg : (s.participant q).gone = false)
    (hh : s.holder (sid q) = some q) (hr : Observed sid s q r) : Attended sid r.1 p := by
  have ht' := (typed_observed ht hh hr).1
  cases hr with
  | registered hr ho => exact h
  | @installed m hr hm =>
    by_cases hp : p = q
    · subst hp
      rintro ⟨-, hsup, -⟩
      have hsup : (s.participant p).superseded = false := by
        simpa [Participant.createObserver] using hsup
      have hnone : (s.participant p).observers = [] := by
        by_cases hne : (s.participant p).observers = []
        · exact hne
        · obtain ⟨ob, hco⟩ := h ⟨hne, hsup, .inl hg⟩
          have hcl := hr 0 (hco.registered hg)
          simp [Participant.isObserverClosed, hco.observers, hco.isOpen] at hcl
      refine ⟨⟨false, none, [], []⟩, ?_, rfl, ?_, ?_, ?_, ?_⟩
      · simp [Participant.createObserver, hnone]
      · simp [Participant.createObserver, hnone]
      · intro _
        simp [hm, hnone]
      · intro _
        refine ⟨by simp [Participant.createObserver, (ht.sane p).wrapless hnone], ?_⟩
        intro t hts hp
        have hta : t ∈ s.context.accepted := ((Traffic.lawful ht.context).pre rfl).subset hts
        obtain ⟨o, -, hlt⟩ := ht.tasks t hta p hp
        simp [hnone] at hlt
      · intro j hj
        cases hj
    · by_cases hs : sid p = sid q
      · intro hat
        exact absurd hat (not_attending_of_holder ht' hh hs hp)
      · have he := participant_modify_of_ne s Participant.createObserver hp
        refine attended_congr h ?_ ?_ ?_ ?_ ?_ ?_ rfl rfl <;> simp [he, hm, hs]

private theorem attended_wrapped_of_ne {s s' : Room Sid} {p : Handle} {native : Handle × Nat}
    (h : Attended sid s p) (hne : p ≠ native.1) (hw : Wrapped sid s native s') :
    Attended sid s' p := by
  cases hw with
  | found hr => exact h
  | made hr =>
    have he := participant_modify_of_ne s (fun x ↦ x.setEventCallback native.2) hne
    by_cases hs : sid p = sid native.1
    · -- Nothing was cached under the SID, so the participant is not bound.
      rintro ⟨hobs, hat⟩
      have hat' : Attending sid s p := by
        refine ⟨by rw [← he]; exact hobs, ?_⟩
        rw [← he]
        exact hat
      obtain ⟨ob, hco⟩ := h hat'
      refine ⟨ob, hco.of_participant he rfl (fun hn ↦ (hco.unbound hn).2) fun j hj ↦ ?_⟩
      have hb := (hco.bound j hj).1
      rw [hs, hr] at hb
      cases hb
    · refine attended_congr h ?_ ?_ ?_ ?_ ?_ rfl ?_ rfl <;> simp [he, JsMap.get_set, hs]

private theorem wrapped_frame {s s' : Room Sid} {native : Handle × Nat}
    (hw : Wrapped sid s native s') :
    (∀ p, (s'.participant p).observers = (s.participant p).observers ∧
      (s'.participant p).observer = (s.participant p).observer ∧
      (s'.participant p).superseded = (s.participant p).superseded ∧
      (s'.participant p).gone = (s.participant p).gone) ∧
    s'.context = s.context ∧ s'.participantObservers = s.participantObservers := by
  cases hw with
  | found hr => exact ⟨fun _ ↦ ⟨rfl, rfl, rfl, rfl⟩, rfl, rfl⟩
  | made hr =>
    refine ⟨fun p ↦ ?_, rfl, rfl⟩
    by_cases hp : p = native.1
    · subst hp
      simp [Participant.setEventCallback, Participant.gone]
    · have he := participant_modify_of_ne s (fun x ↦ x.setEventCallback native.2) hp
      simp [he]

private theorem attended_hand_self {s s₁ s' : Room Sid} {p : Handle} {o : Nat} {x : Participant}
    {l : List Task} (h : Attended sid s p) (ht : Typed sid s)
    (ho : o < (s.participant p).observers.length) (hf : Sole sid p ∨ Fresh sid s p)
    (hi : Participant.Instanced (s.participant p) o x) (hx : s₁.participant p = x)
    (hreg : s₁.participantObservers = s.participantObservers)
    (hcache : s₁.remoteParticipantCache = s.remoteParticipantCache)
    (hst : s₁.context.started = s.context.started ++ l)
    (hw : Wrapped sid s₁ (p, (s.participant p).wraps.length) s') : Attended sid s' p := by
  rintro ⟨-, hs, hat⟩
  obtain ⟨hpart, hctx, hreg'⟩ := wrapped_frame hw
  obtain ⟨hobs, hob, hsup, hgone⟩ := hpart p
  rw [hx] at hobs hob hsup hgone
  have hkeep : x.observers.length = (s.participant p).observers.length ∧
      x.gone = (s.participant p).gone ∧ x.observer = (s.participant p).observer ∧
      x.superseded = (s.participant p).superseded := by
    cases hi <;> simp [Participant.gone]
  -- The participant was attended to before, and its observer is the one captured.
  have hat' : Attending sid s p := by
    refine ⟨fun hn ↦ by simp [hn] at ho, hkeep.2.2.2.symm.trans (hsup.symm.trans hs), ?_⟩
    rw [hgone, hkeep.2.1, hctx, hst] at hat
    exact hat.imp id fun hsole ↦ ⟨hsole.1, fun t hts ↦ hsole.2 t (List.mem_append_left _ hts)⟩
  obtain ⟨ob, hco⟩ := h hat'
  obtain rfl : o = 0 := by
    rw [hco.observers] at ho
    simpa using ho
  have hobsv : (s'.participant p).observer = some 0 := by
    rw [hob, hkeep.2.2.1]
    exact hco.observer
  have hregd : (s'.participant p).gone = false →
      s'.participantObservers.get (sid p) = some (p, 0) := by
    intro hg
    rw [hreg', hreg]
    exact hco.registered (by rw [← hkeep.2.1, ← hgone]; exact hg)
  cases hi with
  | unbound hun =>
    -- Bound already: JS has the `RemoteParticipant` and leaves the new wrap alone.
    have hb : ob.wrap ≠ none := hun ob (by simp [hco.observers]) hco.isOpen
    refine ⟨ob, hobs.trans hco.observers, hco.isOpen, hobsv, hregd, fun hn ↦ absurd hn hb, ?_⟩
    intro j hj
    obtain ⟨hc, w, hwj, hcb⟩ := hco.bound j hj
    cases hw with
    | found hr =>
      refine ⟨hcache ▸ hc, w, ?_, hcb⟩
      rw [hx, List.getElem?_append_left (List.getElem?_eq_some_iff.mp hwj).1]
      exact hwj
    | made hr =>
      rw [hcache, hc] at hr
      cases hr
  | @bound ob' c hob' hcl hwr hs ha hst' hcl' =>
    rw [hco.observers] at hob'
    cases hob'
    obtain ⟨hnw, -⟩ := hco.unbound hwr
    cases hw with
    | @found r hr =>
      -- Nothing can be cached: it would be a wrap of this participant, which has none.
      rw [hcache] at hr
      obtain ⟨q, j⟩ := r
      obtain ⟨hsq, hlt⟩ := ht.cached _ _ _ hr
      obtain rfl : q = p := hf.elim (fun hsole ↦ hsole q hsq) fun hfr ↦ hfr q j hr
      simp [hnw] at hlt
    | made hr =>
      refine ⟨{ ob with wrap := some (s.participant p).wraps.length, pending := [] }, ?_,
        hco.isOpen, hobsv, hregd, by simp, ?_⟩
      · rw [hobs, hco.observers]
        rfl
      · intro j hj
        cases hj
        refine ⟨by simp [JsMap.get_set], ⟨0, true, true, c, []⟩, ?_, rfl⟩
        simp [Participant.setEventCallback, hx, hnw]

-- Making a wrap of a participant and giving it to JS, after a callback of the Room's queue that
-- hands over this very participant, if any.
private theorem attended_hand {s : Room Sid} {p q : Handle} {o : Nat} {c : Traffic Task}
    {m : JsMap Sid (Handle × Nat)} (h : Attended sid s p) (ht : Typed sid s)
    (ho : o < (s.participant q).observers.length) (hf : FreshFor sid p s q) {l : List Task}
    (hst : c.started = s.context.started ++ l) (hl : ∀ t ∈ l, t.event.participant = some q) :
    Attended sid (hand sid { s with context := c } q o m) p := by
  by_cases hp : p = q
  · subst hp
    have hw : Wrapped sid { (newInstance { s with context := c } p o).1 with participantCache := m }
        (p, (s.participant p).wraps.length) (hand sid { s with context := c } p o m) := wrapped _ _
    refine attended_hand_self h ht ho (hf rfl) (Participant.instanced _ o) ?_ ?_ ?_ hst hw
    · exact participant_modify_self { s with context := c } p fun x ↦ x.newInstance o
    · rfl
    · rfl
  · have he : (newInstance { s with context := c } q o).1.participant p = s.participant p :=
      participant_modify_of_ne { s with context := c } (fun x ↦ x.newInstance o) hp
    refine attended_wrapped_of_ne ?_ hp (wrapped _ _)
    rintro ⟨hobs, hsup, hat⟩
    have hat' : Attending sid s p := by
      refine ⟨by rw [← he]; exact hobs, by rw [← he]; exact hsup, ?_⟩
      have hat : (s.participant p).gone = false ∨
          (Sole sid p ∧ ∀ t ∈ c.started, t.event ≠ .participantDisconnected p) := he ▸ hat
      refine hat.imp id fun hsole ↦ ⟨hsole.1, fun t hts ↦ hsole.2 t ?_⟩
      exact hst ▸ List.mem_append_left _ hts
    obtain ⟨ob, hco⟩ := h hat'
    refine ⟨ob, hco.of_participant he rfl (fun hn t hts ↦ ?_) fun j hj ↦ (hco.bound j hj).1⟩
    have hts : t ∈ c.started := hts
    rw [hst, List.mem_append] at hts
    rcases hts with hts | hts
    · exact (hco.unbound hn).2 t hts
    · rw [hl t hts]
      simpa using Ne.symm hp

private theorem attended_cached {s s' : Room Sid} {p : Handle} {k : Sid} {native : Handle × Nat}
    (h : Attended sid s p) (ht : Typed sid s) (hn : s.participantCache.get k = some native)
    (hw : Wrapped sid s native s') : Attended sid s' p := by
  by_cases hp : p = native.1
  · subst hp
    cases hw with
    | found hr => exact h
    | made hr =>
      rintro ⟨hobs, hat⟩
      have hat' : Attending sid s native.1 := by
        simpa [Attending, Participant.setEventCallback, Participant.gone, Room.modify] using
          And.intro hobs hat
      obtain ⟨ob, hco⟩ := h hat'
      cases hwr : ob.wrap with
      | none =>
        have hlt := (ht.native k _ _ hn).2
        simp [(hco.unbound hwr).1] at hlt
      | some j =>
        have hc := (hco.bound j hwr).1
        rw [hr] at hc
        cases hc
  · exact attended_wrapped_of_ne h hp hw

private theorem attended_read {s s' : Room Sid} {p q : Handle} (h : Attended sid s p)
    (ht : Typed sid s) (hf : FreshFor sid p s q) (hr : Read sid s q s') : Attended sid s' p := by
  cases hr with
  | cached hm hc hw =>
    exact attended_cached (attended_mention h hm) (typed_mention ht hm).1 hc hw
  | @made s₁ r hm hc hr =>
    obtain ⟨ht₁, hg, hh⟩ := typed_mention ht hm
    obtain ⟨ht₂, ho⟩ := typed_observed ht₁ hh hr
    have ha := attended_observed (attended_mention h hm) ht₁ hg hh hr
    have hrc : r.1.remoteParticipantCache = s.remoteParticipantCache :=
      (observed_frame hr).2.1.trans (mention_frame hm).2.1
    have hf' : FreshFor sid p r.1 q := by
      intro he
      refine (hf he).imp id fun hfr q' j hq ↦ hfr q' j ?_
      rwa [hrc] at hq
    exact attended_hand ha ht₂ ho hf' (c := r.1.context) (l := []) (by simp) (by simp)

private theorem attended_readDominantSpeaker {s s' : Room Sid} {p q : Handle}
    (h : Attended sid s p) (ht : Typed sid s) (hf : FreshFor sid p s q)
    (hr : readDominantSpeaker sid s q = some s') : Attended sid s' p := by
  obtain ⟨s₁, hm, rfl⟩ := Option.map_eq_some_iff.mp hr
  obtain ⟨ht₁, hg, hh⟩ := typed_mention ht hm
  obtain ⟨ht₂, ho⟩ := typed_observed ht₁ hh (observed s₁ q)
  have ha := attended_observed (attended_mention h hm) ht₁ hg hh (observed s₁ q)
  have hrc : (getOrCreateParticipantObserver sid s₁ q).1.remoteParticipantCache =
      s.remoteParticipantCache :=
    (observed_frame (observed s₁ q)).2.1.trans (mention_frame hm).2.1
  have hf' : FreshFor sid p (getOrCreateParticipantObserver sid s₁ q).1 q := by
    intro he
    refine (hf he).imp id fun hfr q' j hq ↦ hfr q' j ?_
    rwa [hrc] at hq
  exact attended_hand ha ht₂ ho hf' (c := (getOrCreateParticipantObserver sid s₁ q).1.context)
    (l := []) (by simp) (by simp)

private theorem attended_entries {s s' : Room Sid} {p : Handle} {l : List Handle}
    (h : Attended sid s p) (ht : Typed sid s)
    (hf : (entries sid).Along (FreshFor sid p) s l) (hx : (entries sid).exec s l = some s') :
    Attended sid s' p := by
  have hb : Attended sid s' p ∧ Typed sid s' := by
    refine Machine.exec_invariant_along (m := entries sid) (c := FreshFor sid p)
      (p := fun s ↦ Attended sid s p ∧ Typed sid s) ?_ ⟨h, ht⟩ hf hx
    rintro s q t ⟨ha, ht⟩ hfr hs
    have hr := readParticipant_cases hs
    exact ⟨attended_read ha ht hfr hr, typed_read ht hr⟩
  exact hb.1

/-- What the wraps given to JS in one step have to meet. -/
def Admits (c : Room Sid → Handle → Prop) (sid : Handle → Sid) (s : Room Sid) : RoomAct → Prop
  | .turn t participants =>
    ∀ task, s.context.loop.started t = some task →
      (task.event = .connected → ∀ context, s.context.step (.turn t) = some context →
        (entries sid).Along c { s with context := context } participants) ∧
      ∀ q, task.event.participant = some q → c s q
  | .participants participants => (entries sid).Along c s participants
  | .dominantSpeaker (some q) => c s q
  | _ => True

/-- What every wrap meets, the wraps given to JS meet. -/
theorem admits_of_forall {c : Room Sid → Handle → Prop} (hc : ∀ s q, c s q) {s : Room Sid}
    {a : RoomAct} : Admits c sid s a := by
  have hall : ∀ (s : Room Sid) (l : List Handle), (entries sid).Along c s l := by
    intro s l
    induction l generalizing s with
    | nil => exact True.intro
    | cons q l ih => exact ⟨hc s q, fun t _ ↦ ih t⟩
  cases a with
  | turn t participants => exact fun _ _ ↦ ⟨fun _ _ _ ↦ hall _ _, fun _ _ ↦ hc _ _⟩
  | participants participants => exact hall s participants
  | dominantSpeaker q =>
    cases q with
    | none => exact True.intro
    | some q => exact hc s q
  | _ => exact True.intro

/-- While JS handles the last event of a participant, it has not cached another participant's
`RemoteParticipant` for the one it is about to remove. -/
def RemovesOwn (sid : Handle → Sid) (s : Room Sid) (p : Handle) : Prop :=
  ∀ task rest q j, s.context.loop.drain = .calling task rest →
    task.event = .participantDisconnected q →
    s.remoteParticipantCache.get (sid q) = some (p, j) → q = p

private theorem parting_ne {s : Room Sid} {p : Handle} {task : Task} (ht : Typed sid s)
    (hat : Attending sid s p) (hs : task ∈ s.context.started) :
    task.event ≠ .participantDisconnected p := by
  intro he
  rcases hat.2.2 with hg | ⟨-, hno⟩
  · have hg' := ht.parted task (((Traffic.lawful ht.context).pre rfl).subset hs) p he
    rw [hg] at hg'
    cases hg'
  · exact hno task hs he

private theorem attended_turn {s s' : Room Sid} {p : Handle} {t : Turn} {l : List Handle}
    (h : Attended sid s p) (ht : Typed sid s) (hf : Admits (FreshFor sid p) sid s (.turn t l))
    (hr : RemovesOwn sid s p) (hd : Drains sid s t l s') : Attended sid s' p := by
  cases hd with
  | @starts c task s' hc hst hd =>
    obtain ⟨-, hstc, -, -⟩ := Traffic.step_turn hc
    have hstc : c.started = s.context.started ++ [task] := by rw [hstc, hst]; rfl
    obtain ⟨hseed, hhand⟩ := hf task hst
    -- A callback that hands nobody over leaves the participants as they are.
    have hquiet : task.event.participant ≠ some p →
        Attended sid { s with context := c } p := by
      rintro hne ⟨hobs, hsup, hat⟩
      have hat' : Attending sid s p := by
        refine ⟨hobs, hsup, hat.imp id fun hsole ↦ ⟨hsole.1, fun u hu ↦ hsole.2 u ?_⟩⟩
        exact hstc ▸ List.mem_append_left _ hu
      obtain ⟨ob, hco⟩ := h hat'
      refine ⟨ob, hco.of_participant rfl rfl (fun hn u hu ↦ ?_) fun j hj ↦ (hco.bound j hj).1⟩
      have hu : u ∈ c.started := hu
      rw [hstc, List.mem_append, List.mem_singleton] at hu
      rcases hu with hu | rfl
      · exact (hco.unbound hn).2 u hu
      · exact hne
    cases hd with
    | seeded he hx =>
      refine attended_entries (hquiet ?_) (typed_context ht hc) (hseed he c hc) hx
      rw [he]
      simp [RoomEvent.participant]
    | @handed q o m hp ho hm =>
      obtain ⟨o', ho', hlt⟩ := ht.tasks task (ht.accepted_of_started hc hst) q hp
      rw [ho] at ho'
      cases ho'
      exact attended_hand h ht hlt (hhand q hp) hstc (by simp [hp])
    | ignored hp =>
      refine hquiet fun hpp ↦ ?_
      obtain ⟨o, ho, -⟩ := ht.tasks task (ht.accepted_of_started hc hst) p hpp
      exact hp p o hpp ho
  | @ends c task rest hc hst hd =>
    obtain ⟨-, hstc, -, -⟩ := Traffic.step_turn hc
    have hstc : c.started = s.context.started := by rw [hstc, hst]; simp
    have hbase : Attended sid { s with context := c } p :=
      attended_congr h rfl rfl rfl id id rfl rfl hstc
    unfold afterEmit
    split
    · next q he =>
      by_cases hs : sid p = sid q
      · -- Another participant that was under the SID is removed from the cache.
        rintro ⟨hobs, hat⟩
        have hat : Attending sid { s with context := c } p := ⟨hobs, hat⟩
        have hqp : q ≠ p := by
          rintro rfl
          refine parting_ne (typed_context ht hc) hat ?_ he
          exact hstc ▸ Traffic.calling_mem_started ht.context hd
        obtain ⟨ob, hco⟩ := hbase hat
        refine ⟨ob, hco.of_participant rfl rfl (fun hn ↦ (hco.unbound hn).2) fun j hj ↦ ?_⟩
        exact absurd (hr task rest q j hd he (hs ▸ (hco.bound j hj).1)) hqp
      · exact attended_congr hbase rfl rfl rfl id id rfl (by simp [JsMap.get_delete, hs]) rfl
    · exact hbase
  | @moves c hc hst =>
    obtain ⟨-, hstc, -, -⟩ := Traffic.step_turn hc
    exact attended_congr h rfl rfl rfl id id rfl rfl (by simp [hstc, hst])

private theorem coherent_of_update {s s' : Room Sid} {p : Handle} {ob ob' : Observer}
    {x : Participant} (h : Coherent sid s p ob) (hp : s'.participant p = x)
    (hobs : x.observers = [ob']) (hcl : ob'.closed = false) (hwr : ob'.wrap = ob.wrap)
    (hob : x.observer = some 0)
    (hreg : x.gone = false → s'.participantObservers.get (sid p) = some (p, 0))
    (hun : ob.wrap = none → x.wraps = [])
    (hb : ∀ j, ob.wrap = some j → ∃ w : Wrap, x.wraps[j]? = some w ∧ w.eventCallback = true)
    (hst : s'.context.started = s.context.started)
    (hrec : s'.remoteParticipantCache = s.remoteParticipantCache) : Coherent sid s' p ob' := by
  subst hp
  refine ⟨hobs, hcl, hob, hreg, ?_, ?_⟩
  · intro hn
    rw [hst]
    exact ⟨hun (hwr ▸ hn), (h.unbound (hwr ▸ hn)).2⟩
  · intro j hj
    rw [hrec]
    exact ⟨(h.bound j (hwr ▸ hj)).1, hb j (hwr ▸ hj)⟩

private theorem attended_modify {s : Room Sid} {p q : Handle} {x : Participant}
    (h : Attended sid s p)
    (hne : x.observers ≠ [] → (s.participant q).observers ≠ [])
    (hsup : x.superseded = false → (s.participant q).superseded = false)
    (hg : x.gone = false → (s.participant q).gone = false)
    (hx : ∀ ob, p = q → Coherent sid s q ob → ∃ ob' : Observer, x.observers = [ob'] ∧
      ob'.closed = false ∧ ob'.wrap = ob.wrap ∧ x.observer = some 0 ∧
      (ob.wrap = none → x.wraps = []) ∧ (∀ j, ob.wrap = some j →
        ∃ w : Wrap, x.wraps[j]? = some w ∧ w.eventCallback = true)) :
    Attended sid (s.modify q fun _ ↦ x) p := by
  by_cases hp : p = q
  · subst hp
    rintro ⟨hobs, hs, hat⟩
    rw [participant_modify_self] at hobs hs hat
    obtain ⟨ob, hco⟩ := h ⟨hne hobs, hsup hs, hat.imp hg id⟩
    obtain ⟨ob', hobs', hcl, hwr, hob, hun, hb⟩ := hx ob rfl hco
    exact ⟨ob', coherent_of_update hco (participant_modify_self _ _ _) hobs' hcl hwr hob
      (fun hgone ↦ hco.registered (hg hgone)) hun hb rfl rfl⟩
  · have he := participant_modify_of_ne s (fun _ ↦ x) hp
    refine attended_congr h ?_ ?_ ?_ ?_ ?_ rfl rfl rfl <;> simp [he]

private theorem attended_dispatch {s : Room Sid} {p : Handle} (task : Task) (h : Attended sid s p)
    (ht : Typed sid s) : Attended sid (s.dispatch task) p := by
  obtain ⟨c, he, -, -, hst, -, -⟩ := dispatch_eq ht.context ht.isOpen task
  rw [he]
  exact attended_congr h rfl rfl rfl id id rfl rfl hst

private theorem enqueued_coherent {s : Room Sid} {q : Handle} {ob : Observer} {x x' : Participant}
    {event : PendingEvent} (hco : Coherent sid s q ob)
    (hobs : x.observers = (s.participant q).observers)
    (hob : x.observer = (s.participant q).observer) (hw : x.wraps = (s.participant q).wraps)
    (he : Participant.Enqueued x 0 event x') : ∃ ob' : Observer, x'.observers = [ob'] ∧
      ob'.closed = false ∧ ob'.wrap = ob.wrap ∧ x'.observer = some 0 ∧
      (ob.wrap = none → x'.wraps = []) ∧ (∀ j, ob.wrap = some j →
        ∃ w : Wrap, x'.wraps[j]? = some w ∧ w.eventCallback = true) ∧
      ob'.accepted = ob.accepted ++ [event] := by
  have hone : x.observers[0]? = some ob := by rw [hobs, hco.observers]; rfl
  have hset : ∀ ob' : Observer, x.observers.set 0 ob' = [ob'] := by
    intro ob'
    rw [hobs, hco.observers]
    rfl
  have hwraps : ob.wrap = none → x.wraps = [] := fun hn ↦ hw ▸ (hco.unbound hn).1
  have hbound : ∀ j, ob.wrap = some j → ∃ w : Wrap, x.wraps[j]? = some w ∧
      w.eventCallback = true := fun j hj ↦ hw ▸ (hco.bound j hj).2
  cases he with
  | refused hc => simp [Participant.isObserverClosed, hone, hco.isOpen] at hc
  | @buffered ob' hob' hc hwr =>
    rw [hone] at hob'
    cases hob'
    exact ⟨_, hset _, hco.isOpen, rfl, hob.trans hco.observer, hwraps, hbound, rfl⟩
  | @queued ob' j w c hob' hc hwr hwj ho hown hs ha hst hcl =>
    rw [hone] at hob'
    cases hob'
    refine ⟨_, hset _, hco.isOpen, rfl, hob.trans hco.observer, ?_, ?_, rfl⟩
    · intro hn
      rw [hwr] at hn
      cases hn
    · intro j' hj'
      obtain ⟨w', hw', hcb⟩ := hbound j' hj'
      rw [hwr] at hj'
      cases hj'
      rw [hwj] at hw'
      cases hw'
      exact ⟨{ w with context := c }, Parties.getElem?_set_self hwj, hcb⟩

private theorem attended_participantTurn {s s' : Room Sid} {p q : Handle} {j : Nat} {t : Turn}
    (h : Attended sid s p) (ht : Typed sid s) (hd : ParticipantDrains s q j t s') :
    Attended sid s' p := by
  have key : ∀ {x : Participant} {hop : Option (Nat × Nat)},
      Participant.Turned (s.participant q) j t x hop →
      Attended sid (s.modify q fun _ ↦ x) p ∧ Typed sid (s.modify q fun _ ↦ x) := by
    intro x hop hx
    obtain ⟨w, w', hw, rfl, hcb⟩ : ∃ w w' : Wrap, (s.participant q).wraps[j]? = some w ∧
        x = { s.participant q with wraps := (s.participant q).wraps.set j w' } ∧
        w'.eventCallback = w.eventCallback := by
      cases hx with
      | quiet hw hc hst => exact ⟨_, _, hw, rfl, rfl⟩
      | event hw hc hst => exact ⟨_, _, hw, rfl, rfl⟩
      | hop hw hc hst => exact ⟨_, _, hw, rfl, rfl⟩
    refine ⟨attended_modify h id id id ?_, typed_turned ht hx⟩
    intro ob hp hco
    refine ⟨ob, hco.observers, hco.isOpen, rfl, hco.observer, ?_, ?_⟩
    · intro hn
      simp [(hco.unbound hn).1]
    · intro i hi
      obtain ⟨v, hv, hvcb⟩ := (hco.bound i hi).2
      by_cases hij : i = j
      · subst hij
        rw [hw] at hv
        cases hv
        exact ⟨w', Parties.getElem?_set_self hw, hcb.trans hvcb⟩
      · exact ⟨v, by rw [List.getElem?_set_ne (Ne.symm hij)]; exact hv, hvcb⟩
  cases hd with
  | quiet hx => exact (key hx).1
  | hops hx => exact attended_dispatch _ (key hx).1 (key hx).2

private theorem attended_collect {s : Room Sid} {p q : Handle} {j : Nat} {x : Participant}
    (h : Attended sid s p) (ht : Typed sid s)
    (hn : s.remoteParticipantCache.get (sid q) ≠ some (q, j))
    (hd : Participant.Destroyed (s.participant q) j x) :
    Attended sid (s.modify q fun _ ↦ x) p := by
  cases hd with
  | @other w c hw hc hown =>
    refine attended_modify h id id id ?_
    intro ob hp hco
    refine ⟨ob, hco.observers, hco.isOpen, rfl, hco.observer, ?_, ?_⟩
    · intro hnone
      simp [(hco.unbound hnone).1]
    · intro i hi
      obtain ⟨hc, v, hv, hvcb⟩ := hco.bound i hi
      have hij : i ≠ j := by
        rintro rfl
        exact hn hc
      exact ⟨v, by rw [List.getElem?_set_ne (Ne.symm hij)]; exact hv, hvcb⟩
  | @owner w c ob₀ ob₁ hw hc hown hob hcl hwr ha =>
    refine attended_modify h ?_ id id ?_
    · intro hne hnil
      simp [hnil] at hne
    · intro ob hp hco
      -- The owner of an open observer's binding is what JS has cached.
      obtain ⟨ob', hob', -, hb⟩ := (ht.sane q).law.owned j w hw hown
      obtain rfl := hco.only hob'
      have hbj : ob'.wrap = some j := hb.resolve_right (by simp [hco.isOpen])
      exact absurd (hco.bound j hbj).1 hn

private theorem attended_raise {s : Room Sid} {p : Handle} (q : Handle) (h : Attended sid s p)
    (ht : Typed sid s) : Attended sid (s.modify q Participant.raise) p := by
  have he : s.modify q Participant.raise = s.modify q fun _ ↦ (s.participant q).raise := rfl
  rw [he]
  have hlen : (s.participant q).raise.observers.length = (s.participant q).observers.length ∧
      (s.participant q).raise.superseded = (s.participant q).superseded ∧
      (s.participant q).raise.gone = (s.participant q).gone := by
    cases ho : (s.participant q).observer with
    | none => simp [Participant.raise, ho, Participant.gone]
    | some o =>
      simp only [Participant.raise, ho, Participant.length_observers_enqueue,
        Participant.superseded_enqueue, Participant.gone_enqueue, true_and]
      rfl
  refine attended_modify h ?_ ?_ ?_ ?_
  · intro hne hnil
    rw [hnil, List.length_nil, List.length_eq_zero_iff] at hlen
    exact hne hlen.1
  · intro hsup
    rw [← hlen.2.1]
    exact hsup
  · intro hg
    rw [← hlen.2.2]
    exact hg
  · intro ob hp hco
    let y : Participant := { s.participant q with
      raised := (s.participant q).raised + 1
      heard := (s.participant q).heard ++ [(s.participant q).raised] }
    have hr : (s.participant q).raise = y.enqueue 0 (.event (s.participant q).raised) := by
      simp [Participant.raise, hco.observer, y]
    obtain ⟨hy, -⟩ : y.Sane ∧ (s.participant q).Grows y :=
      Participant.sane_record (ht.sane q) rfl rfl rfl rfl id
    obtain ⟨ob', hobs, hcl, hwr, hob, hun, hb, -⟩ := enqueued_coherent (x := y) hco rfl rfl rfl
      (Participant.enqueued hy.law.binding 0 (.event (s.participant q).raised))
    rw [hr]
    exact ⟨ob', hobs, hcl, hwr, hob, hun, hb⟩

private theorem attended_dispatchEvent {s : Room Sid} {p : Handle} {event : RoomEvent}
    {o : Option Nat} (h : Attended sid s p) (ht : Typed sid s) :
    Attended sid (s.dispatchEvent event o) p :=
  attended_congr (attended_dispatch ⟨s.raised.length, event, o⟩ h ht) rfl rfl rfl id id rfl
    rfl rfl

private theorem attended_dispatchParticipantEvent {s s' : Room Sid} {p q : Handle}
    {event : RoomEvent} (h : Attended sid s p) (ht : Typed sid s)
    (hm : mention sid s q = some s') :
    Attended sid (dispatchParticipantEvent sid s' q event) p := by
  obtain ⟨ht', hg, hh⟩ := typed_mention ht hm
  have ha := attended_observed (attended_mention h hm) ht' hg hh (observed s' q)
  exact attended_dispatchEvent ha (typed_observed ht' hh (observed s' q)).1

/-- The observer of a participant that was just reported is its first and only one. -/
theorem observed_zero {s : Room Sid} {p : Handle} {r : Room Sid × Nat} (h : Attended sid r.1 p)
    (ht : Typed sid s) (hg : (s.participant p).gone = false) (hh : s.holder (sid p) = some p)
    (hr : Observed sid s p r) (hsup : (r.1.participant p).superseded = false) :
    r.2 = 0 ∧ ∃ ob, Coherent sid r.1 p ob := by
  have hlt := (typed_observed ht hh hr).2
  have hne : (r.1.participant p).observers ≠ [] := by
    intro hn
    simp [hn] at hlt
  obtain ⟨ob, hco⟩ := h ⟨hne, hsup, .inl (observed_gone hg hr)⟩
  rw [hco.observers] at hlt
  exact ⟨by simpa using hlt, ob, hco⟩

private theorem attended_onParticipantDisconnected {s s' : Room Sid} {p q : Handle}
    (h : Attended sid s p) (ht : Typed sid s) (hm : mention sid s q = some s') :
    Attended sid (onParticipantDisconnected sid s' q) p := by
  obtain ⟨ht₁, hg, hh⟩ := typed_mention ht hm
  have hr : Observed sid s' q _ := observed s' q
  obtain ⟨ht₂, ho⟩ := typed_observed ht₁ hh hr
  have ha := attended_observed (attended_mention h hm) ht₁ hg hh hr
  have hh₂ : (getOrCreateParticipantObserver sid s' q).1.holder (sid q) = some q := by
    rw [(observed_frame hr).2.2.2.2]
    exact hh
  have hzero : p = q →
      ((getOrCreateParticipantObserver sid s' q).1.participant q).superseded = false →
      (getOrCreateParticipantObserver sid s' q).2 = 0 ∧
        ∃ ob, Coherent sid (getOrCreateParticipantObserver sid s' q).1 q ob := by
    rintro rfl hsup
    exact observed_zero ha ht₁ hg hh hr hsup
  unfold onParticipantDisconnected
  generalize getOrCreateParticipantObserver sid s' q = r at *
  obtain ⟨s₂, o⟩ := r
  simp only at hzero ht₂ ha hh₂ ho ⊢
  by_cases hp : p = q
  · subst hp
    rintro ⟨-, hsup, -⟩
    rw [participant_modify_self] at hsup
    obtain ⟨rfl, ob, hco⟩ := hzero rfl ((Participant.superseded_enqueue _ _ _).symm.trans hsup)
    obtain ⟨ob', hobs', hcl, hwr, hob, hun, hb, -⟩ := enqueued_coherent hco rfl rfl rfl
      (Participant.enqueued (ht₂.sane p).law.binding 0 (.raw s'.raised.length))
    have hx := participant_modify_self (forgetParticipantObserver sid s₂ p) p fun x ↦
      { x.enqueue 0 (.raw s'.raised.length) with disconnectedAt := some x.raised }
    exact ⟨ob', coherent_of_update hco hx hobs' hcl hwr hob (fun hgone' ↦ Bool.noConfusion hgone')
      hun hb rfl rfl⟩
  · by_cases hs : sid p = sid q
    · rintro ⟨hobs, hsup, hat⟩
      rw [participant_modify_of_ne _ _ hp] at hobs hsup hat
      exact absurd ⟨hobs, hsup, hat⟩ (not_attending_of_holder ht₂ hh₂ hs hp)
    · refine attended_congr ha ?_ ?_ ?_ ?_ ?_ ?_ rfl rfl
      · rw [participant_modify_of_ne _ _ hp]
        rfl
      · rw [participant_modify_of_ne _ _ hp]
        rfl
      · rw [participant_modify_of_ne _ _ hp]
        rfl
      · rw [participant_modify_of_ne _ _ hp]
        exact id
      · rw [participant_modify_of_ne _ _ hp]
        exact id
      · simp [Room.modify, forgetParticipantObserver, JsMap.get_delete, hs]

private theorem attended_record {s : Room Sid} {p q : Handle} {f : Participant → Participant}
    (h : Attended sid s p) (hobs : ∀ x, (f x).observers = x.observers)
    (hob : ∀ x, (f x).observer = x.observer) (hw : ∀ x, (f x).wraps = x.wraps)
    (hsup : ∀ x, (f x).superseded = x.superseded) (hg : ∀ x, (f x).gone = x.gone) :
    Attended sid (s.modify q f) p := by
  by_cases hp : p = q
  · subst hp
    refine attended_congr h ?_ ?_ ?_ ?_ ?_ rfl rfl rfl <;> simp [hobs, hob, hw, hsup, hg]
  · have he := participant_modify_of_ne s f hp
    refine attended_congr h ?_ ?_ ?_ ?_ ?_ rfl rfl rfl <;> simp [he]

/-- Every step attends to a participant that the wraps it gives to JS do not disturb. -/
theorem attended_step {s s' : Room Sid} {a : RoomAct} {p : Handle} (h : Attended sid s p)
    (ht : Typed sid s) (hf : Admits (FreshFor sid p) sid s a) (hr : RemovesOwn sid s p)
    (hs : step sid s a = some s') : Attended sid s' p := by
  cases a with
  | onConnected existing =>
    cases hs
    have hrec : Attended sid { s with
        participant := fun p ↦
          if p ∈ existing then
            { s.participant p with
              presentAt := (s.participant p).presentAt.or (some (s.participant p).raised) }
          else s.participant p } p := by
      refine attended_congr h ?_ ?_ ?_ ?_ ?_ rfl rfl rfl <;> simp only <;> split <;>
        simp [Participant.gone]
    exact attended_dispatchEvent hrec (typed_present existing ht)
  | onParticipantConnected q =>
    obtain ⟨s₁, hm, rfl⟩ := Option.map_eq_some_iff.mp hs
    exact attended_record (attended_dispatchParticipantEvent h ht hm) (fun _ ↦ rfl) (fun _ ↦ rfl)
      (fun _ ↦ rfl) (fun _ ↦ rfl) fun _ ↦ rfl
  | onParticipantDisconnected q =>
    obtain ⟨s₁, hm, rfl⟩ := Option.map_eq_some_iff.mp hs
    exact attended_onParticipantDisconnected h ht hm
  | onParticipantReconnecting q =>
    obtain ⟨s₁, hm, rfl⟩ := Option.map_eq_some_iff.mp hs
    exact attended_dispatchParticipantEvent h ht hm
  | onParticipantReconnected q =>
    obtain ⟨s₁, hm, rfl⟩ := Option.map_eq_some_iff.mp hs
    exact attended_dispatchParticipantEvent h ht hm
  | onDominantSpeakerChanged q =>
    cases q with
    | none =>
      cases hs
      exact attended_dispatchEvent h ht
    | some q =>
      obtain ⟨s₁, hm, rfl⟩ := Option.map_eq_some_iff.mp hs
      exact attended_dispatchParticipantEvent h ht hm
  | onPlain event =>
    cases hs
    exact attended_dispatchEvent h ht
  | onTrackEvent q =>
    cases hs
    exact attended_raise q h ht
  | turn t participants => exact attended_turn h ht hf hr (drains hs)
  | participantTurn q j t => exact attended_participantTurn h ht (participantDrains ht hs)
  | participants participants => exact attended_entries h ht hf hs
  | dominantSpeaker q =>
    cases q with
    | none =>
      cases hs
      exact h
    | some q => exact attended_readDominantSpeaker h ht hf hs
  | collect q j =>
    simp only [step] at hs
    split at hs
    · cases hs
    · next hn =>
      obtain ⟨x, hx, rfl⟩ := Option.map_eq_some_iff.mp hs
      exact attended_collect h ht (fun hc ↦ hn (.inl hc))
        (Participant.destroyed (ht.sane q).law.binding hx)

/-- A participant with a SID of its own is attended to in every run. -/
theorem attended_of_sole {s : Room Sid} {p : Handle} (hp : Sole sid p)
    (h : (machine sid).Reachable s) : Attended sid s p := by
  refine h.invariant_of_reachable (p := fun s ↦ Attended sid s p) ?_ ?_
  · rintro ⟨hobs, -⟩
    exact absurd rfl hobs
  · intro s a s' hr ha hs
    have ht := typed_of_reachable hr
    refine attended_step ha ht ?_ ?_ hs
    · exact admits_of_forall fun _ _ _ ↦ .inl hp
    · intro task rest q j _ _ hc
      exact hp q (ht.cached _ _ _ hc).1.symm

end Room

end VideoNode.Remote
