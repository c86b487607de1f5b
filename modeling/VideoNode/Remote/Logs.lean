import VideoNode.Remote.Wiring

/-!
# What happens to the events of one participant

Of all steps only two touch a participant's events: raising one appends it to what the installed
observer accepted, and a step of a wrap's `drain()` starts one. Every other step is calm: it may
make observers and wraps, which start empty, and it may append the last hop of the participant.
From this follow the order of the events in every queue, and that they stay in it.
-/

namespace VideoNode.Remote

open VideoNode.Common VideoNode.Lts VideoNode.Js

/-- Work that is not an event. -/
def PendingEvent.isRaw : PendingEvent → Bool
  | .raw _ => true
  | .event _ => false

/-- What a participant's observer has accepted: events in the order they were raised, all of
them heard, and the last hop at most once and after every event from before the participant
left. -/
structure Log (heard : List Nat) (left : Option Nat) (l : List PendingEvent) : Prop where
  sorted : (l.filterMap PendingEvent.index?).Pairwise (· < ·)
  heard : ∀ k, .event k ∈ l → k ∈ heard
  single : l.countP PendingEvent.isRaw ≤ 1
  last : ∀ d, left = some d → l.Pairwise fun a b ↦ a.isRaw = true → ∀ k, b = .event k → d ≤ k

namespace Log

variable {heard : List Nat} {left : Option Nat} {l : List PendingEvent}

private theorem mem_filterMap_index {k : Nat} :
    k ∈ l.filterMap PendingEvent.index? ↔ .event k ∈ l := by
  rw [List.mem_filterMap]
  constructor
  · rintro ⟨e, he, hk⟩
    cases e with
    | event i =>
      cases hk
      exact he
    | raw i => cases hk
  · exact fun h ↦ ⟨_, h, rfl⟩

/-- Nothing was accepted. -/
theorem nil : Log heard left [] := by
  constructor <;> simp

/-- Events that this observer did not accept. -/
theorem mono {heard' : List Nat} (h : Log heard left l) (hs : ∀ k ∈ heard, k ∈ heard') :
    Log heard' left l :=
  ⟨h.sorted, fun k hk ↦ hs k (h.heard k hk), h.single, h.last⟩

/-- A new event. -/
theorem event {n : Nat} (h : Log heard left l) (hn : ∀ k ∈ heard, k < n)
    (hd : ∀ d, left = some d → d ≤ n) : Log (heard ++ [n]) left (l ++ [.event n]) where
  sorted := by
    rw [List.filterMap_append, List.pairwise_append]
    refine ⟨h.sorted, by simp [PendingEvent.index?], ?_⟩
    intro k hk m hm
    have hm : m = n := by simpa [PendingEvent.index?] using hm
    subst hm
    exact hn k (h.heard k (mem_filterMap_index.mp hk))
  heard k hk := by
    rcases List.mem_append.mp hk with hk | hk
    · exact List.mem_append_left _ (h.heard k hk)
    · cases List.mem_singleton.mp hk
      simp
  single := by simpa [PendingEvent.isRaw] using h.single
  last d hl := by
    rw [List.pairwise_append]
    refine ⟨h.last d hl, by simp, ?_⟩
    intro a _ b hb _ k he
    rw [List.mem_singleton.mp hb] at he
    cases he
    exact hd d hl

/-- The last hop. -/
theorem raw {i : Nat} {left' : Option Nat} (h : Log heard left l) (hn : ∀ i, .raw i ∉ l) :
    Log heard left' (l ++ [.raw i]) where
  sorted := by simpa [List.filterMap_cons, PendingEvent.index?] using h.sorted
  heard k hk := by
    rcases List.mem_append.mp hk with hk | hk
    · exact h.heard k hk
    · cases List.mem_singleton.mp hk
  single := by
    have hz : l.countP PendingEvent.isRaw = 0 := by
      rw [List.countP_eq_zero]
      intro e he
      cases e with
      | event k => simp [PendingEvent.isRaw]
      | raw i => exact absurd he (hn i)
    simp [hz, PendingEvent.isRaw]
  last d hl := by
    rw [List.pairwise_append]
    refine ⟨?_, by simp, ?_⟩
    · rw [List.pairwise_iff_forall_sublist]
      intro a b hab ha
      cases a with
      | event k => cases ha
      | raw i => exact absurd (hab.subset (by simp)) (hn i)
    · intro a _ b hb _ k he
      rw [List.mem_singleton.mp hb] at he
      cases he

/-- The participant leaves without a hop of this observer. -/
theorem leave {left' : Option Nat} (h : Log heard left l) (hn : ∀ i, .raw i ∉ l) :
    Log heard left' l := by
  refine ⟨h.sorted, h.heard, h.single, fun d _ ↦ ?_⟩
  rw [List.pairwise_iff_forall_sublist]
  intro a b hab ha
  cases a with
  | event k => cases ha
  | raw i => exact absurd (hab.subset (by simp)) (hn i)

end Log

namespace Participant

/-- A change of a participant in which nothing is raised, queued, started or recorded: observers
and wraps may be made, unmade and bound. -/
structure Calm (x x' : Participant) : Prop where
  raised : x'.raised = x.raised
  heard : x'.heard = x.heard
  connectedAt : x'.connectedAt = x.connectedAt
  disconnectedAt : x'.disconnectedAt = x.disconnectedAt
  superseded : x.superseded = true → x'.superseded = true
  frozen : x.gone = true → x'.observers.length = x.observers.length
  observers : ∀ (o : Nat) (ob : Observer), x.observers[o]? = some ob →
    ∃ ob' : Observer, x'.observers[o]? = some ob' ∧ ob'.accepted = ob.accepted
  installed : ∀ (o : Nat) (ob' : Observer), x'.observers[o]? = some ob' →
    x.observers[o]? = none → ob'.accepted = []
  wraps : ∀ (j : Nat) (w : Wrap), x.wraps[j]? = some w → ∃ w' : Wrap, x'.wraps[j]? = some w' ∧
    w'.received = w.received ∧ w'.context.started = w.context.started
  made : ∀ (j : Nat) (w' : Wrap), x'.wraps[j]? = some w' → x.wraps[j]? = none →
    w'.received = [] ∧ w'.context.started = []

namespace Calm

/-- No change at all. -/
theorem refl (x : Participant) : Calm x x where
  raised := rfl
  heard := rfl
  connectedAt := rfl
  disconnectedAt := rfl
  superseded := id
  frozen _ := rfl
  observers _ ob h := ⟨ob, h, rfl⟩
  installed _ _ h h' := by cases h'.symm.trans h
  wraps _ w h := ⟨w, h, rfl, rfl⟩
  made _ _ h h' := by cases h'.symm.trans h

/-- Nobody leaves. -/
theorem gone {x y : Participant} (h : Calm x y) : y.gone = x.gone := by
  rw [Participant.gone, h.disconnectedAt, Participant.gone]

/-- Observers are never unmade. -/
theorem observers_ne_nil {x y : Participant} (h : Calm x y) (hx : x.observers ≠ []) :
    y.observers ≠ [] := by
  intro hn
  obtain ⟨ob, hob⟩ := List.exists_mem_of_ne_nil _ hx
  obtain ⟨o, ho⟩ := List.mem_iff_getElem?.mp hob
  obtain ⟨ob', hob', -⟩ := h.observers o ob ho
  simp [hn] at hob'

/-- Wraps are never unmade. -/
theorem wraps_ne_nil {x y : Participant} (h : Calm x y) (hx : x.wraps ≠ []) : y.wraps ≠ [] := by
  intro hn
  obtain ⟨w, hw⟩ := List.exists_mem_of_ne_nil _ hx
  obtain ⟨j, hj⟩ := List.mem_iff_getElem?.mp hw
  obtain ⟨w', hw', -⟩ := h.wraps j w hj
  simp [hn] at hw'

/-- One calm change after another. -/
theorem trans {x y z : Participant} (h : Calm x y) (h' : Calm y z) : Calm x z where
  raised := h'.raised.trans h.raised
  heard := h'.heard.trans h.heard
  connectedAt := h'.connectedAt.trans h.connectedAt
  disconnectedAt := h'.disconnectedAt.trans h.disconnectedAt
  superseded := h'.superseded ∘ h.superseded
  frozen hx := (h'.frozen (h.gone.trans hx)).trans (h.frozen hx)
  observers o ob hob := by
    obtain ⟨ob₁, hob₁, ha₁⟩ := h.observers o ob hob
    obtain ⟨ob₂, hob₂, ha₂⟩ := h'.observers o ob₁ hob₁
    exact ⟨ob₂, hob₂, ha₂.trans ha₁⟩
  installed o ob₂ hob₂ hnone := by
    cases hob₁ : y.observers[o]? with
    | none => exact h'.installed o ob₂ hob₂ hob₁
    | some ob₁ =>
      obtain ⟨ob, hob, ha⟩ := h'.observers o ob₁ hob₁
      rw [hob₂] at hob
      cases hob
      exact ha.trans (h.installed o ob₁ hob₁ hnone)
  wraps j w hw := by
    obtain ⟨w₁, hw₁, hr₁, hs₁⟩ := h.wraps j w hw
    obtain ⟨w₂, hw₂, hr₂, hs₂⟩ := h'.wraps j w₁ hw₁
    exact ⟨w₂, hw₂, hr₂.trans hr₁, hs₂.trans hs₁⟩
  made j w₂ hw₂ hnone := by
    cases hw₁ : y.wraps[j]? with
    | none => exact h'.made j w₂ hw₂ hw₁
    | some w₁ =>
      obtain ⟨w, hw, hr, hs⟩ := h'.wraps j w₁ hw₁
      rw [hw₂] at hw
      cases hw
      obtain ⟨hr₁, hs₁⟩ := h.made j w₁ hw₁ hnone
      exact ⟨hr.trans hr₁, hs.trans hs₁⟩

private theorem of_record {x x' : Participant} (hr : x'.raised = x.raised)
    (hh : x'.heard = x.heard) (hc : x'.connectedAt = x.connectedAt)
    (hd : x'.disconnectedAt = x.disconnectedAt) (hobs : x'.observers = x.observers)
    (hw : x'.wraps = x.wraps) (hs : x.superseded = true → x'.superseded = true) : Calm x x' where
  raised := hr
  heard := hh
  connectedAt := hc
  disconnectedAt := hd
  superseded := hs
  frozen _ := by rw [hobs]
  observers o ob h := ⟨ob, hobs ▸ h, rfl⟩
  installed o ob h h' := by rw [hobs, h'] at h; cases h
  wraps j w h := ⟨w, hw ▸ h, rfl, rfl⟩
  made j w h h' := by rw [hw, h'] at h; cases h

/-- Being superseded. -/
theorem supersede (x : Participant) : Calm x { x with superseded := true } :=
  of_record rfl rfl rfl rfl rfl rfl fun _ ↦ rfl

/-- Being found in the native Room when it connects. -/
theorem presentAt (x : Participant) (n : Option Nat) : Calm x { x with presentAt := n } :=
  of_record rfl rfl rfl rfl rfl rfl id

/-- Getting an observer. -/
theorem createObserver {x : Participant} (h : x.gone = false) : Calm x x.createObserver where
  raised := rfl
  heard := rfl
  connectedAt := rfl
  disconnectedAt := rfl
  superseded := id
  frozen hg := by rw [h] at hg; cases hg
  observers o ob hob := by
    refine ⟨ob, ?_, rfl⟩
    rw [Participant.createObserver, List.getElem?_append_left (List.getElem?_eq_some_iff.mp hob).1]
    exact hob
  installed o ob' hob' hnone := by
    rcases Parties.getElem?_concat hob' with ⟨-, rfl⟩ | hob
    · rfl
    · rw [hnone] at hob
      cases hob
  wraps j w h := ⟨w, h, rfl, rfl⟩
  made j w h h' := by cases h'.symm.trans h

/-- Setting an event callback. -/
theorem setEventCallback (x : Participant) (j : Nat) : Calm x (x.setEventCallback j) where
  raised := rfl
  heard := rfl
  connectedAt := rfl
  disconnectedAt := rfl
  superseded := id
  frozen _ := rfl
  observers o ob h := ⟨ob, h, rfl⟩
  installed o ob h h' := by cases h'.symm.trans h
  wraps i w h := by
    by_cases hij : j = i
    · subst hij
      refine ⟨{ w with eventCallback := true }, ?_, rfl, rfl⟩
      rw [Participant.setEventCallback, Parties.modify_eq_set_of h]
      exact Parties.getElem?_set_self h
    · refine ⟨w, ?_, rfl, rfl⟩
      rw [Participant.setEventCallback, List.getElem?_modify_ne _ _ hij]
      exact h
  made i w h h' := by
    have hlen := List.getElem?_eq_none_iff.mp h'
    have hlt := (List.getElem?_eq_some_iff.mp h).1
    simp only [Participant.setEventCallback, List.length_modify] at hlt
    omega

/-- Getting a wrap. -/
theorem instanced {x x' : Participant} {o : Nat} (h : Instanced x o x') : Calm x x' := by
  cases h with
  | unbound hob =>
    refine ⟨rfl, rfl, rfl, rfl, id, fun _ ↦ rfl, fun _ ob h ↦ ⟨ob, h, rfl⟩,
      fun _ _ h h' ↦ (by cases h'.symm.trans h), ?_, ?_⟩
    · intro j w hw
      refine ⟨w, ?_, rfl, rfl⟩
      rw [List.getElem?_append_left (List.getElem?_eq_some_iff.mp hw).1]
      exact hw
    · intro j w hw hnone
      rcases Parties.getElem?_concat hw with ⟨-, rfl⟩ | hw
      · exact ⟨rfl, rfl⟩
      · rw [hnone] at hw
        cases hw
  | @bound ob c hob hc hwr hs ha hst hcl =>
    refine ⟨rfl, rfl, rfl, rfl, id, fun _ ↦ by simp, ?_, ?_, ?_, ?_⟩
    · intro o' ob' hob'
      rcases Parties.getElem?_after_set hob hob' with ⟨-, rfl, h⟩ | ⟨-, h⟩
      · exact ⟨_, h _, rfl⟩
      · exact ⟨ob', h _, rfl⟩
    · intro o' ob' hob' hnone
      cases (Parties.getElem?_set_eq_none hnone).symm.trans hob'
    · intro j w hw
      refine ⟨w, ?_, rfl, rfl⟩
      rw [List.getElem?_append_left (List.getElem?_eq_some_iff.mp hw).1]
      exact hw
    · intro j w hw hnone
      rcases Parties.getElem?_concat hw with ⟨-, rfl⟩ | hw
      · exact ⟨rfl, hst⟩
      · rw [hnone] at hw
        cases hw

/-- Losing a wrap. -/
theorem destroyed {x x' : Participant} {j : Nat} (h : Destroyed x j x') : Calm x x' := by
  have hwraps : ∀ {w : Wrap} {c : Traffic PendingEvent}, x.wraps[j]? = some w →
      w.context.step .destroy = some c →
      (∀ (i : Nat) (u : Wrap), x.wraps[i]? = some u → ∃ u' : Wrap,
        (x.wraps.set j { w with eventCallback := false, context := c })[i]? = some u' ∧
        u'.received = u.received ∧ u'.context.started = u.context.started) ∧
      (∀ (i : Nat) (u' : Wrap),
        (x.wraps.set j { w with eventCallback := false, context := c })[i]? = some u' →
        x.wraps[i]? = none → u'.received = [] ∧ u'.context.started = []) := by
    intro w c hw hc
    obtain ⟨-, hst, -⟩ := Traffic.step_destroy hc
    constructor
    · intro i u hu
      rcases Parties.getElem?_after_set hw hu with ⟨-, rfl, h⟩ | ⟨-, h⟩
      · exact ⟨_, h _, rfl, hst⟩
      · exact ⟨u, h _, rfl, rfl⟩
    · intro i u' hu' hnone
      cases (Parties.getElem?_set_eq_none hnone).symm.trans hu'
  cases h with
  | other hw hc hown =>
    exact ⟨rfl, rfl, rfl, rfl, id, fun _ ↦ rfl, fun _ ob h ↦ ⟨ob, h, rfl⟩,
      fun _ _ h h' ↦ (by cases h'.symm.trans h), (hwraps hw hc).1, (hwraps hw hc).2⟩
  | @owner w c ob ob' hw hc hown hob hcl hwr ha =>
    refine ⟨rfl, rfl, rfl, rfl, id, fun _ ↦ by simp, ?_, ?_, (hwraps hw hc).1,
      (hwraps hw hc).2⟩
    · intro o ob₁ hob₁
      rcases Parties.getElem?_after_set hob hob₁ with ⟨-, rfl, h⟩ | ⟨-, h⟩
      · exact ⟨ob', h _, ha⟩
      · exact ⟨ob₁, h _, rfl⟩
    · intro o ob₁ hob₁ hnone
      cases (Parties.getElem?_set_eq_none hnone).symm.trans hob₁

/-- Every observer was there before, or has accepted nothing. -/
theorem accepted_cases {x x' : Participant} {o : Nat} {ob' : Observer} (h : Calm x x')
    (hob : x'.observers[o]? = some ob') : ob'.accepted = [] ∨
      ∃ ob : Observer, x.observers[o]? = some ob ∧ ob'.accepted = ob.accepted := by
  cases hx : x.observers[o]? with
  | none => exact .inl (h.installed o ob' hob hx)
  | some ob =>
    obtain ⟨ob₁, hob₁, ha⟩ := h.observers o ob hx
    cases hob.symm.trans hob₁
    exact .inr ⟨ob, rfl, ha⟩

/-- Every wrap was there before, or has started and received nothing. -/
theorem started_cases {x x' : Participant} {j : Nat} {w' : Wrap} (h : Calm x x')
    (hw : x'.wraps[j]? = some w') : (w'.received = [] ∧ w'.context.started = []) ∨
      ∃ w : Wrap, x.wraps[j]? = some w ∧ w'.received = w.received ∧
        w'.context.started = w.context.started := by
  cases hx : x.wraps[j]? with
  | none => exact .inl (h.made j w' hw hx)
  | some w =>
    obtain ⟨w₁, hw₁, hr, hs⟩ := h.wraps j w hx
    cases hw.symm.trans hw₁
    exact .inr ⟨w, rfl, hr, hs⟩

end Calm

/-- What `enqueue` does to the logs: one observer accepts one more event, or none does. -/
structure Appended (x : Participant) (o : Nat) (event : PendingEvent) (x' : Participant) :
    Prop where
  record : x'.raised = x.raised ∧ x'.heard = x.heard ∧ x'.superseded = x.superseded ∧
    x'.connectedAt = x.connectedAt ∧ x'.disconnectedAt = x.disconnectedAt
  length : x'.observers.length = x.observers.length
  observers : ∀ (i : Nat) (ob : Observer), x.observers[i]? = some ob →
    ∃ ob' : Observer, x'.observers[i]? = some ob' ∧ (ob'.accepted = ob.accepted ∨
      (i = o ∧ ob'.accepted = ob.accepted ++ [event]))
  wraps : ∀ (j : Nat) (w : Wrap), x.wraps[j]? = some w → ∃ w' : Wrap, x'.wraps[j]? = some w' ∧
    w'.received = w.received ∧ w'.context.started = w.context.started
  made : ∀ j : Nat, x.wraps[j]? = none → x'.wraps[j]? = none

/-- The logs after an `enqueue`. -/
theorem appended {x x' : Participant} {o : Nat} {event : PendingEvent}
    (h : Enqueued x o event x') : Appended x o event x' := by
  cases h with
  | refused hc =>
    exact ⟨⟨rfl, rfl, rfl, rfl, rfl⟩, rfl, fun _ ob h ↦ ⟨ob, h, .inl rfl⟩,
      fun _ w h ↦ ⟨w, h, rfl, rfl⟩, fun _ h ↦ h⟩
  | @buffered ob hob hc hw =>
    refine ⟨⟨rfl, rfl, rfl, rfl, rfl⟩, by simp, ?_, fun _ w h ↦ ⟨w, h, rfl, rfl⟩, fun _ h ↦ h⟩
    intro i ob' hob'
    rcases Parties.getElem?_after_set hob hob' with ⟨rfl, rfl, h⟩ | ⟨-, h⟩
    · exact ⟨_, h _, .inr ⟨rfl, rfl⟩⟩
    · exact ⟨ob', h _, .inl rfl⟩
  | @queued ob j w c hob hc hwr hw ho hown hs ha hst hcl =>
    refine ⟨⟨rfl, rfl, rfl, rfl, rfl⟩, by simp, ?_, ?_, fun _ h ↦ Parties.getElem?_set_eq_none h⟩
    · intro i ob' hob'
      rcases Parties.getElem?_after_set hob hob' with ⟨rfl, rfl, h⟩ | ⟨-, h⟩
      · exact ⟨_, h _, .inr ⟨rfl, rfl⟩⟩
      · exact ⟨ob', h _, .inl rfl⟩
    · intro i u hu
      rcases Parties.getElem?_after_set hw hu with ⟨-, rfl, h⟩ | ⟨-, h⟩
      · exact ⟨_, h _, rfl, hst⟩
      · exact ⟨u, h _, rfl, rfl⟩

namespace Appended

variable {x x' : Participant} {o : Nat} {event : PendingEvent}

/-- Every observer was there before. -/
theorem accepted_cases {i : Nat} {ob' : Observer} (h : Appended x o event x')
    (hob : x'.observers[i]? = some ob') : ∃ ob : Observer, x.observers[i]? = some ob ∧
      (ob'.accepted = ob.accepted ∨ (i = o ∧ ob'.accepted = ob.accepted ++ [event])) := by
  have hi : i < x.observers.length := h.length ▸ (List.getElem?_eq_some_iff.mp hob).1
  obtain ⟨ob₁, hob₁, ha⟩ := h.observers i _ (List.getElem?_eq_getElem hi)
  cases hob.symm.trans hob₁
  exact ⟨_, List.getElem?_eq_getElem hi, ha⟩

/-- Every wrap was there before, with what it has started and received. -/
theorem started_cases {j : Nat} {w' : Wrap} (h : Appended x o event x')
    (hw : x'.wraps[j]? = some w') : ∃ w : Wrap, x.wraps[j]? = some w ∧
      w'.received = w.received ∧ w'.context.started = w.context.started := by
  cases hx : x.wraps[j]? with
  | none => cases (h.made j hx).symm.trans hw
  | some w =>
    obtain ⟨w₁, hw₁, hr, hs⟩ := h.wraps j w hx
    cases hw.symm.trans hw₁
    exact ⟨w, rfl, hr, hs⟩

end Appended

/-- An observer that is open accepts what is enqueued. -/
theorem Enqueued.accepts {x x' : Participant} {o : Nat} {event : PendingEvent}
    (h : Enqueued x o event x') (ho : x.isObserverClosed o = false) :
    ∃ ob : Observer, x'.observers[o]? = some ob ∧ event ∈ ob.accepted := by
  cases h with
  | refused hc =>
    rw [ho] at hc
    cases hc
  | buffered hob hc hw => exact ⟨_, Parties.getElem?_set_self hob, by simp⟩
  | queued hob hc hwr hw ho hown hs ha hst hcl =>
    exact ⟨_, Parties.getElem?_set_self hob, by simp⟩

/-- What the logs of a participant meet in every state. -/
structure Logged (x : Participant) : Prop where
  sorted : x.heard.Pairwise (· < ·)
  raised : ∀ k ∈ x.heard, k < x.raised
  observed : x.heard ≠ [] → x.observers ≠ []
  connected : x.connectedAt ≠ none → x.observers ≠ []
  disconnected : ∀ d, x.disconnectedAt = some d → d ≤ x.raised
  logs : ∀ (o : Nat) (ob : Observer), x.observers[o]? = some ob →
    Log x.heard x.disconnectedAt ob.accepted
  received : ∀ (j : Nat) (w : Wrap), x.wraps[j]? = some w → w.received.Sublist w.startedEvents

/-- Nothing was raised. -/
theorem logged_init : Logged init := by
  constructor <;> simp [init]

private theorem ne_nil_of_length {l l' : List Observer} (h : l'.length = l.length) (hn : l ≠ []) :
    l' ≠ [] := by
  rintro rfl
  exact hn (List.length_eq_zero_iff.mp h.symm)

/-- A calm change adds to no log. -/
theorem logged_calm {x x' : Participant} (h : Logged x) (hc : Calm x x') : Logged x' where
  sorted := hc.heard ▸ h.sorted
  raised := by
    rw [hc.heard, hc.raised]
    exact h.raised
  observed hn := hc.observers_ne_nil (h.observed (hc.heard ▸ hn))
  connected hn := hc.observers_ne_nil (h.connected (hc.connectedAt ▸ hn))
  disconnected d hd := hc.raised ▸ h.disconnected d (hc.disconnectedAt ▸ hd)
  logs o ob' hob' := by
    rw [hc.heard, hc.disconnectedAt]
    rcases hc.accepted_cases hob' with ha | ⟨ob, hob, ha⟩
    · rw [ha]
      exact .nil
    · rw [ha]
      exact h.logs o ob hob
  received j w' hw' := by
    rcases hc.started_cases hw' with ⟨hr, -⟩ | ⟨w, hw, hr, hs⟩
    · rw [hr]
      exact List.nil_sublist _
    · rw [hr, Wrap.startedEvents, hs]
      exact h.received j w hw

/-- Announcing a participant that has an observer. -/
theorem logged_announced {x : Participant} (h : Logged x) (hobs : x.observers ≠ []) :
    Logged { x with connectedAt := x.connectedAt.or (some x.raised) } :=
  ⟨h.sorted, h.raised, h.observed, fun _ ↦ hobs, h.disconnected, h.logs, h.received⟩

/-- A participant leaves. -/
theorem logged_parted {x x' : Participant} {o i : Nat} (h : Logged x) (hs : x.Sane)
    (hg : x.gone = false) (he : Enqueued x o (.raw i) x') :
    Logged { x' with disconnectedAt := some x.raised } := by
  have ha := appended he
  obtain ⟨hr, hh, -, hc, -⟩ := ha.record
  -- Who is not gone has not made its last hop.
  have hno : ∀ (o : Nat) (ob : Observer), x.observers[o]? = some ob →
      ∀ i, PendingEvent.raw i ∉ ob.accepted := by
    intro o ob hob i hi
    rw [hs.parting o ob i hob hi] at hg
    cases hg
  refine ⟨hh ▸ h.sorted, ?_, ?_, ?_, ?_, ?_, ?_⟩
  · intro k hk
    rw [hr]
    exact h.raised k (hh ▸ hk)
  · intro hn
    exact ne_nil_of_length ha.length (h.observed (hh ▸ hn))
  · intro hn
    exact ne_nil_of_length ha.length (h.connected (hc ▸ hn))
  · intro d hd
    cases hd
    exact Nat.le_of_eq hr.symm
  · intro o' ob' hob'
    obtain ⟨ob, hob, ha | ⟨-, ha⟩⟩ := ha.accepted_cases hob'
    · rw [ha]
      exact hh ▸ (h.logs o' ob hob).leave (hno o' ob hob)
    · rw [ha]
      exact hh ▸ (h.logs o' ob hob).raw (hno o' ob hob)
  · intro j w' hw'
    obtain ⟨w, hw, hrec, hst⟩ := ha.started_cases hw'
    rw [hrec, Wrap.startedEvents, hst]
    exact h.received j w hw

/-- An event is raised on a participant. -/
theorem logged_raised {x x' : Participant} (h : Logged x) (hs : x.Sane) (hx : Raised x x') :
    Logged x' := by
  cases hx with
  | unheard ho =>
    refine ⟨h.sorted, ?_, h.observed, h.connected, ?_, h.logs, h.received⟩
    · intro k hk
      exact Nat.lt_succ_of_lt (h.raised k hk)
    · intro d hd
      exact Nat.le_succ_of_le (h.disconnected d hd)
  | @heard o x' ho he =>
    have ha := appended he
    have hne : x.observers ≠ [] := by
      intro hn
      have hlt := hs.observed o ho
      simp [hn] at hlt
    obtain ⟨hr, hh, hg, hc, hd⟩ := ha.record
    refine ⟨?_, ?_, ?_, ?_, ?_, ?_, ?_⟩
    · rw [hh, List.pairwise_append]
      refine ⟨h.sorted, by simp, ?_⟩
      intro k hk m hm
      rw [List.mem_singleton.mp hm]
      exact h.raised k hk
    · intro k hk
      rw [hr]
      rw [hh] at hk
      rcases List.mem_append.mp hk with hk | hk
      · exact Nat.lt_succ_of_lt (h.raised k hk)
      · rw [List.mem_singleton.mp hk]
        exact Nat.lt_succ_self _
    · exact fun _ ↦ ne_nil_of_length ha.length hne
    · exact fun _ ↦ ne_nil_of_length ha.length hne
    · intro d hd'
      rw [hr]
      exact Nat.le_succ_of_le (h.disconnected d (hd ▸ hd'))
    · intro o' ob' hob'
      rw [hh, hd]
      obtain ⟨ob, hob, ha | ⟨-, ha⟩⟩ := ha.accepted_cases hob'
      · rw [ha]
        exact (h.logs o' ob hob).mono fun k hk ↦ List.mem_append_left _ hk
      · rw [ha]
        exact (h.logs o' ob hob).event h.raised h.disconnected
    · intro j w' hw'
      obtain ⟨w, hw, hrec, hst⟩ := ha.started_cases hw'
      rw [hrec, Wrap.startedEvents, hst]
      exact h.received j w hw

/-- A step of a wrap's `drain()`. -/
theorem logged_turned {x x' : Participant} {j : Nat} {t : Turn} {hop : Option (Nat × Nat)}
    (h : Logged x) (ht : Turned x j t x' hop) : Logged x' := by
  have key : ∀ {w w' : Wrap}, x.wraps[j]? = some w → w'.received.Sublist w'.startedEvents →
      Logged { x with wraps := x.wraps.set j w' } := by
    intro w w' hw hs
    refine ⟨h.sorted, h.raised, h.observed, h.connected, h.disconnected, h.logs, ?_⟩
    intro i u hu
    rcases Parties.getElem?_set hw hu with ⟨-, rfl⟩ | ⟨-, hu⟩
    · exact hs
    · exact h.received i u hu
  cases ht with
  | quiet hw hc hst =>
    refine key hw ?_
    obtain ⟨-, hcs, -, -⟩ := Traffic.step_turn hc
    simpa [Wrap.startedEvents, hcs, hst] using h.received j _ hw
  | @event w c k hw hc hst =>
    refine key hw ?_
    obtain ⟨-, hcs, -, -⟩ := Traffic.step_turn hc
    have hs := h.received j w hw
    simp only [Wrap.startedEvents, hcs, hst, Option.toList_some, List.filterMap_append]
    split
    · exact hs.append (List.Sublist.refl _)
    · exact hs.trans (List.sublist_append_left _ _)
  | hop hw hc hst =>
    refine key hw ?_
    obtain ⟨-, hcs, -, -⟩ := Traffic.step_turn hc
    simpa [Wrap.startedEvents, hcs, hst, List.filterMap_cons, PendingEvent.index?] using
      h.received j _ hw

end Participant

end VideoNode.Remote
