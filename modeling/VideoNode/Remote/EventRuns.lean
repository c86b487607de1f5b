import VideoNode.Remote.Announcements

/-!
# A participant's events from rtc-cpp to its listeners

Every interleaving of callbacks on the observers of one participant, changes of rtc-cpp's
publications between them, wraps and their queues, and whatever the application does with the
tracks of the Room. Of a queue's work only its place in the queue was followed so far; here each
event has its payload.
-/

namespace VideoNode.Remote

open VideoNode.Js VideoNode.Common VideoNode.Lts VideoNode.Tracks

namespace Participant

/-- The positions of the events an observer accepted. -/
def acceptedEvents (x : Participant) (o : Nat) : List Nat :=
  (x.acceptedBy o).filterMap PendingEvent.index?

/-- The positions of the events the queue of a wrap started. -/
def startedBy (x : Participant) (j : Nat) : List Nat :=
  ((x.wraps[j]?).map Wrap.startedEvents).getD []

/-- The positions of the events the event callback of a wrap was called with. -/
def receivedBy (x : Participant) (j : Nat) : List Nat :=
  ((x.wraps[j]?).map Wrap.received).getD []

/-- The event a step of a wrap's queue calls the event callback with. -/
def called (x : Participant) (j : Nat) (t : Turn) : Option Nat :=
  match x.wraps[j]? with
  | none => none
  | some w =>
    if x.delivers w && w.eventCallback then (w.context.loop.started t).bind PendingEvent.index?
    else none

/-- No queue starts anything, and nothing is received. -/
structure Silent (x x' : Participant) : Prop where
  started : ∀ j, x'.startedBy j = x.startedBy j
  received : ∀ j, x'.receivedBy j = x.receivedBy j

variable {x x' : Participant} {j : Nat} {w w' : Wrap}

private theorem silent_wraps (h : x'.wraps = x.wraps) : Silent x x' :=
  ⟨fun j ↦ by rw [startedBy, h]; rfl, fun j ↦ by rw [receivedBy, h]; rfl⟩

private theorem silent_set (hw : x.wraps[j]? = some w) (h : x'.wraps = x.wraps.set j w')
    (hs : w'.context.started = w.context.started) (hr : w'.received = w.received) :
    Silent x x' := by
  have hstarted : w'.startedEvents = w.startedEvents := by rw [Wrap.startedEvents, hs]; rfl
  constructor
  · intro i
    by_cases hij : j = i
    · subst hij
      simp [startedBy, h, Parties.getElem?_set_self hw, hw, hstarted]
    · simp [startedBy, h, List.getElem?_set_ne hij]
  · intro i
    by_cases hij : j = i
    · subst hij
      simp [receivedBy, h, Parties.getElem?_set_self hw, hw, hr]
    · simp [receivedBy, h, List.getElem?_set_ne hij]

private theorem silent_concat (h : x'.wraps = x.wraps ++ [w']) (hs : w'.context.started = [])
    (hr : w'.received = []) : Silent x x' := by
  have hget : ∀ i : Nat, x'.wraps[i]? = x.wraps[i]? ∨
      (x.wraps[i]? = none ∧ x'.wraps[i]? = some w') := by
    intro i
    rcases Nat.lt_trichotomy i x.wraps.length with hi | rfl | hi
    · left
      rw [h, List.getElem?_append_left hi]
    · right
      simp [h]
    · left
      rw [h, List.getElem?_eq_none (by simpa using Nat.succ_le_of_lt hi),
        List.getElem?_eq_none (Nat.le_of_lt hi)]
  constructor
  · intro i
    rcases hget i with he | ⟨hn, he⟩
    · simp [startedBy, he]
    · simp [startedBy, hn, he, Wrap.startedEvents, hs]
  · intro i
    rcases hget i with he | ⟨hn, he⟩
    · simp [receivedBy, he]
    · simp [receivedBy, hn, he, hr]

/-- Only a step of a queue is not silent. -/
theorem silent_step {a : BindingAct} (h : Binding x) (ha : ∀ j t, a ≠ .turn j t)
    (hs : x.bindingStep a = some x') : Silent x x' := by
  cases a with
  | createObserver =>
    cases hs
    exact silent_wraps rfl
  | enqueue o event =>
    cases hs
    have he := enqueued h o event
    generalize x.enqueue o event = y at he
    cases he with
    | refused hc => exact silent_wraps rfl
    | buffered hob hc hw => exact silent_wraps rfl
    | queued hob hc hwr hw ho hown hsound hacc hst hcl => exact silent_set hw rfl hst rfl
  | newInstance o =>
    simp only [bindingStep] at hs
    split at hs
    · cases hs
      have hi := instanced x o
      generalize x.newInstance o = y at hi
      cases hi with
      | unbound hob => exact silent_concat rfl rfl rfl
      | bound hob hc hw hsound hacc hst hcl => exact silent_concat rfl hst rfl
    · cases hs
  | setEventCallback j =>
    cases hs
    cases hw : x.wraps[j]? with
    | none =>
      apply silent_wraps
      exact List.modify_eq_self (List.getElem?_eq_none_iff.mp hw)
    | some w => exact silent_set hw (Parties.modify_eq_set_of hw _) rfl rfl
  | closeObserver o =>
    cases hs
    exact silent_wraps rfl
  | destroyWrap j =>
    cases destroyed h hs with
    | other hw hc hown => exact silent_set hw rfl (Traffic.step_destroy hc).2.1 rfl
    | owner hw hc hown hob hcl hwr hacc =>
      exact silent_set hw rfl (Traffic.step_destroy hc).2.1 rfl
  | turn j t => exact absurd rfl (ha j t)

/-- A step of a wrap's queue starts at most one event, and the event callback is called with it or
not at all. -/
theorem turn_calls {t : Turn} {hop : Option (Nat × Nat)} (ht : x.turn j t = some (x', hop)) :
    ∃ k : Option Nat, (∀ i, x'.startedBy i =
        if i = j then x.startedBy j ++ k.toList else x.startedBy i) ∧
      (∀ i, x'.receivedBy i =
        if i = j then x.receivedBy j ++ (x.called j t).toList else x.receivedBy i) ∧
      (x.called j t = k ∨ x.called j t = none) := by
  cases hw : x.wraps[j]? with
  | none => simp [turn, hw] at ht
  | some w =>
    simp only [turn, hw] at ht
    obtain ⟨c, hc, he⟩ := Option.map_eq_some_iff.mp ht
    obtain ⟨-, hst, -, -⟩ := Traffic.step_turn hc
    have hcalled : x.called j t = if x.delivers w && w.eventCallback then
        (w.context.loop.started t).bind PendingEvent.index? else none := by
      simp only [called, hw]
    have key : ∀ received, received = w.received ++ (x.called j t).toList →
        x' = { x with wraps := x.wraps.set j { w with context := c, received := received } } →
        (∀ i, x'.startedBy i = if i = j then x.startedBy j ++
          ((w.context.loop.started t).bind PendingEvent.index?).toList else x.startedBy i) ∧
        ∀ i, x'.receivedBy i =
          if i = j then x.receivedBy j ++ (x.called j t).toList else x.receivedBy i := by
      rintro received rfl rfl
      have hself := Parties.getElem?_set_self (b := { w with
        context := c, received := w.received ++ (x.called j t).toList }) hw
      constructor
      · intro i
        by_cases hij : i = j
        · subst hij
          rw [if_pos rfl]
          simp only [startedBy, hself, hw, Option.map_some, Option.getD_some, Wrap.startedEvents,
            hst, List.filterMap_append]
          cases w.context.loop.started t with
          | none => rfl
          | some e => cases e <;> rfl
        · rw [if_neg hij]
          simp [startedBy, List.getElem?_set_ne (Ne.symm hij)]
      · intro i
        by_cases hij : i = j
        · subst hij
          rw [if_pos rfl]
          simp [receivedBy, hself, hw]
        · rw [if_neg hij]
          simp [receivedBy, List.getElem?_set_ne (Ne.symm hij)]
    refine ⟨(w.context.loop.started t).bind PendingEvent.index?, ?_⟩
    rw [← and_assoc]
    constructor
    · cases hs : w.context.loop.started t with
      | none =>
        rw [hs] at he hcalled
        cases he
        have hn : x.called j t = none := by simpa using hcalled
        rw [← hs]
        exact key w.received (by simp [hn]) rfl
      | some e =>
        rw [hs] at he hcalled
        rw [← hs]
        cases e with
        | event k =>
          cases he
          apply key _ _ rfl
          rw [hcalled]
          split <;> simp [PendingEvent.index?]
        | raw i =>
          cases he
          have hn : x.called j t = none := by simpa [PendingEvent.index?] using hcalled
          exact key w.received (by simp [hn]) rfl
    · rw [hcalled]
      split
      · exact .inl rfl
      · exact .inr rfl

/-- What a queue started is in the order in which its observer accepted it. -/
theorem startedBy_sublist (h : Binding x) (j : Nat) :
    ∃ o, (x.startedBy j).Sublist (x.acceptedEvents o) := by
  cases hw : x.wraps[j]? with
  | none => exact ⟨0, by simp [startedBy, hw]⟩
  | some w =>
    have hp := Traffic.started_prefix (h.sound j w hw)
    have hs : x.startedBy j = w.context.started.filterMap PendingEvent.index? := by
      simp [startedBy, hw, Wrap.startedEvents]
    refine ⟨w.observer, ?_⟩
    rw [hs, acceptedEvents]
    cases hown : w.ownsObserverBinding with
    | false =>
      rw [h.unowned j w hw hown] at hp
      rw [List.prefix_nil.mp hp]
      exact List.nil_sublist _
    | true =>
      obtain ⟨ob, hob, ha, -⟩ := h.owned j w hw hown
      have hacc : x.acceptedBy w.observer = w.context.accepted := by
        simp [acceptedBy, hob, ha]
      rw [hacc]
      exact hp.sublist.filterMap _

end Participant

/-- A callback rtc-cpp raised, with what it held of its publications then, and what the event has
captured. -/
structure Raise where
  callback : Callback
  publications : Nat → RemotePublication
  captured : Captured

/-- A call of the event callback of a wrap: the position of its event, and what it emits, if it
does not throw. -/
structure Handled where
  wrap : Nat
  position : Nat
  event : EventName
  result : Except JsError (List ListenerArg)

/-- A participant with the payloads of its events, rtc-cpp's publications, and the tracks of the
Room. -/
structure Announcing where
  participant : Participant
  publications : Nat → RemotePublication
  raised : List Raise
  receivers : Receivers
  handled : List Handled

/-- What rtc-cpp, the JS thread and the application do. The release that follows the listeners of
a `trackUnsubscribed` is a step of its own, since they may call anything before it. -/
inductive AnnouncingAct where
  /-- rtc-cpp changes what it answers for a publication. -/
  | publication (i : Nat) (pub : RemotePublication)
  | callback (o : Nat) (c : Callback)
  | enqueueRaw (o i : Nat)
  | createObserver
  | newInstance (o : Nat)
  | setEventCallback (j : Nat)
  | closeObserver (o : Nat)
  | destroyWrap (j : Nat)
  | turn (j : Nat) (t : Turn) (calls : Nat → EndCalls)
  | track (c : TrackCall)

/-- What a step does to observers and wraps; a step of a queue is not among them. -/
def AnnouncingAct.binding? : AnnouncingAct → Option BindingAct
  | .enqueueRaw o i => some (.enqueue o (.raw i))
  | .createObserver => some .createObserver
  | .newInstance o => some (.newInstance o)
  | .setEventCallback j => some (.setEventCallback j)
  | .closeObserver o => some (.closeObserver o)
  | .destroyWrap j => some (.destroyWrap j)
  | .publication .. | .callback .. | .turn .. | .track .. => none

namespace Announcing

section

variable (sid : NativeTrack → Option String) (kind : NativeTrack → NativeKind)

/-- The event callback of wrap `j` is called with an event, or with none. -/
def handle (s : Announcing) (j : Nat) (calls : Nat → EndCalls) (k : Option Nat) : Announcing :=
  match k.bind fun k ↦ s.raised[k]?.map (k, ·) with
  | none => s
  | some (k, r) =>
    let res := eventCallback sid kind calls s.receivers.registry r.captured.createArgs
    { s with
      receivers := { s.receivers with registry := res.1 }
      handled := s.handled ++ [⟨j, k, r.captured.event, res.2⟩] }

/-- One step of one thread. -/
def step (s : Announcing) : AnnouncingAct → Option Announcing
  | .publication i pub => some { s with publications := Function.update s.publications i pub }
  | .callback o c =>
    match c.capture s.publications with
    | none => some s
    | some captured => some { s with
        participant := s.participant.enqueue o (.event s.raised.length)
        raised := s.raised ++ [⟨c, s.publications, captured⟩] }
  | .turn j t calls =>
    (s.participant.turn j t).map fun x ↦
      handle sid kind { s with participant := x.1 } j calls (s.participant.called j t)
  | .track c => (s.receivers.step sid kind c).map fun v ↦ { s with receivers := v }
  | a => a.binding?.bind fun b ↦ (s.participant.bindingStep b).map fun x ↦
      { s with participant := x }

/-- A step removes what the Room has cached under a SID: a release of it or of all, or a wrap of a
native track with the SID and another kind, be it the application's or one for an event. -/
def Removes (s : Announcing) (k : String) : AnnouncingAct → Prop
  | .turn j t _ => ∃ i r n, s.participant.called j t = some i ∧ s.raised[i]? = some r ∧
    r.callback.track? r.publications = some n ∧ s.receivers.registry.Replaces sid kind k n
  | .track c => s.receivers.Removes sid kind k c
  | .publication .. | .callback .. | .enqueueRaw .. | .createObserver | .newInstance _
  | .setEventCallback _ | .closeObserver _ | .destroyWrap _ => False

/-- A participant nothing observes yet, whose publications are as given. -/
def machine (publications : Nat → RemotePublication) : Machine Announcing AnnouncingAct where
  init := ⟨.init, publications, [], (Receivers.machine sid kind).init, []⟩
  step := step sid kind

end

/-- What is raised in a step; where rtc-cpp names no publication nothing is. -/
def raises (s : Announcing) : AnnouncingAct → List Raise
  | .callback _ c => ((c.capture s.publications).map (⟨c, s.publications, ·⟩)).toList
  | _ => []

/-- What the event callback of a wrap was called with. -/
def handledBy (s : Announcing) (j : Nat) : List Nat :=
  (s.handled.filter (·.wrap = j)).map Handled.position

/-- What every step keeps: observers accept events in the order rtc-cpp raised them, each call of
an event callback is one of an event its queue started, and what it emitted tells what rtc-cpp
held at the callback. -/
structure Inv (sid : NativeTrack → Option String) (kind : NativeTrack → NativeKind)
    (s : Announcing) : Prop where
  binding : s.participant.Binding
  held : Receivers.Held sid kind s.receivers
  order : ∀ o, (s.participant.acceptedEvents o).Pairwise (· < ·)
  below : ∀ o, ∀ k ∈ s.participant.acceptedEvents o, k < s.raised.length
  captured : ∀ r ∈ s.raised, r.callback.capture r.publications = some r.captured
  positions : ∀ j, s.handledBy j = s.participant.receivedBy j
  received : ∀ j, (s.participant.receivedBy j).Sublist (s.participant.startedBy j)
  told : ∀ e ∈ s.handled, ∃ r, s.raised[e.position]? = some r ∧ ∀ args, e.result = .ok args →
    Tells sid kind s.receivers.registry r.publications r.callback e.event args

variable {sid : NativeTrack → Option String} {kind : NativeTrack → NativeKind}
  {s s' : Announcing} {x : Participant}

private theorem acceptedEvents_step {a : BindingAct} (h : s.participant.Binding)
    (hs : s.participant.bindingStep a = some x) (o : Nat) :
    x.acceptedEvents o = s.participant.acceptedEvents o ++
      (Participant.accepts o s.participant a).filterMap PendingEvent.index? := by
  rw [Participant.acceptedEvents, Participant.acceptedBy_step o h hs, List.filterMap_append]
  rfl

private theorem inv_silent (h : Inv sid kind s) (hb : x.Binding)
    (hx : Participant.Silent s.participant x) {l : List Raise} (hl : s.raised <+: l)
    (hc : ∀ r ∈ l, r.callback.capture r.publications = some r.captured)
    (ha : ∀ o, x.acceptedEvents o = s.participant.acceptedEvents o ∨
      (s.raised.length < l.length ∧
        x.acceptedEvents o = s.participant.acceptedEvents o ++ [s.raised.length])) :
    Inv sid kind { s with participant := x, raised := l } := by
  have hlen := hl.length_le
  constructor
  · exact hb
  · exact h.held
  · intro o
    rcases ha o with he | ⟨-, he⟩
    · rw [he]
      exact h.order o
    · rw [he, List.pairwise_append]
      refine ⟨h.order o, List.pairwise_singleton _ _, fun k hk i hi ↦ ?_⟩
      rw [List.mem_singleton.mp hi]
      exact h.below o k hk
  · intro o k hk
    rcases ha o with he | ⟨hlt, he⟩
    · rw [he] at hk
      exact Nat.lt_of_lt_of_le (h.below o k hk) hlen
    · rw [he] at hk
      rcases List.mem_append.mp hk with hk | hk
      · exact Nat.lt_of_lt_of_le (h.below o k hk) hlen
      · rwa [List.mem_singleton.mp hk]
  · exact hc
  · intro j
    rw [hx.received j]
    exact h.positions j
  · intro j
    rw [hx.received j, hx.started j]
    exact h.received j
  · intro e he
    obtain ⟨r, hr, ht⟩ := h.told e he
    refine ⟨r, ?_, ht⟩
    obtain ⟨m, rfl⟩ := hl
    rw [List.getElem?_append_left (List.getElem?_eq_some_iff.mp hr).1]
    exact hr

private theorem inv_callback (h : Inv sid kind s) {o : Nat} {c : Callback} {captured : Captured}
    (hc : c.capture s.publications = some captured) :
    Inv sid kind { s with
      participant := s.participant.enqueue o (.event s.raised.length)
      raised := s.raised ++ [⟨c, s.publications, captured⟩] } := by
  have hs : s.participant.bindingStep (.enqueue o (.event s.raised.length)) = some _ := rfl
  apply inv_silent h (Participant.binding_step h.binding hs)
    (Participant.silent_step h.binding (fun _ _ ↦ by simp) hs) (List.prefix_append ..)
  · intro r hr
    rcases List.mem_append.mp hr with hr | hr
    · exact h.captured r hr
    · rw [List.mem_singleton.mp hr]
      exact hc
  · intro i
    rw [acceptedEvents_step h.binding hs i, Participant.accepts]
    split
    · exact .inr ⟨by simp, rfl⟩
    · exact .inl (List.append_nil _)

private theorem step_binding {a : AnnouncingAct} {b : BindingAct} (hb : a.binding? = some b)
    (hs : step sid kind s a = some s') :
    ∃ x, s.participant.bindingStep b = some x ∧ s' = { s with participant := x } := by
  have hstep : step sid kind s a =
      (s.participant.bindingStep b).map fun x ↦ { s with participant := x } := by
    cases a <;> cases hb <;> rfl
  rw [hstep] at hs
  obtain ⟨x, hx, rfl⟩ := Option.map_eq_some_iff.mp hs
  exact ⟨x, hx, rfl⟩

private theorem inv_binding (h : Inv sid kind s) {a : AnnouncingAct} {b : BindingAct}
    (hb : a.binding? = some b) (hs : step sid kind s a = some s') : Inv sid kind s' := by
  obtain ⟨x, hx, rfl⟩ := step_binding hb hs
  have hquiet : (∀ j t, b ≠ .turn j t) ∧
      ∀ o, (Participant.accepts o s.participant b).filterMap PendingEvent.index? = [] := by
    cases a with
    | enqueueRaw o i =>
      cases hb
      refine ⟨fun _ _ ↦ by simp, fun o ↦ ?_⟩
      rw [Participant.accepts]
      split <;> rfl
    | publication i pub => cases hb
    | callback o c => cases hb
    | turn j t calls => cases hb
    | track c => cases hb
    | _ =>
      cases hb
      exact ⟨fun _ _ ↦ by simp, fun _ ↦ rfl⟩
  apply inv_silent h (Participant.binding_step h.binding hx)
    (Participant.silent_step h.binding hquiet.1 hx) List.prefix_rfl h.captured
  intro o
  rw [acceptedEvents_step h.binding hx o, hquiet.2 o]
  exact .inl (List.append_nil _)

private theorem inv_track (h : Inv sid kind s) {c : TrackCall} {v : Receivers}
    (hs : s.receivers.step sid kind c = some v) : Inv sid kind { s with receivers := v } := by
  have hk := Receivers.kept_step h.held.law hs
  refine ⟨h.binding, (Receivers.step_frees h.held hs).1, h.order, h.below, h.captured, h.positions,
    h.received, fun e he ↦ ?_⟩
  obtain ⟨r, hr, ht⟩ := h.told e he
  exact ⟨r, hr, fun args ha ↦ (ht args ha).of_kept hk⟩

private theorem inv_moved (h : Inv sid kind s) (hb : x.Binding)
    (ha : ∀ o, x.acceptedEvents o = s.participant.acceptedEvents o)
    (hr : ∀ j, (x.receivedBy j).Sublist (x.startedBy j)) {l : List Handled} {v : Receivers}
    (hv : Receivers.Held sid kind v)
    (hp : ∀ j, (l.filter (·.wrap = j)).map Handled.position = x.receivedBy j)
    (ht : ∀ e ∈ l, ∃ r, s.raised[e.position]? = some r ∧ ∀ args, e.result = .ok args →
      Tells sid kind v.registry r.publications r.callback e.event args) :
    Inv sid kind { s with participant := x, receivers := v, handled := l } := by
  refine ⟨hb, hv, fun o ↦ ?_, fun o k hk ↦ ?_, h.captured, hp, hr, ht⟩
  · rw [ha o]
    exact h.order o
  · rw [ha o] at hk
    exact h.below o k hk

private theorem inv_turn (h : Inv sid kind s) {j : Nat} {t : Turn} {calls : Nat → EndCalls}
    {hop : Option (Nat × Nat)} (ht : s.participant.turn j t = some (x, hop)) :
    Inv sid kind
      (handle sid kind { s with participant := x } j calls (s.participant.called j t)) := by
  have hs : s.participant.bindingStep (.turn j t) = some x := by
    rw [Participant.bindingStep, ht]
    rfl
  have hb := Participant.binding_step h.binding hs
  have ha : ∀ o, x.acceptedEvents o = s.participant.acceptedEvents o := fun o ↦ by
    rw [acceptedEvents_step h.binding hs o]
    exact List.append_nil _
  obtain ⟨k, hstarted, hreceived, hk⟩ := Participant.turn_calls ht
  have hsub : ∀ i, (x.receivedBy i).Sublist (x.startedBy i) := by
    intro i
    rw [hstarted i, hreceived i]
    split
    · refine (h.received j).append ?_
      rcases hk with he | he
      · rw [he]
      · rw [he]
        exact List.nil_sublist _
    · exact h.received i
  cases hc : s.participant.called j t with
  | none =>
    apply inv_moved h hb ha hsub h.held _ h.told
    intro i
    rw [hreceived i, hc]
    split
    · next hij =>
      rw [hij]
      exact (h.positions j).trans (List.append_nil _).symm
    · exact h.positions i
  | some p =>
    have hlt : p < s.raised.length := by
      obtain ⟨o, ho⟩ := Participant.startedBy_sublist hb j
      apply h.below o
      rw [← ha o]
      apply ho.subset
      apply (hsub j).subset
      rw [hreceived j, if_pos rfl, hc]
      simp
    have hr : s.raised[p]? = some s.raised[p] := List.getElem?_eq_getElem hlt
    generalize s.raised[p] = r at hr
    simp only [handle, Option.bind_some, hr, Option.map_some]
    have hheld : Receivers.Held sid kind { s.receivers with
        registry := (eventCallback sid kind calls s.receivers.registry r.captured.createArgs).1 } :=
      eventCallback_keeps
        (q := fun v ↦ Receivers.Held sid kind { s.receivers with registry := v })
        (fun v n hv ↦ (Receivers.step_frees hv (a := .wrap n calls) rfl).1) _ h.held
    have hkept := kept_of_eventCallback calls h.held.law r.captured.createArgs
    apply inv_moved h hb ha hsub hheld
    · intro i
      rw [hreceived i, hc, List.filter_append, List.map_append]
      split
      · next hij =>
        subst hij
        simpa [handledBy] using h.positions i
      · next hij =>
        simpa [Ne.symm hij, handledBy] using h.positions i
    · intro e he
      rcases List.mem_append.mp he with he | he
      · obtain ⟨q, hq, htold⟩ := h.told e he
        exact ⟨q, hq, fun args hargs ↦ (htold args hargs).of_kept hkept⟩
      · rw [List.mem_singleton.mp he]
        refine ⟨r, hr, fun args hargs ↦ ?_⟩
        apply told h.held.law (h.captured r (List.mem_of_getElem? hr))
        exact Prod.ext rfl hargs

/-- Every step keeps the invariant. -/
theorem inv_step {a : AnnouncingAct} (h : Inv sid kind s) (hs : step sid kind s a = some s') :
    Inv sid kind s' := by
  cases a with
  | publication i pub =>
    cases hs
    exact ⟨h.binding, h.held, h.order, h.below, h.captured, h.positions, h.received, h.told⟩
  | callback o c =>
    simp only [step] at hs
    split at hs
    · cases hs
      exact h
    · next captured hc =>
      cases hs
      exact inv_callback h hc
  | turn j t calls =>
    obtain ⟨⟨x, hop⟩, hx, rfl⟩ := Option.map_eq_some_iff.mp hs
    exact inv_turn h hx
  | track c =>
    obtain ⟨v, hv, rfl⟩ := Option.map_eq_some_iff.mp hs
    exact inv_track h hv
  | _ => exact inv_binding h rfl hs

/-- Every reachable state keeps it. -/
theorem inv_of_reachable {publications : Nat → RemotePublication}
    (h : (machine sid kind publications).Reachable s) : Inv sid kind s := by
  refine h.invariant ?_ fun y a z hy hs ↦ inv_step hy hs
  constructor
  · exact Participant.law_init.binding
  · exact Receivers.held_init
  · intro o
    exact List.Pairwise.nil
  · intro o k hk
    cases hk
  · intro r hr
    cases hr
  · intro j
    rfl
  · intro j
    exact List.Sublist.refl _
  · intro e he
    cases he

private theorem raised_step {a : AnnouncingAct} (hs : step sid kind s a = some s') :
    s'.raised = s.raised ++ s.raises a := by
  cases a with
  | publication i pub =>
    cases hs
    exact (List.append_nil _).symm
  | callback o c =>
    simp only [step] at hs
    split at hs
    · next hc =>
      cases hs
      simp [raises, hc]
    · next captured hc =>
      cases hs
      simp [raises, hc]
  | turn j t calls =>
    obtain ⟨⟨x, hop⟩, -, rfl⟩ := Option.map_eq_some_iff.mp hs
    simp only [raises, List.append_nil, handle]
    split <;> rfl
  | track c =>
    obtain ⟨v, -, rfl⟩ := Option.map_eq_some_iff.mp hs
    exact (List.append_nil _).symm
  | _ =>
    obtain ⟨x, -, rfl⟩ := step_binding rfl hs
    exact (List.append_nil _).symm

/-- The events there are, by position, are those the run raised. -/
theorem raised_of_exec {publications : Nat → RemotePublication} {run : List AnnouncingAct}
    (hr : (machine sid kind publications).exec (machine sid kind publications).init run = some s) :
    s.raised = (machine sid kind publications).collect raises
      (machine sid kind publications).init run := by
  have hp : ∀ y a z, True → (machine sid kind publications).step y a = some z →
      True ∧ z.raised = y.raised ++ y.raises a :=
    fun _ _ _ _ hs ↦ ⟨trivial, raised_step hs⟩
  exact Machine.log_eq_collect hp trivial hr

variable (sid kind) in
private theorem handle_eq (s : Announcing) (j : Nat) (calls : Nat → EndCalls) (k : Option Nat) :
    handle sid kind s j calls k = s ∨ ∃ i r, k = some i ∧ s.raised[i]? = some r ∧
      handle sid kind s j calls k = { s with
        receivers := { s.receivers with registry :=
          (eventCallback sid kind calls s.receivers.registry r.captured.createArgs).1 }
        handled := s.handled ++ [⟨j, i, r.captured.event,
          (eventCallback sid kind calls s.receivers.registry r.captured.createArgs).2⟩] } := by
  cases k with
  | none => exact .inl rfl
  | some i =>
    cases hr : s.raised[i]? with
    | none => exact .inl (by simp [handle, hr])
    | some r => exact .inr ⟨i, r, rfl, hr, by simp [handle, hr]⟩

/-- A step calls an event callback at most once. The wrappers that one emits are those of the track
its callback named, and the Room has them cached when it returns. -/
theorem handled_step {a : AnnouncingAct} (h : Inv sid kind s) (hs : step sid kind s a = some s') :
    s'.handled = s.handled ∨ ∃ e r, s'.handled = s.handled ++ [e] ∧
      s'.raised[e.position]? = some r ∧ ∀ args, e.result = .ok args →
        ∀ w ∈ args.filterMap ListenerArg.wrapper?,
          ∃ n, r.callback.track? r.publications = some n ∧
            ∀ k, sid n = some k → s'.receivers.registry.registry.get k = some w := by
  cases a with
  | publication i pub =>
    cases hs
    exact .inl rfl
  | callback o c =>
    simp only [step] at hs
    split at hs <;> cases hs <;> exact .inl rfl
  | turn j t calls =>
    obtain ⟨⟨x, hop⟩, -, rfl⟩ := Option.map_eq_some_iff.mp hs
    rcases handle_eq sid kind { s with participant := x } j calls (s.participant.called j t) with
      he | ⟨i, r, -, hr, he⟩
    · rw [he]
      exact .inl rfl
    · rw [he]
      refine .inr ⟨_, r, rfl, hr, fun args hargs w hw ↦ ?_⟩
      exact cached_of_eventCallback h.held.law (h.captured r (List.mem_of_getElem? hr))
        (Prod.ext rfl hargs) hw
  | track c =>
    obtain ⟨v, -, rfl⟩ := Option.map_eq_some_iff.mp hs
    exact .inl rfl
  | _ =>
    obtain ⟨x, -, rfl⟩ := step_binding rfl hs
    exact .inl rfl

/-- What the Room has cached stays cached through a step that does not remove it. -/
theorem cached_step {a : AnnouncingAct} {k : String} {w : Nat} (h : Inv sid kind s)
    (hg : s.receivers.registry.registry.get k = some w) (hn : ¬ s.Removes sid kind k a)
    (hs : step sid kind s a = some s') : s'.receivers.registry.registry.get k = some w := by
  cases a with
  | publication i pub =>
    cases hs
    exact hg
  | callback o c =>
    simp only [step] at hs
    split at hs <;> cases hs <;> exact hg
  | turn j t calls =>
    obtain ⟨⟨x, hop⟩, -, rfl⟩ := Option.map_eq_some_iff.mp hs
    rcases handle_eq sid kind { s with participant := x } j calls (s.participant.called j t) with
      he | ⟨i, r, hi, hr, he⟩
    · rw [he]
      exact hg
    · rw [he]
      exact cached_eventCallback h.held.law hg (h.captured r (List.mem_of_getElem? hr))
        fun n hname hrep ↦ hn ⟨i, r, n, hi, hr, hname, hrep⟩
  | track c =>
    obtain ⟨v, hv, rfl⟩ := Option.map_eq_some_iff.mp hs
    exact Receivers.entry_step h.held.law hg hn hv
  | _ =>
    obtain ⟨x, -, rfl⟩ := step_binding rfl hs
    exact hg

/-- So does it through a run in which no step removes it. -/
theorem cached_run {publications : Nat → RemotePublication} {run : List AnnouncingAct}
    {k : String} {w : Nat} (h : Inv sid kind s)
    (hg : s.receivers.registry.registry.get k = some w)
    (hrun : (machine sid kind publications).Along (fun s a ↦ ¬ s.Removes sid kind k a) s run)
    (hr : (machine sid kind publications).exec s run = some s') :
    s'.receivers.registry.registry.get k = some w :=
  (Machine.exec_invariant_along
    (p := fun s ↦ Inv sid kind s ∧ s.receivers.registry.registry.get k = some w)
    (fun _ _ _ hs hn hstep ↦ ⟨inv_step hs.1 hstep, cached_step hs.1 hs.2 hn hstep⟩)
    ⟨h, hg⟩ hrun hr).2

/-- In every run, each call of the event callback of a wrap that does not throw emits what rtc-cpp
held when it raised the event, however much later the call is and whatever rtc-cpp and the
application did meanwhile: the publication is of the class of its kind, with the answers of then,
and with a track exactly if it was subscribed then and has one to carry. A wrap's calls are what its
queue delivers, in the order the events were raised. Every wrapper that is emitted is the one the
Room has cached under the SID of the track that was named, if it has one, from the call on until a
step removes it. -/
theorem announcements_faithful {publications : Nat → RemotePublication} {run : List AnnouncingAct}
    (hr : (machine sid kind publications).exec (machine sid kind publications).init run = some s) :
    (∀ e ∈ s.handled, ∃ r, ((machine sid kind publications).collect raises
        (machine sid kind publications).init run)[e.position]? = some r ∧
      ∀ args, e.result = .ok args →
        Tells sid kind s.receivers.registry r.publications r.callback e.event args) ∧
    (∀ j, s.handledBy j = s.participant.receivedBy j ∧ (s.handledBy j).Pairwise (· < ·)) ∧
    ∀ a s', step sid kind s a = some s' →
      s'.handled = s.handled ∨ ∃ e r, s'.handled = s.handled ++ [e] ∧
        s'.raised[e.position]? = some r ∧ ∀ args, e.result = .ok args →
          ∀ w ∈ args.filterMap ListenerArg.wrapper?,
            ∃ n, r.callback.track? r.publications = some n ∧
              ∀ k, sid n = some k → ∀ later s'',
                (machine sid kind publications).Along (fun s a ↦ ¬ s.Removes sid kind k a) s'
                  later →
                (machine sid kind publications).exec s' later = some s'' →
                s''.receivers.registry.registry.get k = some w := by
  have h := inv_of_reachable ⟨run, hr⟩
  rw [← raised_of_exec hr]
  refine ⟨h.told, fun j ↦ ⟨h.positions j, ?_⟩, fun a s' hs ↦ ?_⟩
  · rw [h.positions j]
    obtain ⟨o, ho⟩ := Participant.startedBy_sublist h.binding j
    exact (h.order o).sublist ((h.received j).trans ho)
  · rcases handled_step h hs with he | ⟨e, r, he, hraised, hw⟩
    · exact .inl he
    · refine .inr ⟨e, r, he, hraised, fun args hargs w hin ↦ ?_⟩
      obtain ⟨n, hn, hg⟩ := hw args hargs w hin
      exact ⟨n, hn, fun k hk later s'' hlater hexec ↦
        cached_run (inv_step h hs) (hg k hk) hlater hexec⟩

-- a video track that is lost before the event that told of it is delivered
private def camera (subscribed : Bool) : RemotePublication :=
  ⟨"MT0", "camera", .video, true, subscribed, if subscribed then some 0 else none⟩

private def subscribedThenLost : List AnnouncingAct :=
  [.createObserver, .newInstance 0, .setEventCallback 0,
    .callback 0 (.onSubscriptionEvent .trackSubscribed 0 0), .publication 0 (camera false),
    .turn 0 .onAsync allReturn, .turn 0 .swap allReturn]

private def delivery : AnnouncingAct := .turn 0 .next allReturn

-- what the application does with the tracks of the Room afterwards
private def afterwards : List AnnouncingAct :=
  [.track (.wrap 0 allReturn), .track (.endTrack 0 allReturn), .track (.release "MT1" allReturn)]

private def heard : List ListenerArg :=
  [.track 0, .publication ⟨.video, "MT0", "camera", "video", true, true, some 0⟩]

private def cameras : Machine Announcing AnnouncingAct :=
  machine (fun _ ↦ some "MT0") (fun _ ↦ .video) fun _ ↦ camera true

/-- The listener of a track that was lost meanwhile hears that it was subscribed, and has the
wrapper that goes on being the one of the Room. -/
theorem announcements_faithful_lost : ∃ s s',
    cameras.exec cameras.init subscribedThenLost = some s ∧ cameras.step s delivery = some s' ∧
    (s'.publications 0).isTrackSubscribed = false ∧
    (∃ e, s'.handled = [e] ∧ e.result = .ok heard ∧
      Tells (fun _ ↦ some "MT0") (fun _ ↦ .video) s'.receivers.registry (fun _ ↦ camera true)
        (.onSubscriptionEvent .trackSubscribed 0 0) e.event heard) ∧
    ∃ s'', cameras.exec s' afterwards = some s'' ∧
      s''.receivers.registry.registry.get "MT0" = some 0 := by
  have hstays : ∀ {s s' s'' : Announcing} {e : Handled},
      cameras.exec cameras.init subscribedThenLost = some s → cameras.step s delivery = some s' →
      s.handled = [] → s'.handled = [e] → e.result = .ok heard →
      cameras.exec s' afterwards = some s'' →
      s''.receivers.registry.registry.get "MT0" = some 0 := by
    intro s s' s'' e hr hs hnone hone hheard hexec
    rcases (announcements_faithful hr).2.2 delivery s' hs with he | ⟨e', r, he, -, hw⟩
    · rw [hnone, hone] at he
      cases he
    · rw [hnone, hone, List.nil_append] at he
      cases he
      obtain ⟨n, -, hk⟩ := hw heard hheard 0 (by simp [heard, ListenerArg.wrapper?])
      refine hk "MT0" rfl afterwards s'' ?_ hexec
      have hlaw := (inv_of_reachable (Machine.Reachable.step ⟨_, hr⟩ hs)).held.law
      have hkind : ∀ v t, s'.receivers.registry.registry.get "MT0" = some v →
          s'.receivers.registry.tracks[v]? = some t → t.kind = .video := by
        intro v t hg ht
        obtain ⟨u, hu, -, hk⟩ := hlaw.cached "MT0" v hg
        cases ht.symm.trans hu
        exact hk
      simpa [afterwards, Machine.Along, Removes, Receivers.Removes, TrackRegistry.Replaces]
        using fun v hg t ↦ hkind v t hg
  have hr : cameras.exec cameras.init (subscribedThenLost ++ [delivery]) = some _ := rfl
  obtain ⟨r, hget, htold⟩ := (announcements_faithful hr).1 _ (List.mem_singleton.mpr rfl)
  cases hget
  exact ⟨_, _, rfl, rfl, rfl, ⟨_, rfl, rfl, htold _ rfl⟩, _, rfl, hstays rfl rfl rfl rfl rfl rfl⟩

end Announcing

end VideoNode.Remote
