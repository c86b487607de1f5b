import VideoNode.Common.Delivery

/-!
# The observer of the local participant

`LocalParticipantObserverImpl` and its single `LocalParticipantWrap`,
`src/video/local_participant_wrap.cpp`. The room installs the observer before JavaScript asks for
the local participant, so it buffers until the wrap is made. Events are named by the order they
are raised in, and what they carry is left out.
-/

namespace VideoNode.Local

open VideoNode.Common VideoNode.Lts

/-- `LocalParticipantObserverImpl`, with everything it accepted so far. The wrap and its context
are set together; `src/video/local_participant_wrap.cpp:134–138`. -/
structure LocalParticipantObserver where
  closed : Bool
  bound : Bool
  pending : List Nat
  accepted : List Nat
  deriving DecidableEq, Repr

/-- `LocalParticipantWrap` with its queue, whether JS has set an event callback on it, and the
events that callback was called with. `adopted` says whether `bind` took the wrap, which the
source does not keep. -/
structure LocalParticipantWrap where
  adopted : Bool
  eventCallback : Bool
  context : Traffic Nat
  received : List Nat
  deriving DecidableEq, Repr

/-- The native local participant: whether it reports to the observer, the observer and the wrap
once they are made. -/
structure ObservedParticipant where
  installed : Bool
  observer : Option LocalParticipantObserver
  wrap : Option LocalParticipantWrap
  deriving DecidableEq, Repr

/-- What happens around the local participant. -/
inductive ObservedAct where
  | createObserver
  | dispatchEvent (event : Nat)
  | newInstance
  | setEventCallback
  | closeObserver
  | destroyWrap
  | turn (t : Turn)
  deriving DecidableEq, Repr

/-- The observer `CreateObserver` makes; `src/video/local_participant_wrap.cpp:164–169`. -/
def LocalParticipantObserver.create : LocalParticipantObserver := ⟨false, false, [], []⟩

/-- `close`; `src/video/local_participant_wrap.cpp:36–43`. -/
def LocalParticipantObserver.close (ob : LocalParticipantObserver) : LocalParticipantObserver :=
  if ob.closed then ob else { ob with closed := true, bound := false, pending := [] }

/-- A wrap with its unlimited context; `src/video/local_participant_wrap.cpp:175–182`. -/
def LocalParticipantWrap.create : LocalParticipantWrap :=
  ⟨false, false, (Traffic.machine Nat 0).init, []⟩

/-- `ctx_->dispatch` in `dispatchLocked`; `src/video/local_participant_wrap.cpp:104–110`. -/
def LocalParticipantWrap.dispatch (w : LocalParticipantWrap) (event : Nat) :
    LocalParticipantWrap := { w with context := w.context.dispatch event }

namespace ObservedParticipant

/-- `dispatchEvent` of observer `ob`; `src/video/local_participant_wrap.cpp:87–101`. -/
def dispatchEvent (x : ObservedParticipant) (ob : LocalParticipantObserver) (event : Nat) :
    ObservedParticipant :=
  if ob.closed then x
  else if ob.bound then
    { x with
      observer := some { ob with accepted := ob.accepted ++ [event] }
      wrap := x.wrap.map fun w ↦ w.dispatch event }
  else
    let ob' : LocalParticipantObserver :=
      { ob with pending := ob.pending ++ [event], accepted := ob.accepted ++ [event] }
    { x with observer := some ob' }

/-- `bind` of observer `ob` to the wrap `w`; `src/video/local_participant_wrap.cpp:21–34`. -/
def bind (x : ObservedParticipant) (ob : LocalParticipantObserver) (w : LocalParticipantWrap) :
    ObservedParticipant :=
  if ob.closed ∨ ob.bound then { x with wrap := some w }
  else
    { x with
      observer := some { ob with bound := true, pending := [] }
      wrap := some { ob.pending.foldl LocalParticipantWrap.dispatch w with adopted := true } }

/-- `NewInstance`, which installs an observer if it is not given one;
`src/video/local_participant_wrap.cpp:175–187`. -/
def newInstance (x : ObservedParticipant) : ObservedParticipant :=
  match x.observer with
  | some ob => x.bind ob .create
  | none =>
    { x with installed := true, observer := some .create }.bind .create .create

/-- The destructor takes the observer with it; `src/video/local_participant_wrap.cpp:193–205`. -/
def destroyWrap (x : ObservedParticipant) (w : LocalParticipantWrap) :
    Option ObservedParticipant :=
  (w.context.step .destroy).map fun context ↦
    { installed := false
      observer := x.observer.map LocalParticipantObserver.close
      wrap := some { w with eventCallback := false, context := context } }

/-- Whether the callback of the queue still has its observer and wrap. Nothing here looks at a
flag of the wrap; `src/video/local_participant_wrap.cpp:105–106`. -/
def delivers (x : ObservedParticipant) : Bool :=
  match x.observer with
  | none => false
  | some ob => !ob.closed && ob.bound

/-- A step of the wrap's `drain()`; a callback runs as it starts and calls the event callback,
`src/video/local_participant_wrap.cpp:104–110` and `emitEvent`, `:207–215`. -/
def turn (x : ObservedParticipant) (w : LocalParticipantWrap) (t : Turn) :
    Option ObservedParticipant :=
  (w.context.step (.turn t)).map fun context ↦
    let event := if x.delivers && w.eventCallback then w.context.loop.started t else none
    { x with wrap := some { w with context := context, received := w.received ++ event.toList } }

/-- One step of one thread. The room caches the only wrap it makes, and observers are made once. -/
def step (x : ObservedParticipant) : ObservedAct → Option ObservedParticipant
  | .createObserver =>
    if x.observer = none then some { x with installed := true, observer := some .create } else none
  | .dispatchEvent event => x.observer.map fun ob ↦ x.dispatchEvent ob event
  | .newInstance => if x.wrap = none then some x.newInstance else none
  | .setEventCallback =>
    x.wrap.map fun w ↦ { x with wrap := some { w with eventCallback := true } }
  | .closeObserver => x.observer.map fun ob ↦ { x with observer := some ob.close }
  | .destroyWrap => x.wrap.bind fun w ↦ x.destroyWrap w
  | .turn t => x.wrap.bind fun w ↦ x.turn w t

/-- A participant nothing observes yet, and everything that can happen around it. -/
def machine : Machine ObservedParticipant ObservedAct where
  init := ⟨false, none, none⟩
  step := step

/-- What the observer accepts in a step: what is dispatched on it while it is not closed. -/
def accepts (x : ObservedParticipant) : ObservedAct → List Nat
  | .dispatchEvent event =>
    if x.observer.map LocalParticipantObserver.closed = some false then [event] else []
  | _ => []

/-- Everything the observer accepted so far. -/
def accepted (x : ObservedParticipant) : List Nat :=
  (x.observer.map LocalParticipantObserver.accepted).getD []

/-- How the observer and the wrap belong together. An observer that is not bound yet has its
buffer; one that is bound has an open wrap it took; the queue of a wrap that was taken accepted
what the observer did, and the queue of one that was not accepted nothing. -/
structure Binding (x : ObservedParticipant) : Prop where
  sound : ∀ w, x.wrap = some w → (Traffic.machine Nat 0).Reachable w.context
  bound : ∀ ob, x.observer = some ob → ob.bound = true → ob.closed = false ∧
    ∃ w, x.wrap = some w ∧ w.adopted = true ∧ w.context.loop.ctx.closed = false
  buffered : ∀ ob, x.observer = some ob → ob.closed = false → ob.bound = false →
    ob.pending = ob.accepted
  adopted : ∀ w, x.wrap = some w → w.adopted = true → ∃ ob, x.observer = some ob ∧
    w.context.accepted = ob.accepted ∧ (ob.bound = true ∨ ob.closed = true)
  refused : ∀ w, x.wrap = some w → w.adopted = false → w.context.accepted = []

/-- Nothing is observed or wrapped at first. -/
theorem binding_init : Binding machine.init := by
  constructor <;> simp [machine]

private theorem replay_create (events : List Nat) :
    ∃ c, events.foldl LocalParticipantWrap.dispatch .create = { LocalParticipantWrap.create with
        context := c } ∧ (Traffic.machine Nat 0).Reachable c ∧ c.accepted = events ∧
      c.loop.ctx.closed = false := by
  have he : ∀ v : LocalParticipantWrap, events.foldl LocalParticipantWrap.dispatch v =
      { v with context := events.foldl Traffic.dispatch v.context } := by
    intro v
    let f : Traffic Nat → LocalParticipantWrap := fun c ↦ { v with context := c }
    have hf : ∀ c event, LocalParticipantWrap.dispatch (f c) event = f (c.dispatch event) :=
      fun _ _ ↦ rfl
    exact List.foldl_hom f hf
  obtain ⟨hr, ha, -, hcl⟩ :=
    Traffic.replay_of_open events (Machine.reachable_init (Traffic.machine Nat 0)) rfl
  exact ⟨_, he _, hr, ha, hcl⟩

/-- Making the wrap binds it to an observer that is open, with its buffer in the queue. -/
theorem binding_bind {x : ObservedParticipant} {ob : LocalParticipantObserver} (h : Binding x)
    (hob : x.observer = some ob) (hw : x.wrap = none) : Binding (x.bind ob .create) := by
  have hb : ob.bound = false := by
    cases hb : ob.bound with
    | false => rfl
    | true =>
      obtain ⟨-, w, hw', -⟩ := h.bound ob hob hb
      rw [hw] at hw'
      cases hw'
  cases hc : ob.closed with
  | true =>
    have he : x.bind ob .create = { x with wrap := some .create } := by simp [bind, hc]
    rw [he]
    refine ⟨?_, ?_, h.buffered, ?_, ?_⟩
    · rintro w ⟨⟩
      exact Machine.reachable_init _
    · intro ob' hob' hb'
      have hob' : x.observer = some ob' := hob'
      rw [hob] at hob'
      cases hob'
      rw [hb] at hb'
      cases hb'
    · rintro w ⟨⟩ ha
      cases ha
    · rintro w ⟨⟩ -
      rfl
  | false =>
    obtain ⟨c, hr, hs, ha, hcl⟩ := replay_create ob.pending
    have he : x.bind ob .create = { x with
        observer := some { ob with bound := true, pending := [] }
        wrap := some ⟨true, false, c, []⟩ } := by
      rw [bind, if_neg (by simp [hc, hb]), hr]
      rfl
    rw [he]
    refine ⟨?_, ?_, ?_, ?_, ?_⟩
    · rintro w ⟨⟩
      exact hs
    · rintro ob' ⟨⟩ -
      exact ⟨hc, _, rfl, rfl, hcl⟩
    · rintro ob' ⟨⟩ - hb'
      cases hb'
    · rintro w ⟨⟩ -
      exact ⟨_, rfl, ha.trans (h.buffered ob hob hc hb), .inl rfl⟩
    · rintro w ⟨⟩ ha'
      cases ha'

/-- Replacing the wrap by one that differs in its callback and in what its queue has done. -/
theorem binding_touch {x : ObservedParticipant} {w w' : LocalParticipantWrap} (h : Binding x)
    (hw : x.wrap = some w) (hs : (Traffic.machine Nat 0).Reachable w'.context)
    (hb : w'.adopted = w.adopted) (ha : w'.context.accepted = w.context.accepted)
    (hc : w'.context.loop.ctx.closed = w.context.loop.ctx.closed) :
    Binding { x with wrap := some w' } := by
  refine ⟨?_, ?_, h.buffered, ?_, ?_⟩
  · rintro v ⟨⟩
    exact hs
  · intro ob hob hbound
    obtain ⟨hcl, v, hv, hva, hvo⟩ := h.bound ob hob hbound
    rw [hw] at hv
    cases hv
    exact ⟨hcl, w', rfl, hb.trans hva, hc.trans hvo⟩
  · rintro v ⟨⟩ hva
    obtain ⟨ob, hob, hacc, hst⟩ := h.adopted w hw (hb ▸ hva)
    exact ⟨ob, hob, ha.trans hacc, hst⟩
  · rintro v ⟨⟩ hva
    exact ha.trans (h.refused w hw (hb ▸ hva))

/-- Closing the observer leaves the queue with what the observer accepted. -/
theorem binding_close {x : ObservedParticipant} {ob : LocalParticipantObserver} (h : Binding x)
    (hob : x.observer = some ob) : Binding { x with observer := some ob.close } := by
  have hcl : ob.close.closed = true ∧ ob.close.bound = false ∧
      ob.close.accepted = ob.accepted := by
    cases hc : ob.closed with
    | false => simp [LocalParticipantObserver.close, hc]
    | true =>
      have hb : ob.bound = false := by
        cases hb : ob.bound with
        | false => rfl
        | true =>
          have hf := (h.bound ob hob hb).1
          rw [hc] at hf
          cases hf
      simp [LocalParticipantObserver.close, hc, hb]
  obtain ⟨hc, hb, ha⟩ := hcl
  refine ⟨h.sound, ?_, ?_, ?_, h.refused⟩
  · rintro ob' ⟨⟩ hb'
    rw [hb] at hb'
    cases hb'
  · rintro ob' ⟨⟩ hc'
    rw [hc] at hc'
    cases hc'
  · intro w hw hwa
    obtain ⟨ob', hob', hacc, -⟩ := h.adopted w hw hwa
    rw [hob] at hob'
    cases hob'
    exact ⟨_, rfl, hacc.trans ha.symm, .inr hc⟩

/-- What the observer accepts goes to its buffer or to the queue of its wrap. -/
theorem binding_dispatchEvent {x : ObservedParticipant} {ob : LocalParticipantObserver}
    (event : Nat) (h : Binding x) (hob : x.observer = some ob) :
    Binding (x.dispatchEvent ob event) := by
  cases hc : ob.closed with
  | true => simpa [dispatchEvent, hc] using h
  | false =>
    cases hb : ob.bound with
    | false =>
      have he : x.dispatchEvent ob event = { x with observer := some { ob with
          pending := ob.pending ++ [event], accepted := ob.accepted ++ [event] } } := by
        simp [dispatchEvent, hc, hb]
      rw [he]
      refine ⟨h.sound, ?_, ?_, ?_, h.refused⟩
      · rintro ob' ⟨⟩ hb'
        rw [hb] at hb'
        cases hb'
      · rintro ob' ⟨⟩ - -
        exact congrArg (· ++ [event]) (h.buffered ob hob hc hb)
      · intro w hw hwa
        -- A wrap that was taken has an observer that is bound or closed.
        obtain ⟨ob', hob', -, hst⟩ := h.adopted w hw hwa
        rw [hob] at hob'
        cases hob'
        rw [hb, hc] at hst
        simp at hst
    | true =>
      obtain ⟨-, w, hw, hwa, hwo⟩ := h.bound ob hob hb
      obtain ⟨hr, ha, -, hcl⟩ := Traffic.dispatch_of_open event (h.sound w hw) hwo
      have he : x.dispatchEvent ob event = { x with
          observer := some { ob with accepted := ob.accepted ++ [event] }
          wrap := some (w.dispatch event) } := by
        simp [dispatchEvent, hc, hb, hw]
      rw [he]
      refine ⟨?_, ?_, ?_, ?_, ?_⟩
      · rintro v ⟨⟩
        exact hr
      · rintro ob' ⟨⟩ -
        exact ⟨hc, _, rfl, hwa, hcl⟩
      · rintro ob' ⟨⟩ - hb'
        rw [hb] at hb'
        cases hb'
      · rintro v ⟨⟩ -
        obtain ⟨ob', hob', hacc, -⟩ := h.adopted w hw hwa
        rw [hob] at hob'
        cases hob'
        exact ⟨_, rfl, ha.trans (congrArg (· ++ [event]) hacc), .inl hb⟩
      · rintro v ⟨⟩ hva
        rw [LocalParticipantWrap.dispatch, hwa] at hva
        cases hva

/-- Installing the observer, which nothing was accepted by. -/
theorem binding_createObserver {x : ObservedParticipant} (h : Binding x)
    (hob : x.observer = none) :
    Binding { x with installed := true, observer := some .create } := by
  refine ⟨h.sound, ?_, ?_, ?_, h.refused⟩
  · rintro ob ⟨⟩ hb
    cases hb
  · rintro ob ⟨⟩ - -
    rfl
  · intro w hw hwa
    obtain ⟨ob, hob', -⟩ := h.adopted w hw hwa
    rw [hob] at hob'
    cases hob'

/-- Destroying the wrap closes its queue and then its observer. -/
theorem binding_destroyWrap {x x' : ObservedParticipant} {w : LocalParticipantWrap}
    (h : Binding x) (hw : x.wrap = some w) (hd : x.destroyWrap w = some x') : Binding x' := by
  obtain ⟨c, hc, rfl⟩ := Option.map_eq_some_iff.mp hd
  obtain ⟨ha, -, -⟩ := Traffic.step_destroy hc
  have hs : (Traffic.machine Nat 0).Reachable c :=
    Machine.Reachable.step (a := .destroy) (h.sound w hw) hc
  cases hob : x.observer with
  | none =>
    have hwa : w.adopted = false := by
      cases hwa : w.adopted with
      | false => rfl
      | true =>
        obtain ⟨ob, hob', -⟩ := h.adopted w hw hwa
        rw [hob] at hob'
        cases hob'
    refine ⟨?_, ?_, ?_, ?_, ?_⟩
    · rintro v ⟨⟩
      exact hs
    · rintro ob ⟨⟩
    · rintro ob ⟨⟩
    · rintro v ⟨⟩ hva
      rw [hwa] at hva
      cases hva
    · rintro v ⟨⟩ -
      exact ha.trans (h.refused w hw hwa)
  | some ob =>
    have hy := binding_close h hob
    refine ⟨?_, ?_, hy.buffered, ?_, ?_⟩
    · rintro v ⟨⟩
      exact hs
    · -- The observer is closed now, so it is bound to nothing.
      intro ob' hob' hb
      obtain ⟨hcl, -⟩ := hy.bound ob' hob' hb
      obtain ⟨rfl⟩ : ob.close = ob' := Option.some.inj hob'
      unfold LocalParticipantObserver.close at hcl
      split at hcl
      · next hc => rw [hc] at hcl; cases hcl
      · cases hcl
    · rintro v ⟨⟩ hva
      obtain ⟨ob', hob', hacc, hst⟩ := hy.adopted w hw hva
      exact ⟨ob', hob', ha.trans hacc, hst⟩
    · rintro v ⟨⟩ hva
      exact ha.trans (h.refused w hw hva)

/-- Every step keeps the observer and the wrap together. -/
theorem binding_step {x x' : ObservedParticipant} {a : ObservedAct} (h : Binding x)
    (hs : x.step a = some x') : Binding x' := by
  cases a with
  | createObserver =>
    simp only [step] at hs
    split at hs
    · next hob =>
      cases hs
      exact binding_createObserver h hob
    · cases hs
  | dispatchEvent event =>
    obtain ⟨ob, hob, rfl⟩ := Option.map_eq_some_iff.mp hs
    exact binding_dispatchEvent event h hob
  | newInstance =>
    simp only [step] at hs
    split at hs
    · next hw =>
      cases hs
      cases hob : x.observer with
      | none =>
        rw [newInstance, hob]
        exact binding_bind (binding_createObserver h hob) rfl hw
      | some ob =>
        rw [newInstance, hob]
        exact binding_bind h hob hw
    · cases hs
  | setEventCallback =>
    obtain ⟨w, hw, rfl⟩ := Option.map_eq_some_iff.mp hs
    exact binding_touch h hw (h.sound w hw) rfl rfl rfl
  | closeObserver =>
    obtain ⟨ob, hob, rfl⟩ := Option.map_eq_some_iff.mp hs
    exact binding_close h hob
  | destroyWrap =>
    obtain ⟨w, hw, hd⟩ := Option.bind_eq_some_iff.mp hs
    exact binding_destroyWrap h hw hd
  | turn t =>
    obtain ⟨w, hw, ht⟩ := Option.bind_eq_some_iff.mp hs
    obtain ⟨c, hc, rfl⟩ := Option.map_eq_some_iff.mp ht
    obtain ⟨ha, -, hcl, -⟩ := Traffic.step_turn hc
    exact binding_touch h hw (Machine.Reachable.step (a := .turn t) (h.sound w hw) hc) rfl ha hcl

/-- Each step extends what the observer accepted by what it accepts in that step. -/
theorem accepted_step {x x' : ObservedParticipant} {a : ObservedAct} (hs : x.step a = some x') :
    x'.accepted = x.accepted ++ x.accepts a := by
  have hclose : ∀ ob : LocalParticipantObserver, ob.close.accepted = ob.accepted := by
    intro ob
    unfold LocalParticipantObserver.close
    split <;> rfl
  have hbind : ∀ (y : ObservedParticipant) (ob : LocalParticipantObserver)
      (w : LocalParticipantWrap), y.observer = some ob → (y.bind ob w).accepted = ob.accepted := by
    intro y ob w hob
    unfold bind
    split <;> simp [accepted, hob]
  cases a with
  | createObserver =>
    simp only [step] at hs
    split at hs
    · next hob =>
      cases hs
      simp [accepted, accepts, hob, LocalParticipantObserver.create]
    · cases hs
  | dispatchEvent event =>
    obtain ⟨ob, hob, rfl⟩ := Option.map_eq_some_iff.mp hs
    cases hc : ob.closed with
    | true => simp [dispatchEvent, accepted, accepts, hob, hc]
    | false => cases hb : ob.bound <;> simp [dispatchEvent, accepted, accepts, hob, hc, hb]
  | newInstance =>
    simp only [step] at hs
    split at hs
    · cases hs
      cases hob : x.observer with
      | none =>
        rw [newInstance, hob]
        refine (hbind _ _ _ rfl).trans ?_
        simp [accepted, accepts, hob, LocalParticipantObserver.create]
      | some ob =>
        rw [newInstance, hob]
        refine (hbind _ _ _ hob).trans ?_
        simp [accepted, accepts, hob]
    · cases hs
  | setEventCallback =>
    obtain ⟨w, -, rfl⟩ := Option.map_eq_some_iff.mp hs
    exact (List.append_nil _).symm
  | closeObserver =>
    obtain ⟨ob, hob, rfl⟩ := Option.map_eq_some_iff.mp hs
    simp [accepted, accepts, hob, hclose]
  | destroyWrap =>
    obtain ⟨w, -, hd⟩ := Option.bind_eq_some_iff.mp hs
    obtain ⟨c, -, rfl⟩ := Option.map_eq_some_iff.mp hd
    cases hob : x.observer <;> simp [accepted, accepts, hob, hclose]
  | turn t =>
    obtain ⟨w, -, ht⟩ := Option.bind_eq_some_iff.mp hs
    obtain ⟨c, -, rfl⟩ := Option.map_eq_some_iff.mp ht
    exact (List.append_nil _).symm

/-- The observer and the wrap belong together after every run. -/
theorem binding_of_exec {run : List ObservedAct} {x : ObservedParticipant}
    (hr : machine.exec machine.init run = some x) : Binding x := by
  refine Machine.exec_invariant (p := Binding) (fun y a z h hs ↦ ?_) binding_init hr
  exact binding_step h hs

/-- After every run, what the observer accepted is what the run dispatched before it closed. -/
theorem accepted_of_exec {run : List ObservedAct} {x : ObservedParticipant}
    (hr : machine.exec machine.init run = some x) :
    x.accepted = machine.collect accepts machine.init run :=
  Machine.log_eq_collect (i := fun _ ↦ True) (fun _ _ _ _ hs ↦ ⟨trivial, accepted_step hs⟩)
    trivial hr

/-- The queue of the wrap has what the observer accepted, each of it once and in that order; one
that is made when the observer is closed gets nothing. -/
theorem handed {x : ObservedParticipant} {w : LocalParticipantWrap} (h : Binding x)
    (hw : x.wrap = some w) : w.context.accepted = if w.adopted then x.accepted else [] := by
  cases hwa : w.adopted with
  | false => simpa using h.refused w hw hwa
  | true =>
    obtain ⟨ob, hob, ha, -⟩ := h.adopted w hw hwa
    rw [if_pos rfl, ha]
    simp [accepted, hob]

/-- The wrap takes the observer over unless that is closed, with everything it accepted until
then. -/
theorem newInstance_takes {run : List ObservedAct} {x x' : ObservedParticipant}
    (hr : machine.exec machine.init run = some x) (hs : machine.step x .newInstance = some x') :
    ∃ w, x'.wrap = some w ∧
      (w.adopted = true ↔ x.observer.map LocalParticipantObserver.closed ≠ some true) ∧
      w.context.accepted = if w.adopted then machine.collect accepts machine.init run else [] := by
  have h := binding_of_exec hr
  have hadopts : ∃ w, x'.wrap = some w ∧
      (w.adopted = true ↔ x.observer.map LocalParticipantObserver.closed ≠ some true) := by
    simp only [machine, step] at hs
    split at hs
    · next hw =>
      cases hs
      cases hob : x.observer with
      | none => exact ⟨_, by rw [newInstance, hob]; rfl, by simp⟩
      | some ob =>
        -- Nothing is bound while there is no wrap.
        have hb : ob.bound = false := by
          cases hb : ob.bound with
          | false => rfl
          | true =>
            obtain ⟨-, w, hw', -⟩ := h.bound ob hob hb
            rw [hw] at hw'
            cases hw'
        rw [newInstance, hob]
        cases hc : ob.closed with
        | true => exact ⟨.create, by simp [bind, hc], by simp [LocalParticipantWrap.create, hc]⟩
        | false => exact ⟨_, by simp only [bind, hc, hb]; rfl, by simp [hc]⟩
    · cases hs
  obtain ⟨w, hw, ha⟩ := hadopts
  refine ⟨w, hw, ha, ?_⟩
  have hadd : x'.accepted = x.accepted ++ [] := accepted_step (a := .newInstance) hs
  rw [List.append_nil, accepted_of_exec hr] at hadd
  rw [← hadd]
  exact handed (binding_step (a := .newInstance) h hs) hw

end ObservedParticipant

end VideoNode.Local
