import VideoNode.Common.Delivery
import VideoNode.Lts.Parties

/-!
# One remote participant

`src/video/remote_participant_wrap.cpp`: the observers installed on one native participant, the
JS wraps made for it, and how an event raised on it gets from the observer through the queue of
the wrap that is bound to it to that wrap's event callback. Observers and wraps are numbered in
the order they are made. Events are named by the position at which they were raised on their
participant, and what an event carries is left out: nothing here depends on it.
-/

namespace VideoNode.Remote

open VideoNode.Common VideoNode.Lts

/-- `PendingEvent`: an event to emit, or work to run on the queue without emitting anything. Such
work is always the last hop of an `onParticipantDisconnected`, named by its position among the
Room's callbacks; `src/video/remote_participant_wrap.cpp:67–73`. -/
inductive PendingEvent where
  | event (index : Nat)
  | raw (index : Nat)
  deriving DecidableEq, Repr

/-- The position of an event to emit. -/
def PendingEvent.index? : PendingEvent → Option Nat
  | .event index => some index
  | .raw _ => none

/-- `RemoteParticipantObserverImpl`, with everything it accepted so far. The wrap, its context
and its `alive_` flag are set together; `src/video/remote_participant_wrap.cpp:322–327`. -/
structure Observer where
  closed : Bool
  wrap : Option Nat
  pending : List PendingEvent
  accepted : List PendingEvent
  deriving DecidableEq, Repr

/-- `RemoteParticipantWrap` with its queue, whether JS has set an event callback on it, and the
events that callback was called with. The `alive_` flag is cleared by the destructor, as the
context's own is. -/
structure Wrap where
  observer : Nat
  ownsObserverBinding : Bool
  eventCallback : Bool
  context : Traffic PendingEvent
  received : List Nat
  deriving DecidableEq, Repr

/-- One native participant: the observer it reports to, all observers and wraps ever made for it,
how many events were raised on it and which of them while it had an observer. The last four
fields record what rtc-cpp did: whether it has named another participant under the SID since, and
how many events had been raised when each callback about this one returned. -/
structure Participant where
  observer : Option Nat
  observers : List Observer
  wraps : List Wrap
  raised : Nat
  heard : List Nat
  superseded : Bool
  presentAt : Option Nat
  connectedAt : Option Nat
  disconnectedAt : Option Nat
  deriving DecidableEq, Repr

namespace Wrap

/-- A wrap that was not offered to its observer yet. -/
def create (observer : Nat) : Wrap :=
  { observer := observer, ownsObserverBinding := false, eventCallback := false,
    context := (Traffic.machine PendingEvent 0).init, received := [] }

/-- `ctx_->dispatch` in `enqueueLocked`; `src/video/remote_participant_wrap.cpp:275–287`. -/
def dispatch (w : Wrap) (event : PendingEvent) : Wrap :=
  { w with context := (w.context.step (.dispatch event)).getD w.context }

/-- A wrap whose queue is still open. -/
def isOpen (w : Wrap) : Bool := !w.context.loop.ctx.closed

/-- What the wrap's queue has started, as positions of events. -/
def startedEvents (w : Wrap) : List Nat := w.context.started.filterMap PendingEvent.index?

end Wrap

namespace Participant

/-- Nothing observed, wrapped or raised. -/
def init : Participant := ⟨none, [], [], 0, [], false, none, none, none⟩

/-- rtc-cpp has reported that the participant disconnected. -/
def gone (x : Participant) : Bool := x.disconnectedAt.isSome

/-- The participant is there, and rtc-cpp has named no other one under its SID since it named this
one. -/
def Current (x : Participant) : Prop := x.gone = false ∧ x.superseded = false

/-- `CreateObserver`; `src/video/remote_participant_wrap.cpp:349–354`. -/
def createObserver (x : Participant) : Participant :=
  { x with
    observers := x.observers ++ [⟨false, none, [], []⟩]
    observer := some x.observers.length }

/-- `IsObserverClosed`; `src/video/remote_participant_wrap.cpp:365–367`. -/
def isObserverClosed (x : Participant) (o : Nat) : Bool :=
  ((x.observers[o]?).map Observer.closed).getD true

/-- `enqueue`; `src/video/remote_participant_wrap.cpp:258–287`. -/
def enqueue (x : Participant) (o : Nat) (event : PendingEvent) : Participant :=
  match x.observers[o]? with
  | none => x
  | some ob =>
    if ob.closed then x
    else match ob.wrap with
      | none =>
        let ob' : Observer :=
          { ob with pending := ob.pending ++ [event], accepted := ob.accepted ++ [event] }
        { x with observers := x.observers.set o ob' }
      | some j =>
        let ob' : Observer := { ob with accepted := ob.accepted ++ [event] }
        { x with
          observers := x.observers.set o ob'
          wraps := x.wraps.modify j fun w ↦ w.dispatch event }

/-- `bind` of an observer to wrap `j`, which becomes the owner if it is accepted;
`src/video/remote_participant_wrap.cpp:89–105`. -/
def bind (x : Participant) (o j : Nat) : Participant :=
  match x.observers[o]? with
  | none => x
  | some ob =>
    if ob.closed ∨ ob.wrap ≠ none then x
    else
      let ob' : Observer := { ob with wrap := some j, pending := [] }
      { x with
        observers := x.observers.set o ob'
        wraps := x.wraps.modify j fun w ↦
          { ob.pending.foldl Wrap.dispatch w with ownsObserverBinding := true } }

/-- `close` of an observer; `src/video/remote_participant_wrap.cpp:109–116`. -/
def closeObserver (x : Participant) (o : Nat) : Participant :=
  { x with observers := x.observers.modify o fun ob ↦
      if ob.closed then ob else { ob with closed := true, wrap := none, pending := [] } }

/-- `NewInstance` with the observer it is always given here; the new wrap is the last one.
`src/video/remote_participant_wrap.cpp:369–381`. -/
def newInstance (x : Participant) (o : Nat) : Participant :=
  bind { x with wraps := x.wraps ++ [Wrap.create o] } o x.wraps.length

/-- `setEventCallback`, called once by the constructor of the JS `RemoteParticipant`;
`lib/remote_participant.ts:164–169`. -/
def setEventCallback (x : Participant) (j : Nat) : Participant :=
  { x with wraps := x.wraps.modify j fun w ↦ { w with eventCallback := true } }

/-- The destructor; `src/video/remote_participant_wrap.cpp:387–406`. -/
def destroyWrap (x : Participant) (j : Nat) : Option Participant :=
  match x.wraps[j]? with
  | none => none
  | some w =>
    (w.context.step .destroy).map fun context ↦
      let x' := { x with
        wraps := x.wraps.set j { w with eventCallback := false, context := context } }
      if w.ownsObserverBinding then { x' with observer := none }.closeObserver w.observer else x'

/-- Whether the callback of a wrap's queue still has its wrap and its observer;
`src/video/remote_participant_wrap.cpp:278–279`. -/
def delivers (x : Participant) (w : Wrap) : Bool :=
  w.context.loop.ctx.alive && match x.observers[w.observer]? with
    | none => false
    | some ob => !ob.closed && ob.wrap.isSome

/-- A step of wrap `j`'s `drain()`. A callback runs as it starts: it calls the event callback, or
returns the hop it makes onto the Room's queue; `src/video/remote_participant_wrap.cpp:275–287`
and `emitEvent`, `:408–416`. -/
def turn (x : Participant) (j : Nat) (t : Turn) : Option (Participant × Option (Nat × Nat)) :=
  match x.wraps[j]? with
  | none => none
  | some w =>
    (w.context.step (.turn t)).map fun context ↦
      let w' := { w with context := context }
      match w.context.loop.started t with
      | some (.event k) =>
        let received :=
          if x.delivers w && w.eventCallback then w.received ++ [k] else w.received
        ({ x with wraps := x.wraps.set j { w' with received := received } }, none)
      | some (.raw i) =>
        ({ x with wraps := x.wraps.set j w' }, if x.delivers w then some (i, w.observer) else none)
      | none => ({ x with wraps := x.wraps.set j w' }, none)

/-- rtc-cpp raises an event on the participant: it reaches the observer installed then, if any. -/
def raise (x : Participant) : Participant :=
  match x.observer with
  | none => { x with raised := x.raised + 1 }
  | some o =>
    { x with raised := x.raised + 1, heard := x.heard ++ [x.raised] }.enqueue o (.event x.raised)

end Participant

/-- A wrap's queue is one an unlimited context can be in. -/
def Wrap.Sound (w : Wrap) : Prop := (Traffic.machine PendingEvent 0).Reachable w.context

namespace Wrap

/-- A fresh wrap's queue is sound. -/
theorem sound_create (o : Nat) : (create o).Sound := Machine.reachable_init _

/-- The handle of an open queue is alive. -/
theorem alive_of_open {w : Wrap} (h : w.Sound) (ho : w.isOpen = true) :
    w.context.loop.ctx.alive = true := by
  cases hf : w.context.loop.ctx.alive with
  | true => rfl
  | false =>
    have hcl := (Traffic.inv_of_reachable h).wf.alive hf
    simp [isOpen, hcl] at ho

/-- Dispatching on an open queue appends to what it accepted, and changes nothing else. -/
theorem dispatch_of_open {w : Wrap} (event : PendingEvent) (h : w.Sound) (ho : w.isOpen = true) :
    ∃ c, w.dispatch event = { w with context := c } ∧ (w.dispatch event).Sound ∧
      c.accepted = w.context.accepted ++ [event] ∧ c.started = w.context.started ∧
      c.loop.ctx.closed = false := by
  have ho : w.context.loop.ctx.closed = false := by simpa [isOpen] using ho
  exact ⟨w.context.dispatch event, rfl, Traffic.dispatch_of_open event h ho⟩

/-- Replaying a buffer on an open queue appends it in order. -/
theorem replay_of_open {w : Wrap} (events : List PendingEvent) (h : w.Sound)
    (ho : w.isOpen = true) :
    ∃ c, events.foldl dispatch w = { w with context := c } ∧ (events.foldl dispatch w).Sound ∧
      c.accepted = w.context.accepted ++ events ∧ c.started = w.context.started ∧
      c.loop.ctx.closed = false := by
  have ho : w.context.loop.ctx.closed = false := by simpa [isOpen] using ho
  have he : events.foldl dispatch w =
      { w with context := events.foldl Traffic.dispatch w.context } :=
    List.foldl_hom (fun c ↦ { w with context := c }) fun _ _ ↦ rfl
  refine ⟨events.foldl Traffic.dispatch w.context, he, ?_⟩
  rw [he]
  exact Traffic.replay_of_open events h ho

end Wrap

namespace Participant

/-- How observers and wraps belong together. An observer is bound to at most one wrap, which is
open and owns the binding until it is destroyed; the owner's queue accepted exactly what the
observer did, and nobody else's queue accepted anything. -/
structure Law (x : Participant) : Prop where
  sound : ∀ (j : Nat) (w : Wrap), x.wraps[j]? = some w → w.Sound
  bound : ∀ (o : Nat) (ob : Observer) (j : Nat), x.observers[o]? = some ob → ob.wrap = some j →
    ob.closed = false ∧ ∃ w : Wrap, x.wraps[j]? = some w ∧ w.observer = o ∧
      w.ownsObserverBinding = true ∧ w.isOpen = true
  owned : ∀ (j : Nat) (w : Wrap), x.wraps[j]? = some w → w.ownsObserverBinding = true →
    ∃ ob : Observer, x.observers[w.observer]? = some ob ∧ w.context.accepted = ob.accepted ∧
      (ob.wrap = some j ∨ (ob.closed = true ∧ w.isOpen = false))
  unowned : ∀ (j : Nat) (w : Wrap), x.wraps[j]? = some w → w.ownsObserverBinding = false →
    w.context.accepted = []
  buffered : ∀ (o : Nat) (ob : Observer), x.observers[o]? = some ob → ob.closed = false →
    ob.wrap = none → ob.pending = ob.accepted
  sole : ∀ (j j' : Nat) (w w' : Wrap), x.wraps[j]? = some w → x.wraps[j']? = some w' →
    w.ownsObserverBinding = true → w'.ownsObserverBinding = true → w.observer = w'.observer →
    j = j'

/-- What is left of the law once observers may also be closed from outside: the owner of a closed
observer need not be closed itself. -/
structure Binding (x : Participant) : Prop where
  sound : ∀ (j : Nat) (w : Wrap), x.wraps[j]? = some w → w.Sound
  bound : ∀ (o : Nat) (ob : Observer) (j : Nat), x.observers[o]? = some ob → ob.wrap = some j →
    ob.closed = false ∧ ∃ w : Wrap, x.wraps[j]? = some w ∧ w.observer = o ∧
      w.ownsObserverBinding = true ∧ w.isOpen = true
  owned : ∀ (j : Nat) (w : Wrap), x.wraps[j]? = some w → w.ownsObserverBinding = true →
    ∃ ob : Observer, x.observers[w.observer]? = some ob ∧ w.context.accepted = ob.accepted ∧
      (ob.wrap = some j ∨ ob.closed = true)
  unowned : ∀ (j : Nat) (w : Wrap), x.wraps[j]? = some w → w.ownsObserverBinding = false →
    w.context.accepted = []
  buffered : ∀ (o : Nat) (ob : Observer), x.observers[o]? = some ob → ob.closed = false →
    ob.wrap = none → ob.pending = ob.accepted
  sole : ∀ (j j' : Nat) (w w' : Wrap), x.wraps[j]? = some w → x.wraps[j']? = some w' →
    w.ownsObserverBinding = true → w'.ownsObserverBinding = true → w.observer = w'.observer →
    j = j'

/-- The law keeps observers and wraps bound together. -/
theorem Law.binding {x : Participant} (h : Law x) : Binding x := by
  refine ⟨h.sound, h.bound, ?_, h.unowned, h.buffered, h.sole⟩
  intro j w hw hown
  obtain ⟨ob, hob, ha, hb⟩ := h.owned j w hw hown
  exact ⟨ob, hob, ha, hb.imp_right And.left⟩

-- An owner whose observer is closed was destroyed: what the law says beyond the binding.
private def Shut (x : Participant) : Prop :=
  ∀ (j : Nat) (w : Wrap) (ob : Observer), x.wraps[j]? = some w → w.ownsObserverBinding = true →
    x.observers[w.observer]? = some ob → ob.closed = true → w.isOpen = false

private theorem Binding.law {x : Participant} (h : Binding x) (hs : Shut x) : Law x := by
  refine ⟨h.sound, h.bound, ?_, h.unowned, h.buffered, h.sole⟩
  intro j w hw hown
  obtain ⟨ob, hob, ha, hb⟩ := h.owned j w hw hown
  exact ⟨ob, hob, ha, hb.imp_right fun hc ↦ ⟨hc, hs j w ob hw hown hob hc⟩⟩

private theorem Law.shut {x : Participant} (h : Law x) : Shut x := by
  intro j w ob hw hown hob hc
  obtain ⟨ob', hob', -, hb⟩ := h.owned j w hw hown
  rw [hob] at hob'
  cases hob'
  rcases hb with hb | hb
  · have hf := (h.bound _ _ _ hob hb).1
    rw [hc] at hf
    cases hf
  · exact hb.2

/-- Nothing is bound at first. -/
theorem law_init : Law init := by
  constructor <;> simp [init]

/-- Installing an observer leaves the other ones alone. -/
theorem binding_createObserver {x : Participant} (h : Binding x) : Binding x.createObserver := by
  refine ⟨h.sound, ?_, ?_, h.unowned, ?_, h.sole⟩
  · intro o ob j hob hw
    rcases Parties.getElem?_concat hob with ⟨-, rfl⟩ | hob
    · cases hw
    · exact h.bound o ob j hob hw
  · intro j w hw ho
    obtain ⟨ob, hob, ha, hb⟩ := h.owned j w hw ho
    refine ⟨ob, ?_, ha, hb⟩
    rw [createObserver, List.getElem?_append_left (List.getElem?_eq_some_iff.mp hob).1]
    exact hob
  · intro o ob hob hc hw
    rcases Parties.getElem?_concat hob with ⟨-, rfl⟩ | hob
    · rfl
    · exact h.buffered o ob hob hc hw

/-- Installing an observer keeps the law. -/
theorem law_createObserver {x : Participant} (h : Law x) : Law x.createObserver := by
  apply (binding_createObserver h.binding).law
  intro j w ob hw hown hob hc
  rcases Parties.getElem?_concat hob with ⟨-, rfl⟩ | hob
  · cases hc
  · exact h.shut j w ob hw hown hob hc

/-- Replacing wrap `j` by one that differs in its callback and in what its queue has done. -/
theorem binding_touch {x : Participant} {j : Nat} {w w' : Wrap} (h : Binding x)
    (hw : x.wraps[j]? = some w) (hs : w'.Sound) (ho : w'.observer = w.observer)
    (hb : w'.ownsObserverBinding = w.ownsObserverBinding)
    (ha : w'.context.accepted = w.context.accepted) (hc : w'.isOpen = w.isOpen) :
    Binding { x with wraps := x.wraps.set j w' } := by
  have hset : ∀ {i : Nat} {v : Wrap}, (x.wraps.set j w')[i]? = some v →
      ∃ u : Wrap, x.wraps[i]? = some u ∧ v.observer = u.observer ∧
        v.ownsObserverBinding = u.ownsObserverBinding ∧
        v.context.accepted = u.context.accepted := by
    intro i v hv
    rcases Parties.getElem?_set hw hv with ⟨rfl, rfl⟩ | ⟨-, hv⟩
    · exact ⟨w, hw, ho, hb, ha⟩
    · exact ⟨v, hv, rfl, rfl, rfl⟩
  refine ⟨?_, ?_, ?_, ?_, h.buffered, ?_⟩
  · intro i v hv
    rcases Parties.getElem?_set hw hv with ⟨-, rfl⟩ | ⟨-, hv⟩
    · exact hs
    · exact h.sound i v hv
  · intro o ob i hob hwr
    obtain ⟨hcl, u, hu, huo, hub, huc⟩ := h.bound o ob i hob hwr
    refine ⟨hcl, ?_⟩
    by_cases hij : i = j
    · subst hij
      rw [hw] at hu
      cases hu
      exact ⟨w', Parties.getElem?_set_self hw, ho.trans huo, hb.trans hub, hc.trans huc⟩
    · exact ⟨u, by rw [List.getElem?_set_ne (Ne.symm hij)]; exact hu, huo, hub, huc⟩
  · intro i v hv hown
    obtain ⟨u, hu, huo, hub, hua⟩ := hset hv
    rw [huo, hua]
    exact h.owned i u hu (hub ▸ hown)
  · intro i v hv hown
    obtain ⟨u, hu, -, hub, hua⟩ := hset hv
    rw [hua]
    exact h.unowned i u hu (hub ▸ hown)
  · intro i i' v v' hv hv' hown hown' hobs
    obtain ⟨u, hu, huo, hub, -⟩ := hset hv
    obtain ⟨u', hu', huo', hub', -⟩ := hset hv'
    exact h.sole i i' u u' hu hu' (hub ▸ hown) (hub' ▸ hown') (by rw [← huo, ← huo', hobs])

/-- Replacing a wrap that way keeps the law. -/
theorem law_touch {x : Participant} {j : Nat} {w w' : Wrap} (h : Law x)
    (hw : x.wraps[j]? = some w) (hs : w'.Sound) (ho : w'.observer = w.observer)
    (hb : w'.ownsObserverBinding = w.ownsObserverBinding)
    (ha : w'.context.accepted = w.context.accepted) (hc : w'.isOpen = w.isOpen) :
    Law { x with wraps := x.wraps.set j w' } := by
  apply (binding_touch h.binding hw hs ho hb ha hc).law
  intro i v ob hv hown hob hcl
  rcases Parties.getElem?_set hw hv with ⟨-, rfl⟩ | ⟨-, hv⟩
  · rw [hc]
    exact h.shut j w ob hw (hb ▸ hown) (ho ▸ hob) hcl
  · exact h.shut i v ob hv hown hob hcl

/-- Setting the event callback of a wrap. -/
theorem law_setEventCallback {x : Participant} (j : Nat) (h : Law x) :
    Law (x.setEventCallback j) := by
  cases hw : x.wraps[j]? with
  | none =>
    have he : x.setEventCallback j = x := by
      simp only [setEventCallback]
      rw [List.modify_eq_self (List.getElem?_eq_none_iff.mp hw)]
    rwa [he]
  | some w =>
    have he : x.setEventCallback j =
        { x with wraps := x.wraps.set j { w with eventCallback := true } } := by
      rw [setEventCallback, Parties.modify_eq_set_of hw]
    rw [he]
    exact law_touch h hw (h.sound j w hw) rfl rfl rfl rfl

/-- What `enqueue` can do: an observer that is closed accepts nothing, one without a wrap buffers,
and one that is bound puts the event on its wrap's queue. -/
inductive Enqueued (x : Participant) (o : Nat) (event : PendingEvent) : Participant → Prop where
  | refused (hc : x.isObserverClosed o = true) : Enqueued x o event x
  | buffered {ob : Observer} (hob : x.observers[o]? = some ob) (hc : ob.closed = false)
      (hw : ob.wrap = none) :
      Enqueued x o event { x with
        observers := x.observers.set o
          { ob with pending := ob.pending ++ [event], accepted := ob.accepted ++ [event] } }
  | queued {ob : Observer} {j : Nat} {w : Wrap} {c : Traffic PendingEvent}
      (hob : x.observers[o]? = some ob) (hc : ob.closed = false) (hwr : ob.wrap = some j)
      (hw : x.wraps[j]? = some w) (ho : w.observer = o) (hown : w.ownsObserverBinding = true)
      (hs : Wrap.Sound { w with context := c })
      (ha : c.accepted = w.context.accepted ++ [event]) (hst : c.started = w.context.started)
      (hcl : c.loop.ctx.closed = false) :
      Enqueued x o event { x with
        observers := x.observers.set o { ob with accepted := ob.accepted ++ [event] }
        wraps := x.wraps.set j { w with context := c } }

/-- Inversion of `enqueue`. -/
theorem enqueued {x : Participant} (h : Binding x) (o : Nat) (event : PendingEvent) :
    Enqueued x o event (x.enqueue o event) := by
  cases hob : x.observers[o]? with
  | none =>
    have he : x.enqueue o event = x := by simp [enqueue, hob]
    rw [he]
    exact .refused (by simp [isObserverClosed, hob])
  | some ob =>
    cases hc : ob.closed with
    | true =>
      have he : x.enqueue o event = x := by simp [enqueue, hob, hc]
      rw [he]
      exact .refused (by simp [isObserverClosed, hob, hc])
    | false =>
      cases hwr : ob.wrap with
      | none =>
        have he : Enqueued x o event _ := .buffered hob hc hwr
        simpa [enqueue, hob, hc, hwr] using he
      | some j =>
        obtain ⟨-, w, hw, ho, hown, hopen⟩ := h.bound o ob j hob hwr
        obtain ⟨c, he, hs, ha, hst, hcl⟩ := Wrap.dispatch_of_open event
          (h.sound j w hw) hopen
        rw [he] at hs
        have hq := Enqueued.queued hob hc hwr hw ho hown hs ha hst hcl
        simpa [enqueue, hob, hc, hwr, Parties.modify_eq_set_of hw, he] using hq

/-- What raising an event can do: nobody hears it, or it is enqueued on the observer installed. -/
inductive Raised (x : Participant) : Participant → Prop where
  | unheard (ho : x.observer = none) : Raised x { x with raised := x.raised + 1 }
  | heard {o : Nat} {x' : Participant} (ho : x.observer = some o)
      (he : Enqueued { x with raised := x.raised + 1, heard := x.heard ++ [x.raised] } o
        (.event x.raised) x') : Raised x x'

/-- Inversion of raising an event. -/
theorem raised_cases {x : Participant} (h : Law x) : Raised x x.raise := by
  cases ho : x.observer with
  | none =>
    have he : x.raise = { x with raised := x.raised + 1 } := by simp [raise, ho]
    rw [he]
    exact .unheard ho
  | some o =>
    let y : Participant := { x with raised := x.raised + 1, heard := x.heard ++ [x.raised] }
    have he : x.raise = y.enqueue o (.event x.raised) := by simp [raise, ho, y]
    have hy : Binding y :=
      ⟨h.sound, h.bound, h.binding.owned, h.unowned, h.buffered, h.sole⟩
    rw [he]
    exact .heard ho (enqueued hy o (.event x.raised))

/-- Enqueueing makes no observer. -/
@[simp] theorem length_observers_enqueue (x : Participant) (o : Nat) (event : PendingEvent) :
    (x.enqueue o event).observers.length = x.observers.length := by
  unfold enqueue
  split
  · rfl
  · split
    · rfl
    · split <;> simp

/-- Enqueueing supersedes nobody. -/
@[simp] theorem superseded_enqueue (x : Participant) (o : Nat) (event : PendingEvent) :
    (x.enqueue o event).superseded = x.superseded := by
  unfold enqueue
  split
  · rfl
  · split
    · rfl
    · split <;> rfl

/-- Enqueueing lets nobody leave. -/
@[simp] theorem gone_enqueue (x : Participant) (o : Nat) (event : PendingEvent) :
    (x.enqueue o event).gone = x.gone := by
  unfold enqueue
  split
  · rfl
  · split
    · rfl
    · split <;> rfl

private theorem binding_buffered {x : Participant} {o : Nat} {ob : Observer} (h : Binding x)
    (hob : x.observers[o]? = some ob) (hc : ob.closed = false) (hw : ob.wrap = none)
    (event : PendingEvent) :
    Binding { x with
      observers := x.observers.set o
        { ob with pending := ob.pending ++ [event], accepted := ob.accepted ++ [event] } } := by
  refine ⟨h.sound, ?_, ?_, h.unowned, ?_, h.sole⟩
  · intro i ob' j hob' hwr
    rcases Parties.getElem?_set hob hob' with ⟨-, rfl⟩ | ⟨-, hob'⟩
    · rw [hw] at hwr
      cases hwr
    · exact h.bound i ob' j hob' hwr
  · intro j w hwj hown
    obtain ⟨ob', hob', ha, hb⟩ := h.owned j w hwj hown
    by_cases hio : w.observer = o
    · -- An owner's observer is bound or closed, and this one is neither.
      subst hio
      rw [hob] at hob'
      cases hob'
      rw [hw, hc] at hb
      simp at hb
    · exact ⟨ob', by rw [List.getElem?_set_ne (Ne.symm hio)]; exact hob', ha, hb⟩
  · intro i ob' hob' hc' hw'
    rcases Parties.getElem?_set hob hob' with ⟨-, rfl⟩ | ⟨-, hob'⟩
    · exact congrArg (· ++ [event]) (h.buffered o ob hob hc hw)
    · exact h.buffered i ob' hob' hc' hw'

private theorem binding_queued {x : Participant} {o j : Nat} {event : PendingEvent}
    {ob : Observer} {w : Wrap} {c : Traffic PendingEvent} (h : Binding x)
    (hob : x.observers[o]? = some ob) (hwr : ob.wrap = some j) (hw : x.wraps[j]? = some w)
    (ho : w.observer = o) (hown : w.ownsObserverBinding = true)
    (hs : Wrap.Sound { w with context := c })
    (ha : c.accepted = w.context.accepted ++ [event]) (hcl : c.loop.ctx.closed = false) :
    Binding { x with
      observers := x.observers.set o { ob with accepted := ob.accepted ++ [event] }
      wraps := x.wraps.set j { w with context := c } } := by
  have hset : ∀ {i : Nat} {v : Wrap}, (x.wraps.set j { w with context := c })[i]? = some v →
      ∃ u : Wrap, x.wraps[i]? = some u ∧ v.observer = u.observer ∧
        v.ownsObserverBinding = u.ownsObserverBinding := by
    intro i v hv
    rcases Parties.getElem?_set hw hv with ⟨rfl, rfl⟩ | ⟨-, hv⟩
    · exact ⟨w, hw, rfl, rfl⟩
    · exact ⟨v, hv, rfl, rfl⟩
  refine ⟨?_, ?_, ?_, ?_, ?_, ?_⟩
  · intro i v hv
    rcases Parties.getElem?_set hw hv with ⟨-, rfl⟩ | ⟨-, hv⟩
    · exact hs
    · exact h.sound i v hv
  · intro i ob' k hob' hwr'
    have hold : ∃ ob₀ : Observer, x.observers[i]? = some ob₀ ∧ ob₀.wrap = some k ∧
        ob'.closed = ob₀.closed := by
      rcases Parties.getElem?_set hob hob' with ⟨rfl, rfl⟩ | ⟨-, hob'⟩
      · exact ⟨ob, hob, hwr', rfl⟩
      · exact ⟨ob', hob', hwr', rfl⟩
    obtain ⟨ob₀, hob₀, hwr₀, hcl₀⟩ := hold
    obtain ⟨hcl', u, hu, huo, hub, huc⟩ := h.bound i ob₀ k hob₀ hwr₀
    refine ⟨hcl₀.trans hcl', ?_⟩
    by_cases hkj : k = j
    · subst hkj
      rw [hw] at hu
      cases hu
      exact ⟨_, Parties.getElem?_set_self hw, huo, hub, by simp [Wrap.isOpen, hcl]⟩
    · exact ⟨u, by rw [List.getElem?_set_ne (Ne.symm hkj)]; exact hu, huo, hub, huc⟩
  · intro i v hv hvown
    rcases Parties.getElem?_set hw hv with ⟨rfl, rfl⟩ | ⟨hij, hv⟩
    · obtain ⟨ob', hob', ha', hb⟩ := h.owned i w hw hown
      have hob' : x.observers[o]? = some ob' := ho ▸ hob'
      rw [hob] at hob'
      cases hob'
      refine ⟨{ ob with accepted := ob.accepted ++ [event] }, ?_, ?_, .inl hwr⟩
      · rw [ho]
        exact Parties.getElem?_set_self hob
      · exact ha.trans (congrArg (· ++ [event]) ha')
    · obtain ⟨ob', hob', ha', hb⟩ := h.owned i v hv hvown
      have hio : v.observer ≠ o := by
        intro hio
        exact hij (h.sole i j v w hv hw hvown hown (hio.trans ho.symm))
      exact ⟨ob', by rw [List.getElem?_set_ne (Ne.symm hio)]; exact hob', ha', hb⟩
  · intro i v hv hvown
    rcases Parties.getElem?_set hw hv with ⟨-, rfl⟩ | ⟨-, hv⟩
    · rw [hown] at hvown
      cases hvown
    · exact h.unowned i v hv hvown
  · intro i ob' hob' hc' hw'
    rcases Parties.getElem?_set hob hob' with ⟨-, rfl⟩ | ⟨-, hob'⟩
    · rw [hwr] at hw'
      cases hw'
    · exact h.buffered i ob' hob' hc' hw'
  · intro i i' v v' hv hv' hvown hvown' hobs
    obtain ⟨u, hu, huo, hub⟩ := hset hv
    obtain ⟨u', hu', huo', hub'⟩ := hset hv'
    exact h.sole i i' u u' hu hu' (hub ▸ hvown) (hub' ▸ hvown') (by rw [← huo, ← huo', hobs])

/-- Enqueueing keeps observers and wraps together. -/
theorem binding_enqueue {x x' : Participant} {o : Nat} {event : PendingEvent} (h : Binding x)
    (he : Enqueued x o event x') : Binding x' := by
  cases he with
  | refused hc => exact h
  | buffered hob hc hw => exact binding_buffered h hob hc hw event
  | queued hob hc hwr hw ho hown hs ha hst hcl =>
    exact binding_queued h hob hwr hw ho hown hs ha hcl

/-- Enqueueing keeps the law. -/
theorem law_enqueue {x x' : Participant} {o : Nat} {event : PendingEvent} (h : Law x)
    (he : Enqueued x o event x') : Law x' := by
  apply (binding_enqueue h.binding he).law
  cases he with
  | refused hc => exact h.shut
  | @buffered ob hob hc hw =>
    intro j w ob' hwj hown hob' hcl
    rcases Parties.getElem?_set hob hob' with ⟨-, rfl⟩ | ⟨-, hob'⟩
    · rw [hc] at hcl
      cases hcl
    · exact h.shut j w ob' hwj hown hob' hcl
  | @queued ob j w c hob hc hwr hw ho hown hs ha hst hcl =>
    intro i v ob' hv hvown hob' hcl'
    rcases Parties.getElem?_set hob hob' with ⟨-, rfl⟩ | ⟨hne, hob'⟩
    · rw [hc] at hcl'
      cases hcl'
    · rcases Parties.getElem?_set hw hv with ⟨-, rfl⟩ | ⟨-, hv⟩
      · exact absurd ho hne
      · exact h.shut i v ob' hv hvown hob' hcl'

/-- What `NewInstance` can do: the new wrap is bound if its observer is open and unbound, and then
takes over what the observer has buffered. -/
inductive Instanced (x : Participant) (o : Nat) : Participant → Prop where
  | unbound (hob : ∀ ob : Observer, x.observers[o]? = some ob → ob.closed = false →
      ob.wrap ≠ none) : Instanced x o { x with wraps := x.wraps ++ [Wrap.create o] }
  | bound {ob : Observer} {c : Traffic PendingEvent} (hob : x.observers[o]? = some ob)
      (hc : ob.closed = false) (hw : ob.wrap = none) (hs : Wrap.Sound ⟨o, true, false, c, []⟩)
      (ha : c.accepted = ob.pending) (hst : c.started = []) (hcl : c.loop.ctx.closed = false) :
      Instanced x o { x with
        observers := x.observers.set o { ob with wrap := some x.wraps.length, pending := [] }
        wraps := x.wraps ++ [⟨o, true, false, c, []⟩] }

/-- Inversion of `NewInstance`. -/
theorem instanced (x : Participant) (o : Nat) : Instanced x o (x.newInstance o) := by
  cases hob : x.observers[o]? with
  | none =>
    have he : x.newInstance o = { x with wraps := x.wraps ++ [Wrap.create o] } := by
      simp [newInstance, bind, hob]
    rw [he]
    exact .unbound fun ob hob' ↦ by rw [hob] at hob'; cases hob'
  | some ob =>
    by_cases hb : ob.closed = true ∨ ob.wrap ≠ none
    · have he : x.newInstance o = { x with wraps := x.wraps ++ [Wrap.create o] } := by
        simp only [newInstance, bind, hob]
        rw [if_pos hb]
      rw [he]
      refine .unbound fun ob' hob' hc ↦ ?_
      rw [hob] at hob'
      cases hob'
      exact hb.resolve_left (by simp [hc])
    · have hc : ob.closed = false := by
        cases hc : ob.closed with
        | false => rfl
        | true => exact absurd (.inl hc) hb
      have hw : ob.wrap = none := by
        by_cases hw : ob.wrap = none
        · exact hw
        · exact absurd (.inr hw) hb
      have hlast : (x.wraps ++ [Wrap.create o])[x.wraps.length]? = some (Wrap.create o) := by simp
      obtain ⟨c, he, hs, ha, hst, hcl⟩ := Wrap.replay_of_open ob.pending (Wrap.sound_create o) rfl
      rw [he] at hs
      have hi := Instanced.bound hob hc hw (c := c) hs ha hst hcl
      have hset : (x.wraps ++ [Wrap.create o]).set x.wraps.length ⟨o, true, false, c, []⟩ =
          x.wraps ++ [⟨o, true, false, c, []⟩] := by simp
      simp only [newInstance, bind, hob]
      rw [if_neg hb, Parties.modify_eq_set_of hlast, he]
      rw [← hset] at hi
      exact hi

private theorem binding_addWrap {x : Participant} {w : Wrap} (h : Binding x) (hs : w.Sound)
    (hown : w.ownsObserverBinding = false) (ha : w.context.accepted = []) :
    Binding { x with wraps := x.wraps ++ [w] } := by
  have hold : ∀ {j : Nat} {v : Wrap}, (x.wraps ++ [w])[j]? = some v →
      v.ownsObserverBinding = true → x.wraps[j]? = some v := by
    intro j v hv hvown
    rcases Parties.getElem?_concat hv with ⟨-, rfl⟩ | hv
    · rw [hown] at hvown
      cases hvown
    · exact hv
  refine ⟨?_, ?_, fun j v hv hvown ↦ h.owned j v (hold hv hvown) hvown, ?_, h.buffered, ?_⟩
  · intro j v hv
    rcases Parties.getElem?_concat hv with ⟨-, rfl⟩ | hv
    · exact hs
    · exact h.sound j v hv
  · intro o ob j hob hwr
    obtain ⟨hc, u, hu, huo, hub, huc⟩ := h.bound o ob j hob hwr
    refine ⟨hc, u, ?_, huo, hub, huc⟩
    rw [List.getElem?_append_left (List.getElem?_eq_some_iff.mp hu).1]
    exact hu
  · intro j v hv hvown
    rcases Parties.getElem?_concat hv with ⟨-, rfl⟩ | hv
    · exact ha
    · exact h.unowned j v hv hvown
  · intro j j' v v' hv hv' hvown hvown' hobs
    exact h.sole j j' v v' (hold hv hvown) (hold hv' hvown') hvown hvown' hobs

/-- Making a wrap keeps observers and wraps together. -/
theorem binding_newInstance {x x' : Participant} {o : Nat} (h : Binding x)
    (hi : Instanced x o x') : Binding x' := by
  cases hi with
  | unbound hob => exact binding_addWrap h (Wrap.sound_create o) rfl rfl
  | @bound ob c hob hc hw hs ha hst hcl =>
    -- Nobody owns the binding of an observer that is open and unbound.
    have hfree : ∀ {j : Nat} {v : Wrap}, x.wraps[j]? = some v → v.ownsObserverBinding = true →
        v.observer ≠ o := by
      intro j v hv hvown hvo
      obtain ⟨ob', hob', -, hb⟩ := h.owned j v hv hvown
      rw [hvo, hob] at hob'
      cases hob'
      rw [hw, hc] at hb
      simp at hb
    have hold : ∀ {j : Nat} {v : Wrap},
        (x.wraps ++ [(⟨o, true, false, c, []⟩ : Wrap)])[j]? = some v →
        (j = x.wraps.length ∧ v = ⟨o, true, false, c, []⟩) ∨ x.wraps[j]? = some v :=
      fun hv ↦ Parties.getElem?_concat hv
    refine ⟨?_, ?_, ?_, ?_, ?_, ?_⟩
    · intro j v hv
      rcases hold hv with ⟨-, rfl⟩ | hv
      · exact hs
      · exact h.sound j v hv
    · intro i ob' j hob' hwr
      rcases Parties.getElem?_set hob hob' with ⟨rfl, rfl⟩ | ⟨-, hob'⟩
      · cases hwr
        exact ⟨hc, ⟨i, true, false, c, []⟩, by simp, rfl, rfl, by simp [Wrap.isOpen, hcl]⟩
      · obtain ⟨hc', u, hu, huo, hub, huc⟩ := h.bound i ob' j hob' hwr
        refine ⟨hc', u, ?_, huo, hub, huc⟩
        rw [List.getElem?_append_left (List.getElem?_eq_some_iff.mp hu).1]
        exact hu
    · intro j v hv hvown
      rcases hold hv with ⟨rfl, rfl⟩ | hv
      · exact ⟨{ ob with wrap := some x.wraps.length, pending := [] },
          Parties.getElem?_set_self hob, ha.trans (h.buffered o ob hob hc hw), .inl rfl⟩
      · obtain ⟨ob', hob', ha', hb⟩ := h.owned j v hv hvown
        exact ⟨ob', by rw [List.getElem?_set_ne (Ne.symm (hfree hv hvown))]; exact hob', ha', hb⟩
    · intro j v hv hvown
      rcases hold hv with ⟨-, rfl⟩ | hv
      · cases hvown
      · exact h.unowned j v hv hvown
    · intro i ob' hob' hc' hw'
      rcases Parties.getElem?_set hob hob' with ⟨-, rfl⟩ | ⟨-, hob'⟩
      · cases hw'
      · exact h.buffered i ob' hob' hc' hw'
    · intro j j' v v' hv hv' hvown hvown' hobs
      rcases hold hv with ⟨rfl, rfl⟩ | hv <;> rcases hold hv' with ⟨rfl, rfl⟩ | hv'
      · rfl
      · exact absurd hobs.symm (hfree hv' hvown')
      · exact absurd hobs (hfree hv hvown)
      · exact h.sole j j' v v' hv hv' hvown hvown' hobs

/-- Making a wrap keeps the law. -/
theorem law_newInstance {x x' : Participant} {o : Nat} (h : Law x) (hi : Instanced x o x') :
    Law x' := by
  apply (binding_newInstance h.binding hi).law
  cases hi with
  | unbound hob =>
    intro j w ob hw hown hob' hcl
    rcases Parties.getElem?_concat hw with ⟨-, rfl⟩ | hw
    · cases hown
    · exact h.shut j w ob hw hown hob' hcl
  | @bound ob c hob hc hw hs ha hst hcl =>
    intro j w ob' hwj hown hob' hcl'
    rcases Parties.getElem?_set hob hob' with ⟨-, rfl⟩ | ⟨hne, hob'⟩
    · rw [hc] at hcl'
      cases hcl'
    · rcases Parties.getElem?_concat hwj with ⟨-, rfl⟩ | hwj
      · exact absurd rfl hne
      · exact h.shut j w ob' hwj hown hob' hcl'

/-- Only an owner's queue starts anything, and it is open then. -/
theorem owner_of_started {x : Participant} {j : Nat} {w : Wrap} {t : Turn} {e : PendingEvent}
    (h : Law x) (hw : x.wraps[j]? = some w) (hst : w.context.loop.started t = some e) :
    w.ownsObserverBinding = true ∧ w.isOpen = true := by
  have hopen : w.context.loop.ctx.closed = false := by
    cases hc : w.context.loop.ctx.closed with
    | false => rfl
    | true =>
      rw [Loop.started_of_closed hc] at hst
      cases hst
  refine ⟨?_, by simp [Wrap.isOpen, hopen]⟩
  cases hown : w.ownsObserverBinding with
  | true => rfl
  | false =>
    have hex := (Traffic.lawful (h.sound j w hw)).exact rfl (by simp [Traffic.channel, hopen])
    have hmem : e ∈ w.context.loop.contents := by
      cases t <;> simp only [Loop.started, reduceCtorEq] at hst
      obtain ⟨rest, hd, -⟩ := Loop.starts_some hst
      simp [Loop.contents, hd, Drain.batch]
    simp only [Traffic.channel, hopen, Bool.false_eq_true, if_false, h.unowned j w hw hown,
      List.append_eq_nil_iff] at hex
    rw [hex.2] at hmem
    cases hmem

/-- The queue of an open owner delivers. -/
theorem delivers_of_owner {x : Participant} {j : Nat} {w : Wrap} (h : Law x)
    (hw : x.wraps[j]? = some w) (hown : w.ownsObserverBinding = true) (ho : w.isOpen = true) :
    x.delivers w = true := by
  obtain ⟨ob, hob, -, hb⟩ := h.owned j w hw hown
  have hb : ob.wrap = some j := hb.resolve_right (by simp [ho])
  have hc := (h.bound _ _ _ hob hb).1
  have ha := Wrap.alive_of_open (h.sound j w hw) ho
  simp [delivers, ha, hob, hb, hc]

/-- What a step of a wrap's `drain()` can do: start nothing, start an event, which reaches the
event callback if there is one, or start a hop onto the Room's queue. -/
inductive Turned (x : Participant) (j : Nat) (t : Turn) : Participant → Option (Nat × Nat) → Prop
    where
  | quiet {w : Wrap} {c : Traffic PendingEvent} (hw : x.wraps[j]? = some w)
      (hc : w.context.step (.turn t) = some c) (hst : w.context.loop.started t = none) :
      Turned x j t { x with wraps := x.wraps.set j { w with context := c } } none
  | event {w : Wrap} {c : Traffic PendingEvent} {k : Nat} (hw : x.wraps[j]? = some w)
      (hc : w.context.step (.turn t) = some c)
      (hst : w.context.loop.started t = some (.event k)) :
      Turned x j t { x with
        wraps := x.wraps.set j { w with
          context := c, received := if w.eventCallback then w.received ++ [k] else w.received } }
        none
  | hop {w : Wrap} {c : Traffic PendingEvent} {i : Nat} (hw : x.wraps[j]? = some w)
      (hc : w.context.step (.turn t) = some c)
      (hst : w.context.loop.started t = some (.raw i)) :
      Turned x j t { x with wraps := x.wraps.set j { w with context := c } }
        (some (i, w.observer))

/-- Inversion of a step of a wrap's `drain()`. -/
theorem turned {x x' : Participant} {j : Nat} {t : Turn} {hop : Option (Nat × Nat)} (h : Law x)
    (ht : x.turn j t = some (x', hop)) : Turned x j t x' hop := by
  cases hw : x.wraps[j]? with
  | none => simp [turn, hw] at ht
  | some w =>
    simp only [turn, hw] at ht
    obtain ⟨c, hc, he⟩ := Option.map_eq_some_iff.mp ht
    cases hst : w.context.loop.started t with
    | none =>
      rw [hst] at he
      cases he
      exact .quiet hw hc hst
    | some e =>
      obtain ⟨hown, ho⟩ := owner_of_started h hw hst
      have hd := delivers_of_owner h hw hown ho
      cases e with
      | event k =>
        simp only [hst, hd, Bool.true_and] at he
        cases he
        exact .event hw hc hst
      | raw i =>
        simp only [hst, hd, if_true] at he
        cases he
        exact .hop hw hc hst

/-- A step of a wrap's `drain()` keeps observers and wraps together. -/
theorem law_turn {x x' : Participant} {j : Nat} {t : Turn} {hop : Option (Nat × Nat)} (h : Law x)
    (ht : Turned x j t x' hop) : Law x' := by
  have key : ∀ {w : Wrap} {c : Traffic PendingEvent} (received : List Nat),
      x.wraps[j]? = some w → w.context.step (.turn t) = some c →
      Law { x with wraps := x.wraps.set j { w with context := c, received := received } } := by
    intro w c received hw hc
    obtain ⟨ha, -, hcl, -⟩ := Traffic.step_turn hc
    have hs : Wrap.Sound { w with context := c, received := received } :=
      Machine.Reachable.step (a := .turn t) (h.sound j w hw) hc
    exact law_touch h hw hs rfl rfl ha (by simp [Wrap.isOpen, hcl])
  cases ht with
  | quiet hw hc hst => exact key _ hw hc
  | event hw hc hst => exact key _ hw hc
  | hop hw hc hst => exact key _ hw hc

/-- What destroying a wrap can do: the owner takes its observer, and whatever the participant
reports to, with it. -/
inductive Destroyed (x : Participant) (j : Nat) : Participant → Prop where
  | other {w : Wrap} {c : Traffic PendingEvent} (hw : x.wraps[j]? = some w)
      (hc : w.context.step .destroy = some c) (hown : w.ownsObserverBinding = false) :
      Destroyed x j { x with
        wraps := x.wraps.set j { w with eventCallback := false, context := c } }
  | owner {w : Wrap} {c : Traffic PendingEvent} {ob ob' : Observer} (hw : x.wraps[j]? = some w)
      (hc : w.context.step .destroy = some c) (hown : w.ownsObserverBinding = true)
      (hob : x.observers[w.observer]? = some ob) (hcl : ob'.closed = true) (hwr : ob'.wrap = none)
      (ha : ob'.accepted = ob.accepted) :
      Destroyed x j { x with
        observer := none
        observers := x.observers.set w.observer ob'
        wraps := x.wraps.set j { w with eventCallback := false, context := c } }

/-- Inversion of the destruction of a wrap. -/
theorem destroyed {x x' : Participant} {j : Nat} (h : Binding x) (hd : x.destroyWrap j = some x') :
    Destroyed x j x' := by
  cases hw : x.wraps[j]? with
  | none => simp [destroyWrap, hw] at hd
  | some w =>
    simp only [destroyWrap, hw] at hd
    obtain ⟨c, hc, he⟩ := Option.map_eq_some_iff.mp hd
    cases hown : w.ownsObserverBinding with
    | false =>
      simp only [hown, Bool.false_eq_true, if_false] at he
      cases he
      have ho := Destroyed.other hw hc hown
      simpa only [hown] using ho
    | true =>
      rw [hown] at he
      obtain ⟨ob, hob, -, -⟩ := h.owned j w hw hown
      simp only [if_true, closeObserver, Parties.modify_eq_set_of hob] at he
      cases hcl : ob.closed with
      | true =>
        have hwr : ob.wrap = none := by
          cases hwr : ob.wrap with
          | none => rfl
          | some k =>
            have hf := (h.bound _ _ _ hob hwr).1
            rw [hcl] at hf
            cases hf
        simp only [hcl, if_true] at he
        cases he
        simpa only [hown] using Destroyed.owner hw hc hown hob hcl hwr rfl
      | false =>
        simp only [hcl, Bool.false_eq_true, if_false] at he
        cases he
        have ho :
            ({ ob with closed := true, wrap := none, pending := [] } : Observer).closed = true :=
          rfl
        simpa only [hown] using Destroyed.owner hw hc hown hob ho rfl rfl

private theorem binding_destroyOther {x : Participant} {j : Nat} {w : Wrap}
    {c : Traffic PendingEvent} (h : Binding x) (hw : x.wraps[j]? = some w)
    (hc : w.context.step .destroy = some c) (hown : w.ownsObserverBinding = false) :
    Binding { x with wraps := x.wraps.set j { w with eventCallback := false, context := c } } := by
  obtain ⟨ha, -, hcl⟩ := Traffic.step_destroy hc
  have hs : Wrap.Sound { w with eventCallback := false, context := c } :=
    Machine.Reachable.step (a := .destroy) (h.sound j w hw) hc
  have hne : ∀ {i : Nat} {u : Wrap}, x.wraps[i]? = some u → u.ownsObserverBinding = true →
      i ≠ j := by
    rintro i u hu huo rfl
    rw [hw] at hu
    cases hu
    rw [hown] at huo
    cases huo
  have hold : ∀ {i : Nat} {u : Wrap},
      (x.wraps.set j { w with eventCallback := false, context := c })[i]? = some u →
      u.ownsObserverBinding = true → x.wraps[i]? = some u := by
    intro i u hu huo
    rcases Parties.getElem?_set hw hu with ⟨-, rfl⟩ | ⟨-, hu⟩
    · rw [hown] at huo
      cases huo
    · exact hu
  refine ⟨?_, ?_, fun i u hu huo ↦ h.owned i u (hold hu huo) huo, ?_, h.buffered, ?_⟩
  · intro i u hu
    rcases Parties.getElem?_set hw hu with ⟨-, rfl⟩ | ⟨-, hu⟩
    · exact hs
    · exact h.sound i u hu
  · intro o ob i hob hwr
    obtain ⟨hc', u, hu, huo, hub, huc⟩ := h.bound o ob i hob hwr
    refine ⟨hc', u, ?_, huo, hub, huc⟩
    rw [List.getElem?_set_ne (Ne.symm (hne hu hub))]
    exact hu
  · intro i u hu huo
    rcases Parties.getElem?_set hw hu with ⟨-, rfl⟩ | ⟨-, hu⟩
    · exact ha.trans (h.unowned j w hw hown)
    · exact h.unowned i u hu huo
  · intro i i' u u' hu hu' huo huo' hobs
    exact h.sole i i' u u' (hold hu huo) (hold hu' huo') huo huo' hobs

private theorem binding_destroyOwner {x : Participant} {j : Nat} {w : Wrap}
    {c : Traffic PendingEvent} {ob ob' : Observer} (h : Binding x) (hw : x.wraps[j]? = some w)
    (hc : w.context.step .destroy = some c) (hown : w.ownsObserverBinding = true)
    (hob : x.observers[w.observer]? = some ob) (hcl : ob'.closed = true) (hwr : ob'.wrap = none)
    (ha : ob'.accepted = ob.accepted) :
    Binding { x with
      observer := none
      observers := x.observers.set w.observer ob'
      wraps := x.wraps.set j { w with eventCallback := false, context := c } } := by
  obtain ⟨hca, -, -⟩ := Traffic.step_destroy hc
  have hs : Wrap.Sound { w with eventCallback := false, context := c } :=
    Machine.Reachable.step (a := .destroy) (h.sound j w hw) hc
  have hold : ∀ {i : Nat} {u : Wrap},
      (x.wraps.set j { w with eventCallback := false, context := c })[i]? = some u →
      (i = j ∧ u = { w with eventCallback := false, context := c }) ∨
        (i ≠ j ∧ x.wraps[i]? = some u) := fun hu ↦ Parties.getElem?_set hw hu
  refine ⟨?_, ?_, ?_, ?_, ?_, ?_⟩
  · intro i u hu
    rcases hold hu with ⟨-, rfl⟩ | ⟨-, hu⟩
    · exact hs
    · exact h.sound i u hu
  · intro o ob₁ i hob₁ hwr₁
    rcases Parties.getElem?_set hob hob₁ with ⟨-, rfl⟩ | ⟨hne, hob₁⟩
    · rw [hwr] at hwr₁
      cases hwr₁
    · obtain ⟨hc', u, hu, huo, hub, huc⟩ := h.bound o ob₁ i hob₁ hwr₁
      have hij : i ≠ j := by
        rintro rfl
        rw [hw] at hu
        cases hu
        exact hne huo.symm
      refine ⟨hc', u, ?_, huo, hub, huc⟩
      rw [List.getElem?_set_ne (Ne.symm hij)]
      exact hu
  · intro i u hu huo
    rcases hold hu with ⟨rfl, rfl⟩ | ⟨hij, hu⟩
    · obtain ⟨ob₁, hob₁, ha₁, -⟩ := h.owned i w hw hown
      rw [hob] at hob₁
      cases hob₁
      exact ⟨ob', Parties.getElem?_set_self hob, hca.trans (ha₁.trans ha.symm), .inr hcl⟩
    · obtain ⟨ob₁, hob₁, ha₁, hb⟩ := h.owned i u hu huo
      have hne : u.observer ≠ w.observer := fun he ↦ hij (h.sole i j u w hu hw huo hown he)
      exact ⟨ob₁, by rw [List.getElem?_set_ne (Ne.symm hne)]; exact hob₁, ha₁, hb⟩
  · intro i u hu huo
    rcases hold hu with ⟨-, rfl⟩ | ⟨-, hu⟩
    · rw [hown] at huo
      cases huo
    · exact h.unowned i u hu huo
  · intro o ob₁ hob₁ hc₁ hw₁
    rcases Parties.getElem?_set hob hob₁ with ⟨-, rfl⟩ | ⟨-, hob₁⟩
    · rw [hcl] at hc₁
      cases hc₁
    · exact h.buffered o ob₁ hob₁ hc₁ hw₁
  · intro i i' u u' hu hu' huo huo' hobs
    rcases hold hu with ⟨rfl, rfl⟩ | ⟨-, hv⟩ <;> rcases hold hu' with ⟨rfl, rfl⟩ | ⟨-, hv'⟩
    · rfl
    · exact h.sole i i' w u' hw hv' hown huo' hobs
    · exact h.sole i i' u w hv hw huo hown hobs
    · exact h.sole i i' u u' hv hv' huo huo' hobs

/-- Destroying a wrap keeps observers and wraps together. -/
theorem binding_destroyWrap {x x' : Participant} {j : Nat} (h : Binding x)
    (hd : Destroyed x j x') : Binding x' := by
  cases hd with
  | other hw hc hown => exact binding_destroyOther h hw hc hown
  | owner hw hc hown hob hcl hwr ha => exact binding_destroyOwner h hw hc hown hob hcl hwr ha

/-- Destroying a wrap keeps the law. -/
theorem law_destroyWrap {x x' : Participant} {j : Nat} (h : Law x) (hd : Destroyed x j x') :
    Law x' := by
  apply (binding_destroyWrap h.binding hd).law
  cases hd with
  | @other w c hw hc hown =>
    intro i u ob hu huo hob hcl
    rcases Parties.getElem?_set hw hu with ⟨-, rfl⟩ | ⟨-, hu⟩
    · rw [hown] at huo
      cases huo
    · exact h.shut i u ob hu huo hob hcl
  | @owner w c ob ob' hw hc hown hob hcl hwr ha =>
    obtain ⟨-, -, hcc⟩ := Traffic.step_destroy hc
    intro i u ob₁ hu huo hob₁ hcl₁
    rcases Parties.getElem?_set hw hu with ⟨-, rfl⟩ | ⟨hij, hu⟩
    · simp [Wrap.isOpen, hcc]
    · -- Another owner belongs to another observer, which nothing happened to.
      rcases Parties.getElem?_set hob hob₁ with ⟨heq, -⟩ | ⟨-, hob₁⟩
      · exact absurd (h.sole i j u w hu hw huo hown heq) hij
      · exact h.shut i u ob₁ hu huo hob₁ hcl₁

end Participant

end VideoNode.Remote
