import VideoNode.Local.Names
import VideoNode.Local.Observer

/-!
# Publications that fail while connecting

A track given to `connect()` can fail to be published before JavaScript has a local participant. The
observer buffers the failure, a microtask of the `connected` event binds the local participant
(`lib/room.ts`), and the caller attaches its listener when `await connect()` goes on. Microtasks run
one after another, and no native queue is drained in between.
-/

namespace VideoNode.Local

open VideoNode.Common VideoNode.Lts

/-- The events of the Room: `connected`, or any other. -/
inductive RoomSignal where
  | connected
  | other
  deriving DecidableEq, Repr

/-- The microtasks: the one the Room queues, and the caller's, which attaches its listener once it
has been put off that many more times. -/
inductive Microtask where
  | bind
  | resume (hops : Nat)
  deriving DecidableEq, Repr

/-- The microtask is the caller's. -/
def Microtask.isResume : Microtask → Bool
  | .bind => false
  | .resume _ => true

/-- The queue of the Room, the native local participant, the microtasks and whether they are being
run, what has become of the promise and the Room, whether the Room has its `LocalParticipant`, and
what the caller's listener heard. -/
structure Connecting where
  context : Traffic RoomSignal
  participant : ObservedParticipant
  microtasks : List Microtask
  checkpoint : Bool
  settled : Bool
  resolved : Bool
  disposed : Bool
  localParticipant : Bool
  listening : Bool
  heard : List Nat
  deriving DecidableEq, Repr

/-- What the native threads and the JS thread do. -/
inductive ConnectingAct where
  /-- `onConnected` up to the event. -/
  | createObserver
  | dispatch (signal : RoomSignal)
  /-- A callback of the observer. -/
  | raise (event : Nat)
  /-- A step of the Room's `drain()`, or of the local participant's. -/
  | roomTurn (t : Turn)
  | turn (t : Turn)
  /-- The timeout. -/
  | settle
  | dispose
  /-- Microtasks start to run, or the next one does. -/
  | begin
  | microtask
  deriving DecidableEq, Repr

/-- The events the callback of the wrap was called with. -/
def ObservedParticipant.received (x : ObservedParticipant) : List Nat :=
  (x.wrap.map LocalParticipantWrap.received).getD []

namespace Connecting

section

variable (seeded : List LocalTrack) (hops : Nat)

/-- `GetLocalParticipant` of a Room that has a native one, which makes the wrap once;
`src/video/room_wrap.cpp:642–655`. -/
def native (s : Connecting) : Option ObservedParticipant :=
  if s.disposed then none
  else if s.participant.wrap = none then some s.participant.newInstance
  else some s.participant

/-- The `localParticipant` getter, and whether it returns; `lib/room.ts:331–340`. The constructor
seeds the tracks before it sets the event callback, `lib/local_participant.ts:102–107`. -/
def access (s : Connecting) : Connecting × Bool :=
  if s.localParticipant then (s, true)
  else match s.native with
    | none => (s, false)
    | some x =>
      match LocalParticipant.seed ⟨.empty⟩ seeded with
      | .error _ => ({ s with participant := x }, false)
      | .ok _ =>
        ({ s with
          participant := { x with wrap := x.wrap.map fun w ↦ { w with eventCallback := true } }
          localParticipant := true }, true)

/-- The `connected` event, while the Room is not closed; `lib/room.ts:255–271`. The promise resolves
unless it is settled, and the caller goes on in a microtask. -/
def connected (s : Connecting) : Connecting :=
  if s.disposed then s
  else
    { s with
      microtasks := s.microtasks ++ [.bind] ++ if s.settled then [] else [.resume hops]
      settled := true
      resolved := s.resolved || !s.settled }

/-- One microtask. -/
def run (s : Connecting) : Microtask → Connecting
  | .bind => (s.access seeded).1
  | .resume 0 =>
    let r := s.access seeded
    if r.2 then { r.1 with listening := true } else r.1
  | .resume (hops + 1) => { s with microtasks := s.microtasks ++ [.resume hops] }

/-- A step of the Room's queue, with the event that starts in it. -/
def roomTurn (s : Connecting) (t : Turn) : Option Connecting :=
  (s.context.step (.turn t)).map fun context ↦
    let s' := { s with context := context }
    if s.context.loop.started t = some .connected then s'.connected hops else s'

/-- A step of the local participant's queue; the listener hears what its callback is called with. -/
def turn (s : Connecting) (t : Turn) : Option Connecting :=
  (s.participant.step (.turn t)).map fun x ↦
    { s with
      participant := x
      heard := if s.listening then s.heard ++ x.received.drop s.participant.received.length
        else s.heard }

/-- `dispose()` closes the observer and removes the listener; `lib/room.ts:402–423`. -/
def dispose (s : Connecting) : Connecting :=
  { s with
    participant := { s.participant with
      observer := s.participant.observer.map LocalParticipantObserver.close }
    disposed := true
    localParticipant := false
    listening := false }

/-- One step. The JS thread runs microtasks to their end before it takes another callback;
`dispose()` may be called by any of them, and by whatever else JavaScript runs. -/
def step (s : Connecting) : ConnectingAct → Option Connecting
  | .createObserver =>
    (s.participant.step .createObserver).map fun x ↦ { s with participant := x }
  | .dispatch signal => some { s with context := s.context.dispatch signal }
  | .raise event =>
    (s.participant.step (.dispatchEvent event)).map fun x ↦ { s with participant := x }
  | .roomTurn t => if s.checkpoint then none else s.roomTurn hops t
  | .turn t => if s.checkpoint then none else s.turn t
  | .settle => if s.checkpoint then none else some { s with settled := true }
  | .dispose => some s.dispose
  | .begin =>
    if s.checkpoint ∨ s.microtasks = [] then none else some { s with checkpoint := true }
  | .microtask =>
    match s.checkpoint, s.microtasks with
    | true, task :: microtasks =>
      let s' := { s with microtasks := microtasks }.run seeded task
      some { s' with checkpoint := decide (s'.microtasks ≠ []) }
    | _, _ => none

/-- A Room that is not connected yet, and everything that can happen. -/
def machine : Machine Connecting ConnectingAct where
  init := ⟨⟨.create 0, [], []⟩, ObservedParticipant.machine.init, [], false, false, false, false,
    false, false, []⟩
  step := step seeded hops

end

/-- What the observer takes of what is raised in a step. -/
def raises (s : Connecting) : ConnectingAct → List Nat
  | .raise event => s.participant.accepts (.dispatchEvent event)
  | _ => []

/-- How the Room, the observer and the wrap belong together. Until the Room is disposed the wrap is
there exactly if the Room has its `LocalParticipant`, the observer is bound to it, and the callback
of the wrap was called with all that its queue started; afterwards nothing is delivered. -/
structure Bound (s : Connecting) : Prop where
  reachable : ObservedParticipant.machine.Reachable s.participant
  observed : s.participant.wrap.isSome → s.participant.observer.isSome
  wrapped : s.disposed = false → s.localParticipant = s.participant.wrap.isSome
  opened : s.disposed = false → ∀ ob, s.participant.observer = some ob →
    ob.closed = false ∧ ob.bound = s.participant.wrap.isSome
  called : ∀ w, s.participant.wrap = some w → w.received <+: w.context.started ∧
    (s.disposed = false → w.eventCallback = true ∧ w.received = w.context.started)
  silent : s.disposed = true → s.participant.delivers = false ∧ s.listening = false ∧
    s.localParticipant = false

/-- The caller's microtask has not run, and its listener missed nothing: the wrap is made among the
microtasks that run now, or not at all. -/
structure Before (s : Connecting) : Prop where
  resume : s.microtasks.countP Microtask.isResume = 1
  listening : s.listening = false
  received : s.participant.received = []
  unwrapped : s.checkpoint = false → s.participant.wrap = none

/-- The caller's microtask has run. -/
structure After (s : Connecting) : Prop where
  resume : s.microtasks.countP Microtask.isResume = 0
  listening : s.disposed = false → s.listening = true ∧ s.localParticipant = true

/-- What every step keeps: nothing happened until the promise is settled, and once it is resolved
the listener heard all that the callback was called with. -/
structure Inv (s : Connecting) : Prop where
  bound : s.Bound
  waiting : s.settled = false → s.microtasks = [] ∧ s.checkpoint = false ∧ s.listening = false ∧
    s.heard = [] ∧ s.participant.wrap = none
  resolved : s.resolved = true → s.heard = s.participant.received ∧ (s.Before ∨ s.After)

private theorem step_keeps {x x' : ObservedParticipant} {a : ObservedAct}
    (hs : x.step a = some x') (ha : x.accepts a = []) :
    (ObservedParticipant.machine.Reachable x → ObservedParticipant.machine.Reachable x') ∧
      x'.accepted = x.accepted := by
  refine ⟨fun h ↦ Machine.Reachable.step (a := a) h hs, ?_⟩
  rw [ObservedParticipant.accepted_step hs, ha, List.append_nil]

private theorem foldl_dispatch (events : List Nat) (w : LocalParticipantWrap) :
    (events.foldl LocalParticipantWrap.dispatch w).received = w.received ∧
      (events.foldl LocalParticipantWrap.dispatch w).context.started = w.context.started := by
  induction events generalizing w with
  | nil => exact ⟨rfl, rfl⟩
  | cons event events ih =>
    obtain ⟨hr, hc⟩ := ih (w.dispatch event)
    refine ⟨hr, hc.trans ?_⟩
    unfold LocalParticipantWrap.dispatch Traffic.dispatch Traffic.step
    cases w.context.loop.ctx.alive <;> rfl

/-- The first access binds the wrap to an observer that is open, which nothing was heard of yet. -/
theorem newInstance_eq {x : ObservedParticipant}
    (h : ∀ ob, x.observer = some ob → ob.closed = false ∧ ob.bound = false) :
    ∃ ob w, x.newInstance.observer = some ob ∧ x.newInstance.wrap = some w ∧
      ob.closed = false ∧ ob.bound = true ∧ w.received = [] ∧ w.context.started = [] := by
  have hbind : ∀ (y : ObservedParticipant) (ob : LocalParticipantObserver), ob.closed = false →
      ob.bound = false → ∃ ob' w, (y.bind ob .create).observer = some ob' ∧
        (y.bind ob .create).wrap = some w ∧ ob'.closed = false ∧ ob'.bound = true ∧
        w.received = [] ∧ w.context.started = [] := by
    intro y ob hc hb
    rw [ObservedParticipant.bind, if_neg (by simp [hc, hb])]
    obtain ⟨hr, hs⟩ := foldl_dispatch ob.pending .create
    exact ⟨_, _, rfl, rfl, hc, rfl, hr, hs⟩
  unfold ObservedParticipant.newInstance
  cases hob : x.observer with
  | none => exact hbind _ _ rfl rfl
  | some ob =>
    obtain ⟨hc, hb⟩ := h ob hob
    exact hbind _ _ hc hb

section

variable {seeded : List LocalTrack} {hops : Nat}

private theorem roomTurn_some {s s' : Connecting} {t : Turn}
    (hs : s.step seeded hops (.roomTurn t) = some s') :
    ∃ c, s' = { s with context := c } ∨
      s' = ({ s with context := c } : Connecting).connected hops := by
  simp only [step] at hs
  split at hs
  · cases hs
  · obtain ⟨c, -, rfl⟩ := Option.map_eq_some_iff.mp hs
    refine ⟨c, ?_⟩
    dsimp only
    split
    · exact .inr rfl
    · exact .inl rfl

private theorem microtask_eq_some {s s' : Connecting} :
    s.step seeded hops .microtask = some s' ↔ ∃ task microtasks r, s.checkpoint = true ∧
      s.microtasks = task :: microtasks ∧
      r = ({ s with microtasks := microtasks } : Connecting).run seeded task ∧
      s' = { r with checkpoint := decide (r.microtasks ≠ []) } := by
  constructor
  · intro hs
    simp only [step] at hs
    split at hs
    · next task microtasks hc hm =>
      cases hs
      exact ⟨task, microtasks, _, hc, hm, rfl, rfl⟩
    · cases hs
  · rintro ⟨task, microtasks, r, hc, hm, rfl, rfl⟩
    simp only [step, hc, hm]

private theorem access_cases {s : Connecting} (h : s.Bound) {p : LocalParticipant}
    (hseed : LocalParticipant.seed ⟨.empty⟩ seeded = .ok p) :
    (s.access seeded = (s, !s.disposed) ∧ (s.disposed = false → s.localParticipant = true)) ∨
    (s.disposed = false ∧ s.participant.wrap = none ∧ s.access seeded =
      ({ s with
        participant := { s.participant.newInstance with
          wrap := s.participant.newInstance.wrap.map fun w ↦ { w with eventCallback := true } }
        localParticipant := true }, true)) := by
  cases hd : s.disposed with
  | true =>
    obtain ⟨-, -, hl⟩ := h.silent hd
    exact .inl ⟨by simp [access, hl, native, hd], fun hd ↦ (by cases hd)⟩
  | false =>
    cases hl : s.localParticipant with
    | true => exact .inl ⟨by simp [access, hl], fun _ ↦ rfl⟩
    | false =>
      have hw : s.participant.wrap = none := by
        have hb := h.wrapped hd
        rw [hl] at hb
        simpa using hb.symm
      exact .inr ⟨rfl, hw, by simp [access, hl, native, hd, hw, hseed]⟩

/-- The getter returns unless the Room is disposed. It may make the wrap, whose callback was not
called yet, and the observer takes nothing in it. -/
theorem access_spec {s : Connecting} (h : s.Bound) {p : LocalParticipant}
    (hseed : LocalParticipant.seed ⟨.empty⟩ seeded = .ok p) :
    ∃ x l, s.access seeded = ({ s with participant := x, localParticipant := l }, !s.disposed) ∧
      ({ s with participant := x, localParticipant := l } : Connecting).Bound ∧
      x.received = s.participant.received ∧ x.accepted = s.participant.accepted ∧
      (s.disposed = false → l = true) := by
  rcases access_cases h hseed with ⟨he, hl⟩ | ⟨hd, hw, he⟩
  · exact ⟨s.participant, s.localParticipant, he, h, rfl, rfl, hl⟩
  · have hopen : ∀ ob, s.participant.observer = some ob → ob.closed = false ∧ ob.bound = false := by
      intro ob hob
      obtain ⟨hc, hb⟩ := h.opened hd ob hob
      exact ⟨hc, by rw [hb, hw]; rfl⟩
    obtain ⟨ob, w, hob, hw', hc, hb, hr, hst⟩ := newInstance_eq hopen
    have hmake : s.participant.step .newInstance = some s.participant.newInstance := by
      simp [ObservedParticipant.step, hw]
    have hset : s.participant.newInstance.step .setEventCallback = some
        { s.participant.newInstance with wrap := some { w with eventCallback := true } } := by
      simp [ObservedParticipant.step, hw']
    obtain ⟨hm, ham⟩ := step_keeps hmake rfl
    obtain ⟨hk, hak⟩ := step_keeps hset rfl
    rw [hw', Option.map_some] at he
    refine ⟨_, _, by rw [he, hd]; rfl, ⟨hk (hm h.reachable), ?_, ?_, ?_, ?_, ?_⟩, ?_,
      hak.trans ham, fun _ ↦ rfl⟩
    · exact fun _ ↦ by rw [hob]; rfl
    · exact fun _ ↦ rfl
    · intro _ ob' hob'
      have hob' : s.participant.newInstance.observer = some ob' := hob'
      rw [hob] at hob'
      cases hob'
      exact ⟨hc, hb⟩
    · rintro v ⟨⟩
      refine ⟨?_, fun _ ↦ ⟨rfl, hr.trans hst.symm⟩⟩
      rw [hr]
      exact List.nil_prefix
    · intro hd'
      have hd' : s.disposed = true := hd'
      rw [hd] at hd'
      cases hd'
    · simp [ObservedParticipant.received, hw, hr]

end

/-- Until the Room is disposed, a wrap is one the queue delivers to. -/
theorem delivers_of_wrap {s : Connecting} (h : s.Bound) (hd : s.disposed = false)
    {w : LocalParticipantWrap} (hw : s.participant.wrap = some w) :
    s.participant.delivers = true := by
  obtain ⟨ob, hob⟩ := Option.isSome_iff_exists.mp (h.observed (by rw [hw]; rfl))
  obtain ⟨hc, hb⟩ := h.opened hd ob hob
  rw [hw] at hb
  simp [ObservedParticipant.delivers, hob, hc, hb]

private theorem Bound.same {s s' : Connecting} (h : s.Bound)
    (hp : s'.participant = s.participant) (hl : s'.localParticipant = s.localParticipant)
    (hi : s'.listening = s.listening) (hd : s'.disposed = s.disposed) : s'.Bound := by
  constructor
  · rw [hp]
    exact h.reachable
  · rw [hp]
    exact h.observed
  · rw [hp, hl, hd]
    exact h.wrapped
  · rw [hp, hd]
    exact h.opened
  · rw [hp, hd]
    exact h.called
  · rw [hp, hl, hi, hd]
    exact h.silent

/-- The observer of a local participant that had none. -/
theorem bound_createObserver {s : Connecting} {x : ObservedParticipant} (h : s.Bound)
    (hs : s.participant.step .createObserver = some x) :
    ({ s with participant := x } : Connecting).Bound ∧ x.wrap = none ∧
      s.participant.wrap = none := by
  have hr : ObservedParticipant.machine.Reachable x :=
    Machine.Reachable.step (a := .createObserver) h.reachable hs
  simp only [ObservedParticipant.step] at hs
  split at hs
  · next hob =>
    cases hs
    have hw : s.participant.wrap = none := by
      cases hw : s.participant.wrap with
      | none => rfl
      | some w =>
        have ho := h.observed (by rw [hw]; rfl)
        rw [hob] at ho
        cases ho
    refine ⟨⟨hr, fun _ ↦ rfl, h.wrapped, ?_, h.called, fun hd ↦ ?_⟩, hw, hw⟩
    · rintro - ob ⟨⟩
      exact ⟨rfl, by simp [hw, LocalParticipantObserver.create]⟩
    · obtain ⟨-, hl, hp⟩ := h.silent hd
      exact ⟨rfl, hl, hp⟩
  · cases hs

/-- What the observer is told leaves the callback of the wrap alone. -/
theorem bound_dispatchEvent {s : Connecting} {x : ObservedParticipant} {event : Nat} (h : s.Bound)
    (hs : s.participant.step (.dispatchEvent event) = some x) :
    ({ s with participant := x } : Connecting).Bound ∧ x.received = s.participant.received ∧
      x.wrap.isSome = s.participant.wrap.isSome := by
  have hr : ObservedParticipant.machine.Reachable x :=
    Machine.Reachable.step (a := .dispatchEvent event) h.reachable hs
  obtain ⟨ob, hob, rfl⟩ := Option.map_eq_some_iff.mp hs
  cases hc : ob.closed with
  | true =>
    have he : s.participant.dispatchEvent ob event = s.participant := by
      simp [ObservedParticipant.dispatchEvent, hc]
    rw [he]
    exact ⟨h, rfl, rfl⟩
  | false =>
    cases hb : ob.bound with
    | false =>
      have he : s.participant.dispatchEvent ob event = { s.participant with
          observer := some { ob with
            pending := ob.pending ++ [event], accepted := ob.accepted ++ [event] } } := by
        simp [ObservedParticipant.dispatchEvent, hc, hb]
      rw [he] at hr ⊢
      refine ⟨⟨hr, fun _ ↦ rfl, h.wrapped, ?_, h.called, fun hd ↦ ?_⟩, rfl, rfl⟩
      · rintro hd ob' ⟨⟩
        exact h.opened hd ob hob
      · obtain ⟨-, hl, hp⟩ := h.silent hd
        exact ⟨by simp [ObservedParticipant.delivers, hb], hl, hp⟩
    | true =>
      have he : s.participant.dispatchEvent ob event = { s.participant with
          observer := some { ob with accepted := ob.accepted ++ [event] }
          wrap := s.participant.wrap.map fun w ↦ w.dispatch event } := by
        simp [ObservedParticipant.dispatchEvent, hc, hb]
      rw [he] at hr ⊢
      refine ⟨⟨hr, fun _ ↦ rfl, fun hd ↦ ?_, ?_, ?_, fun hd ↦ ?_⟩, ?_, Option.isSome_map ..⟩
      · exact (h.wrapped hd).trans (Option.isSome_map ..).symm
      · rintro hd ob' ⟨⟩
        obtain ⟨hc', hb'⟩ := h.opened hd ob hob
        exact ⟨hc', hb'.trans (Option.isSome_map ..).symm⟩
      · intro v hv
        obtain ⟨w, hw, rfl⟩ := Option.map_eq_some_iff.mp hv
        have hst : (w.dispatch event).context.started = w.context.started :=
          (foldl_dispatch [event] w).2
        rw [hst]
        exact h.called w hw
      · -- A Room that is disposed has no observer that is bound.
        obtain ⟨hde, -, -⟩ := h.silent hd
        simp [ObservedParticipant.delivers, hob, hc, hb] at hde
      · cases hw : s.participant.wrap <;> simp [ObservedParticipant.received, hw,
          LocalParticipantWrap.dispatch]

/-- The callback of the wrap is called with what its queue starts, until the Room is disposed. -/
theorem bound_turn {s : Connecting} {x : ObservedParticipant} {t : Turn} (h : s.Bound)
    (hs : s.participant.step (.turn t) = some x) :
    ({ s with participant := x } : Connecting).Bound ∧ s.participant.wrap.isSome = true ∧
      ∃ events, x.received = s.participant.received ++ events ∧
        (s.disposed = true → events = []) := by
  have hr : ObservedParticipant.machine.Reachable x :=
    Machine.Reachable.step (a := .turn t) h.reachable hs
  obtain ⟨w, hw, ht⟩ := Option.bind_eq_some_iff.mp hs
  obtain ⟨c, hc, rfl⟩ := Option.map_eq_some_iff.mp ht
  obtain ⟨-, hst, -, -⟩ := Traffic.step_turn hc
  obtain ⟨hpre, hcalled⟩ := h.called w hw
  have hrec : s.participant.received = w.received := by simp [ObservedParticipant.received, hw]
  refine ⟨⟨hr, fun _ ↦ h.observed (by rw [hw]; rfl), fun hd ↦ ?_, fun hd ↦ ?_, ?_, ?_⟩,
    by rw [hw]; rfl, _, by rw [hrec]; rfl, fun hd ↦ ?_⟩
  · rw [h.wrapped hd, hw]
    rfl
  · intro ob hob
    obtain ⟨hcl, hb⟩ := h.opened hd ob hob
    exact ⟨hcl, by rw [hb, hw]; rfl⟩
  · rintro v ⟨⟩
    cases hd : s.disposed with
    | true =>
      obtain ⟨hde, -, -⟩ := h.silent hd
      refine ⟨?_, fun hd' ↦ (by cases hd')⟩
      simp only [hde, Bool.false_and, Bool.false_eq_true, if_false, Option.toList_none,
        List.append_nil, hst]
      exact hpre.trans (List.prefix_append ..)
    | false =>
      obtain ⟨hcb, heq⟩ := hcalled hd
      have hde := delivers_of_wrap h hd hw
      have he : w.received ++ (if s.participant.delivers && w.eventCallback then
          w.context.loop.started t else none).toList = c.started := by
        simp [hde, hcb, hst, heq]
      exact ⟨he ▸ List.prefix_rfl, fun _ ↦ ⟨hcb, he⟩⟩
  · exact h.silent
  · obtain ⟨hde, -, -⟩ := h.silent hd
    simp [hde]

/-- Disposal closes the observer, which nothing is delivered through any more. -/
theorem bound_dispose {s : Connecting} (h : s.Bound) :
    s.dispose.Bound ∧ s.dispose.participant.accepted = s.participant.accepted := by
  have hclose : ∀ ob : LocalParticipantObserver, ob.close.closed = true := by
    intro ob
    unfold LocalParticipantObserver.close
    split
    · assumption
    · rfl
  have hk : ObservedParticipant.machine.Reachable s.dispose.participant ∧
      s.dispose.participant.accepted = s.participant.accepted := by
    cases hob : s.participant.observer with
    | none =>
      have he : s.dispose.participant = s.participant := by
        simp only [dispose, hob, Option.map_none]
        rw [← hob]
      rw [he]
      exact ⟨h.reachable, rfl⟩
    | some ob =>
      have hclosed : s.participant.step .closeObserver = some s.dispose.participant := by
        simp [ObservedParticipant.step, dispose, hob]
      obtain ⟨hr, ha⟩ := step_keeps hclosed rfl
      exact ⟨hr h.reachable, ha⟩
  refine ⟨⟨hk.1, ?_, fun hd ↦ (by cases hd), fun hd ↦ (by cases hd),
    fun w hw ↦ ⟨(h.called w hw).1, fun hd ↦ (by cases hd)⟩, fun _ ↦ ?_⟩, hk.2⟩
  · intro hw
    exact (Option.isSome_map ..).trans (h.observed hw)
  · refine ⟨?_, rfl, rfl⟩
    cases hob : s.participant.observer with
    | none => simp [ObservedParticipant.delivers, dispose, hob]
    | some ob => simp [ObservedParticipant.delivers, dispose, hob, hclose]

private theorem inv_participant {s : Connecting} {x : ObservedParticipant} (h : s.Inv)
    (hb : ({ s with participant := x } : Connecting).Bound)
    (hr : x.received = s.participant.received) (hw : s.participant.wrap = none → x.wrap = none) :
    ({ s with participant := x } : Connecting).Inv := by
  refine ⟨hb, fun hs ↦ ?_, fun hs ↦ ?_⟩
  · obtain ⟨hm, hc, hl, hh, hn⟩ := h.waiting hs
    exact ⟨hm, hc, hl, hh, hw hn⟩
  · obtain ⟨hh, hp⟩ := h.resolved hs
    refine ⟨hh.trans hr.symm, hp.imp (fun hp ↦ ?_) fun hp ↦ ⟨hp.resume, hp.listening⟩⟩
    exact ⟨hp.resume, hp.listening, hr.trans hp.received, fun hc ↦ hw (hp.unwrapped hc)⟩

private theorem inv_context {s : Connecting} (h : s.Inv) (c : Traffic RoomSignal) :
    ({ s with context := c } : Connecting).Inv := by
  have hb := h.bound
  refine ⟨hb.same rfl rfl rfl rfl, h.waiting, fun hr ↦ ?_⟩
  obtain ⟨hh, hp⟩ := h.resolved hr
  exact ⟨hh, hp.imp (fun hp ↦ ⟨hp.resume, hp.listening, hp.received, hp.unwrapped⟩)
    fun hp ↦ ⟨hp.resume, hp.listening⟩⟩

-- A step of the local participant's queue, which is not taken among microtasks. A wrap with a queue
-- is made by then, so the caller's microtask has run.
private theorem inv_turn {s s' : Connecting} {t : Turn} (h : s.Inv) (hc : s.checkpoint = false)
    (hs : s.turn t = some s') : s'.Inv := by
  obtain ⟨x, hx, rfl⟩ := Option.map_eq_some_iff.mp hs
  obtain ⟨hb, hw, events, hr, hq⟩ := bound_turn h.bound hx
  refine ⟨hb.same rfl rfl rfl rfl, fun hs ↦ ?_, fun hres ↦ ?_⟩
  · obtain ⟨-, -, -, -, hn⟩ := h.waiting hs
    rw [hn] at hw
    cases hw
  · obtain ⟨hh, hp | hp⟩ := h.resolved hres
    · rw [hp.unwrapped hc] at hw
      cases hw
    · refine ⟨?_, .inr ⟨hp.resume, hp.listening⟩⟩
      dsimp only
      rw [hr, List.drop_left, hh]
      cases hd : s.disposed with
      | true => simp [hq hd]
      | false => simp [(hp.listening hd).1]

section

variable {seeded : List LocalTrack} {hops : Nat}

private theorem inv_connected {s : Connecting} (h : s.Inv) : (s.connected hops).Inv := by
  have hb := h.bound
  unfold connected
  split
  · exact h
  · refine ⟨hb.same rfl rfl rfl rfl, ?_, ?_⟩
    · rintro ⟨⟩
    · intro hr
      cases hs : s.settled with
      | false =>
        obtain ⟨hm, hc, hl, hh, hn⟩ := h.waiting hs
        have hrec : s.participant.received = [] := by simp [ObservedParticipant.received, hn]
        refine ⟨hh.trans hrec.symm, .inl ⟨?_, hl, hrec, fun _ ↦ hn⟩⟩
        simp [hm, Microtask.isResume]
      | true =>
        have hr : s.resolved = true := by simpa [hs] using hr
        obtain ⟨hh, hp⟩ := h.resolved hr
        refine ⟨hh, hp.imp (fun hp ↦ ?_) fun hp ↦ ?_⟩
        · exact ⟨by simpa [Microtask.isResume] using hp.resume, hp.listening, hp.received,
            hp.unwrapped⟩
        · exact ⟨by simpa [Microtask.isResume] using hp.resume, hp.listening⟩

private theorem inv_microtask {s : Connecting} {task : Microtask} {microtasks : List Microtask}
    (h : s.Inv) {p : LocalParticipant} (hseed : LocalParticipant.seed ⟨.empty⟩ seeded = .ok p)
    (hc : s.checkpoint = true) (hm : s.microtasks = task :: microtasks) :
    let s' := { s with microtasks := microtasks }.run seeded task
    ({ s' with checkpoint := decide (s'.microtasks ≠ []) } : Connecting).Inv := by
  intro s'
  have hs : s.settled = true := by
    cases hs : s.settled with
    | true => rfl
    | false =>
      obtain ⟨-, hc', -⟩ := h.waiting hs
      rw [hc] at hc'
      cases hc'
  have hb : ({ s with microtasks := microtasks } : Connecting).Bound := by
    obtain ⟨hr, ho, hw, hop, hca, hsi⟩ := h.bound
    exact ⟨hr, ho, hw, hop, hca, hsi⟩
  obtain ⟨x, l, he, hbx, hr, -, hl⟩ := access_spec hb hseed
  cases task with
  | bind =>
    have hrun : s' = { s with microtasks := microtasks, participant := x, localParticipant := l } :=
      congrArg Prod.fst he
    have hk : ∀ n, s.microtasks.countP Microtask.isResume = n →
        microtasks.countP Microtask.isResume = n := by
      intro n hn
      simpa [hm, Microtask.isResume] using hn
    rw [hrun]
    refine ⟨hbx.same rfl rfl rfl rfl, fun hs' ↦ (by cases hs.symm.trans hs'), fun hres ↦ ?_⟩
    obtain ⟨hh, hp⟩ := h.resolved hres
    refine ⟨hh.trans hr.symm, hp.imp (fun hp ↦ ?_) fun hp ↦ ⟨hk 0 hp.resume, fun hd ↦ ?_⟩⟩
    · -- The caller's microtask is still there, so the microtasks go on.
      refine ⟨hk 1 hp.resume, hp.listening, hr.trans hp.received, fun hd ↦ ?_⟩
      have hn := hk 1 hp.resume
      have hd : microtasks = [] := by simpa using hd
      rw [hd] at hn
      cases hn
    · exact ⟨(hp.listening hd).1, hl hd⟩
  | resume n =>
    cases n with
    | zero =>
      have hrun : s' = { s with
          microtasks := microtasks, participant := x, localParticipant := l,
          listening := !s.disposed || s.listening } := by
        simp only [s', run, he]
        cases s.disposed <;> rfl
      rw [hrun]
      refine ⟨⟨hbx.reachable, hbx.observed, hbx.wrapped, hbx.opened, hbx.called, fun hd ↦ ?_⟩,
        fun hs' ↦ (by cases hs.symm.trans hs'), fun hres ↦ ?_⟩
      · have hd : s.disposed = true := hd
        simpa [hd] using hbx.silent hd
      · obtain ⟨hh, hp⟩ := h.resolved hres
        have hn : s.microtasks.countP Microtask.isResume =
            microtasks.countP Microtask.isResume + 1 := by
          rw [hm, List.countP_cons_of_pos rfl]
        -- It is the caller's microtask, of which there is only one.
        refine ⟨hh.trans hr.symm, .inr ?_⟩
        rcases hp with hp | hp
        · have hz : microtasks.countP Microtask.isResume = 0 := by
            have hz := hp.resume
            omega
          exact ⟨hz, fun hd ↦ ⟨by simp [show s.disposed = false from hd], hl hd⟩⟩
        · have hz := hp.resume
          omega
    | succ n =>
      have hrun : s' = { s with microtasks := microtasks ++ [.resume n] } := rfl
      have hn : (microtasks ++ [Microtask.resume n]).countP Microtask.isResume =
          s.microtasks.countP Microtask.isResume := by
        rw [hm, List.countP_append, List.countP_singleton, List.countP_cons]
        rfl
      rw [hrun]
      refine ⟨hb.same rfl rfl rfl rfl, fun hs' ↦ (by cases hs.symm.trans hs'), fun hres ↦ ?_⟩
      obtain ⟨hh, hp⟩ := h.resolved hres
      refine ⟨hh, hp.imp (fun hp ↦ ?_) fun hp ↦ ⟨hn.trans hp.resume, hp.listening⟩⟩
      exact ⟨hn.trans hp.resume, hp.listening, hp.received, by simp⟩

/-- Every step keeps the caller's listener up with the callback. -/
theorem inv_step {p : LocalParticipant} (hseed : LocalParticipant.seed ⟨.empty⟩ seeded = .ok p)
    {s s' : Connecting} {a : ConnectingAct} (h : s.Inv) (hs : s.step seeded hops a = some s') :
    s'.Inv := by
  have hb := h.bound
  cases a with
  | createObserver =>
    obtain ⟨x, hx, rfl⟩ := Option.map_eq_some_iff.mp hs
    obtain ⟨hbx, hxn, hn⟩ := bound_createObserver hb hx
    exact inv_participant h hbx (by simp [ObservedParticipant.received, hxn, hn]) fun _ ↦ hxn
  | dispatch signal =>
    cases hs
    exact inv_context h _
  | raise event =>
    obtain ⟨x, hx, rfl⟩ := Option.map_eq_some_iff.mp hs
    obtain ⟨hbx, hr, hw⟩ := bound_dispatchEvent hb hx
    refine inv_participant h hbx hr fun hn ↦ ?_
    rw [hn] at hw
    simpa using hw
  | roomTurn t =>
    obtain ⟨c, rfl | rfl⟩ := roomTurn_some hs
    · exact inv_context h c
    · exact inv_connected (inv_context h c)
  | turn t =>
    simp only [step] at hs
    split at hs
    · cases hs
    · next hc => exact inv_turn h (by simpa using hc) hs
  | settle =>
    simp only [step] at hs
    split at hs
    · cases hs
    · cases hs
      refine ⟨hb.same rfl rfl rfl rfl, fun hs ↦ (by cases hs), fun hr ↦ ?_⟩
      obtain ⟨hh, hp⟩ := h.resolved hr
      exact ⟨hh, hp.imp (fun hp ↦ ⟨hp.resume, hp.listening, hp.received, hp.unwrapped⟩)
        fun hp ↦ ⟨hp.resume, hp.listening⟩⟩
  | dispose =>
    cases hs
    refine ⟨(bound_dispose hb).1, fun hs ↦ ?_, fun hr ↦ ?_⟩
    · obtain ⟨hm, hc, -, hh, hn⟩ := h.waiting hs
      exact ⟨hm, hc, rfl, hh, hn⟩
    · obtain ⟨hh, hp⟩ := h.resolved hr
      exact ⟨hh, hp.imp (fun hp ↦ ⟨hp.resume, rfl, hp.received, hp.unwrapped⟩)
        fun hp ↦ ⟨hp.resume, fun hd ↦ (by cases hd)⟩⟩
  | begin =>
    simp only [step] at hs
    split at hs
    · cases hs
    · next hn =>
      cases hs
      refine ⟨hb.same rfl rfl rfl rfl, fun hs ↦ ?_, fun hr ↦ ?_⟩
      · obtain ⟨hm, -⟩ := h.waiting hs
        exact absurd (.inr hm) hn
      · obtain ⟨hh, hp⟩ := h.resolved hr
        exact ⟨hh, hp.imp (fun hp ↦ ⟨hp.resume, hp.listening, hp.received, fun hc ↦ (by cases hc)⟩)
          fun hp ↦ ⟨hp.resume, hp.listening⟩⟩
  | microtask =>
    obtain ⟨task, microtasks, r, hc, hm, rfl, rfl⟩ := microtask_eq_some.mp hs
    exact inv_microtask h hseed hc hm

/-- What the observer accepts in a step is what it takes of what is raised in it. -/
theorem accepted_step {p : LocalParticipant}
    (hseed : LocalParticipant.seed ⟨.empty⟩ seeded = .ok p) {s s' : Connecting}
    {a : ConnectingAct} (h : s.Inv) (hs : s.step seeded hops a = some s') :
    s'.participant.accepted = s.participant.accepted ++ s.raises a := by
  cases a with
  | createObserver =>
    obtain ⟨x, hx, rfl⟩ := Option.map_eq_some_iff.mp hs
    exact ObservedParticipant.accepted_step hx
  | raise event =>
    obtain ⟨x, hx, rfl⟩ := Option.map_eq_some_iff.mp hs
    exact ObservedParticipant.accepted_step hx
  | dispatch signal =>
    cases hs
    exact (List.append_nil _).symm
  | roomTurn t =>
    refine Eq.trans ?_ (List.append_nil _).symm
    obtain ⟨c, rfl | rfl⟩ := roomTurn_some hs
    · rfl
    · unfold connected
      split <;> rfl
  | turn t =>
    simp only [step] at hs
    split at hs
    · cases hs
    · obtain ⟨x, hx, rfl⟩ := Option.map_eq_some_iff.mp hs
      exact ObservedParticipant.accepted_step hx
  | settle | begin =>
    simp only [step] at hs
    split at hs
    · cases hs
    · cases hs
      exact (List.append_nil _).symm
  | dispose =>
    cases hs
    exact (bound_dispose h.bound).2.trans (List.append_nil _).symm
  | microtask =>
    refine Eq.trans ?_ (List.append_nil _).symm
    obtain ⟨task, microtasks, r, hc, hm, rfl, rfl⟩ := microtask_eq_some.mp hs
    obtain ⟨hr, ho, hw, hop, hca, hsi⟩ := h.bound
    obtain ⟨x, l, he, -, -, ha, -⟩ :=
      access_spec (s := { s with microtasks := microtasks }) ⟨hr, ho, hw, hop, hca, hsi⟩ hseed
    match task with
    | .bind => simpa [run, he] using ha
    | .resume 0 =>
      simp only [run, he]
      split <;> exact ha
    | .resume (_ + 1) => rfl

-- How often the microtasks run before they are over.
private def weight : List Microtask → Nat
  | [] => 0
  | .bind :: microtasks => weight microtasks + 1
  | .resume hops :: microtasks => weight microtasks + hops + 1

private theorem weight_append (xs : List Microtask) (ys : List Microtask) :
    weight (xs ++ ys) = weight xs + weight ys := by
  induction xs with
  | nil => simp [weight]
  | cons task xs ih =>
    cases task <;> simp only [List.cons_append, weight, ih] <;> omega

private theorem access_microtasks (s : Connecting) :
    (s.access seeded).1.microtasks = s.microtasks := by
  unfold access
  split
  · rfl
  · split
    · rfl
    · split <;> rfl

-- Each microtask that runs brings the end of them nearer.
private theorem weight_run (s : Connecting) (task : Microtask) :
    weight (s.run seeded task).microtasks + 1 = weight (task :: s.microtasks) := by
  match task with
  | .bind => simp only [run, access_microtasks, weight]
  | .resume 0 =>
    simp only [run]
    split <;> simp only [access_microtasks, weight, Nat.add_zero]
  | .resume (n + 1) =>
    simp only [run, weight_append, weight]
    omega

/-- The microtasks run out, whatever the state. -/
theorem microtasks_end (s : Connecting) : ∃ as t, (∀ a ∈ as, a = .begin ∨ a = .microtask) ∧
    (machine seeded hops).exec s as = some t ∧ t.microtasks = [] := by
  have hrun : ∀ n (s : Connecting), weight s.microtasks ≤ n → s.checkpoint = true →
      ∃ as t, (∀ a ∈ as, a = .begin ∨ a = .microtask) ∧
        (machine seeded hops).exec s as = some t ∧ t.microtasks = [] := by
    intro n
    induction n with
    | zero =>
      intro s hn _
      cases hm : s.microtasks with
      | nil => exact ⟨[], s, by simp, rfl, hm⟩
      | cons task microtasks =>
        rw [hm] at hn
        cases task <;> simp [weight] at hn
    | succ n ih =>
      intro s hn hc
      cases hm : s.microtasks with
      | nil => exact ⟨[], s, by simp, rfl, hm⟩
      | cons task microtasks =>
        let s' := ({ s with microtasks := microtasks } : Connecting).run seeded task
        have hs : s.step seeded hops .microtask =
            some { s' with checkpoint := decide (s'.microtasks ≠ []) } :=
          microtask_eq_some.mpr ⟨task, microtasks, s', hc, hm, rfl, rfl⟩
        have hw : weight s'.microtasks + 1 = weight (task :: microtasks) := weight_run _ task
        rw [hm] at hn
        have hn' : weight s'.microtasks ≤ n := by omega
        cases he : decide (s'.microtasks ≠ []) with
        | false =>
          have he' : s'.microtasks = [] := by simpa using he
          exact ⟨[.microtask], _, by simp, (Machine.exec_singleton ..).trans hs, he'⟩
        | true =>
          rw [he] at hs
          obtain ⟨as, t, has, ht, htm⟩ := ih { s' with checkpoint := true } hn' rfl
          refine ⟨.microtask :: as, t, ?_, Machine.exec_cons_some.mpr ⟨_, hs, ht⟩, htm⟩
          rintro a (_ | ⟨_, ha⟩)
          · exact .inr rfl
          · exact has a ha
  cases hc : s.checkpoint with
  | true => exact hrun _ s le_rfl hc
  | false =>
    cases hm : s.microtasks with
    | nil => exact ⟨[], s, by simp, rfl, hm⟩
    | cons task microtasks =>
      obtain ⟨as, t, has, ht, htm⟩ := hrun _ { s with checkpoint := true } le_rfl rfl
      refine ⟨.begin :: as, t, ?_, Machine.exec_cons_some.mpr ⟨_, ?_, ht⟩, htm⟩
      · rintro a (_ | ⟨_, ha⟩)
        · exact .inl rfl
        · exact has a ha
      · simp [machine, step, hc, hm]

/-- Nothing happened at first. -/
theorem inv_init : (machine seeded hops).init.Inv := by
  refine ⟨⟨Machine.reachable_init _, ?_, fun _ ↦ rfl, ?_, ?_, ?_⟩, ?_, ?_⟩ <;>
    simp [machine, ObservedParticipant.machine]

/-- What the callback of the wrap was called with is a first part of what the observer accepted. The
rest of it waits in the queue as long as the Room is not disposed, and a wake-up is due for it. -/
theorem received_accounted {s : Connecting} (h : s.Bound) :
    s.participant.received <+: s.participant.accepted ∧
    (s.disposed = false → s.localParticipant = true → ∃ w, s.participant.wrap = some w ∧
      s.participant.accepted = s.participant.received ++ w.context.loop.contents ∧
      (w.context.loop.ctx.queue ≠ [] → w.context.loop.drain = .idle →
        ∃ a, w.context.loop.ctx.async = some a ∧ a.pending = true)) := by
  obtain ⟨run, hrun⟩ := h.reachable
  have hbind := ObservedParticipant.binding_of_exec hrun
  have hacc : ∀ w, s.participant.wrap = some w → w.adopted = true →
      w.context.accepted = s.participant.accepted := by
    intro w hw hwa
    obtain ⟨ob, hob, ha, -⟩ := hbind.adopted w hw hwa
    simp [ha, ObservedParticipant.accepted, hob]
  constructor
  · cases hw : s.participant.wrap with
    | none => simp [ObservedParticipant.received, hw]
    | some w =>
      have hrec : s.participant.received = w.received := by simp [ObservedParticipant.received, hw]
      have hpre := (h.called w hw).1.trans (Traffic.started_prefix (hbind.sound w hw))
      rw [hrec]
      cases hwa : w.adopted with
      | true => rwa [hacc w hw hwa] at hpre
      | false =>
        rw [hbind.refused w hw hwa, List.prefix_nil] at hpre
        rw [hpre]
        exact List.nil_prefix
  · intro hd hl
    have hws := h.wrapped hd
    rw [hl] at hws
    obtain ⟨w, hw⟩ := Option.isSome_iff_exists.mp hws.symm
    obtain ⟨ob, hob⟩ := Option.isSome_iff_exists.mp (h.observed hws.symm)
    obtain ⟨-, hb⟩ := h.opened hd ob hob
    obtain ⟨-, v, hv, hva, hvo⟩ := hbind.bound ob hob (by rw [hb, hw]; rfl)
    rw [hw] at hv
    cases hv
    have hrec : s.participant.received = w.context.started := by
      simp [ObservedParticipant.received, hw, (h.called w hw).2 hd]
    have hs := hbind.sound w hw
    refine ⟨w, hw, ?_, fun hq hi ↦ Traffic.wakeup_of_waiting hs hq hi⟩
    rw [hrec, Traffic.contents_of_open hs hvo, hacc w hw hva]

/-- If no two tracks given to `connect()` share a name, a caller that attaches its listener after
`await connect()`, however many microtasks later, hears of everything raised since the observer is
there, in order. The listener hears what the callback of the wrap is called with, so nothing is
delivered before it is attached; what it has not heard yet is in the queue, unless the Room is
disposed, with a wake-up due for it. The caller's microtask comes: the microtasks run out. -/
theorem connect_failures_heard
    (hnames : ∀ t ∈ seeded, ∀ u ∈ seeded, t.name = u.name → t = u) (as : List ConnectingAct)
    (s : Connecting) (hr : (machine seeded hops).exec (machine seeded hops).init as = some s)
    (hres : s.resolved = true) :
    s.heard = s.participant.received ∧
    s.heard <+: (machine seeded hops).collect raises (machine seeded hops).init as ∧
    (s.disposed = false → (∀ task ∈ s.microtasks, task.isResume = false) → s.listening = true ∧
      ∃ w, s.participant.wrap = some w ∧
        (machine seeded hops).collect raises (machine seeded hops).init as =
          s.heard ++ w.context.loop.contents ∧
        (w.context.loop.ctx.queue ≠ [] → w.context.loop.drain = .idle →
          ∃ a, w.context.loop.ctx.async = some a ∧ a.pending = true)) ∧
    ∃ bs t, (∀ b ∈ bs, b = .begin ∨ b = .microtask) ∧
      (machine seeded hops).exec s bs = some t ∧ t.microtasks = [] := by
  obtain ⟨p, hseed⟩ : ∃ p, LocalParticipant.seed ⟨.empty⟩ seeded = .ok p := by
    apply LocalParticipant.seed_ok
    · rintro t ht u (hu | hu)
      · exact hnames t ht u hu
      · cases hu
    · rintro n v ⟨⟩
  have hi : s.Inv :=
    Machine.exec_invariant (p := Inv) (fun _ _ _ h hs ↦ inv_step hseed h hs) inv_init hr
  let log : Connecting → List Nat := fun s ↦ s.participant.accepted
  have hlog : ∀ t a t', t.Inv → (machine seeded hops).step t a = some t' →
      t'.Inv ∧ log t' = log t ++ t.raises a :=
    fun _ _ _ h hs ↦ ⟨inv_step hseed h hs, accepted_step hseed h hs⟩
  have hacc : s.participant.accepted =
      (machine seeded hops).collect raises (machine seeded hops).init as :=
    Machine.log_eq_collect hlog inv_init hr
  obtain ⟨hpre, hrest⟩ := received_accounted hi.bound
  obtain ⟨hh, hp⟩ := hi.resolved hres
  rw [← hacc, hh]
  refine ⟨rfl, hpre, fun hd hm ↦ ?_, microtasks_end s⟩
  have ha : s.After := hp.resolve_left fun hb ↦ by
    have hn : s.microtasks.countP Microtask.isResume = 0 :=
      List.countP_eq_zero.mpr fun task ht ↦ by simp [hm task ht]
    exact absurd (hn.symm.trans hb.resume) (by decide)
  obtain ⟨hl, hlp⟩ := ha.listening hd
  exact ⟨hl, hrest hd hlp⟩

end

-- A failure right after `onConnected`, one that comes when the caller listens, and a caller that
-- attaches its listener in the second microtask after `await connect()`.
private def oneFailure : List ConnectingAct :=
  [.createObserver, .raise 7, .dispatch .connected, .roomTurn .onAsync, .roomTurn .swap,
    .roomTurn .next, .roomTurn .returned, .roomTurn .next, .begin, .microtask, .microtask,
    .microtask, .raise 8, .turn .onAsync, .turn .swap, .turn .next]

/-- Of two failures the listener heard the one that was raised before it was attached, and the other
one is next. -/
theorem connect_failures_heard_one : ∃ s, (machine [⟨0, .video, "camera"⟩] 1).exec
    (machine [⟨0, .video, "camera"⟩] 1).init oneFailure = some s ∧ s.resolved = true ∧
    s.heard = [7] ∧ s.listening = true ∧ s.heard <+: [7, 8] := by
  have hr : (machine [⟨0, .video, "camera"⟩] 1).exec
      (machine [⟨0, .video, "camera"⟩] 1).init oneFailure = some _ := rfl
  obtain ⟨-, hpre, hrest, -⟩ := connect_failures_heard (by simp) oneFailure _ hr rfl
  exact ⟨_, hr, rfl, rfl, (hrest rfl fun task ht ↦ by cases ht).1, hpre⟩

end Connecting

end VideoNode.Local
