import VideoNode.Local.Observer
import VideoNode.Remote.Participant

/-!
# One owner for each observer

Every interleaving of what reaches the observers of one participant: events and raw work from the
signalling thread, wraps made for an observer and offered to it by `bind()`, `close()`, and the
destruction of wraps, owners and others. An observer hands what it accepts to one queue.
-/

namespace VideoNode.Remote

open VideoNode.Common VideoNode.Lts

/-- What happens to the observers and wraps of one participant. `enqueue` is `dispatchEvent` or
`enqueueRaw` of an observer, which the signalling thread may still call after another observer was
installed; a wrap made without an observer is `createObserver` and `newInstance` of it. -/
inductive BindingAct where
  | createObserver
  | enqueue (o : Nat) (event : PendingEvent)
  | newInstance (o : Nat)
  | setEventCallback (j : Nat)
  | closeObserver (o : Nat)
  | destroyWrap (j : Nat)
  | turn (j : Nat) (t : Turn)
  deriving DecidableEq, Repr

namespace Participant

/-- One step of one thread. -/
def bindingStep (x : Participant) : BindingAct → Option Participant
  | .createObserver => some x.createObserver
  | .enqueue o event => some (x.enqueue o event)
  | .newInstance o => if o < x.observers.length then some (x.newInstance o) else none
  | .setEventCallback j => some (x.setEventCallback j)
  | .closeObserver o => some (x.closeObserver o)
  | .destroyWrap j => x.destroyWrap j
  | .turn j t => (x.turn j t).map Prod.fst

/-- A participant nothing observes yet, and everything that can happen around it. -/
def bindings : Machine Participant BindingAct where
  init := init
  step := bindingStep

/-- What observer `o` accepts in a step: what is enqueued on it while it is not closed. -/
def accepts (o : Nat) (x : Participant) : BindingAct → List PendingEvent
  | .enqueue i event => if i = o ∧ x.isObserverClosed o = false then [event] else []
  | _ => []

/-- Everything observer `o` accepted so far. -/
def acceptedBy (x : Participant) (o : Nat) : List PendingEvent :=
  ((x.observers[o]?).map Observer.accepted).getD []

/-- Setting the event callback of a wrap keeps observers and wraps together. -/
theorem binding_setEventCallback {x : Participant} (j : Nat) (h : Binding x) :
    Binding (x.setEventCallback j) := by
  cases hw : x.wraps[j]? with
  | none =>
    rw [setEventCallback, List.modify_eq_self (List.getElem?_eq_none_iff.mp hw)]
    exact h
  | some w =>
    rw [setEventCallback, Parties.modify_eq_set_of hw]
    exact binding_touch h hw (h.sound j w hw) rfl rfl rfl rfl

private theorem observer_of_close {x : Participant} {o i : Nat} {ob : Observer}
    (hob : x.observers[i]? = some ob) : ∃ ob' : Observer,
      (x.closeObserver o).observers[i]? = some ob' ∧ ob'.accepted = ob.accepted ∧
        (ob' = ob ∨ (ob'.closed = true ∧ ob'.wrap = none)) := by
  refine ⟨_, Parties.getElem?_modify_of hob _, ?_⟩
  by_cases hio : o = i
  · rw [if_pos hio]
    cases hc : ob.closed with
    | true => exact ⟨by simp, .inl (by simp)⟩
    | false => exact ⟨by simp, .inr (by simp)⟩
  · rw [if_neg hio]
    exact ⟨rfl, .inl rfl⟩

private theorem observer_before_close {x : Participant} {o i : Nat} {ob' : Observer}
    (hob : (x.closeObserver o).observers[i]? = some ob') : ∃ ob : Observer,
      x.observers[i]? = some ob ∧ (ob' = ob ∨ (ob'.closed = true ∧ ob'.wrap = none)) := by
  obtain ⟨ob, hob₀, -⟩ := Parties.of_getElem?_modify hob
  obtain ⟨ob₁, hob₁, -, hc⟩ := observer_of_close (o := o) hob₀
  rw [hob] at hob₁
  cases hob₁
  exact ⟨ob, hob₀, hc⟩

/-- Closing an observer keeps observers and wraps together. -/
theorem binding_closeObserver {x : Participant} (o : Nat) (h : Binding x) :
    Binding (x.closeObserver o) := by
  refine ⟨h.sound, ?_, ?_, h.unowned, ?_, h.sole⟩
  · intro i ob j hob hw
    obtain ⟨ob₀, hob₀, rfl | ⟨-, hn⟩⟩ := observer_before_close hob
    · exact h.bound i ob j hob₀ hw
    · rw [hn] at hw
      cases hw
  · intro j w hw hown
    obtain ⟨ob, hob, ha, hb⟩ := h.owned j w hw hown
    obtain ⟨ob', hob', ha', hc⟩ := observer_of_close (o := o) hob
    refine ⟨ob', hob', ha.trans ha'.symm, ?_⟩
    rcases hc with rfl | ⟨hcl, -⟩
    · exact hb
    · exact .inr hcl
  · intro i ob hob hc hw
    obtain ⟨ob₀, hob₀, rfl | ⟨hcl, -⟩⟩ := observer_before_close hob
    · exact h.buffered i ob hob₀ hc hw
    · rw [hcl] at hc
      cases hc

private theorem turn_touches {x x' : Participant} {j : Nat} {t : Turn} {hop : Option (Nat × Nat)}
    (ht : x.turn j t = some (x', hop)) : ∃ w c received, x.wraps[j]? = some w ∧
      w.context.step (.turn t) = some c ∧
      x' = { x with wraps := x.wraps.set j { w with context := c, received := received } } := by
  cases hw : x.wraps[j]? with
  | none => simp [turn, hw] at ht
  | some w =>
    simp only [turn, hw] at ht
    obtain ⟨c, hc, he⟩ := Option.map_eq_some_iff.mp ht
    split at he
    · cases he
      exact ⟨w, c, _, rfl, hc, rfl⟩
    · cases he
      exact ⟨w, c, _, rfl, hc, rfl⟩
    · cases he
      exact ⟨w, c, _, rfl, hc, rfl⟩

/-- A step of a wrap's `drain()` keeps observers and wraps together, delivered or not. -/
theorem binding_turn {x x' : Participant} {j : Nat} {t : Turn} {hop : Option (Nat × Nat)}
    (h : Binding x) (ht : x.turn j t = some (x', hop)) : Binding x' := by
  obtain ⟨w, c, received, hw, hc, rfl⟩ := turn_touches ht
  obtain ⟨ha, -, hcl, -⟩ := Traffic.step_turn hc
  have hs : Wrap.Sound { w with context := c, received := received } :=
    Machine.Reachable.step (a := .turn t) (h.sound j w hw) hc
  exact binding_touch h hw hs rfl rfl ha (by simp [Wrap.isOpen, hcl])

/-- Every step keeps observers and wraps together. -/
theorem binding_step {x x' : Participant} {a : BindingAct} (h : Binding x)
    (hs : x.bindingStep a = some x') : Binding x' := by
  cases a with
  | createObserver =>
    cases hs
    exact binding_createObserver h
  | enqueue o event =>
    cases hs
    exact binding_enqueue h (enqueued h o event)
  | newInstance o =>
    simp only [bindingStep] at hs
    split at hs
    · cases hs
      exact binding_newInstance h (instanced x o)
    · cases hs
  | setEventCallback j =>
    cases hs
    exact binding_setEventCallback j h
  | closeObserver o =>
    cases hs
    exact binding_closeObserver o h
  | destroyWrap j => exact binding_destroyWrap h (destroyed h hs)
  | turn j t =>
    obtain ⟨⟨y, hop⟩, ht, rfl⟩ := Option.map_eq_some_iff.mp hs
    exact binding_turn h ht

private theorem acceptedBy_set {x y : Participant} {i : Nat} {ob ob' : Observer}
    (hob : x.observers[i]? = some ob) (hy : y.observers = x.observers.set i ob') (o : Nat) :
    y.acceptedBy o = if i = o then ob'.accepted else x.acceptedBy o := by
  rw [acceptedBy, hy]
  by_cases hio : i = o
  · subst hio
    simp [Parties.getElem?_set_self hob]
  · rw [List.getElem?_set_ne hio, if_neg hio]
    rfl

private theorem acceptedBy_of {x : Participant} {o : Nat} {ob : Observer}
    (hob : x.observers[o]? = some ob) : x.acceptedBy o = ob.accepted := by
  simp [acceptedBy, hob]

private theorem acceptedBy_keep {x y : Participant} {i : Nat} {ob ob' : Observer}
    (hob : x.observers[i]? = some ob) (hy : y.observers = x.observers.set i ob')
    (ha : ob'.accepted = ob.accepted) (o : Nat) : y.acceptedBy o = x.acceptedBy o := by
  rw [acceptedBy_set hob hy o]
  by_cases hio : i = o
  · rw [if_pos hio, ha, ← hio, acceptedBy_of hob]
  · rw [if_neg hio]

private theorem acceptedBy_enqueue {x x' : Participant} {i o : Nat} {event : PendingEvent}
    (he : Enqueued x i event x') :
    x'.acceptedBy o = x.acceptedBy o ++ accepts o x (.enqueue i event) := by
  have hopen : ∀ {ob ob' : Observer}, x.observers[i]? = some ob → ob.closed = false →
      x'.observers = x.observers.set i ob' → ob'.accepted = ob.accepted ++ [event] →
      x'.acceptedBy o = x.acceptedBy o ++ accepts o x (.enqueue i event) := by
    intro ob ob' hob hc hy ha
    rw [acceptedBy_set hob hy o]
    by_cases hio : i = o
    · subst hio
      have hcl : x.isObserverClosed i = false := by simp [isObserverClosed, hob, hc]
      rw [if_pos rfl, accepts, if_pos ⟨rfl, hcl⟩, acceptedBy_of hob, ha]
    · rw [if_neg hio, accepts, if_neg fun hn ↦ hio hn.1, List.append_nil]
  cases he with
  | refused hc =>
    have hn : ¬ (i = o ∧ x.isObserverClosed o = false) := by
      rintro ⟨rfl, hf⟩
      rw [hc] at hf
      cases hf
    rw [accepts, if_neg hn, List.append_nil]
  | @buffered ob hob hc hw => exact hopen hob hc rfl rfl
  | @queued ob j w c hob hc hwr hw ho hown hs ha hst hcl => exact hopen hob hc rfl rfl

/-- Each step extends what an observer accepted by what it accepts in that step. -/
theorem acceptedBy_step {x x' : Participant} {a : BindingAct} (o : Nat) (h : Binding x)
    (hs : x.bindingStep a = some x') : x'.acceptedBy o = x.acceptedBy o ++ accepts o x a := by
  cases a with
  | createObserver =>
    cases hs
    simp only [accepts, List.append_nil]
    by_cases ho : o < x.observers.length
    · simp only [acceptedBy, createObserver, List.getElem?_append_left ho]
    · have hn : x.observers[o]? = none := by
        rw [List.getElem?_eq_none_iff]
        omega
      cases hob : x.createObserver.observers[o]? with
      | none => simp [acceptedBy, hob, hn]
      | some ob =>
        rcases Parties.getElem?_concat hob with ⟨-, rfl⟩ | hob'
        · simp [acceptedBy, hob, hn]
        · rw [hn] at hob'
          cases hob'
  | enqueue i event =>
    cases hs
    exact acceptedBy_enqueue (enqueued h i event)
  | newInstance i =>
    simp only [bindingStep] at hs
    split at hs
    · cases hs
      simp only [accepts, List.append_nil]
      have hi := instanced x i
      generalize x.newInstance i = y at hi
      cases hi with
      | unbound hob => rfl
      | bound hob => exact acceptedBy_keep hob rfl (by rfl) o
    · cases hs
  | setEventCallback j =>
    cases hs
    exact (List.append_nil _).symm
  | closeObserver i =>
    cases hs
    simp only [accepts, List.append_nil]
    cases hob : x.observers[o]? with
    | none =>
      have hn : (x.closeObserver i).observers[o]? = none := by
        rw [closeObserver, List.getElem?_modify, hob]
        rfl
      simp [acceptedBy, hob, hn]
    | some ob =>
      obtain ⟨ob', hob', ha, -⟩ := observer_of_close (o := i) hob
      rw [acceptedBy_of hob, acceptedBy_of hob', ha]
  | destroyWrap j =>
    simp only [accepts, List.append_nil]
    cases destroyed h hs with
    | other hw hc hown => rfl
    | owner hw hc hown hob hcl hwr ha => exact acceptedBy_keep hob rfl ha o
  | turn j t =>
    obtain ⟨⟨y, hop⟩, ht, rfl⟩ := Option.map_eq_some_iff.mp hs
    obtain ⟨w, c, received, -, -, rfl⟩ := turn_touches ht
    exact (List.append_nil _).symm

/-- Observers and wraps belong together after every run. -/
theorem binding_of_exec {run : List BindingAct} {x : Participant}
    (hr : bindings.exec init run = some x) : Binding x := by
  refine Machine.exec_invariant (p := Binding) (fun y a z h hs ↦ ?_) law_init.binding hr
  exact binding_step h hs

/-- After every run, what an observer accepted is what the run enqueued on it before it closed. -/
theorem acceptedBy_of_exec {run : List BindingAct} {x : Participant} (o : Nat)
    (hr : bindings.exec init run = some x) :
    x.acceptedBy o = bindings.collect (accepts o) init run := by
  have hp : ∀ y a z, Binding y → bindings.step y a = some z →
      Binding z ∧ z.acceptedBy o = y.acceptedBy o ++ accepts o y a :=
    fun y a z h hs ↦ ⟨binding_step h hs, acceptedBy_step o h hs⟩
  exact Machine.log_eq_collect hp law_init.binding hr

/-- The queue of an observer's owner has what the observer accepted, and that of any other wrap
nothing. -/
theorem handed {x : Participant} {j : Nat} {w : Wrap} (h : Binding x) (hw : x.wraps[j]? = some w) :
    w.context.accepted = if w.ownsObserverBinding then x.acceptedBy w.observer else [] := by
  cases hown : w.ownsObserverBinding with
  | false => simpa using h.unowned j w hw hown
  | true =>
    obtain ⟨ob, hob, ha, -⟩ := h.owned j w hw hown
    rw [if_pos rfl, acceptedBy_of hob, ha]

/-- The queue of an owner delivers as long as its observer is open. -/
theorem delivers_of_open {x : Participant} {j : Nat} {w : Wrap} (h : Binding x)
    (hw : x.wraps[j]? = some w) (hown : w.ownsObserverBinding = true)
    (hc : x.isObserverClosed w.observer = false) : x.delivers w = true := by
  obtain ⟨ob, hob, -, hb⟩ := h.owned j w hw hown
  have hc : ob.closed = false := by simpa [isObserverClosed, hob] using hc
  have hb : ob.wrap = some j := hb.resolve_right (by simp [hc])
  obtain ⟨-, v, hv, -, -, ho⟩ := h.bound _ ob j hob hb
  rw [hw] at hv
  cases hv
  have ha := Wrap.alive_of_open (h.sound j w hw) ho
  simp [delivers, ha, hob, hb, hc]

/-- Destroying a wrap that does not own its observer changes no observer, no other wrap and not
what the participant reports to. -/
theorem destroyWrap_frame {x x' : Participant} {j : Nat} {w : Wrap} (h : Binding x)
    (hw : x.wraps[j]? = some w) (hown : w.ownsObserverBinding = false)
    (hd : x.destroyWrap j = some x') : x'.observers = x.observers ∧ x'.observer = x.observer ∧
      ∀ i, i ≠ j → x'.wraps[i]? = x.wraps[i]? := by
  cases destroyed h hd with
  | other hw' hc hown' => exact ⟨rfl, rfl, fun i hi ↦ List.getElem?_set_ne (Ne.symm hi)⟩
  | owner hw' hc hown' =>
    rw [hw] at hw'
    cases hw'
    rw [hown] at hown'
    cases hown'

/-- An observer that is open and has no wrap is one whose binding nobody owns. -/
theorem unbound_iff {x : Participant} {o : Nat} {ob : Observer} (h : Binding x)
    (hob : x.observers[o]? = some ob) (hc : ob.closed = false) :
    ob.wrap = none ↔ ∀ u ∈ x.wraps, u.observer = o → u.ownsObserverBinding = false := by
  refine ⟨?_, ?_⟩
  · intro hw u hu huo
    obtain ⟨j, hj⟩ := List.mem_iff_getElem?.mp hu
    cases hown : u.ownsObserverBinding with
    | false => rfl
    | true =>
      obtain ⟨ob', hob', -, hb⟩ := h.owned j u hj hown
      rw [huo, hob] at hob'
      cases hob'
      rw [hw, hc] at hb
      simp at hb
  · intro hfree
    cases hw : ob.wrap with
    | none => rfl
    | some j =>
      obtain ⟨-, u, hu, huo, hown, -⟩ := h.bound o ob j hob hw
      rw [hfree u (List.mem_of_getElem? hu) huo] at hown
      cases hown

/-- A wrap made for an observer owns the binding if the observer is open and nobody owned it before,
and only then. -/
theorem newInstance_owns {x : Participant} (o : Nat) (h : Binding x) : ∃ w : Wrap,
    (x.newInstance o).wraps = x.wraps ++ [w] ∧ w.observer = o ∧
      (w.ownsObserverBinding = true ↔ x.isObserverClosed o = false ∧
        ∀ u ∈ x.wraps, u.observer = o → u.ownsObserverBinding = false) := by
  have hi := instanced x o
  generalize x.newInstance o = y at hi
  cases hi with
  | unbound hob =>
    refine ⟨Wrap.create o, rfl, rfl, ?_, ?_⟩
    · intro hown
      cases hown
    · rintro ⟨hc, hfree⟩
      cases hx : x.observers[o]? with
      | none => simp [isObserverClosed, hx] at hc
      | some ob =>
        have hc : ob.closed = false := by simpa [isObserverClosed, hx] using hc
        exact absurd ((unbound_iff h hx hc).mpr hfree) (hob ob hx hc)
  | @bound ob c hob hc hw =>
    refine ⟨⟨o, true, false, c, []⟩, rfl, rfl, ⟨fun _ ↦ ⟨?_, ?_⟩, fun _ ↦ rfl⟩⟩
    · simp [isObserverClosed, hob, hc]
    · exact (unbound_iff h hob hc).mp hw

private theorem owner_set {l : List Wrap} {i j : Nat} {u v w : Wrap} (hu : l[i]? = some u)
    (hv : v.observer = u.observer ∧ v.ownsObserverBinding = u.ownsObserverBinding)
    (hw : l[j]? = some w) : ∃ w', (l.set i v)[j]? = some w' ∧ w'.observer = w.observer ∧
      w'.ownsObserverBinding = w.ownsObserverBinding := by
  by_cases hij : i = j
  · subst hij
    rw [hu] at hw
    cases hw
    exact ⟨v, Parties.getElem?_set_self hu, hv⟩
  · exact ⟨w, by rw [List.getElem?_set_ne hij]; exact hw, rfl, rfl⟩

/-- No step takes an observer away from its owner, or gives a wrap an observer it was not offered
to as it was made. -/
theorem owner_step {x x' : Participant} {a : BindingAct} {j : Nat} {w : Wrap} (h : Binding x)
    (hs : x.bindingStep a = some x') (hw : x.wraps[j]? = some w) :
    ∃ w' : Wrap, x'.wraps[j]? = some w' ∧ w'.observer = w.observer ∧
      w'.ownsObserverBinding = w.ownsObserverBinding := by
  cases a with
  | createObserver =>
    cases hs
    exact ⟨w, hw, rfl, rfl⟩
  | enqueue o event =>
    cases hs
    have he := enqueued h o event
    generalize x.enqueue o event = y at he
    cases he with
    | refused hc => exact ⟨w, hw, rfl, rfl⟩
    | buffered hob hc hwr => exact ⟨w, hw, rfl, rfl⟩
    | queued hob hc hwr hu => exact owner_set hu ⟨rfl, rfl⟩ hw
  | newInstance o =>
    simp only [bindingStep] at hs
    split at hs
    · cases hs
      obtain ⟨v, hv, -⟩ := newInstance_owns o h
      refine ⟨w, ?_, rfl, rfl⟩
      rw [hv, List.getElem?_append_left (List.getElem?_eq_some_iff.mp hw).1]
      exact hw
    · cases hs
  | setEventCallback i =>
    cases hs
    cases hu : x.wraps[i]? with
    | none =>
      rw [setEventCallback, List.modify_eq_self (List.getElem?_eq_none_iff.mp hu)]
      exact ⟨w, hw, rfl, rfl⟩
    | some u =>
      rw [setEventCallback, Parties.modify_eq_set_of hu]
      exact owner_set hu ⟨rfl, rfl⟩ hw
  | closeObserver o =>
    cases hs
    exact ⟨w, hw, rfl, rfl⟩
  | destroyWrap i =>
    cases destroyed h hs with
    | other hu hc hown => exact owner_set hu ⟨rfl, rfl⟩ hw
    | owner hu hc hown hob hcl hwr ha => exact owner_set hu ⟨rfl, rfl⟩ hw
  | turn i t =>
    obtain ⟨⟨y, hop⟩, ht, rfl⟩ := Option.map_eq_some_iff.mp hs
    obtain ⟨u, c, received, hu, -, rfl⟩ := turn_touches ht
    exact owner_set hu ⟨rfl, rfl⟩ hw

/-- In every run, the wraps offered to an observer `o` share out as follows. The one that owns the
binding has in its queue exactly what the run enqueued on `o` before `o` closed, in that order, and
no other wrap has anything; there is at most one owner, ever; and destroying another wrap leaves
`o`, the registration on the participant and the owner as they are, still delivering. The wrap made
next for `o` becomes the owner, with everything accepted until then in its queue, exactly if `o` is
open and has no owner yet, and an owner stays one whatever happens. The queue of the local
participant's wrap follows the same law, and takes over the buffer unless its observer is closed.
An owner also detaches an observer installed after its own, so the registration is only safe from
wraps that own nothing. -/
theorem one_owner {run : List BindingAct} {x : Participant} (hr : bindings.exec init run = some x)
    (o : Nat) {calls : List Local.ObservedAct} {y : Local.ObservedParticipant}
    (hl : Local.ObservedParticipant.machine.exec Local.ObservedParticipant.machine.init calls =
      some y) :
    (∀ (j : Nat) (w : Wrap), x.wraps[j]? = some w → w.observer = o → w.context.accepted =
      if w.ownsObserverBinding then bindings.collect (accepts o) init run else []) ∧
    (∀ (j j' : Nat) (w w' : Wrap), x.wraps[j]? = some w → x.wraps[j']? = some w' →
      w.observer = o → w'.observer = o → w.ownsObserverBinding = true →
      w'.ownsObserverBinding = true → j = j') ∧
    (∀ (j : Nat) (w : Wrap) (x' : Participant), x.wraps[j]? = some w → w.observer = o →
      w.ownsObserverBinding = false → bindings.step x (.destroyWrap j) = some x' →
      x'.isObserverClosed o = x.isObserverClosed o ∧ x'.observer = x.observer ∧
      ∀ (i : Nat) (u : Wrap), x.wraps[i]? = some u → u.observer = o →
        u.ownsObserverBinding = true → x'.wraps[i]? = some u ∧
          (x.isObserverClosed o = false → x'.delivers u = true)) ∧
    (∀ x' : Participant, bindings.step x (.newInstance o) = some x' → ∃ w : Wrap,
      x'.wraps = x.wraps ++ [w] ∧ w.observer = o ∧
      (w.ownsObserverBinding = true ↔ x.isObserverClosed o = false ∧
        ∀ u ∈ x.wraps, u.observer = o → u.ownsObserverBinding = false) ∧
      w.context.accepted =
        if w.ownsObserverBinding then bindings.collect (accepts o) init run else []) ∧
    (∀ (a : BindingAct) (x' : Participant) (j : Nat) (w : Wrap), bindings.step x a = some x' →
      x.wraps[j]? = some w → ∃ w' : Wrap, x'.wraps[j]? = some w' ∧ w'.observer = w.observer ∧
        w'.ownsObserverBinding = w.ownsObserverBinding) ∧
    (∀ v : Local.LocalParticipantWrap, y.wrap = some v → v.context.accepted =
      if v.adopted then Local.ObservedParticipant.machine.collect
        Local.ObservedParticipant.accepts Local.ObservedParticipant.machine.init calls
      else []) ∧
    (∀ y' : Local.ObservedParticipant,
      Local.ObservedParticipant.machine.step y .newInstance = some y' →
      ∃ v : Local.LocalParticipantWrap, y'.wrap = some v ∧
        (v.adopted = true ↔
          y.observer.map Local.LocalParticipantObserver.closed ≠ some true) ∧
        v.context.accepted = if v.adopted then Local.ObservedParticipant.machine.collect
          Local.ObservedParticipant.accepts Local.ObservedParticipant.machine.init calls
        else []) := by
  have h := binding_of_exec hr
  refine ⟨?_, ?_, ?_, ?_, fun a x' j w hs hw ↦ owner_step h hs hw, ?_,
    fun y' hs ↦ Local.ObservedParticipant.newInstance_takes hl hs⟩
  · rintro j w hw rfl
    rw [← acceptedBy_of_exec w.observer hr]
    exact handed h hw
  · intro j j' w w' hw hw' ho ho' hown hown'
    exact h.sole j j' w w' hw hw' hown hown' (ho.trans ho'.symm)
  · intro j w x' hw ho hown hd
    obtain ⟨hobs, hreg, hwraps⟩ := destroyWrap_frame h hw hown hd
    have hclosed : x'.isObserverClosed o = x.isObserverClosed o := by
      rw [isObserverClosed, hobs, isObserverClosed]
    refine ⟨hclosed, hreg, ?_⟩
    intro i u hu huo huown
    have hij : i ≠ j := by
      rintro rfl
      rw [hw] at hu
      cases hu
      rw [hown] at huown
      cases huown
    have hu' : x'.wraps[i]? = some u := (hwraps i hij).trans hu
    refine ⟨hu', fun hc ↦ ?_⟩
    exact delivers_of_open (binding_step (a := .destroyWrap j) h hd) hu' huown
      (by rw [huo, hclosed, hc])
  · intro x' hs
    obtain ⟨w, hw, hwo, hown⟩ := newInstance_owns o h
    have hx : x' = x.newInstance o := by
      simp only [bindings, bindingStep] at hs
      split at hs
      · exact (Option.some.inj hs).symm
      · cases hs
    subst hx
    refine ⟨w, hw, hwo, hown, ?_⟩
    have hadd : (x.newInstance o).acceptedBy o = x.acceptedBy o ++ [] :=
      acceptedBy_step (a := .newInstance o) o h hs
    rw [List.append_nil, acceptedBy_of_exec o hr] at hadd
    have hx : (x.newInstance o).wraps[x.wraps.length]? = some w := by simp [hw]
    have ha := handed (binding_step (a := .newInstance o) h hs) hx
    rw [ha, hwo, hadd]
  · intro v hv
    rw [← Local.ObservedParticipant.accepted_of_exec hl]
    exact Local.ObservedParticipant.handed (Local.ObservedParticipant.binding_of_exec hl) hv

/-- Two wraps are offered one observer that has buffered an event. The first becomes the owner as it
is made and takes that event, and the second, which is destroyed before the observer closes, gets
nothing. The local participant has an event before and after its wrap, which takes both. -/
theorem one_owner_two : ∃ x₁ x₂ x y, ∃ w : Wrap,
    bindings.exec init [.createObserver, .enqueue 0 (.event 0)] = some x₁ ∧
    bindings.step x₁ (.newInstance 0) = some x₂ ∧ x₂.wraps = [w] ∧
    w.ownsObserverBinding = true ∧ w.context.accepted = [.event 0] ∧
    bindings.exec x₂ [.newInstance 0, .enqueue 0 (.raw 1), .destroyWrap 1, .enqueue 0 (.event 2),
      .closeObserver 0, .enqueue 0 (.event 3)] = some x ∧
    x.wraps.map Wrap.ownsObserverBinding = [true, false] ∧
    (∀ (j : Nat) (w : Wrap), x.wraps[j]? = some w → w.observer = 0 → w.context.accepted =
      if w.ownsObserverBinding then [.event 0, .raw 1, .event 2] else []) ∧
    Local.ObservedParticipant.machine.exec Local.ObservedParticipant.machine.init
      [.createObserver, .dispatchEvent 0, .newInstance, .dispatchEvent 1] = some y ∧
    (∀ v, y.wrap = some v → v.adopted = true ∧ v.context.accepted = [0, 1]) := by
  have hr : bindings.exec init [.createObserver, .enqueue 0 (.event 0)] = some _ := rfl
  have hr' : bindings.exec init [.createObserver, .enqueue 0 (.event 0), .newInstance 0,
      .newInstance 0, .enqueue 0 (.raw 1), .destroyWrap 1, .enqueue 0 (.event 2),
      .closeObserver 0, .enqueue 0 (.event 3)] = some _ := rfl
  have hl : Local.ObservedParticipant.machine.exec Local.ObservedParticipant.machine.init
      [.createObserver, .dispatchEvent 0, .newInstance, .dispatchEvent 1] = some _ := rfl
  obtain ⟨-, -, -, hfirst, -⟩ := one_owner hr 0 hl
  obtain ⟨w, hw, -, hown, ha⟩ := hfirst _ rfl
  have hown : w.ownsObserverBinding = true := hown.mpr ⟨rfl, by decide⟩
  rw [hown] at ha
  obtain ⟨hitems, -, -, -, -, hlocal, -⟩ := one_owner hr' 0 hl
  refine ⟨_, _, _, _, w, hr, rfl, hw, hown, ha, rfl, rfl, hitems, hl, fun v hv ↦ ?_⟩
  have hv' := hlocal v hv
  cases hv
  exact ⟨rfl, hv'⟩

end Participant

end VideoNode.Remote
