import Mathlib.Data.List.Basic
import Mathlib.Data.List.Nodup

/-!
# Event emitters

The standard `EventEmitter`: listeners in the order they were added, `once` as a wrapper that
removes itself before it calls, and an emit that calls the listeners there are when it starts,
up to the first that throws. What a listener does to the state around the emitter is a
parameter.
-/

namespace VideoNode.Js

universe u v w

/-- How a call ends; what is thrown is not told apart. -/
inductive Completion where
  | returned
  | threw
  deriving DecidableEq, Repr

/-- One entry of a listener list; `wrapper` is the wrapper object that `once` made for it. -/
structure Registration (E : Type u) (F : Type v) where
  event : E
  listener : F
  wrapper : Option Nat
  deriving DecidableEq, Repr

/-- The listeners, and for each `once` wrapper ever made whether it has fired. -/
structure Emitter (E : Type u) (F : Type v) where
  registrations : List (Registration E F)
  fired : List Bool
  deriving DecidableEq, Repr

namespace Emitter

variable {E : Type u} {F : Type v} {S : Type w}

/-- `new EventEmitter()`. -/
def empty : Emitter E F := ⟨[], []⟩

/-- `on(event, listener)`. -/
def on (m : Emitter E F) (event : E) (listener : F) : Emitter E F :=
  { m with registrations := m.registrations ++ [⟨event, listener, none⟩] }

/-- `once(event, listener)`. -/
def once (m : Emitter E F) (event : E) (listener : F) : Emitter E F where
  registrations := m.registrations ++ [⟨event, listener, some m.fired.length⟩]
  fired := m.fired ++ [false]

/-- `prependListener(event, listener)`. -/
def prependListener (m : Emitter E F) (event : E) (listener : F) : Emitter E F :=
  { m with registrations := ⟨event, listener, none⟩ :: m.registrations }

/-- `prependOnceListener(event, listener)`. -/
def prependOnceListener (m : Emitter E F) (event : E) (listener : F) : Emitter E F where
  registrations := ⟨event, listener, some m.fired.length⟩ :: m.registrations
  fired := m.fired ++ [false]

/-- `removeAllListeners()`. -/
def removeAllListeners (m : Emitter E F) : Emitter E F := { m with registrations := [] }

/-- `removeListener(event, listener)`: of several equal entries the one added last. -/
def removeListener [DecidableEq E] [DecidableEq F] (m : Emitter E F) (event : E) (listener : F) :
    Emitter E F :=
  { m with registrations := (m.registrations.reverse.eraseP fun r ↦
      decide (r.event = event ∧ r.listener = listener)).reverse }

/-- What an emit of the event starts with. -/
def listening [DecidableEq E] (m : Emitter E F) (event : E) : List (Registration E F) :=
  m.registrations.filter fun r ↦ decide (r.event = event)

/-- A wrapper removes itself and is not called again. -/
def fire (m : Emitter E F) (i : Nat) : Emitter E F where
  registrations := m.registrations.filter fun r ↦ decide (r.wrapper ≠ some i)
  fired := m.fired.set i true

/-- A wrapper was called before. -/
def hasFired (m : Emitter E F) (i : Nat) : Bool := m.fired.getD i false

/-- Where a state keeps an emitter. -/
structure Slot (S : Type w) (E : Type u) (F : Type v) where
  read : S → Emitter E F
  write : S → Emitter E F → S

/-- The call of one listener, directly or through its wrapper. -/
def call (slot : Slot S E F) (run : F → S → S × Completion) (r : Registration E F) (s : S) :
    S × Completion :=
  match r.wrapper with
  | none => run r.listener s
  | some i =>
    if (slot.read s).hasFired i then (s, .returned)
    else run r.listener (slot.write s ((slot.read s).fire i))

/-- The calls of an emit; the first that throws ends them. -/
def calls (slot : Slot S E F) (run : F → S → S × Completion) :
    List (Registration E F) → S → S × Completion
  | [], s => (s, .returned)
  | r :: rs, s =>
    match call slot run r s with
    | (s, .returned) => calls slot run rs s
    | (s, .threw) => (s, .threw)

/-- `emit(event, …)`. -/
def emit [DecidableEq E] (slot : Slot S E F) (run : F → S → S × Completion) (event : E) (s : S) :
    S × Completion :=
  calls slot run ((slot.read s).listening event) s

/-- The state a listener is called in: its wrapper has removed itself. -/
def enter (slot : Slot S E F) (r : Registration E F) (s : S) : S :=
  match r.wrapper with
  | none => s
  | some i => slot.write s ((slot.read s).fire i)

/-- The wrappers of the listeners are different ones, and none has fired. -/
structure Pending (m : Emitter E F) (rs : List (Registration E F)) : Prop where
  nodup : (rs.filterMap Registration.wrapper).Nodup
  unfired : ∀ r ∈ rs, ∀ i : Nat, r.wrapper = some i → m.fired[i]? = some false

/-- Every wrapper that listens has not fired and listens once. -/
def WF (m : Emitter E F) : Prop := Pending m m.registrations

section Lemmas

variable {slot : Slot S E F} {run : F → S → S × Completion} {p : S → Prop}

/-- Listeners are added behind the ones there are. -/
@[simp] theorem registrations_on (m : Emitter E F) (event : E) (listener : F) :
    (m.on event listener).registrations = m.registrations ++ [⟨event, listener, none⟩] := rfl

/-- `once` adds a listener behind the ones there are. -/
@[simp] theorem registrations_once (m : Emitter E F) (event : E) (listener : F) :
    (m.once event listener).registrations =
      m.registrations ++ [⟨event, listener, some m.fired.length⟩] := rfl

/-- Removing a listener adds none. -/
theorem mem_of_removeListener [DecidableEq E] [DecidableEq F] {m : Emitter E F} {event : E}
    {listener : F} {r : Registration E F}
    (h : r ∈ (m.removeListener event listener).registrations) : r ∈ m.registrations := by
  simp only [removeListener, List.mem_reverse] at h
  simpa using List.mem_of_mem_eraseP h

/-- A wrapper that fires adds no listener. -/
theorem mem_of_fire {m : Emitter E F} {i : Nat} {r : Registration E F}
    (h : r ∈ (m.fire i).registrations) : r ∈ m.registrations := List.mem_of_mem_filter h

/-- What listens to an event is registered for it. -/
theorem mem_listening [DecidableEq E] {m : Emitter E F} {event : E} {r : Registration E F} :
    r ∈ m.listening event ↔ r ∈ m.registrations ∧ r.event = event := by
  simp [listening]

/-- One call keeps what firing a wrapper and the listener itself keep. -/
theorem call_invariant {r : Registration E F}
    (hf : ∀ s i, p s → p (slot.write s ((slot.read s).fire i)))
    (hr : ∀ s, p s → p (run r.listener s).1) {s : S} (hs : p s) : p (call slot run r s).1 := by
  unfold call
  split
  · exact hr s hs
  · next i hi =>
    split
    · exact hs
    · exact hr _ (hf s i hs)

/-- The calls of an emit keep what firing a wrapper and each listener keep. -/
theorem calls_invariant {rs : List (Registration E F)}
    (hf : ∀ s i, p s → p (slot.write s ((slot.read s).fire i)))
    (hr : ∀ r ∈ rs, ∀ s, p s → p (run r.listener s).1) {s : S} (hs : p s) :
    p (calls slot run rs s).1 := by
  induction rs generalizing s with
  | nil => exact hs
  | cons r rs ih =>
    have hc : p (call slot run r s).1 := call_invariant hf (hr r List.mem_cons_self) hs
    unfold calls
    split
    · next s' he =>
      rw [he] at hc
      exact ih (fun r h ↦ hr r (List.mem_cons_of_mem _ h)) hc
    · next s' he =>
      rw [he] at hc
      exact hc

/-- An emit keeps what firing a wrapper and each listener of the event keep. -/
theorem emit_invariant [DecidableEq E] {event : E} {s : S}
    (hf : ∀ s i, p s → p (slot.write s ((slot.read s).fire i)))
    (hr : ∀ r ∈ (slot.read s).registrations, r.event = event → ∀ s, p s → p (run r.listener s).1)
    (hs : p s) : p (emit slot run event s).1 := by
  apply calls_invariant hf _ hs
  intro r h
  obtain ⟨hm, he⟩ := mem_listening.mp h
  exact hr r hm he

/-- Where every listener returns and says what it puts out, the calls put that out in order. -/
theorem calls_output {X : Type w} (g : S → List X) (out : F → List X) (q : S → Prop)
    {rs : List (Registration E F)}
    (hq : ∀ s i, q s → q (slot.write s ((slot.read s).fire i)))
    (hg : ∀ s i, q s → g (slot.write s ((slot.read s).fire i)) = g s)
    (hr : ∀ r ∈ rs, ∀ s, q s → q (run r.listener s).1 ∧
      g (run r.listener s).1 = g s ++ out r.listener ∧ (run r.listener s).2 = .returned)
    (ho : ∀ r ∈ rs, r.wrapper = none ∨ out r.listener = []) {s : S} (hs : q s) :
    q (calls slot run rs s).1 ∧
      g (calls slot run rs s).1 = g s ++ rs.flatMap (fun r ↦ out r.listener) ∧
      (calls slot run rs s).2 = .returned := by
  induction rs generalizing s with
  | nil => exact ⟨hs, by simp [calls], rfl⟩
  | cons r rs ih =>
    have hc : q (call slot run r s).1 ∧
        g (call slot run r s).1 = g s ++ out r.listener ∧ (call slot run r s).2 = .returned := by
      have hr := hr r List.mem_cons_self
      have ho := ho r List.mem_cons_self
      unfold call
      split
      · exact hr s hs
      · next i hi =>
        have ho : out r.listener = [] := by
          cases ho with
          | inl hn =>
            rw [hn] at hi
            cases hi
          | inr ho => exact ho
        split
        · exact ⟨hs, by simp [ho], rfl⟩
        · obtain ⟨hq', hg', he⟩ := hr _ (hq s i hs)
          exact ⟨hq', by rw [hg', hg s i hs], he⟩
    obtain ⟨hq', hg', he⟩ := hc
    have ih := ih (fun r h ↦ hr r (List.mem_cons_of_mem _ h))
      (fun r h ↦ ho r (List.mem_cons_of_mem _ h)) hq'
    have hcons : calls slot run (r :: rs) s = calls slot run rs (call slot run r s).1 := by
      rw [calls]
      generalize call slot run r s = c at he
      obtain ⟨s', ends⟩ := c
      cases he
      rfl
    rw [hcons, List.flatMap_cons, ← List.append_assoc, ← hg']
    exact ih

/-- A call of a listener whose turn has come. -/
theorem call_of_pending {r : Registration E F} {rs : List (Registration E F)} {s : S}
    (h : Pending (slot.read s) (r :: rs)) :
    call slot run r s = run r.listener (enter slot r s) := by
  unfold call enter
  cases hi : r.wrapper with
  | none => rfl
  | some i =>
    have hf : (slot.read s).hasFired i = false := by
      simp [hasFired, h.unfired r List.mem_cons_self i hi]
    simp only [hf, Bool.false_eq_true, if_false]

/-- The listeners behind the one whose turn has come are still to be called. -/
theorem pending_enter {r : Registration E F} {rs : List (Registration E F)} {s : S}
    (hw : ∀ m, slot.read (slot.write s m) = m) (h : Pending (slot.read s) (r :: rs)) :
    Pending (slot.read (enter slot r s)) rs := by
  have hn : (rs.filterMap Registration.wrapper).Nodup :=
    h.nodup.sublist ((List.sublist_cons_self r rs).filterMap _)
  refine ⟨hn, fun r' hr' j hj ↦ ?_⟩
  have hu := h.unfired r' (List.mem_cons_of_mem _ hr') j hj
  unfold enter
  cases hi : r.wrapper with
  | none => exact hu
  | some i =>
    have hne : i ≠ j := by
      rintro rfl
      have hd := h.nodup
      rw [List.filterMap_cons_some hi, List.nodup_cons] at hd
      exact hd.1 (List.mem_filterMap.mpr ⟨r', hr', hj⟩)
    simp only
    rw [hw, fire, List.getElem?_set_ne hne]
    exact hu

/-- Where each listener says how it ends when its turn comes, the calls return exactly where all
of them do. The property is of the state and of the listeners that are still to be called. -/
theorem calls_returned_iff (ends : F → Completion) (q : List (Registration E F) → S → Prop)
    (hw : ∀ rs s m, q rs s → slot.read (slot.write s m) = m)
    (hr : ∀ r rs s, q (r :: rs) s → q rs (run r.listener (enter slot r s)).1 ∧
      (run r.listener (enter slot r s)).2 = ends r.listener ∧
      (slot.read (run r.listener (enter slot r s)).1).fired = (slot.read (enter slot r s)).fired)
    {rs : List (Registration E F)} {s : S} (hs : q rs s) (hp : Pending (slot.read s) rs) :
    (calls slot run rs s).2 = .returned ↔ ∀ r ∈ rs, ends r.listener = .returned := by
  induction rs generalizing s with
  | nil => simp [calls]
  | cons r rs ih =>
    obtain ⟨hq, he, hf⟩ := hr r rs s hs
    have hpend := pending_enter (hw (r :: rs) s · hs) hp
    rw [calls, call_of_pending hp, List.forall_mem_cons, ← he]
    generalize run r.listener (enter slot r s) = c at hq hf
    obtain ⟨s', c⟩ := c
    cases c with
    | returned =>
      have hp' : Pending (slot.read s') rs := ⟨hpend.nodup, by rw [hf]; exact hpend.unfired⟩
      simp only [true_and]
      exact ih hq hp'
    | threw => simp

/-- Without a listener an emit does nothing. -/
theorem emit_of_silent [DecidableEq E] {event : E} {s : S}
    (h : ∀ r ∈ (slot.read s).registrations, r.event ≠ event) :
    emit slot run event s = (s, .returned) := by
  have hl : (slot.read s).listening event = [] := by
    rw [listening, List.filter_eq_nil_iff]
    intro r hr
    simpa using h r hr
  rw [emit, hl, calls]

end Lemmas

section WF

variable {m : Emitter E F} {event : E} {listener : F}

private theorem wf_sublist {l : List (Registration E F)} (h : m.WF)
    (hl : l.Sublist m.registrations) : WF { m with registrations := l } :=
  ⟨h.nodup.sublist (hl.filterMap _), fun r hr ↦ h.unfired r (hl.subset hr)⟩

private theorem wf_new (h : m.WF) :
    (∀ r ∈ m.registrations, ∀ i, r.wrapper = some i →
      (m.fired ++ [false])[i]? = some false) ∧
    m.fired.length ∉ m.registrations.filterMap Registration.wrapper := by
  have hlt : ∀ r ∈ m.registrations, ∀ i, r.wrapper = some i → i < m.fired.length :=
    fun r hr i hi ↦ (List.getElem?_eq_some_iff.mp (h.unfired r hr i hi)).1
  constructor
  · intro r hr i hi
    rw [List.getElem?_append_left (hlt r hr i hi)]
    exact h.unfired r hr i hi
  · intro hm
    obtain ⟨r, hr, hi⟩ := List.mem_filterMap.mp hm
    exact Nat.lt_irrefl _ (hlt r hr _ hi)

/-- What listens to an event is still to be called. -/
theorem pending_listening [DecidableEq E] (h : m.WF) (event : E) :
    Pending m (m.listening event) :=
  ⟨h.nodup.sublist (List.filter_sublist.filterMap _),
    fun r hr ↦ h.unfired r (List.mem_of_mem_filter hr)⟩

/-- A new emitter. -/
theorem wf_empty : (empty : Emitter E F).WF := by
  refine ⟨List.nodup_nil, fun r hr ↦ ?_⟩
  cases hr

/-- `on`. -/
theorem wf_on (h : m.WF) : (m.on event listener).WF := by
  constructor
  · rw [registrations_on, List.filterMap_append]
    simpa using h.nodup
  · intro r hr i hi
    rw [registrations_on, List.mem_append, List.mem_singleton] at hr
    cases hr with
    | inl hr => exact h.unfired r hr i hi
    | inr hr =>
      rw [hr] at hi
      cases hi

/-- `once`. -/
theorem wf_once (h : m.WF) : (m.once event listener).WF := by
  obtain ⟨hold, hnew⟩ := wf_new h
  constructor
  · rw [registrations_once, List.filterMap_append]
    apply List.Nodup.append h.nodup (by simp)
    intro i hi hi'
    have hi' : i = m.fired.length := by simpa using hi'
    rw [hi'] at hi
    exact hnew hi
  · intro r hr i hi
    rw [registrations_once, List.mem_append, List.mem_singleton] at hr
    cases hr with
    | inl hr => exact hold r hr i hi
    | inr hr =>
      rw [hr] at hi
      cases hi
      simp [once]

/-- `prependListener`. -/
theorem wf_prependListener (h : m.WF) : (m.prependListener event listener).WF := by
  refine ⟨h.nodup, fun r hr i hi ↦ ?_⟩
  cases List.mem_cons.mp hr with
  | inl hr =>
    rw [hr] at hi
    cases hi
  | inr hr => exact h.unfired r hr i hi

/-- `prependOnceListener`. -/
theorem wf_prependOnceListener (h : m.WF) : (m.prependOnceListener event listener).WF := by
  obtain ⟨hold, hnew⟩ := wf_new h
  constructor
  · simp only [prependOnceListener, List.filterMap_cons]
    exact List.nodup_cons.mpr ⟨hnew, h.nodup⟩
  · intro r hr i hi
    cases List.mem_cons.mp hr with
    | inl hr =>
      rw [hr] at hi
      cases hi
      simp [prependOnceListener]
    | inr hr => exact hold r hr i hi

/-- `removeListener`. -/
theorem wf_removeListener [DecidableEq E] [DecidableEq F] (h : m.WF) :
    (m.removeListener event listener).WF := by
  apply wf_sublist h
  have hs : (m.registrations.reverse.eraseP fun r ↦
      decide (r.event = event ∧ r.listener = listener)).Sublist m.registrations.reverse :=
    List.eraseP_sublist
  simpa using hs.reverse

/-- `removeAllListeners`. -/
theorem wf_removeAllListeners (h : m.WF) : m.removeAllListeners.WF :=
  wf_sublist h (List.nil_sublist _)

/-- A wrapper that fires. -/
theorem wf_fire (h : m.WF) (i : Nat) : (m.fire i).WF := by
  have hs : (m.fire i).registrations.Sublist m.registrations := List.filter_sublist
  refine ⟨h.nodup.sublist (hs.filterMap _), fun r hr j hj ↦ ?_⟩
  have hne : i ≠ j := by
    rintro rfl
    simp [fire, hj] at hr
  rw [fire, List.getElem?_set_ne hne]
  exact h.unfired r (hs.subset hr) j hj

end WF

end Emitter

end VideoNode.Js
