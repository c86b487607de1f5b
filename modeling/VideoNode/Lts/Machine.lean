import Mathlib.Data.List.Basic

/-!
# Labelled machines

A machine is an initial state and a partial step function: `step s a = none` says that
the action is not enabled in the state, and every choice an environment makes is carried
by the action itself. Interleavings are then lists of actions, and a property of every
interleaving is a property of every list that executes.
-/

namespace VideoNode.Lts

universe u v w x

/-- An initial state and a partial, deterministic step for each labelled action. -/
structure Machine (S : Type u) (A : Type v) where
  init : S
  step : S → A → Option S

namespace Machine

variable {S : Type u} {A : Type v} {T : Type w} {B : Type x}

/-- Perform the actions from left to right; `none` as soon as one is not enabled. -/
def exec (m : Machine S A) (s : S) : List A → Option S
  | [] => some s
  | a :: as => (m.step s a).bind fun t ↦ m.exec t as

/-- States some interleaving reaches from the initial one. -/
def Reachable (m : Machine S A) (s : S) : Prop :=
  ∃ as, m.exec m.init as = some s

/-- Every action of the run is taken in a state that meets the condition with it. -/
def Along (m : Machine S A) (p : S → A → Prop) (s : S) : List A → Prop
  | [] => True
  | a :: as => p s a ∧ ∀ t, m.step s a = some t → m.Along p t as

/-- A condition that can be checked can be checked along a run. -/
instance decidableAlong (m : Machine S A) (p : S → A → Prop) [∀ s a, Decidable (p s a)] :
    ∀ (s : S) (as : List A), Decidable (m.Along p s as)
  | _, [] => isTrue True.intro
  | s, a :: as => match h : m.step s a with
    | none => decidable_of_iff (p s a) (by simp [Along, h])
    | some t =>
      have := decidableAlong m p t as
      decidable_of_iff (p s a ∧ m.Along p t as) (by simp [Along, h])

/-- Every state the run visits, its first one included, meets the condition. -/
def Always (m : Machine S A) (p : S → Prop) (s : S) : List A → Prop
  | [] => p s
  | a :: as => p s ∧ ∀ t, m.step s a = some t → m.Always p t as

/-- What the steps of a run yield, in the order they are taken. -/
def collect {O : Type x} (m : Machine S A) (f : S → A → List O) (s : S) : List A → List O
  | [] => []
  | a :: as => f s a ++ ((m.step s a).map fun t ↦ m.collect f t as).getD []

/-- The empty run stays where it is. -/
@[simp] theorem exec_nil (m : Machine S A) (s : S) : m.exec s [] = some s := rfl

/-- A run is its first step followed by the rest. -/
theorem exec_cons (m : Machine S A) (s : S) (a : A) (as : List A) :
    m.exec s (a :: as) = (m.step s a).bind fun t ↦ m.exec t as := rfl

/-- Inversion of a nonempty run into the step it starts with. -/
theorem exec_cons_some {m : Machine S A} {s t : S} {a : A} {as : List A} :
    m.exec s (a :: as) = some t ↔ ∃ r, m.step s a = some r ∧ m.exec r as = some t := by
  rw [exec_cons, Option.bind_eq_some_iff]

/-- Runs compose. -/
theorem exec_append (m : Machine S A) (s : S) (as bs : List A) :
    m.exec s (as ++ bs) = (m.exec s as).bind fun t ↦ m.exec t bs := by
  induction as generalizing s with
  | nil => rfl
  | cons a as ih =>
    rw [List.cons_append, exec_cons, exec_cons, Option.bind_assoc]
    congr 1
    funext t
    exact ih t

/-- A run of one action is that step. -/
theorem exec_singleton (m : Machine S A) (s : S) (a : A) : m.exec s [a] = m.step s a := by
  rw [exec_cons]
  cases m.step s a <;> rfl

/-- Where every action is always enabled, every list of them is a run. -/
theorem exec_total {m : Machine S A} (hm : ∀ s a, ∃ t, m.step s a = some t) (s : S) (as : List A) :
    ∃ t, m.exec s as = some t := by
  induction as generalizing s with
  | nil => exact ⟨s, rfl⟩
  | cons a as ih =>
    obtain ⟨r, ha⟩ := hm s a
    obtain ⟨t, ht⟩ := ih r
    exact ⟨t, exec_cons_some.mpr ⟨r, ha, ht⟩⟩

/-- The initial state is reachable. -/
theorem reachable_init (m : Machine S A) : m.Reachable m.init := ⟨[], rfl⟩

/-- What a reachable state runs to is reachable. -/
theorem Reachable.exec {m : Machine S A} {s t : S} {as : List A} (h : m.Reachable s)
    (hr : m.exec s as = some t) : m.Reachable t := by
  obtain ⟨bs, hb⟩ := h
  exact ⟨bs ++ as, by rw [exec_append, hb]; exact hr⟩

/-- One step from a reachable state is reachable. -/
theorem Reachable.step {m : Machine S A} {s t : S} {a : A} (h : m.Reachable s)
    (hs : m.step s a = some t) : m.Reachable t := by
  have hr : m.exec s [a] = some t := by rw [exec_singleton, hs]
  exact h.exec hr

/-- A property every step keeps holds at the end of a run it holds at the start of. -/
theorem exec_invariant {m : Machine S A} {p : S → Prop}
    (hp : ∀ s a t, p s → m.step s a = some t → p t) {s t : S} {as : List A}
    (hs : p s) (hr : m.exec s as = some t) : p t := by
  induction as generalizing s with
  | nil => cases hr; exact hs
  | cons a as ih =>
    obtain ⟨r, hr, ht⟩ := exec_cons_some.mp hr
    exact ih (hp s a r hs hr) ht

/-- The invariant rule: true at the start and kept by each step, so true when reachable. -/
theorem Reachable.invariant {m : Machine S A} {p : S → Prop} {s : S} (h : m.Reachable s)
    (hi : p m.init) (hp : ∀ s a t, p s → m.step s a = some t → p t) : p s := by
  obtain ⟨as, has⟩ := h
  exact exec_invariant hp hi has

/-- The invariant rule for a step that only needs to keep the property where it is taken
from a reachable state. -/
theorem Reachable.invariant_of_reachable {m : Machine S A} {p : S → Prop} {s : S}
    (h : m.Reachable s) (hi : p m.init)
    (hp : ∀ s a t, m.Reachable s → p s → m.step s a = some t → p t) : p s := by
  have hb : m.Reachable s ∧ p s := by
    apply h.invariant (p := fun s ↦ m.Reachable s ∧ p s) ⟨m.reachable_init, hi⟩
    rintro s a t ⟨hr, hs⟩ ht
    exact ⟨hr.step ht, hp s a t hr hs ht⟩
  exact hb.2

/-- A property that a step keeps when the condition holds survives a run along it. -/
theorem exec_invariant_along {m : Machine S A} {p : S → Prop} {c : S → A → Prop}
    (hp : ∀ s a t, p s → c s a → m.step s a = some t → p t) {s t : S} {as : List A}
    (hs : p s) (hc : m.Along c s as) (hr : m.exec s as = some t) : p t := by
  induction as generalizing s with
  | nil => cases hr; exact hs
  | cons a as ih =>
    obtain ⟨r, hr, ht⟩ := exec_cons_some.mp hr
    exact ih (hp s a r hs hc.1 hr) (hc.2 r hr) ht

/-- A log that each step extends by what it yields has grown, after a run, by what the run's steps
yield. -/
theorem log_eq_collect {O : Type x} {m : Machine S A} {i : S → Prop} {log : S → List O}
    {f : S → A → List O} (hp : ∀ s a t, i s → m.step s a = some t → i t ∧ log t = log s ++ f s a)
    {s t : S} {as : List A} (hs : i s) (hr : m.exec s as = some t) :
    log t = log s ++ m.collect f s as := by
  induction as generalizing s with
  | nil =>
    cases hr
    exact (List.append_nil _).symm
  | cons a as ih =>
    obtain ⟨r, ha, ht⟩ := exec_cons_some.mp hr
    obtain ⟨hi, hl⟩ := hp s a r hs ha
    rw [ih hi ht, hl, collect, ha, List.append_assoc]
    rfl

/-- A queue that each step takes from at the front and adds to at the back: after a run, what was in
it and what was added is what was taken and what is in it. -/
theorem flow_eq_collect {O : Type x} {m : Machine S A} {i : S → Prop} {queue : S → List O}
    {added taken : S → A → List O}
    (hp : ∀ s a t, i s → m.step s a = some t → i t ∧ queue s ++ added s a = taken s a ++ queue t)
    {s t : S} {as : List A} (hs : i s) (hr : m.exec s as = some t) :
    queue s ++ m.collect added s as = m.collect taken s as ++ queue t := by
  induction as generalizing s with
  | nil =>
    cases hr
    exact List.append_nil _
  | cons a as ih =>
    obtain ⟨r, ha, ht⟩ := exec_cons_some.mp hr
    obtain ⟨hi, hq⟩ := hp s a r hs ha
    have ih := ih hi ht
    simp only [collect, ha, Option.map_some, Option.getD_some]
    rw [← List.append_assoc, hq, List.append_assoc, ih, List.append_assoc]

/-- A condition every step meets where an invariant holds is met along a run. -/
theorem along_of_invariant {m : Machine S A} {i : S → Prop} {p : S → A → Prop}
    (hi : ∀ s a t, i s → m.step s a = some t → i t) (hp : ∀ s a, i s → p s a) {s : S} (hs : i s)
    (as : List A) : m.Along p s as := by
  induction as generalizing s with
  | nil => exact True.intro
  | cons a as ih => exact ⟨hp s a hs, fun t ht ↦ ih (hi s a t hs ht)⟩

/-- Conditions that agree wherever the invariant holds agree along a run. -/
theorem along_iff {m : Machine S A} {i : S → Prop} {p q : S → A → Prop} {as : List A}
    (hi : ∀ s a t, a ∈ as → i s → m.step s a = some t → i t)
    (hpq : ∀ s a, a ∈ as → i s → (p s a ↔ q s a)) {s : S} (hs : i s) :
    m.Along p s as ↔ m.Along q s as := by
  induction as generalizing s with
  | nil => exact Iff.rfl
  | cons a as ih =>
    have ih := @ih (fun s b t hb ↦ hi s b t (List.mem_cons_of_mem a hb))
      (fun s b hb ↦ hpq s b (List.mem_cons_of_mem a hb))
    refine and_congr (hpq s a (List.mem_cons_self ..) hs) (forall₂_congr fun t ht ↦ ih ?_)
    exact hi s a t (List.mem_cons_self ..) hs ht

/-- A condition along a run implies what it implies wherever an invariant of its steps holds. -/
theorem Along.mono {m : Machine S A} {i : S → Prop} {p q : S → A → Prop} {as : List A}
    (hi : ∀ s a t, i s → p s a → m.step s a = some t → i t) (hpq : ∀ s a, i s → p s a → q s a)
    {s : S} (hs : i s) (h : m.Along p s as) : m.Along q s as := by
  induction as generalizing s with
  | nil => exact True.intro
  | cons a as ih => exact ⟨hpq s a hs h.1, fun t ht ↦ ih (hi s a t hs h.1 ht) (h.2 t ht)⟩

/-- A condition along a run holds along what follows a part of it. -/
theorem Along.append {m : Machine S A} {p : S → A → Prop} {s t : S} {as bs : List A}
    (h : m.Along p s (as ++ bs)) (hr : m.exec s as = some t) : m.Along p t bs := by
  induction as generalizing s with
  | nil =>
    cases hr
    exact h
  | cons a as ih =>
    obtain ⟨r, ha, ht⟩ := exec_cons_some.mp hr
    exact ih (h.2 r ha) ht

/-- A condition along a run holds along its beginning. -/
theorem Along.left {m : Machine S A} {p : S → A → Prop} {s : S} {as bs : List A}
    (h : m.Along p s (as ++ bs)) : m.Along p s as := by
  induction as generalizing s with
  | nil => exact True.intro
  | cons a as ih => exact ⟨h.1, fun t ht ↦ ih (h.2 t ht)⟩

/-- The state a run starts in is one it visits. -/
theorem Always.head {m : Machine S A} {p : S → Prop} {s : S} {as : List A}
    (h : m.Always p s as) : p s := by
  cases as with
  | nil => exact h
  | cons a as => exact h.1

/-- The state a run ends in is one it visits. -/
theorem Always.last {m : Machine S A} {p : S → Prop} {s t : S} {as : List A}
    (h : m.Always p s as) (hr : m.exec s as = some t) : p t := by
  induction as generalizing s with
  | nil =>
    cases hr
    exact h
  | cons a as ih =>
    obtain ⟨r, ha, ht⟩ := exec_cons_some.mp hr
    exact ih (h.2 r ha) ht

/-- The two run conditions agree where each step meets its condition exactly if it leads
from a good state to a good one. -/
theorem always_iff_along {m : Machine S A} {i : S → Prop} {p : S → Prop} {c : S → A → Prop}
    (hi : ∀ s a t, i s → m.step s a = some t → i t)
    (hc : ∀ s a t, i s → p s → m.step s a = some t → (p t ↔ c s a))
    (hn : ∀ s a, i s → m.step s a = none → c s a) {s : S} (hs : i s) (hp : p s)
    (as : List A) : m.Always p s as ↔ m.Along c s as := by
  induction as generalizing s with
  | nil => exact ⟨fun _ ↦ True.intro, fun _ ↦ hp⟩
  | cons a as ih =>
    cases ht : m.step s a with
    | none =>
      simp only [Always, Along, ht, reduceCtorEq, false_implies, implies_true, and_true]
      exact ⟨fun _ ↦ hn s a hs ht, fun _ ↦ hp⟩
    | some t =>
      simp only [Always, Along, ht, Option.some.injEq, forall_eq']
      constructor
      · rintro ⟨-, hw⟩
        have hq := hw.head
        exact ⟨(hc s a t hs hp ht).mp hq, (ih (hi s a t hs ht) hq).mp hw⟩
      · rintro ⟨hq, hw⟩
        have hq := (hc s a t hs hp ht).mpr hq
        exact ⟨hp, (ih (hi s a t hs ht) hq).mpr hw⟩

/-- A map of states under which each step of one machine is a run of the other. -/
structure Refines (m : Machine S A) (n : Machine T B) (abs : S → T) : Prop where
  init : abs m.init = n.init
  step : ∀ s a t, m.Reachable s → n.Reachable (abs s) → m.step s a = some t →
    ∃ bs, n.exec (abs s) bs = some (abs t)

/-- Refinement carries reachability over, and with it every invariant of the target. -/
theorem Refines.reachable {m : Machine S A} {n : Machine T B} {abs : S → T}
    (h : Refines m n abs) {s : S} (hs : m.Reachable s) : n.Reachable (abs s) := by
  refine hs.invariant_of_reachable (p := fun s ↦ n.Reachable (abs s)) ?_ ?_
  · rw [h.init]
    exact n.reachable_init
  · intro s a t hr hp ht
    obtain ⟨bs, hb⟩ := h.step s a t hr hp ht
    exact hp.exec hb

/-- Refinement carries runs over. -/
theorem Refines.exec {m : Machine S A} {n : Machine T B} {abs : S → T} (h : Refines m n abs)
    {s t : S} {as : List A} (hs : m.Reachable s) (hr : m.exec s as = some t) :
    ∃ bs, n.exec (abs s) bs = some (abs t) := by
  induction as generalizing s with
  | nil =>
    cases hr
    exact ⟨[], rfl⟩
  | cons a as ih =>
    obtain ⟨r, hr, ht⟩ := exec_cons_some.mp hr
    obtain ⟨bs, hb⟩ := h.step s a r hs (h.reachable hs) hr
    obtain ⟨cs, hc⟩ := ih (hs.step hr) ht
    exact ⟨bs ++ cs, by rw [exec_append, hb]; exact hc⟩

section

variable {m : Machine S A} {n : Machine T B} {abs : S → T} {f : S → A → List B}

/-- Where every step of one machine is the run of the other that the step yields, so is every
run. -/
theorem exec_collect
    (h : ∀ s a t, m.step s a = some t → n.exec (abs s) (f s a) = some (abs t)) {s t : S}
    {as : List A} (hr : m.exec s as = some t) :
    n.exec (abs s) (m.collect f s as) = some (abs t) := by
  induction as generalizing s with
  | nil =>
    cases hr
    rfl
  | cons a as ih =>
    obtain ⟨r, ha, ht⟩ := exec_cons_some.mp hr
    simp only [collect, ha, Option.map_some, Option.getD_some]
    rw [exec_append, h s a r ha]
    exact ih ht

/-- A condition along such a run is one along what each step yields. -/
theorem Along.of_collect
    (h : ∀ s a t, m.step s a = some t → n.exec (abs s) (f s a) = some (abs t))
    {p : T → B → Prop} {s : S} {as : List A} (hc : n.Along p (abs s) (m.collect f s as)) :
    m.Along (fun s a ↦ n.Along p (abs s) (f s a)) s as := by
  induction as generalizing s with
  | nil => exact True.intro
  | cons a as ih =>
    rw [collect] at hc
    refine ⟨hc.left, fun t ht ↦ ih ?_⟩
    rw [ht] at hc
    exact hc.append (h s a t ht)

end

end Machine

end VideoNode.Lts
