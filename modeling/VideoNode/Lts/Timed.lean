import Mathlib.Data.NNRat.Defs
import VideoNode.Lts.Machine

/-!
# Machines with a clock

A machine whose actions have a time before which they are not enabled. Time passes by steps of
its own, and an action takes none; a run without its clock is a run of the machine.
-/

namespace VideoNode.Lts

universe u v

variable {S : Type u} {A : Type v}

/-- A state, and the time since the start. -/
structure Timed (S : Type u) where
  state : S
  now : ℚ

/-- Time passes, or an action is taken. -/
inductive TimedAct (A : Type v) where
  | tick (time : ℚ≥0)
  | act (a : A)

namespace Machine

/-- The machine with a clock; an action waits until it is due. -/
def timed (m : Machine S A) (due : A → ℚ) : Machine (Timed S) (TimedAct A) where
  init := ⟨m.init, 0⟩
  step s
    | .tick time => some { s with now := s.now + time }
    | .act a => if due a ≤ s.now then (m.step s.state a).map fun t ↦ ⟨t, s.now⟩ else none

variable {m : Machine S A} {due : A → ℚ} {s t : Timed S}

/-- An action is taken when it is due, and takes no time. -/
theorem timed_act_eq_some {a : A} : (m.timed due).step s (.act a) = some t ↔
    due a ≤ s.now ∧ m.step s.state a = some t.state ∧ t.now = s.now := by
  show (if due a ≤ s.now then _ else none) = some t ↔ _
  split
  · next hd =>
    rw [Option.map_eq_some_iff]
    constructor
    · rintro ⟨u, hu, rfl⟩
      exact ⟨hd, hu, rfl⟩
    · rintro ⟨-, hu, hn⟩
      exact ⟨t.state, hu, by rw [← hn]⟩
  · next hd => simp [hd]

/-- Time that passes leaves the state as it is. -/
theorem timed_tick_eq_some {time : ℚ≥0} : (m.timed due).step s (.tick time) = some t ↔
    t = { s with now := s.now + time } := by
  show some _ = some t ↔ _
  rw [Option.some.injEq, eq_comm]

/-- Without its clock, a step is at most one step of the machine. -/
theorem timed_refines (m : Machine S A) (due : A → ℚ) : Refines (m.timed due) m Timed.state where
  init := rfl
  step s a t _ _ ht := by
    cases a with
    | tick time =>
      rw [timed_tick_eq_some.mp ht]
      exact ⟨[], rfl⟩
    | act a => exact ⟨[a], by rw [exec_singleton]; exact (timed_act_eq_some.mp ht).2.1⟩

/-- What every step of the machine keeps is kept along a run with a clock. -/
theorem timed_invariant {p : S → Prop} (hp : ∀ s a t, p s → m.step s a = some t → p t)
    {as : List (TimedAct A)} (hs : p s.state) (hr : (m.timed due).exec s as = some t) :
    p t.state := by
  apply exec_invariant (p := fun s : Timed S ↦ p s.state) _ hs hr
  intro s a t hs ht
  cases a with
  | tick time =>
    rw [timed_tick_eq_some.mp ht]
    exact hs
  | act a => exact hp s.state a t.state hs (timed_act_eq_some.mp ht).2.1

end Machine

end VideoNode.Lts
