import Mathlib.Data.List.Basic
import VideoNode.Lts.Machine

/-!
# Tallies of calls

A call fails, is refused, or is accepted with a stamp. A tally is what a history of calls amounts
to; counters that are kept call by call agree with the tally of the history.
-/

namespace VideoNode.Lts

universe u v w

/-- How a call ended. -/
inductive Outcome (T : Type u) where
  | failed
  | refused
  | accepted (stamp : T)
  deriving DecidableEq, Repr

namespace Outcome

variable {T : Type u}

/-- The stamp of a call that was accepted. -/
@[simp] def stamp? : Outcome T → Option T
  | .accepted stamp => some stamp
  | .failed | .refused => none

/-- The call was accepted. -/
@[simp] def isAccepted : Outcome T → Bool
  | .accepted _ => true
  | .failed | .refused => false

/-- The call was refused. -/
@[simp] def isRefused : Outcome T → Bool
  | .refused => true
  | .failed | .accepted _ => false

end Outcome

/-- The counters of a history. -/
@[ext] structure Tally (T : Type u) where
  accepted : Nat
  refused : Nat
  last : Option T
  regressions : Nat
  deriving DecidableEq, Repr

/-- How many of the stamps are not above the one immediately before. -/
def countRegressions {T : Type u} [LE T] [DecidableLE T] (stamps : List T) : Nat :=
  (stamps.zip stamps.tail).countP fun p ↦ decide (p.2 ≤ p.1)

namespace Tally

variable {T : Type u} [LE T] [DecidableLE T] {S : Type v} {A : Type w}

/-- What a history amounts to. -/
def ofHistory (h : List (Outcome T)) : Tally T where
  accepted := h.countP Outcome.isAccepted
  refused := h.countP Outcome.isRefused
  last := (h.filterMap Outcome.stamp?).getLast?
  regressions := countRegressions (h.filterMap Outcome.stamp?)

/-- One more call, with only the last stamp to compare with. -/
def add (t : Tally T) : Outcome T → Tally T
  | .failed => t
  | .refused => { t with refused := t.refused + 1 }
  | .accepted stamp =>
    { t with
      accepted := t.accepted + 1
      last := some stamp
      regressions := t.regressions +
        match t.last with
        | some last => if stamp ≤ last then 1 else 0
        | none => 0 }

/-- One more stamp regresses or not against the last one. -/
theorem countRegressions_concat (stamps : List T) (stamp : T) :
    countRegressions (stamps ++ [stamp]) = countRegressions stamps +
      match stamps.getLast? with
      | some last => if stamp ≤ last then 1 else 0
      | none => 0 := by
  induction stamps with
  | nil => rfl
  | cons a stamps ih =>
    cases stamps with
    | nil =>
      by_cases h : stamp ≤ a <;> simp [countRegressions, h]
    | cons b stamps =>
      have hcons : ∀ l : List T, countRegressions (a :: b :: l) =
          countRegressions (b :: l) + if b ≤ a then 1 else 0 := by
        intro l
        simp [countRegressions, List.countP_cons]
      rw [List.cons_append, List.cons_append, hcons, ← List.cons_append, ih, hcons,
        List.getLast?_cons_cons]
      omega

/-- The tally of a history with one more call. -/
theorem ofHistory_concat (h : List (Outcome T)) (o : Outcome T) :
    ofHistory (h ++ [o]) = (ofHistory h).add o := by
  cases o with
  | failed => ext <;> simp [ofHistory, add, List.filterMap_cons]
  | refused => ext <;> simp [ofHistory, add, List.filterMap_cons]
  | accepted stamp =>
    have hs : (h ++ [Outcome.accepted stamp]).filterMap Outcome.stamp? =
        h.filterMap Outcome.stamp? ++ [stamp] := by
      rw [List.filterMap_append]
      rfl
    ext
    · simp [ofHistory, add]
    · simp [ofHistory, add]
    · simp [ofHistory, add]
    · simp only [ofHistory, add, hs]
      exact countRegressions_concat _ stamp

/-- The tally of a history is kept call by call. -/
theorem foldl_add (h os : List (Outcome T)) :
    os.foldl add (ofHistory h) = ofHistory (h ++ os) := by
  induction os generalizing h with
  | nil => rw [List.foldl_nil, List.append_nil]
  | cons o os ih =>
    rw [List.foldl_cons, ← ofHistory_concat, ih, List.append_assoc, List.singleton_append]

/-- Nothing was accepted exactly if there is no last stamp. -/
theorem last_eq_none_iff (h : List (Outcome T)) :
    (ofHistory h).last = none ↔ ∀ o ∈ h, o.isAccepted = false := by
  rw [ofHistory, List.getLast?_eq_none_iff, List.filterMap_eq_nil_iff]
  apply forall₂_congr
  intro o _
  cases o <;> simp

/-- Counters that every step adds its own calls to are the tally of the calls of the run. -/
theorem of_exec {m : Machine S A} {tally : S → Tally T} {f : S → A → List (Outcome T)}
    (hp : ∀ s a t, m.step s a = some t → tally t = (f s a).foldl add (tally s))
    {s t : S} {as : List A} {h : List (Outcome T)} (hs : tally s = ofHistory h)
    (hr : m.exec s as = some t) : tally t = ofHistory (h ++ m.collect f s as) := by
  induction as generalizing s h with
  | nil =>
    cases hr
    rw [hs, Machine.collect, List.append_nil]
  | cons a as ih =>
    obtain ⟨r, ha, ht⟩ := Machine.exec_cons_some.mp hr
    have hr : tally r = ofHistory (h ++ f s a) := by rw [hp s a r ha, hs, foldl_add]
    rw [ih hr ht, Machine.collect, ha, List.append_assoc]
    rfl

end Tally

end VideoNode.Lts
