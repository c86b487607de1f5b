import Mathlib.Data.List.Basic
import Mathlib.Logic.Function.Basic

/-!
# Alternating calls

A log of calls that open (`true`) or close (`false`) something under a key. In a log that
alternates, what is opened was closed and what is closed was open.
-/

namespace VideoNode.Lts

universe u v

variable {K : Type u} {L : Type v} [DecidableEq K]

/-- What is open after the calls. -/
def opened (s : K → Bool) : List (K × Bool) → K → Bool
  | [] => s
  | c :: cs => opened (Function.update s c.1 c.2) cs

/-- Every call changes what it is about. -/
def Alternates (s : K → Bool) : List (K × Bool) → Prop
  | [] => True
  | c :: cs => s c.1 ≠ c.2 ∧ Alternates (Function.update s c.1 c.2) cs

/-- Logs compose. -/
theorem opened_append (s : K → Bool) (cs ds : List (K × Bool)) :
    opened s (cs ++ ds) = opened (opened s cs) ds := by
  induction cs generalizing s with
  | nil => rfl
  | cons c cs ih => exact ih _

/-- A log alternates exactly if its first part does, and the rest does after it. -/
theorem alternates_append {s : K → Bool} {cs ds : List (K × Bool)} :
    Alternates s (cs ++ ds) ↔ Alternates s cs ∧ Alternates (opened s cs) ds := by
  induction cs generalizing s with
  | nil => simp [Alternates, opened]
  | cons c cs ih => simp only [List.cons_append, Alternates, opened, ih, and_assoc]

/-- In an alternating log a key is open as often as it was opened more than closed. -/
theorem Alternates.count [BEq K] [LawfulBEq K] {s : K → Bool} {cs : List (K × Bool)}
    (h : Alternates s cs) (k : K) :
    cs.count (k, true) + (s k).toNat = cs.count (k, false) + (opened s cs k).toNat := by
  induction cs generalizing s with
  | nil => rfl
  | cons c cs ih =>
    obtain ⟨j, v⟩ := c
    obtain ⟨hv, hcs⟩ := h
    have ih := ih hcs
    simp only [List.count_cons, opened]
    by_cases hj : j = k
    · subst hj
      have hs : s j = !v := by simpa [Bool.eq_not] using hv
      simp only [Function.update_self] at ih
      rw [hs]
      cases v <;> simp at ih ⊢ <;> omega
    · have hk : k ≠ j := fun he ↦ hj he.symm
      simp only [Function.update_of_ne hk] at ih
      simp [hj, ih]

/-- Whatever an alternating log closes was opened once more than closed before. -/
theorem Alternates.count_before [BEq K] [LawfulBEq K] {cs ds : List (K × Bool)} {k : K}
    (h : Alternates (fun _ ↦ false) (cs ++ (k, false) :: ds)) :
    cs.count (k, true) = cs.count (k, false) + 1 := by
  obtain ⟨hcs, hk, -⟩ := alternates_append.mp h
  have hcount := hcs.count k
  have hopen : opened (fun _ ↦ false) cs k = true := by simpa using hk
  rw [hopen] at hcount
  simpa using hcount

section

variable {f : L → K} {cs : List (L × Bool)}

private theorem update_comp [DecidableEq L] (hf : Function.Injective f) (s : K → Bool) (l : L)
    (v : Bool) :
    (fun i ↦ Function.update s (f l) v (f i)) = Function.update (fun i ↦ s (f i)) l v := by
  funext i
  by_cases hi : i = l
  · subst hi
    simp
  · rw [Function.update_of_ne hi, Function.update_of_ne fun he ↦ hi (hf he)]

/-- A log about a part of the keys changes that part as it does on its own. -/
theorem opened_map [DecidableEq L] (hf : Function.Injective f) (s : K → Bool) (l : L) :
    opened s (cs.map fun c ↦ (f c.1, c.2)) (f l) = opened (fun i ↦ s (f i)) cs l := by
  induction cs generalizing s with
  | nil => rfl
  | cons c cs ih =>
    simp only [List.map_cons, opened]
    rw [ih, update_comp hf]

/-- A log about a part of the keys changes no other key. -/
theorem opened_map_of_ne {k : K} (hk : ∀ l, f l ≠ k) (s : K → Bool) :
    opened s (cs.map fun c ↦ (f c.1, c.2)) k = s k := by
  induction cs generalizing s with
  | nil => rfl
  | cons c cs ih =>
    simp only [List.map_cons, opened]
    rw [ih, Function.update_of_ne (Ne.symm (hk c.1))]

/-- A log about a part of the keys alternates as it does on its own. -/
theorem alternates_map [DecidableEq L] (hf : Function.Injective f) {s : K → Bool} :
    Alternates s (cs.map fun c ↦ (f c.1, c.2)) ↔ Alternates (fun i ↦ s (f i)) cs := by
  induction cs generalizing s with
  | nil => exact Iff.rfl
  | cons c cs ih =>
    simp only [List.map_cons, Alternates]
    rw [ih, update_comp hf]

end

end VideoNode.Lts
