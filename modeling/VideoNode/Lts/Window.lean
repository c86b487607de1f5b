import Mathlib.Data.List.DropRight
import VideoNode.Lts.Machine

/-!
# Sliding windows

What a bounded buffer that sheds its oldest item is for: a reader that has kept up to `pos` finds
everything seen since, but never more than the `size` items seen last.
-/

namespace VideoNode.Lts

/-- Everything seen, where the window starts, and what was taken from its start. -/
structure Window (F : Type) where
  seen : List F
  pos : Nat
  taken : List F
  isOpen : Bool
  deriving DecidableEq, Repr

/-- What can happen to a window. -/
inductive WindowAct (F : Type) where
  | see (x : F)
  | take
  | shut
  deriving DecidableEq, Repr

namespace Window

variable {F : Type}

/-- What the reader finds. -/
def contents (w : Window F) : List F := w.seen.drop w.pos

/-- One action; a window that was shut sees nothing more. -/
def step (size : Nat) (w : Window F) : WindowAct F → Option (Window F)
  | .see x =>
    if w.isOpen then
      some { w with seen := w.seen ++ [x], pos := max w.pos (w.seen.length + 1 - size) }
    else some w
  | .take =>
    match w.contents with
    | [] => none
    | x :: _ => some { w with pos := w.pos + 1, taken := w.taken ++ [x] }
  | .shut => some { w with pos := w.seen.length, isOpen := false }

/-- A window on nothing. -/
def machine (F : Type) (size : Nat) : Machine (Window F) (WindowAct F) where
  init := ⟨[], 0, [], true⟩
  step := step size

/-- While a window is open it is within what was seen and its size, and what was taken and what
waits end with the last `size` items. -/
structure Sliding (size : Nat) (w : Window F) : Prop where
  within : w.pos ≤ w.seen.length
  bound : w.isOpen = true → w.seen.length ≤ w.pos + size
  fresh : w.isOpen = true → w.seen.rtake size <:+ w.taken ++ w.contents

-- Taking from the start of a window only moves the border between taken and waiting.
private theorem taken_contents {w : Window F} {x : F} {rest : List F}
    (hc : w.contents = x :: rest) : w.seen.drop (w.pos + 1) = rest := by
  rw [contents] at hc
  rw [← List.drop_drop, hc]
  rfl

private theorem sliding_see {size : Nat} (hn : 0 < size) {w : Window F} (h : w.Sliding size)
    (ho : w.isOpen = true) (x : F) : Sliding size
      { w with seen := w.seen ++ [x], pos := max w.pos (w.seen.length + 1 - size) } := by
  have hw := h.within
  have hb := h.bound ho
  refine ⟨?_, fun _ ↦ ?_, fun _ ↦ ?_⟩
  · simp only [List.length_append, List.length_singleton]
    omega
  · simp only [List.length_append, List.length_singleton]
    omega
  · simp only [contents, List.rtake, List.length_append, List.length_singleton]
    rcases Nat.le_total (w.seen.length + 1 - size) w.pos with hp | hp
    · have hf := h.fresh ho
      rw [Nat.max_eq_left hp]
      rw [contents, List.rtake] at hf
      rw [List.drop_append_of_le_length (by omega), List.drop_append_of_le_length hw,
        ← List.append_assoc]
      have hs : w.seen.drop (w.seen.length + 1 - size) <:+ w.seen.drop (w.seen.length - size) := by
        have hd : w.seen.length + 1 - size =
            w.seen.length - size + (w.seen.length + 1 - size - (w.seen.length - size)) := by omega
        rw [hd, ← List.drop_drop]
        exact List.drop_suffix _ _
      obtain ⟨l, hl⟩ := hs.trans hf
      exact ⟨l, by rw [← hl, List.append_assoc]⟩
    · rw [Nat.max_eq_right hp]
      exact List.suffix_append _ _

private theorem sliding_take {size : Nat} {w : Window F} (h : w.Sliding size) {x : F}
    {rest : List F} (hc : w.contents = x :: rest) :
    Sliding size { w with pos := w.pos + 1, taken := w.taken ++ [x] } := by
  have hd := taken_contents hc
  have hlt : w.pos < w.seen.length := by
    rw [contents] at hc
    have hl := congrArg List.length hc
    rw [List.length_drop, List.length_cons] at hl
    omega
  refine ⟨hlt, fun ho ↦ ?_, fun ho ↦ ?_⟩
  · have hb := h.bound ho
    simp only
    omega
  · have hf := h.fresh ho
    rw [hc] at hf
    simpa [contents, hd] using hf

/-- Every action keeps a window sliding. -/
theorem sliding_step {size : Nat} (hn : 0 < size) {w w' : Window F} {a : WindowAct F}
    (h : w.Sliding size) (hs : w.step size a = some w') : w'.Sliding size := by
  cases a with
  | see x =>
    simp only [step] at hs
    split at hs
    · next ho =>
      cases hs
      exact sliding_see hn h ho x
    · cases hs
      exact h
  | take =>
    simp only [step] at hs
    split at hs
    · cases hs
    · next x rest hc =>
      cases hs
      exact sliding_take h hc
  | shut =>
    cases hs
    refine ⟨Nat.le_refl _, ?_, ?_⟩ <;> exact fun ho ↦ absurd ho Bool.false_ne_true

/-- A window slides in every run. -/
theorem sliding_of_reachable {size : Nat} (hn : 0 < size) {w : Window F}
    (h : (machine F size).Reachable w) : w.Sliding size := by
  refine h.invariant ⟨Nat.le_refl _, fun _ ↦ Nat.zero_le _, fun _ ↦ ?_⟩
    fun _ _ _ hw hs ↦ sliding_step hn hw hs
  simp [machine]

end Window

end VideoNode.Lts
