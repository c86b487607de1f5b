import Mathlib.Data.List.Infix
import VideoNode.Lts.Machine

/-!
# Lossy first-in first-out channels

What a bounded queue between two parties is for: items are posted at one end and delivered
at the other, in order, and an item that is not delivered is accounted for. A lossless
channel never sheds a waiting item while it is open. Shutting a channel counts whatever
was still waiting as lost, and nothing is delivered afterwards.
-/

namespace VideoNode.Lts

/-- Everything posted, everything delivered, what waits in between, and how much was shed. -/
structure Channel (F : Type) where
  posted : List F
  delivered : List F
  waiting : List F
  lost : Nat
  isOpen : Bool
  deriving DecidableEq, Repr

/-- What can happen to a channel; `lose i` sheds the waiting item at position `i`. -/
inductive ChannelAct (F : Type) where
  | post (x : F)
  | deliver
  | lose (i : Nat)
  | shut
  deriving DecidableEq, Repr

namespace Channel

variable {F : Type}

/-- An open channel nothing was posted on. -/
def empty : Channel F := ⟨[], [], [], 0, true⟩

/-- One action; posting on a shut channel is ignored. -/
def step (lossy : Bool) (c : Channel F) : ChannelAct F → Option (Channel F)
  | .post x =>
    if c.isOpen then some { c with posted := c.posted ++ [x], waiting := c.waiting ++ [x] }
    else some c
  | .deliver =>
    match c.waiting with
    | [] => none
    | x :: rest => some { c with delivered := c.delivered ++ [x], waiting := rest }
  | .lose i =>
    if lossy ∧ i < c.waiting.length then
      some { c with waiting := c.waiting.eraseIdx i, lost := c.lost + 1 }
    else none
  | .shut =>
    some { c with waiting := [], lost := c.lost + c.waiting.length, isOpen := false }

/-- The channel as a machine; a lossless one has no `lose` step. -/
def machine (F : Type) (lossy : Bool) : Machine (Channel F) (ChannelAct F) where
  init := empty
  step := step lossy

/-- Order and conservation. -/
structure Lawful (lossy : Bool) (c : Channel F) : Prop where
  order : (c.delivered ++ c.waiting).Sublist c.posted
  count : c.posted.length = c.delivered.length + c.waiting.length + c.lost
  pre : lossy = false → c.delivered <+: c.posted
  exact : lossy = false → c.isOpen = true → c.delivered ++ c.waiting = c.posted
  shut : c.isOpen = false → c.waiting = []

/-- The empty channel is lawful. -/
theorem lawful_empty (lossy : Bool) : Lawful lossy (empty : Channel F) := by
  constructor <;> simp [empty]

private theorem lawful_post {lossy : Bool} {c d : Channel F} {x : F} (h : Lawful lossy c)
    (hs : step lossy c (.post x) = some d) : Lawful lossy d := by
  simp only [step] at hs
  split at hs
  · next ho =>
    cases hs
    constructor
    · rw [← List.append_assoc]
      exact h.order.append (List.Sublist.refl _)
    · have hc := h.count
      simp only [List.length_append, List.length_singleton]
      omega
    · intro hl
      exact (h.pre hl).trans (List.prefix_append _ _)
    · intro hl _
      rw [← List.append_assoc, h.exact hl ho]
    · intro hf
      rw [ho] at hf
      cases hf
  · cases hs
    exact h

private theorem lawful_deliver {lossy : Bool} {c d : Channel F} (h : Lawful lossy c)
    (hs : step lossy c .deliver = some d) : Lawful lossy d := by
  simp only [step] at hs
  split at hs
  · cases hs
  · next x rest hw =>
    cases hs
    have ho : c.isOpen = true := by
      cases hf : c.isOpen with
      | true => rfl
      | false => simp [h.shut hf] at hw
    have he : (c.delivered ++ [x]) ++ rest = c.delivered ++ c.waiting := by
      rw [hw, List.append_assoc, List.singleton_append]
    constructor
    · rw [he]
      exact h.order
    · have hc := h.count
      rw [hw] at hc
      simp only [List.length_append, List.length_cons, List.length_nil] at hc ⊢
      omega
    · intro hl
      have hp : c.delivered ++ [x] <+: (c.delivered ++ [x]) ++ rest := List.prefix_append _ _
      rw [he, h.exact hl ho] at hp
      exact hp
    · intro hl _
      rw [he]
      exact h.exact hl ho
    · intro hf
      rw [ho] at hf
      cases hf

private theorem lawful_lose {lossy : Bool} {c d : Channel F} {i : Nat} (h : Lawful lossy c)
    (hs : step lossy c (.lose i) = some d) : Lawful lossy d := by
  simp only [step] at hs
  split at hs
  · next hi =>
    obtain ⟨hl, hi⟩ := hi
    cases hs
    constructor
    · exact ((List.Sublist.refl _).append (List.eraseIdx_sublist _ _)).trans h.order
    · have hc := h.count
      simp only [List.length_eraseIdx, if_pos hi]
      omega
    · intro hf
      rw [hl] at hf
      cases hf
    · intro hf
      rw [hl] at hf
      cases hf
    · intro hf
      have hw := h.shut hf
      simp [hw] at hi
  · cases hs

private theorem lawful_shut {lossy : Bool} {c d : Channel F} (h : Lawful lossy c)
    (hs : step lossy c .shut = some d) : Lawful lossy d := by
  cases hs
  constructor
  · rw [List.append_nil]
    exact (List.sublist_append_left _ _).trans h.order
  · have hc := h.count
    simp only [List.length_nil]
    omega
  · exact h.pre
  · intro _ hf
    cases hf
  · intro _
    rfl

/-- Every action keeps order and conservation. -/
theorem lawful_step {lossy : Bool} {c d : Channel F} {a : ChannelAct F} (h : Lawful lossy c)
    (hs : step lossy c a = some d) : Lawful lossy d := by
  cases a with
  | post x => exact lawful_post h hs
  | deliver => exact lawful_deliver h hs
  | lose i => exact lawful_lose h hs
  | shut => exact lawful_shut h hs

/-- Reachable channels are lawful. -/
theorem lawful_of_reachable {lossy : Bool} {c : Channel F} (h : (machine F lossy).Reachable c) :
    Lawful lossy c :=
  h.invariant (lawful_empty lossy) fun _ _ _ hs ht ↦ lawful_step hs ht

/-- Shedding `k` items at the position where a tail of the waiting list starts. -/
theorem exec_lose (c : Channel F) (held tail : List F) (k : Nat)
    (hw : c.waiting = held ++ tail) (hk : k ≤ tail.length) :
    (machine F true).exec c (List.replicate k (.lose held.length)) =
      some { c with waiting := held ++ tail.drop k, lost := c.lost + k } := by
  induction k generalizing c tail with
  | zero =>
    rw [List.replicate_zero, Machine.exec_nil, List.drop_zero, ← hw, Nat.add_zero]
  | succ k ih =>
    cases tail with
    | nil => simp at hk
    | cons x tail =>
      have he : (held ++ x :: tail).eraseIdx held.length = held ++ tail := by
        rw [List.eraseIdx_append_of_length_le (Nat.le_refl _), Nat.sub_self,
          List.eraseIdx_cons_zero]
      have hs : (machine F true).step c (.lose held.length) =
          some { c with waiting := held ++ tail, lost := c.lost + 1 } := by
        simp only [machine, step, hw, List.length_append, List.length_cons, he, true_and]
        rw [if_pos (by omega)]
      rw [List.replicate_succ, Machine.exec_cons, hs, Option.bind_some,
        ih _ tail rfl (by simpa using hk), List.drop_succ_cons]
      simp only [Option.some.injEq, Channel.mk.injEq, true_and, and_true]
      omega

/-- Once shut, a lawful channel delivers nothing more, whatever happens to it. -/
theorem exec_of_shut {lossy : Bool} {c d : Channel F} {as : List (ChannelAct F)}
    (hl : Lawful lossy c) (hc : c.isOpen = false)
    (hr : (machine F lossy).exec c as = some d) :
    d.isOpen = false ∧ d.delivered = c.delivered := by
  have hp : Lawful lossy d ∧ d.isOpen = false ∧ d.delivered = c.delivered := by
    refine Machine.exec_invariant
      (p := fun e : Channel F ↦ Lawful lossy e ∧ e.isOpen = false ∧ e.delivered = c.delivered)
      ?_ ⟨hl, hc, rfl⟩ hr
    rintro s a t ⟨hs, hf, hd⟩ ht
    refine ⟨lawful_step hs ht, ?_⟩
    simp only [machine] at ht
    cases a with
    | post x =>
      rw [step, hf] at ht
      cases ht
      exact ⟨hf, hd⟩
    | deliver =>
      rw [step, hs.shut hf] at ht
      cases ht
    | lose i =>
      simp [step, hs.shut hf] at ht
    | shut =>
      cases ht
      exact ⟨rfl, hd⟩
  exact hp.2

end Channel

end VideoNode.Lts
