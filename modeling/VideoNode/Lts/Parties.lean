import Mathlib.Data.List.Basic

/-!
# Numbered parties

The state of a system of like parties is a list, one state per party, and a step of one party
replaces its state. Parties are never renumbered.
-/

namespace VideoNode.Lts.Parties

universe u

variable {S : Type u} {l : List S} {i j : Nat} {a b c : S}

/-- Who is at a number after party `i` moved. -/
theorem getElem?_set (h : l[i]? = some a) (hc : (l.set i b)[j]? = some c) :
    (j = i ∧ c = b) ∨ (j ≠ i ∧ l[j]? = some c) := by
  have hi := (List.getElem?_eq_some_iff.mp h).1
  by_cases hij : i = j
  · subst hij
    rw [List.getElem?_set_self hi] at hc
    exact .inl ⟨rfl, by cases hc; rfl⟩
  · rw [List.getElem?_set_ne hij] at hc
    exact .inr ⟨Ne.symm hij, hc⟩

/-- The party that moved is in its new state. -/
theorem getElem?_set_self (h : l[i]? = some a) : (l.set i b)[i]? = some b :=
  List.getElem?_set_self (List.getElem?_eq_some_iff.mp h).1

/-- Where everybody is after party `i` moved. -/
theorem getElem?_after_set (h : l[i]? = some a) (hc : l[j]? = some c) :
    (j = i ∧ c = a ∧ ∀ b, (l.set i b)[j]? = some b) ∨
      (j ≠ i ∧ ∀ b, (l.set i b)[j]? = some c) := by
  by_cases hij : j = i
  · subst hij
    exact .inl ⟨rfl, by cases h.symm.trans hc; rfl, fun _ ↦ getElem?_set_self h⟩
  · exact .inr ⟨hij, fun _ ↦ by rw [List.getElem?_set_ne (Ne.symm hij)]; exact hc⟩

/-- Nobody joins when party `i` moves. -/
theorem getElem?_set_eq_none (hn : l[j]? = none) : (l.set i b)[j]? = none := by
  rw [List.getElem?_eq_none_iff] at hn ⊢
  simpa using hn

/-- A party that is there moves to what its update says. -/
theorem modify_eq_set_of (h : l[i]? = some a) (f : S → S) : l.modify i f = l.set i (f a) := by
  rw [List.modify_eq_set_getElem?, h]
  rfl

/-- Who is at a number after an update of party `i`. -/
theorem getElem?_modify_of (h : l[j]? = some a) (f : S → S) :
    (l.modify i f)[j]? = some (if i = j then f a else a) := by
  rw [List.getElem?_modify, h]
  rfl

/-- Where who is at a number after an update of party `i` comes from. -/
theorem of_getElem?_modify {f : S → S} (h : (l.modify i f)[j]? = some c) :
    ∃ a, l[j]? = some a ∧ c = if i = j then f a else a := by
  rw [List.getElem?_modify] at h
  obtain ⟨a, ha, hc⟩ := Option.map_eq_some_iff.mp h
  exact ⟨a, ha, hc.symm⟩

/-- Who is at a number after some parties were updated, each of them once. -/
theorem getElem?_foldl_modify {is : List Nat} (hn : is.Nodup) (f : S → S) (l : List S) (j : Nat) :
    (is.foldl (fun l i ↦ l.modify i f) l)[j]? = if j ∈ is then l[j]?.map f else l[j]? := by
  induction is generalizing l with
  | nil => simp
  | cons i is ih =>
    obtain ⟨hi, hn⟩ := List.nodup_cons.mp hn
    rw [List.foldl_cons, ih hn, List.getElem?_modify]
    by_cases hj : i = j
    · subst hj
      simp [hi]
    · have hj' : j ≠ i := fun he ↦ hj he.symm
      simp [hj, hj']

/-- After party `i` moved, everybody is it or was there before. -/
theorem mem_of_mem_set (hc : c ∈ l.set i b) : c = b ∨ c ∈ l :=
  (List.mem_or_eq_of_mem_set hc).symm

/-- Everybody but party `i` is still there after it moved. -/
theorem eq_or_mem_set (h : l[i]? = some a) (hc : c ∈ l) : c = a ∨ c ∈ l.set i b := by
  obtain ⟨j, hj⟩ := List.mem_iff_getElem?.mp hc
  by_cases hij : i = j
  · subst hij
    rw [h] at hj
    exact .inl (by cases hj; rfl)
  · refine .inr (List.mem_iff_getElem?.mpr ⟨j, ?_⟩)
    rw [List.getElem?_set_ne hij]
    exact hj

/-- Moving party `i` changes a head count by its own share only. -/
theorem countP_set (p : S → Bool) (h : l[i]? = some a) :
    (l.set i b).countP p + (p a).toNat = l.countP p + (p b).toNat := by
  obtain ⟨hi, ha⟩ := List.getElem?_eq_some_iff.mp h
  have hs := List.countP_set (p := p) (a := b) hi
  have hle := List.boole_getElem_le_countP (p := p) hi
  rw [ha] at hs hle
  have hn : ∀ x : Bool, (if x = true then 1 else 0) = x.toNat := by decide
  rw [hn] at hs hle
  rw [hn] at hs
  omega

/-- A party counts itself. -/
theorem le_countP (p : S → Bool) (h : l[i]? = some a) : (p a).toNat ≤ l.countP p := by
  obtain ⟨hi, ha⟩ := List.getElem?_eq_some_iff.mp h
  have hle := List.boole_getElem_le_countP (p := p) hi
  rw [ha] at hle
  cases hpa : p a with
  | false => exact Nat.zero_le _
  | true =>
    rw [hpa] at hle
    exact hle

/-- A party that joins adds its own share to a head count. -/
theorem countP_concat (p : S → Bool) (l : List S) (b : S) :
    (l ++ [b]).countP p = l.countP p + (p b).toNat := by
  rw [List.countP_append, List.countP_singleton]
  cases p b <;> rfl

/-- The number of a party that joins is the old head count. -/
theorem getElem?_concat (hc : (l ++ [b])[j]? = some c) :
    (j = l.length ∧ c = b) ∨ l[j]? = some c := by
  rcases Nat.lt_or_ge j l.length with hj | hj
  · rw [List.getElem?_append_left hj] at hc
    exact .inr hc
  · rw [List.getElem?_append_right hj, List.getElem?_singleton] at hc
    split at hc
    · exact .inl ⟨by omega, by cases hc; rfl⟩
    · cases hc

end VideoNode.Lts.Parties
