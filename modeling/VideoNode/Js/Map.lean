import Mathlib.Data.List.Nodup
import Mathlib.Logic.Function.Basic

/-!
# The standard `Map`

Keys in insertion order, each at most once: setting a key that is present keeps its place.
-/

namespace VideoNode.Js

universe u v w

/-- A `Map`; `nodup` is what lets a key be looked up anywhere in it. -/
structure JsMap (K : Type u) (V : Type v) where
  entries : List (K × V)
  nodup : (entries.map Prod.fst).Nodup

namespace JsMap

variable {K : Type u} {V : Type v} {W : Type w}

/-- `new Map()`, and what `clear()` leaves. -/
def empty : JsMap K V := ⟨[], List.nodup_nil⟩

variable [DecidableEq K]

/-- `get(k)`; `none` for `undefined`. -/
def get (m : JsMap K V) (k : K) : Option V := m.entries.lookup k

/-- `set(k, v)`. -/
def set (m : JsMap K V) (k : K) (v : V) : JsMap K V :=
  if h : k ∈ m.entries.map Prod.fst then
    { entries := m.entries.map fun e ↦ if e.1 = k then (k, v) else e
      nodup := by
        have hk : (m.entries.map fun e ↦ if e.1 = k then (k, v) else e).map Prod.fst =
            m.entries.map Prod.fst := by
          rw [List.map_map]
          apply List.map_congr_left
          intro e _
          simp only [Function.comp_apply]
          split
          · next he => exact he.symm
          · rfl
        rw [hk]
        exact m.nodup }
  else
    { entries := m.entries ++ [(k, v)]
      nodup := by
        rw [List.map_append]
        exact List.Nodup.append m.nodup (List.nodup_singleton _) (by simpa using h) }

/-- `delete(k)`. -/
def delete (m : JsMap K V) (k : K) : JsMap K V where
  entries := m.entries.filter fun e ↦ e.1 ≠ k
  nodup := m.nodup.sublist (List.filter_sublist.map _)

/-- Reading the map agrees with its entries. -/
theorem mem_entries {m : JsMap K V} {k : K} {v : V} :
    (k, v) ∈ m.entries ↔ m.get k = some v := by
  obtain ⟨entries, nodup⟩ := m
  simp only [get]
  induction entries with
  | nil => simp
  | cons e entries ih =>
    obtain ⟨k', v'⟩ := e
    simp only [List.map_cons, List.nodup_cons] at nodup
    obtain ⟨hn, nodup⟩ := nodup
    rw [List.mem_cons, ih nodup, List.lookup_cons]
    by_cases hk : k = k'
    · subst hk
      have hno : ¬ (k, v) ∈ entries := fun hm ↦ hn (List.mem_map_of_mem hm)
      rw [ih nodup] at hno
      simp [hno, eq_comm]
    · have hb : (k == k') = false := by simp [hk]
      simp [hk, hb]

/-- The empty map holds nothing. -/
@[simp] theorem get_empty (k : K) : (empty : JsMap K V).get k = none := rfl

/-- A map and its reads. -/
theorem get_set (m : JsMap K V) (k k' : K) (v : V) :
    (m.set k v).get k' = if k' = k then some v else m.get k' := by
  apply Option.ext
  intro v'
  rw [← mem_entries]
  unfold set
  split
  · next h =>
    simp only [List.mem_map, Prod.exists] at h ⊢
    obtain ⟨k₀, v₀, hm, rfl⟩ := h
    constructor
    · rintro ⟨a, b, hab, he⟩
      split at he
      · cases he
        simp
      · next hne =>
        cases he
        rw [if_neg hne]
        exact mem_entries.mp hab
    · intro he
      by_cases hk : k' = k₀
      · subst hk
        rw [if_pos rfl, Option.some.injEq] at he
        subst he
        exact ⟨k', v₀, hm, by simp⟩
      · rw [if_neg hk] at he
        exact ⟨k', v', mem_entries.mpr he, by simp [hk]⟩
  · next h =>
    simp only [List.mem_append, List.mem_singleton, Prod.mk.injEq]
    constructor
    · rintro (hm | ⟨rfl, rfl⟩)
      · have hk : k' ≠ k := by
          rintro rfl
          exact h (List.mem_map_of_mem hm)
        rw [if_neg hk]
        exact mem_entries.mp hm
      · simp
    · intro he
      by_cases hk : k' = k
      · subst hk
        rw [if_pos rfl, Option.some.injEq] at he
        exact .inr ⟨rfl, he.symm⟩
      · rw [if_neg hk] at he
        exact .inl (mem_entries.mpr he)

/-- A deleted key is absent, and no other key is touched. -/
theorem get_delete (m : JsMap K V) (k k' : K) :
    (m.delete k).get k' = if k' = k then none else m.get k' := by
  apply Option.ext
  intro v'
  rw [← mem_entries]
  simp only [delete, List.mem_filter, decide_not, Bool.not_eq_eq_eq_not, Bool.not_true,
    decide_eq_false_iff_not, mem_entries]
  by_cases hk : k' = k <;> simp [hk]

/-- Setting one key after another. -/
def setAll (m : JsMap K V) (l : List (K × V)) : JsMap K V := l.foldl (fun m e ↦ m.set e.1 e.2) m

/-- What is read was set last, or was there. -/
theorem mem_of_get_setAll {m : JsMap K V} {l : List (K × V)} {k : K} {v : V}
    (h : (m.setAll l).get k = some v) : (k, v) ∈ l ∨ m.get k = some v := by
  induction l generalizing m with
  | nil => exact .inr h
  | cons e l ih =>
    rcases ih h with hm | hg
    · exact .inl (List.mem_cons_of_mem e hm)
    · rw [get_set] at hg
      split at hg
      · next he =>
        cases hg
        left
        rw [he]
        exact List.mem_cons_self ..
      · exact .inr hg

/-- A key that is present, or is set, is present afterwards. -/
theorem isSome_get_setAll {m : JsMap K V} {l : List (K × V)} {k : K}
    (h : k ∈ l.map Prod.fst ∨ (m.get k).isSome) : ((m.setAll l).get k).isSome := by
  induction l generalizing m with
  | nil =>
    rcases h with h | h
    · cases h
    · exact h
  | cons e l ih =>
    apply ih
    rw [get_set]
    rcases h with h | h
    · rcases List.mem_cons.mp h with rfl | h
      · right
        simp
      · exact .inl h
    · right
      split
      · rfl
      · exact h

/-- Visiting every entry, where the visit of a key touches only what is kept for that key. -/
def forEach (m : JsMap K V) (visit : V → W → W) (s : K → W) : K → W :=
  m.entries.foldl (fun s e ↦ Function.update s e.1 (visit e.2 (s e.1))) s

/-- What a visit of every entry leaves for one key: its own visit, if it has an entry. -/
theorem forEach_apply (m : JsMap K V) (visit : V → W → W) (s : K → W) (k : K) :
    m.forEach visit s k = match m.get k with
      | none => s k
      | some v => visit v (s k) := by
  obtain ⟨entries, nodup⟩ := m
  simp only [forEach, get]
  induction entries generalizing s with
  | nil => rfl
  | cons e entries ih =>
    obtain ⟨k', v'⟩ := e
    simp only [List.map_cons, List.nodup_cons] at nodup
    obtain ⟨hn, nodup⟩ := nodup
    rw [List.foldl_cons, ih _ nodup, List.lookup_cons]
    by_cases hk : k = k'
    · subst hk
      have hnone : entries.lookup k = none := by
        cases hl : entries.lookup k with
        | none => rfl
        | some v =>
          have hm : (k, v) ∈ entries := (mem_entries (m := ⟨entries, nodup⟩)).mpr hl
          exact absurd (List.mem_map_of_mem hm) hn
      simp [hnone]
    · have hb : (k == k') = false := by simp [hk]
      simp [hb, Function.update_of_ne hk]

end JsMap

end VideoNode.Js
