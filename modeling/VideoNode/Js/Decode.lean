import Mathlib.Data.List.Forall2
import VideoNode.Js.Napi

/-!
# Readers of options

Native code reads an options object property by property: a property that is absent is left out, and
one that is present is read or thrown for. A reader is described by the relation between the values
it accepts and what it makes of them; the relations compose as the readers do.
-/

namespace VideoNode.Js

variable {α β : Type}

/-- The error tells the caller that an argument is wrong. -/
def JsError.BadArgument (e : JsError) : Prop := e.kind = .typeError ∨ e.kind = .rangeError

/-- Whatever is thrown tells the caller that an argument is wrong. -/
def Refuses (x : Except JsError α) : Prop := ∀ e, x = .error e → e.BadArgument

/-- What is returned is not thrown. -/
theorem Refuses.pure (a : α) : Refuses (.ok a) := nofun

/-- A sequence throws what its parts throw. -/
theorem Refuses.bind {x : Except JsError α} {f : α → Except JsError β} (hx : Refuses x)
    (hf : ∀ a, Refuses (f a)) : Refuses (x >>= f) := by
  intro e h
  cases x with
  | error e' =>
    cases h
    exact hx e rfl
  | ok a => exact hf a e h

/-- A check throws the error it is given. -/
theorem Refuses.throwIf {c : Prop} [Decidable c] {e : JsError} (he : e.BadArgument) :
    Refuses (throwIf c e) := by
  intro e' h
  unfold Js.throwIf at h
  split at h
  · cases h
    exact he
  · cases h

/-- A conversion throws the error it is given. -/
theorem Refuses.orThrow {o : Option α} {e : JsError} (he : e.BadArgument) :
    Refuses (orThrow o e) := by
  intro e' h
  cases o with
  | some a => cases h
  | none =>
    cases h
    exact he

/-- A traversal throws what its elements throw. -/
theorem Refuses.mapM {f : α → Except JsError β} (hf : ∀ a, Refuses (f a)) (as : List α) :
    Refuses (as.mapM f) := by
  induction as with
  | nil => exact Refuses.pure _
  | cons a as ih =>
    rw [List.mapM_cons]
    apply (hf a).bind
    intro b
    apply ih.bind
    intro bs
    exact Refuses.pure _

/-- A traversal succeeds with what each element gives, in order. -/
theorem mapM_eq_ok {f : α → Except JsError β} {as : List α} {bs : List β} :
    as.mapM f = .ok bs ↔ List.Forall₂ (fun a b ↦ f a = .ok b) as bs := by
  induction as generalizing bs with
  | nil =>
    rw [List.mapM_nil, pure_eq_ok]
    constructor
    · rintro rfl
      exact .nil
    · rintro ⟨⟩
      rfl
  | cons a as ih =>
    simp only [List.mapM_cons, bind_eq_ok, pure_eq_ok, ih]
    constructor
    · rintro ⟨b, hb, cs, hc, rfl⟩
      exact .cons hb hc
    · intro h
      cases h with
      | cons hb hc => exact ⟨_, hb, _, hc, rfl⟩

/-- A reader accepts the values that are related to something, with that, and tells the caller of
any other that the argument is wrong. -/
structure Decodes (read : NapiValue → Except JsError α) (R : NapiValue → α → Prop) : Prop where
  ok : ∀ v a, read v = .ok a ↔ R v a
  error : ∀ v, Refuses (read v)

/-- Reads a property that may be absent. -/
def optional (obj : NapiValue) (key : String) (read : NapiValue → Except JsError α) :
    Except JsError (Option α) :=
  if obj.has key then do
    let a ← read (obj.get key)
    pure (some a)
  else pure none

section

variable {v a : NapiValue} {key key' : String} (read : NapiValue → Except JsError α)

/-- A property that was just set is read. -/
theorem optional_assign_self (hv : v.isObject = true) :
    optional (v.assign key a) key read = (read a).map some := by
  cases v with
  | object kind has get items =>
    unfold Js.optional
    simp only [NapiValue.assign, NapiValue.has, NapiValue.get, decide_true, Bool.true_or, if_true]
    rfl
  | _ => cases hv

/-- Setting one property leaves every other. -/
theorem optional_assign_of_ne (hk : key' ≠ key) :
    optional (v.assign key a) key' read = optional v key' read := by
  cases v with
  | object kind has get items =>
    unfold Js.optional
    simp [NapiValue.assign, NapiValue.has, NapiValue.get, hk]
  | _ => rfl

/-- Deleting one property leaves every other. -/
theorem optional_delete_of_ne (hk : key' ≠ key) :
    optional (v.delete key) key' read = optional v key' read := by
  cases v with
  | object kind has get items =>
    unfold Js.optional
    simp [NapiValue.delete, NapiValue.has, NapiValue.get, hk]
  | _ => rfl

/-- A property that is deleted is absent. -/
theorem optional_delete_self (key : String) : optional (v.delete key) key read = .ok none := by
  cases v with
  | object kind has get items =>
    unfold Js.optional
    simp only [NapiValue.delete, NapiValue.has, decide_true, Bool.not_true, Bool.false_and,
      Bool.false_eq_true, if_false]
    rfl
  | _ => rfl

/-- The rest of an object has its own properties that are not named. -/
theorem optional_rest (v : NapiValue) (own : String → Bool) (keys : List String) (key : String) :
    optional (v.rest own keys) key read =
      if own key && !keys.contains key then (read (v.get key)).map some else .ok none := by
  unfold Js.optional
  simp only [NapiValue.rest, NapiValue.has, NapiValue.get]
  split <;> rfl

end

/-- What is had of a property: nothing if it is absent, and what its value is related to if it is
present. -/
def Field (obj : NapiValue) (key : String) (R : NapiValue → α → Prop) : Option α → Prop
  | none => obj.has key = false
  | some a => obj.has key = true ∧ R (obj.get key) a

/-- Of a property that is present, what its value is related to is had. -/
theorem Field.of_has {obj : NapiValue} {key : String} {R : NapiValue → α → Prop} {o : Option α}
    (h : Field obj key R o) (hk : obj.has key = true) : ∃ a, o = some a ∧ R (obj.get key) a := by
  cases o with
  | none => exact absurd hk (Bool.eq_false_iff.mp h)
  | some a => exact ⟨a, rfl, h.2⟩

/-- Reads the elements of an array. -/
def elements (e : JsError) (read : NapiValue → Except JsError α) (v : NapiValue) :
    Except JsError (List α) := do
  let items ← orThrow v.items? e
  items.mapM read

/-- The elements of an array, each with what it is related to, in order. -/
def Elements (R : NapiValue → α → Prop) (v : NapiValue) (as : List α) : Prop :=
  ∃ items, v.items? = some items ∧ List.Forall₂ R items as

/-- A property is good where it is present. -/
def At (obj : NapiValue) (key : String) (P : NapiValue → Prop) : Prop :=
  ∀ v, obj.present? key = some v → P v

/-- The elements of an array are good. -/
def Each (P : NapiValue → Prop) (v : NapiValue) : Prop :=
  ∀ items, v.items? = some items → ∀ item ∈ items, P item

section

variable {R R' : NapiValue → α → Prop} {P Q : NapiValue → Prop}

/-- A relation that asks for more has more of a property. -/
theorem Field.and_iff (h : ∀ v a, R' v a ↔ R v a ∧ P v) {obj : NapiValue} {key : String}
    {o : Option α} : Field obj key R' o ↔ Field obj key R o ∧ At obj key P := by
  cases o with
  | none =>
    refine ⟨fun hn ↦ ⟨hn, fun v hv ↦ ?_⟩, And.left⟩
    rw [NapiValue.present?_eq_none.mpr hn] at hv
    cases hv
  | some a =>
    simp only [Field, At, NapiValue.present?_eq_some, h]
    constructor
    · rintro ⟨hk, hr, hp⟩
      refine ⟨⟨hk, hr⟩, ?_⟩
      rintro v ⟨-, rfl⟩
      exact hp
    · rintro ⟨⟨hk, hr⟩, hp⟩
      exact ⟨hk, hr, hp _ ⟨hk, rfl⟩⟩

/-- A relation that asks for more has more of each element of an array. -/
theorem Elements.and_iff (h : ∀ v a, R' v a ↔ R v a ∧ P v) (v : NapiValue) (as : List α) :
    Elements R' v as ↔ Elements R v as ∧ Each P v := by
  constructor
  · rintro ⟨items, hi, hall⟩
    have hboth := (List.forall₂_and_left items as).mp (hall.imp fun v a hs ↦ ((h v a).mp hs).symm)
    refine ⟨⟨items, hi, hboth.2⟩, ?_⟩
    intro items' hi'
    cases hi.symm.trans hi'
    exact hboth.1
  · rintro ⟨⟨items, hi, hall⟩, hp⟩
    refine ⟨items, hi, ?_⟩
    have hboth := (List.forall₂_and_left items as).mpr ⟨hp items hi, hall⟩
    exact hboth.imp fun v a hs ↦ (h v a).mpr hs.symm

/-- A property is good in two ways where it is good in each. -/
theorem At.and_iff {obj : NapiValue} {key : String} :
    At obj key (fun v ↦ P v ∧ Q v) ↔ At obj key P ∧ At obj key Q :=
  ⟨fun h ↦ ⟨fun v hv ↦ (h v hv).1, fun v hv ↦ (h v hv).2⟩, fun h v hv ↦ ⟨h.1 v hv, h.2 v hv⟩⟩

/-- The elements are good in two ways where they are good in each. -/
theorem Each.and_iff {v : NapiValue} :
    Each (fun v ↦ P v ∧ Q v) v ↔ Each P v ∧ Each Q v :=
  ⟨fun h ↦ ⟨fun l hl a ha ↦ (h l hl a ha).1, fun l hl a ha ↦ (h l hl a ha).2⟩,
    fun h l hl a ha ↦ ⟨h.1 l hl a ha, h.2 l hl a ha⟩⟩

end

section

variable {read : NapiValue → Except JsError α} {R : NapiValue → α → Prop}

/-- A property that may be absent has its field exactly if it is read. -/
theorem Decodes.optional_eq_ok (h : Decodes read R) {obj : NapiValue} {key : String}
    {o : Option α} : optional obj key read = .ok o ↔ Field obj key R o := by
  unfold optional
  by_cases hk : obj.has key = true
  · simp only [hk, if_true, bind_eq_ok, pure_eq_ok, h.ok]
    cases o with
    | none => simp [Field, hk]
    | some a => simp [Field, hk]
  · simp only [hk]
    cases o with
    | none => simpa [Field, pure, Except.pure] using hk
    | some a => simp [Field, hk, pure, Except.pure]

/-- A property that may be absent is refused where its value is. -/
theorem Decodes.refuses (h : Decodes read R) (obj : NapiValue) (key : String) :
    Refuses (optional obj key read) := by
  unfold Js.optional
  split
  · exact (h.error _).bind fun a ↦ Refuses.pure _
  · exact Refuses.pure _

/-- A reader that goes on after a property refuses where the property or the rest is refused. -/
theorem Decodes.refuses_bind {β : Type} (h : Decodes read R) {obj : NapiValue} {key : String}
    {f : Option α → Except JsError β} (hf : ∀ o, Refuses (f o)) :
    Refuses (optional obj key read >>= f) :=
  (h.refuses obj key).bind hf

/-- An array is read element for element. -/
theorem Decodes.elements (h : Decodes read R) {e : JsError} (he : e.BadArgument) :
    Decodes (elements e read) (Elements R) where
  ok v as := by
    simp only [Js.elements, bind_eq_ok, orThrow_eq_ok, mapM_eq_ok, h.ok]
    rfl
  error v := (Refuses.orThrow he).bind fun items ↦ Refuses.mapM h.error items

/-- A conversion accepts what converts. -/
theorem Decodes.orThrow {f : NapiValue → Option α} {e : NapiValue → JsError}
    (he : ∀ v, (e v).BadArgument) :
    Decodes (fun v ↦ orThrow (f v) (e v)) fun v a ↦ f v = some a where
  ok _ _ := orThrow_eq_ok
  error v := Refuses.orThrow (he v)

end

end VideoNode.Js
