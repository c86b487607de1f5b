import Mathlib.Algebra.Group.Nat.Defs
import Mathlib.Data.List.Basic
import Mathlib.Tactic.NormNum

/-!
# UTF-16 code units

A JavaScript string is a list of 16-bit code units, surrogates that stand alone among them. Native
code reads it as Unicode text and writes it back: each pair is one character, and a surrogate that
stands alone is read as U+FFFD. Text in UTF-8 is a `String`.
-/

namespace VideoNode.Js.Utf16

/-- A code unit that starts a pair. -/
def IsHigh (u : UInt16) : Prop := 0xD800 ≤ u.toNat ∧ u.toNat ≤ 0xDBFF

/-- A code unit that ends a pair. -/
def IsLow (u : UInt16) : Prop := 0xDC00 ≤ u.toNat ∧ u.toNat ≤ 0xDFFF

instance (u : UInt16) : Decidable (IsHigh u) := inferInstanceAs (Decidable (_ ∧ _))
instance (u : UInt16) : Decidable (IsLow u) := inferInstanceAs (Decidable (_ ∧ _))

/-- U+FFFD. -/
def replacement : Char := '\uFFFD'

/-- The character of a code unit that is not part of a pair. -/
def single (u : UInt16) : Char :=
  if IsHigh u ∨ IsLow u then replacement else Char.ofNat u.toNat

/-- The character of a pair. -/
def pair (u v : UInt16) : Char :=
  Char.ofNat (0x10000 + (u.toNat - 0xD800) * 0x400 + (v.toNat - 0xDC00))

/-- The characters of a string. -/
def decode : List UInt16 → List Char
  | [] => []
  | [u] => [single u]
  | u :: v :: us =>
    if IsHigh u ∧ IsLow v then pair u v :: decode us else single u :: decode (v :: us)

/-- The text native code reads of a string. -/
def utf8Value (us : List UInt16) : String := .ofList (decode us)

/-- The code units of a character. -/
def encodeChar (c : Char) : List UInt16 :=
  if c.toNat < 0x10000 then [UInt16.ofNat c.toNat]
  else [UInt16.ofNat (0xD800 + (c.toNat - 0x10000) / 0x400),
    UInt16.ofNat (0xDC00 + (c.toNat - 0x10000) % 0x400)]

/-- The code units of a text. -/
def encode (cs : List Char) : List UInt16 := cs.flatMap encodeChar

/-- `String.prototype.isWellFormed`: no surrogate stands alone. -/
def isWellFormed : List UInt16 → Bool
  | [] => true
  | [u] => !(IsHigh u ∨ IsLow u)
  | u :: v :: us =>
    if IsHigh u ∧ IsLow v then isWellFormed us
    else !(IsHigh u ∨ IsLow u) && isWellFormed (v :: us)

/-- `String.prototype.toWellFormed`: every surrogate that stands alone replaced by U+FFFD. -/
def toWellFormed : List UInt16 → List UInt16
  | [] => []
  | [u] => [if IsHigh u ∨ IsLow u then 0xFFFD else u]
  | u :: v :: us =>
    if IsHigh u ∧ IsLow v then u :: v :: toWellFormed us
    else (if IsHigh u ∨ IsLow u then 0xFFFD else u) :: toWellFormed (v :: us)

private theorem toNat_ofNat {n : Nat} (h : n < 0xD800 ∨ 0xDFFF < n ∧ n < 0x110000) :
    (Char.ofNat n).toNat = n := by
  have hv : n.isValidChar := h
  rw [Char.ofNat, dif_pos hv]
  rfl

/-- A code unit that stands alone and is no surrogate has its own number. -/
theorem toNat_single {u : UInt16} (h : ¬ (IsHigh u ∨ IsLow u)) : (single u).toNat = u.toNat := by
  rw [single, if_neg h]
  apply toNat_ofNat
  have hu := u.toNat_lt
  simp only [IsHigh, IsLow] at h
  omega

/-- A pair is a character beyond the 16-bit ones. -/
theorem toNat_pair {u v : UInt16} (hu : IsHigh u) (hv : IsLow v) :
    (pair u v).toNat = 0x10000 + (u.toNat - 0xD800) * 0x400 + (v.toNat - 0xDC00) := by
  rw [pair]
  apply toNat_ofNat
  simp only [IsHigh, IsLow] at hu hv
  omega

/-- The code unit of a character that stands for one. -/
theorem encodeChar_single (u : UInt16) :
    encodeChar (single u) = [if IsHigh u ∨ IsLow u then 0xFFFD else u] := by
  by_cases h : IsHigh u ∨ IsLow u
  · rw [single, if_pos h, if_pos h]
    rfl
  · have hn := toNat_single h
    have hu := u.toNat_lt
    rw [encodeChar, hn, if_pos hu, if_neg h, UInt16.ofNat_toNat]

/-- The code units of a pair. -/
theorem encodeChar_pair {u v : UInt16} (hu : IsHigh u) (hv : IsLow v) :
    encodeChar (pair u v) = [u, v] := by
  have hn := toNat_pair hu hv
  simp only [IsHigh, IsLow] at hu hv
  rw [encodeChar, if_neg (by omega), hn]
  have hfst : 0xD800 + (0x10000 + (u.toNat - 0xD800) * 0x400 + (v.toNat - 0xDC00) - 0x10000) / 0x400
      = u.toNat := by omega
  have hsnd : 0xDC00 + (0x10000 + (u.toNat - 0xD800) * 0x400 + (v.toNat - 0xDC00) - 0x10000) % 0x400
      = v.toNat := by omega
  rw [hfst, hsnd, UInt16.ofNat_toNat, UInt16.ofNat_toNat]

/-- What is read of a string is written back with the surrogates that stand alone replaced. -/
theorem encode_decode (us : List UInt16) : encode (decode us) = toWellFormed us := by
  induction us using decode.induct with
  | case1 => rfl
  | case2 u => simp only [decode, encode, toWellFormed, List.flatMap_cons, List.flatMap_nil,
      encodeChar_single, List.append_nil]
  | case3 u v us h ih =>
    have ih : (decode us).flatMap encodeChar = toWellFormed us := ih
    rw [decode, if_pos h, toWellFormed, if_pos h, encode, List.flatMap_cons,
      encodeChar_pair h.1 h.2, ih]
    rfl
  | case4 u v us h ih =>
    have ih : (decode (v :: us)).flatMap encodeChar = toWellFormed (v :: us) := ih
    rw [decode, if_neg h, toWellFormed, if_neg h, encode, List.flatMap_cons, encodeChar_single, ih]
    rfl

private theorem single_ofNat {c : Char} (h : c.toNat < 0x10000) :
    ¬ (IsHigh (UInt16.ofNat c.toNat) ∨ IsLow (UInt16.ofNat c.toNat)) ∧
      single (UInt16.ofNat c.toNat) = c := by
  have hn : (UInt16.ofNat c.toNat).toNat = c.toNat := UInt16.toNat_ofNat_of_lt' h
  have hs : ¬ (IsHigh (UInt16.ofNat c.toNat) ∨ IsLow (UInt16.ofNat c.toNat)) := by
    have hv : c.toNat < 0xD800 ∨ 0xDFFF < c.toNat ∧ c.toNat < 0x110000 := c.valid
    simp only [IsHigh, IsLow, hn]
    omega
  refine ⟨hs, ?_⟩
  rw [single, if_neg hs, hn, Char.ofNat_toNat]

/-- A character is read off its code units, whatever follows them. -/
theorem decode_encodeChar_append (c : Char) (us : List UInt16) :
    decode (encodeChar c ++ us) = c :: decode us := by
  by_cases h : c.toNat < 0x10000
  · obtain ⟨hs, hc⟩ := single_ofNat h
    rw [encodeChar, if_pos h, List.singleton_append]
    cases us with
    | nil => exact congrArg (fun c ↦ [c]) hc
    | cons v us => rw [decode, if_neg (fun hp ↦ hs (.inl hp.1)), hc]
  · have hv : c.toNat < 0xD800 ∨ 0xDFFF < c.toNat ∧ c.toNat < 0x110000 := c.valid
    rw [encodeChar, if_neg h]
    generalize hu : UInt16.ofNat (0xD800 + (c.toNat - 0x10000) / 0x400) = u
    generalize hl : UInt16.ofNat (0xDC00 + (c.toNat - 0x10000) % 0x400) = v
    have hu : u.toNat = 0xD800 + (c.toNat - 0x10000) / 0x400 := by
      rw [← hu, UInt16.toNat_ofNat']
      omega
    have hl : v.toNat = 0xDC00 + (c.toNat - 0x10000) % 0x400 := by
      rw [← hl, UInt16.toNat_ofNat']
      omega
    have hp : IsHigh u ∧ IsLow v := by
      simp only [IsHigh, IsLow, hu, hl]
      omega
    have hn : (pair u v).toNat = c.toNat := by
      rw [toNat_pair hp.1 hp.2, hu, hl]
      omega
    rw [List.cons_append, List.singleton_append, decode, if_pos hp, Char.toNat_inj.mp hn]

/-- A text is read off its code units. -/
theorem decode_encode (cs : List Char) : decode (encode cs) = cs := by
  induction cs with
  | nil => rfl
  | cons c cs ih =>
    rw [encode, List.flatMap_cons, decode_encodeChar_append]
    exact congrArg _ ih

/-- A string is its own well-formed version exactly if it is well formed. -/
theorem toWellFormed_eq_self_iff (us : List UInt16) :
    toWellFormed us = us ↔ isWellFormed us = true := by
  have hf : ∀ u : UInt16, (if IsHigh u ∨ IsLow u then 0xFFFD else u) = u ↔
      ¬ (IsHigh u ∨ IsLow u) := by
    intro u
    split
    · next h =>
      refine iff_of_false ?_ (fun hn ↦ hn h)
      rintro rfl
      exact absurd h (by decide)
    · next h => exact iff_of_true rfl h
  induction us using decode.induct with
  | case1 => simp [toWellFormed, isWellFormed]
  | case2 u => simp only [toWellFormed, isWellFormed, List.cons.injEq, hf u, and_true,
      Bool.not_eq_true', decide_eq_false_iff_not]
  | case3 u v us h ih => simp only [toWellFormed, isWellFormed, h, and_self, if_true,
      List.cons.injEq, true_and, ih]
  | case4 u v us h ih =>
    rw [toWellFormed, if_neg h, isWellFormed, if_neg h, List.cons.injEq, hf u]
    simp only [ih, Bool.and_eq_true, Bool.not_eq_true', decide_eq_false_iff_not]

/-- The text of a string is read back from its code units. -/
theorem utf8Value_encode (s : String) : utf8Value (encode s.toList) = s := by
  rw [utf8Value, decode_encode, String.ofList_toList]

/-- A string in which U+FFFD is not read is well formed. -/
theorem isWellFormed_of_decode {us : List UInt16} (h : replacement ∉ decode us) :
    isWellFormed us = true := by
  have hsingle : ∀ u : UInt16, replacement ≠ single u → ¬ (IsHigh u ∨ IsLow u) := by
    intro u hu hs
    rw [single, if_pos hs] at hu
    exact hu rfl
  induction us using decode.induct with
  | case1 => rfl
  | case2 u =>
    rw [decode, List.mem_singleton] at h
    simp only [isWellFormed, hsingle u h, decide_false, Bool.not_false]
  | case3 u v us hp ih =>
    rw [decode, if_pos hp, List.mem_cons, not_or] at h
    rw [isWellFormed, if_pos hp, ih h.2]
  | case4 u v us hp ih =>
    rw [decode, if_neg hp, List.mem_cons, not_or] at h
    simp only [isWellFormed, hp, if_false, hsingle u h.1, decide_false, Bool.not_false,
      ih h.2, Bool.and_self]

/-- What is written back of a string is well formed. -/
theorem isWellFormed_toWellFormed (us : List UInt16) : isWellFormed (toWellFormed us) = true := by
  rw [← toWellFormed_eq_self_iff, ← encode_decode us, ← encode_decode, decode_encode]

/-- The UTF-8 size of a text is that of its first character and that of the others. -/
theorem utf8ByteSize_cons (c : Char) (cs : List Char) :
    (String.ofList (c :: cs)).utf8ByteSize = c.utf8Size + (String.ofList cs).utf8ByteSize := by
  rw [← List.singleton_append, String.ofList_append, String.utf8ByteSize_append,
    ← String.singleton_eq_ofList, String.utf8ByteSize_singleton]

private theorem utf8Size_single (u : UInt16) :
    1 ≤ (single u).utf8Size ∧ (single u).utf8Size ≤ 3 := by
  have hle : ¬ (single u).utf8Size = 4 := by
    rw [Char.utf8Size_eq_four_iff, UInt32.lt_iff_toNat_lt]
    by_cases h : IsHigh u ∨ IsLow u
    · rw [single, if_pos h]
      decide
    · have hn : (single u).val.toNat = u.toNat := toNat_single h
      have hu := u.toNat_lt
      simp only [hn, UInt32.reduceToNat]
      omega
  have h4 := (single u).utf8Size_le_four
  have hp := (single u).utf8Size_pos
  omega

private theorem utf8Size_pair {u v : UInt16} (hu : IsHigh u) (hv : IsLow v) :
    (pair u v).utf8Size = 4 := by
  have hn : (pair u v).val.toNat = _ := toNat_pair hu hv
  rw [Char.utf8Size_eq_four_iff, UInt32.lt_iff_toNat_lt, hn]
  simp only [UInt32.reduceToNat]
  omega

/-- In UTF-8 a string takes at least a byte and at most three bytes a code unit. -/
theorem utf8ByteSize_decode (us : List UInt16) :
    us.length ≤ (String.ofList (decode us)).utf8ByteSize ∧
      (String.ofList (decode us)).utf8ByteSize ≤ 3 * us.length := by
  induction us using decode.induct with
  | case1 => simp [decode]
  | case2 u =>
    obtain ⟨hl, hu⟩ := utf8Size_single u
    rw [decode, utf8ByteSize_cons, String.ofList_nil, String.utf8ByteSize_empty,
      List.length_singleton]
    omega
  | case3 u v us h ih =>
    rw [decode, if_pos h, utf8ByteSize_cons, utf8Size_pair h.1 h.2]
    simp only [List.length_cons]
    omega
  | case4 u v us h ih =>
    obtain ⟨hl, hu⟩ := utf8Size_single u
    rw [decode, if_neg h, utf8ByteSize_cons]
    simp only [List.length_cons] at ih ⊢
    omega

end VideoNode.Js.Utf16

namespace VideoNode.Js

/-- A JavaScript string. -/
structure JsString where
  units : List UInt16
  deriving DecidableEq

namespace JsString

/-- The string of a text. -/
def ofText (s : String) : JsString := ⟨Utf16.encode s.toList⟩

instance : Coe String JsString := ⟨ofText⟩

/-- `Utf8Value`, which has U+FFFD for each surrogate that stands alone. -/
def utf8Value (s : JsString) : String := Utf16.utf8Value s.units

/-- `isWellFormed`. -/
def isWellFormed (s : JsString) : Bool := Utf16.isWellFormed s.units

/-- The number of code units. -/
def length (s : JsString) : Nat := s.units.length

/-- A text is read off its string. -/
@[simp] theorem utf8Value_ofText (s : String) : (ofText s).utf8Value = s :=
  Utf16.utf8Value_encode s

/-- The string of a text is well formed. -/
@[simp] theorem isWellFormed_ofText (s : String) : (ofText s).isWellFormed = true := by
  have hw := Utf16.isWellFormed_toWellFormed (Utf16.encode s.toList)
  rwa [← Utf16.encode_decode, Utf16.decode_encode] at hw

/-- The string of what is read of a string is the string exactly if that is well formed. -/
theorem ofText_utf8Value (s : JsString) : ofText s.utf8Value = s ↔ s.isWellFormed = true := by
  obtain ⟨us⟩ := s
  rw [isWellFormed, ← Utf16.toWellFormed_eq_self_iff, ofText, utf8Value, Utf16.utf8Value,
    String.toList_ofList, Utf16.encode_decode, mk.injEq]

/-- Two texts have the same string only if they are the same. -/
theorem ofText_inj {s t : String} : ofText s = ofText t ↔ s = t := by
  refine ⟨fun h ↦ ?_, congrArg ofText⟩
  have h := congrArg utf8Value h
  rwa [utf8Value_ofText, utf8Value_ofText] at h

/-- A well-formed string is the string of what is read of it. -/
theorem eq_ofText_iff {s : JsString} {t : String} :
    s = ofText t ↔ s.isWellFormed = true ∧ s.utf8Value = t := by
  constructor
  · rintro rfl
    exact ⟨isWellFormed_ofText t, utf8Value_ofText t⟩
  · rintro ⟨hw, rfl⟩
    exact ((ofText_utf8Value s).mpr hw).symm

/-- A text without U+FFFD is read of its string only. -/
theorem utf8Value_eq_iff {s : JsString} {t : String} (ht : Utf16.replacement ∉ t.toList) :
    s.utf8Value = t ↔ s = ofText t := by
  rw [eq_ofText_iff]
  refine ⟨fun h ↦ ⟨Utf16.isWellFormed_of_decode ?_, h⟩, And.right⟩
  rwa [← h, utf8Value, Utf16.utf8Value, String.toList_ofList] at ht

/-- Only the empty string is read as the empty text. -/
theorem utf8Value_eq_empty {s : JsString} : s.utf8Value = "" ↔ s = "" :=
  utf8Value_eq_iff (by decide)

/-- Only the empty string has no code unit. -/
theorem length_eq_zero_iff {s : JsString} : s.length = 0 ↔ s = "" := by
  obtain ⟨us⟩ := s
  rw [length, List.length_eq_zero_iff]
  exact (mk.injEq us []).to_iff.symm

end JsString

end VideoNode.Js
