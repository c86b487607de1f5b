import VideoNode.Js.Utf16
import VideoNode.Js.Value

/-!
# Values as native code reads them

Node-API's view of a JavaScript value: the type tests, the conversions and the property reads,
which have no side effects. Native code throws through `Except`; `throwIf` and `orThrow` are the
two shapes its checks have.
-/

namespace VideoNode.Js

/-- The native classes an object can be an instance of. -/
inductive NativeClass where
  | mediaFactory
  | localVideoTrack
  | localAudioTrack
  | localDataTrack
  deriving DecidableEq, Repr

/-- What the type tests tell of an object. An instance keeps the pointer it wraps, null if its
constructor was called from JavaScript. -/
inductive ObjectKind where
  | plain
  | function
  | array
  | buffer (bytes : List UInt8)
  | wrap (cls : NativeClass) (pointer : Option Nat)
  deriving DecidableEq

/-- A value; an object answers any property read, inherited and computed ones included, and an
array has elements. -/
inductive NapiValue where
  | undefined
  | null
  | boolean (b : Bool)
  | number (n : JsNumber)
  | string (s : JsString)
  | symbol (description : String)
  | bigint (i : Int)
  | object (kind : ObjectKind) (has : String → Bool) (get : String → NapiValue)
      (items : List NapiValue)

namespace NapiValue

/-- An object with the given own properties. -/
def ofProps (props : List (String × NapiValue)) : NapiValue :=
  .object .plain (fun key ↦ (props.lookup key).isSome)
    (fun key ↦ (props.lookup key).getD .undefined) []

/-- A `Buffer` that holds the bytes. -/
def ofBytes (bytes : List UInt8) : NapiValue :=
  .object (.buffer bytes) (fun _ ↦ false) (fun _ ↦ .undefined) []

/-- An array of the elements. -/
def ofItems (items : List NapiValue) : NapiValue :=
  .object .array (fun _ ↦ false) (fun _ ↦ .undefined) items

/-- A whole number. -/
def ofInt (i : Int) : NapiValue := .number (.finite i)

/-- `Has`; false of a value that is no object. -/
def has : NapiValue → String → Bool
  | .object _ has _ _, key => has key
  | _, _ => false

/-- `Get`; `undefined` of a value that is no object. -/
def get : NapiValue → String → NapiValue
  | .object _ _ get _, key => get key
  | _, _ => .undefined

/-- `IsUndefined`. -/
def isUndefined : NapiValue → Bool
  | .undefined => true
  | _ => false

/-- `v == null`. -/
def isNullish : NapiValue → Bool
  | .undefined | .null => true
  | _ => false

/-- `IsObject`, which is true of functions too. -/
def isObject : NapiValue → Bool
  | .object .. => true
  | _ => false

/-- `typeof v === 'object' && v !== null`, which is false of functions. -/
def isTypeofObject : NapiValue → Bool
  | .object .function .. => false
  | .object .. => true
  | _ => false

/-- `IsNumber`, with the number. -/
def number? : NapiValue → Option JsNumber
  | .number n => some n
  | _ => none

/-- `IsString`, with the string. -/
def string? : NapiValue → Option JsString
  | .string s => some s
  | _ => none

/-- `IsString`, with what native code reads of the string. -/
def text? (v : NapiValue) : Option String := v.string?.map JsString.utf8Value

/-- A string that stands for its text, or no string at all. -/
def isWellFormed (v : NapiValue) : Bool := v.string?.all JsString.isWellFormed

/-- `IsBoolean`, with the boolean. -/
def boolean? : NapiValue → Option Bool
  | .boolean b => some b
  | _ => none

/-- `IsBuffer`, with the bytes. -/
def buffer? : NapiValue → Option (List UInt8)
  | .object (.buffer bytes) .. => some bytes
  | _ => none

/-- `IsArray`, with the elements. -/
def items? : NapiValue → Option (List NapiValue)
  | .object .array _ _ items => some items
  | _ => none

/-- `Number.isInteger`, with the integer. -/
def integer? (v : NapiValue) : Option Int := v.number?.bind JsNumber.isInteger

/-- `InstanceOf` the constructor of a native class, with the pointer the instance wraps. -/
def instance? (cls : NativeClass) : NapiValue → Option (Option Nat)
  | .object (.wrap c pointer) .. => if c = cls then some pointer else none
  | _ => none

/-- A property that is present, with its value. -/
def present? (v : NapiValue) (key : String) : Option NapiValue :=
  if v.has key then some (v.get key) else none

/-- A property is present with a value exactly if the object has it and answers with that. -/
theorem present?_eq_some {v a : NapiValue} {key : String} :
    v.present? key = some a ↔ v.has key = true ∧ v.get key = a := by
  unfold present?
  split
  · next h => simp [h]
  · next h => simp [h]

/-- A property is absent exactly if the object does not have it. -/
theorem present?_eq_none {v : NapiValue} {key : String} :
    v.present? key = none ↔ v.has key = false := by
  unfold present?
  split
  · next h => simp [h]
  · next h => simp [h]

/-- Only a string is read as one. -/
theorem string?_eq_some {v : NapiValue} {s : JsString} : v.string? = some s ↔ v = .string s := by
  constructor
  · intro h
    cases v with
    | string s' =>
      cases h
      rfl
    | _ => cases h
  · rintro rfl
    rfl

/-- A whole number is an integer. -/
@[simp] theorem integer?_ofInt (i : Int) : (ofInt i).integer? = some i := by
  simp [integer?, number?, ofInt, JsNumber.isInteger]

/-- What `String(v)` shows of the value in a message. -/
def described : NapiValue → JsValue
  | .undefined => .undefined
  | .null => .null
  | .boolean b => .boolean b
  | .number n => .number n
  | .string s => .string s.utf8Value
  | .symbol d => .symbol d
  | .bigint i => .bigint i
  | .object .function .. => .function
  | .object (.buffer bytes) .. => .buffer bytes
  | .object .. => .object []

/-- `v ?? d`. -/
def orElse (v d : NapiValue) : NapiValue := if v.isNullish then d else v

/-- The rest of an object destructuring: a new object of the own properties, as `own` tells them,
but for those named. -/
def rest (v : NapiValue) (own : String → Bool) (keys : List String) : NapiValue :=
  .object .plain (fun key ↦ own key && !keys.contains key)
    (fun key ↦ if own key && !keys.contains key then v.get key else .undefined) []

/-- `v[key] = a` of an object. -/
def assign (v : NapiValue) (key : String) (a : NapiValue) : NapiValue :=
  match v with
  | .object kind has get items =>
    .object kind (fun k ↦ decide (k = key) || has k) (fun k ↦ if k = key then a else get k) items
  | v => v

/-- `delete v[key]` of an object. -/
def delete (v : NapiValue) (key : String) : NapiValue :=
  match v with
  | .object kind has get items =>
    .object kind (fun k ↦ !decide (k = key) && has k)
      (fun k ↦ if k = key then .undefined else get k) items
  | v => v

end NapiValue

/-- An error whose message ends in `${v}`, which throws for a symbol. -/
def JsError.interpolating (kind : ErrorKind) (text : String) (v : NapiValue) : JsError :=
  match v with
  | .symbol _ => ⟨.typeError, "Cannot convert a Symbol value to a string", none⟩
  | v => ⟨kind, text, some v.described⟩

/-- The number towards zero. -/
def JsNumber.trunc (q : ℚ) : Int := q.num.tdiv q.den

/-- `Uint32Value`: towards zero and modulo 2³², and zero of a number that is not finite. -/
def JsNumber.uint32Value : JsNumber → Nat
  | .finite q => (JsNumber.trunc q % 2 ^ 32).toNat
  | .nan | .infinity _ => 0

/-- `Int32Value`: towards zero and modulo 2³², and zero of a number that is not finite. -/
def JsNumber.int32Value : JsNumber → Int
  | .finite q => (JsNumber.trunc q).bmod (2 ^ 32)
  | .nan | .infinity _ => 0

/-- An unsigned 32-bit integer is below 2³². -/
theorem JsNumber.uint32Value_lt (n : JsNumber) : n.uint32Value < 2 ^ 32 := by
  cases n with
  | finite q =>
    simp only [uint32Value]
    omega
  | _ => exact Nat.two_pow_pos 32

/-- An integer is read modulo 2³². -/
theorem JsNumber.uint32Value_of_isInteger {n : JsNumber} {i : Int} (h : n.isInteger = some i) :
    (n.uint32Value : Int) = i % 2 ^ 32 := by
  cases n with
  | finite q =>
    simp only [isInteger] at h
    split at h
    · next hd =>
      cases h
      have ht : JsNumber.trunc q = q.num := by
        rw [JsNumber.trunc, hd]
        exact Int.tdiv_one q.num
      rw [uint32Value, ht]
      omega
    · cases h
  | _ => cases h

/-- An integer of 32 bits is read as it is. -/
theorem JsNumber.int32Value_of_isInteger {n : JsNumber} {i : Int} (h : n.isInteger = some i)
    (hl : -2 ^ 31 ≤ i) (hu : i < 2 ^ 31) : n.int32Value = i := by
  cases n with
  | finite q =>
    simp only [isInteger] at h
    split at h
    · next hd =>
      cases h
      have ht : JsNumber.trunc q = q.num := by
        rw [JsNumber.trunc, hd]
        exact Int.tdiv_one q.num
      rw [int32Value, ht]
      apply Int.bmod_eq_of_le <;> omega
    · cases h
  | _ => cases h

/-- The number of an integer. -/
theorem JsNumber.eq_of_isInteger {n : JsNumber} {k : Nat} (h : n.isInteger = some (k : Int)) :
    n = .finite k := by
  cases n with
  | finite q =>
    simp only [isInteger] at h
    split at h
    · next hd =>
      congr 1
      apply Rat.ext
      · exact Option.some.inj h
      · exact hd
    · cases h
  | _ => cases h

/-- The properties of an object, getters that throw among them. -/
structure Reads where
  has : String → Except JsError Bool
  get : String → Except JsError NapiValue

/-- The reads of an object none of whose getters throws. -/
def NapiValue.reads (v : NapiValue) : Reads where
  has key := .ok (v.has key)
  get key := .ok (v.get key)

/-- A property that is present and is not `undefined`. -/
def Reads.given (r : Reads) (key : String) : Except JsError (Option NapiValue) := do
  if ← r.has key then
    let v ← r.get key
    pure (if v.isUndefined then none else some v)
  else pure none

/-- A property that is absent is not given. -/
theorem Reads.given_of_absent {r : Reads} {key : String} (h : r.has key = .ok false) :
    r.given key = .ok none := by
  rw [given, h]
  rfl

/-- A property that is present with a value is given it. -/
theorem Reads.given_of_present {r : Reads} {key : String} {v : NapiValue}
    (h : r.has key = .ok true) (hg : r.get key = .ok v) (hv : v.isUndefined = false) :
    r.given key = .ok (some v) := by
  rw [given, h]
  show (r.get key >>= fun v ↦ pure (if v.isUndefined then none else some v)) = _
  rw [hg]
  show Except.ok (if v.isUndefined then none else some v) = _
  rw [hv]
  rfl

/-- Throw if the check finds a fault. -/
def throwIf (c : Prop) [Decidable c] (e : JsError) : Except JsError Unit :=
  if c then .error e else .ok ()

/-- The value, or the error where there is none. -/
def orThrow {α : Type} (o : Option α) (e : JsError) : Except JsError α :=
  match o with
  | some a => .ok a
  | none => .error e

/-- A check passes exactly if it finds no fault. -/
theorem throwIf_eq_ok {c : Prop} [Decidable c] {e : JsError} {u : Unit} :
    throwIf c e = .ok u ↔ ¬ c := by
  by_cases h : c <;> simp [throwIf, h]

/-- A conversion passes exactly if there is a value. -/
theorem orThrow_eq_ok {α : Type} {o : Option α} {e : JsError} {a : α} :
    orThrow o e = .ok a ↔ o = some a := by
  cases o <;> simp [orThrow]

/-- Inversion of a sequence that does not throw. -/
theorem bind_eq_ok {α β : Type} {x : Except JsError α} {f : α → Except JsError β} {b : β} :
    x >>= f = .ok b ↔ ∃ a, x = .ok a ∧ f a = .ok b := by
  cases x <;> simp [bind, Except.bind]

/-- What is made of the result of a sequence is made of its last part. -/
theorem map_bind_eq {α β γ : Type} (f : β → γ) (x : Except JsError α)
    (g : α → Except JsError β) : (x >>= g).map f = x >>= fun a ↦ (g a).map f := by
  cases x <;> rfl

/-- What is returned is the result. -/
theorem pure_eq_ok {α : Type} {a b : α} : (pure a : Except JsError α) = .ok b ↔ a = b := by
  simp [pure, Except.pure]

end VideoNode.Js
