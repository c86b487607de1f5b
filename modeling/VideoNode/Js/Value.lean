import Mathlib.Algebra.Group.Int.Defs
import Mathlib.Algebra.Group.Nat.Defs
import Mathlib.Data.Rat.Defs

/-!
# JavaScript values

The part of the language the library reads its arguments with: `typeof`, `Number.isInteger`,
comparison of numbers and property reads without side effects. A thrown error keeps the value
its message interpolates, since `String(v)` is the only use the code makes of it.
-/

namespace VideoNode.Js

/-- A number; the finite ones are taken exactly. -/
inductive JsNumber where
  | nan
  | infinity (negative : Bool)
  | finite (value : ℚ)
  deriving DecidableEq

/-- A value; `props` are the own properties of an object, and a `Buffer` is an object that is
read through its bytes. A string is its text: what the code does with one is compare it with
a literal, measure it in UTF-8 or show it. -/
inductive JsValue where
  | undefined
  | null
  | boolean (b : Bool)
  | number (n : JsNumber)
  | string (s : String)
  | symbol (description : String)
  | bigint (i : Int)
  | function
  | object (props : List (String × JsValue))
  | buffer (bytes : List UInt8)

/-- The constructors of error the library throws. -/
inductive ErrorKind where
  | error
  | typeError
  | rangeError
  deriving DecidableEq, Repr

/-- A thrown error; `got` is interpolated behind the text when present. -/
structure JsError where
  kind : ErrorKind
  message : String
  got : Option JsValue

/-- `Number.isInteger`, with the integer. -/
def JsNumber.isInteger : JsNumber → Option Int
  | .finite q => if q.den = 1 then some q.num else none
  | .nan | .infinity _ => none

/-- A property read; an absent property reads as `undefined`. -/
def JsValue.get (v : JsValue) (key : String) : JsValue :=
  match v with
  | .object props => (props.lookup key).getD .undefined
  | _ => .undefined

/-- `v ?? d`. -/
def JsValue.orElse (v d : JsValue) : JsValue :=
  match v with
  | .undefined | .null => d
  | v => v

/-- `v === undefined`. -/
def JsValue.isUndefined : JsValue → Bool
  | .undefined => true
  | _ => false

/-- `v !== null && typeof v === 'object'`. -/
def JsValue.isObject : JsValue → Bool
  | .object _ | .buffer _ => true
  | _ => false

/-- A number the code computed itself. -/
def JsValue.ofNat (n : Nat) : JsValue := .number (.finite n)

/-- A natural number is an integer to `Number.isInteger`. -/
@[simp] theorem JsNumber.isInteger_natCast (n : Nat) :
    (JsNumber.finite n).isInteger = some (n : Int) := by
  simp [isInteger]

end VideoNode.Js
