import Mathlib.Data.Int.Cast.Defs

/-!
Documents in the form the parser hands them over, and the typed reading of their values. A
character of a string stands for a byte. An error is the text of the exception.
-/

namespace EnerSentry.Sim

/-- A parsed document. The keys of an object are distinct; numbers without a fraction are kept apart. -/
inductive Json (K : Type) where
  | null
  | boolean (b : Bool)
  | integer (i : Int)
  | float (x : K)
  | string (s : String)
  | array (elements : List (Json K))
  | object (members : List (String × Json K))

namespace Json
variable {K : Type}

def typeName : Json K → String
  | .null => "null"
  | .boolean _ => "boolean"
  | .integer _ => "number"
  | .float _ => "number"
  | .string _ => "string"
  | .array _ => "array"
  | .object _ => "object"

def member (j : Json K) (key : String) : Option (Json K) :=
  match j with
  | .object members => (members.find? (·.1 == key)).map (·.2)
  | _ => none

def mismatch {A : Type} (wanted : String) (j : Json K) : Except String A :=
  .error ("[json.exception.type_error.302] type must be " ++ wanted ++ ", but is " ++ j.typeName)

def value {A : Type} (j : Json K) (key : String) (otherwise : A) (get : Json K → Except String A) :
    Except String A :=
  match j with
  | .object _ =>
      match j.member key with
      | some v => get v
      | none => .ok otherwise
  | _ => .error ("[json.exception.type_error.306] cannot use value() with " ++ j.typeName)

def getString : Json K → Except String String
  | .string s => .ok s
  | j => mismatch "string" j

def getNumber [IntCast K] : Json K → Except String K
  | .integer i => .ok i
  | .float x => .ok x
  | j => mismatch "number" j

def getInt64 (truncate : K → Int) : Json K → Except String Int64
  | .integer i => .ok (Int64.ofInt i)
  | .float x => .ok (Int64.ofInt (truncate x))
  | j => mismatch "number" j

/-- Unlike the wider integers an `int` is also read from a truth value. -/
def getInt (truncate : K → Int) : Json K → Except String Int32
  | .integer i => .ok (Int32.ofInt i)
  | .float x => .ok (Int32.ofInt (truncate x))
  | .boolean b => .ok (if b then 1 else 0)
  | j => mismatch "number" j

theorem bind_eq_ok {A B : Type} {x : Except String A} {f : A → Except String B} {b : B} :
    (x >>= f) = .ok b ↔ ∃ a, x = .ok a ∧ f a = .ok b := by
  cases x with
  | error what => simp [bind, Except.bind]
  | ok a => simp [bind, Except.bind]

end Json

end EnerSentry.Sim
