import HostDecl.Binary64
import HostDecl.Text.Basic

/-!
# JSON values

The values of JSON documents. The members of an object keep the order in which their keys first
appeared; whole numbers and binary64 numbers are told apart.
-/

namespace HostDecl

/-- A JSON value. -/
inductive Json where
  /-- The word `null`. -/
  | null
  /-- A truth value. -/
  | bool (value : Bool)
  /-- A number written without fraction and exponent. -/
  | int (value : Int)
  /-- Any other number. -/
  | float (value : Binary64)
  /-- A text. -/
  | str (text : Text)
  /-- An array. -/
  | arr (items : List Json)
  /-- An object. -/
  | obj (members : List (Text × Json))
  deriving Repr, Inhabited

namespace Json

/-- The members of an object after `key` was given a value: a key that is there keeps its place and
takes the new value. -/
def put (key : Text) (value : Json) : List (Text × Json) → List (Text × Json)
  | [] => [(key, value)]
  | (k, v) :: rest => if k = key then (k, value) :: rest else (k, v) :: put key value rest

/-- The value of a key. -/
def member? (key : Text) : List (Text × Json) → Option Json
  | [] => none
  | (k, v) :: rest => if k = key then some v else member? key rest

/-- The word for the kind of value, as messages give it. -/
def kindWord : Json → String
  | .null => "NoneType"
  | .bool _ => "bool"
  | .int _ => "int"
  | .float _ => "float"
  | .str _ => "str"
  | .arr _ => "list"
  | .obj _ => "dict"

/-- What is put under a key is found there. -/
theorem member?_put (key : Text) (value : Json) (members : List (Text × Json)) (other : Text) :
    member? other (put key value members) = if key = other then some value else member? other members := by
  induction members with
  | nil => simp [put, member?]
  | cons entry rest ih =>
    obtain ⟨k, v⟩ := entry
    by_cases same : k = key <;> by_cases found : k = other <;> grind [put, member?]

/-- The keys after a put: a new key comes last. -/
theorem keys_put (key : Text) (value : Json) (members : List (Text × Json)) :
    (put key value members).map Prod.fst =
      if key ∈ members.map Prod.fst then members.map Prod.fst else members.map Prod.fst ++ [key] := by
  induction members with
  | nil => simp [put]
  | cons entry rest ih =>
    obtain ⟨k, v⟩ := entry
    by_cases same : k = key <;> grind [put]

end Json

end HostDecl
