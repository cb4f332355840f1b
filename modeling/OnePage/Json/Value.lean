import OnePage.Keyed

/-!
# JSON values

* `Value` is a JSON document after reading. Whole numbers keep every digit, all others are doubles;
  strings may hold surrogates; objects keep their members in order (see `OnePage.Keyed`).
* `Value.depth` counts how many arrays and objects lie inside each other.
* `KindFault` is the complaint about a value of the wrong kind.
-/

namespace OnePage

namespace Json

/-- A number, whole if it was written without fraction and exponent. -/
inductive Number where
  /-- A whole number of any size. -/
  | whole (n : Int)
  /-- A double. -/
  | real (x : Float)
deriving DecidableEq

/-- The double that stands for a number. -/
def Number.toFloat : Number → Float
  | .whole n => Float.ofInt n
  | .real x => x

/-- A JSON value. -/
inductive Value where
  /-- The value `null`. -/
  | null
  /-- A truth value. -/
  | bool (b : Bool)
  /-- A number. -/
  | number (n : Number)
  /-- A string. -/
  | string (text : Text)
  /-- An array. -/
  | array (items : List Value)
  /-- An object, as its members in order. -/
  | object (members : List (Text × Value))

namespace Value

/-- Whether the value is an array or an object. -/
def isContainer : Value → Bool
  | array _ | object _ => true
  | _ => false

mutual

/-- How many containers lie inside each other, the value itself included. -/
def depth : Value → Nat
  | array items => depthOfItems items + 1
  | object members => depthOfMembers members + 1
  | _ => 0

/-- The depth of the deepest item. -/
def depthOfItems : List Value → Nat
  | [] => 0
  | item :: items => max (depth item) (depthOfItems items)

/-- The depth of the deepest member. -/
def depthOfMembers : List (Text × Value) → Nat
  | [] => 0
  | (_, value) :: members => max (depth value) (depthOfMembers members)

end

/-- The word messages use for the kind of a value. -/
def kind : Value → Text
  | null => "NoneType"
  | bool _ => "bool"
  | number (.whole _) => "int"
  | number (.real _) => "float"
  | string _ => "str"
  | array _ => "list"
  | object _ => "dict"

end Value

/-- A value of one kind was given where another was wanted. -/
structure KindFault where
  /-- What the value was given for. -/
  subject : Text
  /-- The kind that was wanted. -/
  wanted : Text
  /-- The kind that was given. -/
  found : Text
deriving DecidableEq

/-- The words for a value of the wrong kind. -/
def KindFault.message (fault : KindFault) : Text :=
  fault.subject ++ " must be " ++ fault.wanted ++ ", got " ++ fault.found

end Json

end OnePage
