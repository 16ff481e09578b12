/-!
# JSON values

A JSON document as a tree. Integers of any size and floating-point numbers are told apart, and the
members of an object stay in their order.
-/

namespace ComponentDocs

inductive Json where
  | null
  | bool (b : Bool)
  | int (n : Int)
  | float (x : Float)
  | str (s : String)
  | arr (items : List Json)
  | obj (members : List (String × Json))
  deriving Inhabited

namespace Json

mutual

/-- Equality of documents, order of members included; floating-point numbers are equal when their
bits are. -/
def beq : Json → Json → Bool
  | .null, .null => true
  | .bool a, .bool b => a == b
  | .int a, .int b => a == b
  | .float a, .float b => a.toBits == b.toBits
  | .str a, .str b => a == b
  | .arr a, .arr b => beqItems a b
  | .obj a, .obj b => beqMembers a b
  | _, _ => false

def beqItems : List Json → List Json → Bool
  | [], [] => true
  | a :: as, b :: bs => beq a b && beqItems as bs
  | _, _ => false

def beqMembers : List (String × Json) → List (String × Json) → Bool
  | [], [] => true
  | (k, a) :: as, (l, b) :: bs => k == l && beq a b && beqMembers as bs
  | _, _ => false

end

instance : BEq Json := ⟨beq⟩

/-- A string, or null where there is none. -/
def ofString? (s : Option String) : Json :=
  match s with
  | some s => .str s
  | none => .null

def ofStrings (items : List String) : Json :=
  .arr (items.map .str)

/-- The members to add for an optional value: none of them when it is absent. -/
def member? {α : Type} (key : String) (toJson : α → Json) : Option α → List (String × Json)
  | some a => [(key, toJson a)]
  | none => []

end Json

end ComponentDocs
