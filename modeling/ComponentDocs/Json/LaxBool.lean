import ComponentDocs.Decimal.Number
import ComponentDocs.Json.Basic

/-!
# Values that mean yes or no

Besides the two truth values, the numbers one and zero and a few words count as one. Words are read
without regard to the case of ASCII letters.
-/

namespace ComponentDocs.Json

/-- Why a value means neither yes nor no. -/
inductive BoolFault where
  /-- A text or a whole number that could be one, but is none of the known ones. -/
  | unknown
  /-- A value that cannot be one. -/
  | unfit
  deriving DecidableEq, Repr

def yesWords : List String := ["1", "on", "t", "true", "y", "yes"]

def noWords : List String := ["0", "off", "f", "false", "n", "no"]

def lowerAscii (s : String) : String :=
  String.ofList (s.toList.map Char.toLower)

/-- Whether an integer fits into sixty-four bits with a sign. -/
def fitsWord (n : Int) : Bool :=
  -Int.pow 2 63 ≤ n && n < Int.pow 2 63

/-- The truth value that a whole number means. -/
def intToBool (n : Int) : Except BoolFault Bool :=
  if n = 0 then .ok false
  else if n = 1 then .ok true
  else .error .unknown

/-- The truth value that a value means. A floating-point number counts as the whole number that it
is, if its magnitude fits into sixty-three bits. -/
def toBool : Json → Except BoolFault Bool
  | .bool b => .ok b
  | .int n => if fitsWord n then intToBool n else .error .unfit
  | .float x =>
    match Decimal.integer? x with
    | some n => if n.natAbs < Nat.pow 2 63 then intToBool n else .error .unfit
    | none => .error .unfit
  | .str s =>
    let word := lowerAscii s
    if noWords.contains word then .ok false
    else if yesWords.contains word then .ok true
    else .error .unknown
  | _ => .error .unfit

end ComponentDocs.Json
