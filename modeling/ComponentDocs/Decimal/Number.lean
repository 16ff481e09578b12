import ComponentDocs.Decimal.Shortest

/-!
# The text of a number

Floating-point numbers are written with their shortest digits: positionally when the first digit
stands between the fifth place after the point and the sixteenth before it, else with an exponent.
A number without a fraction keeps `.0`. Numbers without a fraction are also read as integers.
-/

namespace ComponentDocs.Decimal

/-- The text of an exponent: a sign and at least two digits. -/
def exponentText (e : Int) : List Char :=
  let digits := Nat.toDigits 10 e.natAbs
  (if e < 0 then '-' else '+') :: (if digits.length < 2 then '0' :: digits else digits)

/-- Write digits with a point, or with an exponent when their first place is below `-4` or above
`15`. -/
def Digits.text (d : Digits) : List Char :=
  if d.place < -4 ∨ 15 < d.place then
    match d.digits with
    | [] => []
    | [c] => c :: 'e' :: exponentText d.place
    | c :: rest => c :: '.' :: rest ++ 'e' :: exponentText d.place
  else if d.place < 0 then
    '0' :: '.' :: List.replicate (-d.place - 1).toNat '0' ++ d.digits
  else
    let whole := d.place.toNat + 1
    if d.digits.length ≤ whole then
      d.digits ++ List.replicate (whole - d.digits.length) '0' ++ ['.', '0']
    else
      d.digits.take whole ++ '.' :: d.digits.drop whole

/-- How the values that are no numbers are spelled. -/
structure Spelling where
  nan : String
  infinity : String

def Spelling.plain : Spelling := ⟨"nan", "inf"⟩

def Spelling.json : Spelling := ⟨"NaN", "Infinity"⟩

def text (spelling : Spelling) (x : Float) : String :=
  let bits := x.toBits.toNat
  let sign := if bits < Nat.pow 2 63 then "" else "-"
  if bits / Nat.pow 2 52 % Nat.pow 2 11 = 2047 then
    if bits % Nat.pow 2 52 = 0 then sign ++ spelling.infinity else spelling.nan
  else
    let b := Binary.ofBits bits
    if b.mantissa = 0 then sign ++ "0.0"
    else sign ++ String.ofList b.shortest.text

/-- The integer that a magnitude is, when it has no fraction. -/
def Binary.whole? (b : Binary) : Option Nat :=
  let fine := power 2 (-b.exponent)
  if b.mantissa % fine = 0 then some (b.mantissa * power 2 b.exponent / fine) else none

/-- The integer that a floating-point number is, when it is finite and has no fraction. -/
def integer? (x : Float) : Option Int :=
  let bits := x.toBits.toNat
  if bits / Nat.pow 2 52 % Nat.pow 2 11 = 2047 then none
  else
    (Binary.ofBits bits).whole?.map fun (n : Nat) =>
      if bits < Nat.pow 2 63 then (n : Int) else -n

/-- The floating-point number nearest to `mantissa * 10 ^ exponent`. Exponents far outside the range
of the format give zero or infinity without raising ten to them. -/
def nearest (mantissa : Nat) (exponent : Int) : Float :=
  if mantissa = 0 then 0
  else
    let lead := exponent + digitCount mantissa
    if 400 < lead then 1 / 0
    else if lead < -400 then 0
    else .ofScientific mantissa (decide (exponent < 0)) exponent.natAbs

end ComponentDocs.Decimal
