/-!
# Shortest decimals

The fewest decimal digits that read back as a given binary floating-point number, and among those
the nearest to it. All comparisons are exact, on natural numbers.
-/

namespace ComponentDocs.Decimal

/-- The positive number `mantissa * 2 ^ exponent`. When `narrow` holds, the next smaller number is
half as far away as the next larger one. -/
structure Binary where
  mantissa : Nat
  exponent : Int
  narrow : Bool
  deriving DecidableEq, Repr

/-- The magnitude of a finite number, from its bits; zero has mantissa zero. -/
def Binary.ofBits (bits : Nat) : Binary :=
  let fraction := bits % Nat.pow 2 52
  let biased : Nat := bits / Nat.pow 2 52 % Nat.pow 2 11
  if biased = 0 then ⟨fraction, -1074, false⟩
  else ⟨Nat.pow 2 52 + fraction, Int.ofNat biased - 1075, fraction = 0 && 1 < biased⟩

/-- A quarter of the last binary place is the unit in which the number, and the ends of the
interval of reals that round to it, are whole. -/
def Binary.quarters (b : Binary) : Nat := 4 * b.mantissa

/-- The lower end of the interval, in quarters. -/
def Binary.lower (b : Binary) : Nat :=
  b.quarters - if b.narrow then 1 else 2

/-- The upper end of the interval, in quarters. -/
def Binary.upper (b : Binary) : Nat := b.quarters + 2

/-- A power with an exponent that counts as zero when it is negative. -/
def power (base : Nat) (exponent : Int) : Nat := base.pow exponent.toNat

/-- The grid of the multiples of `10 ^ place`: `x` quarters of `b` lie at `x * fine / coarse`. -/
structure Grid where
  fine : Nat
  coarse : Nat

/-- The grid of a decimal place against the quarters of a number. -/
def Binary.grid (b : Binary) (place : Int) : Grid :=
  let e := b.exponent - 2
  ⟨power 2 e * power 10 (-place), power 10 place * power 2 (-e)⟩

/-- Whether the grid point `d` lies in the interval that rounds to `b`; the ends belong to it when
the mantissa is even. -/
def Binary.holds (b : Binary) (g : Grid) (d : Nat) : Bool :=
  let x := d * g.coarse
  let low := b.lower * g.fine
  let high := b.upper * g.fine
  if b.mantissa % 2 = 0 then low ≤ x && x ≤ high else low < x && x < high

/-- The grid point next to `b` that reads back as `b`: of two the nearer, and the even one when
both are equally near. -/
def Binary.point? (b : Binary) (g : Grid) : Option Nat :=
  let x := b.quarters * g.fine
  let below := x / g.coarse
  let above := below + 1
  match b.holds g below, b.holds g above with
  | false, false => none
  | true, false => some below
  | false, true => some above
  | true, true =>
    let down := x - below * g.coarse
    let up := above * g.coarse - x
    if down < up || (down = up && below % 2 = 0) then some below else some above

def digitCount (n : Nat) : Nat := (Nat.toDigits 10 n).length

/-- The place of the first digit of a positive number. -/
def Binary.leadingPlace (b : Binary) : Int :=
  let g := b.grid 0
  let top := b.quarters * g.fine
  let guess : Int := (digitCount top : Int) - digitCount g.coarse
  if power 10 guess * g.coarse ≤ top * power 10 (-guess) then guess else guess - 1

/-- Decimal digits, the first of which stands at `place`. -/
structure Digits where
  digits : List Char
  place : Int
  deriving DecidableEq, Repr

/-- Digits of `d * 10 ^ place` without the zeros at their end. -/
def Digits.ofPoint (d : Nat) (place : Int) : Digits :=
  let all := Nat.toDigits 10 d
  ⟨(all.reverse.dropWhile (· = '0')).reverse, place + all.length - 1⟩

/-- Seventeen digits tell any two numbers apart, so one of the grids of one to seventeen digits has
a point that reads back. -/
def Binary.shortest (b : Binary) : Digits :=
  let lead := b.leadingPlace
  let found := (List.range 17).findSome? fun (n : Nat) =>
    let place := lead - n
    (b.point? (b.grid place)).map (·, place)
  match found with
  | some (d, place) => .ofPoint d place
  | none => ⟨['0'], 0⟩

end ComponentDocs.Decimal
