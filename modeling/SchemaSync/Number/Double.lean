/-! Floating point numbers of double precision as exact values: a number is an integer times a power
of two. Decimals are read to the nearest such number, and written with the fewest digits that read
back. -/

namespace SchemaSync

/-- A number of double precision: `mantissa * 2 ^ exponent` with a sign, an infinity, or no number
at all. -/
inductive Double
  | finite (negative : Bool) (mantissa : Nat) (exponent : Int)
  | infinite (negative : Bool)
  | undefined
  deriving DecidableEq, Repr

namespace Double

/-- Mantissas stay below two to this power. -/
def precision : Nat := 53

def minExponent : Int := -1074

def maxExponent : Int := 971

/-- The quotient `numerator / denominator / 2 ^ exponent` as a fraction. -/
def scale (numerator denominator : Nat) (exponent : Int) : Nat × Nat :=
  if exponent < 0 then (numerator * Nat.pow 2 (-exponent).toNat, denominator)
  else (numerator, denominator * Nat.pow 2 exponent.toNat)

/-- The integer nearest to a fraction; a half goes to the even neighbour. -/
def roundHalfEven (numerator denominator : Nat) : Nat :=
  let floor := numerator / denominator
  let twice := 2 * (numerator % denominator)
  if twice < denominator then floor
  else if denominator < twice then floor + 1
  else if floor % 2 == 0 then floor else floor + 1

/-- The number nearest to a positive fraction. -/
def ofFraction (negative : Bool) (numerator denominator : Nat) : Double :=
  if numerator == 0 then .finite negative 0 minExponent
  else
    let guess : Int := (numerator.log2 : Int) - denominator.log2 - precision
    let (top, bottom) := scale numerator denominator guess
    let whole := top / bottom
    -- The quotient has as many bits as a mantissa, or one more.
    let exponent := max (if whole < Nat.pow 2 precision then guess else guess + 1) minExponent
    let (top, bottom) := scale numerator denominator exponent
    let mantissa := roundHalfEven top bottom
    -- Rounding up may carry into another bit.
    let (mantissa, exponent) :=
      if mantissa < Nat.pow 2 precision then (mantissa, exponent) else (mantissa / 2, exponent + 1)
    if maxExponent < exponent then .infinite negative else .finite negative mantissa exponent

/-- No decimal whose leading digit stands this far from the point is between the smallest and the
largest number. -/
def decimalReach : Int := 400

/-- The number nearest to `digits * 10 ^ power`. -/
def ofDecimal (negative : Bool) (digits : Nat) (power : Int) : Double :=
  let lead : Int := (Nat.toDigits 10 digits).length + power
  if digits == 0 || lead < -decimalReach then .finite negative 0 minExponent
  else if decimalReach < lead then .infinite negative
  else if power < 0 then ofFraction negative digits (Nat.pow 10 (-power).toNat)
  else ofFraction negative (digits * Nat.pow 10 power.toNat) 1

/-- The number without its fraction, when it is finite. -/
def truncate? : Double → Option Int
  | .finite negative mantissa exponent =>
    let size : Nat :=
      if exponent < 0 then mantissa / Nat.pow 2 (-exponent).toNat
      else mantissa * Nat.pow 2 exponent.toNat
    some (if negative then -(size : Int) else size)
  | _ => none

def isZero : Double → Bool
  | .finite _ 0 _ => true
  | _ => false

/-- The two neighbours of a positive number on the grid of multiples of `10 ^ power`, as far as they
read back, the nearer one first. Of two that are equally near, the even one is first. -/
def gridNeighbours (value : Double) (mantissa : Nat) (exponent power : Int) : List Nat :=
  let (top, bottom) := scale mantissa 1 (-exponent)
  let (top, bottom) :=
    if power < 0 then (top * Nat.pow 10 (-power).toNat, bottom)
    else (top, bottom * Nat.pow 10 power.toNat)
  let floor := top / bottom
  let neighbours :=
    if roundHalfEven top bottom == floor then [floor, floor + 1] else [floor + 1, floor]
  neighbours.filter fun digits => ofDecimal false digits power == value

/-- The fewest digits that read back as a positive number, and the power of ten of the last one. Of
several candidates with as few digits the nearest is taken. `lead` is a power of ten that is not
below the number. -/
def shortestFrom (value : Double) (mantissa : Nat) (exponent lead : Int) (count left : Nat) :
    Nat × Int :=
  let power := lead - count
  match left with
  | 0 => ((gridNeighbours value mantissa exponent power).head?.getD 0, power)
  | left + 1 =>
    match gridNeighbours value mantissa exponent power with
    | digits :: _ => (digits, power)
    | [] => shortestFrom value mantissa exponent lead (count + 1) left

/-- The decimal form of a positive number: its digits without trailing zeros, and the power of ten
that the first digit is below. -/
def shortest (mantissa : Nat) (exponent : Int) : List Char × Int :=
  let (top, bottom) := scale mantissa 1 (-exponent)
  let lead : Int :=
    if bottom ≤ top then (Nat.toDigits 10 (top / bottom)).length
    else 1 - ((Nat.toDigits 10 (bottom / top)).length : Int)
  let (digits, power) := shortestFrom (.finite false mantissa exponent) mantissa exponent lead 1 18
  let chars := Nat.toDigits 10 digits
  let bare := (chars.reverse.dropWhile (· == '0')).reverse
  (bare, power + chars.length)

/-- How the decimal form is laid out: up to which place of the point it is written without an
exponent, and how many digits an exponent has at least. -/
structure Layout where
  leastPlace : Int
  greatestPlace : Int
  exponentDigits : Nat

/-- Numbers from `0.0001` up to sixteen digits before the point have no exponent. -/
def plainLayout : Layout := ⟨-3, 16, 2⟩

def layOut (layout : Layout) (digits : List Char) (place : Int) : List Char :=
  if layout.leastPlace ≤ place && place ≤ layout.greatestPlace then
    if place ≤ 0 then '0' :: '.' :: List.replicate (-place).toNat '0' ++ digits
    else
      let whole := digits.take place.toNat
      let fraction := digits.drop place.toNat
      whole ++ List.replicate (place.toNat - whole.length) '0' ++ '.' ::
        (if fraction.isEmpty then ['0'] else fraction)
  else
    let power := place - 1
    let powerDigits := Nat.toDigits 10 power.natAbs
    let point := match digits.drop 1 with
      | [] => []
      | fraction => '.' :: fraction
    digits.take 1 ++ point ++ 'e' :: (if power < 0 then '-' else '+') ::
      List.replicate (layout.exponentDigits - powerDigits.length) '0' ++ powerDigits

def text : Double → String
  | .undefined => "nan"
  | .infinite negative => if negative then "-inf" else "inf"
  | .finite negative 0 _ => if negative then "-0.0" else "0.0"
  | .finite negative (mantissa + 1) exponent =>
    let (digits, place) := shortest (mantissa + 1) exponent
    String.ofList ((if negative then ['-'] else []) ++ layOut plainLayout digits place)

end Double

end SchemaSync
