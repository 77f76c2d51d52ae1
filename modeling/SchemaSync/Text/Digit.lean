import SchemaSync.Text.Blank

/-! Decimal numerals in any script: the digits of Unicode 14, and integers written with them. -/

namespace SchemaSync.Text

/-- The zeros above ASCII; each is followed by the other nine digits of its script. -/
def digitZeros : List Nat := [
  1632, 1776, 1984, 2406, 2534, 2662, 2790, 2918, 3046, 3174, 3302, 3430, 3558, 3664, 3792, 3872,
  4160, 4240, 6112, 6160, 6470, 6608, 6784, 6800, 6992, 7088, 7232, 7248, 42528, 43216, 43264,
  43472, 43504, 43600, 44016, 65296, 66720, 68912, 69734, 69872, 69942, 70096, 70384, 70736,
  70864, 71248, 71360, 71472, 71904, 72016, 72784, 73040, 73120, 92768, 92864, 93008, 120782,
  120792, 120802, 120812, 120822, 123200, 123632, 125264, 130032]

def digitValue? (c : Char) : Option Nat :=
  if c.toNat < 128 then if c.isDigit then some (c.toNat - 48) else none
  else (digitZeros.find? fun start => start ≤ c.toNat && c.toNat < start + 10).map (c.toNat - ·)

/-- The digits of a numeral, in which single underscores may stand between digits. -/
def numeralDigits? (cs : List Char) : Option (List Nat) :=
  match cs with
  | [] => none
  | [c] => (digitValue? c).map ([·])
  | c :: '_' :: rest => do return (← digitValue? c) :: (← numeralDigits? rest)
  | c :: rest => do return (← digitValue? c) :: (← numeralDigits? rest)

/-- The longest numeral that is read as an integer, leading zeros included. -/
def maxNumeralDigits : Nat := 4300

def numberOfDigits (digits : List Nat) : Nat :=
  digits.foldl (fun number digit => number * 10 + digit) 0

/-- White space that may stand around a numeral. The control characters that separate fields may
not. -/
def isNumeralSpace (c : Char) : Bool :=
  isBlank c && !(28 ≤ c.toNat && c.toNat ≤ 31)

def bareNumeral (cs : List Char) : List Char :=
  (((cs.dropWhile isNumeralSpace).reverse).dropWhile isNumeralSpace).reverse

/-- Whether a bare numeral starts with a minus sign, and what follows its sign, if it has one. -/
def splitSign (numeral : List Char) : Bool × List Char :=
  match numeral with
  | '-' :: rest => (true, rest)
  | '+' :: rest => (false, rest)
  | rest => (false, rest)

/-- An integer of at most `maxNumeralDigits` digits, with an optional sign and white space around.
-/
def intOfChars? (cs : List Char) : Option Int := do
  let (negative, numeral) := splitSign (bareNumeral cs)
  let digits ← numeralDigits? numeral
  if digits.length ≤ maxNumeralDigits then
    let number : Int := numberOfDigits digits
    return if negative then -number else number
  else none

end SchemaSync.Text
