import SchemaSync.Text.Digit

/-! Integers given to options. Their digits are those of ASCII; any number of zeros may stand before
the first digit that counts, or before a minus sign, and a fraction may follow that is zero. -/

namespace SchemaSync.CommandLine

/-- Zeros, and the underscores among them, count for nothing where a numeral starts with them. -/
def isPadding (c : Char) : Bool :=
  c == '0' || c == '_'

/-- A numeral without the zeros that it starts with. The last of them stays if nothing follows, or
only a fraction. -/
def unpadded (numeral : List Char) : List Char :=
  if numeral.head? == some '0' then
    match numeral.dropWhile isPadding with
    | [] | '.' :: _ => numeral.drop ((numeral.takeWhile isPadding).length - 1)
    | rest => rest
  else numeral

/-- What stands before the point of a numeral. What stands after it has to be zeros. -/
def wholePart? (numeral : List Char) : Option (List Char) :=
  match numeral.dropWhile (· != '.') with
  | [] => some numeral
  | _ :: fraction =>
    if !fraction.isEmpty && fraction.all (· == '0') then some (numeral.takeWhile (· != '.'))
    else none

/-- A text without its underscores, which have to stand singly and at neither end. -/
def withoutUnderscores? (cs : List Char) : Option (List Char) :=
  let pieces := Text.piecesAt '_' cs
  if pieces.length == 1 || pieces.all (!·.isEmpty) then some pieces.flatten else none

/-- ASCII digits, of which only a single one may be a zero at the start. -/
def plainDigits? (cs : List Char) : Option (List Nat) :=
  if cs.all Char.isDigit && (cs.head? != some '0' || cs.length == 1) then Text.numeralDigits? cs
  else none

/-- An integer, with an optional sign and white space around. There is one sign at most, and a minus
sign may stand after the zeros that count for nothing. At most `Text.maxNumeralDigits` digits
count. -/
def wholeNumber? (cs : List Char) : Option Int := do
  let (negative, numeral) := Text.splitSign (Text.bareNumeral cs)
  let plain ← withoutUnderscores? (← wholePart? (unpadded numeral))
  let late := plain.head? == some '-'
  if late && (negative || numeral.head? == some '-') then none
  else
    let digits ← plainDigits? (if late then plain.drop 1 else plain)
    if digits.length ≤ Text.maxNumeralDigits then
      let number : Int := Text.numberOfDigits digits
      return if negative || late then -number else number
    else none

end SchemaSync.CommandLine
