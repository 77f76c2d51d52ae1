import SchemaSync.Number.Double
import SchemaSync.Text.Digit

/-! JSON texts, as far as settings files need them: reading with the place of the first fault.
Numbers that are not finite may be written by name. Members keep the place of their first
occurrence and the value of the last. -/

namespace SchemaSync

inductive Json
  | null
  | bool (value : Bool)
  | int (value : Int)
  | float (value : Double)
  | string (value : String)
  | array (items : List Json)
  | object (members : List (String × Json))
  deriving Repr

namespace Json

/-- What a text lacks or has wrongly at its first fault. -/
inductive Fault
  | byteOrderMark
  | value
  | propertyName
  | colon
  | comma
  | unterminatedString
  | controlCharacter
  | escape
  | unicodeEscape
  | extraData
  deriving DecidableEq, Repr

def Fault.describe : Fault → String
  | .byteOrderMark => "Unexpected UTF-8 BOM (decode using utf-8-sig)"
  | .value => "Expecting value"
  | .propertyName => "Expecting property name enclosed in double quotes"
  | .colon => "Expecting ':' delimiter"
  | .comma => "Expecting ',' delimiter"
  | .unterminatedString => "Unterminated string starting at"
  | .controlCharacter => "Invalid control character at"
  | .escape => "Invalid \\escape"
  | .unicodeEscape => "Invalid \\uXXXX escape"
  | .extraData => "Extra data"

/-- Why a text gives no value. A fault is placed by the characters that are left there. -/
inductive Failure
  | malformed (fault : Fault) (left : Nat)
  | longNumeral
  | tooDeep
  deriving DecidableEq, Repr

def isSpace (c : Char) : Bool :=
  c == ' ' || c == '\t' || c == '\n' || c == '\r'

def skipSpace (cs : List Char) : List Char :=
  cs.dropWhile isSpace

def hexValue? (c : Char) : Option Nat :=
  if c.isDigit then some (c.toNat - 48)
  else if 'a' ≤ c && c ≤ 'f' then some (c.toNat - 87)
  else if 'A' ≤ c && c ≤ 'F' then some (c.toNat - 55)
  else none

/-- The number of four hexadecimal digits at the front of a text that has more than four
characters. -/
def fourHex? (cs : List Char) : Option Nat :=
  match cs with
  | a :: b :: c :: d :: _ :: _ => do
    return (← hexValue? a) * 4096 + (← hexValue? b) * 256 + (← hexValue? c) * 16 + (← hexValue? d)
  | _ => none

def shortEscape? (c : Char) : Option Char :=
  match c with
  | '"' => some '"'
  | '\\' => some '\\'
  | '/' => some '/'
  | 'b' => some '\x08'
  | 'f' => some '\x0c'
  | 'n' => some '\n'
  | 'r' => some '\r'
  | 't' => some '\t'
  | _ => none

def joinSurrogates (high low : Nat) : Nat :=
  0x10000 + (high - 0xD800) * 0x400 + (low - 0xDC00)

/-- A code point as a character; a surrogate alone has none. -/
def charOf (point : Nat) : Char :=
  if 0xD800 ≤ point && point < 0xE000 then '\uFFFD' else Char.ofNat point

/-- The second half of a pair of surrogates at the front of a text: none if another escape or no
escape stands there, and a fault if its digits are wrong. -/
def lowSurrogate? (cs : List Char) : Except Failure (Option Nat) :=
  match cs with
  | '\\' :: 'u' :: rest =>
    if rest.length ≤ 4 then .ok none
    else match fourHex? rest with
      | none => .error (.malformed .unicodeEscape (rest.length + 1))
      | some low => .ok (if 0xDC00 ≤ low && low < 0xE000 then some low else none)
  | _ => .ok none

/-- Reads a string after its opening quotation mark, which had `start` characters left. -/
def stringBody (start : Nat) (skip : Nat) (cs : List Char) :
    Except Failure (List Char × List Char) :=
  match cs, skip with
  | [], _ => .error (.malformed .unterminatedString start)
  | _ :: rest, skip + 1 => stringBody start skip rest
  | '"' :: rest, 0 => .ok ([], rest)
  | ['\\'], 0 => .error (.malformed .unterminatedString start)
  | '\\' :: 'u' :: rest, 0 => do
    match fourHex? rest with
    | none => .error (.malformed .unicodeEscape (rest.length + 1))
    | some point =>
      let low ← if 0xD800 ≤ point && point < 0xDC00 then lowSurrogate? (rest.drop 4) else .ok none
      let (c, skip) := match low with
        | some low => (charOf (joinSurrogates point low), 10)
        | none => (charOf point, 4)
      let (body, rest) ← stringBody start skip rest
      .ok (c :: body, rest)
  | '\\' :: e :: rest, 0 =>
    match shortEscape? e with
    | none => .error (.malformed .escape (rest.length + 2))
    | some c => do
      let (body, rest) ← stringBody start 0 rest
      .ok (c :: body, rest)
  | c :: rest, 0 =>
    if c.toNat < 0x20 then .error (.malformed .controlCharacter (rest.length + 1))
    else do
      let (body, rest) ← stringBody start 0 rest
      .ok (c :: body, rest)

def spanDigits (cs : List Char) : List Char × List Char :=
  (cs.takeWhile Char.isDigit, cs.dropWhile Char.isDigit)

def natOf (digits : List Char) : Nat :=
  digits.foldl (fun n d => n * 10 + (d.toNat - 48)) 0

def spanFraction (cs : List Char) : List Char × List Char :=
  match cs with
  | '.' :: rest =>
    let (digits, after) := spanDigits rest
    if digits.isEmpty then ([], cs) else (digits, after)
  | _ => ([], cs)

def spanExponent (cs : List Char) : Option Int × List Char :=
  match cs with
  | e :: rest =>
    if e == 'e' || e == 'E' then
      let (negative, numeral) := match rest with
        | '-' :: r => (true, r)
        | '+' :: r => (false, r)
        | r => (false, r)
      let (digits, after) := spanDigits numeral
      if digits.isEmpty then (none, cs)
      else
        let n : Int := natOf digits
        (some (if negative then -n else n), after)
    else (none, cs)
  | [] => (none, cs)

def number (cs : List Char) : Except Failure (Json × List Char) :=
  let (negative, unsigned) := match cs with
    | '-' :: rest => (true, rest)
    | rest => (false, rest)
  let (whole, afterWhole) := match unsigned with
    | '0' :: rest => (['0'], rest)
    | rest => spanDigits rest
  if whole.isEmpty then .error (.malformed .value cs.length)
  else
    let (fraction, afterFraction) := spanFraction afterWhole
    let (exponent, rest) := spanExponent afterFraction
    if fraction.isEmpty && exponent.isNone then
      if Text.maxNumeralDigits < whole.length then .error .longNumeral
      else
        let n : Int := natOf whole
        .ok (.int (if negative then -n else n), rest)
    else
      let digits := natOf (whole ++ fraction)
      .ok (.float (Double.ofDecimal negative digits (exponent.getD 0 - fraction.length)), rest)

/-- The values that are written by name. -/
def named : List (List Char × Json) := [
  ("null".toList, .null), ("true".toList, .bool true), ("false".toList, .bool false),
  ("NaN".toList, .float .undefined), ("Infinity".toList, .float (.infinite false)),
  ("-Infinity".toList, .float (.infinite true))]

/-- Sets a member: in its old place when the name is there already, else at the end. -/
def setMember (name : String) (value : Json) (members : List (String × Json)) :
    List (String × Json) :=
  match members with
  | [] => [(name, value)]
  | member :: rest =>
    if member.1 == name then (name, value) :: rest else member :: setMember name value rest

mutual

/-- Reads a value. `fuel` bounds the steps and `depth` the arrays and objects inside each other. -/
def value (fuel depth : Nat) (cs : List Char) : Except Failure (Json × List Char) :=
  match fuel with
  | 0 => .error .tooDeep
  | fuel + 1 =>
    match cs with
    | '"' :: rest => do
      let (body, rest) ← stringBody cs.length 0 rest
      .ok (.string (String.ofList body), rest)
    | '{' :: rest =>
      match depth with
      | 0 => .error .tooDeep
      | depth + 1 =>
        match skipSpace rest with
        | '}' :: rest => .ok (.object [], rest)
        | rest => members fuel depth [] rest
    | '[' :: rest =>
      match depth with
      | 0 => .error .tooDeep
      | depth + 1 =>
        match skipSpace rest with
        | ']' :: rest => .ok (.array [], rest)
        | rest => items fuel depth [] rest
    | cs =>
      match named.find? (·.1.isPrefixOf cs) with
      | some (name, value) => .ok (value, cs.drop name.length)
      | none => number cs

/-- Reads the members of an object from a name on, after those that have been read. -/
def members (fuel depth : Nat) (read : List (String × Json)) (cs : List Char) :
    Except Failure (Json × List Char) :=
  match fuel with
  | 0 => .error .tooDeep
  | fuel + 1 =>
    match cs with
    | '"' :: rest => do
      let (name, rest) ← stringBody cs.length 0 rest
      match skipSpace rest with
      | ':' :: rest =>
        let (member, rest) ← value fuel depth (skipSpace rest)
        let read := setMember (String.ofList name) member read
        match skipSpace rest with
        | '}' :: rest => .ok (.object read, rest)
        | ',' :: rest => members fuel depth read (skipSpace rest)
        | rest => .error (.malformed .comma rest.length)
      | rest => .error (.malformed .colon rest.length)
    | cs => .error (.malformed .propertyName cs.length)

/-- Reads the items of an array from one on, after those that have been read, last first. -/
def items (fuel depth : Nat) (read : List Json) (cs : List Char) :
    Except Failure (Json × List Char) :=
  match fuel with
  | 0 => .error .tooDeep
  | fuel + 1 => do
    let (item, rest) ← value fuel depth cs
    match skipSpace rest with
    | ']' :: rest => .ok (.array (item :: read).reverse, rest)
    | ',' :: rest => items fuel depth (item :: read) (skipSpace rest)
    | rest => .error (.malformed .comma rest.length)

end

/-- Reads a text that holds one value. `maxDepth` is how many arrays and objects may stand inside
each other, for which the caller has room. -/
def parse (maxDepth : Nat) (cs : List Char) : Except Failure Json :=
  if cs.head? == some '\uFEFF' then .error (.malformed .byteOrderMark cs.length)
  else do
    let (json, rest) ← value (2 * cs.length + 2) maxDepth (skipSpace cs)
    match skipSpace rest with
    | [] => .ok json
    | rest => .error (.malformed .extraData rest.length)

/-- A fault with its place in the text: line and column count from one, the character from zero. -/
def placedFault (cs : List Char) (fault : Fault) (left : Nat) : String :=
  let before := cs.take (cs.length - left)
  let column := (before.reverse.takeWhile (· != '\n')).length + 1
  fault.describe ++ ": line " ++ toString (before.count '\n' + 1) ++ " column " ++
    toString column ++ " (char " ++ toString before.length ++ ")"

end Json

end SchemaSync
