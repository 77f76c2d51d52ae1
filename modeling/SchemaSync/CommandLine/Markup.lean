/-! The markup of a plain terminal. A tag stands in square brackets. Texts that are not markup are
escaped, so that what looks like a tag in them is shown as it is. -/

namespace SchemaSync.CommandLine

def startsTag (c : Char) : Bool :=
  ('a' ≤ c && c ≤ 'z') || c == '#' || c == '/' || c == '@'

/-- How many characters of a text are inside a tag up to and with its closing bracket. -/
def tagLength? (cs : List Char) : Option Nat :=
  match cs with
  | [] => none
  | c :: rest =>
    if c == ']' then some 1
    else if c == '[' then none
    else (tagLength? rest).map (· + 1)

def frontTag? (cs : List Char) : Option Nat :=
  match cs with
  | '[' :: c :: rest => if startsTag c then (tagLength? rest).map (· + 2) else none
  | _ => none

/-- Escapes a text of which `skip` characters belong to a tag that is written already. Backslashes
before a tag are doubled, and the tag gets one more. -/
def escapeFrom (skip : Nat) (cs : List Char) : List Char :=
  match cs with
  | [] => []
  | c :: rest =>
    match skip with
    | skip + 1 => c :: escapeFrom skip rest
    | 0 =>
      let slashes := (c :: rest).takeWhile (· == '\\')
      match frontTag? ((c :: rest).drop slashes.length) with
      | some length =>
        slashes ++ ['\\'] ++ c :: escapeFrom (slashes.length + length - 1) rest
      | none => c :: escapeFrom 0 rest

/-- A text whose last backslash cannot escape what is put behind it. -/
def closeSlash (cs : List Char) : List Char :=
  match cs.reverse with
  | ['\\'] => cs ++ ['\\']
  | '\\' :: c :: _ => if c == '\\' then cs else cs ++ ['\\']
  | _ => cs

def escape (text : String) : String :=
  String.ofList (closeSlash (escapeFrom 0 text.toList))

end SchemaSync.CommandLine
