/-! UTF-8: writing characters as bytes, and reading bytes back either strictly or with one
replacement character for each part that cannot be read. -/

namespace SchemaSync.Text.Utf8

def encodeChar (c : Char) : List UInt8 :=
  let n := c.toNat
  if n < 0x80 then [n.toUInt8]
  else if n < 0x800 then [(0xC0 + n / 0x40).toUInt8, (0x80 + n % 0x40).toUInt8]
  else if n < 0x10000 then
    [(0xE0 + n / 0x1000).toUInt8, (0x80 + n / 0x40 % 0x40).toUInt8, (0x80 + n % 0x40).toUInt8]
  else
    [(0xF0 + n / 0x40000).toUInt8, (0x80 + n / 0x1000 % 0x40).toUInt8,
      (0x80 + n / 0x40 % 0x40).toUInt8, (0x80 + n % 0x40).toUInt8]

def encode (cs : List Char) : List UInt8 :=
  cs.flatMap encodeChar

inductive Fault
  | invalidStart
  | invalidContinuation
  | endOfData
  deriving DecidableEq, Repr

/-- What stands at the front of some bytes: a character, or a faulty part of some length. -/
inductive Front
  | char (c : Char) (width : Nat)
  | fault (reason : Fault) (width : Nat)
  deriving DecidableEq, Repr

/-- The second bytes that may follow a first byte of a longer sequence; the narrower ranges keep
out overlong forms, surrogates and numbers past the last code point. -/
def secondRange (first : UInt8) : Nat × Nat :=
  if first == 0xE0 then (0xA0, 0xBF)
  else if first == 0xED then (0x80, 0x9F)
  else if first == 0xF0 then (0x90, 0xBF)
  else if first == 0xF4 then (0x80, 0x8F)
  else (0x80, 0xBF)

def followers? (first : UInt8) : Option Nat :=
  let n := first.toNat
  if n < 0x80 then some 0
  else if n < 0xC2 then none
  else if n < 0xE0 then some 1
  else if n < 0xF0 then some 2
  else if n < 0xF5 then some 3
  else none

/-- Reads `count` more bytes, of which the first lies in the given range and the others are plain
continuation bytes. `value` is what has been read and `width` how many bytes that took. -/
def readFollowers (count value width : Nat) (range : Nat × Nat) (bytes : List UInt8) : Front :=
  match count, bytes with
  | 0, _ => .char (Char.ofNat value) width
  | _ + 1, [] => .fault .endOfData width
  | count + 1, byte :: rest =>
    if range.1 ≤ byte.toNat && byte.toNat ≤ range.2 then
      readFollowers count (value * 0x40 + (byte.toNat - 0x80)) (width + 1) (0x80, 0xBF) rest
    else .fault .invalidContinuation width

def front (first : UInt8) (rest : List UInt8) : Front :=
  match followers? first with
  | none => .fault .invalidStart 1
  | some 0 => .char (Char.ofNat first.toNat) 1
  | some 1 => readFollowers 1 (first.toNat - 0xC0) 1 (secondRange first) rest
  | some 2 => readFollowers 2 (first.toNat - 0xE0) 1 (secondRange first) rest
  | some _ => readFollowers 3 (first.toNat - 0xF0) 1 (secondRange first) rest

structure DecodeError where
  reason : Fault
  position : Nat
  bytes : List UInt8
  deriving DecidableEq, Repr

/-- Reads bytes, of which `skip` belong to a part that has been read already. -/
def decodeFrom (position skip : Nat) (bytes : List UInt8) : Except DecodeError (List Char) :=
  match bytes with
  | [] => .ok []
  | byte :: rest =>
    match skip with
    | skip + 1 => decodeFrom (position + 1) skip rest
    | 0 => match front byte rest with
      | .char c width => return c :: (← decodeFrom (position + 1) (width - 1) rest)
      | .fault reason width =>
        .error { reason, position, bytes := (byte :: rest).take width }

def decode (bytes : List UInt8) : Except DecodeError (List Char) :=
  decodeFrom 0 0 bytes

/-- Reads bytes of which `skip` have been read already, replacing each faulty part. -/
def decodeLossyFrom (skip : Nat) (bytes : List UInt8) : List Char :=
  match bytes with
  | [] => []
  | byte :: rest =>
    match skip with
    | skip + 1 => decodeLossyFrom skip rest
    | 0 => match front byte rest with
      | .char c width => c :: decodeLossyFrom (width - 1) rest
      | .fault _ width => '\uFFFD' :: decodeLossyFrom (width - 1) rest

def decodeLossy (bytes : List UInt8) : List Char :=
  decodeLossyFrom 0 bytes

/-- The three bytes that mark a text as UTF-8. -/
def mark : List UInt8 := [0xEF, 0xBB, 0xBF]

/-- Reads bytes that may start with the mark. Less than a whole mark reads as nothing. -/
def decodeMarked (bytes : List UInt8) : Except DecodeError (List Char) :=
  if bytes.length < 3 && bytes.isPrefixOf mark then .ok []
  else if mark.isPrefixOf bytes then decode (bytes.drop 3)
  else decode bytes

end SchemaSync.Text.Utf8
