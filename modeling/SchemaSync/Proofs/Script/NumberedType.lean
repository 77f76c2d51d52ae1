import SchemaSync.Proofs.Script.DomainScript
import SchemaSync.Proofs.Text.Numeral

/-! The numbers in a type. A domain whose length, precision and scale are the numbers of its type reads back
from its script unchanged. -/

namespace SchemaSync

open Text Script

namespace Script

inductive TypeNumbers
  | none
  | one (size : Nat)
  | two (size scale : Nat)
  deriving DecidableEq, Repr

namespace TypeNumbers

def size? : TypeNumbers → Option Int
  | .none => .none
  | .one size | .two size _ => some size

def scale? : TypeNumbers → Option Int
  | .none | .one _ => .none
  | .two _ scale => some scale

/-- The numbers as they stand in parentheses, without leading zeros. -/
def parameters : TypeNumbers → Option (List Char)
  | .none => .none
  | .one size => some (Nat.toDigits 10 size)
  | .two size scale => some (Nat.toDigits 10 size ++ ',' :: Nat.toDigits 10 scale)

def Short : TypeNumbers → Prop
  | .none => True
  | .one size => (Nat.toDigits 10 size).length ≤ maxNumeralDigits
  | .two size scale => (Nat.toDigits 10 size).length ≤ maxNumeralDigits ∧
      (Nat.toDigits 10 scale).length ≤ maxNumeralDigits

theorem isNumeral_toDigits (n : Nat) : IsNumeral (Nat.toDigits 10 n) := by
  refine ⟨Nat.toDigits_ne_nil, List.all_eq_true.mpr fun c member => ?_⟩
  obtain ⟨above, below⟩ := toNat_of_mem_toDigits member
  rw [decide_eq_true above, decide_eq_true below]
  rfl

theorem isParameters (numbers : TypeNumbers) : ∀ inside ∈ numbers.parameters, IsParameters inside := by
  cases numbers with
  | none => rintro _ ⟨⟩
  | one size =>
    rintro _ ⟨⟩
    exact ⟨_, isNumeral_toDigits size, .inl rfl⟩
  | two size scale =>
    rintro _ ⟨⟩
    exact ⟨_, isNumeral_toDigits size, .inr ⟨_, isNumeral_toDigits scale, rfl⟩⟩

private theorem numericParameter?_toDigits {n : Nat} (short : (Nat.toDigits 10 n).length ≤ maxNumeralDigits) :
    numericParameter? (Nat.toDigits 10 n) = some (n : Int) := by
  rw [numericParameter?, (isNumeral_toDigits n).isName.trimmed.trimChars_eq, intOfChars?_toDigits short]

theorem numericParameters_eq {numbers : TypeNumbers} (short : numbers.Short) :
    numericParameters numbers.parameters = (numbers.size?, numbers.scale?) := by
  cases numbers with
  | none => rfl
  | one size =>
    have alone := piecesAt_plain (isNumeral_toDigits size).comma_not_mem
    simp only [parameters, numericParameters, alone, numericParameter?_toDigits short]
    rfl
  | two size scale =>
    have both := piecesAt_append (isNumeral_toDigits size).comma_not_mem
      (piecesAt_plain (isNumeral_toDigits scale).comma_not_mem)
    simp only [parameters, numericParameters, both, numericParameter?_toDigits short.1,
      numericParameter?_toDigits short.2]
    rfl

end TypeNumbers

end Script

namespace Domain

variable {d : Domain} {base : List Char}

/-- A domain with a plain name and a canonical type, whose numbers are those of the type, reads back from its
script as it is. -/
theorem ofScript_script_numbered (numbers : TypeNumbers) (name : IsName d.name.toList)
    (words : IsBase base) (type : d.dataType.toList = base ++ parameterText numbers.parameters) (short : numbers.Short)
    (length : d.length = numbers.size?) (precision : d.precision = numbers.size?)
    (scale : d.scale = numbers.scale?) (default : ∀ v ∈ d.defaultValue, IsDefault v.toList) :
    Domain.ofScript d.script = .ok d := by
  have canonicalType : IsType base numbers.parameters d.dataType.toList := ⟨words, numbers.isParameters, type⟩
  have canonical : d.Canonical := ⟨name, ⟨base, _, canonicalType⟩, default⟩
  rw [ofScript_script canonical canonicalType, TypeNumbers.numericParameters_eq short]
  cases d
  cases length
  cases precision
  cases scale
  rfl

/-- A name and a default that look like other parts of the script are read as what they are. -/
theorem ofScript_script_price :
    let price : Domain := ⟨"AS", "NUMERIC(18,4)", some 18, some 18, some 4, false,
      some "'it''s; NOT NULL' || '-- no /* note'", rfl⟩
    Domain.ofScript price.script = .ok price :=
  ofScript_script_numbered (.two 18 4) (show IsName "AS".toList by decide)
    (.word (show IsName "NUMERIC".toList by decide)) (by decide) ⟨by decide, by decide⟩ rfl rfl rfl (by
      intro v given
      obtain rfl := Option.some.inj given
      exact ⟨by decide, ⟨by rintro c ⟨⟩; rfl, by rintro c ⟨⟩; rfl⟩, ⟨by decide +kernel, by decide +kernel⟩,
        by decide +kernel⟩)

end Domain

end SchemaSync
