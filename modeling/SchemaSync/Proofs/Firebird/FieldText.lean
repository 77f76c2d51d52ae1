import SchemaSync.Firebird.FieldType
import SchemaSync.Proofs.Script.NumberedType
import SchemaSync.Proofs.Script.PlainTable

/-! The types that the catalog writes, read as the types of columns and of domains. Each reads as it is written, but
for large objects of a sub type that a user defined: such a sub type is negative, and what is read as a sub type is a
word, which has no sign. -/

namespace SchemaSync

open Text Script

namespace Script

section Integers

theorem toList_toString_natural (n : Nat) : (toString (n : Int)).toList = Nat.toDigits 10 n :=
  Nat.toList_repr

theorem toList_toString_negative (n : Nat) : (toString (Int.negSucc n)).toList = '-' :: Nat.toDigits 10 (n + 1) := by
  show ("-" ++ Nat.repr (n + 1)).toList = _
  rw [String.toList_append, Nat.toList_repr]
  rfl

theorem compact_integer (n : Int) : Compact (toString n).toList := by
  have natural (n : Nat) : Compact (Nat.toDigits 10 n) :=
    IsParameters.compact ⟨_, TypeNumbers.isNumeral_toDigits n, .inl rfl⟩
  cases n with
  | ofNat n =>
    rw [Int.ofNat_eq_natCast, toList_toString_natural]
    exact natural n
  | negSucc n =>
    rw [toList_toString_negative]
    exact ⟨List.cons_ne_nil _ _, List.forall_mem_cons.mpr ⟨by decide, (natural (n + 1)).plain⟩⟩

theorem Compact.separated {first second : List Char} (one : Compact first) (two : Compact second) :
    Compact (first ++ ',' :: second) where
  given := List.append_ne_nil_of_left_ne_nil one.given _
  plain := by
    intro c member
    rcases List.mem_append.mp member with front | back
    · exact one.plain c front
    rcases List.mem_cons.mp back with rfl | back
    · decide
    · exact two.plain c back

theorem bare_integer (n : Int) {rest : List Char} (bare : Bare rest) : Bare ((toString n).toList ++ rest) := by
  have natural (n : Nat) : Bare (Nat.toDigits 10 n ++ rest) :=
    bare.prepend (all_safe (all_isTypeChar (TypeNumbers.isNumeral_toDigits n).isName))
  cases n with
  | ofNat n =>
    rw [Int.ofNat_eq_natCast, toList_toString_natural]
    exact natural n
  | negSucc n =>
    rw [toList_toString_negative]
    refine (natural (n + 1)).cons (by decide) ?_
    obtain ⟨d, more, split⟩ := List.exists_cons_of_ne_nil (Nat.toDigits_ne_nil (b := 10) (n := n + 1))
    have digit := toNat_of_mem_toDigits (split ▸ List.mem_cons_self : d ∈ Nat.toDigits 10 (n + 1))
    have unsigned : d ≠ '-' := by
      rintro rfl
      exact absurd digit (by decide)
    rw [split, List.cons_append]
    simp [opensComment, unsigned]

end Integers

/-- A text that is read as a type of the database itself where no more of a type stands after it. -/
structure Legible (text base : List Char) (parameters : Option (List Char)) : Prop where
  words : IsBase base
  compact : ∀ inside ∈ parameters, Compact inside
  known : isKnownTypeChars base = true
  read : ∀ rest, EndsType rest → ∃ after, typeReading? (text ++ rest) = some { base, parameters, rest := after }
  bare : Bare text
  last : ∀ c ∈ text.getLast?, isBlank c = false

/-- What is read of a text as the type of a column and of a domain with these names. -/
structure ReadsAsType (column domain text dataType : String) : Prop where
  column : ∀ position, ∃ c, Column.ofDefinition (column ++ " " ++ text) position = .ok (some c) ∧
    c.domainName = none ∧ c.dataType = some dataType
  domain : ∃ d, Domain.ofScript ("CREATE DOMAIN " ++ domain ++ " AS " ++ text ++ ";") = .ok d ∧ d.dataType = dataType

section Reading

variable {column domain text : String} {base : List Char} {parameters : Option (List Char)}

theorem Legible.readsAs (legible : Legible text.toList base parameters) (named : IsName column.toList)
    (apart : startsClause column.toList = false) (other : IsName domain.toList) :
    ReadsAsType column domain text (String.ofList (base ++ parameterText parameters)) where
  column := by
    intro position
    obtain ⟨after, read⟩ := legible.read [] (.of_all rfl (by decide) rfl)
    have last : ∀ c ∈ (text.toList ++ []).getLast?, isBlank c = false := by
      rw [List.append_nil]
      exact legible.last
    have definition : (column ++ " " ++ text).toList = definitionText column.toList text.toList [] := by
      simp only [String.toList_append, definitionText, List.append_nil, List.append_assoc]
      rfl
    have typed : isGiven none ≠ isGiven (some (String.ofList (base ++ parameterText parameters))) := by
      obtain ⟨c, more, rfl, _⟩ := legible.words.all_plain.2
      simp [isGiven]
    rw [Column.ofDefinition, definition, Column.ofDefinitionChars_definitionText (.of_isName named) read last
      (isTableClause_name named apart), legible.known, canonicalType_words legible.words legible.compact,
      named.upperChars_eq, Column.create, dif_pos named.isBlankText_ofList, if_pos rfl, if_pos rfl, dif_pos typed]
    exact ⟨_, rfl, rfl, rfl⟩
  domain := by
    obtain ⟨after, read⟩ := legible.read [';'] (.of_all rfl (by decide) rfl)
    have last : ∀ c ∈ (text.toList ++ [';']).getLast?, isBlank c = false := by
      rw [List.getLast?_concat]
      rintro c ⟨⟩
      decide
    have closing : Bare [';'] := ⟨rfl, rfl⟩
    have bare : Bare (text.toList ++ [';']) := legible.bare.append closing (by simp)
    have script : "CREATE DOMAIN " ++ domain ++ " AS " ++ text ++ ";" =
        String.ofList (domainText domain.toList text.toList [';']) := by
      unfold domainText
      rw [← String.toList_inj, String.toList_ofList]
      simp only [String.toList_append, List.append_assoc]
      rfl
    rw [script, Domain.ofScript_domainText (.of_isName other) read last
      ((IsIdentifier.of_isName other).bare_domainText bare), canonicalType_words legible.words legible.compact,
      other.upperChars_eq, Domain.create, dif_pos other.isBlankText_ofList]
    exact ⟨_, rfl, rfl⟩

/-- Words of a type and parameters in which no comment opens. -/
theorem legible_words (words : IsBase base) (compact : ∀ inside ∈ parameters, Compact inside)
    (known : isKnownTypeChars base = true) (bare : Bare (parameterText parameters)) :
    Legible (base ++ parameterText parameters) base parameters := by
  have typed := typeReading?_words words.afterType?_eq compact
  exact {
    words, compact, known
    read := fun rest ends => ⟨rest, typeReading?_append typed ends⟩
    bare := bare.prepend (all_safe words.all_isTypeChar)
    last := typeReading?_last typed }

/-- Words of a type without parameters. -/
theorem legible_base (words : IsBase base) (known : isKnownTypeChars base = true) : Legible base base none := by
  have legible : Legible (base ++ parameterText none) base none :=
    legible_words words (by rintro _ ⟨⟩) known bare_nil
  rwa [parameterText, Option.elim_none, List.append_nil] at legible

/-- A sign is no part of the word of a sub type, so the type ends before the sub type. -/
theorem legible_negative (n : Nat) :
    Legible ("BLOB SUB_TYPE ".toList ++ (toString (Int.negSucc n)).toList) "BLOB".toList none where
  words := .word (by decide)
  compact := by rintro _ ⟨⟩
  known := by decide
  read := by
    intro rest _
    rw [toList_toString_negative]
    refine ⟨" SUB_TYPE -".toList ++ (Nat.toDigits 10 (n + 1) ++ rest), ?_⟩
    rw [List.append_assoc, List.cons_append]
    have words : afterType? ("BLOB SUB_TYPE ".toList ++ '-' :: (Nat.toDigits 10 (n + 1) ++ rest)) =
        some (" SUB_TYPE -".toList ++ (Nat.toDigits 10 (n + 1) ++ rest)) := rfl
    have front : "BLOB SUB_TYPE ".toList ++ '-' :: (Nat.toDigits 10 (n + 1) ++ rest) =
        "BLOB".toList ++ (" SUB_TYPE -".toList ++ (Nat.toDigits 10 (n + 1) ++ rest)) := rfl
    rw [typeReading?, words, Option.map_some, front, List.length_append, Nat.add_sub_cancel, List.take_left]
    rfl
  bare := by
    have bare := bare_integer (.negSucc n) bare_nil
    rw [List.append_nil] at bare
    exact bare.prepend (by decide)
  last := by
    have numeral := TypeNumbers.isNumeral_toDigits (n + 1)
    rw [toList_toString_negative, List.append_cons]
    exact last_append numeral.isName.1 numeral.isName.trimmed.last _

theorem isBase_subType {n : Nat} (named : 1 < n) : IsBase ("BLOB SUB_TYPE ".toList ++ Nat.toDigits 10 n) := by
  have numeral := TypeNumbers.isNumeral_toDigits n
  have word : (Nat.toDigits 10 n).all isWordChar = true := by
    refine List.all_eq_true.mpr fun c member => ?_
    refine isWordChar_of_isNameChar (numeral.isName.isNameChar member) ?_
    rintro rfl
    exact absurd (toNat_of_mem_toDigits member) (by decide)
  have other {k : Nat} (small : k ≤ 1) : Nat.toDigits 10 n ≠ Nat.toDigits 10 k := by
    intro same
    have value := congrArg (Nat.ofDigitChars 10 · 0) same
    simp only [Nat.ofDigitChars_ten_toDigits] at value
    omega
  refine .blob numeral.isName word (other (Nat.zero_le 1)) (other (Nat.le_refl 1)) ?_
  intro same
  exact absurd (toNat_of_mem_toDigits (same ▸ List.mem_cons_self : 'B' ∈ Nat.toDigits 10 n)) (by decide)

/-- The text of a type of the database itself that is read as it stands. -/
def Faithful (text : List Char) : Prop :=
  ∃ base parameters, Legible text base parameters ∧ text = base ++ parameterText parameters

theorem faithful_base (words : IsBase base) (known : isKnownTypeChars base = true) : Faithful base :=
  ⟨base, none, legible_base words known, (List.append_nil base).symm⟩

theorem faithful_sized (words : IsBase base) (known : isKnownTypeChars base = true) (size : Int) :
    Faithful (base ++ '(' :: ((toString size).toList ++ [')'])) := by
  have closing : Bare [')'] := ⟨rfl, rfl⟩
  have bare : Bare (parameterText (some (toString size).toList)) := (bare_integer size closing).cons (by decide) rfl
  refine ⟨base, some (toString size).toList, legible_words words ?_ known bare, rfl⟩
  rintro _ ⟨⟩
  exact compact_integer size

theorem faithful_scaled (words : IsBase base) (known : isKnownTypeChars base = true) (digits scale : Int) :
    Faithful (base ++ '(' :: ((toString digits).toList ++ ',' :: (toString scale).toList ++ [')'])) := by
  have closing : Bare [')'] := ⟨rfl, rfl⟩
  have second : Bare (',' :: ((toString scale).toList ++ [')'])) := (bare_integer scale closing).cons (by decide) rfl
  have inside : Bare ((toString digits).toList ++ ',' :: (toString scale).toList ++ [')']) := by
    rw [List.append_assoc]
    exact bare_integer digits second
  have bare : Bare (parameterText (some ((toString digits).toList ++ ',' :: (toString scale).toList))) :=
    inside.cons (by decide) rfl
  refine ⟨base, some _, legible_words words ?_ known bare, rfl⟩
  rintro _ ⟨⟩
  exact (compact_integer digits).separated (compact_integer scale)

end Reading

end Script

namespace Firebird

def knownCodes : List Int :=
  exactTypes.map Prod.fst ++ fixedTypes.map Prod.fst ++ textTypes.map Prod.fst ++ [blobCode]

namespace FieldType

variable {field : FieldType}

def IsUserBlob (field : FieldType) : Prop :=
  field.code = some blobCode ∧ ∃ subType ∈ field.subType, subType < 0

/-- The text of an exact number is the name of its type, or a decimal fraction with its digits and its scale. -/
theorem faithful_exactText {plain : String} (name : IsName plain.toList)
    (known : isKnownTypeChars plain.toList = true) (usual : Int) : Faithful (field.exactText plain usual).toList := by
  rw [exactText]
  split
  · have fraction {kind : String} (name : IsName kind.toList) (known : isKnownTypeChars kind.toList = true) :
        Faithful (kind ++ "(" ++ toString (field.digits usual) ++ "," ++ toString field.scaleOrZero.natAbs ++
          ")").toList := by
      simp only [String.toList_append, List.append_assoc]
      have faithful := faithful_scaled (.word name) known (field.digits usual) field.scaleOrZero.natAbs
      rwa [List.append_assoc] at faithful
    split
    · exact fraction (by decide) (by decide)
    · exact fraction (by decide) (by decide)
  · exact faithful_base (.word name) known

theorem faithful_exact {entry : Int × String × Int} (member : entry ∈ exactTypes) (coded : field.code = some entry.1) :
    Faithful field.text.toList := by
  have named : field.text = field.exactText entry.2.1 entry.2.2 ∧ IsName entry.2.1.toList ∧
      isKnownTypeChars entry.2.1.toList = true := by
    simp only [exactTypes, List.mem_cons, List.not_mem_nil, or_false] at member
    rcases member with rfl | rfl | rfl | rfl <;> exact ⟨by rw [text, coded]; rfl, by decide, by decide⟩
  rw [named.1]
  exact faithful_exactText named.2.1 named.2.2 _

theorem faithful_fixed {entry : Int × String} (member : entry ∈ fixedTypes) (coded : field.code = some entry.1) :
    Faithful field.text.toList := by
  have fixed : field.text = entry.2 := by
    simp only [fixedTypes, List.mem_cons, List.not_mem_nil, or_false] at member
    rcases member with rfl | rfl | rfl | rfl | rfl | rfl | rfl | rfl | rfl | rfl <;> (rw [text, coded]; rfl)
  rw [fixed]
  clear fixed coded
  revert entry
  simp only [fixedTypes, List.forall_mem_cons]
  refine ⟨?float, ?double, ?date, ?time, ?timestamp, ?zonedTime, ?zonedTimestamp, ?boolean, ?short, ?long, nofun⟩
  case double => exact faithful_base .double (by decide)
  case zonedTime => exact faithful_base (.zoned false false) (by decide)
  case zonedTimestamp => exact faithful_base (.zoned true false) (by decide)
  case short => exact faithful_sized (.word (show IsName "DECFLOAT".toList by decide)) (by decide) 16
  case long => exact faithful_sized (.word (show IsName "DECFLOAT".toList by decide)) (by decide) 34
  all_goals exact faithful_base (.word (by decide)) (by decide)

theorem faithful_textual {entry : Int × String} (member : entry ∈ textTypes) (coded : field.code = some entry.1) :
    Faithful field.text.toList := by
  have named : field.text = field.size?.elim entry.2 (fun size => entry.2 ++ "(" ++ toString size ++ ")") ∧
      IsName entry.2.toList ∧ isKnownTypeChars entry.2.toList = true := by
    simp only [textTypes, List.mem_cons, List.not_mem_nil, or_false] at member
    rcases member with rfl | rfl <;>
      exact ⟨by rw [text, coded]; cases field.size? <;> rfl, by decide, by decide⟩
  obtain ⟨sized, name, known⟩ := named
  rw [sized]
  cases field.size? with
  | some size =>
    simp only [Option.elim_some, String.toList_append, List.append_assoc]
    exact faithful_sized (.word name) known size
  | none => exact faithful_base (.word name) known

theorem text_blob (coded : field.code = some blobCode) : field.text = field.blobText := by
  rw [text, coded]
  rfl

/-- A sub type that no user defined is read as a word. -/
theorem faithful_blobText (usual : ∀ subType ∈ field.subType, 0 ≤ subType) : Faithful field.blobText.toList := by
  unfold blobText
  split
  · exact faithful_base (.word (by decide)) (by decide)
  · exact faithful_base (.word (by decide)) (by decide)
  · have text : IsName "TEXT".toList := by decide
    exact faithful_base (.blob text (by decide +kernel) (by decide) (by decide) (by decide)) (by decide +kernel)
  · next subType zero one given =>
    have above := usual subType given
    obtain ⟨n, rfl⟩ := Int.eq_ofNat_of_zero_le above
    have named : 1 < n := by
      have zero : (n : Int) ≠ 0 := zero
      have one : (n : Int) ≠ 1 := one
      omega
    rw [String.toList_append, toList_toString_natural]
    exact faithful_base (isBase_subType named) rfl

instance (field : FieldType) : Decidable field.IsUserBlob :=
  inferInstanceAs (Decidable (_ ∧ _))

theorem faithful_text (known : ∃ code ∈ knownCodes, field.code = some code) (usual : ¬ field.IsUserBlob) :
    Faithful field.text.toList := by
  obtain ⟨code, member, coded⟩ := known
  simp only [knownCodes, List.mem_append, List.mem_map, List.mem_singleton] at member
  rcases member with ((⟨entry, here, rfl⟩ | ⟨entry, here, rfl⟩) | ⟨entry, here, rfl⟩) | rfl
  · exact faithful_exact here coded
  · exact faithful_fixed here coded
  · exact faithful_textual here coded
  · rw [text_blob coded]
    refine faithful_blobText fun subType given => ?_
    rw [← Int.not_lt]
    exact fun below => usual ⟨coded, subType, given, below⟩

theorem text_user (user : field.IsUserBlob) : ∃ n, field.text = "BLOB SUB_TYPE " ++ toString (Int.negSucc n) := by
  obtain ⟨coded, subType, given, below⟩ := user
  obtain ⟨n, rfl⟩ := Int.eq_negSucc_of_lt_zero below
  refine ⟨n, ?_⟩
  rw [text_blob coded, blobText, Option.mem_def.mp given]
  rfl

/-- What is read of the text of a known type. -/
def readText (field : FieldType) : String :=
  if field.IsUserBlob then "BLOB" else field.text

theorem readText_eq_iff : field.readText = field.text ↔ ¬ field.IsUserBlob := by
  rw [readText]
  split
  · next user =>
    refine iff_of_false (fun same => ?_) (not_not_intro user)
    obtain ⟨n, text⟩ := text_user user
    have longer := congrArg String.length (same.trans text)
    rw [String.length_append] at longer
    have short : "BLOB".length < "BLOB SUB_TYPE ".length := by decide
    omega
  · next usual => exact iff_of_true rfl usual

section Read

variable {column domain : String} (named : IsName column.toList) (apart : startsClause column.toList = false)
  (other : IsName domain.toList)
include named apart other

theorem text_readsAs (known : ∃ code ∈ knownCodes, field.code = some code) :
    ReadsAsType column domain field.text field.readText := by
  rw [readText]
  split
  · next user =>
    obtain ⟨n, text⟩ := text_user user
    have legible : Legible field.text.toList "BLOB".toList none := by
      rw [text, String.toList_append]
      exact legible_negative n
    exact legible.readsAs named apart other
  · next usual =>
    obtain ⟨base, parameters, legible, text⟩ := faithful_text known usual
    have reads := legible.readsAs named apart other
    rwa [← text, String.ofList_toList] at reads

/-- The text of a known type is read as it is written, as the type of a column and as the type of a domain, if and only
if it is not that of a large object of a sub type that a user defined. -/
theorem text_read_iff (known : ∃ code ∈ knownCodes, field.code = some code) (position : Int) :
    ((∃ c, Column.ofDefinition (column ++ " " ++ field.text) position = .ok (some c) ∧
        c.domainName = none ∧ c.dataType = some field.text) ↔ ¬ field.IsUserBlob) ∧
      ((∃ d, Domain.ofScript ("CREATE DOMAIN " ++ domain ++ " AS " ++ field.text ++ ";") = .ok d ∧
        d.dataType = field.text) ↔ ¬ field.IsUserBlob) := by
  have reads := text_readsAs named apart other known
  obtain ⟨c, defined, unbound, type⟩ := reads.column position
  obtain ⟨d, made, dataType⟩ := reads.domain
  rw [← readText_eq_iff, defined, made]
  constructor
  · constructor
    · rintro ⟨_, ⟨⟩, _, same⟩
      exact Option.some.inj (type.symm.trans same)
    · intro same
      exact ⟨c, rfl, unbound, same ▸ type⟩
  · constructor
    · rintro ⟨_, ⟨⟩, same⟩
      exact dataType.symm.trans same
    · intro same
      exact ⟨d, rfl, dataType.trans same⟩

end Read

/-- The scale of a decimal fraction is read as it is written, and the sign of a sub type is not. -/
theorem text_read_iff_fraction :
    (∃ c, Column.ofDefinition "C NUMERIC(18,2)" 0 = .ok (some c) ∧ c.domainName = none ∧
      c.dataType = some "NUMERIC(18,2)") ∧
      ¬ ∃ d, Domain.ofScript "CREATE DOMAIN D AS BLOB SUB_TYPE -1;" = .ok d ∧ d.dataType = "BLOB SUB_TYPE -1" := by
  have column : IsName "C".toList := by decide
  have domain : IsName "D".toList := by decide
  let fraction : FieldType := { code := some 16, subType := some 1, precision := some 18, scale := some (-2) }
  let user : FieldType := { code := some 261, subType := some (-1) }
  have fractionText : "C" ++ " " ++ fraction.text = "C NUMERIC(18,2)" ∧ fraction.text = "NUMERIC(18,2)" := by
    decide +kernel
  have userText : "CREATE DOMAIN " ++ "D" ++ " AS " ++ user.text ++ ";" = "CREATE DOMAIN D AS BLOB SUB_TYPE -1;" ∧
      user.text = "BLOB SUB_TYPE -1" := by
    decide +kernel
  have reads := (@text_read_iff fraction _ _ column (by decide) domain ⟨16, by decide, rfl⟩ 0).1.mpr (by decide)
  have unread := (@text_read_iff user _ _ column (by decide) domain ⟨261, by decide, rfl⟩ 0).2
  rw [fractionText.1, fractionText.2] at reads
  rw [userText.1, userText.2] at unread
  exact ⟨reads, fun read => unread.mp read (by decide)⟩

end FieldType

end Firebird

end SchemaSync
