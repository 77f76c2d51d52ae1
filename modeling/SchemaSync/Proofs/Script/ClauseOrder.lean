import SchemaSync.Proofs.Script.PlainTable
import SchemaSync.Proofs.Script.TypeWords
import SchemaSync.Proofs.Script.WholePhrase

/-! The clauses after a type in any order. Every clause other than a default ends the default before it, and a
default is looked for past every other clause, so that what a definition says does not depend on where its
clauses stand. -/

namespace SchemaSync

open Text

namespace Script

inductive AttributeClause
  | default (value : List Char)
  | notNull
  | collate (name : List Char)
  | characterSet (name : List Char)
  | primaryKey
  | unique
  | references (name : List Char)
  deriving DecidableEq

/-- A word that stands after the keywords of a clause. The keyword `DEFAULT` would start a default. -/
structure IsOperand (cs : List Char) : Prop where
  name : IsName cs
  word : cs.all isWordChar = true
  other : cs ≠ "DEFAULT".toList

namespace AttributeClause

def text : AttributeClause → List Char
  | default value => " DEFAULT ".toList ++ value
  | notNull => " NOT NULL".toList
  | collate name => " COLLATE ".toList ++ name
  | characterSet name => " CHARACTER SET ".toList ++ name
  | primaryKey => " PRIMARY KEY".toList
  | unique => " UNIQUE".toList
  | references name => " REFERENCES ".toList ++ name

def Valid : AttributeClause → Prop
  | default value => IsDefault value
  | collate name | characterSet name | references name => IsOperand name
  | notNull | primaryKey | unique => True

end AttributeClause

def clausesText (clauses : List AttributeClause) : List Char :=
  clauses.flatMap AttributeClause.text

variable {c : AttributeClause} {clauses : List AttributeClause} {rest : List Char}

theorem clausesText_cons (c : AttributeClause) (clauses : List AttributeClause) :
    clausesText (c :: clauses) = c.text ++ clausesText clauses :=
  List.flatMap_cons

theorem startsInWord_clausesText : startsInWord (clausesText clauses) = false := by
  cases clauses with
  | nil => rfl
  | cons c clauses => cases c <;> rfl

theorem breaks_clausesText : Breaks (clausesText clauses) := by
  cases clauses with
  | nil => exact .of_all rfl rfl
  | cons c clauses => cases c <;> exact .of_all rfl rfl

theorem endsType_clausesText : EndsType (clausesText clauses) := by
  cases clauses with
  | nil => exact .of_all rfl rfl rfl
  | cons c clauses => cases c <;> exact .of_all rfl rfl rfl

section Null

theorem isPhrase_notNull : IsPhrase ["NOT", "NULL"] := by
  decide

theorem AttributeClause.allowsNull_text (valid : c.Valid) : allowsNull c.text = !(c == notNull) := by
  have named {front w : List Char} (plain : '\'' ∉ front) (operand : IsOperand w)
      (skip : ∀ cs, hasWholePhrase ["NOT", "NULL"] false (front ++ cs) = hasWholePhrase ["NOT", "NULL"] false cs) :
      allowsNull (front ++ w) = true := by
    have quote : '\'' ∉ w := fun member => by cases operand.name.isNameChar member
    rw [allowsNull_unquoted (by simp [plain, quote]), skip, isPhrase_notNull.stands_solid (by decide) fun d => operand.name.solid]
    rfl
  cases c with
  | default value =>
    have breaks : Breaks [] := .of_all rfl (by decide)
    have alone := allowsNull_default breaks valid
    rw [List.append_nil] at alone
    exact alone.trans (allowsNull_unquoted List.not_mem_nil)
  | notNull => exact (allowsNull_unquoted (by decide)).trans (by decide)
  | collate name => exact named (by decide) valid fun _ => rfl
  | characterSet name => exact named (by decide) valid fun _ => rfl
  | primaryKey => exact (allowsNull_unquoted (by decide)).trans (by decide)
  | unique => exact (allowsNull_unquoted (by decide)).trans (by decide)
  | references name => exact named (by decide) valid fun _ => rfl

end Null

theorem AttributeClause.bare_text (valid : c.Valid) : Bare c.text := by
  have named {front w : List Char} (safe : front.all (fun c => c != '\'' && c != '-' && c != '/') = true)
      (operand : IsOperand w) : Bare (front ++ w) := by
    have whole : Bare w := by
      have alone := bare_nil.prepend (all_safe (all_isTypeChar operand.name))
      rwa [List.append_nil] at alone
    exact whole.prepend safe
  cases c with
  | default value => exact valid.bare.prepend (by decide)
  | notNull => exact ⟨rfl, rfl⟩
  | collate name => exact named (by decide) valid
  | characterSet name => exact named (by decide) valid
  | primaryKey => exact ⟨rfl, rfl⟩
  | unique => exact ⟨rfl, rfl⟩
  | references name => exact named (by decide) valid

theorem AttributeClause.last_text (valid : c.Valid) : c.text ≠ [] ∧ ∀ d ∈ c.text.getLast?, isBlank d = false := by
  have named {w : List Char} (operand : IsOperand w) (front : List Char) :
      ∀ d ∈ (front ++ w).getLast?, isBlank d = false := last_append operand.name.1 operand.name.trimmed.last front
  have fixed {cs : List Char} (solid : cs.getLast?.all (fun d => !isBlank d) = true) :
      ∀ d ∈ cs.getLast?, isBlank d = false := by
    intro d last
    rw [Option.mem_def.mp last] at solid
    simpa using solid
  cases c with
  | default value => exact ⟨nofun, last_append valid.given valid.trimmed.last _⟩
  | notNull => exact ⟨nofun, fixed rfl⟩
  | collate name => exact ⟨nofun, named valid _⟩
  | characterSet name => exact ⟨nofun, named valid _⟩
  | primaryKey => exact ⟨nofun, fixed rfl⟩
  | unique => exact ⟨nofun, fixed rfl⟩
  | references name => exact ⟨nofun, named valid _⟩

section Clauses

variable (valid : ∀ c ∈ clauses, c.Valid)
include valid

theorem bare_clausesText : Bare (clausesText clauses) := by
  induction clauses with
  | nil => exact bare_nil
  | cons c clauses ih =>
    rw [List.forall_mem_cons] at valid
    rw [clausesText_cons]
    apply (c.bare_text valid.1).append (ih valid.2)
    intro d head
    cases clauses with
    | nil => cases head
    | cons next clauses =>
      have blank : (clausesText (next :: clauses)).head? = some ' ' := by cases next <;> rfl
      rw [blank] at head
      cases head
      decide

theorem last_clausesText {front : List Char} (solid : ∀ d ∈ front.getLast?, isBlank d = false) :
    ∀ d ∈ (front ++ clausesText clauses).getLast?, isBlank d = false := by
  induction clauses generalizing front with
  | nil =>
    intro d last
    exact solid d (List.append_nil front ▸ last)
  | cons c clauses ih =>
    rw [List.forall_mem_cons] at valid
    obtain ⟨given, stop⟩ := c.last_text valid.1
    rw [clausesText_cons, ← List.append_assoc]
    exact ih valid.2 (last_append given stop front)

theorem allowsNull_clausesText : allowsNull (clausesText clauses) = false ↔ .notNull ∈ clauses := by
  induction clauses with
  | nil =>
    have none : allowsNull (clausesText []) = true := allowsNull_unquoted List.not_mem_nil
    simp [none]
  | cons c clauses ih =>
    rw [List.forall_mem_cons] at valid
    have breaks : Breaks (clausesText clauses) := breaks_clausesText
    rw [clausesText_cons, allowsNull_append (c.bare_text valid.1).closed breaks.quote
      (breaks.phrases _ (by decide)), c.allowsNull_text valid.1, Bool.and_eq_false_iff, ih valid.2, List.mem_cons,
      Bool.not_eq_false', beq_iff_eq, eq_comm]

end Clauses

section Default

theorem findDefault?_inWord {cs : List Char} (outside : startsInWord cs = false) (inWord : Bool) :
    findDefault? inWord cs = findDefault? false cs := by
  have unread : afterKeyword? "DEFAULT".toList cs = none :=
    afterKeyword?_other (by decide) (by decide) (other_of_startsInWord outside)
  cases cs with
  | nil => rfl
  | cons c cs =>
    rw [findDefault?, findDefault?, unread, Option.bind_none]
    cases inWord <;> rfl

/-- A default does not start within a word, and at the front of a word only if that is its keyword. -/
theorem findDefault?_word {w : List Char} (operand : IsOperand w) (outside : startsInWord rest = false) :
    findDefault? false (w ++ rest) = findDefault? false rest := by
  have inside : ∀ {w : List Char}, w.all isWordChar = true → findDefault? true (w ++ rest) = findDefault? false rest := by
    intro w word
    induction w with
    | nil => exact findDefault?_inWord outside true
    | cons c w ih =>
      rw [List.all_cons, Bool.and_eq_true] at word
      rw [List.cons_append, findDefault?, if_pos rfl, Option.none_or, word.1, ih word.2]
  obtain ⟨c, more, rfl⟩ := List.exists_cons_of_ne_nil operand.name.1
  have word := operand.word
  rw [List.all_cons, Bool.and_eq_true] at word
  have unread : (afterKeyword? "DEFAULT".toList (c :: more ++ rest)).bind defaultAfterKeyword? = none := by
    rw [afterKeyword?_append_other (by decide) (other_of_startsInWord outside)]
    cases read : afterKeyword? "DEFAULT".toList (c :: more) with
    | none => rfl
    | some after =>
      obtain ⟨word, spells, split⟩ := afterKeyword?_eq_some read
      have plain : ∀ d ∈ word ++ after, isNameChar d = true := split ▸ fun d => operand.name.isNameChar
      have same : word.map foldCase = word := by
        refine (List.map_congr_left fun d member => ?_).trans (List.map_id' word)
        exact foldCase_of_isNameChar (plain d (List.mem_append_left after member))
      cases after with
      | nil => exact absurd (by rw [split, List.append_nil, ← same, spells]) operand.other
      | cons d after =>
        have solid : isBlank d = false := isBlank_of_isNameChar (plain d (by simp))
        rw [Option.map_some, Option.bind_some, List.cons_append, defaultAfterKeyword?, solid, if_neg Bool.false_ne_true]
  rw [List.cons_append] at unread ⊢
  rw [findDefault?, if_neg Bool.false_ne_true, unread, Option.none_or, word.1, inside word.2]

/-- A default is looked for past every other clause. -/
theorem declaredDefault_clause (valid : c.Valid) (other : ∀ value, c ≠ .default value)
    (outside : startsInWord rest = false) : declaredDefault (c.text ++ rest) = declaredDefault rest := by
  suffices skip : findDefault? false (c.text ++ rest) = findDefault? false rest by
    rw [declaredDefault, declaredDefault, skip]
  have named {front w : List Char} (operand : IsOperand w)
      (skip : ∀ cs, findDefault? false (front ++ cs) = findDefault? false cs) :
      findDefault? false (front ++ w ++ rest) = findDefault? false rest := by
    rw [List.append_assoc, skip, findDefault?_word operand outside]
  cases c with
  | default value => exact absurd rfl (other value)
  | notNull => exact findDefault?_inWord outside true
  | collate name => exact named valid fun _ => rfl
  | characterSet name => exact named valid fun _ => rfl
  | primaryKey => exact findDefault?_inWord outside true
  | unique => exact findDefault?_inWord outside true
  | references name => exact named valid fun _ => rfl

theorem stopsAhead_phrase (phrase : List String) (stop : phrase ∈ defaultStops) {cs : List Char}
    (solid : trimStart (' ' :: cs) = cs) (read : afterPhrase? phrase cs = some rest)
    (outside : startsInWord rest = false) (inWord : Bool) : stopsAhead inWord (' ' :: cs) = true := by
  have whole : (afterWholePhrase? phrase false cs).isSome = true := by
    rw [afterWholePhrase?, if_neg Bool.false_ne_true, read, Option.filter_some, outside]
    rfl
  have here : stopsHere false cs = true := by
    rw [stopsHere, Bool.or_eq_true]
    exact .inr (List.any_eq_true.mpr ⟨phrase, stop, whole⟩)
  rw [stopsAhead, if_pos (by decide), solid, here]

/-- Every other clause ends the default before it. -/
theorem endsDefault_clausesText (other : ∀ value, .default value ∉ clauses) : EndsDefault (clausesText clauses) where
  toBreaks := breaks_clausesText
  stops := by
    cases clauses with
    | nil => exact fun inWord => by cases inWord <;> rfl
    | cons c clauses =>
      have outside : startsInWord (clausesText clauses) = false := startsInWord_clausesText
      cases c with
      | default value => exact absurd List.mem_cons_self (other value)
      | notNull => exact stopsAhead_phrase ["NOT", "NULL"] (by decide) rfl rfl outside
      | collate name => exact stopsAhead_phrase ["COLLATE"] (by decide) rfl rfl rfl
      | characterSet name => exact stopsAhead_phrase ["CHARACTER", "SET"] (by decide) rfl rfl rfl
      | primaryKey => exact stopsAhead_phrase ["PRIMARY", "KEY"] (by decide) rfl rfl outside
      | unique => exact stopsAhead_phrase ["UNIQUE"] (by decide) rfl rfl outside
      | references name => exact stopsAhead_phrase ["REFERENCES"] (by decide) rfl rfl rfl

/-- Clauses of which no two are of one kind declare the default that one of them gives. -/
theorem declaredDefault_clausesText (valid : ∀ c ∈ clauses, c.Valid)
    (once : (clauses.map AttributeClause.ctorIdx).Nodup) (value : List Char) :
    declaredDefault (clausesText clauses) = some (String.ofList value) ↔ .default value ∈ clauses := by
  induction clauses with
  | nil => exact ⟨nofun, nofun⟩
  | cons c clauses ih =>
    rw [List.forall_mem_cons] at valid
    rw [List.map_cons, List.nodup_cons] at once
    rw [clausesText_cons, List.mem_cons]
    have later := ih valid.2 once.2
    cases kind : c with
    | default first =>
      rw [kind] at valid once
      have other : ∀ value, .default value ∉ clauses := fun value member =>
        once.1 (List.mem_map.mpr ⟨.default value, member, rfl⟩)
      have text : AttributeClause.text (.default first) = " DEFAULT ".toList ++ first := rfl
      rw [text, List.append_assoc, declaredDefault_append (endsDefault_clausesText other) valid.1]
      simp [other, String.ofList_inj, eq_comm]
    | notNull | collate | characterSet | primaryKey | unique | references =>
      rw [← kind, declaredDefault_clause valid.1 (by simp [kind]) startsInWord_clausesText, later]
      simp [kind]

end Default

theorem clausesText_perm {order : List AttributeClause} (valid : ∀ c ∈ clauses, c.Valid)
    (once : (clauses.map AttributeClause.ctorIdx).Nodup) (perm : clauses.Perm order) :
    allowsNull (clausesText order) = allowsNull (clausesText clauses) ∧
      declaredDefault (clausesText order) = declaredDefault (clausesText clauses) := by
  have later : ∀ c ∈ order, c.Valid := fun c member => valid c (perm.mem_iff.mpr member)
  have still : (order.map AttributeClause.ctorIdx).Nodup := (perm.map _).nodup_iff.mp once
  constructor
  · have same : allowsNull (clausesText order) = false ↔ allowsNull (clausesText clauses) = false := by
      rw [allowsNull_clausesText later, allowsNull_clausesText valid, perm.mem_iff]
    cases one : allowsNull (clausesText order) <;> cases two : allowsNull (clausesText clauses) <;> simp_all
  · apply Option.ext
    intro value
    have one := declaredDefault_clausesText later still value.toList
    have two := declaredDefault_clausesText valid once value.toList
    rw [String.ofList_toList] at one two
    rw [one, two, perm.mem_iff]

section Spelled

/-- The words of a type as a definition may spell them, a sub type of a blob with a shorter form included. -/
inductive IsSpelled : List Char → Prop
  | canonical {base : List Char} : IsBase base → IsSpelled base
  | blob {w : List Char} : IsName w → w.all isWordChar = true → IsSpelled ("BLOB SUB_TYPE ".toList ++ w)

variable {base : List Char} {parameters : Option (List Char)} (words : IsSpelled base)
include words

theorem IsSpelled.afterType?_eq : afterType? base = some [] := by
  cases words with
  | canonical words => exact words.afterType?_eq
  | blob name word => exact afterType?_subType name.1 word

theorem IsSpelled.all_isTypeChar : base.all isTypeChar = true := by
  cases words with
  | canonical words => exact words.all_isTypeChar
  | blob name =>
    rw [List.all_append, Script.all_isTypeChar name]
    decide

end Spelled

end Script

open Script

section Orders

variable {name base : List Char} {parameters : Option (List Char)} {clauses order : List AttributeClause}
  (named : IsName name) (words : IsSpelled base) (numbers : ∀ inside ∈ parameters, IsParameters inside)
  (valid : ∀ c ∈ clauses, c.Valid)
include named words numbers valid

private theorem domain_reading : Domain.ofScript
    (String.ofList (domainText name (base ++ parameterText parameters) (clausesText clauses))) =
      Domain.create (String.ofList name) (String.ofList (canonicalType base parameters))
        (numericParameters parameters).1 (numericParameters parameters).1 (numericParameters parameters).2
        (allowsNull (clausesText clauses)) (declaredDefault (clausesText clauses)) := by
  have typed := typeReading?_words words.afterType?_eq fun inside given => (numbers inside given).compact
  have plain : (base ++ parameterText parameters).all isTypeChar = true := by
    rw [List.all_append, words.all_isTypeChar, all_isTypeChar_parameterText numbers]
    rfl
  have bare := (IsIdentifier.of_isName named).bare_domainText ((bare_clausesText valid).prepend (all_safe plain))
  rw [Domain.ofScript_domainText (.of_isName named) (typeReading?_append typed endsType_clausesText)
    (last_clausesText valid (typeReading?_last typed)) bare, named.upperChars_eq]

private theorem column_reading (apart : startsClause name = false) (position : Int) : Column.ofDefinition
    (String.ofList (definitionText name (base ++ parameterText parameters) (clausesText clauses))) position =
      some <$> Column.create (String.ofList name) position
        (if isKnownTypeChars base then none else some (String.ofList (upperChars base)))
        (if isKnownTypeChars base then some (String.ofList (canonicalType base parameters)) else none)
        (allowsNull (clausesText clauses)) (declaredDefault (clausesText clauses)) := by
  have typed := typeReading?_words words.afterType?_eq fun inside given => (numbers inside given).compact
  rw [Column.ofDefinition, String.toList_ofList, Column.ofDefinitionChars_definitionText (.of_isName named)
    (typeReading?_append typed endsType_clausesText) (last_clausesText valid (typeReading?_last typed))
    (isTableClause_name named apart),
    named.upperChars_eq]

omit named valid in
private theorem typed_spelled :
    isGiven (if isKnownTypeChars base then none else some (String.ofList (upperChars base))) ≠
      isGiven (if isKnownTypeChars base then some (String.ofList (canonicalType base parameters)) else none) := by
  have read := typeReading?_words words.afterType?_eq fun inside given => (numbers inside given).compact
  cases isKnownTypeChars base with
  | true =>
    rw [if_pos rfl, if_pos rfl, isGiven_of_solid (isBlankText_canonicalType read)]
    decide
  | false =>
    rw [if_neg Bool.false_ne_true, if_neg Bool.false_ne_true, isGiven_of_solid (isBlankText_base read)]
    decide

/-- The clauses of a column and of a domain can stand in any order. What is read has the default that one of
them gives, and no null where one of them forbids it. -/
theorem clauses_any_order (once : (clauses.map AttributeClause.ctorIdx).Nodup) (perm : clauses.Perm order) :
    (startsClause name = false → ∀ position, ∃ column,
      Column.ofDefinition (String.ofList (definitionText name (base ++ parameterText parameters) (clausesText clauses)))
        position = .ok (some column) ∧
      Column.ofDefinition (String.ofList (definitionText name (base ++ parameterText parameters) (clausesText order)))
        position = .ok (some column) ∧
      (∀ value, column.defaultValue = some (String.ofList value) ↔ .default value ∈ clauses) ∧
      (column.isNullable = false ↔ .notNull ∈ clauses)) ∧
    ∃ d,
      Domain.ofScript (String.ofList (domainText name (base ++ parameterText parameters) (clausesText clauses))) = .ok d ∧
      Domain.ofScript (String.ofList (domainText name (base ++ parameterText parameters) (clausesText order))) = .ok d ∧
      (∀ value, d.defaultValue = some (String.ofList value) ↔ .default value ∈ clauses) ∧
      (d.isNullable = false ↔ .notNull ∈ clauses) := by
  have later : ∀ c ∈ order, c.Valid := fun c member => valid c (perm.mem_iff.mpr member)
  obtain ⟨null, default⟩ := clausesText_perm valid once perm
  have given := named.isBlankText_ofList
  constructor
  · intro apart position
    have one := column_reading named words numbers valid apart position
    have two := column_reading named words numbers later apart position
    rw [null, default, ← one] at two
    rw [two, one, Column.create, dif_pos given, dif_pos (typed_spelled words numbers)]
    exact ⟨_, rfl, rfl, declaredDefault_clausesText valid once, allowsNull_clausesText valid⟩
  · have one := domain_reading named words numbers valid
    have two := domain_reading named words numbers later
    rw [null, default, ← one] at two
    rw [two, one, Domain.create, dif_pos given]
    exact ⟨_, rfl, rfl, declaredDefault_clausesText valid once, allowsNull_clausesText valid⟩

end Orders

/-- Literals may say what clauses say, and operands may be keywords. -/
theorem clauses_any_order_reversed : ∃ column,
    Column.ofDefinition "CODE VARCHAR(20) DEFAULT 'UNIQUE; NOT NULL' NOT NULL COLLATE NULL UNIQUE REFERENCES CHECK" 0 =
      .ok (some column) ∧
    Column.ofDefinition "CODE VARCHAR(20) REFERENCES CHECK UNIQUE COLLATE NULL NOT NULL DEFAULT 'UNIQUE; NOT NULL'" 0 =
      .ok (some column) ∧
    column.defaultValue = some "'UNIQUE; NOT NULL'" ∧ column.isNullable = false := by
  let clauses : List AttributeClause := [.default "'UNIQUE; NOT NULL'".toList, .notNull, .collate "NULL".toList, .unique,
    .references "CHECK".toList]
  have default : IsDefault "'UNIQUE; NOT NULL'".toList :=
    ⟨by decide, ⟨by rintro c ⟨⟩; rfl, by rintro c ⟨⟩; rfl⟩, ⟨by decide +kernel, by decide +kernel⟩, by decide +kernel⟩
  have valid : ∀ c ∈ clauses, c.Valid := by
    simp only [clauses, List.forall_mem_cons]
    exact ⟨default, trivial, ⟨by decide, by decide, by decide⟩, trivial, ⟨by decide, by decide, by decide⟩, nofun⟩
  have numbers : ∀ inside ∈ some "20".toList, IsParameters inside := by
    rintro _ ⟨⟩
    exact ⟨"20".toList, ⟨by decide, by decide⟩, .inl rfl⟩
  have name : IsIdentifier "CODE".toList := by decide
  have type : IsSpelled "VARCHAR".toList := .canonical (.word (by decide))
  have orders := clauses_any_order name type numbers valid (by decide) (List.reverse_perm clauses).symm
  obtain ⟨column, one, two, given, null⟩ := orders.1 (by decide) 0
  exact ⟨column, one, two, (given _).mpr List.mem_cons_self, null.mpr (by decide)⟩

end SchemaSync
