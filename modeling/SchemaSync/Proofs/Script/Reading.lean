import SchemaSync.Proofs.Script.TypeText
import SchemaSync.Script.Definition

/-! What the definition of a domain or a column reads as: its name, its type, and for the rest only what the
text after the type says about null and about a default. -/

namespace SchemaSync

open Text

namespace Script

theorem firstMatch?_front {α : Type} {read? : List Char → Option α} {cs : List Char} {found : α}
    (read : read? cs = some found) : firstMatch? read? cs = some found := by
  cases cs with
  | nil => exact read
  | cons c cs => rw [firstMatch?, read, Option.some_or]

/-- What is found along a text is read at some place of it. -/
theorem firstMatch?_eq_some {α : Type} {read? : List Char → Option α} {cs : List Char} {found : α}
    (first : firstMatch? read? cs = some found) : ∃ front rest, cs = front ++ rest ∧ read? rest = some found := by
  induction cs with
  | nil => exact ⟨[], [], rfl, first⟩
  | cons c cs ih =>
    rw [firstMatch?] at first
    rcases Option.or_eq_some_iff.mp first with here | ⟨_, later⟩
    · exact ⟨[], c :: cs, rfl, here⟩
    · obtain ⟨front, rest, rfl, read⟩ := ih later
      exact ⟨c :: front, rest, rfl, read⟩

theorem afterBlanks?_space {cs : List Char} (solid : ∀ c ∈ cs.head?, isBlank c = false) :
    afterBlanks? (' ' :: cs) = some cs :=
  congrArg some (trimStart_head solid)

theorem identifier_stops {cs : List Char} {d : Char} (head : cs.head? = some d)
    (stop : isIdentifierChar d = false) : ∀ c ∈ cs.head?, isIdentifierChar c = false := by
  intro c found
  rw [head] at found
  exact Option.some.inj found ▸ stop

/-- A name and a type that have been read. -/
structure DomainReading.IsRead (reading : DomainReading) : Prop where
  name : ∃ rest, NameBefore reading.name rest
  type : ∃ cs, typeReading? cs = some reading.type

theorem isRead_of_domainReading {cs : List Char} {reading : DomainReading} (read : domainReading? cs = some reading) :
    reading.IsRead := by
  simp only [domainReading?, Option.bind_eq_bind, Option.bind_eq_some_iff] at read
  obtain ⟨_, _, ⟨name, rest⟩, identified, text, _, type, typed, made⟩ := read
  cases made
  refine ⟨⟨rest, (identifier?_eq_some identified).2⟩, ?_⟩
  rcases Option.or_eq_some_iff.mp typed with spaced | ⟨_, direct⟩
  · obtain ⟨after, _, found⟩ := Option.bind_eq_some_iff.mp spaced
    exact ⟨after, found⟩
  · exact ⟨text, direct⟩

theorem isRead_of_columnReading {cs : List Char} {reading : DomainReading} (read : columnReading? cs = some reading) :
    reading.IsRead := by
  simp only [columnReading?, Option.bind_eq_bind, Option.bind_eq_some_iff] at read
  obtain ⟨⟨name, rest⟩, identified, text, _, type, typed, made⟩ := read
  cases made
  exact ⟨⟨rest, (identifier?_eq_some identified).2⟩, ⟨text, typed⟩⟩

theorem tableName?_named {cs name rest : List Char} (read : tableName? cs = some (name, rest)) :
    NameBefore name rest := by
  obtain ⟨_, _, identified⟩ := Option.bind_eq_some_iff.mp read
  exact (identifier?_eq_some identified).2

def IsIdentifier (cs : List Char) : Prop :=
  cs ≠ [] ∧ cs.all isIdentifierChar = true

instance (cs : List Char) : Decidable (IsIdentifier cs) :=
  inferInstanceAs (Decidable (_ ∧ _))

theorem IsIdentifier.of_isName {cs : List Char} (name : IsName cs) : IsIdentifier cs :=
  ⟨name.1, List.all_eq_true.mpr fun _ member => isIdentifierChar_of_isNameChar (name.isNameChar member)⟩

def definitionText (name type rest : List Char) : List Char :=
  name ++ ' ' :: (type ++ rest)

def domainText (name type rest : List Char) : List Char :=
  "CREATE DOMAIN ".toList ++ (name ++ (" AS ".toList ++ (type ++ rest)))

section Reading

variable {name type rest : List Char}

namespace IsIdentifier

variable (identifier : IsIdentifier name)
include identifier

theorem solid (rest : List Char) : ∀ c ∈ (name ++ rest).head?, isBlank c = false := by
  obtain ⟨c, more, rfl⟩ := List.exists_cons_of_ne_nil identifier.1
  rintro d ⟨⟩
  exact isBlank_of_isIdentifierChar (List.all_eq_true.mp identifier.2 c List.mem_cons_self)

theorem read (stop : ∀ c ∈ rest.head?, isIdentifierChar c = false) : identifier? (name ++ rest) = some (name, rest) :=
  identifier?_named ⟨identifier.1, List.all_eq_true.mp identifier.2, stop⟩

theorem safe : name.all (fun c => c != '\'' && c != '-' && c != '/') = true := by
  refine List.all_eq_true.mpr fun c member => ?_
  have here := List.all_eq_true.mp identifier.2 c member
  simp only [Bool.and_eq_true, bne_iff_ne]
  refine ⟨⟨?_, ?_⟩, ?_⟩ <;> (rintro rfl; cases here)

end IsIdentifier

theorem IsIdentifier.bare_domainText (identifier : IsIdentifier name) (bare : Bare (type ++ rest)) :
    Bare (domainText name type rest) :=
  ((bare.prepend (by decide)).prepend identifier.safe).prepend (by decide)

variable {reading : TypeReading} (identifier : IsIdentifier name) (read : typeReading? (type ++ rest) = some reading)
include read

theorem trimmed_domainText (last : ∀ c ∈ (type ++ rest).getLast?, isBlank c = false) :
    Trimmed (domainText name type rest) := by
  obtain ⟨d, more, split, _⟩ := typeReading?_head read
  have front : ∀ c ∈ ("CREATE DOMAIN ".toList).head?, isBlank c = false := by
    rintro c ⟨⟩
    decide
  unfold domainText
  refine ⟨head_append (by decide) front _, ?_⟩
  rw [← List.append_assoc, ← List.append_assoc]
  exact last_append (split ▸ List.cons_ne_nil d more) last _

include identifier

theorem trimmed_definitionText (last : ∀ c ∈ (type ++ rest).getLast?, isBlank c = false) :
    Trimmed (definitionText name type rest) := by
  obtain ⟨d, more, split, _⟩ := typeReading?_head read
  unfold definitionText
  rw [List.append_cons]
  refine ⟨?_, last_append (split ▸ List.cons_ne_nil d more) last _⟩
  rw [List.append_assoc]
  exact identifier.solid _

theorem columnReading?_eq (last : ∀ c ∈ (type ++ rest).getLast?, isBlank c = false) :
    columnReading? (definitionText name type rest) = some { name, type := reading } := by
  have named : identifier? (definitionText name type rest) = some (name, ' ' :: (type ++ rest)) :=
    identifier.read (identifier_stops rfl (by decide))
  obtain ⟨d, more, split, solid⟩ := typeReading?_head read
  have start : afterBlanks? (' ' :: (type ++ rest)) = some (type ++ rest) := by
    apply afterBlanks?_space
    rw [split]
    rintro c ⟨⟩
    exact solid
  rw [columnReading?, (trimmed_definitionText identifier read last).trimChars_eq]
  simp only [named, Option.bind_eq_bind, Option.bind_some, start, read]
  rfl

theorem domainReading?_eq :
    domainReading? (domainText name type rest) = some { name, type := reading } := by
  obtain ⟨d, more, split, solid⟩ := typeReading?_head read
  have phrase : afterSpacedPhrase? ["CREATE", "DOMAIN"] (domainText name type rest) =
      some (name ++ (" AS ".toList ++ (type ++ rest))) :=
    afterBlanks?_space (identifier.solid _)
  have named : identifier? (name ++ (" AS ".toList ++ (type ++ rest))) = some (name, " AS ".toList ++ (type ++ rest)) :=
    identifier.read (identifier_stops rfl (by decide))
  have word : afterSpaced? "AS" ("AS ".toList ++ (type ++ rest)) = some (type ++ rest) := by
    apply afterBlanks?_space
    rw [split]
    rintro c ⟨⟩
    exact solid
  simp only [domainReading?, phrase, Option.bind_eq_bind, Option.bind_some, named]
  show (some ("AS ".toList ++ (type ++ rest))).bind _ = _
  rw [Option.bind_some, word, Option.bind_some, read, Option.some_or, Option.bind_some]
  rfl

end Reading

/-- What stands after a definition does not make it a clause about the whole table. -/
theorem isTableClause_append {cs rest : List Char} (start : trimStart cs ≠ [])
    (apart : ∀ phrase ∈ tableClauses, Apart phrase rest) : isTableClause (cs ++ rest) = isTableClause cs := by
  have letters : tableClauses.all (fun phrase => decide (Lettered phrase)) = true := by decide
  have same : ∀ phrase ∈ tableClauses, (afterWholePhrase? phrase false (trimStart cs ++ rest)).isSome =
      (afterWholePhrase? phrase false (trimStart cs)).isSome := by
    intro phrase clause
    have lettered : Lettered phrase := of_decide_eq_true (List.all_eq_true.mp letters phrase clause)
    rw [(apart phrase clause).whole lettered false, Option.isSome_map]
  rw [isTableClause, isTableClause, trimStart_append start, Bool.eq_iff_iff, List.any_eq_true, List.any_eq_true]
  exact exists_congr fun phrase => and_congr_right fun clause => by rw [same phrase clause]

end Script

open Script

/-- Two definitions that read the same up to the type give the same domain just if the rest says the same. -/
theorem Domain.create_eq_iff {name dataType : String} {length precision scale : Option Int} {one two : Bool}
    {default other : Option String} {d : Domain}
    (made : Domain.create name dataType length precision scale one default = .ok d) :
    Domain.create name dataType length precision scale two other = .ok d ↔ two = one ∧ other = default := by
  unfold create at made ⊢
  split at made
  · next named =>
    cases made
    rw [dif_pos named]
    simp
  · cases made

theorem Column.create_eq_iff {name : String} {position : Int} {domainName dataType : Option String} {one two : Bool}
    {default other : Option String} {c : Column}
    (made : some <$> Column.create name position domainName dataType one default = .ok (some c)) :
    some <$> Column.create name position domainName dataType two other = .ok (some c) ↔ two = one ∧ other = default := by
  unfold create at made ⊢
  split at made
  · next named =>
    split at made
    · next typed =>
      cases made
      rw [dif_pos named, dif_pos typed]
      show Except.ok _ = Except.ok _ ↔ _
      simp
    · cases made
  · cases made

variable {name type base rest after : List Char} {parameters : Option (List Char)} (identifier : IsIdentifier name)
  (read : typeReading? (type ++ rest) = some { base, parameters, rest := after })
  (last : ∀ c ∈ (type ++ rest).getLast?, isBlank c = false)
include identifier read last

theorem Domain.ofScript_domainText (bare : Bare (domainText name type rest)) :
    Domain.ofScript (String.ofList (domainText name type rest)) =
      Domain.create (String.ofList (upperChars name)) (String.ofList (canonicalType base parameters))
        (numericParameters parameters).1 (numericParameters parameters).1 (numericParameters parameters).2
        (allowsNull after) (declaredDefault after) := by
  have given : requireText .domain (String.ofList (domainText name type rest)) = .ok () := by
    rw [requireText, isBlankText, String.toList_ofList]
    rfl
  rw [Domain.ofScript, given, String.toList_ofList, bare.stripCommentChars_eq (trimmed_domainText read last),
    firstMatch?_front (domainReading?_eq identifier read)]
  rfl

theorem Column.ofDefinitionChars_definitionText (apart : isTableClause (definitionText name type rest) = false)
    (position : Int) : Column.ofDefinitionChars (definitionText name type rest) position =
      some <$> Column.create (String.ofList (upperChars name)) position
        (if isKnownTypeChars base then none else some (String.ofList (upperChars base)))
        (if isKnownTypeChars base then some (String.ofList (canonicalType base parameters)) else none)
        (allowsNull after) (declaredDefault after) := by
  rw [Column.ofDefinitionChars, apart, if_neg Bool.false_ne_true, columnReading?_eq identifier read last]

end SchemaSync
