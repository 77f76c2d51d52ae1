import SchemaSync.Proofs.Script.CommaParts
import SchemaSync.Proofs.Script.FollowedTable
import SchemaSync.Proofs.Script.LetterCase
import SchemaSync.Proofs.Script.SourceText
import SchemaSync.Proofs.Text.UpperCase

/-! Which definitions in the body of a table become columns. A definition says it with the name that it starts with:
there is a column for it, unless the name makes it look like a clause about the whole table. A dollar sign belongs to
a name but ends a word, so a name can look like such a clause without being its keyword. -/

namespace SchemaSync

open Text

namespace Script

def leadingName (cs : List Char) : List Char :=
  cs.takeWhile isIdentifierChar

def afterName (cs : List Char) : List Char :=
  trimStart (cs.dropWhile isIdentifierChar)

structure IsNamed (definition : List Char) : Prop where
  given : leadingName definition ≠ []
  apart : (definition.dropWhile isIdentifierChar).head?.any isBlank = true
  typed : (afterName definition).head?.any isIdentifierChar = true

def StartsAs (keyword : String) (name : List Char) : Prop :=
  ∃ word rest, name = word ++ rest ∧ Spells keyword word ∧ ∀ c ∈ rest.head?, c = '$'

/-- A definition whose first name starts as a clause about the whole table, or whose first two names do. -/
def LooksLikeClause (definition : List Char) : Prop :=
  (∃ keyword ∈ ["CONSTRAINT", "CHECK", "UNIQUE"], StartsAs keyword (leadingName definition)) ∨
    (∃ keyword ∈ ["PRIMARY", "FOREIGN"], Spells keyword (leadingName definition)) ∧
      StartsAs "KEY" (leadingName (afterName definition))

def clauseNames : List String :=
  ["CONSTRAINT", "CHECK", "UNIQUE", "PRIMARY", "FOREIGN"]

theorem isNamed_iff {definition : List Char} : IsNamed definition ↔ leadingName definition ≠ [] ∧
    (definition.dropWhile isIdentifierChar).head?.any isBlank = true ∧
      (afterName definition).head?.any isIdentifierChar = true :=
  ⟨fun named => ⟨named.given, named.apart, named.typed⟩, fun ⟨given, apart, typed⟩ => ⟨given, apart, typed⟩⟩

theorem startsAs_iff {keyword : String} {name : List Char} :
    StartsAs keyword name ↔ (afterKeyword? keyword.toList name).any (·.head?.all (· == '$')) = true := by
  rw [Option.any_eq_true]
  simp only [Option.all_eq_true, beq_iff_eq]
  constructor
  · rintro ⟨word, rest, rfl, spells, stop⟩
    exact ⟨rest, afterKeyword?_append spells rest, stop⟩
  · rintro ⟨rest, read, stop⟩
    obtain ⟨word, spells, split⟩ := afterKeyword?_eq_some read
    exact ⟨word, rest, split, spells, stop⟩

instance : DecidablePred IsNamed :=
  fun _ => decidable_of_iff' _ isNamed_iff

instance (keyword : String) (name : List Char) : Decidable (StartsAs keyword name) :=
  decidable_of_iff' _ startsAs_iff

instance : DecidablePred LooksLikeClause :=
  fun _ => inferInstanceAs (Decidable (_ ∨ _))

def definedName (definition : List Char) : String :=
  String.ofList (upperChars (leadingName definition))

def columnNames (definitions : List (List Char)) : List String :=
  (definitions.filter fun d => decide (IsNamed d ∧ ¬LooksLikeClause d)).map definedName

section Letters

theorem toNat_lt_of_isAlpha {c : Char} (letter : c.isAlpha = true) : c.toNat < 128 := by
  rcases (Bool.or_eq_true _ _).mp letter with capital | small
  · have last : c.toNat ≤ 90 := (of_decide_eq_true capital).2
    omega
  · have last : c.toNat ≤ 122 := of_decide_eq_true ((Bool.and_eq_true _ _).mp small).2
    omega

/-- A character that counts as a letter in a keyword has that letter as its capital form, except for two that have no
such form. -/
theorem upperChar_of_foldCase {c : Char} (letter : (foldCase c).isAlpha = true) (dotted : c ≠ 'İ')
    (kelvin : c ≠ '\u212A') : upperChar c = [foldCase c] := by
  rw [foldCase] at letter ⊢
  split at letter
  · next special =>
    obtain rfl : c = 'ı' := by simpa [dotted] using special
    decide +kernel
  next plain =>
  rw [if_neg plain]
  split at letter
  · next special =>
    rw [beq_iff_eq.mp special]
    decide +kernel
  next other =>
  rw [if_neg other]
  rw [if_neg (by simpa using kelvin)] at letter ⊢
  rw [isAlpha_toUpper] at letter
  rw [upperChar, if_pos (toNat_lt_of_isAlpha letter)]

theorem Spells.upperChars {keyword : String} {word : List Char} (spells : Spells keyword word)
    (letters : keyword.toList.all Char.isAlpha = true) (dotted : 'İ' ∉ word) (kelvin : '\u212A' ∉ word) :
    upperChars word = keyword.toList := by
  have each : ∀ c ∈ word, upperChar c = [foldCase c] := fun c member =>
    upperChar_of_foldCase (spells.letter letters member) (ne_of_mem_of_not_mem member dotted)
      (ne_of_mem_of_not_mem member kelvin)
  rw [Text.upperChars, List.flatMap_congr each, ← spells, List.map_eq_flatMap]

end Letters

section Front

theorem leadingName_append (cs : List Char) : cs = leadingName cs ++ cs.dropWhile isIdentifierChar :=
  List.takeWhile_append_dropWhile.symm

theorem isIdentifierChar_of_mem_leadingName {cs : List Char} {c : Char} (member : c ∈ leadingName cs) :
    isIdentifierChar c = true :=
  List.all_eq_true.mp List.all_takeWhile c member

theorem stops_afterName (cs : List Char) : ∀ c ∈ (cs.dropWhile isIdentifierChar).head?, isIdentifierChar c = false := by
  intro c head
  have stop := List.head?_dropWhile_not isIdentifierChar cs
  rw [Option.mem_def] at head
  simpa [head] using stop

theorem startsInWord_afterName (cs : List Char) : startsInWord (cs.dropWhile isIdentifierChar) = false := by
  cases front : cs.dropWhile isIdentifierChar with
  | nil => rfl
  | cons c rest =>
    have stop := stops_afterName cs c (by rw [front]; rfl)
    exact (Bool.or_eq_false_iff.mp stop).2

/-- A keyword is read in the first name of a text or not at all. -/
theorem afterKeyword?_leadingName {keyword : List Char} (letters : keyword.all Char.isAlpha = true) (cs : List Char) :
    afterKeyword? keyword cs =
      (afterKeyword? keyword (leadingName cs)).map (· ++ cs.dropWhile isIdentifierChar) := by
  conv => lhs; rw [leadingName_append cs]
  exact afterKeyword?_append_other letters (other_of_startsInWord (startsInWord_afterName cs)) _

theorem isSome_afterWholePhrase?_iff {keyword : String} (letters : keyword.toList.all Char.isAlpha = true)
    (cs : List Char) :
    (afterWholePhrase? [keyword] false cs).isSome = true ↔ StartsAs keyword (leadingName cs) := by
  have word (rest : List Char) (inside : ∀ c ∈ rest, isIdentifierChar c = true) :
      startsInWord (rest ++ cs.dropWhile isIdentifierChar) = false ↔ ∀ c ∈ rest.head?, c = '$' := by
    cases rest with
    | nil => simp [startsInWord_afterName]
    | cons c rest =>
      have either : c = '$' ∨ isWordChar c = true := by
        simpa [isIdentifierChar] using inside c List.mem_cons_self
      have dollar : isWordChar '$' = false := by decide
      constructor
      · rintro outside d ⟨⟩
        exact either.resolve_right (by rw [show isWordChar c = false from outside]; exact Bool.false_ne_true)
      · intro stop
        obtain rfl : c = '$' := stop c rfl
        exact dollar
  rw [afterWholePhrase?, if_neg Bool.false_ne_true, afterPhrase?, afterKeyword?_leadingName letters]
  constructor
  · intro read
    obtain ⟨after, found⟩ := Option.isSome_iff_exists.mp read
    obtain ⟨found, outside⟩ := Option.filter_eq_some_iff.mp found
    obtain ⟨rest, spelled, rfl⟩ := Option.map_eq_some_iff.mp found
    obtain ⟨front, spells, split⟩ := afterKeyword?_eq_some spelled
    refine ⟨front, rest, split, spells, (word rest fun c member => ?_).mp (by simpa using outside)⟩
    exact isIdentifierChar_of_mem_leadingName (split ▸ List.mem_append_right front member)
  · rintro ⟨front, rest, split, spells, stop⟩
    have inside : ∀ c ∈ rest, isIdentifierChar c = true := fun c member =>
      isIdentifierChar_of_mem_leadingName (split ▸ List.mem_append_right front member)
    rw [split, afterKeyword?_append spells, Option.map_some, Option.filter_some, (word rest inside).mpr stop]
    rfl

theorem isSome_afterWholePhrase?_pair {first second : String} (letters : first.toList.all Char.isAlpha = true)
    (more : second.toList.all Char.isAlpha = true) {cs : List Char}
    (apart : (cs.dropWhile isIdentifierChar).head?.any isBlank = true) :
    (afterWholePhrase? [first, second] false cs).isSome = true ↔
      Spells first (leadingName cs) ∧ StartsAs second (leadingName (afterName cs)) := by
  have split : afterPhrase? [first, second] cs =
      ((afterKeyword? first.toList cs).bind afterBlanks?).bind (afterPhrase? [second]) := by
    rw [afterPhrase?]
    · rfl
    · exact List.cons_ne_nil _ _
  rw [afterWholePhrase?, if_neg Bool.false_ne_true, split, afterKeyword?_leadingName letters,
    ← isSome_afterWholePhrase?_iff more, afterWholePhrase?, if_neg Bool.false_ne_true]
  cases read : afterKeyword? first.toList (leadingName cs) with
  | none =>
    refine iff_of_false Bool.false_ne_true fun both => ?_
    have found := afterKeyword?_append both.1 []
    rw [List.append_nil, read] at found
    cases found
  | some rest =>
    obtain ⟨word, spells, whole⟩ := afterKeyword?_eq_some read
    rw [Option.map_some, Option.bind_some, afterBlanks?_eq]
    cases rest with
    | nil =>
      rw [List.append_nil] at whole
      rw [List.nil_append, if_pos apart, whole]
      exact (and_iff_right spells).symm
    | cons c rest =>
      -- The rest of a longer name stands where white space has to be.
      have inside : c ∈ leadingName cs := whole ▸ List.mem_append_right word List.mem_cons_self
      have solid := isBlank_of_isIdentifierChar (isIdentifierChar_of_mem_leadingName inside)
      rw [if_neg (by rw [List.cons_append, List.head?_cons, Option.any_some, solid]; exact Bool.false_ne_true)]
      refine iff_of_false Bool.false_ne_true fun both => ?_
      have long := congrArg List.length (whole ▸ both.1.trans spells.symm)
      simp at long

end Front

namespace IsNamed

variable {definition : List Char} (named : IsNamed definition)
include named

theorem head : ∀ c, definition.head? = some c → isBlank c = false := by
  intro c found
  have start : (leadingName definition).head? = some c := by
    obtain ⟨d, rest, front⟩ := List.exists_cons_of_ne_nil named.given
    have split := leadingName_append definition
    rw [front] at split ⊢
    rw [split] at found
    exact found
  exact isBlank_of_isIdentifierChar (isIdentifierChar_of_mem_leadingName (List.mem_of_mem_head? start))

theorem isTableClause_iff : isTableClause definition = true ↔ LooksLikeClause definition := by
  have single {keyword : String} (letters : keyword.toList.all Char.isAlpha = true) :=
    isSome_afterWholePhrase?_iff letters definition
  have pair {keyword : String} (letters : keyword.toList.all Char.isAlpha = true) :=
    isSome_afterWholePhrase?_pair letters (by decide : "KEY".toList.all Char.isAlpha = true) named.apart
  rw [isTableClause, trimStart_head named.head]
  simp only [tableClauses, List.any_cons, List.any_nil, Bool.or_false, Bool.or_eq_true, LooksLikeClause,
    List.mem_cons, List.not_mem_nil, or_false, exists_eq_or_imp, exists_eq_left,
    single (by decide : "CONSTRAINT".toList.all Char.isAlpha = true),
    single (by decide : "CHECK".toList.all Char.isAlpha = true),
    single (by decide : "UNIQUE".toList.all Char.isAlpha = true),
    pair (by decide : "PRIMARY".toList.all Char.isAlpha = true),
    pair (by decide : "FOREIGN".toList.all Char.isAlpha = true)]
  rw [← or_assoc, ← or_and_right]
  exact or_comm

end IsNamed

theorem isSome_afterType?_iff {cs : List Char} :
    (afterType? cs).isSome = true ↔ cs.head?.any isIdentifierChar = true := by
  cases start : cs.head?.any isIdentifierChar with
  | true =>
    have named : (identifier? cs).isSome = true := by
      cases cs with
      | nil => cases start
      | cons c rest =>
        rw [identifier?, List.takeWhile_cons_of_pos (show isIdentifierChar c = true from start)]
        rfl
    simp [afterType?, named]
  | false =>
    have other : ∀ c ∈ cs.head?, isIdentifierChar c = false := by
      rintro c head
      rwa [head, Option.any_some] at start
    simp [afterType?_eq_none other]

/-- A definition reads as that of a column just if it is named, and then under its first name. -/
theorem columnReading?_name {definition : List Char} (trimmed : Trimmed definition) :
    (columnReading? definition).map DomainReading.name =
      if IsNamed definition then some (leadingName definition) else none := by
  have name : identifier? definition = if leadingName definition = [] then none
      else some (leadingName definition, definition.dropWhile isIdentifierChar) := by
    rw [identifier?, ← leadingName]
    simp only [List.isEmpty_iff]
  rw [columnReading?, trimmed.trimChars_eq, name]
  by_cases given : leadingName definition = []
  · rw [if_pos given, if_neg fun named : IsNamed definition => named.given given]
    rfl
  rw [if_neg given, Option.bind_eq_bind, Option.bind_some]
  dsimp only
  rw [afterBlanks?_eq, ← afterName]
  by_cases apart : (definition.dropWhile isIdentifierChar).head?.any isBlank = true
  · rw [if_pos apart, Option.bind_eq_bind, Option.bind_some, typeReading?]
    have typed := @isSome_afterType?_iff (afterName definition)
    cases read : afterType? (afterName definition) with
    | none =>
      rw [read] at typed
      rw [if_neg fun named : IsNamed definition => Bool.false_ne_true (typed.mpr named.typed)]
      rfl
    | some after =>
      rw [read] at typed
      rw [if_pos (⟨given, apart, typed.mp rfl⟩ : IsNamed definition)]
      rfl
  · rw [if_neg apart, if_neg fun named : IsNamed definition => apart named.apart]
    rfl

/-- The first name of what looks like a clause is one of its keywords, or has a dollar sign in it or a letter that
is no capital letter of ASCII itself and yet counts as one in a keyword. -/
theorem LooksLikeClause.definedName_mem {definition : List Char} (looks : LooksLikeClause definition)
    (dollar : '$' ∉ leadingName definition) (dotted : 'İ' ∉ leadingName definition)
    (kelvin : '\u212A' ∉ leadingName definition) : definedName definition ∈ clauseNames := by
  have spelled {keyword : String} (letters : keyword.toList.all Char.isAlpha = true)
      (spells : Spells keyword (leadingName definition)) : definedName definition = keyword := by
    rw [definedName, spells.upperChars letters dotted kelvin, String.ofList_toList]
  rcases looks with ⟨keyword, known, word, rest, split, spells, stop⟩ | ⟨⟨keyword, known, spells⟩, _⟩
  · cases rest with
    | nil =>
      rw [List.append_nil] at split
      rw [← split] at spells
      simp only [List.mem_cons, List.not_mem_nil, or_false] at known
      rcases known with rfl | rfl | rfl <;> (rw [spelled (by decide) spells]; decide)
    | cons c rest =>
      obtain rfl : c = '$' := stop c rfl
      exact absurd (split ▸ List.mem_append_right word List.mem_cons_self) dollar
  · simp only [List.mem_cons, List.not_mem_nil, or_false] at known
    rcases known with rfl | rfl <;> (rw [spelled (by decide) spells]; decide)

end Script

open Script

namespace Column

variable {definition : List Char} (trimmed : Trimmed definition)
include trimmed

theorem declaresNothing_iff : declaresNothing definition = true ↔ ¬(IsNamed definition ∧ ¬LooksLikeClause definition) := by
  have reading := columnReading?_name trimmed
  by_cases named : IsNamed definition
  · rw [if_pos named] at reading
    have some : (columnReading? definition).isNone = false := by
      cases found : columnReading? definition with
      | none => rw [found] at reading; cases reading
      | some _ => rfl
    rw [declaresNothing, some, Bool.or_false, named.isTableClause_iff]
    exact ⟨fun looks both => both.2 looks, fun neither => by_contra fun plain => neither ⟨named, plain⟩⟩
  · rw [if_neg named, Option.map_eq_none_iff] at reading
    rw [declaresNothing, reading, Option.isNone_none, Bool.or_true]
    exact iff_of_true rfl fun both => named both.1

theorem name_of_ofDefinitionChars {position : Int} {c : Column}
    (read : ofDefinitionChars definition position = .ok (some c)) :
    (IsNamed definition ∧ ¬LooksLikeClause definition) ∧ c.name = definedName definition ∧ c.position = position := by
  have declared : ¬declaresNothing definition = true := fun nothing => by
    rw [(ofDefinitionChars_eq_none_iff definition position).mpr nothing] at read
    cases read
  rw [declaresNothing_iff trimmed, not_not] at declared
  have reading := columnReading?_name trimmed
  rw [if_pos declared.1] at reading
  obtain ⟨⟨name, type⟩, found, rfl⟩ := Option.map_eq_some_iff.mp reading
  rw [ofDefinitionChars, found] at read
  split at read
  · cases read
  dsimp only at read
  generalize made : Column.create _ _ _ _ _ _ = result at read
  cases result with
  | error e => cases read
  | ok d =>
    cases read
    exact ⟨declared, create_eq_ok made⟩

omit trimmed in
theorem ofDefinitions_skip {position : Int} (read : ofDefinitionChars definition position = .ok none)
    (more : List (List Char)) : ofDefinitions position (definition :: more) = ofDefinitions position more := by
  rw [ofDefinitions, read]
  rfl

omit trimmed in
/-- One definition after another takes the next position if it gives a column, and none otherwise. -/
theorem ofDefinitions_names {definitions : List (List Char)} (tidy : ∀ d ∈ definitions, Trimmed d) {start : Nat}
    {columns : List Column} (read : ofDefinitions start definitions = .ok columns) :
    columns.map (fun c => (c.name, c.position)) =
      ((columnNames definitions).zipIdx start).map (Prod.map id Int.ofNat) := by
  induction definitions generalizing start columns with
  | nil =>
    cases read
    rfl
  | cons d definitions ih =>
    rw [List.forall_mem_cons] at tidy
    cases here : ofDefinitionChars d start with
    | error e =>
      rw [ofDefinitions, here] at read
      cases read
    | ok column =>
      cases column with
      | none =>
        have skipped := (declaresNothing_iff tidy.1).mp ((ofDefinitionChars_eq_none_iff d start).mp here)
        rw [ofDefinitions_skip here] at read
        rw [columnNames, List.filter_cons_of_neg (by simpa using skipped)]
        exact ih tidy.2 read
      | some c =>
        obtain ⟨kept, named, placed⟩ := name_of_ofDefinitionChars tidy.1 here
        rw [ofDefinitions_cons here] at read
        cases rest : ofDefinitions (start + 1) definitions with
        | error e =>
          rw [rest] at read
          cases read
        | ok others =>
          rw [rest] at read
          cases read
          have more : others.map (fun c => (c.name, c.position)) =
            ((columnNames definitions).zipIdx (start + 1)).map (Prod.map id Int.ofNat) := ih tidy.2 rest
          rw [columnNames, List.filter_cons_of_pos (by simpa using kept), List.map_cons, List.map_cons,
            List.zipIdx_cons, List.map_cons, more, named, placed]
          rfl

end Column

namespace Table

/-- The table of a script whose body declares columns. -/
theorem ofScript_of_definitions {script : String} {text name after body : List Char} {columns : List Column}
    (given : isBlankText script = false) (kept : stripCommentChars script.toList = text)
    (named : firstMatch? tableName? text = some (name, after)) (inside : firstMatch? tableBody? text = some body)
    (declared : Column.ofDefinitions 0 (columnDefinitions body) = .ok columns) (some : columns ≠ []) :
    Table.ofScript script = Table.create (String.ofList (upperChars name)) columns := by
  have full : columns.isEmpty = false := List.isEmpty_eq_false_iff.mpr some
  simp only [Table.ofScript, requireText, given, kept, named, inside, declared]
  exact if_neg (by rw [full]; exact Bool.false_ne_true)

/-- The columns of a table that has been read are those that the named definitions in its body declare, in their order
and at the positions 0, 1, 2, ..., except for the definitions that look like a clause about the whole table. Where the
name of a definition is no keyword of such a clause, it looks like one only by a dollar sign in the name or by one of
two letters that count as ASCII letters in a keyword. -/
theorem columns_of_definitions {script : String} {t : Table} (read : Table.ofScript script = .ok t) :
    ∃ body, firstMatch? tableBody? (stripCommentChars script.toList) = some body ∧
      t.columns.map (fun c => (c.name, c.position)) =
        (columnNames (columnDefinitions body)).zipIdx.map (Prod.map id Int.ofNat) ∧
      ∀ d ∈ columnDefinitions body, LooksLikeClause d → definedName d ∉ clauseNames →
        '$' ∈ leadingName d ∨ 'İ' ∈ leadingName d ∨ '\u212A' ∈ leadingName d := by
  obtain ⟨body, found, declared⟩ := Table.ofScript_eq_ok read
  have tidy : ∀ d ∈ columnDefinitions body, Trimmed d := fun d member => (mem_neat member).1
  refine ⟨body, found, Column.ofDefinitions_names tidy declared, fun d _ looks other => ?_⟩
  by_contra neither
  obtain ⟨dollar, dotted, kelvin⟩ := by simpa only [not_or] using neither
  exact other (looks.definedName_mem dollar dotted kelvin)

/-- A column whose name starts with a keyword and a dollar sign is left out, and takes no position. -/
theorem columns_of_definitions_sums :
    let script := "CREATE TABLE SUMS (ID INTEGER, CHECK$SUM INTEGER, PRIMARY KEY (ID), TOTAL INTEGER);"
    ∃ t, Table.ofScript script = .ok t ∧ t.columns.map (fun c => (c.name, c.position)) = [("ID", 0), ("TOTAL", 1)] := by
  intro script
  have text : stripCommentChars script.toList = script.toList :=
    stripCommentChars_eq_self (by decide) (by decide +kernel)
  have body : firstMatch? tableBody? script.toList =
      some "ID INTEGER, CHECK$SUM INTEGER, PRIMARY KEY (ID), TOTAL INTEGER".toList := by decide +kernel
  let id : Column := ⟨"ID", 0, none, some "INTEGER", true, none, rfl, by decide⟩
  let total : Column := ⟨"TOTAL", 1, none, some "INTEGER", true, none, rfl, by decide⟩
  have read : Table.ofScript script = .ok ⟨"SUMS", [id, total], rfl, by decide, by decide⟩ := by
    have plain : id.Plain ∧ total.Plain :=
      ⟨.of_word (by decide) (by decide) rfl rfl rfl (by decide) (by decide),
        .of_word (by decide) (by decide) rfl rfl rfl (by decide) (by decide)⟩
    have first := Column.ofDefinitionChars_definition plain.1.canonical 0
    have last := Column.ofDefinitionChars_definition plain.2.canonical 1
    have declared : Column.ofDefinitions 0 (columnDefinitions
        "ID INTEGER, CHECK$SUM INTEGER, PRIMARY KEY (ID), TOTAL INTEGER".toList) = .ok [id, total] := by
      have split : columnDefinitions "ID INTEGER, CHECK$SUM INTEGER, PRIMARY KEY (ID), TOTAL INTEGER".toList =
        [id.definition.toList, "CHECK$SUM INTEGER".toList, "PRIMARY KEY (ID)".toList, total.definition.toList] := by
          decide +kernel
      have sum := (Column.ofDefinitionChars_eq_none_iff "CHECK$SUM INTEGER".toList 1).mpr (by decide +kernel)
      have key := (Column.ofDefinitionChars_eq_none_iff "PRIMARY KEY (ID)".toList 1).mpr (by decide +kernel)
      rw [split, Column.ofDefinitions_cons first, Int.zero_add, Column.ofDefinitions_skip sum,
        Column.ofDefinitions_skip key, Column.ofDefinitions_cons last]
      rfl
    have name : firstMatch? tableName? script.toList =
      some ("SUMS".toList, script.toList.drop "CREATE TABLE SUMS".length) := by decide +kernel
    rw [ofScript_of_definitions (by decide +kernel) text name body declared (List.cons_ne_nil _ _)]
    exact create_placedFrom rfl (List.cons_ne_nil id [total])
  obtain ⟨_, found, columns, _⟩ := columns_of_definitions read
  rw [text, body] at found
  cases found
  exact ⟨_, read, columns.trans (by decide +kernel)⟩

end Table

end SchemaSync
