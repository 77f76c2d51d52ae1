import SchemaSync.Proofs.Script.TableScript

/-! Tables with plain names read back from their scripts unchanged. A column may have any plain name that
does not make its definition look like a clause about the whole table. -/

namespace SchemaSync

open Text Script

namespace Script

/-- Whether a column of this name is taken for a clause about the whole table, whatever its type is. The
dollar sign is part of a name but ends a word. -/
def startsClause (name : List Char) : Bool :=
  name == "PRIMARY".toList || name == "FOREIGN".toList ||
    ["CONSTRAINT", "CHECK", "UNIQUE"].any fun word =>
      name == word.toList || (word.toList ++ ['$']).isPrefixOf name

theorem foldCase_of_isNameChar {c : Char} (plain : isNameChar c = true) : foldCase c = c :=
  beq_iff_eq.mp (test_of_isNameChar (fun c => foldCase c == c) (by decide +kernel) plain)

theorem isWordChar_of_isNameChar {c : Char} (plain : isNameChar c = true) (other : c ≠ '$') :
    isWordChar c = true := by
  have either := test_of_isNameChar (fun c => isWordChar c || c == '$') (by decide +kernel) plain
  rw [Bool.or_eq_true, beq_iff_eq] at either
  exact either.resolve_right other

/-- A keyword that is read where a plain name stands is the start of the name. -/
private theorem afterKeyword?_name {keyword name rest after : List Char} (plain : name.all isNameChar = true)
    (letters : keyword.all Char.isAlpha = true)
    (read : afterKeyword? keyword (name ++ ' ' :: rest) = some after) :
    ∃ more, name = keyword ++ more ∧ after = more ++ ' ' :: rest := by
  induction keyword generalizing name with
  | nil => exact ⟨name, rfl, (Option.some.inj read).symm⟩
  | cons k keyword ih =>
    rw [List.all_cons, Bool.and_eq_true] at letters
    cases name with
    | nil =>
      rw [List.nil_append, afterKeyword?] at read
      split at read
      · next same =>
        obtain rfl := beq_iff_eq.mp same
        cases letters.1
      · cases read
    | cons c name =>
      rw [List.all_cons, Bool.and_eq_true] at plain
      rw [List.cons_append, afterKeyword?, foldCase_of_isNameChar plain.1] at read
      split at read
      · next same =>
        obtain ⟨more, rfl, split⟩ := ih plain.2 letters.2 read
        exact ⟨more, by rw [beq_iff_eq.mp same, List.cons_append], split⟩
      · cases read

variable {name rest : List Char}

/-- Two keywords are read across the end of a name only if the name is the first of them. -/
private theorem name_eq_of_afterWholePhrase? {first second : String} (plain : IsName name)
    (letters : first.toList.all Char.isAlpha = true)
    (read : (afterWholePhrase? [first, second] false (name ++ ' ' :: rest)).isSome = true) :
    name = first.toList := by
  rw [afterWholePhrase?, if_neg Bool.false_ne_true, afterPhrase?, afterSpaced?] at read
  · cases word : afterKeyword? first.toList (name ++ ' ' :: rest) with
    | none =>
      rw [word] at read
      cases read
    | some after =>
      obtain ⟨more, split, rfl⟩ := afterKeyword?_name plain.2 letters word
      rw [word, Option.bind_some] at read
      cases more with
      | nil => rw [split, List.append_nil]
      | cons c more =>
        -- The rest of a longer name stands where white space has to be.
        have solid : isBlank c = false := plain.solid (by rw [split]; simp)
        rw [List.cons_append, afterBlanks?, solid, if_neg Bool.false_ne_true] at read
        cases read
  · exact List.cons_ne_nil _ _

/-- One keyword is read across the end of a name only if the name is that keyword, or goes on with a dollar
sign after it. -/
private theorem name_of_afterWholePhrase? {keyword : String} (plain : IsName name)
    (letters : keyword.toList.all Char.isAlpha = true)
    (read : (afterWholePhrase? [keyword] false (name ++ ' ' :: rest)).isSome = true) :
    name = keyword.toList ∨ (keyword.toList ++ ['$']).isPrefixOf name = true := by
  rw [afterWholePhrase?, if_neg Bool.false_ne_true, afterPhrase?] at read
  cases word : afterKeyword? keyword.toList (name ++ ' ' :: rest) with
  | none =>
    rw [word] at read
    cases read
  | some after =>
    obtain ⟨more, split, rfl⟩ := afterKeyword?_name plain.2 letters word
    rw [word, Option.filter_some] at read
    cases more with
    | nil => exact .inl (by rw [split, List.append_nil])
    | cons c more =>
      by_cases dollar : c = '$'
      · refine .inr (List.isPrefixOf_iff_prefix.mpr ⟨more, ?_⟩)
        rw [split, dollar, List.append_assoc]
        rfl
      · have inside : isWordChar c = true :=
          isWordChar_of_isNameChar (plain.isNameChar (by rw [split]; simp)) dollar
        have same : startsInWord (c :: more ++ ' ' :: rest) = isWordChar c := rfl
        rw [same, inside] at read
        cases read

/-- The definition of a column is told from the clauses about the whole table by its name alone. -/
theorem isTableClause_name (plain : IsName name) (apart : startsClause name = false) :
    isTableClause (name ++ ' ' :: rest) = false := by
  have start : trimStart (name ++ ' ' :: rest) = name ++ ' ' :: rest :=
    trimStart_head (solid_append plain.start _)
  rw [← Bool.not_eq_true]
  intro clause
  rw [← Bool.not_eq_true] at apart
  rw [isTableClause, start] at clause
  simp only [tableClauses, List.any_cons, List.any_nil, Bool.or_false, Bool.or_eq_true] at clause
  simp only [startsClause, List.any_cons, List.any_nil, Bool.or_false, Bool.or_eq_true, beq_iff_eq] at apart
  rcases clause with primary | foreign | constraint | check | unique
  · exact apart (.inl (.inl (name_eq_of_afterWholePhrase? plain (by decide) primary)))
  · exact apart (.inl (.inr (name_eq_of_afterWholePhrase? plain (by decide) foreign)))
  · exact apart (.inr (.inl (name_of_afterWholePhrase? plain (by decide) constraint)))
  · exact apart (.inr (.inr (.inl (name_of_afterWholePhrase? plain (by decide) check))))
  · exact apart (.inr (.inr (.inr (name_of_afterWholePhrase? plain (by decide) unique))))

theorem isKnownType_name {n : String} (plain : IsName n.toList) (unknown : n ∉ knownTypes) :
    isKnownType n = false := by
  rw [isKnownType, isKnownTypeChars, wordsOf_solid plain.1 fun c => plain.solid]
  simpa [plain.upperChars_eq] using unknown

end Script

namespace Column

variable {c : Column}

/-- A column with a plain name, declared with a plain domain or a canonical type. -/
structure Plain (c : Column) : Prop where
  name : IsName c.name.toList
  apart : startsClause c.name.toList = false
  type : (∃ n, c.domainName = some n ∧ c.dataType = none ∧ IsName n.toList ∧ n ∉ knownTypes) ∨
    (c.domainName = none ∧ ∃ text base parameters, c.dataType = some text ∧
      IsType base parameters text.toList ∧ isKnownTypeChars base = true)
  default : ∀ v ∈ c.defaultValue, IsDefault v.toList ∧ nested 0 false v.toList = true

/-- A column of a type that is one word, without a default. -/
theorem Plain.of_word {word : String} (name : IsName c.name.toList) (apart : startsClause c.name.toList = false)
    (free : c.domainName = none) (type : c.dataType = some word) (bare : c.defaultValue = none)
    (plain : IsName word.toList) (known : isKnownTypeChars word.toList = true) : c.Plain where
  name := name
  apart := apart
  type := .inr ⟨free, word, _, _, type, .of_isName plain, known⟩
  default := by
    rw [bare]
    nofun

theorem Plain.canonical (plain : c.Plain) : c.Canonical where
  name := plain.name
  type := by
    rcases plain.type with ⟨n, bound, _, name, unknown⟩ | ⟨free, typed⟩
    · exact .inl ⟨n, bound, name, isKnownType_name name unknown⟩
    · exact .inr ⟨by rw [free]; rfl, typed⟩
  default := plain.default
  apart := by
    rw [definition_toList fun v given => (plain.default v given).1]
    exact isTableClause_name plain.name plain.apart

theorem Plain.placed_eq (plain : c.Plain) : c.placed c.position = c := by
  have typed := c.typed
  have domain : (if isGiven c.domainName then c.domainName else none) = c.domainName := by
    rcases plain.type with ⟨n, _, raw, _⟩ | ⟨free, _⟩
    · rw [raw] at typed
      rw [if_pos (by simpa [isGiven] using typed)]
    · rw [free]
      rfl
  have raw : (if isGiven c.domainName then none else c.dataType) = c.dataType := by
    rcases plain.type with ⟨n, _, raw, _⟩ | ⟨free, _⟩
    · rw [raw, ite_self]
    · rw [free]
      rfl
  simp only [placed, domain, raw]

/-- Some column of ascending ones stands as far along as there are columns. -/
private theorem exists_position {columns : List Column} (ascending : Ascending columns) (start : columns ≠ [])
    (position : Int) (above : ∀ c ∈ columns, position ≤ c.position) :
    ∃ c ∈ columns, position + columns.length ≤ c.position + 1 := by
  induction columns generalizing position with
  | nil => exact absurd rfl start
  | cons c rest ih =>
    rw [Ascending, List.pairwise_cons] at ascending
    have here := above c List.mem_cons_self
    cases rest with
    | nil => exact ⟨c, List.mem_cons_self, by rw [List.length_singleton]; omega⟩
    | cons d rest =>
      obtain ⟨e, member, far⟩ := ih ascending.2 (List.cons_ne_nil d rest) (position + 1) fun e member => by
        have := ascending.1 e member
        omega
      refine ⟨e, List.mem_cons_of_mem c member, ?_⟩
      rw [List.length_cons]
      omega

/-- Columns that fill the positions from one on stand where they read back. -/
theorem placedFrom_eq {columns : List Column} (plain : ∀ c ∈ columns, c.Plain) (ascending : Ascending columns)
    (position : Int) (filled : ∀ c ∈ columns, position ≤ c.position ∧ c.position < position + columns.length) :
    placedFrom position columns = columns := by
  induction columns generalizing position with
  | nil => rfl
  | cons c rest ih =>
    have later := List.pairwise_cons.mp ascending
    have within := filled c List.mem_cons_self
    have first : c.position = position := by
      obtain ⟨d, member, far⟩ := exists_position ascending (List.cons_ne_nil c rest) c.position
        fun d member => by
          rcases List.mem_cons.mp member with rfl | member
          · exact Int.le_refl _
          · exact Int.le_of_lt (later.1 d member)
      have := filled d member
      omega
    have others := ih (fun d member => plain d (List.mem_cons_of_mem c member)) later.2 (position + 1)
      fun d member => by
        have above := later.1 d member
        have below := (filled d (List.mem_cons_of_mem c member)).2
        rw [List.length_cons] at below
        omega
    rw [placedFrom, others, ← first, (plain c List.mem_cons_self).placed_eq]

end Column

namespace Table

variable {t : Table}

/-- A table of plain columns at the positions from zero on reads back from its script as it is. -/
theorem ofScript_script_filled (name : IsName t.name.toList) (plain : ∀ c ∈ t.columns, c.Plain)
    (filled : ∀ c ∈ t.columns, 0 ≤ c.position ∧ c.position < t.columns.length) :
    Table.ofScript t.script = .ok t := by
  have canonical : t.Canonical := ⟨name, fun c member => (plain c member).canonical⟩
  have same : Column.placedFrom 0 t.columns = t.columns :=
    Column.placedFrom_eq plain t.ascending 0 (by simpa using filled)
  rw [ofScript_script canonical]
  simp only [same]

/-- Literals may say anything, and names may begin like clauses. -/
theorem ofScript_script_order :
    let order : Table := ⟨"ORDER$", [
      ⟨"KEY", 0, some "AS", none, false, some "'a, b); -- it''s NOT NULL'", rfl, by decide⟩,
      ⟨"CHECKED", 1, none, some "NUMERIC(18,4)", true, some "COALESCE(1, (2)) /2", rfl, by decide⟩], rfl, by decide,
      by decide⟩
    Table.ofScript order.script = .ok order := by
  refine ofScript_script_filled (show IsName "ORDER$".toList by decide) ?_ (by decide)
  intro c member
  rcases List.mem_cons.mp member with rfl | member
  · refine ⟨show IsName "KEY".toList by decide, by decide, .inl ⟨"AS", rfl, rfl, by decide, by decide⟩, ?_⟩
    rintro _ ⟨⟩
    exact ⟨⟨by decide, ⟨by rintro c ⟨⟩; rfl, by rintro c ⟨⟩; rfl⟩, ⟨by decide +kernel, by decide +kernel⟩,
      by decide +kernel⟩, by decide +kernel⟩
  · obtain rfl := List.mem_singleton.mp member
    have type : IsType "NUMERIC".toList (some "18,4".toList) "NUMERIC(18,4)".toList := by
      refine ⟨.word (by decide), ?_, by decide⟩
      rintro _ ⟨⟩
      exact ⟨"18".toList, ⟨by decide, by decide⟩, .inr ⟨"4".toList, ⟨by decide, by decide⟩, rfl⟩⟩
    refine ⟨show IsName "CHECKED".toList by decide, by decide,
      .inr ⟨rfl, "NUMERIC(18,4)", _, _, rfl, type, by decide⟩, ?_⟩
    rintro _ ⟨⟩
    exact ⟨⟨by decide, ⟨by rintro c ⟨⟩; rfl, by rintro c ⟨⟩; rfl⟩, ⟨by decide +kernel, by decide +kernel⟩,
      by decide +kernel⟩, by decide +kernel⟩

end Table

end SchemaSync
