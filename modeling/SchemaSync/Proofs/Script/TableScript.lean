import SchemaSync.Proofs.Schema.TableForm
import SchemaSync.Proofs.Script.DomainScript
import SchemaSync.Proofs.Script.Nesting

/-! The script of a table reads back as the table it is written for, column by column. -/

namespace SchemaSync

open Text Script

namespace Script

section Parenthesis

theorem upToLastParenthesis?_append (front cs : List Char) : upToLastParenthesis? (front ++ cs) =
    ((upToLastParenthesis? cs).map (front ++ ·)).or (upToLastParenthesis? front) := by
  rw [upToLastParenthesis?, upToLastParenthesis?, List.reverse_append, List.dropWhile_append]
  cases read : cs.reverse.dropWhile (· != ')') with
  | nil =>
    rw [upToLastParenthesis?]
    rfl
  | cons d body => simp

theorem upToLastParenthesis?_eq_none {cs : List Char} (absent : ')' ∉ cs) : upToLastParenthesis? cs = none := by
  have other : ∀ c ∈ cs.reverse, (c != ')') = true := by
    intro c member
    rw [bne_iff_ne]
    rintro rfl
    exact absent (List.mem_reverse.mp member)
  have drop : (cs.reverse ++ []).dropWhile (· != ')') = [] := List.dropWhile_append_of_pos other
  rw [List.append_nil] at drop
  unfold upToLastParenthesis?
  rw [drop]

theorem upToLastParenthesis?_closed (cs rest : List Char) : upToLastParenthesis? (cs ++ (");".toList ++ rest)) =
    ((upToLastParenthesis? rest).map (cs ++ ");".toList ++ ·)).or (some cs) := by
  have closing : upToLastParenthesis? (cs ++ ");".toList) = some cs := by
    rw [upToLastParenthesis?_append]
    exact congrArg some (List.append_nil cs)
  rw [← List.append_assoc, upToLastParenthesis?_append, closing]

end Parenthesis

end Script

namespace Column

variable {c : Column}

/-- A column whose definition reads back: what is known as a type is no domain, and the other way
round. -/
structure Canonical (c : Column) : Prop where
  name : IsName c.name.toList
  type : (∃ n, c.domainName = some n ∧ IsName n.toList ∧ isKnownType n = false) ∨
    (isGiven c.domainName = false ∧ ∃ text base parameters, c.dataType = some text ∧
      IsType base parameters text.toList ∧ isKnownTypeChars base = true)
  default : ∀ v ∈ c.defaultValue, IsDefault v.toList ∧ nested 0 false v.toList = true
  apart : isTableClause c.definition.toList = false

/-- The column as it reads back at a position: an empty domain or type counts as none. -/
def placed (c : Column) (position : Int) : Column :=
  { c with
    position
    domainName := if isGiven c.domainName then c.domainName else none
    dataType := if isGiven c.domainName then none else c.dataType
    typed := by
      have typed := c.typed
      cases given : isGiven c.domainName with
      | true => simpa [isGiven] using given
      | false =>
        rw [given] at typed
        simpa [isGiven] using typed }

def lineFed (c : Column) : Column :=
  { c with defaultValue := c.defaultValue.map Text.lineFed }

theorem Canonical.readable (canonical : c.Canonical) : ∀ v ∈ c.defaultValue, IsDefault v.toList :=
  fun v given => (canonical.default v given).1

private theorem Canonical.typeText (canonical : c.Canonical) : ∃ base parameters,
    IsType base parameters c.typeText.toList ∧ isKnownTypeChars base = (!isGiven c.domainName) ∧
      (if isKnownTypeChars base then none else some (String.ofList (upperChars base))) =
        (if isGiven c.domainName then c.domainName else none) ∧
      (if isKnownTypeChars base then some (String.ofList (canonicalType base parameters)) else none) =
        (if isGiven c.domainName then none else c.dataType) := by
  rcases canonical.type with ⟨n, bound, name, unknown⟩ | ⟨free, text, base, parameters, typed, type, known⟩
  · have given : isGiven c.domainName = true := by
      have start : n.isEmpty = false := by
        rw [← Bool.not_eq_true, String.isEmpty_iff]
        rintro rfl
        exact name.1 rfl
      rw [bound, isGiven, Option.any_some, start]
      rfl
    have text : c.typeText = n := by rw [Column.typeText, if_pos given, bound, Option.getD_some]
    have type : IsType n.toList none n.toList := ⟨.word name, by simp, (List.append_nil _).symm⟩
    rw [isKnownType] at unknown
    refine ⟨n.toList, none, text ▸ type, ?_, ?_, ?_⟩
    · rw [unknown, given]
      rfl
    · rw [unknown, given, bound, name.upperChars_eq, String.ofList_toList]
      rfl
    · rw [unknown, given]
      rfl
  · have same : c.typeText = text := by
      rw [Column.typeText, if_neg (by simp [free]), typed, Option.getD_some]
    refine ⟨base, parameters, same ▸ type, ?_, ?_, ?_⟩
    · rw [known, free]
      rfl
    · rw [known, free]
      rfl
    · rw [known, free, typed, canonicalType_eq type, String.ofList_toList]
      rfl

theorem definition_toList (readable : ∀ v ∈ c.defaultValue, IsDefault v.toList) : c.definition.toList =
    c.name.toList ++ ' ' :: (c.typeText.toList ++
      clauseChars (c.defaultValue.map String.toList) c.isNullable false) := by
  unfold definition
  rw [← attributes_eq readable]
  simp only [String.toList_append, List.append_assoc]
  rfl

private theorem front_plain (canonical : c.Canonical) :
    (c.name.toList ++ ' ' :: c.typeText.toList).all isTypeChar = true := by
  obtain ⟨base, parameters, type, _⟩ := canonical.typeText
  rw [List.all_append, List.all_cons, all_isTypeChar canonical.name, type.all_isTypeChar]
  decide

theorem lineFed_definition (canonical : c.Canonical) :
    withLineFeeds c.definition.toList = c.lineFed.definition.toList := by
  have plain := front_plain canonical
  have none : '\r' ∉ c.name.toList ++ ' ' :: c.typeText.toList := fun member => by
    cases List.all_eq_true.mp plain _ member
  rw [definition_toList canonical.readable, definition_toList (c := c.lineFed) (readable_lineFed canonical.readable),
    ← List.cons_append, ← List.append_assoc, withLineFeeds_prepend none, withLineFeeds_clauseChars canonical.readable,
    List.append_assoc, List.cons_append]
  rfl

theorem Canonical.lineFed (canonical : c.Canonical) : c.lineFed.Canonical where
  name := canonical.name
  type := canonical.type
  default := by
    intro v member
    refine ⟨readable_lineFed canonical.readable v member, ?_⟩
    obtain ⟨text, given, rfl⟩ := Option.map_eq_some_iff.mp member
    rw [Text.lineFed, String.toList_ofList, nested_withLineFeeds]
    exact (canonical.default text given).2
  apart := by
    have letters : tableClauses.all (fun phrase => phrase.all (·.toList.all Char.isAlpha)) = true := by decide
    have apart := canonical.apart
    rw [isTableClause, List.any_eq_false] at apart ⊢
    intro phrase clause
    rw [← lineFed_definition canonical, trimStart_withLineFeeds, unseen_withLineFeeds.afterWholePhrase?_isSome]
    · exact apart phrase clause
    · exact List.all_eq_true.mp letters phrase clause

theorem bare_definition (canonical : c.Canonical) : Bare c.definition.toList := by
  rw [definition_toList canonical.readable, ← List.cons_append, ← List.append_assoc]
  exact (bare_clauseChars (readable_map canonical.readable)).prepend (all_safe (front_plain canonical))

theorem definition_start (canonical : c.Canonical) :
    ∃ d rest, c.definition.toList = d :: rest ∧ isNameChar d = true := by
  obtain ⟨d, more, split, plain⟩ := canonical.name.start
  rw [definition_toList canonical.readable, split]
  exact ⟨d, _, rfl, plain⟩

theorem trimmed_definition (canonical : c.Canonical) : Trimmed c.definition.toList where
  head := by
    obtain ⟨d, rest, split, plain⟩ := definition_start canonical
    rw [split]
    rintro e ⟨⟩
    exact isBlank_of_isNameChar plain
  last := by
    obtain ⟨base, parameters, type, _⟩ := canonical.typeText
    have text : c.typeText.toList ≠ [] := by
      obtain ⟨d, more, split, _⟩ := type.head
      rw [split]
      exact List.cons_ne_nil _ _
    have same : (c.name.toList ++ ' ' :: c.typeText.toList).getLast? = c.typeText.toList.getLast? := by
      rw [List.append_cons, List.getLast?_append, List.getLast?_eq_some_getLast text, Option.some_or]
    rw [definition_toList canonical.readable, ← List.cons_append, ← List.append_assoc]
    exact last_clauseChars (readable_map canonical.readable) (same ▸ type.last)

theorem nested_definition (canonical : c.Canonical) : nested 0 false c.definition.toList = true := by
  obtain ⟨base, parameters, type, _⟩ := canonical.typeText
  rw [definition_toList canonical.readable, nested_name canonical.name, nested_cons (by decide), nested_type type,
    nested_clauseChars]
  intro v member
  obtain ⟨text, given, rfl⟩ := Option.map_eq_some_iff.mp member
  exact (canonical.default text given).2

theorem whole_definition (canonical : c.Canonical) :
    nested 0 false c.definition.toList = true ∧ Trimmed c.definition.toList ∧ c.definition.toList ≠ [] := by
  refine ⟨nested_definition canonical, trimmed_definition canonical, ?_⟩
  obtain ⟨d, rest, split, _⟩ := definition_start canonical
  rw [split]
  exact List.cons_ne_nil _ _

/-- What stands after the type of a column decides whether the column allows null and what its default is. -/
theorem ofDefinitionChars_rest (canonical : c.Canonical) {rest : List Char} (ends : EndsType rest)
    (last : ∀ d ∈ (c.typeText.toList ++ rest).getLast?, isBlank d = false)
    (apart : isTableClause (definitionText c.name.toList c.typeText.toList rest) = false) (position : Int) :
    Column.ofDefinitionChars (definitionText c.name.toList c.typeText.toList rest) position =
      .ok (some { c.placed position with isNullable := allowsNull rest, defaultValue := declaredDefault rest }) := by
  obtain ⟨base, parameters, type, _, domain, raw⟩ := canonical.typeText
  rw [ofDefinitionChars_definitionText (.of_isName canonical.name) (typeReading?_append type.typeReading?_eq ends) last apart]
  simp only [domain, raw, canonical.name.upperChars_eq, String.ofList_toList]
  have typed : isGiven (if isGiven c.domainName then c.domainName else none) ≠
    isGiven (if isGiven c.domainName then none else c.dataType) := (c.placed position).typed
  rw [create, dif_pos c.named, dif_pos typed]
  rfl

theorem last_typeText (canonical : c.Canonical) : ∀ d ∈ c.typeText.toList.getLast?, isBlank d = false := by
  obtain ⟨base, parameters, type, _⟩ := canonical.typeText
  exact type.last

/-- The definition of a column gives the column at the position that is asked for. -/
theorem ofDefinitionChars_definition (canonical : c.Canonical) (position : Int) :
    Column.ofDefinitionChars c.definition.toList position = .ok (some (c.placed position)) := by
  have readable := readable_map canonical.readable
  have default : (c.defaultValue.map String.toList).map String.ofList = c.defaultValue := by
    cases c.defaultValue <;> simp
  have last : ∀ d ∈ (c.typeText.toList ++ clauseChars (c.defaultValue.map String.toList) c.isNullable false).getLast?,
      isBlank d = false := last_clauseChars readable (last_typeText canonical)
  have text : c.definition.toList = definitionText c.name.toList c.typeText.toList
      (clauseChars (c.defaultValue.map String.toList) c.isNullable false) := definition_toList canonical.readable
  have apart := canonical.apart
  rw [text] at apart ⊢
  rw [ofDefinitionChars_rest canonical endsType_clauseChars last apart, allowsNull_clauseChars readable,
    declaredDefault_clauseChars readable, default]
  rfl

/-- Columns at the positions that they read back at. -/
def placedFrom (position : Int) (columns : List Column) : List Column :=
  match columns with
  | [] => []
  | c :: rest => c.placed position :: placedFrom (position + 1) rest

theorem ofDefinitions_cons {definition : List Char} {position : Int} {c : Column}
    (read : Column.ofDefinitionChars definition position = .ok (some c)) (more : List (List Char)) :
    Column.ofDefinitions position (definition :: more) = (c :: ·) <$> Column.ofDefinitions (position + 1) more := by
  rw [Column.ofDefinitions, read]
  show (Column.ofDefinitions (position + 1) more >>= fun columns => pure (c :: columns)) = _
  cases Column.ofDefinitions (position + 1) more <;> rfl

/-- The definitions of columns give the columns, and what is defined after them has the next positions. -/
theorem ofDefinitions_append {columns : List Column} (canonical : ∀ c ∈ columns, c.Canonical)
    (more : List (List Char)) (position : Int) :
    Column.ofDefinitions position (columns.map (·.definition.toList) ++ more) =
      (placedFrom position columns ++ ·) <$> Column.ofDefinitions (position + columns.length) more := by
  induction columns generalizing position with
  | nil =>
    rw [List.map_nil, List.nil_append, List.length_nil, Int.natCast_zero, Int.add_zero]
    exact (id_map _).symm
  | cons c rest ih =>
    rw [List.forall_mem_cons] at canonical
    have length : position + ((c :: rest).length : Int) = position + 1 + rest.length := by
      rw [List.length_cons]
      omega
    rw [List.map_cons, List.cons_append, ofDefinitions_cons (ofDefinitionChars_definition canonical.1 position),
      ih canonical.2, length]
    cases Column.ofDefinitions (position + 1 + rest.length) more <;> rfl

theorem ofDefinitions_definition {columns : List Column} (canonical : ∀ c ∈ columns, c.Canonical)
    (position : Int) : Column.ofDefinitions position (columns.map (·.definition.toList)) =
      .ok (placedFrom position columns) := by
  have read := ofDefinitions_append canonical [] position
  rw [List.append_nil] at read
  rw [read]
  exact congrArg Except.ok (List.append_nil _)

theorem position_placedFrom (columns : List Column) (position : Int) :
    ∀ c ∈ placedFrom position columns, position ≤ c.position := by
  induction columns generalizing position with
  | nil => simp [placedFrom]
  | cons c rest ih =>
    intro d member
    rcases List.mem_cons.mp member with rfl | member
    · exact Int.le_refl _
    · have := ih (position + 1) d member
      omega

theorem placedFrom_ne_nil {columns : List Column} (start : columns ≠ []) (position : Int) :
    placedFrom position columns ≠ [] := by
  obtain ⟨c, rest, rfl⟩ := List.exists_cons_of_ne_nil start
  exact List.cons_ne_nil (c.placed position) _

theorem ascending_placedFrom (columns : List Column) (position : Int) :
    Ascending (placedFrom position columns) := by
  induction columns generalizing position with
  | nil => exact List.Pairwise.nil
  | cons c rest ih =>
    refine List.Pairwise.cons (fun d member => ?_) (ih (position + 1))
    have := position_placedFrom rest (position + 1) d member
    show position < d.position
    omega

end Column

namespace Table

variable {t : Table}

/-- A table whose script reads back. -/
structure Canonical (t : Table) : Prop where
  name : IsName t.name.toList
  columns : ∀ c ∈ t.columns, c.Canonical

def lineFed (t : Table) : Table :=
  { t with
    columns := t.columns.map Column.lineFed
    nonempty := fun none => t.nonempty (List.map_eq_nil_iff.mp none)
    ascending := List.pairwise_map.mpr t.ascending }

theorem Canonical.lineFed (canonical : t.Canonical) : t.lineFed.Canonical where
  name := canonical.name
  columns := by
    intro c member
    obtain ⟨column, inside, rfl⟩ := List.mem_map.mp member
    exact (canonical.columns column inside).lineFed

def definitions (t : Table) : List (List Char) :=
  t.columns.map (·.definition.toList)

theorem definitions_ne_nil (t : Table) : t.definitions ≠ [] :=
  fun none => t.nonempty (List.map_eq_nil_iff.mp none)

theorem Canonical.forall_definitions {P : List Char → Prop} (canonical : t.Canonical)
    (holds : ∀ c : Column, c.Canonical → P c.definition.toList) : ∀ d ∈ t.definitions, P d := by
  intro d member
  obtain ⟨c, inside, rfl⟩ := List.mem_map.mp member
  exact holds c (canonical.columns c inside)

theorem script_toList : t.script.toList =
    "CREATE TABLE ".toList ++ (t.name.toList ++ (" (".toList ++ (rows t.definitions ++ ");".toList))) := by
  have body : " (\n".toList ++ (",\n".toList.intercalate ((t.columns.map ("    " ++ ·.definition)).map
      String.toList) ++ "\n);".toList) = " (".toList ++ (rows t.definitions ++ ");".toList) := by
    have lines : (t.columns.map ("    " ++ ·.definition)).map String.toList =
        t.definitions.map ("    ".toList ++ ·) := by
      simp only [definitions, List.map_map]
      exact List.map_congr_left fun c _ => String.toList_append
    rw [lines, ← rows_eq t.definitions_ne_nil, List.cons_append, List.append_assoc]
    rfl
  unfold script
  rw [← body]
  simp only [String.toList_append, String.toList_intercalate, List.append_assoc]

theorem lineFed_script (canonical : t.Canonical) : Text.lineFed t.script = t.lineFed.script := by
  have front : ("CREATE TABLE ".toList ++ (t.name.toList ++ " (".toList)).all (· != '\r') = true := by
    rw [List.all_append, List.all_append, Bool.and_eq_true, Bool.and_eq_true]
    refine ⟨by decide, List.all_eq_true.mpr fun c member => ?_, by decide⟩
    rw [bne_iff_ne]
    rintro rfl
    cases canonical.name.isNameChar member
  have none : '\r' ∉ "CREATE TABLE ".toList ++ (t.name.toList ++ " (".toList) := fun member => by
    cases List.all_eq_true.mp front _ member
  have fed : t.definitions.map withLineFeeds = t.lineFed.definitions := by
    rw [definitions, definitions, lineFed, List.map_map, List.map_map]
    exact List.map_congr_left fun c member => Column.lineFed_definition (canonical.columns c member)
  have trimmed := canonical.forall_definitions (P := Trimmed) fun c => Column.trimmed_definition
  rw [← String.toList_inj, Text.lineFed, String.toList_ofList, script_toList, script_toList,
    ← List.append_assoc t.name.toList, ← List.append_assoc "CREATE TABLE ".toList, withLineFeeds_prepend none,
    withLineFeeds_rows trimmed, fed]
  simp only [List.append_assoc]
  rfl

theorem bare_script (canonical : t.Canonical) {rest : List Char} (more : Bare rest) : Bare (t.script.toList ++ rest) := by
  have bare := canonical.forall_definitions (P := Bare) fun c => Column.bare_definition
  have tail : Bare (");".toList ++ rest) := more.prepend (by decide)
  rw [script_toList]
  simp only [List.append_assoc]
  exact (((bare_rows bare tail).prepend (by decide)).prepend (all_safe (all_isTypeChar canonical.name))).prepend
    (by decide)

theorem trimmed_script : Trimmed t.script.toList := by
  constructor
  · intro c head
    rw [script_toList] at head
    obtain rfl : 'C' = c := Option.some.inj head
    decide
  · intro c last
    rw [script_toList, ← List.append_assoc, ← List.append_assoc, ← List.append_assoc, List.getLast?_append] at last
    obtain rfl : ';' = c := Option.some.inj last
    decide

theorem stripCommentChars_script (canonical : t.Canonical) {rest : List Char} (more : Bare rest) :
    stripCommentChars (t.script.toList ++ rest) = t.script.toList ++ trimEnd rest := by
  have given : t.script.toList ≠ [] := by
    rw [script_toList]
    exact List.append_ne_nil_of_left_ne_nil (by decide) _
  rw [stripCommentChars, (bare_script canonical more).kept_eq, trimChars,
    trimStart_head (head_append given trimmed_script.head rest), trimEnd_after trimmed_script.last]

theorem create_placedFrom {name : String} (named : isBlankText name = false) {columns : List Column}
    (start : columns ≠ []) : Table.create name (Column.placedFrom 0 columns) = .ok {
      name, named
      columns := Column.placedFrom 0 columns
      nonempty := Column.placedFrom_ne_nil start 0
      ascending := Column.ascending_placedFrom columns 0 } :=
  create_ascending named _ _

/-- A script that starts with the script of a table gives the columns of its body, which may go on in what
follows. -/
theorem ofScript_body (canonical : t.Canonical) {text : String} {rest body : List Char}
    (stripped : stripCommentChars text.toList = t.script.toList ++ rest) (given : isBlankText text = false)
    (closing : upToLastParenthesis? (rows t.definitions ++ (");".toList ++ rest)) = some body) :
    Table.ofScript text = Column.ofDefinitions 0 (columnDefinitions body) >>= fun columns =>
      if columns.isEmpty then .error (.script (.noColumns t.name)) else Table.create t.name columns := by
  have allowed : requireText .table text = .ok () := by
    rw [requireText, given, if_neg Bool.false_ne_true]
  have split : t.script.toList ++ rest = "CREATE TABLE ".toList ++ (t.name.toList ++ (" (".toList ++
      (rows t.definitions ++ (");".toList ++ rest)))) := by
    rw [script_toList]
    simp only [List.append_assoc]
  have name : tableName? (t.script.toList ++ rest) =
      some (t.name.toList, " (".toList ++ (rows t.definitions ++ (");".toList ++ rest))) := by
    have phrase : afterSpacedPhrase? ["CREATE", "TABLE"] (t.script.toList ++ rest) =
        some (t.name.toList ++ (" (".toList ++ (rows t.definitions ++ (");".toList ++ rest)))) := by
      rw [split]
      exact afterBlanks?_space (solid_append canonical.name.start _)
    rw [tableName?, phrase]
    exact identifier?_append canonical.name (identifier_stops rfl (by decide))
  have inside : tableBody? (t.script.toList ++ rest) = some body := by
    rw [tableBody?, name]
    exact closing
  rw [Table.ofScript, allowed, stripped]
  simp only [firstMatch?_front name, firstMatch?_front inside, canonical.name.upperChars_eq, String.ofList_toList]
  rfl

/-- A script that starts with the script of a table, and has no closing parenthesis after it, gives the table with
its columns counted from zero. -/
theorem ofScript_closed (canonical : t.Canonical) {text : String} {rest : List Char}
    (stripped : stripCommentChars text.toList = t.script.toList ++ rest) (given : isBlankText text = false)
    (closed : upToLastParenthesis? rest = none) : Table.ofScript text = .ok { t with
      columns := Column.placedFrom 0 t.columns
      nonempty := Column.placedFrom_ne_nil t.nonempty 0
      ascending := Column.ascending_placedFrom t.columns 0 } := by
  have closing : upToLastParenthesis? (rows t.definitions ++ (");".toList ++ rest)) = some (rows t.definitions) := by
    rw [upToLastParenthesis?_closed, closed]
    rfl
  have columns : columnDefinitions (rows t.definitions) = t.definitions := by
    exact columnDefinitions_rows t.definitions_ne_nil (canonical.forall_definitions fun c => Column.whole_definition)
  have more : (Column.placedFrom 0 t.columns).isEmpty = false :=
    List.isEmpty_eq_false_iff.mpr (Column.placedFrom_ne_nil t.nonempty 0)
  have read := Column.ofDefinitions_definition canonical.columns 0
  rw [ofScript_body canonical stripped given closing, columns]
  show (Column.ofDefinitions 0 (t.columns.map (·.definition.toList)) >>= _) = _
  rw [read]
  show (if (Column.placedFrom 0 t.columns).isEmpty then _ else _) = _
  rw [more, if_neg Bool.false_ne_true, create_placedFrom t.named t.nonempty]

theorem isBlankText_script : isBlankText t.script = false := by
  rw [isBlankText, script_toList]
  rfl

/-- The script of a table gives the table, with its columns counted from zero. -/
theorem ofScript_script (canonical : t.Canonical) : Table.ofScript t.script = .ok { t with
    columns := Column.placedFrom 0 t.columns
    nonempty := Column.placedFrom_ne_nil t.nonempty 0
    ascending := Column.ascending_placedFrom t.columns 0 } := by
  have stripped : stripCommentChars t.script.toList = t.script.toList ++ [] := by
    have stripped := stripCommentChars_script canonical bare_nil
    rwa [List.append_nil] at stripped
  exact ofScript_closed canonical stripped isBlankText_script rfl

/-- The script of a table with line feeds gives a table that differs at most in the positions of its
columns and in the line ends of their defaults. -/
theorem ofScript_lineFed (canonical : t.Canonical) : ∃ u, Table.ofScript (Text.lineFed t.script) = .ok u ∧
    u.name = t.name ∧ u.columns = Column.placedFrom 0 (t.columns.map Column.lineFed) := by
  rw [lineFed_script canonical]
  exact ⟨_, ofScript_script canonical.lineFed, rfl, rfl⟩

end Table

end SchemaSync
