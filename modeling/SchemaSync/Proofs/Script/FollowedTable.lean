import SchemaSync.Proofs.Script.PlainTable

/-! The script of a table with more statements after it. The body of a table extends to the last closing
parenthesis of the whole script, so that what follows a table is read as more of its last column and as more
definitions, as far as it has a closing parenthesis. -/

namespace SchemaSync

open Text

namespace Script

theorem upToLastParenthesis?_trimEnd (cs : List Char) : upToLastParenthesis? (trimEnd cs) = upToLastParenthesis? cs := by
  obtain ⟨blanks, blank, split⟩ := trimEnd_split cs
  have absent : ')' ∉ blanks := fun member => by cases blank _ member
  conv => rhs; rw [split, upToLastParenthesis?_append, upToLastParenthesis?_eq_none absent]
  rfl

/-- What a text after the script of a table is read as: its parts between commas, up to its last closing
parenthesis. The first part goes on with the last column. -/
def spill (cs : List Char) : List (List Char) :=
  match upToLastParenthesis? cs with
  | none => []
  | some inside => (splitAtCommas 0 false inside).map trimChars

theorem spill_eq_cons {cs first : List Char} {more : List (List Char)} (spilled : spill cs = first :: more) :
    ∃ inside part parts, upToLastParenthesis? cs = some inside ∧ splitAtCommas 0 false inside = part :: parts ∧
      trimChars part = first ∧ parts.map trimChars = more := by
  rw [spill] at spilled
  cases found : upToLastParenthesis? cs with
  | none =>
    rw [found] at spilled
    cases spilled
  | some inside =>
    rw [found] at spilled
    obtain ⟨part, parts, split, same⟩ := List.map_eq_cons_iff.mp spilled
    exact ⟨inside, part, parts, rfl, split, same⟩

def declaresNothing (definition : List Char) : Bool :=
  isTableClause definition || (columnReading? definition).isNone

theorem splitAtCommas_ne_nil (depth : Nat) (quoted : Bool) (cs : List Char) : splitAtCommas depth quoted cs ≠ [] := by
  cases cs with
  | nil => exact List.cons_ne_nil _ _
  | cons c cs =>
    rw [splitAtCommas]
    split
    · exact List.cons_ne_nil _ _
    · dsimp only
      split <;> exact List.cons_ne_nil _ _

def afterTable (blanks rest : List Char) : List Char :=
  "\n);".toList ++ (blanks ++ rest)

section Rows

variable {init : List (List Char)} {last rest part : List Char} {parts : List (List Char)}
  (whole : ∀ d ∈ init ++ [last], nested 0 false d = true ∧ Trimmed d ∧ d ≠ [])
include whole

/-- The definitions of a body that goes on after its last row. -/
theorem columnDefinitions_followed (split : splitAtCommas 0 false rest = part :: parts) :
    ∃ blanks, (∀ c ∈ blanks, isBlank c = true) ∧
      Trimmed (last ++ afterTable blanks (trimChars part)) ∧
      columnDefinitions (rows (init ++ [last]) ++ (");\n".toList ++ rest)) =
        init ++ (last ++ afterTable blanks (trimChars part)) ::
          (parts.map trimChars).filter (!·.isEmpty) := by
  obtain ⟨_, trimmed, given⟩ := whole last (List.mem_append_right init List.mem_cons_self)
  have closing : splitAtCommas 0 false (");\n".toList ++ rest) = (");\n".toList ++ part) :: parts :=
    splitAtCommas_cons rfl (splitAtCommas_cons rfl (splitAtCommas_cons rfl split))
  obtain ⟨blanks, blank, trim⟩ := trimEnd_blanks_trimChars ('\n' :: part)
  have joined : trimChars (last ++ '\n' :: (");\n".toList ++ part)) =
      last ++ afterTable blanks (trimChars part) := by
    have text : last ++ '\n' :: (");\n".toList ++ part) = last ++ "\n);".toList ++ '\n' :: part := by
      rw [List.append_assoc]
      rfl
    have stop : ∀ c, (last ++ "\n);".toList).getLast? = some c → isBlank c = false :=
      last_append (by decide) (by rintro c ⟨⟩; decide) last
    rw [trimChars, trimStart_head (head_append given trimmed.head _), text, trimEnd_after stop, trim, List.append_assoc]
    rfl
  refine ⟨blanks, blank, joined ▸ trimmed_trimChars _, ?_⟩
  rw [columnDefinitions_append whole closing, joined]

end Rows

section Blanks

variable {blanks cs : List Char} (blank : ∀ c ∈ blanks, isBlank c = true)
include blank

theorem allowsNull_blanks : allowsNull (blanks ++ cs) = allowsNull cs := by
  apply allowsNull_prepend
  · intro member
    cases blank _ member
  · intro cs
    induction blanks with
    | nil => rfl
    | cons c blanks ih =>
      rw [List.forall_mem_cons] at blank
      have unread : afterPhrase? ["NOT", "NULL"] (c :: (blanks ++ cs)) = none :=
        afterPhrase?_none (afterKeyword?_other (by decide) (by decide) (notAlpha_of_blank blank.1 _))
      rw [List.cons_append, hasWholePhrase, afterWholePhrase?, unread, Option.filter_none, ite_self,
        isWordChar_of_blank blank.1, ih blank.2]
      rfl

theorem declaredDefault_blanks : declaredDefault (blanks ++ cs) = declaredDefault cs := by
  have skip : findDefault? false (blanks ++ cs) = findDefault? false cs := by
    induction blanks with
    | nil => rfl
    | cons c blanks ih =>
      rw [List.forall_mem_cons] at blank
      have unread : afterKeyword? "DEFAULT".toList (c :: (blanks ++ cs)) = none :=
        afterKeyword?_other (by decide) (by decide) (notAlpha_of_blank blank.1 _)
      rw [List.cons_append, findDefault?, unread, isWordChar_of_blank blank.1, ih blank.2]
      rfl
  rw [declaredDefault, declaredDefault, skip]

end Blanks

section Clauses

variable {value : Option (List Char)} {isNullable : Bool} {blanks rest : List Char}
  (readable : ∀ v ∈ value, IsDefault v) (blank : ∀ c ∈ blanks, isBlank c = true)
include readable blank

theorem allowsNull_followed : allowsNull (clauseChars value isNullable false ++ afterTable blanks rest) =
    (isNullable && allowsNull rest) := by
  have apart : Apart ["NOT", "NULL"] (afterTable blanks rest) := rfl
  have quote : (afterTable blanks rest).head? ≠ some '\'' := bne_iff_ne.mp rfl
  rw [allowsNull_append (bare_clauseChars readable).closed quote apart, allowsNull_clauseChars readable]
  unfold afterTable
  rw [allowsNull_prepend (by decide) fun _ => rfl, allowsNull_blanks blank]

omit readable blank in
/-- A default that ends a table goes on up to the end of the statement. -/
theorem IsDefault.closing {v : List Char} (default : IsDefault v) : IsDefault (v ++ "\n)".toList) where
  given := List.append_ne_nil_of_left_ne_nil default.given _
  trimmed := ⟨head_append default.given default.trimmed.head _, last_append (by decide) (by rintro c ⟨⟩; decide) v⟩
  bare := default.bare.append ⟨by decide +kernel, by decide +kernel⟩ (by rintro c ⟨⟩; decide)
  unstopped := by
    have breaks : Breaks "\n)".toList := .of_all rfl (by decide)
    apply outside_append _ _ default.bare.closed default.unstopped
    · intro inWord cs _ goesOn
      rw [Bool.not_eq_true'] at goesOn ⊢
      exact stopsHere_append breaks goesOn
    · intro inWord
      cases inWord <;> decide +kernel

theorem declaredDefault_followed : declaredDefault (clauseChars value isNullable false ++ afterTable blanks rest) =
    value.elim (declaredDefault rest) fun v => some (String.ofList (if isNullable then v ++ "\n)".toList else v)) := by
  cases value with
  | none =>
    have skip (cs : List Char) : declaredDefault (afterDefault isNullable false ++ ("\n);".toList ++ cs)) =
        declaredDefault cs := by
      have same : findDefault? false (afterDefault isNullable false ++ ("\n);".toList ++ cs)) = findDefault? false cs := by
        cases isNullable <;> rfl
      rw [declaredDefault, declaredDefault, same]
    rw [clauseChars, Option.elim_none, List.nil_append]
    unfold afterTable
    rw [skip, declaredDefault_blanks blank]
    rfl
  | some v =>
    rw [clauseChars, Option.elim_some, List.append_assoc, List.append_assoc, Option.elim_some]
    cases isNullable with
    | true =>
      have ends : EndsDefault (';' :: (blanks ++ rest)) :=
        ⟨.of_all rfl rfl, fun inWord => by cases inWord <;> rfl⟩
      have text : v ++ (afterDefault true false ++ afterTable blanks rest) =
          v ++ "\n)".toList ++ ';' :: (blanks ++ rest) := by
        rw [List.append_assoc]
        rfl
      rw [text, declaredDefault_append ends (readable v rfl).closing, if_pos rfl]
    | false =>
      have ends : EndsDefault (afterDefault false false ++ afterTable blanks rest) :=
        ⟨.of_all rfl rfl, fun inWord => by cases inWord <;> rfl⟩
      rw [declaredDefault_append ends (readable v rfl), if_neg Bool.false_ne_true]

end Clauses

end Script

open Script

namespace Column

/-- The last column of a table as it reads when `rest` stands after its table. -/
def followed (c : Column) (rest : List Char) : Column :=
  { c with
    isNullable := c.isNullable && allowsNull rest
    defaultValue := c.defaultValue.elim (declaredDefault rest) fun v => some (if c.isNullable then v ++ "\n)" else v) }

/-- What can stand after a table without a change to its last column. If the column allows null, it has no default
and the text does not forbid null; if it has no default, the text shows none. -/
structure Keeps (c : Column) (rest : List Char) : Prop where
  null : c.isNullable = true → allowsNull rest = true ∧ c.defaultValue = none
  default : c.defaultValue = none → declaredDefault rest = none

variable {c : Column} {rest : List Char}

theorem placed_followed_eq_iff (position : Int) : (c.followed rest).placed position = c.placed position ↔ c.Keeps rest := by
  -- A default of a column that allows null takes in the end of the table, and so it never stays the same.
  have longer (v : String) : v ++ "\n)" ≠ v := by
    intro same
    have length := congrArg String.length same
    rw [String.length_append] at length
    exact absurd length (by simp)
  have fields : (c.followed rest).placed position = c.placed position ↔
      (c.followed rest).isNullable = c.isNullable ∧ (c.followed rest).defaultValue = c.defaultValue := by
    constructor
    · intro same
      have null : ((c.followed rest).placed position).isNullable = (c.placed position).isNullable :=
        congrArg isNullable same
      have default : ((c.followed rest).placed position).defaultValue = (c.placed position).defaultValue :=
        congrArg defaultValue same
      exact ⟨null, default⟩
    · rintro ⟨null, default⟩
      unfold placed
      rw [mk.injEq]
      exact ⟨rfl, rfl, rfl, rfl, null, default⟩
  rw [fields]
  constructor
  · rintro ⟨null, default⟩
    simp only [followed] at null default
    refine ⟨fun nullable => ?_, fun none => ?_⟩
    · rw [nullable, Bool.true_and] at null
      refine ⟨null, ?_⟩
      cases given : c.defaultValue with
      | none => rfl
      | some v =>
        rw [given, nullable, Option.elim_some, if_pos rfl] at default
        exact absurd (Option.some.inj default) (longer v)
    · rw [none] at default
      exact default
  · intro keeps
    simp only [followed]
    constructor
    · cases nullable : c.isNullable with
      | true => rw [(keeps.null nullable).1, Bool.true_and]
      | false => rfl
    · cases given : c.defaultValue with
      | none => exact keeps.default given
      | some v =>
        cases nullable : c.isNullable with
        | true =>
          have none := (keeps.null nullable).2
          rw [given] at none
          cases none
        | false => rfl

/-- The definition of the last column goes on with what stands after the table. -/
theorem ofDefinitionChars_followed (canonical : c.Canonical) {blanks : List Char} (blank : ∀ d ∈ blanks, isBlank d = true)
    (trimmed : Trimmed (c.definition.toList ++ afterTable blanks rest)) (position : Int) :
    Column.ofDefinitionChars (c.definition.toList ++ afterTable blanks rest) position =
      .ok (some ((c.followed rest).placed position)) := by
  have readable := readable_map canonical.readable
  have text : c.definition.toList ++ afterTable blanks rest = definitionText c.name.toList c.typeText.toList
      (clauseChars (c.defaultValue.map String.toList) c.isNullable false ++ afterTable blanks rest) := by
    rw [definition_toList canonical.readable, definitionText]
    simp only [List.append_assoc, List.cons_append]
  have apart : isTableClause (c.definition.toList ++ afterTable blanks rest) = false := by
    have start : trimStart c.definition.toList ≠ [] := by
      obtain ⟨d, more, split, _⟩ := definition_start canonical
      rw [trimStart_head (trimmed_definition canonical).head, split]
      exact List.cons_ne_nil _ _
    have clauses : tableClauses.all (fun phrase => decide (Apart phrase (afterTable blanks rest))) = true := rfl
    rw [isTableClause_append start fun phrase clause => of_decide_eq_true (List.all_eq_true.mp clauses phrase clause)]
    exact canonical.apart
  have ends : EndsType (clauseChars (c.defaultValue.map String.toList) c.isNullable false ++ afterTable blanks rest) := by
    cases c.defaultValue <;> cases c.isNullable <;> exact .of_all rfl rfl rfl
  rw [text] at trimmed apart ⊢
  have last : ∀ d ∈ (c.typeText.toList ++ (clauseChars (c.defaultValue.map String.toList) c.isNullable false ++
      afterTable blanks rest)).getLast?, isBlank d = false := by
    intro d found
    apply trimmed.last d
    rw [definitionText, List.append_cons, List.getLast?_append, Option.mem_def.mp found, Option.some_or]
  have default : (c.defaultValue.map String.toList).elim (declaredDefault rest)
      (fun v => some (String.ofList (if c.isNullable then v ++ "\n)".toList else v))) =
        (c.followed rest).defaultValue := by
    unfold followed
    cases c.defaultValue with
    | none => rfl
    | some v => cases c.isNullable <;> simp
  rw [ofDefinitionChars_rest canonical ends last apart, allowsNull_followed readable blank,
    declaredDefault_followed readable blank, default]
  rfl

theorem ofDefinitions_given (definitions : List (List Char)) (position : Int) :
    Column.ofDefinitions position (definitions.filter (!·.isEmpty)) = Column.ofDefinitions position definitions := by
  induction definitions generalizing position with
  | nil => rfl
  | cons d definitions ih =>
    cases d with
    | nil => exact ih position
    | cons e d =>
      rw [List.filter_cons_of_pos rfl, Column.ofDefinitions, Column.ofDefinitions]
      simp only [ih]

theorem ofDefinitionChars_eq_none_iff (definition : List Char) (position : Int) :
    Column.ofDefinitionChars definition position = .ok none ↔ declaresNothing definition = true := by
  rw [Column.ofDefinitionChars, declaresNothing]
  cases isTableClause definition with
  | true => simp
  | false =>
    cases columnReading? definition with
    | none => simp
    | some reading =>
      rw [if_neg Bool.false_ne_true, Bool.false_or, Option.isNone_some]
      refine iff_of_false (fun read => ?_) Bool.false_ne_true
      obtain ⟨name, type⟩ := reading
      dsimp only at read
      generalize Column.create _ _ _ _ _ _ = made at read
      cases made <;> cases read

theorem ofDefinitions_eq_nil_iff (definitions : List (List Char)) (position : Int) :
    Column.ofDefinitions position definitions = .ok [] ↔ ∀ d ∈ definitions, declaresNothing d = true := by
  induction definitions with
  | nil => simp [Column.ofDefinitions]
  | cons d definitions ih =>
    have first := ofDefinitionChars_eq_none_iff d position
    rw [List.forall_mem_cons, ← ih, ← first]
    cases here : Column.ofDefinitionChars d position with
    | error e =>
      rw [Column.ofDefinitions, here]
      exact iff_of_false (fun same => by cases same) fun both => by cases both.1
    | ok column =>
      cases column with
      | none =>
        rw [Column.ofDefinitions, here]
        exact (and_iff_right rfl).symm
      | some c =>
        refine iff_of_false (fun read => ?_) fun both => by cases both.1
        rw [Column.ofDefinitions_cons here] at read
        cases rest : Column.ofDefinitions (position + 1) definitions <;> rw [rest] at read <;> cases read

theorem placedFrom_append (front columns : List Column) (position : Int) :
    placedFrom position (front ++ columns) =
      placedFrom position front ++ placedFrom (position + front.length) columns := by
  induction front generalizing position with
  | nil => simp [placedFrom]
  | cons c front ih =>
    have length : position + ((c :: front).length : Int) = position + 1 + front.length := by
      rw [List.length_cons]
      omega
    rw [List.cons_append, placedFrom, placedFrom, ih, length, List.cons_append]

theorem length_placedFrom (columns : List Column) (position : Int) :
    (placedFrom position columns).length = columns.length := by
  induction columns generalizing position with
  | nil => rfl
  | cons c rest ih => rw [placedFrom, List.length_cons, List.length_cons, ih]

end Column

namespace Table

variable {t : Table} {u : String}

section Followed

variable (canonical : t.Canonical) (bare : Bare u.toList)
include canonical bare

/-- The script of a table and what follows it, without white space at the end. -/
theorem stripCommentChars_followed :
    stripCommentChars (t.script ++ "\n" ++ u).toList = t.script.toList ++ trimEnd ('\n' :: u.toList) := by
  have more : Bare (['\n'] ++ u.toList) := bare.prepend (by decide)
  rw [String.toList_append, String.toList_append, List.append_assoc]
  exact stripCommentChars_script canonical more

omit canonical bare in
theorem isBlankText_followed : isBlankText (t.script ++ "\n" ++ u) = false := by
  rw [isBlankText, String.toList_append, String.toList_append, script_toList]
  rfl

omit canonical bare in
theorem upToLastParenthesis?_followed : upToLastParenthesis? (trimEnd ('\n' :: u.toList)) =
    (upToLastParenthesis? u.toList).map ('\n' :: ·) := by
  have line := upToLastParenthesis?_append ['\n'] u.toList
  rw [show upToLastParenthesis? ['\n'] = none from rfl, Option.or_none] at line
  rw [upToLastParenthesis?_trimEnd]
  exact line

omit canonical bare in
theorem upToLastParenthesis?_spilled {inside : List Char} (found : upToLastParenthesis? u.toList = some inside) :
    upToLastParenthesis? (rows t.definitions ++ (");".toList ++ trimEnd ('\n' :: u.toList))) =
      some (rows t.definitions ++ (");\n".toList ++ inside)) := by
  rw [upToLastParenthesis?_closed, upToLastParenthesis?_followed, found, Option.map_some, Option.map_some,
    Option.some_or, List.append_assoc]
  rfl

/-- A text without a closing parenthesis after a table is not read. -/
theorem ofScript_unspilled (nothing : spill u.toList = []) :
    Table.ofScript (t.script ++ "\n" ++ u) = Table.ofScript t.script := by
  have closed : upToLastParenthesis? (trimEnd ('\n' :: u.toList)) = none := by
    rw [upToLastParenthesis?_followed]
    rw [spill] at nothing
    cases inside : upToLastParenthesis? u.toList with
    | none => rfl
    | some inside =>
      rw [inside] at nothing
      exact absurd (List.map_eq_nil_iff.mp nothing) (splitAtCommas_ne_nil _ _ _)
  rw [ofScript_closed canonical (stripCommentChars_followed canonical bare) isBlankText_followed closed,
    ofScript_script canonical]

/-- The last column of a table goes on in the text after it, which may define more columns. -/
theorem ofScript_spilled {first : List Char} {more : List (List Char)} (spilled : spill u.toList = first :: more) :
    Table.ofScript (t.script ++ "\n" ++ u) = Column.ofDefinitions t.columns.length more >>= fun added =>
      Table.create t.name (Column.placedFrom 0
        (t.columns.dropLast ++ [(t.columns.getLast t.nonempty).followed first]) ++ added) := by
  obtain ⟨inside, part, parts, found, split, rfl, rfl⟩ := spill_eq_cons spilled
  have columns : t.columns.dropLast ++ [t.columns.getLast t.nonempty] = t.columns :=
    List.dropLast_concat_getLast t.nonempty
  have all := canonical.columns
  have length : t.columns.length = t.columns.dropLast.length + 1 := by
    rw [List.length_dropLast]
    have := List.length_pos_iff.mpr t.nonempty
    omega
  rw [ofScript_body canonical (stripCommentChars_followed canonical bare) isBlankText_followed
    (upToLastParenthesis?_spilled found), definitions, length]
  -- From here on the columns are those before the last one and the last one, which alone goes on in the text.
  generalize t.columns.dropLast = init at columns ⊢
  generalize t.columns.getLast t.nonempty = last at columns ⊢
  rw [← columns, List.forall_mem_append, List.forall_mem_singleton] at all
  obtain ⟨before, canonical⟩ := all
  have whole : ∀ d ∈ init.map (·.definition.toList) ++ [last.definition.toList],
      nested 0 false d = true ∧ Trimmed d ∧ d ≠ [] := by
    rw [List.forall_mem_append, List.forall_mem_singleton]
    refine ⟨fun d member => ?_, last.whole_definition canonical⟩
    obtain ⟨c, inside, rfl⟩ := List.mem_map.mp member
    exact c.whole_definition (before c inside)
  obtain ⟨blanks, blank, trimmed, read⟩ := columnDefinitions_followed whole split
  have lastRead := Column.ofDefinitionChars_followed canonical blank trimmed (0 + init.length)
  have count : (0 : Int) + init.length + 1 = (init.length + 1 : Nat) := by
    rw [Int.zero_add]
    rfl
  rw [← columns, List.map_append, List.map_singleton, read, Column.ofDefinitions_append before,
    Column.ofDefinitions_cons lastRead, Column.ofDefinitions_given, count, Column.placedFrom_append]
  cases Column.ofDefinitions (init.length + 1 : Nat) (parts.map trimChars) with
  | error e => rfl
  | ok added =>
    have given : Column.placedFrom 0 init ++ (last.followed (trimChars part)).placed (0 + init.length) :: added ≠ [] :=
      List.append_ne_nil_of_right_ne_nil _ (List.cons_ne_nil _ _)
    have text : Column.placedFrom 0 init ++ (last.followed (trimChars part)).placed (0 + init.length) :: added =
        Column.placedFrom 0 init ++ Column.placedFrom (0 + init.length) [last.followed (trimChars part)] ++ added := by
      rw [List.append_assoc]
      rfl
    have more := List.isEmpty_eq_false_iff.mpr given
    show (if (Column.placedFrom 0 init ++ _ :: added).isEmpty then _ else Table.create t.name _) = Table.create t.name _
    rw [more, if_neg Bool.false_ne_true]
    exact congrArg (Table.create t.name) text

end Followed

theorem columns_eq_placedFrom (canonical : t.Canonical) (back : Table.ofScript t.script = .ok t) :
    Column.placedFrom 0 t.columns = t.columns :=
  congrArg Table.columns (Except.ok.inj ((ofScript_script canonical).symm.trans back))

/-- Statements after a table leave it as it is exactly if their text up to its last closing parenthesis keeps the
last column of the table and declares no more columns. -/
theorem followed_unchanged_iff (canonical : t.Canonical) (back : Table.ofScript t.script = .ok t)
    (bare : Bare u.toList) : Table.ofScript (t.script ++ "\n" ++ u) = .ok t ↔
      ∀ first more, spill u.toList = first :: more →
        (t.columns.getLast t.nonempty).Keeps first ∧ ∀ part ∈ more, declaresNothing part = true := by
  cases spilled : spill u.toList with
  | nil =>
    rw [ofScript_unspilled canonical bare spilled, back]
    exact iff_of_true rfl nofun
  | cons first more =>
    have filled := columns_eq_placedFrom canonical back
    have start : t.columns.dropLast ++ [(t.columns.getLast t.nonempty).followed first] ≠ [] :=
      List.append_ne_nil_of_right_ne_nil _ (List.cons_ne_nil _ _)
    have split : t.columns = t.columns.dropLast ++ [t.columns.getLast t.nonempty] :=
      (List.dropLast_concat_getLast t.nonempty).symm
    have keeps : Column.placedFrom 0 (t.columns.dropLast ++ [(t.columns.getLast t.nonempty).followed first]) =
        t.columns ↔ (t.columns.getLast t.nonempty).Keeps first := by
      conv => lhs; rhs; rw [← filled, split]
      rw [Column.placedFrom_append, Column.placedFrom_append, List.append_cancel_left_eq,
        ← Column.placed_followed_eq_iff (0 + (t.columns.dropLast.length : Int))]
      exact List.singleton_inj
    rw [ofScript_spilled canonical bare spilled]
    constructor
    · intro same _ _ given
      cases given
      cases added : Column.ofDefinitions t.columns.length more with
      | error e =>
        rw [added] at same
        cases same
      | ok columns =>
        rw [added] at same
        change Table.create _ _ = _ at same
        have none : columns = [] := by
          have length := congrArg List.length (create_eq_ok_iff.mp same).2
          have whole := congrArg List.length split
          rw [arrange, List.length_mergeSort, List.length_append, Column.length_placedFrom, List.length_append,
            List.length_singleton] at length
          rw [List.length_append, List.length_singleton] at whole
          apply List.eq_nil_of_length_eq_zero
          omega
        subst none
        rw [List.append_nil, create_placedFrom t.named start] at same
        exact ⟨keeps.mp (congrArg Table.columns (Except.ok.inj same)), (Column.ofDefinitions_eq_nil_iff _ _).mp added⟩
    · intro unchanged
      obtain ⟨kept, nothing⟩ := unchanged first more rfl
      have added := (Column.ofDefinitions_eq_nil_iff more t.columns.length).mpr nothing
      rw [added]
      change Table.create t.name _ = _
      rw [List.append_nil, create_placedFrom t.named start]
      simp only [keeps.mpr kept]

/-- An index after a table does not change it, and a check on one of its columns is taken for `NOT NULL` of the
last one. -/
theorem followed_unchanged_iff_notes :
    let notes : Table := ⟨"NOTES", [⟨"NOTE", 0, none, some "VARCHAR(80)", true, none, rfl, by decide⟩], rfl,
      by decide, by decide⟩
    Table.ofScript (notes.script ++ "\n" ++ "CREATE INDEX BY_NOTE ON NOTES (NOTE);") = .ok notes ∧
      Table.ofScript (notes.script ++ "\n" ++ "ALTER TABLE NOTES ADD CHECK (NOTE IS NOT NULL);") ≠ .ok notes := by
  intro notes
  have type : IsType "VARCHAR".toList (some "80".toList) "VARCHAR(80)".toList := by
    refine ⟨.word (by decide), ?_, by decide⟩
    rintro _ ⟨⟩
    exact ⟨"80".toList, ⟨by decide, by decide⟩, .inl rfl⟩
  have canonical : notes.Canonical := by
    refine ⟨show IsName "NOTES".toList by decide, ?_⟩
    intro c member
    obtain rfl := List.mem_singleton.mp member
    apply Column.Plain.canonical
    exact ⟨show IsName "NOTE".toList by decide, by decide,
      .inr ⟨rfl, "VARCHAR(80)", _, _, rfl, type, by decide⟩, nofun⟩
  have back : Table.ofScript notes.script = .ok notes := ofScript_script canonical
  constructor
  · apply (followed_unchanged_iff canonical back ⟨by decide +kernel, by decide +kernel⟩).mpr
    have spilled : spill "CREATE INDEX BY_NOTE ON NOTES (NOTE);".toList =
      ["CREATE INDEX BY_NOTE ON NOTES (NOTE".toList] := by decide +kernel
    rw [spilled]
    rintro _ _ ⟨⟩
    refine ⟨⟨fun _ => ⟨?_, rfl⟩, fun _ => by decide +kernel⟩, nofun⟩
    rw [allowsNull_unquoted (by decide)]
    decide +kernel
  · intro same
    have unchanged := (followed_unchanged_iff canonical back ⟨by decide +kernel, by decide +kernel⟩).mp same
    have spilled : spill "ALTER TABLE NOTES ADD CHECK (NOTE IS NOT NULL);".toList =
      ["ALTER TABLE NOTES ADD CHECK (NOTE IS NOT NULL".toList] := by decide +kernel
    have null := ((unchanged _ _ spilled).1.null rfl).1
    rw [allowsNull_unquoted (by decide)] at null
    revert null
    decide +kernel

end Table

end SchemaSync
