import SchemaSync.Plan.Difference
import SchemaSync.Proofs.Script.SharedText
import SchemaSync.Proofs.Script.TableScript

/-! Definitions and alterations reach a database as they are written: splitting any of them gives back one statement,
whatever its defaults have in their literals. -/

namespace SchemaSync

open Text

namespace Script

inductive IsWords : List Char → Prop
  | word {w : List Char} : IsName w → IsWords w
  | more {w rest : List Char} : IsName w → IsWords rest → IsWords (w ++ ' ' :: rest)

def IsTypeText (text : List Char) : Prop :=
  ∃ words parameters, IsWords words ∧ (∀ inside ∈ parameters, IsParameters inside) ∧
    text = words ++ parameterText parameters

/-- A default that closes its literals, and in which no comment, quotation mark or semicolon stands outside them. -/
structure IsContained (value : List Char) : Prop where
  bare : Bare value
  unmarked : outside (fun _ cs => !cs.head?.any fun c => c == '"' || c == ';') false false value = true

/-- A text that splitting leaves as it is up to its end, where it needs no trimming. -/
structure Unbroken (cs : List Char) : Prop where
  closed : closes [';'] none cs = true
  last : ∀ c ∈ cs.getLast?, isBlank c = false

structure IsWhole (cs : List Char) : Prop extends Unbroken cs where
  start : ∃ rest, cs = 'C' :: rest ∨ cs = 'A' :: rest

theorem closes_literal {body : List Char} (literal : LiteralRest body) (after : List Char) :
    closes [';'] (some '\'') (body ++ after) = closes [';'] none after := by
  induction literal with
  | close => rfl
  | doubled _ ih => exact ih
  | @plain c body other _ ih =>
    rw [List.cons_append, closes, beq_eq_false_iff_ne.mpr other]
    exact ih

theorem IsContained.closes_eq {value : List Char} (contained : IsContained value) : closes [';'] none value = true := by
  obtain ⟨⟨whole, bare⟩, unmarked⟩ := contained
  refine closed_induct (motive := fun cs => outside (fun _ cs => !opensComment cs) false false cs = true →
    outside (fun _ cs => !cs.head?.any fun c => c == '"' || c == ';') false false cs = true →
      closes [';'] none cs = true) (fun _ _ => rfl) ?_ ?_ value whole bare unmarked
  · intro c rest quote _ ih bare unmarked
    rw [outside_plain quote, outside_inWord, Bool.and_eq_true, Bool.not_eq_true'] at bare unmarked
    obtain ⟨line, block⟩ := opensComment_eq_false_iff.mp bare.1
    obtain ⟨mark, semicolon⟩ := Bool.or_eq_false_iff.mp unmarked.1
    have unquoted : isQuote c = false := by rw [isQuote, mark, beq_eq_false_iff_ne.mpr quote]; rfl
    rw [closes, if_neg (by simp [unquoted]), line, block, ih bare.2 unmarked.2]
    simpa using semicolon
  · intro body after literal _ _ ih bare unmarked
    rw [outside_literal (fun _ _ => rfl) literal] at bare
    rw [outside_literal (fun _ _ => rfl) literal] at unmarked
    exact (closes_literal literal after).trans (ih bare unmarked)

/-- What is left of a default without the white space around it. -/
theorem IsContained.unbroken {value : List Char} (contained : IsContained value) : Unbroken (trimChars value) where
  closed := by
    obtain ⟨front, blank, split⟩ := trimStart_split value
    obtain ⟨back, after, rest⟩ := trimEnd_split (trimStart value)
    have closed := contained.closes_eq
    rw [split, closes_prepend _ fun c member => .of_blank isTerminator_semicolon (blank c member), rest] at closed
    exact closes_of_append_blanks after (by simp) closed
  last := (trimmed_trimChars value).last

namespace Unbroken

variable {front rest : List Char}

theorem of_checks {cs : List Char} (closed : closes [';'] none cs = true)
    (last : cs.getLast?.all (fun c => !isBlank c) = true) : Unbroken cs := by
  refine ⟨closed, fun c found => ?_⟩
  rw [Option.mem_def.mp found] at last
  simpa using last

theorem nil : Unbroken [] :=
  .of_checks rfl rfl

private theorem last_append (before : rest = [] → ∀ c ∈ front.getLast?, isBlank c = false)
    (last : ∀ c ∈ rest.getLast?, isBlank c = false) : ∀ c ∈ (front ++ rest).getLast?, isBlank c = false := by
  cases rest with
  | nil =>
    rw [List.append_nil]
    exact before rfl
  | cons c rest =>
    rw [List.getLast?_append, List.getLast?_eq_some_getLast (List.cons_ne_nil c rest), Option.some_or,
      ← List.getLast?_eq_some_getLast]
    exact last

/-- Text that means nothing to splitting can be put in front. -/
theorem prepend (unbroken : Unbroken rest) (inert : ∀ c ∈ front, Inert [';'] c)
    (before : rest = [] → ∀ c ∈ front.getLast?, isBlank c = false) : Unbroken (front ++ rest) :=
  ⟨(closes_prepend rest inert).trans unbroken.closed, last_append before unbroken.last⟩

theorem append (unbroken : Unbroken front) (more : Unbroken rest) (joint : ∀ c ∈ rest.head?, c ≠ '-' ∧ c ≠ '*') :
    Unbroken (front ++ rest) :=
  ⟨(closes_append rest unbroken.closed joint).trans more.closed, last_append (fun _ => unbroken.last) more.last⟩

end Unbroken

/-- A whole statement is split off as it is, with or without a semicolon at its end. -/
theorem IsWhole.splitStatements_eq {s : String} (whole : IsWhole s.toList) :
    splitStatements s = [s] ∧ splitStatements (s ++ ";") = [s] := by
  obtain ⟨⟨closed, last⟩, rest, start⟩ := whole
  have plain : newTerminator? s.toList = none := by rcases start with start | start <;> rw [start] <;> rfl
  have given : s.toList.isEmpty = false := by rcases start with start | start <;> rw [start] <;> rfl
  have trimmed : Trimmed s.toList := by
    refine ⟨fun c head => ?_, last⟩
    rcases start with start | start <;> rw [start] at head <;> cases head <;> rfl
  have cut : cutOf [';'] s.toList = [⟨[';'], s.toList⟩] := by
    rw [cutOf, given, plain]
    rfl
  have alone : splitStatements s = [s] := by
    have read := cutsFrom_closes [] [] isTerminator_semicolon none s.toList (by simp) closed
    rw [List.append_nil, List.append_nil, cutsFrom, List.reverse_reverse, trimmed.trimChars_eq, cut] at read
    rw [splitStatements, cuts, read, List.map_singleton, String.ofList_toList]
  refine ⟨alone, ?_⟩
  have read := @cutsFrom_cut [';'] [] isTerminator_semicolon [] s.toList s.toList (by simp) closed trimmed.trimChars_eq
  have ended : cutsFrom (terminatorAfter [';'] s.toList) none [] [] = [] := by
    rw [cutsFrom]
    rfl
  have text : (s ++ ";").toList = s.toList ++ ([';'] ++ []) := String.toList_append
  rw [splitStatements, cuts, text, read, ended, cut, List.append_nil, List.map_singleton, String.ofList_toList]

section Types

private theorem inert_name {name : List Char} (plain : IsName name) : ∀ c ∈ name, Inert [';'] c :=
  .of_isName (by decide) plain

theorem IsWords.inert {words : List Char} (plain : IsWords words) : ∀ c ∈ words, Inert [';'] c := by
  induction plain with
  | word name => exact inert_name name
  | more name _ ih => exact List.forall_mem_append.mpr ⟨inert_name name, List.forall_mem_cons.mpr ⟨by decide, ih⟩⟩

theorem IsWords.last {words : List Char} (plain : IsWords words) :
    words ≠ [] ∧ ∀ c ∈ words.getLast?, isBlank c = false := by
  induction plain with
  | word name => exact ⟨name.1, name.trimmed.last⟩
  | @more w rest _ _ ih =>
    refine ⟨by simp, ?_⟩
    rw [List.append_cons]
    exact Unbroken.last_append (fun none => absurd none ih.1) ih.2

theorem IsTypeText.unbroken {text rest : List Char} (type : IsTypeText text) (unbroken : Unbroken rest) :
    Unbroken (text ++ rest) := by
  obtain ⟨words, parameters, plain, numbers, rfl⟩ := type
  rw [List.append_assoc]
  refine Unbroken.prepend ?_ plain.inert fun _ => plain.last.2
  cases parameters with
  | none => exact unbroken
  | some inside =>
    rw [parameterText, Option.elim_some, List.cons_append, ← List.singleton_append]
    have number : ∀ c ∈ inside, Inert [';'] c := by
      intro c member
      have plain := List.all_eq_true.mp (numbers inside rfl).all_isNameChar.2 c member
      rw [Bool.or_eq_true, beq_iff_eq] at plain
      rcases plain with name | rfl
      · exact .of_isNameChar (by decide) name
      · decide
    refine @Unbroken.prepend (['('] ++ (inside ++ [')'])) rest unbroken ?_ fun _ => ?_
    · exact List.forall_mem_append.mpr ⟨.of_all (by decide), List.forall_mem_append.mpr ⟨number, .of_all (by decide)⟩⟩
    · rw [← List.append_assoc, List.getLast?_concat]
      rintro c ⟨⟩
      rfl

theorem IsTypeText.ne_nil {text : List Char} (type : IsTypeText text) : text ≠ [] := by
  obtain ⟨words, parameters, plain, _, rfl⟩ := type
  exact List.append_ne_nil_of_left_ne_nil plain.last.1 _

end Types

section Clauses

variable {defaultValue : Option String} (contained : ∀ v ∈ defaultValue, IsContained v.toList)
include contained

theorem unbroken_default : Unbroken (Text.trim (defaultValue.getD "")).toList := by
  rw [Text.trim, String.toList_ofList]
  cases defaultValue with
  | none => exact .nil
  | some value => exact (contained value rfl).unbroken

theorem unbroken_attributes (isNullable : Bool) : Unbroken (attributes defaultValue isNullable).toList := by
  have value := unbroken_default contained
  have clause : Unbroken (if isNullable then "" else " NOT NULL").toList := by
    cases isNullable <;> exact .of_checks (by decide) (by decide)
  unfold attributes
  dsimp only
  rw [String.toList_append]
  refine Unbroken.append ?_ clause (by cases isNullable <;> rintro c ⟨⟩; decide)
  split
  · exact .nil
  · next given =>
    rw [String.toList_append]
    exact value.prepend (.of_all (by decide)) fun none =>
      absurd (String.isEmpty_iff.mpr (String.toList_eq_nil_iff.mp none)) given

end Clauses

/-- Each statement of an alteration is whole, if it starts like one. -/
theorem isWhole_of_mem_alterations {head : String} (start : ∃ rest, head.toList = 'A' :: rest)
    (inert : ∀ c ∈ head.toList, Inert [';'] c) {withType : Bool} (existing desired : Attributes)
    (typed : withType = true → IsTypeText (desired.type.getD "").toList)
    (contained : ∀ v ∈ desired.defaultValue, IsContained v.toList) {s : String}
    (member : s ∈ alterations head withType existing desired) : IsWhole s.toList := by
  have whole {tail : String} (unbroken : Unbroken tail.toList) (given : tail.toList ≠ []) :
      IsWhole (head ++ tail).toList := by
    obtain ⟨rest, first⟩ := start
    rw [String.toList_append]
    refine ⟨unbroken.prepend inert fun none => absurd none given, rest ++ tail.toList, .inr ?_⟩
    rw [first, List.cons_append]
  rw [alterations, List.mem_append, List.mem_append, List.mem_ite_nil_right, List.mem_ite_nil_right,
    List.mem_ite_nil_right] at member
  -- One case for each attribute: type, nullability and default.
  rcases member with (⟨asked, member⟩ | ⟨_, member⟩) | ⟨_, member⟩ <;> rw [List.mem_singleton.mp member]
  · have type := typed (Bool.and_eq_true_iff.mp asked).1
    have unbroken := type.unbroken .nil
    rw [List.append_nil] at unbroken
    rw [String.append_assoc]
    refine whole ?_ (by rw [String.toList_append]; exact List.append_ne_nil_of_right_ne_nil _ type.ne_nil)
    rw [String.toList_append]
    exact unbroken.prepend (.of_all (by decide)) fun none => absurd none type.ne_nil
  · have drop : IsWhole (head ++ " DROP NOT NULL").toList := whole (.of_checks (by decide) (by decide)) (by decide)
    have set : IsWhole (head ++ " SET NOT NULL").toList := whole (.of_checks (by decide) (by decide)) (by decide)
    cases desired.isNullable
    · exact set
    · exact drop
  · by_cases none : normalizeDefault desired.defaultValue = ""
    · rw [if_pos (beq_iff_eq.mpr none)]
      exact whole (.of_checks (by decide) (by decide)) (by decide)
    · have filled : (Text.trim (desired.defaultValue.getD "")).toList ≠ [] := by
        intro empty
        rw [normalizeDefault, String.toList_eq_nil_iff.mp empty] at none
        exact none rfl
      rw [if_neg (mt beq_iff_eq.mp none), String.append_assoc]
      refine whole ?_ (by rw [String.toList_append]; exact List.append_ne_nil_of_right_ne_nil _ filled)
      rw [String.toList_append]
      exact (unbroken_default contained).prepend (.of_all (by decide)) fun empty => absurd empty filled

end Script

open Script

/-- A domain with plain words for its name and type, whose default contains what would end a statement. -/
structure Domain.Contained (d : Domain) : Prop where
  name : IsName d.name.toList
  type : IsTypeText d.dataType.toList
  default : ∀ v ∈ d.defaultValue, IsContained v.toList

/-- A column with plain words for its name and for its type or domain, whose default contains what would end a
statement. -/
structure Column.Contained (c : Column) : Prop where
  name : IsName c.name.toList
  type : IsTypeText c.typeText.toList
  default : ∀ v ∈ c.defaultValue, IsContained v.toList

theorem Column.Contained.dataType {c : Column} (contained : c.Contained) (free : isGiven c.domainName = false) :
    IsTypeText (c.dataType.getD "").toList := by
  have type := contained.type
  rwa [Column.typeText, if_neg (by simp [free])] at type

structure Table.Contained (t : Table) : Prop where
  name : IsName t.name.toList
  columns : ∀ c ∈ t.columns, c.Contained

theorem Column.Contained.definition {c : Column} (contained : c.Contained) : Unbroken c.definition.toList := by
  have tail := contained.type.unbroken (unbroken_attributes contained.default c.isNullable)
  have given : c.typeText.toList ++ (Script.attributes c.defaultValue c.isNullable).toList ≠ [] :=
    List.append_ne_nil_of_left_ne_nil contained.type.ne_nil _
  have text : c.definition.toList = (c.name.toList ++ [' ']) ++
      (c.typeText.toList ++ (Script.attributes c.defaultValue c.isNullable).toList) := by
    unfold Column.definition
    simp only [String.toList_append, List.append_assoc]
    rfl
  rw [text]
  refine tail.prepend ?_ fun none => absurd none given
  exact List.forall_mem_append.mpr ⟨inert_name contained.name, .of_all (by decide)⟩

theorem Domain.Contained.script {d : Domain} (contained : d.Contained) :
    ∃ s, d.script = s ++ ";" ∧ IsWhole s.toList := by
  have tail := contained.type.unbroken (unbroken_attributes contained.default d.isNullable)
  have given : d.dataType.toList ++ (Script.attributes d.defaultValue d.isNullable).toList ≠ [] :=
    List.append_ne_nil_of_left_ne_nil contained.type.ne_nil _
  have front : ∀ c ∈ "CREATE DOMAIN ".toList ++ (d.name.toList ++ " AS ".toList), Inert [';'] c :=
    .around_name (by decide) (by decide) contained.name (by decide)
  refine ⟨"CREATE DOMAIN " ++ d.name ++ " AS " ++ d.dataType ++ Script.attributes d.defaultValue d.isNullable, rfl, ?_⟩
  have whole := tail.prepend front fun none => absurd none given
  simp only [String.toList_append, List.append_assoc] at whole ⊢
  exact ⟨whole, _, .inl rfl⟩

theorem Column.Contained.addStatement {c : Column} (contained : c.Contained) {table : String}
    (name : IsName table.toList) : IsWhole (ColumnChanges.addStatement table c).toList := by
  have front : ∀ c ∈ "ALTER TABLE ".toList ++ (table.toList ++ " ADD ".toList), Inert [';'] c :=
    .around_name (by decide) (by decide) name (by decide)
  have given : c.definition.toList ≠ [] := by
    unfold Column.definition
    simp only [String.toList_append, List.append_assoc]
    exact List.append_ne_nil_of_left_ne_nil contained.name.1 _
  have whole := contained.definition.prepend front fun none => absurd none given
  unfold ColumnChanges.addStatement
  simp only [String.toList_append, List.append_assoc] at whole ⊢
  exact ⟨whole, _, .inr rfl⟩

/-- The body of a table is unbroken if its definitions are and something follows it. -/
theorem unbroken_rows {definitions : List (List Char)} (unbroken : ∀ d ∈ definitions, Unbroken d) {rest : List Char}
    (more : Unbroken rest) (given : rest ≠ []) : Unbroken (rows definitions ++ rest) := by
  have line : Unbroken (['\n'] ++ rest) := more.prepend (.of_all (by decide)) fun none => absurd none given
  induction definitions with
  | nil => exact line
  | cons definition others ih =>
    have here := unbroken definition List.mem_cons_self
    cases others with
    | nil =>
      rw [rows, List.append_assoc, List.append_assoc]
      exact (here.append line (by simp)).prepend (.of_all (by decide)) (by simp)
    | cons next others =>
      have later := ih fun d member => unbroken d (List.mem_cons_of_mem _ member)
      rw [rows_cons definition (List.cons_ne_nil _ _), List.append_assoc, List.append_assoc]
      have comma : Unbroken ([','] ++ (rows (next :: others) ++ rest)) :=
        later.prepend (.of_all (by decide)) (by simp [given])
      exact (here.append comma (by simp)).prepend (.of_all (by decide)) (by simp)

theorem Table.Contained.script {t : Table} (contained : t.Contained) :
    ∃ s, t.script = s ++ ";" ∧ IsWhole s.toList := by
  have definitions : ∀ d ∈ t.definitions, Unbroken d :=
    List.forall_mem_map.mpr fun c member => (contained.columns c member).definition
  have body : Unbroken (rows t.definitions ++ [')']) :=
    unbroken_rows definitions (.of_checks (by decide) (by decide)) (by simp)
  have front : ∀ c ∈ "CREATE TABLE ".toList ++ (t.name.toList ++ " (".toList), Inert [';'] c :=
    .around_name (by decide) (by decide) contained.name (by decide)
  have whole := body.prepend front (by simp)
  simp only [List.append_assoc] at whole
  refine ⟨String.ofList ("CREATE TABLE ".toList ++ (t.name.toList ++ (" (".toList ++ (rows t.definitions ++ [')'])))),
    ?_, ?_⟩
  · rw [← String.toList_inj, String.toList_append, String.toList_ofList, script_toList]
    simp only [List.append_assoc]
    rfl
  · rw [String.toList_ofList]
    exact ⟨whole, _, .inl rfl⟩

/-- Splitting what is written for domains and tables, and for what changes about them, gives single statements as they
are written, without the semicolon at the end of scripts. -/
theorem splitStatements_definitions :
    (∀ d : Domain, d.Contained → ∃ s, d.script = s ++ ";" ∧ splitStatements d.script = [s]) ∧
    (∀ t : Table, t.Contained → ∃ s, t.script = s ++ ";" ∧ splitStatements t.script = [s]) ∧
    (∀ existing desired : Domain, IsName existing.name.toList → desired.Contained →
      ∀ s ∈ existing.alterations desired, splitStatements s = [s]) ∧
    (∀ table existing desired, IsName table.toList → desired.Contained →
      ∀ s ∈ Column.alterations table existing desired, splitStatements s = [s]) ∧
    ∀ changes : ColumnChanges, IsName changes.table.toList → (∀ c ∈ changes.toAdd, c.Contained) →
      ∀ s ∈ changes.addStatements, splitStatements s = [s] := by
  refine ⟨fun d contained => ?_, fun t contained => ?_, fun existing desired name contained s member => ?_,
    fun table existing desired name contained s member => ?_, fun changes name contained s member => ?_⟩
  · obtain ⟨s, script, whole⟩ := contained.script
    exact ⟨s, script, script ▸ whole.splitStatements_eq.2⟩
  · obtain ⟨s, script, whole⟩ := contained.script
    exact ⟨s, script, script ▸ whole.splitStatements_eq.2⟩
  · have head : ("ALTER DOMAIN " ++ existing.name).toList = "ALTER DOMAIN ".toList ++ existing.name.toList :=
      String.toList_append
    have inert : ∀ c ∈ ("ALTER DOMAIN " ++ existing.name).toList, Inert [';'] c := by
      rw [head]
      exact List.forall_mem_append.mpr ⟨.of_all (by decide), inert_name name⟩
    have whole := isWhole_of_mem_alterations ⟨_, head⟩ inert existing.attributes desired.attributes
      (fun _ => contained.type) contained.default member
    exact whole.splitStatements_eq.1
  · have head : ("ALTER TABLE " ++ table ++ " ALTER COLUMN " ++ desired.name).toList =
        "ALTER TABLE ".toList ++ (table.toList ++ (" ALTER COLUMN ".toList ++ desired.name.toList)) := by
      simp only [String.toList_append, List.append_assoc]
    have inert : ∀ c ∈ ("ALTER TABLE " ++ table ++ " ALTER COLUMN " ++ desired.name).toList, Inert [';'] c := by
      rw [head]
      exact List.forall_mem_append.mpr ⟨.of_all (by decide), List.forall_mem_append.mpr ⟨inert_name name,
        List.forall_mem_append.mpr ⟨.of_all (by decide), inert_name contained.name⟩⟩⟩
    have typed (free : (!isGiven existing.domainName && !isGiven desired.domainName) = true) :
        IsTypeText (desired.dataType.getD "").toList :=
      contained.dataType (by simpa using (Bool.and_eq_true_iff.mp free).2)
    have whole := isWhole_of_mem_alterations ⟨_, head⟩ inert existing.attributes desired.attributes typed
      contained.default member
    exact whole.splitStatements_eq.1
  · obtain ⟨c, added, rfl⟩ := List.mem_map.mp member
    exact ((contained c added).addStatement name).splitStatements_eq.1

/-- A default with what would end or cut a statement outside its literal. -/
def notedDefault : String :=
  "'a; -- \"b /* ''c'' */'"

def notedDomain : Domain :=
  ⟨"NOTE", "CHARACTER VARYING(20)", some 20, some 20, none, true, some notedDefault, rfl⟩

def notedColumn : Column :=
  ⟨"NOTE", 0, none, some "NUMERIC(18,4)", false, some notedDefault, rfl, by decide⟩

def notedTable : Table :=
  ⟨"NOTES", [notedColumn], rfl, by simp, List.pairwise_singleton _ _⟩

theorem splitStatements_definitions_noted :
    (∃ s, notedDomain.script = s ++ ";" ∧ splitStatements notedDomain.script = [s]) ∧
    (∃ s, notedTable.script = s ++ ";" ∧ splitStatements notedTable.script = [s]) ∧
    (∀ s ∈ { notedDomain with defaultValue := none }.alterations notedDomain, splitStatements s = [s]) ∧
    (∀ s ∈ Column.alterations "NOTES" { notedColumn with defaultValue := none } notedColumn,
      splitStatements s = [s]) ∧
    ∀ s ∈ (ColumnChanges.mk "NOTES" [notedColumn] []).addStatements, splitStatements s = [s] := by
  obtain ⟨domains, tables, domainAlterations, columnAlterations, additions⟩ := splitStatements_definitions
  have default : ∀ v ∈ some notedDefault, IsContained v.toList := by
    rintro v ⟨⟩
    exact ⟨⟨by decide, by decide +kernel⟩, by decide +kernel⟩
  have name : IsName "NOTE".toList := by decide
  have words : IsWords "CHARACTER VARYING".toList :=
    .more (w := "CHARACTER".toList) (by decide) (.word (w := "VARYING".toList) (by decide))
  have domain : notedDomain.Contained := by
    refine ⟨name, ⟨_, some "20".toList, words, ?_, by decide⟩, default⟩
    rintro _ ⟨⟩
    exact ⟨"20".toList, ⟨by decide, by decide⟩, .inl rfl⟩
  have column : notedColumn.Contained := by
    refine ⟨name, ⟨"NUMERIC".toList, some "18,4".toList, .word (by decide), ?_, by decide⟩, default⟩
    rintro _ ⟨⟩
    exact ⟨"18".toList, ⟨by decide, by decide⟩, .inr ⟨"4".toList, ⟨by decide, by decide⟩, rfl⟩⟩
  have columns : ∀ c ∈ [notedColumn], c.Contained := List.forall_mem_singleton.mpr column
  have table : IsName "NOTES".toList := by decide
  exact ⟨domains _ domain, tables _ ⟨table, columns⟩, domainAlterations _ _ name domain,
    columnAlterations _ _ _ table column, additions _ table columns⟩

end SchemaSync
