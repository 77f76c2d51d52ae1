import SchemaSync.Proofs.Plan.Alteration
import SchemaSync.Proofs.Script.Constant

/-! What a comparison sees of string constants. For defaults it is their characters in capitals, for procedures their
characters with single spaces for white space. -/

namespace SchemaSync

open Text Script

/-- Texts with the same literals and the same text around them, once they are rewritten. -/
structure Alike (part : Char → Option Char → List Char) (one two : List Char) : Prop where
  constants : (literals one).map (rewrite part) = (literals two).map (rewrite part)
  around : rewrite part (emptyLiterals (trimChars one)) = rewrite part (emptyLiterals (trimChars two))

theorem alike_iff {part : Char → Option Char → List Char} (keeps : KeepsApostrophes part) {one two : List Char}
    (first : closed false one = true) (second : closed false two = true) :
    rewrite part (trimChars one) = rewrite part (trimChars two) ↔ Alike part one two := by
  rw [rewrite_eq_iff keeps ((closed_trimChars one).trans first) ((closed_trimChars two).trans second),
    literals_trimChars first, literals_trimChars second]
  exact ⟨fun ⟨constants, around⟩ => ⟨constants, around⟩, fun alike => ⟨alike.constants, alike.around⟩⟩

/-- Literals that the rewriting leaves as they are come out the same. -/
theorem Alike.literals_eq {part : Char → Option Char → List Char} {one two : List Char} (alike : Alike part one two)
    (settled : ∀ constant ∈ literals one ++ literals two, rewrite part constant = constant) :
    literals one = literals two := by
  have kept (cs : List Char) (inside : ∀ constant ∈ literals cs, constant ∈ literals one ++ literals two) :
      (literals cs).map (rewrite part) = literals cs := by
    apply (List.map_congr_left fun constant member => settled constant (inside constant member)).trans
    exact List.map_id' _
  rw [← kept one fun _ => List.mem_append_left _, ← kept two fun _ => List.mem_append_right _]
  exact alike.constants

/-- A comparison of texts as a rewriting makes them. It finds nothing to change exactly if all else is the same and the
texts are alike. Then the literals are the same as well, if the rewriting leaves them as they are. -/
structure Compares (part : Char → Option Char → List Char) (unchanged others : Prop) (one two : List Char) :
    Prop where
  iff : unchanged ↔ others ∧ Alike part one two
  constants : unchanged → (∀ constant ∈ literals one ++ literals two, rewrite part constant = constant) →
    literals one = literals two

theorem Compares.of_iff {part : Char → Option Char → List Char} {unchanged others : Prop} {one two : List Char}
    (iff : unchanged ↔ others ∧ Alike part one two) : Compares part unchanged others one two :=
  ⟨iff, fun same settled => (iff.mp same).2.literals_eq settled⟩

def valueChars (value : Option String) : List Char :=
  (value.getD "").toList

abbrev Quoted (value : Option String) : Prop :=
  closed false (valueChars value) = true

theorem normalizeDefault_eq_iff {one two : Option String} (first : Quoted one) (second : Quoted two) :
    normalizeDefault one = normalizeDefault two ↔ Alike capital (valueChars one) (valueChars two) := by
  rw [← alike_iff keepsApostrophes_capital first second, ← upperChars_eq_rewrite, ← upperChars_eq_rewrite]
  simp only [normalizeDefault, upper, trim, String.toList_ofList, String.ofList_inj, valueChars]

def sourceChars (source : String) : List Char :=
  stripCommentChars source.toList

theorem normalizeSource_eq_iff {one two : String} (first : Pieced one.toList) (second : Pieced two.toList) :
    normalizeSource one = normalizeSource two ↔ Alike spaced (sourceChars one) (sourceChars two) := by
  have trimmed (source : String) : Trimmed (sourceChars source) := trimmed_trimChars _
  have alike : _ ↔ Alike spaced (sourceChars one) (sourceChars two) :=
    alike_iff keepsApostrophes_spaced first.closed_stripCommentChars second.closed_stripCommentChars
  rw [(trimmed one).trimChars_eq, (trimmed two).trimChars_eq, ← joined_wordsOf (trimmed one),
    ← joined_wordsOf (trimmed two)] at alike
  rw [← alike]
  simp only [normalizeSource, String.ofList_inj, sourceChars]

structure Attributes.SameBut (withType : Bool) (one two : Attributes) : Prop where
  type : withType = true → normalizeType one.type = normalizeType two.type
  nullable : one.isNullable = two.isNullable

theorem Attributes.compares (head : String) (withType : Bool) {one two : Attributes} (first : Quoted one.defaultValue)
    (second : Quoted two.defaultValue) : Compares capital (alterations head withType one two = [])
      (one.SameBut withType two) (valueChars one.defaultValue) (valueChars two.defaultValue) := by
  apply Compares.of_iff
  rw [alterations_eq_nil_iff, ← normalizeDefault_eq_iff first second]
  constructor
  · intro agree
    exact ⟨⟨agree.type, agree.nullable⟩, agree.default⟩
  · rintro ⟨same, default⟩
    exact ⟨same.type, same.nullable, default⟩

/-- A comparison of domains and of columns sees the constants of their defaults in capitals, and one of procedures sees
those of their sources with single spaces. -/
theorem unaltered_constants (table : String) {domain wantedDomain : Domain} {column wantedColumn : Column}
    {procedure wantedProcedure : Procedure} (domainQuoted : Quoted domain.defaultValue)
    (wantedDomainQuoted : Quoted wantedDomain.defaultValue) (columnQuoted : Quoted column.defaultValue)
    (wantedColumnQuoted : Quoted wantedColumn.defaultValue) (pieced : Pieced procedure.sourceCode.toList)
    (wantedPieced : Pieced wantedProcedure.sourceCode.toList) :
    Compares capital (domain.alterations wantedDomain = []) (domain.attributes.SameBut true wantedDomain.attributes)
        (valueChars domain.defaultValue) (valueChars wantedDomain.defaultValue) ∧
      Compares capital (Column.alterations table column wantedColumn = [])
        (column.attributes.SameBut (column.typesCount wantedColumn) wantedColumn.attributes)
        (valueChars column.defaultValue) (valueChars wantedColumn.defaultValue) ∧
      Compares spaced (procedureChanged (some procedure) wantedProcedure = false) True
        (sourceChars procedure.sourceCode) (sourceChars wantedProcedure.sourceCode) := by
  refine ⟨?_, ?_, ?_⟩
  · exact Attributes.compares _ _ domainQuoted wantedDomainQuoted
  · exact Attributes.compares _ _ columnQuoted wantedColumnQuoted
  · apply Compares.of_iff
    rw [procedureChanged, bne_eq_false_iff_eq, true_and]
    exact normalizeSource_eq_iff pieced wantedPieced

/-- A domain with a default. -/
def statusWith (value : String) : Domain :=
  ⟨"STATUS", "CHAR(1)", none, none, none, true, some value, rfl⟩

def stateWith (value : String) : Column :=
  ⟨"STATE", 0, none, some "CHAR(1)", true, some value, rfl, Bool.false_ne_true⟩

/-- Two procedures that differ in the spaces inside a literal. -/
def wideCopy : Procedure :=
  ⟨"COPY", "AS BEGIN X = 'a  b'; END", none, rfl, rfl⟩

def narrowCopy : Procedure :=
  ⟨"COPY", "AS BEGIN X = 'a b'; END", none, rfl, rfl⟩

theorem bare_wideCopy : Bare wideCopy.sourceCode.toList :=
  ⟨by decide, by decide⟩

theorem bare_narrowCopy : Bare narrowCopy.sourceCode.toList :=
  ⟨by decide, by decide⟩

theorem sourceChars_of_bare {source : String} (bare : Bare source.toList) :
    sourceChars source = trimChars source.toList := by
  rw [sourceChars, stripCommentChars, bare.kept_eq]

theorem procedureChanged_narrowCopy : procedureChanged (some wideCopy) narrowCopy = false := by
  have wide := sourceChars_of_bare bare_wideCopy
  have narrow := sourceChars_of_bare bare_narrowCopy
  rw [sourceChars] at wide narrow
  rw [procedureChanged, normalizeSource, normalizeSource, wide, narrow]
  decide

theorem unaltered_constants_label :
    Alike capital (valueChars (some "'a'")) (valueChars (some "'A'")) ∧
      Alike capital (valueChars (some "'it''s'")) (valueChars (some " 'IT''S'")) ∧
      Alike spaced (sourceChars wideCopy.sourceCode) (sourceChars narrowCopy.sourceCode) := by
  obtain ⟨domains, columns, procedures⟩ := @unaltered_constants "ITEM" (statusWith "'a'") (statusWith "'A'")
    (stateWith "'it''s'") (stateWith " 'IT''S'") wideCopy narrowCopy (by decide) (by decide) (by decide) (by decide)
    (.of_bare bare_wideCopy) (.of_bare bare_narrowCopy)
  exact ⟨(domains.iff.mp (by decide)).2, (columns.iff.mp (by decide)).2,
    (procedures.iff.mp procedureChanged_narrowCopy).2⟩

/-- No step is planned for a letter of a default that changes its case, or for white space that changes inside a literal
of a source. -/
theorem changed_constants_unseen :
    (Quoted (some "'a'") ∧ Quoted (some "'A'") ∧ (statusWith "'a'").alterations (statusWith "'A'") = [] ∧
      Column.alterations "ITEM" (stateWith "'a'") (stateWith "'A'") = [] ∧
      literals (valueChars (some "'a'")) ≠ literals (valueChars (some "'A'"))) ∧
    Pieced wideCopy.sourceCode.toList ∧ Pieced narrowCopy.sourceCode.toList ∧
      procedureChanged (some wideCopy) narrowCopy = false ∧
      literals (sourceChars wideCopy.sourceCode) ≠ literals (sourceChars narrowCopy.sourceCode) := by
  have small : literals (valueChars (some "'a'")) = ["'a'".toList] :=
    @literals_quoted [] ['a'] [] (by decide) (by decide) (by decide)
  have large : literals (valueChars (some "'A'")) = ["'A'".toList] :=
    @literals_quoted [] ['A'] [] (by decide) (by decide) (by decide)
  have wide : literals (sourceChars wideCopy.sourceCode) = ["'a  b'".toList] := by
    rw [sourceChars_of_bare bare_wideCopy]
    exact @literals_quoted "AS BEGIN X = ".toList "a  b".toList "; END".toList (by decide) (by decide) (by decide)
  have narrow : literals (sourceChars narrowCopy.sourceCode) = ["'a b'".toList] := by
    rw [sourceChars_of_bare bare_narrowCopy]
    exact @literals_quoted "AS BEGIN X = ".toList "a b".toList "; END".toList (by decide) (by decide) (by decide)
  refine ⟨⟨by decide, by decide, by decide, by decide, ?_⟩, .of_bare bare_wideCopy, .of_bare bare_narrowCopy,
    procedureChanged_narrowCopy, ?_⟩
  · rw [small, large]
    decide
  · rw [wide, narrow]
    decide

end SchemaSync
