import SchemaSync.Plan.Difference
import SchemaSync.Proofs.Script.Directive
import SchemaSync.Proofs.Script.ProcedureSource

/-! The script of a procedure reads back as a procedure with the same source, comments apart. -/

namespace SchemaSync

open Text Script

namespace Procedure

variable {p : Procedure}

def bareSource (p : Procedure) : List Char :=
  stripCommentChars p.sourceCode.toList

/-- A procedure whose source can stand between the directives of its script: something is left of it
without its comments, which ends with no terminator and has no directive of its own. -/
structure Plain (p : Procedure) : Prop where
  spaced : WellSpaced true (trimChars p.sourceCode.toList)
  given : p.bareSource ≠ []
  last : ∀ c ∈ p.bareSource.getLast?, c ≠ ';' ∧ c ≠ '^'
  silent : startsDirective true p.bareSource = false

structure Sourced (p : Procedure) : Prop where
  commented : Commented (trimChars p.sourceCode.toList)
  given : p.bareSource ≠ []
  last : ∀ c ∈ p.bareSource.getLast?, c ≠ ';' ∧ c ≠ '^'

theorem Plain.sourced (plain : p.Plain) : p.Sourced :=
  ⟨plain.spaced.commented, plain.given, plain.last⟩

/-- What is left of the source in the script, before the comments are trimmed off, together with the
terminator unless a comment takes that in. -/
def markedSource (p : Procedure) : List Char :=
  keptChars (trimChars p.sourceCode.toList ++ ['^'])

/-- A source without comments that ends with no terminator and has no directive. -/
theorem plain_of_bare (bare : Bare p.sourceCode.toList) (trimmed : Trimmed p.sourceCode.toList)
    (last : ∀ c ∈ p.sourceCode.toList.getLast?, c ≠ ';' ∧ c ≠ '^')
    (silent : startsDirective true p.sourceCode.toList = false) : p.Plain := by
  have same : p.bareSource = p.sourceCode.toList := bare.stripCommentChars_eq trimmed
  refine ⟨?_, fun empty => ?_, same ▸ last, same ▸ silent⟩
  · rw [trimmed.trimChars_eq]
    exact bare.wellSpaced true
  · have sourced := p.sourced
    rw [isBlankText, ← same, empty] at sourced
    cases sourced

/-- The text of a script before the source, and after it. -/
private def head (p : Procedure) : List Char :=
  "CREATE PROCEDURE ".toList ++ p.name.toList

private def opening : List Char :=
  "SET TERM ^ ;\n".toList

private def closing : List Char :=
  "^\nSET TERM ; ^\n".toList

theorem script_toList (p : Procedure) : p.script.toList =
    opening ++ (head p ++ '\n' :: (trimChars p.sourceCode.toList ++ closing)) := by
  unfold script opening head closing Script.procedureTerminator trim
  simp only [String.toList_append, String.toList_ofList, List.append_assoc]
  rfl

private theorem joint_mark {rest : List Char} : ∀ c ∈ ('^' :: rest).head?, c ≠ '\'' ∧ c ≠ '-' ∧ c ≠ '*' := by
  rintro c ⟨⟩
  decide

private theorem keptChars_mark : keptChars ['^'] = ['^'] :=
  keptChars_eq_self (by decide)

private theorem keptChars_no_mark : keptChars (dropLine ['^']) = [] :=
  keptChars_nil

/-- The source is followed by its terminator unless a comment takes that in. -/
theorem Sourced.markedSource_eq (sourced : p.Sourced) : ∃ mark, (mark = [] ∨ mark = ['^']) ∧
    p.markedSource = keptChars (trimChars p.sourceCode.toList) ++ mark := by
  rw [markedSource]
  rcases sourced.commented.pieced.keptChars_append with kept | kept
  · exact ⟨['^'], .inr rfl, by rw [kept ['^'] joint_mark, keptChars_mark]⟩
  · exact ⟨[], .inl rfl, by rw [kept ['^'] joint_mark, keptChars_no_mark]⟩

private theorem bareScript (name : IsName p.name.toList) (sourced : p.Sourced) :
    stripCommentChars p.script.toList =
      opening ++ (head p ++ '\n' :: (p.markedSource ++ closingDirective)) := by
  have safe : (opening ++ (head p ++ ['\n'])).all (fun c => c != '\'' && c != '-' && c != '/') = true := by
    unfold head opening
    rw [List.all_append, List.all_append, List.all_append, all_safe (all_isTypeChar name)]
    decide
  have tail : keptChars (trimChars p.sourceCode.toList ++ closing) =
      p.markedSource ++ (closingDirective ++ ['\n']) := by
    rw [markedSource]
    rcases sourced.commented.pieced.keptChars_append with kept | kept
    · have whole : keptChars closing = ['^'] ++ (closingDirective ++ ['\n']) := keptChars_eq_self (by decide)
      rw [kept closing joint_mark, kept ['^'] joint_mark, keptChars_mark, whole, List.append_assoc]
    · have line : keptChars (dropLine closing) = closingDirective ++ ['\n'] := keptChars_eq_self (by decide)
      rw [kept closing joint_mark, kept ['^'] joint_mark, keptChars_no_mark, line, List.append_nil]
  have whole : keptChars p.script.toList = (opening ++ (head p ++ '\n' ::
      (p.markedSource ++ closingDirective))) ++ ['\n'] := by
    have front := keptChars_prepend safe (trimChars p.sourceCode.toList ++ closing)
    rw [tail] at front
    rw [script_toList]
    simpa only [List.append_assoc, List.cons_append, List.nil_append] using front
  have trimmed : Trimmed (opening ++ (head p ++ '\n' :: (p.markedSource ++ closingDirective))) := by
    constructor
    · intro c start
      obtain rfl : 'S' = c := Option.some.inj start
      decide
    · intro c last
      rw [← List.cons_append, ← List.append_assoc, ← List.append_assoc, List.getLast?_append] at last
      obtain rfl : '^' = c := Option.some.inj last
      decide
  have line : ∀ c ∈ ['\n'], isBlank c = true := List.all_eq_true.mp rfl
  rw [stripCommentChars_eq, whole, trimChars_append_blanks line, trimmed.trimChars_eq]

namespace Sourced

variable (sourced : p.Sourced)
include sourced

theorem bareSource_eq : p.bareSource = trimChars (keptChars (trimChars p.sourceCode.toList)) := by
  rw [bareSource, sourced.commented.stripCommentChars_trim, stripCommentChars_eq]

theorem trimmed : Trimmed p.bareSource :=
  sourced.bareSource_eq ▸ trimmed_trimChars _

theorem isBlankText_bareSource : isBlankText (String.ofList p.bareSource) = false :=
  isBlankText_ofList sourced.given sourced.trimmed.head

/-- The source in its script, between white space and its terminator. -/
theorem kept_eq : ∃ front back, (∀ c ∈ front, isBlank c = true) ∧ (∀ c ∈ back, isBlank c = true) ∧
    keptChars (trimChars p.sourceCode.toList) = front ++ (p.bareSource ++ back) := by
  obtain ⟨front, frontBlank, frontSplit⟩ := trimStart_split (keptChars (trimChars p.sourceCode.toList))
  obtain ⟨back, backBlank, backSplit⟩ := trimEnd_split (trimStart (keptChars (trimChars p.sourceCode.toList)))
  rw [sourced.bareSource_eq]
  exact ⟨front, back, frontBlank, backBlank, frontSplit.trans (congrArg (front ++ ·) backSplit)⟩

private theorem dropTerminator_eq {mark : List Char} (marks : mark = [] ∨ mark = ['^'])
    (marked : p.markedSource = keptChars (trimChars p.sourceCode.toList) ++ mark) :
    dropTerminator [';'] (dropTerminator ['^'] (trimChars p.markedSource)) = p.bareSource := by
  have current : IsTerminator ['^'] := ⟨by decide, by decide⟩
  have mark' : IsMark ['^'] mark := marks.imp_right fun same => ⟨[], by simp, same⟩
  have given : trimStart (keptChars (trimChars p.sourceCode.toList)) ≠ [] := by
    intro none
    apply sourced.given
    rw [sourced.bareSource_eq, trimChars, none]
    rfl
  have other : ∀ c ∈ (trimChars (keptChars (trimChars p.sourceCode.toList))).getLast?, c ∉ ['^'] := by
    rw [← sourced.bareSource_eq]
    exact fun c last same => (sourced.last c last).2 (List.mem_singleton.mp same)
  rw [marked, current.dropTerminator_mark given other mark', ← sourced.bareSource_eq]
  exact dropTerminator_other (List.cons_ne_nil ';' []) fun c last same =>
    (sourced.last c last).1 (List.mem_singleton.mp same)

end Sourced

/-- What a procedure reads as. -/
def read (p : Procedure) (sourced : p.Sourced) : Procedure :=
  { p with
    sourceCode := String.ofList p.bareSource
    description := none
    sourced := sourced.isBlankText_bareSource }

private theorem withoutDirectives_script (name : IsName p.name.toList) (rest : List Char) :
    withoutDirectives 0 true (opening ++ (head p ++ rest)) = '\n' :: (head p ++ withoutDirectives 0 false rest) := by
  have first (cs : List Char) : withoutDirectives 0 true (opening ++ 'C' :: cs) =
      '\n' :: withoutDirectives 0 true ('C' :: cs) := by
    have read : directive? (opening ++ 'C' :: cs) = some (['^'], '\n' :: 'C' :: cs) := rfl
    have skipped : ("ET TERM ^ ;".toList ++ '\n' :: 'C' :: cs).length - ('\n' :: 'C' :: cs).length =
        "ET TERM ^ ;".toList.length := by
      rw [List.length_append, Nat.add_sub_cancel]
    have split : opening ++ 'C' :: cs = 'S' :: ("ET TERM ^ ;".toList ++ '\n' :: 'C' :: cs) := rfl
    rw [split] at read ⊢
    rw [withoutDirectives, if_pos rfl, read]
    dsimp only
    rw [skipped, withoutDirectives_skip]
    rfl
  have line : '\n' ∉ "REATE PROCEDURE ".toList ++ p.name.toList := by
    intro member
    rcases List.mem_append.mp member with word | inside
    · revert word
      decide
    · cases name.isNameChar inside
  have second : withoutDirectives 0 true ('C' :: ("REATE PROCEDURE ".toList ++ p.name.toList ++ rest)) =
      'C' :: ("REATE PROCEDURE ".toList ++ p.name.toList ++ withoutDirectives 0 false rest) := by
    rw [withoutDirectives_kept fun _ => directive?_none rfl]
    exact congrArg ('C' :: ·) (withoutDirectives_line line rest)
  exact (first _).trans (congrArg ('\n' :: ·) second)

private theorem procedureReading?_head (name : IsName p.name.toList) {rest : List Char}
    (line : ∀ c ∈ rest.head?, c = '\n') : procedureReading? (head p ++ rest) = some (p.name.toList, rest) := by
  have words : ProcedureHead ("CREATE".toList ++ ([' '] ++ ("PROCEDURE".toList ++ [' ']))) :=
    .create rfl (by decide) rfl (by decide)
  have stops : ∀ c ∈ rest.head?, isIdentifierChar c = false := fun c start => by
    rw [line c start]
    decide
  unfold head
  rw [List.append_assoc]
  exact words.reads (.of_isName name stops)

def sourceAfter (cs : List Char) : List Char :=
  dropTerminator [';'] (dropTerminator ['^'] (trimChars (withoutDirectives 0 false cs)))

private theorem head_of_prefix {kept rest : List Char} (front : kept <+: rest) (line : ∀ c ∈ rest.head?, c = '\n') :
    ∀ c ∈ kept.head?, c = '\n' := by
  obtain ⟨more, rfl⟩ := front
  intro c start
  exact line c (by rw [List.head?_append, Option.mem_def.mp start]; rfl)

private theorem stop_head (name : IsName p.name.toList) (front : List Char) (c : Char)
    (last : (front ++ p.name.toList).getLast? = some c) : isBlank c = false := by
  rw [List.getLast?_append, List.getLast?_eq_some_getLast name.1, Option.some_or] at last
  exact isBlank_of_isNameChar (name.isNameChar (Option.some.inj last ▸ List.getLast_mem name.1))

/-- What a script reads as, when it goes on after the name without its comments. -/
private theorem ofScript_rest (name : IsName p.name.toList) {cs : List Char} (line : ∀ c ∈ cs.head?, c = '\n')
    (bare : stripCommentChars p.script.toList = opening ++ (head p ++ cs)) :
    Procedure.ofScript p.script = if (sourceAfter cs).isEmpty then .error (.script (.noBody p.name))
      else Procedure.create p.name (String.ofList (sourceAfter cs)) none := by
  have terminator : terminatorOf (stripCommentChars p.script.toList) = ['^'] := by
    rw [bare]
    rfl
  have text : trimChars (withoutDirectives 0 true (stripCommentChars p.script.toList)) =
      head p ++ trimEnd (withoutDirectives 0 false cs) := by
    have begin (rest : List Char) : trimStart ('\n' :: (head p ++ rest)) = head p ++ rest := rfl
    rw [bare, withoutDirectives_script name, trimChars, begin]
    exact trimEnd_after (stop_head name "CREATE PROCEDURE ".toList) _
  have below : ∀ c ∈ (trimEnd (withoutDirectives 0 false cs)).head?, c = '\n' := by
    refine head_of_prefix (trimEnd_front _) ?_
    cases cs with
    | nil => simp [withoutDirectives]
    | cons c cs =>
      rw [withoutDirectives_kept (by simp)]
      exact fun d start => Option.some.inj start ▸ line c rfl
  rw [ofScript_eq text (firstMatch?_front (procedureReading?_head name below)), terminator, trimChars_trimEnd,
    name.upperChars_eq, String.ofList_toList, sourceAfter]

/-- What the script of a procedure reads as, its source being all that stands between the directives. -/
theorem ofScript_markedSource (name : IsName p.name.toList) (sourced : p.Sourced) :
    Procedure.ofScript p.script =
      if (sourceAfter ('\n' :: (p.markedSource ++ closingDirective))).isEmpty then .error (.script (.noBody p.name))
      else Procedure.create p.name
        (String.ofList (sourceAfter ('\n' :: (p.markedSource ++ closingDirective)))) none :=
  ofScript_rest name (fun _ start => (Option.some.inj start).symm) (bareScript name sourced)

/-- The script of a procedure gives the procedure, without the comments in its source, if no line of what
stands between the directives of the script is a directive itself. -/
theorem ofScript_script (name : IsName p.name.toList) (sourced : p.Sourced)
    (silent : firstTerminator? true p.markedSource = none) : Procedure.ofScript p.script = .ok (p.read sourced) := by
  obtain ⟨mark, marks, marked⟩ := sourced.markedSource_eq
  have newline : Gap ['\n'] := by decide
  have ends := trimEnd_withoutDirectives oneLine_closingWords newline (by decide) silent
  rw [← closingDirective_eq] at ends
  have below (cs : List Char) : trimChars ('\n' :: cs) = trimChars cs :=
    have line : ∀ c ∈ ['\n'], isBlank c = true := List.all_eq_true.mp rfl
    trimChars_blanks line
  have source : sourceAfter ('\n' :: (p.markedSource ++ closingDirective)) = p.bareSource := by
    rw [sourceAfter, withoutDirectives_kept (by simp), beq_self_eq_true, below, ← trimChars_trimEnd, ends,
      trimChars_trimEnd, sourced.dropTerminator_eq marks marked]
  rw [ofScript_markedSource name sourced, source, List.isEmpty_eq_false_iff.mpr sourced.given,
    if_neg Bool.false_ne_true, create, dif_pos p.named, dif_pos sourced.isBlankText_bareSource]
  rfl

/-- A line that does not start like a directive is not made one by the terminator after it. -/
theorem Plain.silent_markedSource (plain : p.Plain) :
    firstTerminator? true p.markedSource = none := by
  obtain ⟨mark, marks, marked⟩ := plain.sourced.markedSource_eq
  obtain ⟨front, back, frontBlank, backBlank, split⟩ := plain.sourced.kept_eq
  refine firstTerminator?_of_startsDirective ?_
  rw [marked, split, List.append_assoc, List.append_assoc]
  refine startsDirective_blanks frontBlank (startsDirective_append plain.silent fun c member => ?_) true
  rcases List.mem_append.mp member with blank | marked
  · rw [foldCase_of_blank (backBlank c blank), isAlpha_of_blank (backBlank c blank)]
  · rcases marks with rfl | rfl
    · cases marked
    · rw [List.mem_singleton.mp marked]
      rfl

/-- Whatever a source holds, the name stands on the line before it. -/
private theorem bareScript_rest (name : IsName p.name.toList) : ∃ rest, (∀ c ∈ rest.head?, c = '\n') ∧
    stripCommentChars p.script.toList = opening ++ (head p ++ rest) := by
  have safe : (opening ++ head p).all (fun c => c != '\'' && c != '-' && c != '/') = true := by
    unfold head opening
    rw [List.all_append, List.all_append, all_safe (all_isTypeChar name)]
    decide
  have kept : keptChars p.script.toList =
      opening ++ head p ++ keptChars ('\n' :: (trimChars p.sourceCode.toList ++ closing)) := by
    rw [script_toList, ← List.append_assoc, keptChars_prepend safe]
  have line : ∀ c ∈ (keptChars ('\n' :: (trimChars p.sourceCode.toList ++ closing))).head?, c = '\n' := by
    rw [keptChars_plain (by decide) rfl]
    exact fun c start => (Option.some.inj start).symm
  have start (rest : List Char) : trimStart (opening ++ head p ++ rest) = opening ++ head p ++ rest := rfl
  refine ⟨_, head_of_prefix (trimEnd_front _) line, ?_⟩
  rw [stripCommentChars_eq, kept, trimChars, start, ← List.append_assoc]
  exact trimEnd_after (stop_head name (opening ++ "CREATE PROCEDURE ".toList)) _

/-- A procedure that its script gives has its name, whatever becomes of its source. -/
theorem name_of_ofScript (name : IsName p.name.toList) {q : Procedure}
    (read : Procedure.ofScript p.script = .ok q) : q.name = p.name := by
  obtain ⟨rest, line, bare⟩ := bareScript_rest name
  rw [ofScript_rest name line bare] at read
  split at read
  · cases read
  · rw [create, dif_pos p.named] at read
    split at read
    · cases read
      rfl
    · cases read

/-- The procedure with line feeds for the line ends in its source. -/
def lineFed (p : Procedure) : Procedure :=
  { p with
    sourceCode := Text.lineFed p.sourceCode
    sourced := by
      rw [isBlankText, Text.lineFed, String.toList_ofList]
      have same := lineFeeds_induct (motive := fun cs written => written.all isBlank = cs.all isBlank) rfl
        (fun c rest _ ih => by rw [List.all_cons, List.all_cons, ih]) (fun rest _ ih => ih) (fun rest ih => ih)
        p.sourceCode.toList
      exact same.trans p.sourced }

theorem lineFed_script (name : IsName p.name.toList) : Text.lineFed p.script = p.lineFed.script := by
  have front : '\r' ∉ opening ++ (head p ++ ['\n']) := by
    unfold head
    intro member
    rcases List.mem_append.mp member with word | member
    · revert word
      decide
    rcases List.mem_append.mp member with member | word
    · rcases List.mem_append.mp member with word | inside
      · revert word
        decide
      · cases name.isNameChar inside
    · revert word
      decide
  have stop : '\r' ∉ (trimChars p.sourceCode.toList).getLast? := fun last => by
    cases (trimmed_trimChars p.sourceCode.toList).last _ last
  have tail : withLineFeeds closing = closing := withLineFeeds_eq_self (by decide)
  have source : trimChars p.lineFed.sourceCode.toList = withLineFeeds (trimChars p.sourceCode.toList) := by
    have fed : p.lineFed.sourceCode.toList = withLineFeeds p.sourceCode.toList := String.toList_ofList
    rw [fed, trimChars_withLineFeeds]
  rw [← String.toList_inj, Text.lineFed, String.toList_ofList, script_toList, script_toList, source,
    List.append_cons, ← List.append_assoc, withLineFeeds_prepend front, withLineFeeds_append stop, tail,
    List.append_assoc, ← List.append_cons]
  rfl

def ReadsBack (p : Procedure) : Prop :=
  ∃ q, Procedure.ofScript (Text.lineFed p.script) = .ok q ∧
    normalizeSource p.sourceCode = normalizeSource q.sourceCode

theorem normalizeSource_read (sourced : p.Sourced) :
    normalizeSource (p.read sourced).sourceCode = normalizeSource p.sourceCode := by
  have bare : Bare p.bareSource := sourced.bareSource_eq ▸ sourced.commented.bare_keptChars.trimChars
  rw [normalizeSource, read, String.toList_ofList, bare.stripCommentChars_eq sourced.trimmed, bareSource,
    normalizeSource]

/-- A procedure reads back when its source counts as the same with line feeds for its line ends. -/
theorem readsBack_iff (name : IsName p.name.toList) (plain : p.lineFed.Plain) :
    p.ReadsBack ↔ normalizeSource p.lineFed.sourceCode = normalizeSource p.sourceCode := by
  have script : Procedure.ofScript (Text.lineFed p.script) = .ok (p.lineFed.read plain.sourced) := by
    rw [lineFed_script name]
    exact ofScript_script (p := p.lineFed) name plain.sourced plain.silent_markedSource
  rw [ReadsBack]
  constructor
  · rintro ⟨q, read, same⟩
    rw [script] at read
    cases read
    rw [same, normalizeSource_read]
  · intro same
    exact ⟨_, script, by rw [normalizeSource_read, same]⟩

/-- A procedure reads back when there is no other line end than line feeds in its source. -/
theorem readsBack_of_plain (name : IsName p.name.toList) (plain : p.Plain)
    (none : '\r' ∉ p.sourceCode.toList) : p.ReadsBack := by
  have same : p.lineFed = p := by simp only [lineFed, lineFed_eq_self none]
  exact (readsBack_iff name (same.symm ▸ plain)).mpr (by rw [same])

end Procedure

end SchemaSync
