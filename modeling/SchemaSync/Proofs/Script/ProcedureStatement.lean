import SchemaSync.Proofs.Script.SharedText
import SchemaSync.Proofs.Script.Surroundings

/-! The statement that a batch sends for a procedure, and the procedure that the batch defines as a script. Both
are read from one text, but comments, directives and the terminator are taken off it in two different ways. -/

namespace SchemaSync

open Text Script

namespace Script

/-- A text without comments that defines a procedure, or recreates it: none of its lines starts like a directive,
and no two semicolons end it. -/
structure DefinesProcedure (text name source : List Char) : Prop where
  reading : ∃ lead definition, (lead = [] ∨ Spells "RE" lead) ∧ text = lead ++ definition ∧
    procedureReading? definition = some (name, source)
  silent : startsDirective true text = false
  given : dropTerminator [';'] (trimChars source) ≠ []
  last : ∀ c ∈ (dropTerminator [';'] (trimChars source)).getLast?, c ≠ ';'

namespace DefinesProcedure

variable {text name source : List Char} (defines : DefinesProcedure text name source)
include defines

theorem shape : ∃ c front, text = c :: front ++ source ∧ isBlank c = false ∧ foldCase c ≠ 'S' ∧ '\'' ∉ c :: front := by
  obtain ⟨lead, _, again, rfl, read⟩ := defines.reading
  obtain ⟨head, words, rfl, named⟩ := ProcedureHead.of_reading read
  obtain ⟨c, more, rfl, letter⟩ := words.starts
  have unquoted : '\'' ∉ c :: more ++ name := by
    intro member
    rcases List.mem_append.mp member with word | inside
    · rcases words.letter_or_blank word with letter | blank
      · cases letter
      · cases blank
    · cases named.inside _ inside
  rcases again with rfl | spells
  · exact ⟨c, more ++ name, by simp, isBlank_of_letter (by rw [letter]; rfl), by rw [letter]; decide, unquoted⟩
  · cases lead with
    | nil => cases spells
    | cons r lead =>
      have first : foldCase r = 'R' := (List.cons.inj spells).1
      refine ⟨r, lead ++ (c :: more ++ name), by simp, isBlank_of_letter (by rw [first]; rfl), by rw [first]; decide, ?_⟩
      rw [← List.cons_append, List.mem_append, not_or]
      refine ⟨fun member => ?_, unquoted⟩
      cases spells.letter (by decide) member

theorem ne_nil : text ≠ [] := by
  obtain ⟨c, front, rfl, _⟩ := defines.shape
  exact List.cons_ne_nil c _

theorem trimStart_ne_nil : trimStart source ≠ [] := by
  intro none
  apply defines.given
  rw [trimChars, none]
  rfl

theorem bare_source (bare : Bare text) : Bare source := by
  obtain ⟨c, front, rfl, _, _, unquoted⟩ := defines.shape
  exact bare.of_append_right unquoted

theorem isBlankText_upperChars : isBlankText (String.ofList (upperChars name)) = false := by
  obtain ⟨_, _, _, _, read⟩ := defines.reading
  obtain ⟨_, _, _, named⟩ := ProcedureHead.of_reading read
  exact named.isBlankText_upperChars

theorem firstMatch?_append (rest : List Char) :
    firstMatch? procedureReading? (text ++ rest) = some (name, source ++ rest) := by
  obtain ⟨lead, definition, again, rfl, read⟩ := defines.reading
  have given : source ≠ [] := fun none => defines.trimStart_ne_nil (by rw [none]; rfl)
  have other : ∀ c ∈ lead, foldCase c ≠ 'C' := by
    rcases again with rfl | spells
    · simp
    · intro c member letter
      have inside : foldCase c ∈ lead.map foldCase := List.mem_map_of_mem member
      rw [spells, letter] at inside
      revert inside
      decide
  rw [List.append_assoc, firstProcedure_lead other]
  exact firstMatch?_front (procedureReading?_append read given rest)

theorem directive?_append (rest : List Char) : directive? (text ++ rest) = none := by
  obtain ⟨c, front, rfl, solid, letter, _⟩ := defines.shape
  have start (cs : List Char) : trimStart (c :: cs) = c :: cs := by
    apply trimStart_head
    rintro d ⟨⟩
    exact solid
  apply directive?_none
  rw [List.cons_append, List.cons_append, start]
  apply afterPhrase?_none
  change (if foldCase c == 'S' then _ else _) = none
  rw [beq_eq_false_iff_ne.mpr letter]
  rfl

theorem dropTerminator_eq {terminator mark : List Char} (trimmed : Trimmed text) (current : IsTerminator terminator)
    (other : ∀ c ∈ text.getLast?, c ∉ terminator) (marked : IsMark terminator mark) :
    dropTerminator terminator (trimChars (source ++ mark)) = trimChars source := by
  have last : (trimStart source).getLast? = text.getLast? := by
    obtain ⟨c, front, rfl, _⟩ := defines.shape
    obtain ⟨blanks, _, split⟩ := trimStart_split source
    have ends := List.getLast?_eq_some_getLast defines.trimStart_ne_nil
    conv => rhs; rw [split, ← List.append_assoc, List.getLast?_append, ends, Option.some_or]
    exact ends
  have stop : ∀ c, (trimStart source).getLast? = some c → isBlank c = false := fun c found =>
    trimmed.last c (last ▸ found)
  refine current.dropTerminator_mark defines.trimStart_ne_nil (fun c found => ?_) marked
  rw [trimChars, trimEnd_last stop, last] at found
  exact other c found

end DefinesProcedure

end Script

namespace Procedure

private theorem ofScript_of_reading {script : String} {text name rest source : List Char}
    (left : trimChars (withoutDirectives 0 true (stripCommentChars script.toList)) = text)
    (reading : firstMatch? procedureReading? text = some (name, rest))
    (named : isBlankText (String.ofList (upperChars name)) = false)
    (ends : dropTerminator [';'] (dropTerminator (terminatorOf (stripCommentChars script.toList)) (trimChars rest)) = source)
    (given : source ≠ []) (trimmed : Trimmed source) :
    ∃ p, Procedure.ofScript script = .ok p ∧ p.name = String.ofList (upperChars name) ∧
      p.sourceCode = String.ofList source := by
  have sourced := isBlankText_ofList given trimmed.head
  refine ⟨⟨String.ofList (upperChars name), String.ofList source, none, named, sourced⟩, ?_, rfl, rfl⟩
  rw [ofScript_eq left reading, ends, List.isEmpty_eq_false_iff.mpr given, if_neg Bool.false_ne_true, create,
    dif_pos named, dif_pos sourced]

section Agreement

variable {opening body closing terminator name source : List Char} (opens : Opening opening terminator)
  (shared : SharedText terminator body) (closes : Closing terminator closing)

include opens shared closes in
/-- A batch sends the definition that it holds, with further spaces where comments are taken out. -/
private theorem splitStatements_definition (given : stripCommentChars body ≠ [])
    (silent : startsDirective true (stripCommentChars body) = false) : ∃ statement, Trimmed statement ∧
      squeeze statement = squeeze (stripCommentChars body) ∧
      splitStatements (String.ofList (opening ++ (body ++ closing))) = [String.ofList statement] := by
  have current := opens.isTerminator
  obtain ⟨shown, same, scan⟩ := shared.cutsFrom_eq current
  have alike : squeeze (trimChars shown) = squeeze (stripCommentChars body) := by
    have space : ∀ c ∈ [' '], isBlank c = true := List.all_eq_true.mp rfl
    have spaced := congrArg trimChars (same [' '] rfl)
    rwa [trimChars_squeeze, trimChars_squeeze, trimChars_append_blanks space, trimChars_append_blanks space] at spaced
  have nonempty : trimChars shown.reverse.reverse ≠ [] := by
    rw [List.reverse_reverse]
    intro none
    rw [none] at alike
    exact given (squeeze_eq_nil_iff.mp alike.symm)
  have plain : newTerminator? (trimChars shown.reverse.reverse) = none := by
    rw [← startsDirective_squeeze, ← alike, startsDirective_squeeze] at silent
    have unread := startsDirective_front silent
    rw [trimStart_head (trimmed_trimChars shown).head] at unread
    rw [List.reverse_reverse, newTerminator?, afterSpacedPhrase?, unread]
    rfl
  refine ⟨trimChars shown, trimmed_trimChars shown, alike, ?_⟩
  rw [splitStatements, String.toList_ofList, opens.cuts_eq, cuts, scan _ _ (closes.head current), List.append_nil,
    closes.cutsFrom_eq current nonempty plain, List.reverse_reverse]
  rfl

include opens shared closes in
private theorem ofScript_definition (line : opening = [] ∨ '\n' ∈ (keptChars body).takeWhile isBlank)
    (defines : DefinesProcedure (stripCommentChars body) name source) :
    ∃ p, Procedure.ofScript (String.ofList (opening ++ (body ++ closing))) = .ok p ∧
      p.name = String.ofList (upperChars name) ∧
      p.sourceCode = String.ofList (dropTerminator [';'] (trimChars source)) := by
  have current := opens.isTerminator
  have given := defines.ne_nil
  -- The definition lies between white space of the body, which the directives before and after it need.
  have trimmed : Trimmed (stripCommentChars body) := trimmed_trimChars _
  have split : keptChars body = (keptChars body).takeWhile isBlank ++ trimStart (keptChars body) :=
    List.takeWhile_append_dropWhile.symm
  have before : ∀ c ∈ (keptChars body).takeWhile isBlank, isBlank c = true := List.all_eq_true.mp List.all_takeWhile
  obtain ⟨blanks, blank, ends⟩ := trimEnd_split (trimStart (keptChars body))
  rw [← trimChars, ← stripCommentChars_eq] at ends
  obtain ⟨rest, mark, marked, shown, left, quiet⟩ := closes.read current blank defines.silent trimmed.last
  have kept : keptChars (body ++ closing) =
      (keptChars body).takeWhile isBlank ++ (stripCommentChars body ++ (blanks ++ keptChars closing)) := by
    rw [shared.keptChars_append (closes.joint current)]
    conv => lhs; rw [split, ends]
    simp only [List.append_assoc]
  have start (more : List Char) : ∀ c ∈ (stripCommentChars body ++ more).head?, isBlank c = false :=
    head_append given trimmed.head more
  have solid : trimEnd (stripCommentChars body ++ (blanks ++ keptChars closing)) ≠ [] :=
    shown ▸ List.append_ne_nil_of_left_ne_nil given rest
  obtain ⟨same, gap, gapBlank, passed⟩ := opens.read kept before line (start _) solid
    (shown ▸ defines.directive?_append rest) (shown ▸ quiet)
  rw [shown] at passed
  have text : trimChars (withoutDirectives 0 true (stripCommentChars (opening ++ (body ++ closing)))) =
      stripCommentChars body ++ mark := by
    have whole : Trimmed (stripCommentChars body ++ mark) := ⟨start mark, left ▸ last_trimEnd _⟩
    rw [passed, trimChars_blanks gapBlank, ← trimChars_trimEnd, left, whole.trimChars_eq]
  have other : ∀ c ∈ (stripCommentChars body).getLast?, c ∉ terminator := by
    have last := shared.last_keptChars current
    have whole : trimEnd (keptChars body) = (keptChars body).takeWhile isBlank ++ stripCommentChars body := by
      conv => lhs; rw [split]
      exact trimEnd_append given _
    rw [whole, List.getLast?_append, List.getLast?_eq_some_getLast given, Option.some_or] at last
    rwa [List.getLast?_eq_some_getLast given]
  apply ofScript_of_reading _ (defines.firstMatch?_append mark) defines.isBlankText_upperChars _ defines.given
    (trimmed_dropTerminator (trimmed_trimChars _) [';'])
  · rw [String.toList_ofList, text]
  · rw [String.toList_ofList, same, defines.dropTerminator_eq trimmed current other marked]

/-- A definition with other spaces before white space gives a procedure that counts as the same. -/
private theorem ofScript_alike {text statement : List Char} (bare : Bare text) (trimmed : Trimmed statement)
    (alike : squeeze statement = squeeze text) (defines : DefinesProcedure text name source) :
    ∃ q, Procedure.ofScript (String.ofList statement) = .ok q ∧ q.name = String.ofList (upperChars name) ∧
      normalizeSource q.sourceCode = normalizeSource (String.ofList (dropTerminator [';'] (trimChars source))) := by
  -- Each step of reading commutes with squeezing, so what is read differs in white space only.
  have bareStatement : Bare statement := bare_squeeze_iff.mp (alike.symm ▸ bare_squeeze_iff.mpr bare)
  have silent : startsDirective true statement = false := by
    rw [← startsDirective_squeeze, alike, startsDirective_squeeze, defines.silent]
  have quiet := firstTerminator?_of_startsDirective silent
  have whole : stripCommentChars (String.ofList statement).toList = statement := by
    rw [String.toList_ofList, bareStatement.stripCommentChars_eq trimmed]
  obtain ⟨rest, reading, same⟩ : ∃ rest, firstMatch? procedureReading? statement = some (name, rest) ∧
      squeeze rest = squeeze source := by
    have both := firstProcedure_squeeze statement
    have found := defines.firstMatch?_append []
    rw [List.append_nil, List.append_nil] at found
    rw [alike, firstProcedure_squeeze, found] at both
    obtain ⟨⟨found, rest⟩, read, same⟩ := Option.map_eq_some_iff.mp both.symm
    obtain ⟨named, sources⟩ := Prod.mk.inj same
    exact ⟨rest, named ▸ read, sources⟩
  have sources : squeeze (dropTerminator [';'] (dropTerminator [';'] (trimChars rest))) =
      squeeze (dropTerminator [';'] (trimChars source)) := by
    have once : dropTerminator [';'] (dropTerminator [';'] (trimChars source)) = dropTerminator [';'] (trimChars source) :=
      dropTerminator_other (List.cons_ne_nil ';' []) fun c last member =>
        defines.last c last (List.mem_singleton.mp member)
    have semicolon : isBlank ';' = false := rfl
    rw [← dropTerminator_squeeze semicolon, ← dropTerminator_squeeze semicolon, ← trimChars_squeeze, same,
      trimChars_squeeze, dropTerminator_squeeze semicolon, dropTerminator_squeeze semicolon, once]
  have given : dropTerminator [';'] (dropTerminator [';'] (trimChars rest)) ≠ [] := by
    intro none
    rw [none] at sources
    exact defines.given (squeeze_eq_nil_iff.mp sources.symm)
  have trimmedRest := trimmed_dropTerminator (trimmed_dropTerminator (trimmed_trimChars rest) [';']) [';']
  have bareSource := bare_dropTerminator (defines.bare_source bare).trimChars
  have bareRest := bare_squeeze_iff.mp (sources.symm ▸ bare_squeeze_iff.mpr bareSource)
  have left : trimChars (withoutDirectives 0 true (stripCommentChars (String.ofList statement).toList)) = statement := by
    rw [whole, withoutDirectives_silent quiet, trimmed.trimChars_eq]
  have terminator : terminatorOf (stripCommentChars (String.ofList statement).toList) = [';'] := by
    rw [whole, terminatorOf, quiet]
  obtain ⟨q, read, named, sourceCode⟩ := ofScript_of_reading left reading defines.isBlankText_upperChars
    (by rw [terminator]) given trimmedRest
  refine ⟨q, read, named, ?_⟩
  rw [sourceCode]
  exact normalizeSource_congr bareRest bareSource trimmedRest (trimmed_dropTerminator (trimmed_trimChars source) [';'])
    sources

include opens shared closes in
/-- The statement that a batch sends for a procedure reads as the procedure that the batch defines as a script, and
its source is that of the definition, without directives and terminators. -/
theorem ofScript_statement (line : opening = [] ∨ '\n' ∈ (keptChars body).takeWhile isBlank)
    (defines : DefinesProcedure (stripCommentChars body) name source) :
    ∃ statement p q, splitStatements (String.ofList (opening ++ (body ++ closing))) = [statement] ∧
      Procedure.ofScript (String.ofList (opening ++ (body ++ closing))) = .ok p ∧
      Procedure.ofScript statement = .ok q ∧ q.key = p.key ∧ procedureChanged (some q) p = false ∧
      p.sourceCode = String.ofList (dropTerminator [';'] (trimChars source)) := by
  obtain ⟨statement, trimmed, alike, sent⟩ :=
    splitStatements_definition opens shared closes defines.ne_nil defines.silent
  obtain ⟨p, script, pName, pSource⟩ := ofScript_definition opens shared closes line defines
  obtain ⟨q, read, qName, qSource⟩ := ofScript_alike shared.commented.bare_keptChars.trimChars trimmed alike defines
  refine ⟨String.ofList statement, p, q, sent, script, read, ?_, ?_, pSource⟩
  · rw [key, key, qName, pName]
  · rw [procedureChanged, qSource, pSource, bne_self_eq_false]

end Agreement

/-- A definition with a comment and a literal that hold the terminator. -/
def notifyBody : List Char :=
  "\nRECREATE PROCEDURE NOTIFY\nAS BEGIN ".toList ++
    '/' :: '*' :: (" ^ */".toList ++ (" X = ".toList ++ '\'' :: ("^'".toList ++ "; END ".toList)))

private theorem shared_notifyBody : SharedText ['^'] notifyBody := by
  have last : SharedText ['^'] ("; END ".toList ++ []) := SharedText.nil.prepend (by decide)
  rw [List.append_nil] at last
  have quoted : SharedText ['^'] ('\'' :: ("^'".toList ++ "; END ".toList)) :=
    .literal (.plain (by decide) .close) (by decide) last
  have middle : SharedText ['^'] (" X = ".toList ++ '\'' :: ("^'".toList ++ "; END ".toList)) :=
    quoted.prepend (by decide)
  have set : SetOff (" X = ".toList ++ '\'' :: ("^'".toList ++ "; END ".toList)) := by
    refine .inl ?_
    rintro c ⟨⟩
    rfl
  exact SharedText.prepend (.block rfl set middle) (by decide)

private theorem keptChars_notifyBody :
    keptChars notifyBody = "\nRECREATE PROCEDURE NOTIFY\nAS BEGIN  X = '^'; END ".toList := by
  have last : keptChars "; END ".toList = "; END ".toList := keptChars_eq_self (by decide)
  have closes : closeBlock? (" ^ */".toList ++ (" X = ".toList ++ '\'' :: ("^'".toList ++ "; END ".toList))) =
      some (" X = ".toList ++ '\'' :: ("^'".toList ++ "; END ".toList)) := rfl
  have literal : LiteralRest "^'".toList := .plain (by decide) .close
  have apart : "; END ".toList.head? ≠ some '\'' := by decide
  unfold notifyBody
  rw [keptChars_prepend (by decide), keptChars_block closes, keptChars_prepend (by decide),
    keptChars_literal literal apart, last]
  decide

/-- The terminators in the comment and in the literal end nothing, and the comment is left out on both sides. -/
theorem ofScript_statement_notify :
    ∃ statement p q, splitStatements (String.ofList (openingWords.text [';'] ++ (notifyBody ++
        (['^'] ++ (['\n'] ++ (closingWords.text ['^'] ++ ['\n'])))))) = [statement] ∧
      Procedure.ofScript (String.ofList (openingWords.text [';'] ++ (notifyBody ++
        (['^'] ++ (['\n'] ++ (closingWords.text ['^'] ++ ['\n'])))))) = .ok p ∧
      Procedure.ofScript statement = .ok q ∧ q.key = p.key ∧ procedureChanged (some q) p = false ∧
      p.sourceCode = String.ofList (dropTerminator [';'] (trimChars "\nAS BEGIN  X = '^'; END".toList)) := by
  have kept := keptChars_notifyBody
  have bare : stripCommentChars notifyBody = "RECREATE PROCEDURE NOTIFY\nAS BEGIN  X = '^'; END".toList := by
    rw [stripCommentChars_eq, kept]
    decide
  have defines : DefinesProcedure (stripCommentChars notifyBody) "NOTIFY".toList "\nAS BEGIN  X = '^'; END".toList := by
    rw [bare]
    exact ⟨⟨"RE".toList, "CREATE PROCEDURE NOTIFY\nAS BEGIN  X = '^'; END".toList, by decide, by decide, by decide⟩,
      by decide, by decide, by rintro c ⟨⟩; decide⟩
  apply ofScript_statement opening_openingWords shared_notifyBody closing_closingWords _ defines
  rw [kept]
  decide

end Procedure

end SchemaSync
