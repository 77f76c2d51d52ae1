import SchemaSync.Proofs.Plan.Agreement
import SchemaSync.Proofs.Script.ProcedureScript
import SchemaSync.Proofs.Text.Words

/-! When the script of a procedure reads back as a procedure that counts as the same. It does unless the
terminator after the source completes a directive: then its line is taken for one and left out. -/

namespace SchemaSync

open Text Script

namespace Script

/-- Where the terminator after a text completes a directive, less is left than the text. -/
theorem solids_withoutDirectives_lt {cs : List Char} {lineStart : Bool}
    (silent : firstTerminator? lineStart cs = none) (completed : firstTerminator? lineStart (cs ++ ['^']) ≠ none) :
    (solids (withoutDirectives 0 lineStart (cs ++ ['^'] ++ closingDirective))).length < (solids cs).length := by
  -- The completed directive starts somewhere in the text. Up to there both sides keep the same characters.
  induction cs generalizing lineStart with
  | nil =>
    refine absurd ?_ completed
    cases lineStart <;> decide
  | cons c cs ih =>
    obtain ⟨here, later⟩ := firstTerminator?_eq_none_iff.mp silent
    by_cases read : lineStart = true ∧ directive? (c :: cs ++ ['^']) ≠ none
    · -- The line from here to the terminator is the directive, and only its end is left.
      obtain ⟨rfl, some⟩ := read
      obtain ⟨found, read⟩ := Option.ne_none_iff_exists'.mp some
      have line : afterLine? closingDirective = Option.some closingDirective := rfl
      obtain ⟨solid, whole⟩ := directive?_completed (by decide) (here rfl) read (by rintro d ⟨⟩; rfl) line
      have left : withoutDirectives 0 true (c :: cs ++ ['^'] ++ closingDirective) = ['\n'] := by
        have length : (cs ++ ['^'] ++ closingDirective).length - closingDirective.length = (cs ++ ['^']).length := by
          rw [List.length_append, Nat.add_sub_cancel]
        rw [List.cons_append, List.cons_append] at whole ⊢
        rw [withoutDirectives, if_pos rfl, whole]
        dsimp only
        rw [length, withoutDirectives_skip, List.getLast?_concat]
        rfl
      have nothing : solids ['\n'] = [] := rfl
      rw [left, nothing, List.length_nil]
      refine List.length_pos_iff.mpr fun none => solid ?_
      have all : ∀ d ∈ c :: cs, isBlank d = true := by simpa [solids] using none
      rw [← List.append_nil (c :: cs), trimStart_blanks all]
      rfl
    · have unread : lineStart = true → directive? (c :: cs ++ ['^']) = none := fun start =>
        Classical.byContradiction fun some => read ⟨start, some⟩
      have front : trimStart (c :: cs ++ ['^']) ≠ [] := fun none => by
        cases blank_of_trimStart none '^' (by simp)
      have newline : Gap ['\n'] := by decide
      have quiet : lineStart = true → directive? (c :: cs ++ ['^'] ++ closingDirective) = none := by
        intro start
        rw [closingDirective_eq]
        exact oneLine_closingWords.directive?_append (unread start) front newline
      have rest : firstTerminator? (c == '\n') (cs ++ ['^']) ≠ none := fun none =>
        completed (firstTerminator?_eq_none_iff.mpr ⟨unread, none⟩)
      have fewer := ih later rest
      rw [List.cons_append, List.cons_append] at quiet ⊢
      rw [withoutDirectives_kept quiet, solids_cons, solids_cons]
      split
      · exact fewer
      · exact Nat.succ_lt_succ fewer

/-- Sources that count as the same have the same characters apart from comments and white space. -/
theorem solids_normalizeSource (source : String) :
    solids (normalizeSource source).toList = solids (stripCommentChars source.toList) := by
  rw [normalizeSource, String.toList_ofList, solids_joined fun word => solids_of_mem_wordsOf, flatten_wordsOf]

end Script

namespace Procedure

variable {p : Procedure}

/-- A procedure that is read where the terminator completes a directive has lost part of its source. -/
private theorem solids_read_lt (name : IsName p.name.toList) (sourced : p.Sourced)
    (silent : firstTerminator? true p.bareSource = none) (completed : firstTerminator? true p.markedSource ≠ none)
    {q : Procedure} (read : Procedure.ofScript p.script = .ok q) :
    (solids q.sourceCode.toList).length < (solids p.bareSource).length := by
  obtain ⟨mark, marks, marked⟩ := sourced.markedSource_eq
  obtain ⟨front, back, frontBlank, backBlank, split⟩ := sourced.kept_eq
  have quiet : firstTerminator? true (keptChars (trimChars p.sourceCode.toList)) = none := by
    rw [split]
    exact firstTerminator?_blanks frontBlank (firstTerminator?_append_blanks backBlank silent) true
  -- The terminator is not taken into a comment, since the source alone shows no directive.
  obtain rfl : mark = ['^'] := by
    refine marks.resolve_left fun none => completed ?_
    rw [marked, none, List.append_nil]
    exact quiet
  have fewer := solids_withoutDirectives_lt quiet (marked ▸ completed)
  rw [← marked] at fewer
  have same : solids (keptChars (trimChars p.sourceCode.toList)) = solids p.bareSource := by
    rw [split, solids_append, solids_append, solids_blanks frontBlank, solids_blanks backBlank]
    simp
  have source : q.sourceCode = String.ofList (sourceAfter ('\n' :: (p.markedSource ++ closingDirective))) := by
    rw [ofScript_markedSource name sourced] at read
    split at read
    · cases read
    · rw [create] at read
      split at read
      · split at read
        · cases read
          rfl
        · cases read
      · cases read
  have less : (solids (sourceAfter ('\n' :: (p.markedSource ++ closingDirective)))).length ≤
      (solids (withoutDirectives 0 true (p.markedSource ++ closingDirective))).length := by
    have line : withoutDirectives 0 false ('\n' :: (p.markedSource ++ closingDirective)) =
        '\n' :: withoutDirectives 0 true (p.markedSource ++ closingDirective) := withoutDirectives_kept (by simp)
    rw [sourceAfter, line]
    generalize withoutDirectives 0 true (p.markedSource ++ closingDirective) = left
    have cut : (dropTerminator [';'] (dropTerminator ['^'] (trimChars ('\n' :: left)))).Sublist
        (trimChars ('\n' :: left)) := (dropTerminator_sublist [';'] _).trans (dropTerminator_sublist ['^'] _)
    have same : solids (trimChars ('\n' :: left)) = solids left := by
      rw [solids_trimChars, solids_cons, if_pos (by rfl)]
    exact same ▸ (cut.filter (!isBlank ·)).length_le
  rw [source, String.toList_ofList, ← same]
  exact Nat.lt_of_le_of_lt less fewer

/-- A procedure without directives in its source reads back from its script exactly when the terminator after
the source makes none of its last line. -/
theorem script_unchanged_iff (name : IsName p.name.toList) (commented : Commented p.sourceCode.toList)
    (given : p.bareSource ≠ []) (last : ∀ c ∈ p.bareSource.getLast?, c ≠ ';' ∧ c ≠ '^')
    (silent : firstTerminator? true p.bareSource = none) :
    (∃ q, Procedure.ofScript p.script = .ok q ∧ q.key = p.key ∧ procedureChanged (some p) q = false) ↔
      firstTerminator? true p.markedSource = none := by
  have sourced : p.Sourced := ⟨commented.trimChars, given, last⟩
  constructor
  · rintro ⟨q, read, _, same⟩
    refine Classical.byContradiction fun completed => ?_
    have fewer := solids_read_lt name sourced silent completed read
    rw [procedureChanged, bne_eq_false_iff_eq] at same
    have both := congrArg (fun source => (solids (String.toList source)).length) same
    simp only [solids_normalizeSource] at both
    have kept := ((keptChars_sublist q.sourceCode.toList).filter (!isBlank ·)).length_le
    have stripped : solids (stripCommentChars q.sourceCode.toList) = solids (keptChars q.sourceCode.toList) :=
      solids_trimChars _
    rw [stripped] at both
    have bound : (solids (keptChars q.sourceCode.toList)).length ≤ (solids q.sourceCode.toList).length := kept
    have bare : (solids p.bareSource).length = (solids (stripCommentChars p.sourceCode.toList)).length := rfl
    omega
  · intro quiet
    have key : (p.read sourced).key = p.key := rfl
    refine ⟨p.read sourced, ofScript_script name sourced quiet, key, ?_⟩
    rw [procedureChanged, normalizeSource_read, bne_self_eq_false]

/-- A procedure with a comment after its source. -/
def noted (source : String) (sourced : isBlankText (source ++ "/* note */") = false) : Procedure :=
  ⟨"NOTIFY", source ++ "/* note */", none, rfl, sourced⟩

private theorem noted_eq (source : String) (sourced : isBlankText (source ++ "/* note */") = false)
    (bare : Bare source.toList) (start : ∀ c ∈ source.toList.head?, isBlank c = false)
    (last : ∀ c ∈ source.toList.getLast?, isBlank c = true) :
    Commented (noted source sourced).sourceCode.toList ∧
    (noted source sourced).bareSource = trimChars source.toList ∧
    (noted source sourced).markedSource = source.toList ++ ['^'] := by
  have text : (noted source sourced).sourceCode.toList = source.toList ++ "/* note */".toList := String.toList_append
  have closes (rest : List Char) : closeBlock? (" note */".toList ++ rest) = some rest := rfl
  have kept (rest : List Char) : keptChars (source.toList ++ ("/* note */".toList ++ rest)) =
      source.toList ++ keptChars rest :=
    (bare.append_commented fun c found => .inl (last c found)).1.trans (congrArg _ (keptChars_block (closes rest)))
  have trimmed : Trimmed (source.toList ++ "/* note */".toList) := by
    constructor
    · intro c found
      cases front : source.toList with
      | nil =>
        rw [front] at found
        obtain rfl : '/' = c := Option.some.inj found
        rfl
      | cons d rest =>
        rw [front] at found start
        exact start c found
    · intro c found
      rw [List.getLast?_append] at found
      obtain rfl : '/' = c := Option.some.inj found
      rfl
  refine ⟨?_, ?_, ?_⟩
  · rw [text]
    exact (bare.append_commented fun c found => .inl (last c found)).2 (.block (closes []) (.inl (.inl (by simp))) .nil)
  · have whole := kept []
    rw [List.append_nil, keptChars_nil, List.append_nil] at whole
    rw [bareSource, text, stripCommentChars_eq, whole]
  · have mark : keptChars ['^'] = ['^'] := by rw [keptChars_plain (by decide) rfl, keptChars_nil]
    rw [markedSource, text, trimmed.trimChars_eq, List.append_assoc, kept, mark]

/-- A comment at the end does no harm, unless the line before it looks like the start of a directive. -/
theorem script_unchanged_noted :
    (∃ q, Procedure.ofScript (noted "AS BEGIN X = 'SET TERM ;'; END " rfl).script = .ok q ∧
      q.key = (noted "AS BEGIN X = 'SET TERM ;'; END " rfl).key ∧
      procedureChanged (some (noted "AS BEGIN X = 'SET TERM ;'; END " rfl)) q = false) ∧
    ¬∃ q, Procedure.ofScript (noted "ENGINE UDR AS 'a\nSET TERM dumb' " rfl).script = .ok q ∧
      q.key = (noted "ENGINE UDR AS 'a\nSET TERM dumb' " rfl).key ∧
      procedureChanged (some (noted "ENGINE UDR AS 'a\nSET TERM dumb' " rfl)) q = false := by
  have name : IsName "NOTIFY".toList := by decide
  constructor
  · obtain ⟨commented, bare, marked⟩ := noted_eq "AS BEGIN X = 'SET TERM ;'; END " rfl
      ⟨by decide, by decide⟩ (by rintro c ⟨⟩; rfl) (by rintro c ⟨⟩; rfl)
    refine (script_unchanged_iff name commented ?_ ?_ ?_).mpr ?_
    · rw [bare]
      decide
    · rw [bare]
      rintro c ⟨⟩
      decide
    · rw [bare]
      decide
    · rw [marked]
      decide
  · obtain ⟨commented, bare, marked⟩ := noted_eq "ENGINE UDR AS 'a\nSET TERM dumb' " rfl
      ⟨by decide, by decide⟩ (by rintro c ⟨⟩; rfl) (by rintro c ⟨⟩; rfl)
    refine fun back => absurd ((script_unchanged_iff name commented ?_ ?_ ?_).mp back) ?_
    · rw [bare]
      decide
    · rw [bare]
      rintro c ⟨⟩
      decide
    · rw [bare]
      decide
    · rw [marked]
      decide

end Procedure

end SchemaSync
