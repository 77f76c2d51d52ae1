import SchemaSync.Proofs.Script.ProcedureScript
import SchemaSync.Proofs.Script.Segment
import SchemaSync.Proofs.Script.Surroundings

/-! The script of a procedure as a batch. It is sent as one statement if nothing in the source stands in the way of the
terminator after it. -/

namespace SchemaSync

open Text Script

namespace Procedure

def sent (p : Procedure) (cs : List Char) : List Char :=
  trimChars ("CREATE PROCEDURE ".toList ++ (p.name.toList ++ '\n' :: cs))

section Sent

variable (p : Procedure) (cs : List Char)

theorem sent_eq : p.sent cs = "CREATE".toList ++ trimEnd (" PROCEDURE ".toList ++ (p.name.toList ++ '\n' :: cs)) := by
  have text : "CREATE PROCEDURE ".toList ++ (p.name.toList ++ '\n' :: cs) =
      "CREATE".toList ++ (" PROCEDURE ".toList ++ (p.name.toList ++ '\n' :: cs)) := rfl
  have stop : ∀ c, "CREATE".toList.getLast? = some c → isBlank c = false := by
    rintro c ⟨⟩
    rfl
  rw [sent, trimChars, trimStart_head, text, trimEnd_after stop]
  rintro c ⟨⟩
  rfl

theorem sent_ne_nil : p.sent cs ≠ [] := by
  rw [sent_eq]
  exact List.cons_ne_nil _ _

theorem silent_sent : newTerminator? (p.sent cs) = none := by
  rw [sent_eq]
  rfl

/-- More is sent if more of the source is left than white space. -/
theorem sent_append_ne (blanks : List Char) (blank : ∀ c ∈ blanks, isBlank c = true) {c : Char}
    (solid : isBlank c = false) (rest : List Char) : p.sent (cs ++ (blanks ++ c :: rest)) ≠ p.sent cs := by
  rw [sent_eq, sent_eq]
  refine fun same => trimEnd_append_ne solid (" PROCEDURE ".toList ++ (p.name.toList ++ '\n' :: cs) ++ blanks) rest ?_
  rw [trimEnd_blanks blank]
  simp only [List.append_assoc, List.cons_append] at same ⊢
  exact List.append_cancel_left same

end Sent

private theorem isTerminator_mark : IsTerminator ['^'] :=
  ⟨by decide, by decide⟩

/-- The text of a script after the source. -/
private def ending : List Char :=
  ['^'] ++ (['\n'] ++ (closingWords.text ['^'] ++ ['\n']))

private theorem ending_eq : ending = "^\nSET TERM ; ^\n".toList :=
  rfl

variable {p : Procedure} (name : IsName p.name.toList) {segments : List Segment}
  (source : trimChars p.sourceCode.toList = written segments)

/-- What has been read of a script before its source, the last character first. -/
private def readBefore (p : Procedure) : List Char :=
  ("\nCREATE PROCEDURE ".toList ++ (p.name.toList ++ ['\n'])).reverse

private theorem sent_of_read (p : Procedure) (cs : List Char) :
    trimChars (cs.reverse ++ readBefore p).reverse = p.sent cs := by
  have text : (cs.reverse ++ readBefore p).reverse =
      ['\n'] ++ ("CREATE PROCEDURE ".toList ++ (p.name.toList ++ '\n' :: cs)) := by
    rw [readBefore, List.reverse_append, List.reverse_reverse, List.reverse_reverse]
    simp only [List.append_assoc]
    rfl
  rw [text, trimChars_blanks (List.forall_mem_singleton.mpr rfl), sent]

include name source in
/-- The source is read under the terminator that the script sets for it. -/
private theorem cuts_script : cuts [';'] p.script.toList =
    cutsFrom ['^'] none (readBefore p) (written segments ++ ending) := by
  have text : p.script.toList = openingWords.text [';'] ++
      (("\nCREATE PROCEDURE ".toList ++ (p.name.toList ++ ['\n'])) ++ (written segments ++ ending)) := by
    rw [script_toList, source]
    simp only [List.append_assoc]
    rfl
  have inert : ∀ c ∈ "\nCREATE PROCEDURE ".toList ++ (p.name.toList ++ ['\n']), Inert ['^'] c :=
    .around_name (by decide) (by decide) name (by decide)
  rw [text, opening_openingWords.cuts_eq, cuts, cutsFrom_inert _ _ isTerminator_mark inert, List.append_nil]
  rfl

/-- The source is read as it is shown up to the first mark in it. -/
private theorem cutsFrom_unmarked {rest : List Char} (complete : Complete segments rest)
    (unmarked : .plain '^' ∉ segments) : cutsFrom ['^'] none (readBefore p) (written segments ++ rest) =
      cutsFrom ['^'] none ((shown segments).reverse ++ readBefore p) rest := by
  refine cutsFrom_written _ isTerminator_mark complete ?_
  rintro c member same
  exact unmarked (List.mem_singleton.mp same ▸ member)

/-- A source whose last line goes on to the mark after it is sent as one statement. -/
private theorem cutsFrom_ended (complete : Complete segments []) (unmarked : .plain '^' ∉ segments)
    (other : ∀ body, segments.getLast? ≠ some (.line body)) :
    cutsFrom ['^'] none (readBefore p) (written segments ++ ending) = [⟨['^'], p.sent (shown segments)⟩] := by
  have joint := closing_closingWords.head isTerminator_mark
  have before : Complete segments ending := complete.before other fun c head =>
    (isTerminator_mark.noComment (joint c head)).imp_right And.right
  have ended :=
    @Closing.cutsFrom_eq _ _ isTerminator_mark closing_closingWords ((shown segments).reverse ++ readBefore p)
  rw [sent_of_read] at ended
  rw [cutsFrom_unmarked before unmarked]
  exact ended (sent_ne_nil p _) (silent_sent p _)

/-- A mark in the source ends the statement before the source ends. -/
private theorem cutsFrom_marked {before after : List Segment} (complete : Complete (before ++ .plain '^' :: after) [])
    (unmarked : .plain '^' ∉ before) : ∃ more,
      cutsFrom ['^'] none (readBefore p) (written (before ++ .plain '^' :: after) ++ ending) =
        ⟨['^'], p.sent (shown before)⟩ :: more := by
  have text : written (before ++ .plain '^' :: after) ++ ending =
      written before ++ (['^'] ++ (written after ++ ending)) := by
    simp [written, Segment.text]
  have front : Complete before (['^'] ++ (written after ++ ending)) := (complete_append.mp complete).1.congr rfl
  have cut : cutOf ['^'] (p.sent (shown before)) = [⟨['^'], p.sent (shown before)⟩] := by
    rw [cutOf, silent_sent, List.isEmpty_eq_false_iff.mpr (sent_ne_nil p _)]
    rfl
  rw [text, cutsFrom_unmarked front unmarked, cutsFrom_terminator _ _ isTerminator_mark, sent_of_read, cut]
  exact ⟨_, rfl⟩

/-- A comment on the last line of the source hides the mark after it, and the next mark ends the statement. -/
private theorem cutsFrom_hidden {front : List Segment} {body : List Char}
    (complete : Complete (front ++ [.line body]) []) (unmarked : .plain '^' ∉ front) :
    cutsFrom ['^'] none (readBefore p) (written (front ++ [.line body]) ++ ending) =
      [⟨['^'], p.sent (shown front ++ "\nSET TERM ; ".toList)⟩] := by
  obtain ⟨before, ⟨inside, _⟩, _⟩ := complete_append.mp complete
  have text : written (front ++ [.line body]) ++ ending =
      written front ++ '-' :: '-' :: ((body ++ ['^']) ++ '\n' :: "SET TERM ; ^\n".toList) := by
    simp [written, Segment.text, ending_eq]
  have line : '\n' ∉ body ++ ['^'] := by
    rw [List.mem_append, not_or]
    exact ⟨inside, by decide⟩
  have whole : Complete front ('-' :: '-' :: ((body ++ ['^']) ++ '\n' :: "SET TERM ; ^\n".toList)) := before.congr rfl
  have rest : '\n' :: "SET TERM ; ^\n".toList = "\nSET TERM ; ".toList ++ (['^'] ++ ['\n']) := rfl
  have ended := @Closing.cutsFrom_eq _ _ isTerminator_mark (@Closing.ended ['^'] [.blank '\n'] (by decide))
    ((shown front ++ "\nSET TERM ; ".toList).reverse ++ readBefore p)
  rw [sent_of_read, List.reverse_append, List.append_assoc] at ended
  rw [text, cutsFrom_unmarked whole unmarked, cutsFrom_line, dropLine_body _ line, rest,
    cutsFrom_inert _ _ isTerminator_mark (.of_all (by decide))]
  exact ended (sent_ne_nil p _) (silent_sent p _)

/-- The script of a procedure is sent as one statement, the definition with its source less comments, exactly if no
mark stands in the trimmed source outside of quotes and comments, and no comment is on its last line. -/
theorem splitStatements_script_iff (name : IsName p.name.toList) {segments : List Segment}
    (complete : Complete segments []) (source : p.sourceCode.toList = written segments) :
    splitStatements p.script = [String.ofList (p.sent (shown (trimmed segments)))] ↔
      .plain '^' ∉ trimmed segments ∧ ∀ body, (trimmed segments).getLast? ≠ some (.line body) := by
  obtain ⟨complete, text⟩ := complete.trimmed
  rw [← source] at text
  rw [splitStatements, cuts_script name text.symm]
  generalize trimmed segments = segments at *
  by_cases marked : .plain '^' ∈ segments
  · obtain ⟨before, after, rfl, unmarked⟩ := List.eq_append_cons_of_mem marked
    obtain ⟨more, cut⟩ := cutsFrom_marked (p := p) complete unmarked
    have longer : shown (before ++ .plain '^' :: after) = shown before ++ '^' :: shown after := by
      simp [shown, Segment.shown, Segment.text]
    rw [cut, longer]
    refine ⟨fun same => ?_, fun both => absurd marked both.1⟩
    have first := String.ofList_inj.mp (List.cons.inj same).1
    exact absurd first.symm (sent_append_ne p _ [] (by simp) (by decide) _)
  by_cases last : ∃ body, segments.getLast? = some (.line body)
  · obtain ⟨body, ends⟩ := last
    obtain ⟨front, rfl⟩ := List.getLast?_eq_some_iff.mp ends
    have shorter : shown (front ++ [.line body]) = shown front := by simp [shown, Segment.shown]
    have other : sent p (shown front ++ "\nSET TERM ; ".toList) ≠ sent p (shown front) :=
      sent_append_ne p _ ['\n'] (List.forall_mem_singleton.mpr rfl) (by decide) _
    rw [cutsFrom_hidden complete fun inside => marked (List.mem_append_left _ inside), shorter]
    refine ⟨fun same => ?_, fun both => absurd ends (both.2 body)⟩
    exact absurd (String.ofList_inj.mp (List.cons.inj same).1) other
  · have other : ∀ body, segments.getLast? ≠ some (.line body) := not_exists.mp last
    rw [cutsFrom_ended complete marked other]
    exact ⟨fun _ => ⟨marked, other⟩, fun _ => rfl⟩

/-- A source with an operator between a name and a mark in quotes, then a remark, and a line end. -/
def guardSegments (operator : String) (remark : Segment) : List Segment :=
  "AS BEGIN IF (A ".toList.map .plain ++ (operator.toList.map .plain ++ .quoted '\'' ['^'] ::
    (") THEN EXIT; END ".toList.map .plain ++ [remark, .plain '\n']))

def guard (operator : String) (remark : Segment) : Procedure where
  name := "GUARD"
  sourceCode := String.ofList (written (guardSegments operator remark))
  description := none
  named := rfl
  sourced := by
    rw [isBlankText, String.toList_ofList]
    rfl

private theorem complete_guardSegments {operator : String} {remark : Segment}
    (inert : operator.toList.all (fun c => decide (Inert [] c)) = true) (ends : remark.Ends ['\n']) :
    Complete (guardSegments operator remark) [] := by
  have last : Complete [remark, .plain '\n'] [] := ⟨ends, ⟨rfl, rfl⟩, trivial⟩
  have quoted : Complete (.quoted '\'' ['^'] :: (") THEN EXIT; END ".toList.map .plain ++ [remark, .plain '\n'])) [] :=
    ⟨⟨rfl, by decide⟩, last.prepend (.of_all (by decide))⟩
  exact (quoted.prepend (.of_all inert)).prepend (.of_all (by decide))

/-- A mark in quotes does no harm, and a comment does none unless it is on the last line. -/
theorem splitStatements_script_guard :
    splitStatements (guard "<>" (.block " done ".toList)).script =
      ["CREATE PROCEDURE GUARD\nAS BEGIN IF (A <>'^') THEN EXIT; END"] ∧
    splitStatements (guard "^=" (.block " done ".toList)).script ≠
      ["CREATE PROCEDURE GUARD\nAS BEGIN IF (A ^='^') THEN EXIT; END"] ∧
    splitStatements (guard "<>" (.line " done".toList)).script ≠
      ["CREATE PROCEDURE GUARD\nAS BEGIN IF (A <>'^') THEN EXIT; END"] := by
  have split (operator : String) (remark : Segment) (statement : String)
      (complete : Complete (guardSegments operator remark) [])
      (text : String.ofList ((guard operator remark).sent (shown (trimmed (guardSegments operator remark)))) =
        statement) : splitStatements (guard operator remark).script = [statement] ↔
          .plain '^' ∉ trimmed (guardSegments operator remark) ∧
            ∀ body, (trimmed (guardSegments operator remark)).getLast? ≠ some (.line body) := by
    rw [← text]
    exact splitStatements_script_iff (show IsName "GUARD".toList by decide) complete String.toList_ofList
  have block : Segment.Ends ['\n'] (.block " done ".toList) := show _ = false by decide
  have line : Segment.Ends ['\n'] (.line " done".toList) := ⟨by decide, fun c head => (Option.some.inj head).symm⟩
  have blocked := split "<>" (.block " done ".toList) "CREATE PROCEDURE GUARD\nAS BEGIN IF (A <>'^') THEN EXIT; END"
    (complete_guardSegments (by decide) block) (by decide +kernel)
  have marked := split "^=" (.block " done ".toList) "CREATE PROCEDURE GUARD\nAS BEGIN IF (A ^='^') THEN EXIT; END"
    (complete_guardSegments (by decide) block) (by decide +kernel)
  have hidden := split "<>" (.line " done".toList) "CREATE PROCEDURE GUARD\nAS BEGIN IF (A <>'^') THEN EXIT; END"
    (complete_guardSegments (by decide) line) (by decide +kernel)
  refine ⟨blocked.mpr ⟨by decide +kernel, ?_⟩, fun same => (marked.mp same).1 (by decide +kernel),
    fun same => (hidden.mp same).2 " done".toList (by decide +kernel)⟩
  have last : (trimmed (guardSegments "<>" (.block " done ".toList))).getLast? = some (.block " done ".toList) := by
    decide +kernel
  rw [last]
  rintro body ⟨⟩

end Procedure

end SchemaSync
