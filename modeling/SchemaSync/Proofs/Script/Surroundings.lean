import SchemaSync.Proofs.Script.Directive
import SchemaSync.Proofs.Script.ProcedureSource

/-! What may stand in a batch around the one definition it holds: the directive that sets the terminator before it,
and the terminator and the directive that takes it back after it. No statement is sent for any of it, and all of it
but the terminator is taken out when the batch is read as a script. -/

namespace SchemaSync.Script

open Text

/-- What may stand before a definition: nothing, or a directive that sets the terminator after the definition. -/
inductive Opening : List Char → List Char → Prop
  | nothing : Opening [] [';']
  | directive {fillers : List Filler} {d : Directive} : (∀ filler ∈ fillers, filler.Complete) → d.OneLine [';'] →
      IsTerminator d.terminator → ';' ∉ d.terminator →
      Opening (fillers.flatMap Filler.text ++ d.text [';']) d.terminator

def Filler.kept : Filler → List Char
  | .blank c => [c]
  | .block _ => []
  | .line _ => ['\n']

/-- What may stand after a definition: nothing, the terminator, or the terminator and on a later line a directive
that takes the semicolon back. -/
inductive Closing (terminator : List Char) : List Char → Prop
  | nothing : Closing terminator []
  | ended {last : List Filler} : (∀ filler ∈ last, filler.Complete) →
      Closing terminator (terminator ++ last.flatMap Filler.text)
  | reset {fillers last : List Filler} {d : Directive} : (∀ filler ∈ fillers, filler.Complete) →
      '\n' ∈ fillers.flatMap Filler.kept → d.OneLine terminator → d.terminator = [';'] → ';' ∉ terminator →
      (∀ filler ∈ last, filler.Complete) →
      Closing terminator (terminator ++ (fillers.flatMap Filler.text ++ (d.text terminator ++ last.flatMap Filler.text)))

section Semicolon

variable {terminator : List Char} (other : ';' ∉ terminator)
include other

private theorem notMem_semicolon : ∀ c ∈ terminator, c ∉ [';'] :=
  fun _ member same => other (List.mem_singleton.mp same ▸ member)

private theorem semicolon_notMem : ∀ c ∈ [';'], c ∉ terminator :=
  fun _ same member => other (List.mem_singleton.mp same ▸ member)

/-- A terminator without semicolons stays whole when those at its end are taken off. -/
private theorem terminatorOf_eq {cs : List Char} (read : firstTerminator? true cs = some terminator)
    (given : terminator ≠ []) : terminatorOf cs = terminator := by
  have whole : (terminator.reverse.dropWhile (· == ';')).reverse = terminator := by
    have front : terminator.reverse.dropWhile (· == ';') = terminator.reverse := by
      cases last : terminator.reverse with
      | nil => rfl
      | cons c more =>
        have member : c ∈ terminator := List.mem_reverse.mp (last ▸ List.mem_cons_self)
        exact List.dropWhile_cons_of_neg fun same => other (beq_iff_eq.mp same ▸ member)
    rw [front, List.reverse_reverse]
  rw [terminatorOf, read]
  dsimp only
  rw [whole, List.isEmpty_eq_false_iff.mpr given, if_neg Bool.false_ne_true]

end Semicolon

section Statement

theorem Opening.isTerminator {opening terminator : List Char} (opens : Opening opening terminator) :
    IsTerminator terminator := by
  cases opens with
  | nothing => exact isTerminator_semicolon
  | directive _ _ new _ => exact new

theorem Opening.cuts_eq {opening terminator : List Char} (opens : Opening opening terminator) (rest : List Char) :
    cuts [';'] (opening ++ rest) = cuts terminator rest := by
  cases opens with
  | nothing => rfl
  | @directive fillers d complete line new other =>
    obtain ⟨blanks, blank, same⟩ := cutsFrom_fillers [] (d.text [';'] ++ rest) isTerminator_semicolon fillers complete
    have directive := line.formed.cutsFrom_eq isTerminator_semicolon new (notMem_semicolon other)
      (List.all_eq_true.mp line.apart.2) blank rest
    rw [List.append_nil] at same
    rw [cuts, List.append_assoc, same, cuts, ← directive, Directive.text]
    simp only [List.append_assoc]

variable {terminator closing : List Char} (current : IsTerminator terminator) (closes : Closing terminator closing)
include current closes

theorem Closing.head : ∀ c ∈ closing.head?, c ∈ terminator := by
  have front {rest : List Char} : ∀ c ∈ (terminator ++ rest).head?, c ∈ terminator :=
    head_append current.nonempty (fun _ head => List.mem_of_mem_head? head) rest
  cases closes with
  | nothing =>
    rintro c ⟨⟩
  | ended => exact front
  | reset => exact front

theorem Closing.joint : ∀ c ∈ closing.head?, c ≠ '\'' ∧ c ≠ '-' ∧ c ≠ '*' := by
  intro c head
  have member := closes.head current c head
  exact ⟨apostrophe_of_isQuote (current.noQuote member), (current.noComment member).1, (current.noComment member).2.2⟩

theorem Closing.cutsFrom_eq {read : List Char} (given : trimChars read.reverse ≠ [])
    (silent : newTerminator? (trimChars read.reverse) = none) :
    cutsFrom terminator none read closing = [⟨terminator, trimChars read.reverse⟩] := by
  have cut : cutOf terminator (trimChars read.reverse) = [⟨terminator, trimChars read.reverse⟩] := by
    rw [cutOf, List.isEmpty_eq_false_iff.mpr given, silent]
    rfl
  have kept : terminatorAfter terminator (trimChars read.reverse) = terminator := by
    rw [terminatorAfter, silent]
    rfl
  have after {rest : List Char} (nothing : cuts terminator rest = []) :
      cutsFrom terminator none read (terminator ++ rest) = [⟨terminator, trimChars read.reverse⟩] := by
    rw [cutsFrom_terminator _ _ current, cut, kept, ← cuts, nothing, List.append_nil]
  cases closes with
  | nothing => rw [cutsFrom, cut]
  | @ended last complete =>
    apply after
    exact List.map_eq_nil_iff.mp (cuts_render current [] trivial last complete)
  | @reset fillers last d complete _ line same other completeLast =>
    have admissible : Admissible terminator [(fillers, .directive d)] :=
      ⟨complete, .directive d line.formed (same ▸ isTerminator_semicolon) (same ▸ semicolon_notMem other)
        (List.all_eq_true.mp line.apart.2), trivial⟩
    have nothing := List.map_eq_nil_iff.mp (cuts_render current _ admissible last completeLast)
    apply after
    simpa only [render, Item.text, Directive.text, List.append_assoc] using nothing

end Statement

theorem opening_openingWords : Opening (openingWords.text [';']) ['^'] :=
  @Opening.directive [] openingWords (by simp) oneLine_openingWords ⟨by decide, by decide⟩ (by decide)

theorem closing_closingWords : Closing ['^'] (['^'] ++ (['\n'] ++ (closingWords.text ['^'] ++ ['\n']))) :=
  @Closing.reset ['^'] [.blank '\n'] [.blank '\n'] closingWords (by decide) (by decide) oneLine_closingWords rfl
    (by decide) (by decide)

section Kept

theorem Filler.blank_kept {fillers : List Filler} (complete : ∀ filler ∈ fillers, filler.Complete) :
    ∀ c ∈ fillers.flatMap Filler.kept, isBlank c = true := by
  intro c member
  obtain ⟨filler, inside, left⟩ := List.mem_flatMap.mp member
  have whole := complete filler inside
  cases filler with
  | blank d => exact List.mem_singleton.mp left ▸ whole
  | block => cases left
  | line => exact List.mem_singleton.mp left ▸ rfl

theorem keptChars_fillers {fillers : List Filler} (complete : ∀ filler ∈ fillers, filler.Complete) (rest : List Char) :
    keptChars (fillers.flatMap Filler.text ++ rest) = fillers.flatMap Filler.kept ++ keptChars rest := by
  induction fillers with
  | nil => rfl
  | cons filler fillers ih =>
    have later := ih fun other member => complete other (List.mem_cons_of_mem filler member)
    have whole := complete filler List.mem_cons_self
    rw [List.flatMap_cons, List.flatMap_cons, List.append_assoc, List.append_assoc, ← later]
    generalize fillers.flatMap Filler.text ++ rest = more
    cases filler with
    | blank c => exact keptChars_blanks (fun d member => List.mem_singleton.mp member ▸ whole) more
    | block body =>
      have closes := closeBlock?_body more whole
      have kept := keptChars_block closes
      simpa only [Filler.text, Filler.kept, List.append_assoc, List.cons_append, List.nil_append] using kept
    | line body =>
      have below : keptChars ('\n' :: more) = '\n' :: keptChars more := keptChars_plain (by decide) rfl
      have kept := keptChars_line (body ++ '\n' :: more)
      rw [dropLine_body more whole, below] at kept
      simpa only [Filler.text, Filler.kept, List.append_assoc, List.cons_append, List.nil_append] using kept

theorem trimEnd_fillers {last : List Filler} (complete : ∀ filler ∈ last, filler.Complete) (front : List Char) :
    trimEnd (front ++ keptChars (last.flatMap Filler.text)) = trimEnd front := by
  have kept := keptChars_fillers complete []
  rw [keptChars_nil, List.append_nil, List.append_nil] at kept
  rw [kept, trimEnd_blanks (Filler.blank_kept complete)]

theorem IsTerminator.keptChars_eq {terminator : List Char} (current : IsTerminator terminator) (rest : List Char) :
    keptChars (terminator ++ rest) = terminator ++ keptChars rest := by
  apply keptChars_prepend
  rw [List.all_eq_true]
  intro c member
  have quote := apostrophe_of_isQuote (current.noQuote member)
  obtain ⟨minus, slash, _⟩ := current.noComment member
  simp [quote, minus, slash]

theorem Directive.WellFormed.keptChars_eq {d : Directive} (formed : d.WellFormed) {terminator : List Char}
    (apart : Gap d.afterTerminator) (current : IsTerminator terminator) (new : IsTerminator d.terminator)
    (disjoint : ∀ c ∈ d.terminator, c ∉ terminator) (rest : List Char) :
    keptChars (d.text terminator ++ rest) = d.text terminator ++ keptChars rest := by
  have safe : (d.words ++ d.afterTerminator).all (fun c => c != '\'' && c != '-' && c != '/') = true := by
    rw [List.all_eq_true]
    intro c member
    obtain ⟨quote, minus, slash, _⟩ := formed.inert_words current new disjoint (List.all_eq_true.mp apart.2) c member
    simp [apostrophe_of_isQuote quote, minus, slash]
  have front := keptChars_prepend safe (terminator ++ rest)
  rw [current.keptChars_eq] at front
  simpa only [Directive.text, List.append_assoc] using front

end Kept

section Read

variable {terminator : List Char}

theorem Directive.OneLine.head_text {d : Directive} (line : d.OneLine terminator) :
    ∀ c ∈ (d.text terminator).head?, isBlank c = false := by
  have given : d.words ≠ [] := by
    intro none
    have set := line.formed.set
    rw [(List.append_eq_nil_iff.mp none).1] at set
    cases set
  exact head_append given line.formed.trimmed_words.head _

private theorem stripCommentChars_directive {fillers : List Filler} {d : Directive} {rest before text : List Char}
    (complete : ∀ filler ∈ fillers, filler.Complete) (line : d.OneLine [';']) (new : IsTerminator d.terminator)
    (other : ';' ∉ d.terminator) (kept : keptChars rest = before ++ text) (given : trimEnd text ≠ []) :
    stripCommentChars (fillers.flatMap Filler.text ++ d.text [';'] ++ rest) = d.text [';'] ++ (before ++ trimEnd text) := by
  have start : ∀ c ∈ (d.text [';'] ++ (before ++ text)).head?, isBlank c = false :=
    head_append (text_ne_nil line) line.head_text _
  rw [stripCommentChars_eq, List.append_assoc, keptChars_fillers complete,
    line.formed.keptChars_eq line.apart isTerminator_semicolon new (notMem_semicolon other), kept,
    trimChars_blanks (Filler.blank_kept complete), trimChars, trimStart_head start, ← List.append_assoc,
    trimEnd_append given, List.append_assoc]

/-- The directive before a definition gives the terminator and is left out. -/
theorem Opening.read {opening rest before text : List Char} (opens : Opening opening terminator)
    (kept : keptChars rest = before ++ text) (blank : ∀ c ∈ before, isBlank c = true)
    (line : opening = [] ∨ '\n' ∈ before) (start : ∀ c ∈ text.head?, isBlank c = false)
    (given : trimEnd text ≠ []) (silent : directive? (trimEnd text) = none)
    (quiet : terminator = [';'] → firstTerminator? true (trimEnd text) = none) :
    terminatorOf (stripCommentChars (opening ++ rest)) = terminator ∧ ∃ gap, (∀ c ∈ gap, isBlank c = true) ∧
      withoutDirectives 0 true (stripCommentChars (opening ++ rest)) = gap ++ withoutDirectives 0 true (trimEnd text) := by
  cases opens with
  | nothing =>
    have bare : stripCommentChars ([] ++ rest) = trimEnd text := by
      rw [List.nil_append, stripCommentChars_eq, kept, trimChars_blanks blank, trimChars, trimStart_head start]
    rw [bare]
    refine ⟨?_, [], by simp, rfl⟩
    rw [terminatorOf, quiet rfl]
  | @directive fillers d complete oneLine new other =>
    have newline : '\n' ∈ before := by
      refine line.resolve_left fun none => ?_
      exact text_ne_nil oneLine (List.append_eq_nil_iff.mp none).2
    have solid : ∀ c ∈ (trimEnd text).head?, isBlank c = false := trimEnd_head start
    rw [stripCommentChars_directive complete oneLine new other kept given]
    exact ⟨terminatorOf_eq other (firstTerminator?_before oneLine blank newline given solid) new.nonempty,
      withoutDirectives_before oneLine blank newline given solid silent⟩

/-- The directive after a definition is left out. -/
theorem Closing.read {closing text blanks : List Char} (current : IsTerminator terminator)
    (closes : Closing terminator closing) (blank : ∀ c ∈ blanks, isBlank c = true)
    (silent : startsDirective true text = false) (stop : ∀ c, text.getLast? = some c → isBlank c = false) :
    ∃ rest mark, IsMark terminator mark ∧ trimEnd (text ++ (blanks ++ keptChars closing)) = text ++ rest ∧
      trimEnd (withoutDirectives 0 true (text ++ rest)) = text ++ mark ∧
      (terminator = [';'] → firstTerminator? true (text ++ rest) = none) := by
  -- The text starts no directive, and neither white space nor a terminator has letters to make it start one.
  have other : ∀ c ∈ blanks ++ terminator, (foldCase c).isAlpha = false := by
    intro c member
    rcases List.mem_append.mp member with member | member
    · rw [foldCase_of_blank (blank c member), isAlpha_of_blank (blank c member)]
    · exact current.noLetter member
  have marked : firstTerminator? true (text ++ (blanks ++ terminator)) = none :=
    firstTerminator?_of_startsDirective (startsDirective_append silent other)
  have whole : trimEnd (text ++ (blanks ++ terminator)) = text ++ (blanks ++ terminator) := by
    rw [← List.append_assoc, current.trimEnd_append]
  cases closes with
  | nothing =>
    have quiet := firstTerminator?_of_startsDirective silent
    refine ⟨[], [], .inl rfl, ?_, ?_, fun _ => ?_⟩
    · rw [keptChars_nil, List.append_nil, trimEnd_blanks blank, trimEnd_last stop, List.append_nil]
    · rw [List.append_nil, withoutDirectives_silent quiet, trimEnd_last stop]
    · rw [List.append_nil, quiet]
  | @ended last complete =>
    refine ⟨blanks ++ terminator, blanks ++ terminator, .inr ⟨blanks, blank, rfl⟩, ?_, ?_, fun _ => marked⟩
    · rw [current.keptChars_eq, ← List.append_assoc blanks, ← List.append_assoc text, trimEnd_fillers complete, whole]
    · rw [withoutDirectives_silent marked, whole]
  | @reset fillers final d complete newline oneLine same noSemicolon completeLast =>
    have left (rest : List Char) : keptChars (d.text terminator ++ rest) = d.text terminator ++ keptChars rest :=
      oneLine.formed.keptChars_eq oneLine.apart current (same ▸ isTerminator_semicolon)
        (same ▸ semicolon_notMem noSemicolon) rest
    have gap : Gap (fillers.flatMap Filler.kept) :=
      ⟨List.ne_nil_of_mem newline, List.all_eq_true.mpr (Filler.blank_kept complete)⟩
    refine ⟨blanks ++ (terminator ++ (fillers.flatMap Filler.kept ++ d.text terminator)), blanks ++ terminator,
      .inr ⟨blanks, blank, rfl⟩, ?_, ?_, fun semicolon => ?_⟩
    · have last := trimEnd_fillers completeLast
        (text ++ (blanks ++ (terminator ++ (fillers.flatMap Filler.kept ++ d.text terminator))))
      have ends := current.trimEnd_append
        (text ++ (blanks ++ (terminator ++ (fillers.flatMap Filler.kept ++ (d.words ++ d.afterTerminator)))))
      rw [current.keptChars_eq, keptChars_fillers complete, left]
      simp only [Directive.text, List.append_assoc] at last ends ⊢
      rw [last, ends]
    · have passed := trimEnd_withoutDirectives oneLine gap newline marked
      rw [whole] at passed
      simpa only [List.append_assoc] using passed
    · exact absurd (semicolon ▸ List.mem_singleton_self ';') noSemicolon

end Read

end SchemaSync.Script
