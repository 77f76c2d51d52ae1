import SchemaSync.Proofs.Script.SharedText

/-! Texts in the segments that splitting a batch tells apart: quoted strings, comments, and single characters between
them. Splitting shows a text without its comments, up to the first character that ends a statement. -/

namespace SchemaSync.Script

open Text

/-- A segment of a text. A line comment ends before its line does. -/
inductive Segment
  | quoted (mark : Char) (body : List Char)
  | block (body : List Char)
  | line (body : List Char)
  | plain (c : Char)
  deriving DecidableEq, Repr

namespace Segment

def text : Segment → List Char
  | .quoted mark body => mark :: (body ++ [mark])
  | .block body => '/' :: '*' :: (body ++ ['*', '/'])
  | .line body => '-' :: '-' :: body
  | .plain c => [c]

def shown : Segment → List Char
  | .block _ => [' ']
  | .line _ => []
  | segment => segment.text

def Ends (rest : List Char) : Segment → Prop
  | .quoted mark body => isQuote mark = true ∧ mark ∉ body
  | .block body => occursIn ['*', '/'] body = false
  | .line body => '\n' ∉ body ∧ ∀ c ∈ rest.head?, c = '\n'
  | .plain c => isQuote c = false ∧ opensComment (c :: rest) = false

def isBlank : Segment → Bool
  | .plain c => Text.isBlank c
  | _ => false

/-- A segment at the end of a text: a comment on the last line loses its trailing white space. -/
def last : Segment → Segment
  | .line body => .line (trimEnd body)
  | segment => segment

end Segment

def written (segments : List Segment) : List Char :=
  segments.flatMap Segment.text

def shown (segments : List Segment) : List Char :=
  segments.flatMap Segment.shown

/-- Each of some segments ends where its text does, when some text follows them. -/
def Complete (segments : List Segment) (rest : List Char) : Prop :=
  match segments with
  | [] => True
  | segment :: more => segment.Ends (written more ++ rest) ∧ Complete more rest

def trimmedEnd (segments : List Segment) : List Segment :=
  match segments with
  | [] => []
  | segment :: more =>
    if (trimmedEnd more).isEmpty then
      if segment.isBlank then [] else [segment.last]
    else segment :: trimmedEnd more

def trimmed (segments : List Segment) : List Segment :=
  trimmedEnd (segments.dropWhile Segment.isBlank)

namespace Segment

theorem text_ne_nil (segment : Segment) : segment.text ≠ [] := by
  cases segment <;> exact List.cons_ne_nil _ _

/-- What follows a segment matters up to its first character. -/
theorem Ends.congr {segment : Segment} {one two : List Char} (ends : segment.Ends one) (same : one.head? = two.head?) :
    segment.Ends two := by
  cases segment with
  | quoted | block => exact ends
  | line => exact ⟨ends.1, same ▸ ends.2⟩
  | plain c => exact ⟨ends.1, opensComment_head same ▸ ends.2⟩

/-- A segment with nothing after it ends before anything that does not go on with a comment. -/
theorem Ends.before {segment : Segment} (ends : segment.Ends []) (other : ∀ body, segment ≠ .line body)
    {rest : List Char} (joint : ∀ c ∈ rest.head?, c ≠ '-' ∧ c ≠ '*') : segment.Ends rest := by
  cases segment with
  | quoted | block => exact ends
  | line body => exact absurd rfl (other body)
  | plain c => exact ⟨ends.1, opensComment_other joint⟩

theorem Ends.last {segment : Segment} {rest : List Char} (ends : segment.Ends rest) : segment.last.Ends [] := by
  cases segment with
  | quoted | block => exact ends
  | line body => exact ⟨fun inside => ends.1 ((trimEnd_front body).sublist.mem inside), by simp⟩
  | plain c => exact ⟨ends.1, opensComment_other (by simp)⟩

/-- Only white space starts a segment with a blank. -/
theorem Ends.head {segment : Segment} {rest : List Char} (ends : segment.Ends rest) (solid : segment.isBlank = false) :
    ∀ c ∈ segment.text.head?, Text.isBlank c = false := by
  cases segment with
  | quoted mark body =>
    rintro c ⟨⟩
    exact isBlank_of_isQuote ends.1
  | block | line =>
    rintro c ⟨⟩
    rfl
  | plain c =>
    rintro d ⟨⟩
    exact solid

theorem Ends.trimEnd_text {segment : Segment} {rest : List Char} (ends : segment.Ends rest)
    (solid : segment.isBlank = false) : trimEnd segment.text = segment.last.text := by
  cases segment with
  | quoted mark body =>
    refine trimEnd_last fun c last => ?_
    rw [text, ← List.cons_append, List.getLast?_concat] at last
    cases last
    exact isBlank_of_isQuote ends.1
  | block body =>
    refine trimEnd_last fun c last => ?_
    rw [text, ← List.cons_append, ← List.cons_append, List.getLast?_append] at last
    cases last
    rfl
  | line body =>
    have dashes : ∀ c, ['-', '-'].getLast? = some c → Text.isBlank c = false := by
      rintro c ⟨⟩
      rfl
    exact trimEnd_after dashes body
  | plain c =>
    refine trimEnd_last fun d last => ?_
    cases last
    exact solid

end Segment

theorem written_nil : written [] = [] :=
  rfl

theorem written_cons (segment : Segment) (more : List Segment) :
    written (segment :: more) = segment.text ++ written more :=
  List.flatMap_cons

theorem written_eq_nil_iff {segments : List Segment} : written segments = [] ↔ segments = [] := by
  cases segments with
  | nil => simp [written]
  | cons segment more => simp [written_cons, segment.text_ne_nil]

section Complete

variable {segments : List Segment}

theorem complete_append {one two : List Segment} {rest : List Char} :
    Complete (one ++ two) rest ↔ Complete one (written two ++ rest) ∧ Complete two rest := by
  induction one with
  | nil => simp [Complete]
  | cons segment one ih =>
    rw [List.cons_append, Complete, Complete, ih, written, List.flatMap_append, List.append_assoc, and_assoc]
    rfl

theorem Complete.congr {one two : List Char} (complete : Complete segments one) (same : one.head? = two.head?) :
    Complete segments two := by
  induction segments with
  | nil => trivial
  | cons segment more ih =>
    refine ⟨complete.1.congr ?_, ih complete.2⟩
    rw [List.head?_append, List.head?_append, same]

/-- Characters that stand for nothing else can be put in front. -/
theorem Complete.prepend {rest front : List Char} (complete : Complete segments rest)
    (inert : ∀ c ∈ front, Inert [] c) : Complete (front.map .plain ++ segments) rest := by
  induction front with
  | nil => exact complete
  | cons c front ih =>
    obtain ⟨unquoted, minus, slash, _⟩ := inert c List.mem_cons_self
    refine ⟨⟨unquoted, ?_⟩, ih fun d member => inert d (List.mem_cons_of_mem c member)⟩
    simp [opensComment, minus, slash]

/-- Segments with nothing after them, whose last one is no line comment, are complete before anything that does not
go on with a comment. -/
theorem Complete.before (complete : Complete segments []) (other : ∀ body, segments.getLast? ≠ some (.line body))
    {rest : List Char} (joint : ∀ c ∈ rest.head?, c ≠ '-' ∧ c ≠ '*') : Complete segments rest := by
  induction segments with
  | nil => trivial
  | cons segment more ih =>
    obtain ⟨ends, later⟩ := complete
    rw [List.append_nil] at ends
    cases more with
    | nil => exact ⟨ends.before (fun body same => other body (congrArg some same)) joint, trivial⟩
    | cons next more =>
      obtain ⟨c, text, start⟩ := List.exists_cons_of_ne_nil (mt written_eq_nil_iff.mp (List.cons_ne_nil next more))
      refine ⟨ends.congr (by rw [start]; rfl), ih later fun body => ?_⟩
      rw [← List.getLast?_cons_cons (a := segment)]
      exact other body

end Complete

section Trim

variable {segments : List Segment}

theorem Complete.dropWhile (complete : Complete segments []) :
    Complete (segments.dropWhile Segment.isBlank) [] ∧ written (segments.dropWhile Segment.isBlank) =
      trimStart (written segments) := by
  induction segments with
  | nil => exact ⟨trivial, rfl⟩
  | cons segment more ih =>
    rw [List.dropWhile_cons]
    split
    · next blank =>
      cases segment with
      | plain c =>
        refine ⟨(ih complete.2).1, (ih complete.2).2.trans ?_⟩
        have skipped : trimStart ([c] ++ written more) = trimStart (written more) :=
          trimStart_blanks (by simpa [Segment.isBlank] using blank)
        exact skipped.symm
      | quoted | block | line => cases blank
    · next solid =>
      refine ⟨complete, (trimStart_head ?_).symm⟩
      rw [written_cons]
      exact head_append segment.text_ne_nil (complete.1.head (Bool.not_eq_true _ ▸ solid)) _

theorem Complete.trimmedEnd (complete : Complete segments []) :
    Complete (trimmedEnd segments) [] ∧ written (trimmedEnd segments) = trimEnd (written segments) := by
  induction segments with
  | nil => exact ⟨trivial, rfl⟩
  | cons segment more ih =>
    obtain ⟨ends, later⟩ := complete
    obtain ⟨completeEnd, writtenEnd⟩ := ih later
    rw [Script.trimmedEnd, written_cons]
    split
    · next none =>
      -- Only white space follows, so the end of the text is that of the segment.
      rw [List.isEmpty_iff.mp none] at writtenEnd
      obtain ⟨blanks, blank, split⟩ := trimEnd_split (written more)
      rw [← writtenEnd, written_nil, List.nil_append] at split
      rw [split, trimEnd_blanks blank]
      split
      · next blank =>
        cases segment with
        | plain c =>
          have nothing : trimEnd ([] ++ [c]) = [] := trimEnd_blanks (by simpa [Segment.isBlank] using blank)
          exact ⟨trivial, nothing.symm⟩
        | quoted | block | line => cases blank
      · next solid =>
        rw [ends.trimEnd_text (Bool.not_eq_true _ ▸ solid)]
        exact ⟨⟨ends.last, trivial⟩, List.append_nil _⟩
    · next some =>
      have given : trimEnd (written more) ≠ [] := by
        rw [← writtenEnd]
        exact mt written_eq_nil_iff.mp (mt List.isEmpty_iff.mpr some)
      obtain ⟨blanks, _, split⟩ := trimEnd_split (written more)
      obtain ⟨c, text, start⟩ := List.exists_cons_of_ne_nil given
      rw [trimEnd_append given, ← writtenEnd]
      refine ⟨⟨ends.congr ?_, completeEnd⟩, written_cons _ _⟩
      rw [split, writtenEnd, start]
      rfl

theorem Complete.trimmed (complete : Complete segments []) :
    Complete (trimmed segments) [] ∧ written (trimmed segments) = trimChars (written segments) := by
  obtain ⟨front, start⟩ := complete.dropWhile
  rw [trimChars, ← start]
  exact front.trimmedEnd

end Trim

section Scan

variable {terminator rest : List Char} (read : List Char)

theorem cutsFrom_segment (current : IsTerminator terminator) {segment : Segment} (ends : segment.Ends rest)
    (free : ∀ c, segment = .plain c → c ∉ terminator) :
    cutsFrom terminator none read (segment.text ++ rest) =
      cutsFrom terminator none (segment.shown.reverse ++ read) rest := by
  cases segment with
  | quoted mark body =>
    have split : Segment.text (.quoted mark body) ++ rest = mark :: (body ++ mark :: rest) := by simp [Segment.text]
    rw [split, cutsFrom_quote _ _ ends.1, cutsFrom_body _ _ ends.2]
    simp [Segment.shown, Segment.text]
  | block body =>
    have split : Segment.text (.block body) ++ rest = '/' :: '*' :: (body ++ (['*', '/'] ++ rest)) := by
      simp [Segment.text]
    rw [split, cutsFrom_block _ _ (closeBlock?_body rest ends)]
    rfl
  | line body =>
    have split : Segment.text (.line body) ++ rest = '-' :: '-' :: (body ++ rest) := rfl
    rw [split, cutsFrom_line, dropLine_ends ends.1 ends.2]
    rfl
  | plain c =>
    obtain ⟨line, block⟩ := opensComment_eq_false_iff.mp ends.2
    exact cutsFrom_plain _ _ ends.1 line block (not_isPrefixOf _ current.nonempty (free c rfl))

/-- Splitting shows segments without a character of the terminator between them, and goes on after them. -/
theorem cutsFrom_written (current : IsTerminator terminator) {segments : List Segment}
    (complete : Complete segments rest) (free : ∀ c, .plain c ∈ segments → c ∉ terminator) :
    cutsFrom terminator none read (written segments ++ rest) =
      cutsFrom terminator none ((shown segments).reverse ++ read) rest := by
  induction segments generalizing read with
  | nil => rfl
  | cons segment more ih =>
    rw [written_cons, List.append_assoc, cutsFrom_segment _ current complete.1 fun c same => free c (by simp [same]),
      ih _ complete.2 fun c member => free c (List.mem_cons_of_mem _ member)]
    simp [shown]

end Scan

end SchemaSync.Script
