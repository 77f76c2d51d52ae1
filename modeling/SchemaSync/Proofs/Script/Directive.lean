import SchemaSync.Proofs.Script.DirectiveWords

/-! Directives around a text that has none of its own: taking them out leaves the text. -/

namespace SchemaSync.Script

open Text

/-- Whether a line of a text starts with the words of a directive. `lineStart` tells whether the text
starts at the start of a line. -/
def startsDirective (lineStart : Bool) (cs : List Char) : Bool :=
  match cs with
  | [] => false
  | c :: rest => (lineStart && (afterPhrase? ["SET", "TERM"] (trimStart (c :: rest))).isSome) ||
      startsDirective (c == '\n') rest

def closingDirective : List Char :=
  "\nSET TERM ; ^".toList

private theorem setTerm_lettered : Lettered ["SET", "TERM"] := by decide

theorem startsDirective_later {lineStart : Bool} {cs : List Char} (silent : startsDirective true cs = false) :
    startsDirective lineStart cs = false := by
  cases lineStart with
  | true => exact silent
  | false =>
    cases cs with
    | nil => rfl
    | cons c rest =>
      rw [startsDirective, Bool.or_eq_false_iff] at silent
      rw [startsDirective, silent.2]
      rfl

theorem startsDirective_front {cs : List Char} (silent : startsDirective true cs = false) :
    afterPhrase? ["SET", "TERM"] (trimStart cs) = none := by
  cases cs with
  | nil => rfl
  | cons c rest =>
    rw [startsDirective, Bool.true_and, Bool.or_eq_false_iff] at silent
    simpa using silent.1

theorem startsDirective_blanks {blanks cs : List Char} (blank : ∀ c ∈ blanks, isBlank c = true)
    (silent : startsDirective true cs = false) (lineStart : Bool) :
    startsDirective lineStart (blanks ++ cs) = false := by
  induction blanks generalizing lineStart with
  | nil => exact startsDirective_later silent
  | cons c blanks ih =>
    have front := startsDirective_front silent
    rw [List.cons_append, startsDirective, ih fun d member => blank d (List.mem_cons_of_mem _ member),
      ← List.cons_append, trimStart_blanks blank, front]
    simp

private theorem unread_other {cs : List Char} (other : ∀ c ∈ cs, (foldCase c).isAlpha = false)
    {keyword : String} (letters : keyword.toList.all Char.isAlpha = true) (start : keyword.toList ≠ []) :
    afterKeyword? keyword.toList (trimStart cs) = none :=
  afterKeyword?_other letters start fun c head =>
    other c ((List.dropWhile_sublist _).mem (List.mem_of_mem_head? head))

private theorem startsDirective_other {cs : List Char} (other : ∀ c ∈ cs, (foldCase c).isAlpha = false)
    (lineStart : Bool) : startsDirective lineStart cs = false := by
  induction cs generalizing lineStart with
  | nil => rfl
  | cons c cs ih =>
    rw [startsDirective, ih fun d member => other d (List.mem_cons_of_mem _ member),
      afterPhrase?_none (unread_other other (by decide) (by decide))]
    simp

theorem startsDirective_append {cs rest : List Char} {lineStart : Bool}
    (silent : startsDirective lineStart cs = false)
    (other : ∀ c ∈ rest, (foldCase c).isAlpha = false) : startsDirective lineStart (cs ++ rest) = false := by
  induction cs generalizing lineStart with
  | nil => exact startsDirective_other other lineStart
  | cons c cs ih =>
    rw [startsDirective, Bool.or_eq_false_iff] at silent
    rw [List.cons_append, startsDirective, ih silent.2, Bool.or_false, ← List.cons_append]
    cases lineStart with
    | false => rfl
    | true =>
      have here : afterPhrase? ["SET", "TERM"] (trimStart (c :: cs)) = none := by simpa using silent.1
      by_cases solid : trimStart (c :: cs) = []
      · rw [trimStart_blanks (blank_of_trimStart solid),
          afterPhrase?_none (unread_other other (by decide) (by decide))]
        rfl
      · rw [trimStart_append solid, afterPhrase?_append_other setTerm_lettered, here]
        · rfl
        · exact fun d head => other d (List.mem_of_mem_head? head)
        · intro keyword member
          rw [List.tail_cons, List.mem_singleton] at member
          exact member ▸ unread_other other (by decide) (by decide)

theorem directive?_none {cs : List Char} (unread : afterPhrase? ["SET", "TERM"] (trimStart cs) = none) :
    directive? cs = none := by
  rw [directive?, afterSpacedPhrase?, unread]
  rfl

theorem withoutDirectives_kept {lineStart : Bool} {c : Char} {rest : List Char}
    (silent : lineStart = true → directive? (c :: rest) = none) :
    withoutDirectives 0 lineStart (c :: rest) = c :: withoutDirectives 0 (c == '\n') rest := by
  cases lineStart with
  | false => rfl
  | true => rw [withoutDirectives, if_pos rfl, silent rfl]

theorem firstTerminator?_kept {lineStart : Bool} {c : Char} {rest : List Char}
    (silent : lineStart = true → directive? (c :: rest) = none) :
    firstTerminator? lineStart (c :: rest) = firstTerminator? (c == '\n') rest := by
  cases lineStart with
  | false => rfl
  | true => rw [firstTerminator?, if_pos rfl, silent rfl, Option.map_none, Option.none_or]

theorem withoutDirectives_line {front : List Char} (line : '\n' ∉ front) (rest : List Char) :
    withoutDirectives 0 false (front ++ rest) = front ++ withoutDirectives 0 false rest := by
  induction front with
  | nil => rfl
  | cons c front ih =>
    rw [List.mem_cons, not_or] at line
    rw [List.cons_append, withoutDirectives_kept (fun start => by cases start),
      beq_eq_false_iff_ne.mpr (Ne.symm line.1), ih line.2, List.cons_append]

private theorem withoutDirectives_all (cs : List Char) (lineStart : Bool) :
    withoutDirectives cs.length lineStart cs = [] := by
  induction cs generalizing lineStart with
  | nil => rfl
  | cons c cs ih => exact ih (c == '\n')

/-- The characters of a directive that has been read are left out. -/
theorem withoutDirectives_skip (front rest : List Char) (lineStart : Bool) :
    withoutDirectives front.length lineStart (front ++ rest) =
      withoutDirectives 0 ((front.getLast?.map (· == '\n')).getD lineStart) rest := by
  induction front generalizing lineStart with
  | nil => rfl
  | cons c front ih =>
    rw [List.getLast?_cons]
    refine (ih (c == '\n')).trans ?_
    cases front.getLast? <;> rfl

theorem firstTerminator?_eq_none_iff {lineStart : Bool} {c : Char} {rest : List Char} :
    firstTerminator? lineStart (c :: rest) = none ↔
      (lineStart = true → directive? (c :: rest) = none) ∧ firstTerminator? (c == '\n') rest = none := by
  rw [firstTerminator?, Option.or_eq_none_iff]
  cases lineStart <;> simp

theorem firstTerminator?_of_startsDirective {lineStart : Bool} {cs : List Char}
    (silent : startsDirective lineStart cs = false) : firstTerminator? lineStart cs = none := by
  induction cs generalizing lineStart with
  | nil => rfl
  | cons c cs ih =>
    rw [startsDirective, Bool.or_eq_false_iff] at silent
    refine firstTerminator?_eq_none_iff.mpr ⟨?_, ih silent.2⟩
    rintro rfl
    exact directive?_none (by simpa using silent.1)

theorem withoutDirectives_silent {lineStart : Bool} {cs : List Char}
    (silent : firstTerminator? lineStart cs = none) : withoutDirectives 0 lineStart cs = cs := by
  induction cs generalizing lineStart with
  | nil => rfl
  | cons c cs ih =>
    obtain ⟨here, later⟩ := firstTerminator?_eq_none_iff.mp silent
    rw [withoutDirectives_kept here, ih later]

private theorem trimEnd_blanks_nil {blanks : List Char} (blank : ∀ c ∈ blanks, isBlank c = true) :
    trimEnd blanks = [] := by
  rw [← List.nil_append blanks, trimEnd_blanks blank]
  rfl

theorem firstTerminator?_blanks {blanks cs : List Char} (blank : ∀ c ∈ blanks, isBlank c = true)
    (silent : firstTerminator? true cs = none) (lineStart : Bool) :
    firstTerminator? lineStart (blanks ++ cs) = none := by
  induction blanks generalizing lineStart with
  | nil =>
    cases cs with
    | nil => rfl
    | cons c cs =>
      obtain ⟨here, later⟩ := firstTerminator?_eq_none_iff.mp silent
      exact firstTerminator?_eq_none_iff.mpr ⟨fun _ => here rfl, later⟩
  | cons c blanks ih =>
    have front : directive? cs = none := by
      cases cs with
      | nil => rfl
      | cons c cs => exact (firstTerminator?_eq_none_iff.mp silent).1 rfl
    have here : directive? (c :: blanks ++ cs) = none := (directive?_congr (nextWord_blanks blank)).trans front
    have later := ih fun d member => blank d (List.mem_cons_of_mem c member)
    exact firstTerminator?_eq_none_iff.mpr ⟨fun _ => here, later (c == '\n')⟩

theorem firstTerminator?_append_blanks {blanks cs : List Char} (blank : ∀ c ∈ blanks, isBlank c = true)
    {lineStart : Bool} (silent : firstTerminator? lineStart cs = none) :
    firstTerminator? lineStart (cs ++ blanks) = none := by
  induction cs generalizing lineStart with
  | nil =>
    rw [List.nil_append, ← List.append_nil blanks]
    exact firstTerminator?_blanks blank rfl lineStart
  | cons c cs ih =>
    obtain ⟨here, later⟩ := firstTerminator?_eq_none_iff.mp silent
    exact firstTerminator?_eq_none_iff.mpr ⟨fun start => directive?_append_blanks blank (here start), ih later⟩

theorem withoutDirectives_blanks {blanks cs : List Char} (blank : ∀ c ∈ blanks, isBlank c = true)
    (silent : directive? cs = none) (lineStart : Bool) :
    withoutDirectives 0 lineStart (blanks ++ cs) = blanks ++ withoutDirectives 0 true cs := by
  induction blanks generalizing lineStart with
  | nil =>
    cases cs with
    | nil => rfl
    | cons c cs =>
      rw [List.nil_append, withoutDirectives_kept fun _ => silent, withoutDirectives_kept fun _ => silent, List.nil_append]
  | cons c blanks ih =>
    have front : directive? (c :: blanks ++ cs) = none := (directive?_congr (nextWord_blanks blank)).trans silent
    rw [List.cons_append] at front ⊢
    rw [withoutDirectives_kept fun _ => front, ih fun d member => blank d (List.mem_cons_of_mem c member),
      List.cons_append]

section Line

variable {d : Directive} {terminator : List Char} (line : d.OneLine terminator)
include line

theorem text_ne_nil : d.text terminator ≠ [] := by
  rw [Directive.text]
  intro none
  have whole := (List.append_eq_nil_iff.mp none).2
  exact line.apart.1 (List.append_eq_nil_iff.mp whole).1

/-- A directive is read up to the last line of the white space after it. -/
theorem directive?_before {blanks cs : List Char} (blank : ∀ c ∈ blanks, isBlank c = true)
    (newline : '\n' ∈ blanks) (given : cs ≠ []) (solid : ∀ c ∈ cs.head?, isBlank c = false) :
    ∃ front tail, blanks = front ++ '\n' :: tail ∧
      directive? (d.text terminator ++ (blanks ++ cs)) = some (d.terminator, '\n' :: (tail ++ cs)) := by
  obtain ⟨tail, front, reversed, last⟩ := List.eq_append_cons_of_mem (List.mem_reverse.mpr newline)
  obtain rfl : blanks = front.reverse ++ '\n' :: tail.reverse := by
    have := congrArg List.reverse reversed
    simpa using this
  refine ⟨front.reverse, tail.reverse, rfl, ?_⟩
  have start : ∀ c ∈ (front.reverse ++ '\n' :: tail.reverse ++ cs).head?, isBlank c = true := by
    intro c head
    have inside : (front.reverse ++ '\n' :: tail.reverse).head? = some c := by
      cases shape : front.reverse <;> simpa [shape] using head
    exact blank c (List.mem_of_mem_head? inside)
  rw [List.forall_mem_append, List.forall_mem_cons] at blank
  obtain ⟨frontBlank, _, tailBlank⟩ := blank
  rw [line.directive?_text_append start, List.append_assoc, List.cons_append,
    afterLine?_ended frontBlank tailBlank (by simpa using last) given solid]
  rfl

/-- A directive on the line before a text is taken out, and the text is left, but for white space before it. -/
theorem withoutDirectives_before {blanks cs : List Char} (blank : ∀ c ∈ blanks, isBlank c = true)
    (newline : '\n' ∈ blanks) (given : cs ≠ []) (solid : ∀ c ∈ cs.head?, isBlank c = false)
    (silent : directive? cs = none) : ∃ gap, (∀ c ∈ gap, isBlank c = true) ∧
      withoutDirectives 0 true (d.text terminator ++ (blanks ++ cs)) = gap ++ withoutDirectives 0 true cs := by
  obtain ⟨front, tail, rfl, read⟩ := directive?_before line blank newline given solid
  obtain ⟨c, more, shape⟩ := List.exists_cons_of_ne_nil (List.append_ne_nil_of_left_ne_nil (text_ne_nil line) front)
  have tailLine : ∀ d ∈ '\n' :: tail, isBlank d = true := fun d member => blank d (List.mem_append_right front member)
  refine ⟨'\n' :: tail, tailLine, ?_⟩
  have whole : d.text terminator ++ (front ++ '\n' :: tail ++ cs) = c :: (more ++ ('\n' :: (tail ++ cs))) := by
    rw [List.append_assoc, ← List.append_assoc, shape, List.cons_append, List.cons_append]
  have passed : (more ++ '\n' :: (tail ++ cs)).length - ('\n' :: (tail ++ cs)).length = more.length := by
    rw [List.length_append, Nat.add_sub_cancel]
  rw [whole] at read ⊢
  rw [withoutDirectives, if_pos rfl, read]
  dsimp only
  rw [passed, withoutDirectives_skip]
  exact withoutDirectives_blanks tailLine silent _

theorem firstTerminator?_before {blanks cs : List Char} (blank : ∀ c ∈ blanks, isBlank c = true)
    (newline : '\n' ∈ blanks) (given : cs ≠ []) (solid : ∀ c ∈ cs.head?, isBlank c = false) :
    firstTerminator? true (d.text terminator ++ (blanks ++ cs)) = some d.terminator := by
  obtain ⟨_, _, _, read⟩ := directive?_before line blank newline given solid
  obtain ⟨c, more, shape⟩ := List.exists_cons_of_ne_nil (text_ne_nil line)
  rw [shape] at read ⊢
  rw [List.cons_append] at read ⊢
  rw [firstTerminator?, if_pos rfl, read]
  rfl

private theorem withoutDirectives_front {blanks : List Char} (blank : ∀ c ∈ blanks, isBlank c = true) :
    withoutDirectives 0 true (blanks ++ d.text terminator) = [] := by
  have read := line.directive?_text blank
  generalize blanks ++ d.text terminator = cs at read
  cases cs with
  | nil => rfl
  | cons c cs =>
    rw [withoutDirectives, if_pos rfl, read]
    exact withoutDirectives_all cs _

/-- Of a directive on a line of its own nothing but white space is left. -/
private theorem trimEnd_withoutDirectives_line {blanks : List Char} (blank : ∀ c ∈ blanks, isBlank c = true)
    {lineStart : Bool} (start : lineStart = true ∨ '\n' ∈ blanks) :
    trimEnd (withoutDirectives 0 lineStart (blanks ++ d.text terminator)) = [] := by
  cases lineStart with
  | true => rw [withoutDirectives_front line blank]; rfl
  | false =>
    replace start := start.resolve_left Bool.false_ne_true
    induction blanks with
    | nil => cases start
    | cons c blanks ih =>
      have others : ∀ d ∈ blanks, isBlank d = true := fun d member => blank d (List.mem_cons_of_mem c member)
      have rest : trimEnd (withoutDirectives 0 (c == '\n') (blanks ++ d.text terminator)) = [] := by
        cases newline : c == '\n' with
        | true => rw [withoutDirectives_front line others]; rfl
        | false =>
          refine ih others ((List.mem_cons.mp start).resolve_left fun same => ?_)
          rw [← same] at newline
          cases newline
      rw [List.cons_append, withoutDirectives_kept (by simp), trimEnd_cons, rest]
      exact trimEnd_blanks_nil fun d member => blank d (List.mem_singleton.mp member ▸ List.mem_cons_self)

/-- Taking out the directive on the line after a text leaves the text, up to white space at its end. -/
theorem trimEnd_withoutDirectives {cs blanks : List Char} {lineStart : Bool} (gap : Gap blanks)
    (newline : '\n' ∈ blanks) (silent : firstTerminator? lineStart cs = none) :
    trimEnd (withoutDirectives 0 lineStart (cs ++ (blanks ++ d.text terminator))) = trimEnd cs := by
  have blank := List.all_eq_true.mp gap.2
  induction cs generalizing lineStart with
  | nil => exact trimEnd_withoutDirectives_line line blank (.inr newline)
  | cons c cs ih =>
    obtain ⟨here, later⟩ := firstTerminator?_eq_none_iff.mp silent
    by_cases front : lineStart = true ∧ trimStart (c :: cs) = []
    · -- The white space before the directive is taken out with it.
      obtain ⟨rfl, none⟩ := front
      have all := blank_of_trimStart none
      have before : ∀ b ∈ c :: cs ++ blanks, isBlank b = true := by
        intro b member
        exact (List.mem_append.mp member).elim (all b) (blank b)
      have nothing : trimEnd (c :: cs) = [] := trimEnd_blanks_nil all
      rw [← List.append_assoc, withoutDirectives_front line before, nothing]
      rfl
    · have unread : lineStart = true → directive? (c :: cs ++ (blanks ++ d.text terminator)) = none :=
        fun start => line.directive?_append (here start) (fun none => front ⟨start, none⟩) gap
      rw [List.cons_append] at unread ⊢
      rw [withoutDirectives_kept unread, trimEnd_cons, ih later, ← trimEnd_cons]

end Line

/-- The directive before a procedure, in words. -/
def openingWords : Directive :=
  ⟨"SET".toList, [' '], "TERM".toList, [' '], ['^'], [' ']⟩

theorem oneLine_openingWords : openingWords.OneLine [';'] where
  formed := ⟨by decide, by decide, by decide, by decide, by decide, by decide⟩
  apart := by decide
  given := by decide
  solid := by
    intro c member
    rw [List.mem_singleton.mp member]
    rfl
  line := by decide

def closingWords : Directive :=
  ⟨"SET".toList, [' '], "TERM".toList, [' '], [';'], [' ']⟩

theorem closingDirective_eq : closingDirective = ['\n'] ++ closingWords.text ['^'] := rfl

theorem oneLine_closingWords : closingWords.OneLine ['^'] where
  formed := ⟨by decide, by decide, by decide, by decide, by decide, by decide⟩
  apart := by decide
  given := by decide
  solid := by
    intro c member
    rw [List.mem_singleton.mp member]
    rfl
  line := by decide

end SchemaSync.Script
