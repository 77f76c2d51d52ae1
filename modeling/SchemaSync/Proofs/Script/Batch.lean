import SchemaSync.Proofs.Script.Keyword
import SchemaSync.Proofs.Text.WordChar
import SchemaSync.Script.Statement

/-! Batches that are put together from statements and `SET TERM` directives, with white space and
comments between them, and how they are taken apart again. -/

namespace SchemaSync.Script

inductive Filler
  | blank (c : Char)
  | block (body : List Char)
  | line (body : List Char)
  deriving DecidableEq, Repr

/-- A `SET TERM` directive, word by word, with the white space after each word. -/
structure Directive where
  set : List Char
  afterSet : List Char
  term : List Char
  afterTerm : List Char
  terminator : List Char
  afterTerminator : List Char
  deriving DecidableEq, Repr

namespace Directive

def words (d : Directive) : List Char :=
  d.set ++ (d.afterSet ++ (d.term ++ (d.afterTerm ++ d.terminator)))

structure WellFormed (d : Directive) : Prop where
  set : Spells "SET" d.set
  afterSet : Gap d.afterSet
  term : Spells "TERM" d.term
  afterTerm : Gap d.afterTerm
  nonempty : d.terminator ≠ []
  solid : d.terminator.any Text.isBlank = false

end Directive

inductive Item
  | statement (text : List Char)
  | directive (directive : Directive)
  deriving DecidableEq, Repr

namespace Filler

/-- A filler in a batch. A line comment ends with its line. -/
def text : Filler → List Char
  | .blank c => [c]
  | .block body => ['/', '*'] ++ body ++ ['*', '/']
  | .line body => ['-', '-'] ++ body ++ ['\n']

def Complete : Filler → Prop
  | .blank c => Text.isBlank c = true
  | .block body => Text.occursIn ['*', '/'] body = false
  | .line body => '\n' ∉ body

instance : DecidablePred Complete
  | .blank _ | .block _ => inferInstanceAs (Decidable (_ = _))
  | .line _ => inferInstanceAs (Decidable (¬_))

end Filler

namespace Item

def text (terminator : List Char) : Item → List Char
  | .statement text => text ++ terminator
  | .directive d => d.words ++ d.afterTerminator ++ terminator

def next (terminator : List Char) : Item → List Char
  | .statement _ => terminator
  | .directive d => d.terminator

def statement? : Item → Option (List Char)
  | .statement text => some text
  | .directive _ => none

end Item

def render (terminator : List Char) (items : List (List Filler × Item)) (last : List Filler) : List Char :=
  match items with
  | [] => last.flatMap Filler.text
  | (fillers, item) :: items =>
    fillers.flatMap Filler.text ++ item.text terminator ++ render (item.next terminator) items last

def isQuote (c : Char) : Bool :=
  c == '\'' || c == '"'

/-- A text that closes all its quotes, the one that is open included, and in which, outside quotes,
no comment starts and no character of the terminator stands. -/
def closes (terminator : List Char) (quote : Option Char) (cs : List Char) : Bool :=
  match cs with
  | [] => quote.isNone
  | c :: rest =>
    match quote with
    | some mark => closes terminator (if c == mark then none else some mark) rest
    | none =>
      if isQuote c then closes terminator (some c) rest
      else !(['-', '-'].isPrefixOf (c :: rest)) && !(['/', '*'].isPrefixOf (c :: rest)) &&
        !terminator.contains c && closes terminator none rest

/-- A character that terminators can be made of: not white space, no letter, no quotation mark, and
nothing that comments are made of. -/
def canTerminate (c : Char) : Bool :=
  !Text.isBlank c && !(foldCase c).isAlpha && !isQuote c && c != '-' && c != '/' && c != '*'

structure IsTerminator (terminator : List Char) : Prop where
  nonempty : terminator ≠ []
  made : terminator.all canTerminate = true

/-- An item that can stand where a terminator is in force. A statement is not a directive, and a
directive sets a terminator that has no character of the one in force. -/
inductive Item.Admissible (terminator : List Char) : Item → Prop where
  | statement (text : List Char) (nonempty : text ≠ []) (trimmed : Text.trimChars text = text)
      (plain : ∀ d : Directive, d.WellFormed → text ≠ d.words)
      (closed : closes terminator none text = true) : Admissible terminator (.statement text)
  | directive (d : Directive) (formed : d.WellFormed) (new : IsTerminator d.terminator)
      (disjoint : ∀ c ∈ d.terminator, c ∉ terminator)
      (afterTerminator : ∀ c ∈ d.afterTerminator, Text.isBlank c = true) :
      Admissible terminator (.directive d)

/-- Items that can follow each other, each under the terminator that the items before it leave. -/
def Admissible (terminator : List Char) (items : List (List Filler × Item)) : Prop :=
  match items with
  | [] => True
  | (fillers, item) :: items =>
    (∀ filler ∈ fillers, filler.Complete) ∧ item.Admissible terminator ∧
      Admissible (item.next terminator) items

theorem apostrophe_of_isQuote {c : Char} (unquoted : isQuote c = false) : c ≠ '\'' := by
  rintro rfl
  cases unquoted

theorem isBlank_of_isQuote {c : Char} (quoted : isQuote c = true) : Text.isBlank c = false := by
  simp only [isQuote, Bool.or_eq_true, beq_iff_eq] at quoted
  rcases quoted with rfl | rfl <;> rfl

theorem isTerminator_semicolon : IsTerminator [';'] :=
  ⟨by decide, by decide⟩

variable {terminator : List Char}

namespace IsTerminator

variable (current : IsTerminator terminator) {c : Char} (member : c ∈ terminator)
include current member

theorem canTerminate : Text.isBlank c = false ∧ (foldCase c).isAlpha = false ∧ isQuote c = false ∧
    c ≠ '-' ∧ c ≠ '/' ∧ c ≠ '*' := by
  have made := List.all_eq_true.mp current.made c member
  simpa [Script.canTerminate, and_assoc] using made

theorem solid : Text.isBlank c = false :=
  (current.canTerminate member).1

theorem noLetter : (foldCase c).isAlpha = false :=
  (current.canTerminate member).2.1

theorem noQuote : isQuote c = false :=
  (current.canTerminate member).2.2.1

theorem noComment : c ≠ '-' ∧ c ≠ '/' ∧ c ≠ '*' :=
  (current.canTerminate member).2.2.2

end IsTerminator

theorem Item.Admissible.isTerminator_next {item : Item} (admissible : item.Admissible terminator)
    (current : IsTerminator terminator) : IsTerminator (item.next terminator) := by
  cases admissible with
  | statement => exact current
  | directive _ _ new => exact new

section Scan

variable (read rest : List Char)

theorem cutsFrom_quoted (mark c : Char) : cutsFrom terminator (some mark) read (c :: rest) =
    cutsFrom terminator (if c == mark then none else some mark) (c :: read) rest := by
  rw [cutsFrom]

theorem cutsFrom_quote {c : Char} (quote : isQuote c = true) :
    cutsFrom terminator none read (c :: rest) = cutsFrom terminator (some c) (c :: read) rest := by
  rw [cutsFrom]
  exact if_pos quote

theorem cutsFrom_plain {c : Char} (unquoted : isQuote c = false)
    (line : ['-', '-'].isPrefixOf (c :: rest) = false)
    (block : ['/', '*'].isPrefixOf (c :: rest) = false)
    (inside : terminator.isPrefixOf (c :: rest) = false) :
    cutsFrom terminator none read (c :: rest) = cutsFrom terminator none (c :: read) rest := by
  rw [isQuote] at unquoted
  rw [cutsFrom]
  simp only [unquoted, line, block, inside, Bool.false_eq_true, if_false]

theorem not_isPrefixOf (nonempty : terminator ≠ []) {c : Char} (other : c ∉ terminator) :
    terminator.isPrefixOf (c :: rest) = false := by
  cases terminator with
  | nil => exact absurd rfl nonempty
  | cons t more =>
    have different : t ≠ c := fun same => other (by simp [same])
    simp [List.isPrefixOf, different]

/-- A pair of characters that is not at the front of a text is not there either when more follows. -/
theorem pair_isPrefixOf {a b c : Char} {cs : List Char} (apart : [a, b].isPrefixOf (c :: cs) = false)
    (stop : ∀ d ∈ rest.head?, d ≠ b) : [a, b].isPrefixOf (c :: (cs ++ rest)) = false := by
  cases cs with
  | cons d cs => simpa [List.isPrefixOf] using apart
  | nil =>
    cases rest with
    | nil => exact apart
    | cons d rest =>
      have different : b ≠ d := fun same => stop d rfl same.symm
      simp [List.isPrefixOf, different]

theorem cutsFrom_terminator (current : IsTerminator terminator) :
    cutsFrom terminator none read (terminator ++ rest) =
      cutOf terminator (Text.trimChars read.reverse) ++
        cutsFrom (terminatorAfter terminator (Text.trimChars read.reverse)) none [] rest := by
  cases terminator with
  | nil => exact absurd rfl current.nonempty
  | cons t more =>
    have first : t ∈ t :: more := List.mem_cons_self
    have quote : (t == '\'' || t == '"') = false := current.noQuote first
    obtain ⟨dash, slash, _⟩ := current.noComment first
    have line : ['-', '-'].isPrefixOf (t :: (more ++ rest)) = false := not_isPrefixOf _ (by simp) (by simpa)
    have block : ['/', '*'].isPrefixOf (t :: (more ++ rest)) = false := by
      simp [List.isPrefixOf, slash.symm]
    have here : (t :: more).isPrefixOf (t :: (more ++ rest)) = true := by
      rw [List.isPrefixOf_iff_prefix]
      exact List.prefix_append (t :: more) rest
    rw [List.cons_append, cutsFrom]
    simp only [quote, line, block, here, Bool.false_eq_true, if_false, if_true, List.length_cons,
      Nat.add_sub_cancel, List.drop_left]

/-- A text that closes its quotes is read as it is, when it ends or the terminator follows it. -/
theorem cutsFrom_closes (current : IsTerminator terminator) (quote : Option Char) (cs : List Char)
    (stop : ∀ c ∈ rest.head?, c ∈ terminator) (closed : closes terminator quote cs = true) :
    cutsFrom terminator quote read (cs ++ rest) = cutsFrom terminator none (cs.reverse ++ read) rest := by
  induction cs generalizing quote read with
  | nil =>
    rw [closes, Option.isNone_iff_eq_none] at closed
    rw [closed, List.nil_append, List.reverse_nil, List.nil_append]
  | cons c cs ih =>
    rw [List.cons_append, List.reverse_cons, List.append_assoc, List.singleton_append]
    cases quote with
    | some mark =>
      simp only [closes] at closed
      rw [cutsFrom_quoted, ih _ _ closed]
    | none =>
      simp only [closes] at closed
      split at closed
      · next quoted => rw [cutsFrom_quote _ _ quoted, ih _ _ closed]
      · next unquoted =>
        simp only [Bool.and_eq_true, Bool.not_eq_true', List.contains_eq_mem, decide_eq_false_iff_not] at closed
        obtain ⟨⟨⟨line, block⟩, outside⟩, closed⟩ := closed
        rw [cutsFrom_plain, ih _ _ closed]
        · simpa using unquoted
        · exact pair_isPrefixOf _ line fun d head => (current.noComment (stop d head)).1
        · exact pair_isPrefixOf _ block fun d head => (current.noComment (stop d head)).2.2
        · exact not_isPrefixOf _ current.nonempty outside

/-- A character that stands for nothing else outside quotes. -/
def Inert (terminator : List Char) (c : Char) : Prop :=
  isQuote c = false ∧ c ≠ '-' ∧ c ≠ '/' ∧ c ∉ terminator

instance : DecidablePred (Inert terminator) :=
  fun _ => inferInstanceAs (Decidable (_ ∧ _))

theorem Inert.of_blank (current : IsTerminator terminator) {c : Char} (blank : Text.isBlank c = true) :
    Inert terminator c := by
  refine ⟨?_, ?_, ?_, fun member => Bool.false_ne_true ((current.solid member).symm.trans blank)⟩
  · rw [← Bool.not_eq_true]
    exact fun quoted => Bool.false_ne_true ((isBlank_of_isQuote quoted).symm.trans blank)
  all_goals rintro rfl; exact absurd blank (by decide)

theorem Inert.of_all {cs : List Char} (all : cs.all (fun c => decide (Inert terminator c)) = true) :
    ∀ c ∈ cs, Inert terminator c :=
  fun c member => of_decide_eq_true (List.all_eq_true.mp all c member)

theorem Inert.of_isNameChar (other : terminator.any Text.isNameChar = false) {c : Char}
    (plain : Text.isNameChar c = true) : Inert terminator c := by
  refine ⟨?_, ?_, ?_, fun member => List.any_eq_false.mp other c member plain⟩
  · rw [← Bool.not_eq_true, isQuote, Bool.or_eq_true, beq_iff_eq, beq_iff_eq]
    rintro (rfl | rfl) <;> cases plain
  all_goals rintro rfl; cases plain

theorem Inert.of_isName (other : terminator.any Text.isNameChar = false) {name : List Char}
    (plain : Text.IsName name) : ∀ c ∈ name, Inert terminator c :=
  fun _ member => .of_isNameChar other (plain.isNameChar member)

/-- A plain name between texts that stand for nothing else. -/
theorem Inert.around_name (other : terminator.any Text.isNameChar = false) {before name after : List Char}
    (start : before.all (fun c => decide (Inert terminator c)) = true) (plain : Text.IsName name)
    (stop : after.all (fun c => decide (Inert terminator c)) = true) :
    ∀ c ∈ before ++ (name ++ after), Inert terminator c :=
  List.forall_mem_append.mpr ⟨.of_all start, List.forall_mem_append.mpr ⟨.of_isName other plain, .of_all stop⟩⟩

theorem Inert.no_comment {c : Char} (inert : Inert terminator c) :
    ['-', '-'].isPrefixOf (c :: rest) = false ∧ ['/', '*'].isPrefixOf (c :: rest) = false := by
  simp [List.isPrefixOf, inert.2.1.symm, inert.2.2.1.symm]

theorem cutsFrom_inert (current : IsTerminator terminator) {front : List Char}
    (inert : ∀ c ∈ front, Inert terminator c) : cutsFrom terminator none read (front ++ rest) =
      cutsFrom terminator none (front.reverse ++ read) rest := by
  induction front generalizing read with
  | nil => rfl
  | cons c front ih =>
    have here := inert c List.mem_cons_self
    obtain ⟨line, block⟩ := here.no_comment (front ++ rest)
    rw [List.cons_append, cutsFrom_plain _ _ here.1 line block (not_isPrefixOf _ current.nonempty here.2.2.2),
      ih _ fun d member => inert d (List.mem_cons_of_mem c member)]
    simp

theorem closes_prepend {front : List Char} (inert : ∀ c ∈ front, Inert terminator c) :
    closes terminator none (front ++ rest) = closes terminator none rest := by
  induction front with
  | nil => rfl
  | cons c front ih =>
    have here := inert c (by simp)
    have apart := here.no_comment (front ++ rest)
    simp [closes, here.1, here.2.2.2, apart.1, apart.2, ih fun d member => inert d (by simp [member])]

theorem closes_inert {cs : List Char} (inert : ∀ c ∈ cs, Inert terminator c) :
    closes terminator none cs = true := by
  have whole := closes_prepend [] inert
  rwa [List.append_nil] at whole

/-- What follows a text that closes its quotes is read as if it stood alone. -/
theorem closes_append {front : List Char} {quote : Option Char} (closed : closes terminator quote front = true)
    (joint : ∀ c ∈ rest.head?, c ≠ '-' ∧ c ≠ '*') :
    closes terminator quote (front ++ rest) = closes terminator none rest := by
  induction front generalizing quote with
  | nil =>
    rw [closes, Option.isNone_iff_eq_none] at closed
    rw [closed, List.nil_append]
  | cons c front ih =>
    rw [List.cons_append]
    cases quote with
    | some mark =>
      simp only [closes] at closed ⊢
      exact ih closed
    | none =>
      simp only [closes] at closed ⊢
      split at closed
      · next quoted => rw [if_pos quoted, ih closed]
      · next unquoted =>
        simp only [Bool.and_eq_true, Bool.not_eq_true'] at closed
        obtain ⟨⟨⟨line, block⟩, outside⟩, closed⟩ := closed
        rw [if_neg unquoted, pair_isPrefixOf rest line fun d head => (joint d head).1,
          pair_isPrefixOf rest block fun d head => (joint d head).2, outside, ih closed]
        rfl

/-- White space at the end of a text closes no quotes, so they are closed before. -/
theorem closes_of_append_blanks {cs blanks : List Char} {quote : Option Char}
    (blank : ∀ c ∈ blanks, Text.isBlank c = true) (mark : ∀ c ∈ quote, isQuote c = true)
    (closed : closes terminator quote (cs ++ blanks) = true) : closes terminator quote cs = true := by
  induction cs generalizing quote with
  | nil =>
    cases quote with
    | none => rfl
    | some m =>
      -- No blank is a quotation mark, so the open one would stay open.
      exfalso
      rw [List.nil_append] at closed
      induction blanks with
      | nil => cases closed
      | cons c blanks ih =>
        have other : (c == m) = false := by
          rw [beq_eq_false_iff_ne]
          rintro rfl
          have quoted := isBlank_of_isQuote (mark c rfl)
          rw [blank c List.mem_cons_self] at quoted
          cases quoted
        simp only [closes, other, Bool.false_eq_true, if_false] at closed
        exact ih (fun d member => blank d (List.mem_cons_of_mem c member)) closed
  | cons c cs ih =>
    rw [List.cons_append] at closed
    cases quote with
    | some m =>
      simp only [closes] at closed ⊢
      refine ih (fun d same => ?_) closed
      split at same
      · cases same
      · exact mark d same
    | none =>
      simp only [closes] at closed ⊢
      split at closed
      · next quoted =>
        rw [if_pos quoted]
        exact ih (fun d same => Option.some.inj same ▸ quoted) closed
      · next unquoted =>
        have shorter {pair : List Char} (apart : pair.isPrefixOf (c :: (cs ++ blanks)) = false) :
            pair.isPrefixOf (c :: cs) = false := by
          rw [← Bool.not_eq_true, List.isPrefixOf_iff_prefix] at apart ⊢
          exact fun front => apart (front.trans (List.prefix_append (c :: cs) blanks))
        simp only [Bool.and_eq_true, Bool.not_eq_true'] at closed
        obtain ⟨⟨⟨line, block⟩, outside⟩, closed⟩ := closed
        rw [if_neg unquoted, shorter line, shorter block, outside, ih (by simp) closed]
        rfl

theorem closeBlock?_body {body : List Char} (inside : Text.occursIn ['*', '/'] body = false) :
    closeBlock? (body ++ (['*', '/'] ++ rest)) = some rest := by
  induction body with
  | nil => rfl
  | cons c body ih =>
    rw [Text.occursIn, Bool.or_eq_false_iff] at inside
    have apart := pair_isPrefixOf (['*', '/'] ++ rest) inside.1 (by simp)
    rw [List.cons_append, closeBlock?, ih inside.2]
    intro after star slash
    rw [star, slash] at apart
    cases apart

theorem dropLine_skip {front : List Char} (line : '\n' ∉ front) (rest : List Char) :
    dropLine (front ++ rest) = dropLine rest := by
  refine List.dropWhile_append_of_pos fun c member => bne_iff_ne.mpr ?_
  rintro rfl
  exact line member

theorem dropLine_body {body : List Char} (line : '\n' ∉ body) : dropLine (body ++ '\n' :: rest) = '\n' :: rest :=
  dropLine_skip line _

/-- A comment goes on to the end of its line and no further. -/
theorem dropLine_ends {body rest : List Char} (line : '\n' ∉ body) (stop : ∀ c ∈ rest.head?, c = '\n') :
    dropLine (body ++ rest) = rest := by
  rw [dropLine_skip line]
  cases rest with
  | nil => rfl
  | cons c rest =>
    obtain rfl := stop c rfl
    rfl

theorem cutsFrom_block {after : List Char} (closes : closeBlock? rest = some after) :
    cutsFrom terminator none read ('/' :: '*' :: rest) = cutsFrom terminator none (' ' :: read) after := by
  have opens : ['/', '*'].isPrefixOf ('/' :: ('*' :: rest)) = true := rfl
  rw [cutsFrom]
  simp only [opens, afterBlock, List.drop_one, List.tail_cons, closes, Option.getD_some, if_true]
  rfl

theorem cutsFrom_line : cutsFrom terminator none read ('-' :: '-' :: rest) =
    cutsFrom terminator none read (dropLine rest) := by
  have opens : ['-', '-'].isPrefixOf ('-' :: ('-' :: rest)) = true := rfl
  have inside : dropLine ('-' :: rest) = dropLine rest := rfl
  rw [cutsFrom]
  simp only [opens, inside, if_true]
  rfl

theorem cutsFrom_filler (current : IsTerminator terminator) {filler : Filler}
    (complete : filler.Complete) : ∃ c, Text.isBlank c = true ∧
      cutsFrom terminator none read (filler.text ++ rest) = cutsFrom terminator none (c :: read) rest := by
  have plain (c : Char) (rest : List Char) (blank : Text.isBlank c = true) :
      cutsFrom terminator none read (c :: rest) = cutsFrom terminator none (c :: read) rest :=
    cutsFrom_inert read rest current (List.forall_mem_singleton.mpr (.of_blank current blank))
  cases filler with
  | blank c => exact ⟨c, complete, plain c rest complete⟩
  | block body =>
    refine ⟨' ', rfl, ?_⟩
    have shape : Filler.text (.block body) ++ rest = '/' :: '*' :: (body ++ (['*', '/'] ++ rest)) := by
      simp [Filler.text]
    rw [shape, cutsFrom_block _ _ (closeBlock?_body rest complete)]
  | line body =>
    refine ⟨'\n', rfl, ?_⟩
    have shape : Filler.text (.line body) ++ rest = '-' :: '-' :: (body ++ '\n' :: rest) := by
      simp [Filler.text]
    rw [shape, cutsFrom_line, dropLine_body rest complete]
    exact plain '\n' rest rfl

theorem cutsFrom_fillers (current : IsTerminator terminator) (fillers : List Filler)
    (complete : ∀ filler ∈ fillers, filler.Complete) :
    ∃ blanks, (∀ c ∈ blanks, Text.isBlank c = true) ∧
      cutsFrom terminator none read (fillers.flatMap Filler.text ++ rest) =
        cutsFrom terminator none (blanks ++ read) rest := by
  induction fillers generalizing read with
  | nil => exact ⟨[], by simp, rfl⟩
  | cons filler fillers ih =>
    obtain ⟨c, blank, one⟩ := cutsFrom_filler read (fillers.flatMap Filler.text ++ rest) current
      (complete filler (by simp))
    obtain ⟨blanks, others, more⟩ := ih (c :: read) fun filler member => complete filler (by simp [member])
    refine ⟨blanks ++ [c], ?_, ?_⟩
    · intro d member
      rcases List.mem_append.mp member with member | member
      · exact others d member
      · rwa [List.mem_singleton.mp member]
    · rw [List.flatMap_cons, List.append_assoc, one, more, List.append_assoc, List.singleton_append]

/-- A text that stands after white space and before the terminator is cut off there. -/
theorem cutsFrom_cut (current : IsTerminator terminator) {blanks cs statement : List Char}
    (blank : ∀ c ∈ blanks, Text.isBlank c = true) (closed : closes terminator none cs = true)
    (trimmed : Text.trimChars cs = statement) :
    cutsFrom terminator none blanks (cs ++ (terminator ++ rest)) =
      cutOf terminator statement ++ cutsFrom (terminatorAfter terminator statement) none [] rest := by
  have cut : Text.trimChars (cs.reverse ++ blanks).reverse = statement := by
    rw [List.reverse_append, List.reverse_reverse, Text.trimChars_blanks (by simpa using blank), trimmed]
  have stop : ∀ c ∈ (terminator ++ rest).head?, c ∈ terminator := by
    obtain ⟨t, more, rfl⟩ := List.exists_cons_of_ne_nil current.nonempty
    rintro c ⟨⟩
    exact List.mem_cons_self
  rw [cutsFrom_closes _ _ current none cs stop closed, cutsFrom_terminator _ _ current, cut]

end Scan

namespace Directive

variable {d : Directive}

theorem head_spelled {keyword : String} {word : List Char} (spells : Spells keyword word)
    (letters : keyword.toList.all Char.isAlpha = true) : ∀ c ∈ word.head?, Text.isBlank c = false :=
  fun _ head => isBlank_of_letter (spells.letter letters (List.mem_of_mem_head? head))

theorem WellFormed.newTerminator? (formed : d.WellFormed) :
    newTerminator? d.words = some d.terminator := by
  obtain ⟨set, afterSet, term, afterTerm, nonempty, solid⟩ := formed
  have word : d.term ≠ [] := by
    intro none
    rw [none] at term
    cases term
  have read := afterSpacedPhrase?_append set afterSet term afterTerm (head_spelled term (by decide)) word
    fun c head => by simpa using List.any_eq_false.mp solid c (List.mem_of_mem_head? head)
  have given : d.terminator.isEmpty = false := by simpa using nonempty
  rw [words, Script.newTerminator?, read, Option.bind_eq_bind, Option.bind_some, solid, given]
  rfl

/-- Only the words of directives set terminators. -/
theorem newTerminator?_eq_none_iff {cs : List Char} :
    Script.newTerminator? cs = none ↔ ∀ d : Directive, d.WellFormed → cs ≠ d.words := by
  constructor
  · rintro none d formed rfl
    cases none.symm.trans formed.newTerminator?
  intro plain
  rw [Option.eq_none_iff_forall_ne_some]
  intro terminator found
  obtain ⟨rest, read, found⟩ := Option.bind_eq_some_iff.mp found
  split at found
  · cases found
  · next sound =>
    cases found
    rw [Bool.or_eq_true, not_or, List.isEmpty_iff, Bool.not_eq_true] at sound
    obtain ⟨set, afterSet, term, afterTerm, spellsSet, gapSet, spellsTerm, gapTerm, split⟩ :=
      afterSpacedPhrase?_eq_some read
    exact plain ⟨set, afterSet, term, afterTerm, terminator, []⟩
      ⟨spellsSet, gapSet, spellsTerm, gapTerm, sound.1, sound.2⟩ split

theorem WellFormed.trimmed_words (formed : d.WellFormed) : Text.Trimmed d.words := by
  constructor
  · intro c head
    obtain ⟨s, more, word⟩ : ∃ s more, d.set = s :: more := by
      refine List.exists_cons_of_ne_nil fun none => ?_
      have set := formed.set
      rw [none] at set
      cases set
    rw [words, word] at head
    exact head_spelled formed.set (by decide) c (by rw [word]; exact head)
  · intro c last
    rw [words, ← List.append_assoc, ← List.append_assoc, ← List.append_assoc, List.getLast?_append,
      List.getLast?_eq_some_getLast formed.nonempty, Option.some_or] at last
    simpa using List.any_eq_false.mp formed.solid c (Option.some.inj last ▸ List.getLast_mem _)

theorem WellFormed.inert_words (formed : d.WellFormed) {terminator : List Char}
    (current : IsTerminator terminator) (new : IsTerminator d.terminator)
    (disjoint : ∀ c ∈ d.terminator, c ∉ terminator)
    (afterTerminator : ∀ c ∈ d.afterTerminator, Text.isBlank c = true) :
    ∀ c ∈ d.words ++ d.afterTerminator, Inert terminator c := by
  have letter : ∀ c, (foldCase c).isAlpha = true → Inert terminator c := by
    intro c alpha
    refine ⟨?_, ?_, ?_, fun member => Bool.false_ne_true ((current.noLetter member).symm.trans alpha)⟩
    · rw [isQuote, Bool.or_eq_false_iff, beq_eq_false_iff_ne, beq_eq_false_iff_ne]
      constructor <;> (rintro rfl; exact absurd alpha (by decide))
    all_goals rintro rfl; exact absurd alpha (by decide)
  simp only [words, List.append_assoc, List.forall_mem_append]
  exact ⟨fun c member => letter c (formed.set.letter (by decide) member),
    fun c member => .of_blank current (List.all_eq_true.mp formed.afterSet.2 c member),
    fun c member => letter c (formed.term.letter (by decide) member),
    fun c member => .of_blank current (List.all_eq_true.mp formed.afterTerm.2 c member),
    fun c member => ⟨new.noQuote member, (new.noComment member).1, (new.noComment member).2.1,
      disjoint c member⟩,
    fun c member => .of_blank current (afterTerminator c member)⟩

/-- A directive is no statement, and sets the terminator for what follows. -/
theorem WellFormed.cutsFrom_eq (formed : d.WellFormed) {terminator : List Char}
    (current : IsTerminator terminator) (new : IsTerminator d.terminator)
    (disjoint : ∀ c ∈ d.terminator, c ∉ terminator)
    (afterTerminator : ∀ c ∈ d.afterTerminator, Text.isBlank c = true) {blanks : List Char}
    (blank : ∀ c ∈ blanks, Text.isBlank c = true) (rest : List Char) :
    cutsFrom terminator none blanks (d.words ++ d.afterTerminator ++ (terminator ++ rest)) =
      cutsFrom d.terminator none [] rest := by
  have cut : cutOf terminator d.words = [] := by
    rw [cutOf, formed.newTerminator?]
    exact if_pos (Bool.or_true _)
  have switched : terminatorAfter terminator d.words = d.terminator := by
    rw [terminatorAfter, formed.newTerminator?]
    rfl
  have trimmed : Text.trimChars (d.words ++ d.afterTerminator) = d.words := by
    rw [Text.trimChars_append_blanks afterTerminator, formed.trimmed_words.trimChars_eq]
  have closed := closes_inert (formed.inert_words current new disjoint afterTerminator)
  rw [cutsFrom_cut _ current blank closed trimmed, cut, switched, List.nil_append]

end Directive

/-- The statements of a batch are the statements that it was put together from. -/
theorem cuts_render {terminator : List Char} (current : IsTerminator terminator)
    (items : List (List Filler × Item)) (admissible : Admissible terminator items) (last : List Filler)
    (complete : ∀ filler ∈ last, filler.Complete) :
    (cuts terminator (render terminator items last)).map Cut.text =
      items.filterMap fun entry => entry.2.statement? := by
  -- Directives change the terminator, so it is whatever the items before have left in force.
  induction items generalizing terminator with
  | nil =>
    obtain ⟨blanks, blank, same⟩ := cutsFrom_fillers [] [] current last complete
    have nothing : Text.trimChars blanks.reverse = [] := by
      have reversed : ∀ c ∈ blanks.reverse, Text.isBlank c = true := by simpa using blank
      rw [← List.append_nil blanks.reverse, Text.trimChars_blanks reversed]
      rfl
    rw [List.append_nil, List.append_nil] at same
    rw [cuts, render, same, cutsFrom, nothing]
    rfl
  | cons entry items ih =>
    obtain ⟨fillers, item⟩ := entry
    obtain ⟨whole, allowed, others⟩ := admissible
    have following := ih (allowed.isTerminator_next current) others
    rw [cuts] at following ⊢
    obtain ⟨blanks, blank, same⟩ := cutsFrom_fillers []
      (item.text terminator ++ render (item.next terminator) items last) current fillers whole
    rw [render, List.append_assoc, same, List.append_nil]
    cases allowed with
    | statement text nonempty trimmed plain closed =>
      have given : text.isEmpty = false := by simpa using nonempty
      replace plain := Directive.newTerminator?_eq_none_iff.mpr plain
      have cut : cutOf terminator text = [⟨terminator, text⟩] := by
        rw [cutOf, given, plain]
        rfl
      have kept : terminatorAfter terminator text = terminator := by
        rw [terminatorAfter, plain]
        rfl
      rw [Item.text, List.append_assoc, cutsFrom_cut _ current blank closed trimmed, cut, kept,
        List.map_append]
      exact congrArg (text :: ·) following
    | directive d formed new disjoint afterTerminator =>
      rw [Item.text, List.append_assoc, formed.cutsFrom_eq current new disjoint afterTerminator blank]
      exact following

/-- Splitting a batch gives back the statements that it was put together from, in order and unchanged,
whatever terminators its directives set. -/
theorem splitStatements_render (items : List (List Filler × Item)) (admissible : Admissible [';'] items)
    (last : List Filler) (complete : ∀ filler ∈ last, filler.Complete) :
    splitStatements (String.ofList (render [';'] items last)) =
      (items.filterMap fun entry => entry.2.statement?).map String.ofList := by
  rw [splitStatements, String.toList_ofList, ← cuts_render isTerminator_semicolon items admissible last
    complete, List.map_map]
  rfl

/-- A batch with two directives, a semicolon inside a statement, and a terminator in quotes. -/
def sampleBatch : List (List Filler × Item) := [
  ([.line "it's".toList],
    .directive ⟨"Set".toList, [' '], "term".toList, ['\n'], ['^', '^'], [' ']⟩),
  ([.block ";".toList, .blank '\n'], .statement "BEGIN A = '^^'; END".toList),
  ([], .directive ⟨"SET".toList, [' '], "TERM".toList, [' '], [';'], []⟩),
  ([.blank '\n'], .statement "COMMIT".toList)]

theorem splitStatements_render_sample :
    splitStatements (String.ofList (render [';'] sampleBatch [.blank '\n'])) =
      ["BEGIN A = '^^'; END", "COMMIT"] := by
  have formed : Admissible [';'] sampleBatch := by
    refine ⟨by decide, .directive _ ⟨rfl, ?_, rfl, ?_, ?_, ?_⟩ ⟨?_, ?_⟩ (by simp) (by simp; rfl),
      by decide, .statement _ ?_ ?_ (Directive.newTerminator?_eq_none_iff.mp ?_) ?_,
      by decide, .directive _ ⟨rfl, ?_, rfl, ?_, ?_, ?_⟩ ⟨?_, ?_⟩ (by simp [Item.next]) (by simp),
      by decide, .statement _ ?_ ?_ (Directive.newTerminator?_eq_none_iff.mp ?_) ?_, trivial⟩
    all_goals decide
  exact splitStatements_render sampleBatch formed [.blank '\n'] (by decide)

end SchemaSync.Script
