import SchemaSync.Proofs.Script.Literal

/-! Source texts whose comments can be left out without bringing anything else together: taking the
comments out gives bare text, and taking them out once more changes nothing. -/

namespace SchemaSync.Script

open Text

/-- Whether a comment can end before a text: nothing follows, white space, or another comment. -/
def SetOff (cs : List Char) : Prop :=
  (∀ c ∈ cs.head?, isBlank c = true) ∨ opensComment cs = true

/-- A sequence of closed literals, complete comments and other text. -/
inductive Pieced : List Char → Prop
  | nil : Pieced []
  | literal {body after : List Char} : LiteralRest body → after.head? ≠ some '\'' → Pieced after →
      Pieced ('\'' :: (body ++ after))
  | line {rest : List Char} : Pieced (dropLine rest) → Pieced ('-' :: '-' :: rest)
  | block {rest after : List Char} : closeBlock? rest = some after → Pieced after → Pieced ('/' :: '*' :: rest)
  | plain {c : Char} {rest : List Char} : c ≠ '\'' → opensComment (c :: rest) = false → Pieced rest →
      Pieced (c :: rest)

/-- A sequence of closed literals, complete comments and other text, in which comments are set off
from the rest. `apart` tells whether a comment can start at the front. -/
inductive WellSpaced : Bool → List Char → Prop
  | nil {apart : Bool} : WellSpaced apart []
  | literal {apart : Bool} {body after : List Char} : LiteralRest body → after.head? ≠ some '\'' →
      WellSpaced false after → WellSpaced apart ('\'' :: (body ++ after))
  | line {rest : List Char} : WellSpaced true (dropLine rest) → WellSpaced true ('-' :: '-' :: rest)
  | block {rest after : List Char} : closeBlock? rest = some after → SetOff after →
      WellSpaced true after → WellSpaced true ('/' :: '*' :: rest)
  | plain {apart : Bool} {c : Char} {rest : List Char} : c ≠ '\'' → opensComment (c :: rest) = false →
      WellSpaced (isBlank c) rest → WellSpaced apart (c :: rest)

/-- A sequence of closed literals, complete comments and other text, in which nothing but white space, a
literal or another comment follows a block comment. -/
inductive Commented : List Char → Prop
  | nil : Commented []
  | literal {body after : List Char} : LiteralRest body → after.head? ≠ some '\'' → Commented after →
      Commented ('\'' :: (body ++ after))
  | line {rest : List Char} : Commented (dropLine rest) → Commented ('-' :: '-' :: rest)
  | block {rest after : List Char} : closeBlock? rest = some after →
      SetOff after ∨ after.head? = some '\'' → Commented after → Commented ('/' :: '*' :: rest)
  | plain {c : Char} {rest : List Char} : c ≠ '\'' → opensComment (c :: rest) = false → Commented rest →
      Commented (c :: rest)

theorem WellSpaced.commented {apart : Bool} {cs : List Char} (spaced : WellSpaced apart cs) : Commented cs := by
  induction spaced with
  | nil => exact .nil
  | literal literal quote _ ih => exact .literal literal quote ih
  | line _ ih => exact .line ih
  | block closes set _ ih => exact .block closes (.inl set) ih
  | plain quote opens _ ih => exact .plain quote opens ih

theorem Commented.pieced {cs : List Char} (commented : Commented cs) : Pieced cs := by
  induction commented with
  | nil => exact .nil
  | literal literal quote _ ih => exact .literal literal quote ih
  | line _ ih => exact .line ih
  | block closes _ _ ih => exact .block closes ih
  | plain quote opens _ ih => exact .plain quote opens ih

def keptChars (cs : List Char) : List Char :=
  (pieces cs).flatMap Piece.kept

theorem keptChars_nil : keptChars [] = [] := by
  rw [keptChars, pieces]
  rfl

theorem keptChars_literal {body after : List Char} (literal : LiteralRest body)
    (apart : after.head? ≠ some '\'') :
    keptChars ('\'' :: (body ++ after)) = '\'' :: (body ++ keptChars after) := by
  rw [keptChars, pieces, frontPiece_literal literal apart, List.flatMap_cons]
  rfl

theorem keptChars_plain {c : Char} {rest : List Char} (quote : c ≠ '\'')
    (opens : opensComment (c :: rest) = false) : keptChars (c :: rest) = c :: keptChars rest := by
  rw [keptChars, pieces, frontPiece_plain quote opens, List.flatMap_cons]
  rfl

theorem keptChars_line (rest : List Char) : keptChars ('-' :: '-' :: rest) = keptChars (dropLine rest) := by
  rw [keptChars, pieces, frontPiece, List.flatMap_cons]
  rfl

theorem keptChars_block {rest after : List Char} (closes : closeBlock? rest = some after) :
    keptChars ('/' :: '*' :: rest) = keptChars after := by
  rw [keptChars, pieces, frontPiece, closes, List.flatMap_cons]
  rfl

theorem keptChars_prepend {front : List Char}
    (safe : front.all (fun c => c != '\'' && c != '-' && c != '/') = true) (rest : List Char) :
    keptChars (front ++ rest) = front ++ keptChars rest := by
  induction front with
  | nil => rfl
  | cons c front ih =>
    rw [List.all_cons, Bool.and_eq_true, Bool.and_eq_true, Bool.and_eq_true] at safe
    obtain ⟨⟨⟨quote, minus⟩, slash⟩, others⟩ := safe
    rw [List.cons_append, keptChars_plain (bne_iff_ne.mp quote), ih others, List.cons_append]
    simp [opensComment, bne_iff_ne.mp minus, bne_iff_ne.mp slash]

theorem keptChars_eq_self {cs : List Char} (safe : cs.all (fun c => c != '\'' && c != '-' && c != '/') = true) :
    keptChars cs = cs := by
  have kept := keptChars_prepend safe []
  rwa [keptChars_nil, List.append_nil] at kept

theorem keptChars_blanks {blanks : List Char} (blank : ∀ c ∈ blanks, isBlank c = true) (rest : List Char) :
    keptChars (blanks ++ rest) = blanks ++ keptChars rest := by
  refine keptChars_prepend (List.all_eq_true.mpr fun c member => ?_) rest
  have solid := blank c member
  simp only [Bool.and_eq_true, bne_iff_ne]
  refine ⟨⟨?_, ?_⟩, ?_⟩ <;> (rintro rfl; cases solid)

theorem stripCommentChars_eq (cs : List Char) : stripCommentChars cs = trimChars (keptChars cs) :=
  rfl

theorem stripCommentChars_eq_self {cs : List Char} (safe : cs.all (fun c => c != '\'' && c != '-' && c != '/') = true)
    (trimmed : trimChars cs = cs) : stripCommentChars cs = cs := by
  rw [stripCommentChars_eq, keptChars_eq_self safe, trimmed]

theorem closeBlock?_append {cs after : List Char} (closes : closeBlock? cs = some after) (rest : List Char) :
    closeBlock? (cs ++ rest) = some (after ++ rest) := by
  fun_induction closeBlock? cs with
  | case1 => cases closes
  | case2 more =>
    cases closes
    rfl
  | case3 c more other ih =>
    rw [List.cons_append, closeBlock?, ih closes]
    intro later star same
    cases more with
    | nil => cases closes
    | cons d more =>
      cases same
      exact other more star rfl

theorem dropLine_append (cs : List Char) : (∀ rest, dropLine (cs ++ rest) = dropLine cs ++ rest) ∨
    (dropLine cs = [] ∧ ∀ rest, dropLine (cs ++ rest) = dropLine rest) := by
  induction cs with
  | nil => exact .inr ⟨rfl, fun _ => rfl⟩
  | cons c cs ih =>
    by_cases line : c = '\n'
    · left
      simp [dropLine, line]
    · simpa [dropLine, line] using ih

theorem opensComment_head {c : Char} {one two : List Char} (same : one.head? = two.head?) :
    opensComment (c :: one) = opensComment (c :: two) := by
  cases one <;> cases two <;> simp_all [opensComment]

theorem opensComment_other {c : Char} {rest : List Char} (joint : ∀ d ∈ rest.head?, d ≠ '-' ∧ d ≠ '*') :
    opensComment (c :: rest) = false := by
  have alone := opensComment_append (List.cons_ne_nil c []) joint
  exact alone.trans (by simp [opensComment])

theorem dropLine_head {cs : List Char} : ∀ c ∈ (dropLine cs).head?, c = '\n' := by
  intro c head
  have stop := List.head?_dropWhile_not (· != '\n') cs
  rw [dropLine, Option.mem_def] at head
  simpa [head] using stop

section Trim

theorem closed_append_plain {rest : List Char} (unquoted : '\'' ∉ rest) (quoted : Bool) (front : List Char) :
    closed quoted (front ++ rest) = closed quoted front := by
  induction front generalizing quoted with
  | nil =>
    induction rest with
    | nil => rfl
    | cons c rest ih =>
      rw [List.mem_cons, not_or] at unquoted
      rw [List.nil_append, closed_plain (Ne.symm unquoted.1)]
      exact ih unquoted.2
  | cons c front ih => rw [List.cons_append, closed, closed, ih]

/-- The front of a text without comments has none, if no literal goes on after it. -/
theorem Bare.of_append {front rest : List Char} (bare : Bare (front ++ rest)) (unquoted : '\'' ∉ rest)
    (joint : ∀ c ∈ rest.head?, c ≠ '-' ∧ c ≠ '*') : Bare front := by
  have plain {quoted inWord : Bool} (whole : outside (fun _ cs => !opensComment cs) quoted inWord (front ++ rest) = true) :
      outside (fun _ cs => !opensComment cs) quoted inWord front = true := by
    clear bare
    induction front generalizing quoted inWord with
    | nil => rfl
    | cons c front ih =>
      rw [List.cons_append, outside, ← List.cons_append, opensComment_append (List.cons_ne_nil _ _) joint,
        Bool.and_eq_true] at whole
      rw [outside, Bool.and_eq_true]
      exact ⟨whole.1, ih whole.2⟩
  exact ⟨(closed_append_plain unquoted false front).symm.trans bare.closed, plain bare.plain⟩

theorem Bare.trimEnd {cs : List Char} (bare : Bare cs) : Bare (trimEnd cs) := by
  obtain ⟨blanks, blank, split⟩ := trimEnd_split cs
  rw [split] at bare
  refine bare.of_append (fun member => ?_) fun c head => ?_
  · cases blank _ member
  · have here := blank c (List.mem_of_mem_head? head)
    constructor <;> (rintro rfl; cases here)

/-- The end of a text without comments has none, if no literal starts before it. -/
theorem Bare.of_append_right {front rest : List Char} (bare : Bare (front ++ rest)) (unquoted : '\'' ∉ front) :
    Bare rest := by
  induction front with
  | nil => exact bare
  | cons c front ih =>
    rw [List.mem_cons, not_or] at unquoted
    refine ih ⟨?_, ?_⟩ unquoted.2
    · exact (closed_plain (Ne.symm unquoted.1) false _).symm.trans bare.closed
    · have plain := bare.plain
      rw [List.cons_append, outside_plain (Ne.symm unquoted.1), outside_inWord, Bool.and_eq_true] at plain
      exact plain.2

theorem Bare.trimChars {cs : List Char} (bare : Bare cs) : Bare (trimChars cs) := by
  obtain ⟨blanks, blank, split⟩ := trimStart_split cs
  rw [split] at bare
  refine (bare.of_append_right fun member => ?_).trimEnd
  cases blank _ member

end Trim

/-- Text after a source does not change what is kept of it, but a comment up to the end of the source
goes on to the end of the line. -/
theorem Pieced.keptChars_append {cs : List Char} (pieced : Pieced cs) :
    (∀ rest, (∀ c ∈ rest.head?, c ≠ '\'' ∧ c ≠ '-' ∧ c ≠ '*') →
        keptChars (cs ++ rest) = keptChars cs ++ keptChars rest) ∨
      ∀ rest, (∀ c ∈ rest.head?, c ≠ '\'' ∧ c ≠ '-' ∧ c ≠ '*') →
        keptChars (cs ++ rest) = keptChars cs ++ keptChars (dropLine rest) := by
  -- Which of the two it is depends on the last piece alone, so every other piece hands it on.
  induction pieced with
  | nil => exact .inl fun rest _ => by rw [keptChars_nil]; rfl
  | @literal body after literal quote _ ih =>
    have step {rest : List Char} (joint : ∀ c ∈ rest.head?, c ≠ '\'' ∧ c ≠ '-' ∧ c ≠ '*') :
        keptChars ('\'' :: (body ++ after) ++ rest) = '\'' :: (body ++ keptChars (after ++ rest)) := by
      have later : (after ++ rest).head? ≠ some '\'' := by
        cases after with
        | nil => exact fun head => (joint _ head).1 rfl
        | cons c after => exact quote
      rw [List.cons_append, List.append_assoc, keptChars_literal literal later]
    rw [keptChars_literal literal quote]
    refine ih.imp (fun ih rest joint => ?_) fun ih rest joint => ?_
    all_goals rw [step joint, ih rest joint, List.cons_append, List.append_assoc]
  | @line more _ ih =>
    rw [keptChars_line]
    rcases dropLine_append more with goesOn | ⟨stops, goesOn⟩
    · refine ih.imp (fun ih rest joint => ?_) fun ih rest joint => ?_
      all_goals rw [List.cons_append, List.cons_append, keptChars_line, goesOn, ih rest joint]
    · refine .inr fun rest _ => ?_
      rw [List.cons_append, List.cons_append, keptChars_line, goesOn, stops, keptChars_nil]
      rfl
  | @block more _ closes _ ih =>
    rw [keptChars_block closes]
    refine ih.imp (fun ih rest joint => ?_) fun ih rest joint => ?_
    all_goals rw [List.cons_append, List.cons_append, keptChars_block (closeBlock?_append closes rest),
      ih rest joint]
  | @plain c more quote opens _ ih =>
    have step {rest : List Char} (joint : ∀ c ∈ rest.head?, c ≠ '\'' ∧ c ≠ '-' ∧ c ≠ '*') :
        keptChars (c :: more ++ rest) = c :: keptChars (more ++ rest) := by
      have opens := (opensComment_append (List.cons_ne_nil c more) fun d head => (joint d head).2).trans opens
      rw [List.cons_append] at opens ⊢
      rw [keptChars_plain quote opens]
    rw [keptChars_plain quote opens]
    refine ih.imp (fun ih rest joint => ?_) fun ih rest joint => ?_
    all_goals rw [step joint, ih rest joint, List.cons_append]

namespace Commented

/-- The front of a text is kept unless it is a comment, and a comment leaves a gap or a literal there. -/
theorem head?_keptChars {cs : List Char} (commented : Commented cs) :
    (opensComment cs = false ∧ (keptChars cs).head? = cs.head?) ∨
      ∀ c ∈ (keptChars cs).head?, isBlank c = true ∨ c = '\'' := by
  induction commented with
  | nil => exact .inl ⟨rfl, by rw [keptChars_nil]⟩
  | literal literal quote _ => exact .inl ⟨rfl, by rw [keptChars_literal literal quote]; rfl⟩
  | plain quote opens _ => exact .inl ⟨opens, by rw [keptChars_plain quote opens]; rfl⟩
  | line _ ih =>
    rw [keptChars_line]
    refine .inr (ih.elim (fun same c head => .inl ?_) id)
    rw [same.2] at head
    rw [dropLine_head c head]
    rfl
  | block closes set _ ih =>
    rw [keptChars_block closes]
    refine .inr (ih.elim (fun same c head => ?_) id)
    rw [same.2] at head
    rcases set with (blank | opens) | quote
    · exact .inl (blank c head)
    · cases opens.symm.trans same.1
    · exact .inr (Option.some.inj (head.symm.trans quote))

theorem bare_keptChars {cs : List Char} (commented : Commented cs) : Bare (keptChars cs) := by
  induction commented with
  | nil => rw [keptChars_nil]; exact bare_nil
  | literal literal quote _ ih =>
    rw [keptChars_literal literal quote]
    refine ⟨?_, ?_⟩
    · rw [closed_quote, Bool.not_false, closed_literal literal]
      exact ih.closed
    · rw [outside_literal (fun _ _ => rfl) literal]
      exact ih.plain
  | line _ ih => rw [keptChars_line]; exact ih
  | block closes _ _ ih => rw [keptChars_block closes]; exact ih
  | @plain c rest quote opens later ih =>
    rw [keptChars_plain quote opens]
    refine ih.cons quote ?_
    rcases later.head?_keptChars with ⟨_, same⟩ | gap
    · rw [opensComment_head same]
      exact opens
    · refine opensComment_other fun d head => ?_
      rcases gap d head with blank | rfl
      · constructor <;> (rintro rfl; cases blank)
      · decide

theorem stripCommentChars_trim {cs : List Char} (commented : Commented (trimChars cs)) :
    stripCommentChars cs = stripCommentChars (trimChars cs) := by
  have leave {blanks : List Char} (blank : ∀ c ∈ blanks, isBlank c = true) : keptChars blanks = blanks := by
    have kept := keptChars_blanks blank []
    rwa [keptChars_nil, List.append_nil] at kept
  obtain ⟨front, frontBlank, frontSplit⟩ := trimStart_split cs
  obtain ⟨back, backBlank, backSplit⟩ := trimEnd_split (trimStart cs)
  have joint : ∀ c ∈ back.head?, c ≠ '\'' ∧ c ≠ '-' ∧ c ≠ '*' := by
    intro c head
    have solid := backBlank c (List.mem_of_mem_head? head)
    refine ⟨?_, ?_, ?_⟩ <;> (rintro rfl; cases solid)
  have later : ∃ blanks, (∀ c ∈ blanks, isBlank c = true) ∧
      keptChars (trimChars cs ++ back) = keptChars (trimChars cs) ++ blanks := by
    rcases commented.pieced.keptChars_append with kept | kept
    · exact ⟨back, backBlank, by rw [kept back joint, leave backBlank]⟩
    · have blank : ∀ c ∈ dropLine back, isBlank c = true :=
        fun c member => backBlank c ((List.dropWhile_sublist _).mem member)
      exact ⟨dropLine back, blank, by rw [kept back joint, leave blank]⟩
  obtain ⟨blanks, blank, kept⟩ := later
  have start : keptChars cs = front ++ (keptChars (trimChars cs) ++ blanks) := by
    rw [← kept, ← keptChars_blanks frontBlank, trimChars, ← backSplit, ← frontSplit]
  rw [stripCommentChars_eq, stripCommentChars_eq, start, trimChars_blanks frontBlank,
    trimChars_append_blanks blank]

end Commented

section TrimmedSource

/-- Where a text that ends with something other than white space stands before another one, white space
at the end is that of the other one. -/
private theorem append_eq_append_blanks {front after cs blanks : List Char}
    (solid : ∀ c ∈ front.getLast?, isBlank c = false) (blank : ∀ c ∈ blanks, isBlank c = true)
    (split : front ++ after = cs ++ blanks) : ∃ more, cs = front ++ more ∧ after = more ++ blanks := by
  rcases List.append_eq_append_iff.mp split with ⟨more, kept, rest⟩ | ⟨more, kept, rest⟩
  · exact ⟨more, kept, rest⟩
  · cases last : more.getLast? with
    | none =>
      obtain rfl := List.getLast?_eq_none_iff.mp last
      exact ⟨[], by rw [kept, List.append_nil, List.append_nil], by rw [rest]; rfl⟩
    | some c =>
      have inside : isBlank c = true :=
        blank c (by rw [rest]; exact List.mem_append_left after (List.mem_of_getLast? last))
      rw [kept, List.getLast?_append, last, Option.some_or] at solid
      rw [solid c rfl] at inside
      cases inside

private theorem closeBlock?_eq_some {cs after : List Char} (closes : closeBlock? cs = some after) :
    ∃ body, cs = body ++ after ∧ body.getLast? = some '/' ∧ closeBlock? body = some [] := by
  fun_induction closeBlock? cs with
  | case1 => cases closes
  | case2 rest =>
    cases closes
    exact ⟨['*', '/'], rfl, rfl, rfl⟩
  | case3 c rest other ih =>
    obtain ⟨body, rfl, last, ends⟩ := ih closes
    refine ⟨c :: body, rfl, by rw [List.getLast?_cons, last]; rfl, ?_⟩
    rw [closeBlock?, ends]
    rintro more rfl rfl
    exact other (more ++ after) rfl rfl

theorem SetOff.of_append {cs blanks : List Char} (set : SetOff (cs ++ blanks))
    (blank : ∀ c ∈ blanks, isBlank c = true) : SetOff cs := by
  cases cs with
  | nil => exact .inl (by simp)
  | cons c cs =>
    refine set.imp id fun opens => ?_
    rwa [opensComment_append (List.cons_ne_nil c cs)] at opens
    intro d head
    have here := blank d (List.mem_of_mem_head? head)
    constructor <;> (rintro rfl; cases here)

/-- A source without white space at its end is still one. -/
private theorem Commented.of_append_blanks {text : List Char} (commented : Commented text)
    {cs blanks : List Char} (blank : ∀ c ∈ blanks, isBlank c = true) (split : text = cs ++ blanks) :
    Commented cs := by
  have joint : ∀ c ∈ blanks.head?, c ≠ '-' ∧ c ≠ '*' := by
    intro c head
    have here := blank c (List.mem_of_mem_head? head)
    constructor <;> (rintro rfl; cases here)
  -- No piece ends with white space except a line comment, so the blanks stand after the last piece or in that comment.
  induction commented generalizing cs with
  | nil =>
    obtain ⟨rfl, _⟩ := List.append_eq_nil_iff.mp split.symm
    exact .nil
  | @literal body after literal quote _ ih =>
    have solid : ∀ c ∈ ('\'' :: body).getLast?, isBlank c = false := by
      rw [List.getLast?_cons, literal.last]
      rintro c ⟨⟩
      rfl
    obtain ⟨more, rfl, rfl⟩ := append_eq_append_blanks solid blank split
    refine .literal literal (fun head => quote ?_) (ih rfl)
    rw [List.head?_append, head]
    rfl
  | @line rest _ ih =>
    have solid : ∀ c ∈ ['-', '-'].getLast?, isBlank c = false := by
      rintro c ⟨⟩
      rfl
    obtain ⟨more, rfl, rfl⟩ := append_eq_append_blanks solid blank split
    have kept : Commented (dropLine more) := by
      rcases dropLine_append more with goesOn | ⟨stops, _⟩
      · exact ih (goesOn blanks)
      · rw [stops]
        exact .nil
    exact .line kept
  | @block rest after closes set _ ih =>
    obtain ⟨body, rfl, last, ends⟩ := closeBlock?_eq_some closes
    have solid : ∀ c ∈ ('/' :: '*' :: body).getLast?, isBlank c = false := by
      rw [List.getLast?_cons_cons, List.getLast?_cons, last]
      rintro c ⟨⟩
      rfl
    obtain ⟨more, rfl, rfl⟩ := append_eq_append_blanks solid blank split
    refine .block (closeBlock?_append ends more) ?_ (ih rfl)
    refine set.imp (fun set => set.of_append blank) fun head => ?_
    cases more with
    | nil => cases blank _ (List.mem_of_mem_head? head)
    | cons c more => exact head
  | @plain c rest quote opens _ ih =>
    cases cs with
    | nil => exact .nil
    | cons d cs =>
      obtain ⟨rfl, rfl⟩ := List.cons.inj split
      have same := opensComment_append (List.cons_ne_nil c cs) joint
      exact .plain quote (same.symm.trans opens) (ih rfl)

theorem Commented.trimChars {cs : List Char} (commented : Commented cs) : Commented (trimChars cs) := by
  have start : Commented (trimStart cs) := by
    induction cs with
    | nil => exact .nil
    | cons c cs ih =>
      cases blank : isBlank c with
      | false =>
        rw [trimStart, List.dropWhile_cons_of_neg (by simp [blank])]
        exact commented
      | true =>
        rw [trimStart, List.dropWhile_cons_of_pos blank]
        cases commented with
        | plain _ _ later => exact ih later
        | literal => cases blank
        | line => cases blank
        | block => cases blank
  obtain ⟨blanks, blank, split⟩ := trimEnd_split (trimStart cs)
  exact start.of_append_blanks blank split

private theorem frontPiece_sublist (c : Char) (rest : List Char) :
    ((frontPiece c rest).1.kept ++ (frontPiece c rest).2).Sublist (c :: rest) := by
  unfold frontPiece
  split
  · split
    · next found =>
      rw [(closeLiteral?_eq_some_iff.mp found).1]
      exact List.Sublist.refl _
    · exact List.Sublist.refl _
  · split
    · next found =>
      obtain ⟨body, rfl, _⟩ := closeBlock?_eq_some found
      exact ((List.sublist_append_right body _).cons '*').cons '/'
    · exact List.Sublist.refl _
  · exact ((List.dropWhile_sublist _).cons '-').cons '-'
  · exact List.Sublist.refl _

theorem keptChars_sublist (cs : List Char) : (keptChars cs).Sublist cs := by
  rw [keptChars]
  fun_induction pieces cs with
  | case1 => exact List.Sublist.refl _
  | case2 c rest ih =>
    rw [List.flatMap_cons]
    exact (ih.append_left _).trans (frontPiece_sublist c rest)

end TrimmedSource

/-- A text without comments has none to set off. -/
theorem Bare.wellSpaced {cs : List Char} (bare : Bare cs) (apart : Bool) : WellSpaced apart cs := by
  refine closed_induct (motive := fun cs => outside (fun _ cs => !opensComment cs) false false cs = true →
    ∀ apart, WellSpaced apart cs) (fun _ _ => .nil) ?_ ?_ cs bare.closed bare.plain apart
  · intro c rest quote _ ih plain apart
    rw [outside_plain quote, outside_inWord, Bool.and_eq_true, Bool.not_eq_true'] at plain
    exact .plain quote plain.1 (ih plain.2 _)
  · intro body after literal apart _ ih plain _
    rw [outside_literal (fun _ _ => rfl) literal] at plain
    exact .literal literal apart (ih plain _)

/-- A text without comments is kept before any other text, unless its last character makes something else of
what follows. -/
theorem Bare.append_commented {front rest : List Char} (bare : Bare front)
    (joint : ∀ c ∈ front.getLast?, isBlank c = true ∨ ∀ d ∈ rest.head?, d ≠ '\'' ∧ d ≠ '-' ∧ d ≠ '*') :
    keptChars (front ++ rest) = front ++ keptChars rest ∧ (Commented rest → Commented (front ++ rest)) := by
  refine closed_induct (motive := fun cs => outside (fun _ cs => !opensComment cs) false false cs = true →
    (∀ c ∈ cs.getLast?, isBlank c = true ∨ ∀ d ∈ rest.head?, d ≠ '\'' ∧ d ≠ '-' ∧ d ≠ '*') →
    keptChars (cs ++ rest) = cs ++ keptChars rest ∧ (Commented rest → Commented (cs ++ rest)))
    (fun _ _ => ⟨rfl, id⟩) ?_ ?_ front bare.closed bare.plain joint
  · intro c cs quote _ ih plain joint
    rw [outside_plain quote, outside_inWord, Bool.and_eq_true, Bool.not_eq_true'] at plain
    have opens : opensComment (c :: (cs ++ rest)) = false := by
      cases cs with
      | nil =>
        rcases joint c rfl with blank | joint
        · have other : c ≠ '-' ∧ c ≠ '/' := by constructor <;> (rintro rfl; cases blank)
          simp [opensComment, other]
        · exact opensComment_other fun d head => (joint d head).2
      | cons d cs => exact plain.1
    obtain ⟨kept, later⟩ := ih plain.2 fun d found =>
      joint d (by rw [List.getLast?_cons, Option.mem_def.mp found]; rfl)
    exact ⟨(keptChars_plain quote opens).trans (congrArg (c :: ·) kept), fun commented =>
      .plain quote opens (later commented)⟩
  · intro body after literal apart _ ih plain joint
    rw [outside_literal (fun _ _ => rfl) literal] at plain
    have next : (after ++ rest).head? ≠ some '\'' := by
      cases after with
      | nil =>
        rcases joint '\'' (by rw [List.append_nil, List.getLast?_cons, literal.last]; rfl) with blank | joint
        · cases blank
        · exact fun head => (joint _ head).1 rfl
      | cons c after => exact apart
    obtain ⟨kept, later⟩ := ih plain fun d found =>
      joint d (by rw [← List.cons_append, List.getLast?_append, Option.mem_def.mp found]; rfl)
    rw [List.cons_append, List.append_assoc, List.cons_append, List.append_assoc, keptChars_literal literal next, kept]
    exact ⟨rfl, fun commented => .literal literal next (later commented)⟩

end SchemaSync.Script
