import SchemaSync.Proofs.Script.Batch
import SchemaSync.Proofs.Script.Squeeze

/-! A text that is read twice: as a part of a batch, where comments give way to spaces, and as a definition, from
which comments are taken out. What is left of it differs only in spaces before other white space. -/

namespace SchemaSync.Script

open Text

/-- A sequence of closed literals, closed names in quotation marks, complete comments and other text without the
terminator, in which nothing but white space or another comment follows a block comment. -/
inductive SharedText (terminator : List Char) : List Char → Prop
  | nil : SharedText terminator []
  | literal {body after : List Char} : LiteralRest body → after.head? ≠ some '\'' → SharedText terminator after →
      SharedText terminator ('\'' :: (body ++ after))
  | name {body after : List Char} : Bare body → (∀ c ∈ body, isQuote c = false) → SharedText terminator after →
      SharedText terminator ('"' :: (body ++ '"' :: after))
  | line {rest : List Char} : '\n' ∈ rest → SharedText terminator (dropLine rest) →
      SharedText terminator ('-' :: '-' :: rest)
  | block {rest after : List Char} : closeBlock? rest = some after → SetOff after → SharedText terminator after →
      SharedText terminator ('/' :: '*' :: rest)
  | plain {c : Char} {rest : List Char} : isQuote c = false → c ∉ terminator → opensComment (c :: rest) = false →
      SharedText terminator rest → SharedText terminator (c :: rest)

theorem dropLine_ended {cs : List Char} (ended : '\n' ∈ cs) (rest : List Char) :
    dropLine (cs ++ rest) = dropLine cs ++ rest := by
  induction cs with
  | nil => cases ended
  | cons c cs ih =>
    by_cases line : c = '\n'
    · simp [dropLine, line]
    · have below := ih ((List.mem_cons.mp ended).resolve_left (Ne.symm line))
      simpa [dropLine, line] using below

theorem opensComment_eq_false_iff {cs : List Char} :
    opensComment cs = false ↔ ['-', '-'].isPrefixOf cs = false ∧ ['/', '*'].isPrefixOf cs = false := by
  have pair (a b : Char) : [a, b].isPrefixOf cs = (cs.take 2 == [a, b]) := by
    match cs with
    | [] => rfl
    | [c] => simp [List.isPrefixOf]
    | c :: d :: rest =>
      rw [Bool.eq_iff_iff]
      simp only [List.isPrefixOf, Bool.and_true, Bool.and_eq_true, beq_iff_eq, List.take_succ_cons, List.take_zero,
        List.cons.injEq, and_true]
      exact ⟨fun ⟨one, two⟩ => ⟨one.symm, two.symm⟩, fun ⟨one, two⟩ => ⟨one.symm, two.symm⟩⟩
  rw [pair, pair]
  exact Bool.or_eq_false_iff

theorem keptChars_name {body : List Char} (bare : Bare body) (after : List Char) :
    keptChars ('"' :: (body ++ '"' :: after)) = '"' :: (body ++ '"' :: keptChars after) := by
  have mark (rest : List Char) : keptChars ('"' :: rest) = '"' :: keptChars rest :=
    keptChars_plain (by decide) rfl
  have joint : ∀ d ∈ ('"' :: after).head?, d ≠ '\'' ∧ d ≠ '-' ∧ d ≠ '*' := by
    rintro d ⟨⟩
    decide
  rw [mark, (bare.append_commented fun _ _ => .inr joint).1, mark]

namespace SharedText

variable {terminator cs : List Char}

theorem commented (shared : SharedText terminator cs) : Commented cs := by
  induction shared with
  | nil => exact .nil
  | literal literal apart _ ih => exact .literal literal apart ih
  | @name body after bare _ _ ih =>
    have joint : ∀ d ∈ ('"' :: after).head?, d ≠ '\'' ∧ d ≠ '-' ∧ d ≠ '*' := by
      rintro d ⟨⟩
      decide
    exact .plain (by decide) rfl ((bare.append_commented fun _ _ => .inr joint).2 (.plain (by decide) rfl ih))
  | line _ _ ih => exact .line ih
  | block closes set _ ih => exact .block closes (.inl set) ih
  | plain unquoted _ opens _ ih => exact .plain (apostrophe_of_isQuote unquoted) opens ih

theorem keptChars_append (shared : SharedText terminator cs) {rest : List Char}
    (joint : ∀ c ∈ rest.head?, c ≠ '\'' ∧ c ≠ '-' ∧ c ≠ '*') : keptChars (cs ++ rest) = keptChars cs ++ keptChars rest := by
  induction shared with
  | nil =>
    rw [keptChars_nil]
    rfl
  | @literal body after literal apart _ ih =>
    have later : (after ++ rest).head? ≠ some '\'' := by
      cases after with
      | nil => exact fun head => (joint _ head).1 rfl
      | cons c after => exact apart
    rw [List.cons_append, List.append_assoc, keptChars_literal literal later, keptChars_literal literal apart, ih]
    simp only [List.cons_append, List.append_assoc]
  | @name body after bare _ _ ih =>
    rw [List.cons_append, List.append_assoc, List.cons_append, keptChars_name bare, keptChars_name bare, ih]
    simp only [List.cons_append, List.append_assoc]
  | @line more ended _ ih =>
    rw [List.cons_append, List.cons_append, keptChars_line, dropLine_ended ended, ih, keptChars_line]
  | @block more after closes _ _ ih =>
    rw [List.cons_append, List.cons_append, keptChars_block (closeBlock?_append closes rest), ih, keptChars_block closes]
  | @plain c more unquoted _ opens _ ih =>
    have goesOn := (opensComment_append (List.cons_ne_nil c more) fun d head => (joint d head).2).trans opens
    rw [List.cons_append] at goesOn ⊢
    rw [keptChars_plain (apostrophe_of_isQuote unquoted) goesOn, ih, keptChars_plain (apostrophe_of_isQuote unquoted) opens,
      List.cons_append]

theorem prepend {front : List Char} (shared : SharedText terminator cs)
    (safe : front.all (fun c => !isQuote c && c != '-' && c != '/' && !terminator.contains c) = true) :
    SharedText terminator (front ++ cs) := by
  induction front with
  | nil => exact shared
  | cons c front ih =>
    simp only [List.all_cons, Bool.and_eq_true, Bool.not_eq_true', bne_iff_ne, List.contains_eq_mem,
      decide_eq_false_iff_not] at safe
    obtain ⟨⟨⟨⟨unquoted, minus⟩, slash⟩, outside⟩, others⟩ := safe
    have opens : opensComment (c :: (front ++ cs)) = false := by simp [opensComment, minus, slash]
    apply SharedText.plain unquoted outside opens
    apply ih
    simpa using others

/-- After a block comment there is white space, whatever comments follow. -/
theorem head_keptChars (shared : SharedText terminator cs) (set : SetOff cs) :
    ∀ c ∈ (keptChars cs).head?, isBlank c = true := by
  -- Texts that start with anything but white space or a comment are not set off.
  induction shared with
  | nil =>
    rw [keptChars_nil]
    rintro c ⟨⟩
  | literal =>
    rcases set with blank | opens
    · cases blank _ rfl
    · cases opens
  | name =>
    rcases set with blank | opens
    · cases blank _ rfl
    · cases opens
  | @line rest _ later =>
    rw [keptChars_line]
    have line : ∀ c ∈ (dropLine rest).head?, c = '\n' := dropLine_head
    cases below : dropLine rest with
    | nil =>
      rw [keptChars_nil]
      rintro c ⟨⟩
    | cons c more =>
      obtain rfl := line c (by rw [below]; rfl)
      rw [keptChars_plain (by decide) rfl]
      rintro d ⟨⟩
      rfl
  | block closes later _ ih =>
    rw [keptChars_block closes]
    exact ih later
  | plain unquoted _ opens =>
    rw [keptChars_plain (apostrophe_of_isQuote unquoted) opens]
    rintro d ⟨⟩
    rcases set with blank | opens'
    · exact blank _ rfl
    · cases opens.symm.trans opens'

/-- What is kept of a text does not end with a character of the terminator, but for white space. -/
theorem last_keptChars (current : IsTerminator terminator) (shared : SharedText terminator cs) :
    ∀ c ∈ (trimEnd (keptChars cs)).getLast?, c ∉ terminator := by
  have quote {front : List Char} {c : Char} (last : front.getLast? = some c) (quoted : isQuote c = true) :
      ∀ d ∈ (trimEnd front).getLast?, d ∉ terminator := by
    intro d found member
    rw [trimEnd_last fun e ends => Option.some.inj (last.symm.trans ends) ▸ isBlank_of_isQuote quoted, last] at found
    cases found
    exact Bool.false_ne_true ((current.noQuote member).symm.trans quoted)
  -- A part that ends with a character that is not in the terminator can stand before any other part.
  have after {front rest : List Char} (last : ∀ c ∈ (trimEnd front).getLast?, c ∉ terminator)
      (ih : ∀ c ∈ (trimEnd rest).getLast?, c ∉ terminator) : ∀ c ∈ (trimEnd (front ++ rest)).getLast?, c ∉ terminator := by
    by_cases none : trimEnd rest = []
    · obtain ⟨blanks, blank, split⟩ := trimEnd_split rest
      rw [none, List.nil_append] at split
      rw [split, trimEnd_blanks blank]
      exact last
    · intro c found
      rw [trimEnd_append none, List.getLast?_append, List.getLast?_eq_some_getLast none, Option.some_or] at found
      apply ih c
      rw [List.getLast?_eq_some_getLast none]
      exact found
  induction shared with
  | nil =>
    rw [keptChars_nil]
    rintro c ⟨⟩
  | @literal body rest literal apart _ ih =>
    have last : ('\'' :: body).getLast? = some '\'' := by
      rw [List.getLast?_cons, literal.last]
      rfl
    rw [keptChars_literal literal apart, ← List.cons_append]
    exact after (quote last rfl) ih
  | @name body rest bare _ _ ih =>
    have split : '"' :: (body ++ '"' :: keptChars rest) = ('"' :: body ++ ['"']) ++ keptChars rest := by simp
    rw [keptChars_name bare, split]
    exact after (quote List.getLast?_concat rfl) ih
  | line _ _ ih => rwa [keptChars_line]
  | block closes _ _ ih => rwa [keptChars_block closes]
  | @plain c rest unquoted other opens _ ih =>
    rw [keptChars_plain (apostrophe_of_isQuote unquoted) opens, ← List.singleton_append]
    refine after (fun d found => ?_) ih
    have same : d ∈ [c] := (trimEnd_front [c]).sublist.mem (List.mem_of_getLast? found)
    exact List.mem_singleton.mp same ▸ other

end SharedText

section Scan

variable {terminator : List Char} (read rest : List Char)

theorem cutsFrom_literal {body : List Char} (literal : LiteralRest body) :
    cutsFrom terminator (some '\'') read (body ++ rest) = cutsFrom terminator none (body.reverse ++ read) rest := by
  induction literal generalizing read with
  | close => exact cutsFrom_quoted read rest '\'' '\''
  | @doubled body _ ih =>
    rw [List.cons_append, List.cons_append, cutsFrom_quoted, beq_self_eq_true, if_pos rfl, cutsFrom_quote _ _ (by rfl), ih]
    simp
  | @plain c body other _ ih =>
    rw [List.cons_append, cutsFrom_quoted, beq_eq_false_iff_ne.mpr other, if_neg Bool.false_ne_true, ih]
    simp

/-- A string in quotation marks of one kind is read as it is. -/
theorem cutsFrom_body {mark : Char} {body : List Char} (inside : mark ∉ body) :
    cutsFrom terminator (some mark) read (body ++ mark :: rest) =
      cutsFrom terminator none (mark :: (body.reverse ++ read)) rest := by
  induction body generalizing read with
  | nil => rw [List.nil_append, cutsFrom_quoted, beq_self_eq_true, if_pos rfl, List.reverse_nil, List.nil_append]
  | cons c body ih =>
    obtain ⟨other, later⟩ := not_or.mp (mt List.mem_cons.mpr inside)
    rw [List.cons_append, cutsFrom_quoted, beq_eq_false_iff_ne.mpr (Ne.symm other), if_neg Bool.false_ne_true,
      ih _ later]
    simp

end Scan

theorem squeeze_congr {one two : List Char} (same : squeeze one = squeeze two) (front : List Char) :
    squeeze (front ++ one) = squeeze (front ++ two) := by
  induction front with
  | nil => exact same
  | cons c front ih =>
    have start := congrArg (fun cs => cs.head?.any isBlank) ih
    simp only [head_squeeze] at start
    rw [List.cons_append, List.cons_append, squeeze, squeeze, start, ih]

/-- A batch reads a text as it stands, with further spaces only where white space follows. -/
theorem SharedText.cutsFrom_eq {terminator cs : List Char} (current : IsTerminator terminator)
    (shared : SharedText terminator cs) : ∃ shown,
    (∀ rest : List Char, rest.head?.any isBlank = true → squeeze (shown ++ rest) = squeeze (keptChars cs ++ rest)) ∧
    ∀ read rest, (∀ c ∈ rest.head?, c ∈ terminator) →
      cutsFrom terminator none read (cs ++ rest) = cutsFrom terminator none (shown.reverse ++ read) rest := by
  -- What the batch shows is found piece by piece; only a block comment shows something that is not kept.
  induction shared with
  | nil =>
    refine ⟨[], fun rest _ => ?_, fun read rest _ => rfl⟩
    rw [keptChars_nil]
  | @literal body after literal apart _ ih =>
    obtain ⟨shown, same, scan⟩ := ih
    refine ⟨'\'' :: (body ++ shown), fun rest blank => ?_, fun read rest joint => ?_⟩
    · have later := squeeze_congr (same rest blank) ('\'' :: body)
      simpa only [keptChars_literal literal apart, List.cons_append, List.append_assoc] using later
    · rw [List.cons_append, List.append_assoc, cutsFrom_quote _ _ (by rfl), cutsFrom_literal _ _ literal, scan _ _ joint]
      simp
  | @name body after bare unquoted _ ih =>
    obtain ⟨shown, same, scan⟩ := ih
    refine ⟨'"' :: (body ++ '"' :: shown), fun rest blank => ?_, fun read rest joint => ?_⟩
    · have later := squeeze_congr (same rest blank) ('"' :: (body ++ ['"']))
      simpa only [keptChars_name bare, List.cons_append, List.append_assoc, List.nil_append] using later
    · have inside : '"' ∉ body := fun member => Bool.noConfusion (unquoted _ member)
      rw [List.cons_append, List.append_assoc, List.cons_append, cutsFrom_quote _ _ (by rfl), cutsFrom_body _ _ inside,
        scan _ _ joint]
      simp
  | @line more ended _ ih =>
    obtain ⟨shown, same, scan⟩ := ih
    refine ⟨shown, fun rest blank => ?_, fun read rest joint => ?_⟩
    · rw [keptChars_line, same rest blank]
    · rw [List.cons_append, List.cons_append, cutsFrom_line, dropLine_ended ended, scan _ _ joint]
  | @block more after closes set later ih =>
    obtain ⟨shown, same, scan⟩ := ih
    refine ⟨' ' :: shown, fun rest blank => ?_, fun read rest joint => ?_⟩
    · -- The space for the comment stands before white space, or before what follows the text.
      have next : (shown ++ rest).head?.any isBlank = true := by
        have start := congrArg (fun cs => cs.head?.any isBlank) (same rest blank)
        simp only [head_squeeze] at start
        rw [start]
        have front := later.head_keptChars set
        cases kept : keptChars after with
        | nil => exact blank
        | cons c tail => exact front c (by rw [kept]; rfl)
      rw [List.cons_append, squeeze_space next, keptChars_block closes, same rest blank]
    · rw [List.cons_append, List.cons_append, cutsFrom_block _ _ (closeBlock?_append closes rest), scan _ _ joint]
      simp
  | @plain c more unquoted other opens _ ih =>
    obtain ⟨shown, same, scan⟩ := ih
    refine ⟨c :: shown, fun rest blank => ?_, fun read rest joint => ?_⟩
    · rw [keptChars_plain (apostrophe_of_isQuote unquoted) opens]
      exact squeeze_congr (same rest blank) [c]
    · have apart : ∀ d ∈ rest.head?, d ≠ '-' ∧ d ≠ '*' := fun d head =>
        ⟨(current.noComment (joint d head)).1, (current.noComment (joint d head)).2.2⟩
      have goesOn := (opensComment_append (List.cons_ne_nil c more) apart).trans opens
      rw [List.cons_append] at goesOn ⊢
      obtain ⟨line, block⟩ := opensComment_eq_false_iff.mp goesOn
      rw [cutsFrom_plain _ _ unquoted line block (not_isPrefixOf _ current.nonempty other), scan _ _ joint]
      simp

end SchemaSync.Script
