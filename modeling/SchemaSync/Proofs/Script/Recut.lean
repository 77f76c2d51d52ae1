import SchemaSync.Proofs.Script.Batch

/-! Cutting statements again. Comments leave white space or the end of a line behind, so what stands
before a comment never joins what stands after it. A statement therefore shows no terminator and no
comment that was not there before, and under the terminator that ended it, it is a single statement. -/

namespace SchemaSync.Script

/-- Whether a text shows no comment and no terminator outside quotes. `quote` is the quotation mark
that is open at its start. -/
def quiet (terminator : List Char) (quote : Option Char) (cs : List Char) : Bool :=
  match cs with
  | [] => true
  | c :: rest =>
    match quote with
    | some mark => quiet terminator (if c == mark then none else some mark) rest
    | none =>
      if isQuote c then quiet terminator (some c) rest
      else !(['-', '-'].isPrefixOf (c :: rest)) && !(['/', '*'].isPrefixOf (c :: rest)) &&
        !terminator.isPrefixOf (c :: rest) && quiet terminator none rest

/-- A statement that stands for itself under the terminator that it was cut under. -/
structure Cut.Settled (cut : Cut) : Prop where
  given : cut.text ≠ []
  trimmed : Text.Trimmed cut.text
  plain : ∀ d : Directive, d.WellFormed → cut.text ≠ d.words
  quiet : quiet cut.terminator none cut.text = true

variable {terminator : List Char}

section Quiet

theorem quiet_plain {c : Char} {rest : List Char} (unquoted : isQuote c = false) :
    quiet terminator none (c :: rest) = true ↔
      ['-', '-'].isPrefixOf (c :: rest) = false ∧ ['/', '*'].isPrefixOf (c :: rest) = false ∧
        terminator.isPrefixOf (c :: rest) = false ∧ quiet terminator none rest = true := by
  simp [quiet, unquoted, and_assoc]

theorem cutsFrom_quiet {quote : Option Char} {cs : List Char} (silent : quiet terminator quote cs = true)
    (read : List Char) :
    cutsFrom terminator quote read cs = cutOf terminator (Text.trimChars (read.reverse ++ cs)) := by
  induction cs generalizing quote read with
  | nil => rw [cutsFrom, List.append_nil]
  | cons c rest ih =>
    have onward {quote : Option Char} (silent : quiet terminator quote rest = true) :
        cutsFrom terminator quote (c :: read) rest =
          cutOf terminator (Text.trimChars (read.reverse ++ c :: rest)) := by
      rw [ih silent, List.reverse_cons, List.append_assoc, List.singleton_append]
    cases quote with
    | some mark =>
      rw [cutsFrom_quoted]
      exact onward silent
    | none =>
      cases quoted : isQuote c with
      | true =>
        rw [cutsFrom_quote _ _ quoted]
        apply onward
        simpa [quiet, quoted] using silent
      | false =>
        obtain ⟨line, block, inside, silent⟩ := (quiet_plain quoted).mp silent
        rw [cutsFrom_plain _ _ quoted line block inside]
        exact onward silent

theorem Cut.Settled.cuts_eq {cut : Cut} (settled : cut.Settled) : cuts cut.terminator cut.text = [cut] := by
  have given : cut.text.isEmpty = false := List.isEmpty_eq_false_iff.mpr settled.given
  have plain := Directive.newTerminator?_eq_none_iff.mpr settled.plain
  rw [cuts, cutsFrom_quiet settled.quiet, List.reverse_nil, List.nil_append, settled.trimmed.trimChars_eq,
    cutOf, given, plain]
  rfl

theorem quiet_front {quote : Option Char} {front rest : List Char}
    (silent : quiet terminator quote (front ++ rest) = true) : quiet terminator quote front = true := by
  induction front generalizing quote with
  | nil => rfl
  | cons c front ih =>
    have shorter {pattern : List Char} (apart : pattern.isPrefixOf (c :: (front ++ rest)) = false) :
        pattern.isPrefixOf (c :: front) = false := by
      rw [← Bool.not_eq_true, List.isPrefixOf_iff_prefix] at apart ⊢
      exact fun here => apart (here.trans (List.prefix_append (c :: front) rest))
    rw [List.cons_append] at silent
    cases quote with
    | some mark => exact ih silent
    | none =>
      cases quoted : isQuote c with
      | true =>
        simp only [quiet, quoted, if_true] at silent ⊢
        exact ih silent
      | false =>
        obtain ⟨line, block, inside, silent⟩ := (quiet_plain quoted).mp silent
        exact (quiet_plain quoted).mpr ⟨shorter line, shorter block, shorter inside, ih silent⟩

theorem quiet_after_blanks {blanks cs : List Char} (blank : ∀ c ∈ blanks, Text.isBlank c = true)
    (silent : quiet terminator none (blanks ++ cs) = true) : quiet terminator none cs = true := by
  induction blanks with
  | nil => exact silent
  | cons c blanks ih =>
    have unquoted : isQuote c = false := by
      apply Bool.eq_false_iff.mpr
      intro quoted
      have solid := isBlank_of_isQuote quoted
      rw [blank c List.mem_cons_self] at solid
      cases solid
    apply ih (fun d member => blank d (List.mem_cons_of_mem c member))
    exact ((quiet_plain unquoted).mp silent).2.2.2

theorem quiet_trimChars {cs : List Char} (silent : quiet terminator none cs = true) :
    quiet terminator none (Text.trimChars cs) = true := by
  obtain ⟨blanks, blank, split⟩ := Text.trimStart_split cs
  rw [split] at silent
  obtain ⟨rest, same⟩ := Text.trimEnd_front (Text.trimStart cs)
  have start := quiet_after_blanks blank silent
  rw [← same] at start
  exact quiet_front start

end Quiet

section Front

/-- How far reading changes the text before the end of a statement: it shows nothing, and what is read
without white space stands in the text as well. -/
structure ReadsAs (terminator : List Char) (quote : Option Char) (cs kept : List Char) : Prop where
  quiet : quiet terminator quote kept = true
  copied : ∀ word : List Char, word.any Text.isBlank = false → word <+: kept → word <+: cs

structure Settable (terminator : List Char) : Prop where
  given : terminator ≠ []
  solid : terminator.any Text.isBlank = false

theorem Settable.after (settable : Settable terminator) (statement : List Char) :
    Settable (terminatorAfter terminator statement) := by
  rw [terminatorAfter]
  cases found : newTerminator? statement with
  | none => exact settable
  | some term =>
    obtain ⟨_, _, checked⟩ := Option.bind_eq_some_iff.mp found
    split at checked
    · cases checked
    · next allowed =>
      cases checked
      rw [Bool.or_eq_true, not_or, List.isEmpty_iff, Bool.not_eq_true] at allowed
      exact ⟨allowed.1, allowed.2⟩

private theorem eq_nil_of_blank_head {word cs : List Char} (solid : word.any Text.isBlank = false)
    (front : word <+: cs) (start : ∀ c ∈ cs.head?, Text.isBlank c = true) : word = [] := by
  cases word with
  | nil => rfl
  | cons c word =>
    obtain ⟨rest, rfl⟩ := front
    rw [List.any_cons, start c rfl] at solid
    cases solid

namespace ReadsAs

variable {quote : Option Char} {cs kept rest : List Char} {c : Char}

theorem nothing (terminator : List Char) (quote : Option Char) (cs : List Char) :
    ReadsAs terminator quote cs [] where
  quiet := rfl
  copied word _ front := by
    rw [List.prefix_nil.mp front]
    exact List.nil_prefix

private theorem copied_cons (reads : ReadsAs terminator quote rest kept) (word : List Char)
    (solid : word.any Text.isBlank = false) (front : word <+: c :: kept) : word <+: c :: rest := by
  cases word with
  | nil => exact List.nil_prefix
  | cons d word =>
    rw [List.any_cons, Bool.or_eq_false_iff] at solid
    obtain ⟨rfl, more⟩ := List.cons_prefix_cons.mp front
    exact List.cons_prefix_cons.mpr ⟨rfl, reads.copied word solid.2 more⟩

theorem quoted {mark : Char}
    (reads : ReadsAs terminator (if c == mark then none else some mark) rest kept) :
    ReadsAs terminator (some mark) (c :: rest) (c :: kept) where
  quiet := reads.quiet
  copied := reads.copied_cons

theorem opened (quote : isQuote c = true) (reads : ReadsAs terminator (some c) rest kept) :
    ReadsAs terminator none (c :: rest) (c :: kept) where
  quiet := by simpa [Script.quiet, quote] using reads.quiet
  copied := reads.copied_cons

/-- A character that starts nothing in the text starts nothing in what is read of it. -/
theorem plain (settable : Settable terminator) (unquoted : isQuote c = false)
    (line : ['-', '-'].isPrefixOf (c :: rest) = false) (block : ['/', '*'].isPrefixOf (c :: rest) = false)
    (inside : terminator.isPrefixOf (c :: rest) = false) (reads : ReadsAs terminator none rest kept) :
    ReadsAs terminator none (c :: rest) (c :: kept) where
  quiet := by
    have apart {word : List Char} (solid : word.any Text.isBlank = false)
        (apart : word.isPrefixOf (c :: rest) = false) : word.isPrefixOf (c :: kept) = false := by
      rw [← Bool.not_eq_true, List.isPrefixOf_iff_prefix] at apart ⊢
      exact fun front => apart (reads.copied_cons word solid front)
    exact (quiet_plain unquoted).mpr
      ⟨apart (by decide) line, apart (by decide) block, apart settable.solid inside, reads.quiet⟩
  copied := reads.copied_cons

/-- White space for a block comment. -/
theorem spaced (settable : Settable terminator) (reads : ReadsAs terminator none rest kept) :
    ReadsAs terminator none cs (' ' :: kept) where
  quiet := by
    have inside : terminator.isPrefixOf (' ' :: kept) = false := by
      rw [← Bool.not_eq_true, List.isPrefixOf_iff_prefix]
      intro front
      apply settable.given
      apply eq_nil_of_blank_head settable.solid front
      intro c head
      cases head
      rfl
    exact (quiet_plain (by decide)).mpr ⟨rfl, rfl, inside, reads.quiet⟩
  copied word solid front := by
    have empty : word = [] := by
      apply eq_nil_of_blank_head solid front
      intro c head
      cases head
      rfl
    rw [empty]
    exact List.nil_prefix

/-- The end of its line for a line comment. -/
theorem lined (reads : ReadsAs terminator none (dropLine rest) kept) : ReadsAs terminator none cs kept where
  quiet := reads.quiet
  copied word solid front := by
    have empty : word = [] := by
      apply eq_nil_of_blank_head solid (reads.copied word solid front)
      intro c head
      have stop := List.head?_dropWhile_not (· != '\n') rest
      rw [← dropLine, Option.mem_def.mp head] at stop
      have ended : c = '\n' := by simpa using stop
      rw [ended]
      rfl
    rw [empty]
    exact List.nil_prefix

end ReadsAs

/-- The cuts `found` of a text start with its first statement, and those of what follows its terminator
come after it. -/
def Fronted (terminator : List Char) (quote : Option Char) (read cs : List Char) (found : List Cut) : Prop :=
  ∃ kept after, ReadsAs terminator quote cs kept ∧ (∀ rest ∈ after, rest.length < cs.length) ∧
    found = cutOf terminator (Text.trimChars (read.reverse ++ kept)) ++
      Option.elim after [] (cuts (terminatorAfter terminator (Text.trimChars (read.reverse ++ kept))))

private theorem Fronted.step {quote next : Option Char} {read cs rest : List Char} {found : List Cut} (added : List Char)
    (fronted : Fronted terminator next (added.reverse ++ read) rest found) (shorter : rest.length ≤ cs.length)
    (reads : ∀ kept, ReadsAs terminator next rest kept → ReadsAs terminator quote cs (added ++ kept)) :
    Fronted terminator quote read cs found := by
  obtain ⟨kept, after, inside, less, same⟩ := fronted
  refine ⟨added ++ kept, after, reads kept inside, fun tail member => ?_, ?_⟩
  · exact Nat.lt_of_lt_of_le (less tail member) shorter
  · rw [List.reverse_append, List.reverse_reverse, List.append_assoc] at same
    exact same

theorem fronted_cutsFrom (settable : Settable terminator) (quote : Option Char) (read cs : List Char) :
    Fronted terminator quote read cs (cutsFrom terminator quote read cs) := by
  fun_induction cutsFrom terminator quote read cs with
  | case1 terminator quote read =>
    exact ⟨[], none, .nothing _ _ _, by simp, by simp⟩
  | case2 terminator read c rest mark ih =>
    apply Fronted.step [c] (ih settable) (Nat.le_succ _)
    exact fun kept reads => reads.quoted
  | case3 terminator read c rest quote ih =>
    apply Fronted.step [c] (ih settable) (Nat.le_succ _)
    exact fun kept reads => reads.opened quote
  | case4 terminator read c rest _ line ih =>
    apply Fronted.step [] (ih settable) (Nat.le_trans (dropLine_length rest) (Nat.le_succ _))
    exact fun kept reads => reads.lined
  | case5 terminator read c rest _ _ block ih =>
    have shorter : (afterBlock (rest.drop 1)).length ≤ (c :: rest).length := by
      have := afterBlock_length (rest.drop 1)
      simp only [List.length_drop, List.length_cons] at *
      omega
    apply Fronted.step [' '] (ih settable) shorter
    exact fun kept reads => reads.spaced settable
  | case6 terminator read c rest _ _ _ here statement ih =>
    refine ⟨[], some (rest.drop (terminator.length - 1)), .nothing _ _ _, fun tail member => ?_, ?_⟩
    · cases member
      simp only [List.length_drop, List.length_cons]
      omega
    · rw [List.append_nil, Option.elim_some]
      rfl
  | case7 terminator read c rest quote line block inside ih =>
    rw [Bool.not_eq_true] at quote line block inside
    apply Fronted.step [c] (ih settable) (Nat.le_succ _)
    exact fun kept reads => reads.plain settable quote line block inside

end Front

/-- Every statement of a text stands for itself. -/
theorem settled_of_mem_cuts (settable : Settable terminator) (cs : List Char) :
    ∀ cut ∈ cuts terminator cs, cut.Settled := by
  induction short : cs.length using Nat.strongRecOn generalizing terminator cs with
  | _ n ih =>
    subst short
    intro cut member
    obtain ⟨kept, after, reads, shorter, same⟩ := fronted_cutsFrom settable none [] cs
    rw [cuts, same, List.reverse_nil, List.nil_append, List.mem_append] at member
    rcases member with first | later
    · rw [cutOf] at first
      split at first
      · cases first
      · next kind =>
        obtain rfl := List.mem_singleton.mp first
        rw [Bool.or_eq_true, not_or, List.isEmpty_iff, Bool.not_eq_true, Option.isSome_eq_false_iff,
          Option.isNone_iff_eq_none] at kind
        exact {
          given := kind.1
          trimmed := Text.trimmed_trimChars kept
          plain := Directive.newTerminator?_eq_none_iff.mp kind.2
          quiet := quiet_trimChars reads.quiet }
    · cases after with
      | none => cases later
      | some rest => exact ih rest.length (shorter rest rfl) (settable.after _) rest rfl cut later

/-- Cutting is stable: under the terminator that was in force, each statement of a batch is cut again as
the one statement that it is. It is given, trimmed and no directive, and outside quotes it shows neither a
comment nor that terminator. -/
theorem cuts_again (batch : String) : ∀ cut ∈ cuts [';'] batch.toList,
    String.ofList cut.text ∈ splitStatements batch ∧ cuts cut.terminator cut.text = [cut] ∧ cut.Settled := by
  intro cut member
  have settled := settled_of_mem_cuts ⟨by decide, by decide⟩ batch.toList cut member
  exact ⟨List.mem_map_of_mem member, settled.cuts_eq, settled⟩

/-- Comments stand between the halves of a terminator and of a comment's opening. -/
theorem cuts_again_halves :
    let batch := "SET TERM ^^;\nA ^/* x */^ B /-- y\n* '^^'^^"
    let cut : Cut := ⟨"^^".toList, "A ^ ^ B /\n* '^^'".toList⟩
    cut ∈ cuts [';'] batch.toList ∧ String.ofList cut.text ∈ splitStatements batch ∧
      cuts cut.terminator cut.text = [cut] ∧ cut.Settled := by
  intro batch cut
  have found : cuts [';'] batch.toList = [cut] := by decide +kernel
  have member : cut ∈ cuts [';'] batch.toList := by
    rw [found]
    exact List.mem_singleton_self cut
  exact ⟨member, cuts_again batch cut member⟩

end SchemaSync.Script
