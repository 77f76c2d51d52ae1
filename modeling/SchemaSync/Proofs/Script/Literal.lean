import SchemaSync.Proofs.Text.LineFeed
import SchemaSync.Script.Comment
import SchemaSync.Text.WordChar

/-! Texts whose literals are all closed, and what holds at every place outside the literals of such
a text. Where no place opens a comment, reading the text without comments changes nothing. -/

namespace SchemaSync.Script

open Text

/-- The rest of a literal after its opening apostrophe. -/
inductive LiteralRest : List Char → Prop
  | close : LiteralRest ['\'']
  | doubled {body : List Char} : LiteralRest body → LiteralRest ('\'' :: '\'' :: body)
  | plain {c : Char} {body : List Char} : c ≠ '\'' → LiteralRest body → LiteralRest (c :: body)

/-- Whether a text closes every literal. `quoted` tells whether it starts inside one. -/
def closed (quoted : Bool) (cs : List Char) : Bool :=
  match cs with
  | [] => !quoted
  | c :: rest => closed (quoted != (c == '\'')) rest

/-- Whether a test holds at every place outside literals. The test sees the text from that place on
and whether a word reaches up to it. -/
def outside (test : Bool → List Char → Bool) (quoted inWord : Bool) (cs : List Char) : Bool :=
  match cs with
  | [] => true
  | c :: rest => (quoted || test inWord (c :: rest)) &&
      outside test (quoted != (c == '\'')) (!quoted && isWordChar c) rest

theorem closed_quote (quoted : Bool) (rest : List Char) :
    closed quoted ('\'' :: rest) = closed (!quoted) rest := by
  rw [closed, beq_self_eq_true, Bool.bne_true]

theorem closed_plain {c : Char} (plain : c ≠ '\'') (quoted : Bool) (rest : List Char) :
    closed quoted (c :: rest) = closed quoted rest := by
  rw [closed, beq_eq_false_iff_ne.mpr plain, Bool.bne_false]

theorem closed_literal {body : List Char} (literal : LiteralRest body) (after : List Char) :
    closed true (body ++ after) = closed false after := by
  induction literal with
  | close => exact closed_quote true after
  | doubled _ ih =>
    rw [List.cons_append, List.cons_append, closed_quote, closed_quote]
    exact ih
  | plain other _ ih => rw [List.cons_append, closed_plain other, ih]

theorem closeLiteral?_append {body after : List Char} (literal : LiteralRest body)
    (apart : after.head? ≠ some '\'') : closeLiteral? (body ++ after) = some (body, after) := by
  induction literal with
  | close =>
    rw [List.cons_append, List.nil_append, closeLiteral?, if_pos (beq_self_eq_true _)]
    rintro rest - rfl
    exact apart rfl
  | doubled _ ih => rw [List.cons_append, List.cons_append, closeLiteral?, ih]
  | plain other _ ih =>
    rw [List.cons_append, closeLiteral?, if_neg (by simpa using other), ih, Option.map_some]
    exact fun _ same => absurd same other

theorem LiteralRest.last {body : List Char} (literal : LiteralRest body) :
    body.getLast? = some '\'' := by
  induction literal with
  | close => rfl
  | doubled _ ih => rw [List.getLast?_cons_cons, List.getLast?_cons, ih]; rfl
  | plain _ _ ih => rw [List.getLast?_cons, ih]; rfl

theorem closeLiteral?_eq_none_iff {cs : List Char} : closeLiteral? cs = none ↔ '\'' ∉ cs := by
  fun_induction closeLiteral? cs with
  | case1 => simp
  | case2 rest body after found => simp
  | case3 rest none ih => simp
  | case4 c rest _ closing => simp [beq_iff_eq.mp closing]
  | case5 c rest _ opening ih =>
    have other : '\'' ≠ c := fun same => opening (beq_iff_eq.mpr same.symm)
    rw [Option.map_eq_none_iff, ih, List.mem_cons, not_or, and_iff_right other]

/-- The first apostrophe that stands alone closes a literal, and so does the first of a pair with none after it. -/
theorem closeLiteral?_eq_some_iff {cs body after : List Char} : closeLiteral? cs = some (body, after) ↔
    cs = body ++ after ∧ LiteralRest body ∧ ∀ rest, after = '\'' :: rest → '\'' ∉ rest := by
  constructor
  · intro closes
    fun_induction closeLiteral? cs generalizing body after with
    | case1 => cases closes
    | case2 rest inner last found ih =>
      cases closes
      obtain ⟨rfl, literal, apart⟩ := ih found
      exact ⟨rfl, literal.doubled, apart⟩
    | case3 rest none _ =>
      cases closes
      refine ⟨rfl, .close, ?_⟩
      rintro more ⟨⟩
      exact closeLiteral?_eq_none_iff.mp none
    | case4 c rest single closing =>
      cases closes
      rw [beq_iff_eq.mp closing]
      exact ⟨rfl, .close, fun more same => absurd same (single more (beq_iff_eq.mp closing))⟩
    | case5 c rest _ opening ih =>
      obtain ⟨⟨inner, last⟩, found, same⟩ := Option.map_eq_some_iff.mp closes
      cases same
      obtain ⟨rfl, literal, apart⟩ := ih found
      exact ⟨rfl, literal.plain fun same => opening (beq_iff_eq.mpr same), apart⟩
  · rintro ⟨rfl, literal, apart⟩
    by_cases pair : after.head? = some '\''
    · obtain ⟨rest, rfl⟩ := List.head?_eq_some_iff.mp pair
      have none := closeLiteral?_eq_none_iff.mpr (apart rest rfl)
      induction literal with
      | close => rw [List.singleton_append, closeLiteral?, none]
      | doubled _ ih => rw [List.cons_append, List.cons_append, closeLiteral?, ih]
      | plain other _ ih =>
        rw [List.cons_append, closeLiteral?, if_neg (by simpa using other), ih, Option.map_some]
        exact fun _ same => absurd same other
    · exact closeLiteral?_append literal pair

/-- A text that closes the literal it starts in has the rest of that literal at its front. -/
theorem literalRest_of_closed {cs : List Char} (whole : closed true cs = true) :
    ∃ body after, cs = body ++ after ∧ LiteralRest body ∧ after.head? ≠ some '\'' := by
  fun_induction closeLiteral? cs with
  | case1 => cases whole
  | case2 rest body after found ih =>
    rw [closed_quote, closed_quote] at whole
    obtain ⟨body, after, rfl, literal, apart⟩ := ih whole
    exact ⟨'\'' :: '\'' :: body, after, rfl, literal.doubled, apart⟩
  | case3 rest none ih =>
    rw [closed_quote, closed_quote] at whole
    obtain ⟨body, after, rfl, literal, apart⟩ := ih whole
    rw [closeLiteral?_append literal apart] at none
    cases none
  | case4 c rest single closing =>
    obtain rfl := beq_iff_eq.mp closing
    refine ⟨['\''], rest, rfl, .close, fun head => ?_⟩
    obtain ⟨more, rfl⟩ := List.head?_eq_some_iff.mp head
    exact single more rfl rfl
  | case5 c rest single opening ih =>
    have other : c ≠ '\'' := fun same => opening (beq_iff_eq.mpr same)
    rw [closed_plain other] at whole
    obtain ⟨body, after, rfl, literal, apart⟩ := ih whole
    exact ⟨c :: body, after, rfl, literal.plain other, apart⟩

/-- Induction along a text that closes its literals, a literal at a time. -/
theorem closed_induct {motive : List Char → Prop} (nil : motive [])
    (plain : ∀ c rest, c ≠ '\'' → closed false rest = true → motive rest → motive (c :: rest))
    (literal : ∀ body after, LiteralRest body → after.head? ≠ some '\'' → closed false after = true →
      motive after → motive ('\'' :: (body ++ after)))
    (cs : List Char) (whole : closed false cs = true) : motive cs := by
  induction short : cs.length using Nat.strongRecOn generalizing cs with
  | _ n ih =>
    subst short
    cases cs with
    | nil => exact nil
    | cons c rest =>
      by_cases quote : c = '\''
      · subst quote
        rw [closed_quote] at whole
        obtain ⟨body, after, rfl, quoted, apart⟩ := literalRest_of_closed whole
        rw [Bool.not_false, closed_literal quoted] at whole
        refine literal body after quoted apart whole (ih _ ?_ after whole rfl)
        simp only [List.length_cons, List.length_append]
        omega
      · rw [closed_plain quote] at whole
        exact plain c rest quote whole (ih _ (by simp) rest whole rfl)

theorem closed_append {front : List Char} {quoted : Bool} (whole : closed quoted front = true)
    (rest : List Char) : closed quoted (front ++ rest) = closed false rest := by
  induction front generalizing quoted with
  | nil =>
    cases quoted with
    | false => rfl
    | true => cases whole
  | cons c front ih =>
    rw [closed] at whole
    rw [List.cons_append, closed, ih whole]

theorem closed_withLineFeeds (quoted : Bool) (cs : List Char) :
    closed quoted (withLineFeeds cs) = closed quoted cs := by
  refine lineFeeds_induct (motive := fun cs written => ∀ quoted, closed quoted written = closed quoted cs)
    (fun _ => rfl) ?_ ?_ ?_ cs quoted
  · intro c rest _ ih quoted
    rw [closed, closed, ih]
  · intro rest _ ih quoted
    rw [closed_plain (by decide), closed_plain (by decide), ih]
  · intro rest ih quoted
    rw [closed_plain (by decide), closed_plain (by decide), closed_plain (by decide), ih]

section Outside

variable {test : Bool → List Char → Bool}

theorem outside_plain {c : Char} (plain : c ≠ '\'') (inWord : Bool) (rest : List Char) :
    outside test false inWord (c :: rest) =
      (test inWord (c :: rest) && outside test false (isWordChar c) rest) := by
  rw [outside, beq_eq_false_iff_ne.mpr plain]
  rfl

private theorem outside_inside {c : Char} (inWord : Bool) (rest : List Char) :
    outside test true inWord (c :: rest) = outside test (c != '\'') false rest := by
  rw [outside, Bool.true_or, Bool.true_and, Bool.not_true, Bool.false_and, Bool.true_bne]
  rfl

private theorem outside_body (quiet : ∀ inWord rest, test inWord ('\'' :: rest) = true) {body : List Char}
    (literal : LiteralRest body) (inWord : Bool) (after : List Char) :
    outside test true inWord (body ++ after) = outside test false false after := by
  induction literal generalizing inWord with
  | close => exact outside_inside inWord after
  | doubled _ ih =>
    rw [List.cons_append, List.cons_append, outside_inside]
    show (test false _ && outside test true false _) = _
    rw [quiet, Bool.true_and, ih]
  | plain other _ ih =>
    rw [List.cons_append, outside_inside, bne_iff_ne.mpr other, ih]

theorem outside_literal (quiet : ∀ inWord rest, test inWord ('\'' :: rest) = true) {body : List Char}
    (literal : LiteralRest body) (inWord : Bool) (after : List Char) :
    outside test false inWord ('\'' :: (body ++ after)) = outside test false false after := by
  rw [outside, quiet, Bool.or_true, Bool.true_and]
  exact outside_body quiet literal _ after

/-- A test that a longer text does not make false holds outside the literals of two texts together.
-/
theorem outside_append {rest : List Char}
    (stays : ∀ inWord cs, cs ≠ [] → test inWord cs = true → test inWord (cs ++ rest) = true)
    (after : ∀ inWord, outside test false inWord rest = true) {front : List Char} {quoted inWord : Bool}
    (whole : closed quoted front = true) (holds : outside test quoted inWord front = true) :
    outside test quoted inWord (front ++ rest) = true := by
  induction front generalizing quoted inWord with
  | nil =>
    cases quoted with
    | false => exact after inWord
    | true => cases whole
  | cons c front ih =>
    rw [closed] at whole
    rw [outside, Bool.and_eq_true, Bool.or_eq_true] at holds
    rw [List.cons_append, outside, Bool.and_eq_true, Bool.or_eq_true]
    refine ⟨holds.1.imp_right fun here => ?_, ih whole holds.2⟩
    exact stays inWord (c :: front) (List.cons_ne_nil _ _) here

theorem outside_withLineFeeds (same : ∀ inWord cs, test inWord (withLineFeeds cs) = test inWord cs)
    {quoted inWord : Bool} (cs : List Char) (holds : outside test quoted inWord cs = true) :
    outside test quoted inWord (withLineFeeds cs) = true := by
  refine lineFeeds_induct (motive := fun cs written => ∀ quoted inWord,
    outside test quoted inWord cs = true → outside test quoted inWord written = true)
    (fun _ _ holds => holds) ?_ ?_ ?_ cs quoted inWord holds
  · intro c rest other ih quoted inWord holds
    rw [outside, Bool.and_eq_true] at holds ⊢
    rw [← withLineFeeds_cons other, same]
    exact ⟨holds.1, ih _ _ holds.2⟩
  · intro rest alone ih quoted inWord holds
    rw [outside, Bool.and_eq_true] at holds ⊢
    rw [← withLineFeeds_single alone, same]
    exact ⟨holds.1, ih _ _ holds.2⟩
  · intro rest ih quoted inWord holds
    rw [outside, outside, Bool.and_eq_true, Bool.and_eq_true] at holds
    rw [outside, Bool.and_eq_true]
    refine ⟨?_, ?_⟩
    · rw [show '\n' :: withLineFeeds rest = withLineFeeds ('\r' :: '\n' :: rest) from rfl, same]
      exact holds.1
    · have later := ih _ _ holds.2.2
      cases quoted <;> exact later

end Outside

section Bare

/-- Whether a comment starts at the front of a text. -/
def opensComment (cs : List Char) : Bool :=
  cs.take 2 == ['-', '-'] || cs.take 2 == ['/', '*']

structure Bare (cs : List Char) : Prop where
  closed : closed false cs = true
  plain : outside (fun _ cs => !opensComment cs) false false cs = true

theorem outside_inWord {test : List Char → Bool} (quoted inWord : Bool) (cs : List Char) :
    outside (fun _ cs => test cs) quoted inWord cs = outside (fun _ cs => test cs) quoted false cs := by
  cases cs with
  | nil => rfl
  | cons c rest =>
    rw [outside, outside]

theorem opensComment_append {cs rest : List Char} (start : cs ≠ [])
    (joint : ∀ c ∈ rest.head?, c ≠ '-' ∧ c ≠ '*') : opensComment (cs ++ rest) = opensComment cs := by
  match cs with
  | [c] =>
    cases rest with
    | nil => rfl
    | cons d rest =>
      obtain ⟨minus, star⟩ := joint d rfl
      simp [opensComment, minus, star]
  | c :: d :: cs => simp [opensComment]

theorem Bare.append {front rest : List Char} (bare : Bare front) (more : Bare rest)
    (joint : ∀ c ∈ rest.head?, c ≠ '-' ∧ c ≠ '*') : Bare (front ++ rest) where
  closed := (closed_append bare.closed rest).trans more.closed
  plain := by
    refine outside_append (fun _ cs start here => ?_) (fun inWord => ?_) bare.closed bare.plain
    · rwa [opensComment_append start joint]
    · rw [outside_inWord]
      exact more.plain

theorem bare_nil : Bare [] :=
  ⟨rfl, rfl⟩

theorem Bare.cons {c : Char} {rest : List Char} (bare : Bare rest) (quote : c ≠ '\'')
    (opens : opensComment (c :: rest) = false) : Bare (c :: rest) where
  closed := (closed_plain quote false rest).trans bare.closed
  plain := by
    rw [outside_plain quote, outside_inWord, bare.plain, opens]
    rfl

/-- Text in which no apostrophe, hyphen or slash stands can be put before a bare one. -/
theorem Bare.prepend {front rest : List Char} (bare : Bare rest)
    (safe : front.all (fun c => c != '\'' && c != '-' && c != '/') = true) : Bare (front ++ rest) := by
  induction front with
  | nil => exact bare
  | cons c front ih =>
    rw [List.all_cons, Bool.and_eq_true, Bool.and_eq_true, Bool.and_eq_true] at safe
    obtain ⟨⟨⟨quote, minus⟩, slash⟩, rest⟩ := safe
    refine (ih rest).cons (bne_iff_ne.mp quote) ?_
    simp [opensComment, bne_iff_ne.mp minus, bne_iff_ne.mp slash]

theorem frontPiece_plain {c : Char} {rest : List Char} (quote : c ≠ '\'')
    (opens : opensComment (c :: rest) = false) : frontPiece c rest = (.plain c, rest) := by
  unfold frontPiece
  split
  · exact absurd rfl quote
  · simp [opensComment] at opens
  · simp [opensComment] at opens
  · rfl

theorem frontPiece_literal {body after : List Char} (literal : LiteralRest body)
    (apart : after.head? ≠ some '\'') :
    frontPiece '\'' (body ++ after) = (.literal ('\'' :: body), after) := by
  rw [frontPiece, closeLiteral?_append literal apart]

theorem Bare.kept_eq {cs : List Char} (bare : Bare cs) : (pieces cs).flatMap Piece.kept = cs := by
  refine closed_induct (motive := fun cs => outside (fun _ cs => !opensComment cs) false false cs = true →
    (pieces cs).flatMap Piece.kept = cs) (fun _ => ?_) ?_ ?_ cs bare.closed bare.plain
  · rw [pieces, List.flatMap_nil]
  · intro c rest quote _ ih plain
    rw [outside_plain quote, outside_inWord, Bool.and_eq_true, Bool.not_eq_true'] at plain
    rw [pieces, frontPiece_plain quote plain.1, List.flatMap_cons, ih plain.2]
    rfl
  · intro body after literal apart _ ih plain
    rw [outside_literal (fun _ _ => rfl) literal] at plain
    rw [pieces, frontPiece_literal literal apart, List.flatMap_cons, ih plain]
    rfl

theorem Bare.stripCommentChars_eq {cs : List Char} (bare : Bare cs) (trimmed : Trimmed cs) :
    stripCommentChars cs = cs := by
  rw [stripCommentChars, bare.kept_eq, trimmed.trimChars_eq]

theorem opensComment_withLineFeeds (cs : List Char) : opensComment (withLineFeeds cs) = opensComment cs := by
  refine lineFeeds_induct (motive := fun cs written => opensComment written = opensComment cs) rfl
    ?_ (fun rest _ _ => rfl) (fun rest _ => rfl) cs
  intro c rest _ _
  refine lineFeeds_induct (motive := fun rest written => opensComment (c :: written) = opensComment (c :: rest))
    rfl ?_ ?_ ?_ rest
  · simp [opensComment]
  · simp [opensComment]
  · simp [opensComment]

theorem Bare.withLineFeeds {cs : List Char} (bare : Bare cs) : Bare (withLineFeeds cs) where
  closed := (closed_withLineFeeds false cs).trans bare.closed
  plain := outside_withLineFeeds (fun _ cs => congrArg (!·) (opensComment_withLineFeeds cs)) cs bare.plain

end Bare

end SchemaSync.Script
