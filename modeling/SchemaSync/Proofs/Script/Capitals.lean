import SchemaSync.Proofs.Script.Default
import SchemaSync.Proofs.Text.Capitals

/-! Readers and the capitals of a text. What is read in a text is read in its capitals, and is written in
capitals there: keywords in their place, literals and comments, and the clauses after a type. -/

namespace SchemaSync.Script

open Text

/-- Whether a reader reads the capitals of a text as it reads the text itself. `f` puts what is read in
capitals. -/
def Caseless {α : Type} (f : α → α) (read? : List Char → Option α) : Prop :=
  ∀ cs, read? (capitals cs) = (read? cs).map f

namespace Caseless

variable {α β : Type} {f : α → α} {g : β → β} {read? other? : List Char → Option α}

/-- Reading on after something has been read. What is read next may depend on how that is written. -/
theorem readOn (first : Caseless f read?) {next? later? : α → Option β}
    (next : ∀ a, later? (f a) = (next? a).map g) (cs : List Char) :
    (read? (capitals cs)).bind later? = ((read? cs).bind next?).map g := by
  rw [first]
  cases read? cs with
  | none => rfl
  | some a => exact next a

theorem bind (first : Caseless f read?) {next? : α → Option β} (next : ∀ a, next? (f a) = (next? a).map g) :
    Caseless g fun cs => (read? cs).bind next? :=
  first.readOn next

theorem or (first : Caseless f read?) (second : Caseless f other?) :
    Caseless f fun cs => (read? cs).or (other? cs) := by
  intro cs
  dsimp only
  rw [first, second]
  cases read? cs <;> rfl

theorem map (first : Caseless f read?) {part : α → β} (same : ∀ a, part (f a) = g (part a)) :
    Caseless g fun cs => (read? cs).map part := by
  intro cs
  dsimp only
  rw [first, Option.map_map, Option.map_map]
  exact congrArg (Option.map · (read? cs)) (funext same)

theorem firstMatch? (here : Caseless f read?) : Caseless f (firstMatch? read?) := by
  intro cs
  induction cs with
  | nil => exact here []
  | cons c rest ih =>
    have front := here (c :: rest)
    rw [capitals_cons] at front
    rw [capitals_cons, Script.firstMatch?, Script.firstMatch?, ih, front]
    cases read? (c :: rest) <;> rfl

theorem isSome (here : Caseless f read?) (cs : List Char) : (read? (capitals cs)).isSome = (read? cs).isSome := by
  rw [here, Option.isSome_map]

end Caseless

section Keywords

@[simp] theorem foldCase_toUpper (c : Char) : foldCase c.toUpper = foldCase c :=
  view_toUpper foldCase (by decide +kernel) c

theorem caseless_keyword (keyword : List Char) : Caseless capitals (afterKeyword? keyword) := by
  intro cs
  fun_induction afterKeyword? keyword cs with
  | case1 cs => cases cs <;> rfl
  | case2 k keyword => rfl
  | case3 k keyword c cs spelled ih => rw [capitals_cons, afterKeyword?, foldCase_toUpper, if_pos spelled, ih]
  | case4 k keyword c cs other => rw [capitals_cons, afterKeyword?, foldCase_toUpper, if_neg other]; rfl

theorem caseless_blanks : Caseless capitals afterBlanks? := by
  intro cs
  cases cs with
  | nil => rfl
  | cons c rest =>
    rw [capitals_cons, afterBlanks?, afterBlanks?, isBlank_toUpper, trimStart_capitals]
    split <;> rfl

theorem caseless_spaced (keyword : String) : Caseless capitals (afterSpaced? keyword) :=
  (caseless_keyword keyword.toList).bind caseless_blanks

theorem caseless_phrase (phrase : List String) : Caseless capitals (afterPhrase? phrase) := by
  induction phrase with
  | nil => exact fun _ => rfl
  | cons keyword phrase ih =>
    cases phrase with
    | nil => exact caseless_keyword keyword.toList
    | cons next phrase => exact (caseless_spaced keyword).bind ih

theorem caseless_spacedPhrase (phrase : List String) : Caseless capitals (afterSpacedPhrase? phrase) :=
  (caseless_phrase phrase).bind caseless_blanks

theorem startsInWord_capitals (cs : List Char) : startsInWord (capitals cs) = startsInWord cs := by
  cases cs with
  | nil => rfl
  | cons c rest => exact isWordChar_toUpper c

theorem caseless_wholePhrase (phrase : List String) (inWord : Bool) :
    Caseless capitals (afterWholePhrase? phrase inWord) := by
  intro cs
  rw [afterWholePhrase?, afterWholePhrase?, caseless_phrase phrase]
  cases inWord with
  | true => rfl
  | false =>
    cases afterPhrase? phrase cs with
    | none => rfl
    | some rest =>
      rw [Option.map_some, if_neg Bool.false_ne_true, if_neg Bool.false_ne_true, Option.filter_some,
        Option.filter_some, startsInWord_capitals]
      split <;> rfl

theorem hasWholePhrase_capitals (phrase : List String) (inWord : Bool) (cs : List Char) :
    hasWholePhrase phrase inWord (capitals cs) = hasWholePhrase phrase inWord cs := by
  induction cs generalizing inWord with
  | nil => rfl
  | cons c rest ih =>
    have front := (caseless_wholePhrase phrase inWord).isSome (c :: rest)
    rw [capitals_cons] at front
    rw [capitals_cons, hasWholePhrase, hasWholePhrase, front, isWordChar_toUpper, ih]

theorem caseless_identifier : Caseless (Prod.map capitals capitals) identifier? := by
  intro cs
  rw [identifier?, identifier?, takeWhile_capitals isIdentifierChar_toUpper,
    dropWhile_capitals isIdentifierChar_toUpper, isEmpty_capitals]
  split <;> rfl

end Keywords

section Literals

theorem capitals_quote (rest : List Char) : capitals ('\'' :: rest) = '\'' :: capitals rest :=
  rfl

theorem caseless_literal : Caseless (Prod.map capitals capitals) closeLiteral? := by
  intro cs
  fun_induction closeLiteral? cs with
  | case1 => rfl
  | case2 rest body after found ih =>
    rw [capitals_quote, capitals_quote, closeLiteral?, ih, found]
    rfl
  | case3 rest none ih =>
    rw [capitals_quote, capitals_quote, closeLiteral?, ih, none]
    rfl
  | case4 c rest single quote =>
    rw [capitals_cons, closeLiteral?, toUpper_beq (by decide), if_pos quote]
    · rfl
    · exact capitals_ne_pair (by decide) (by decide) single
  | case5 c rest single quote ih =>
    rw [capitals_cons, closeLiteral?, toUpper_beq (by decide), if_neg quote, ih]
    · cases closeLiteral? rest <;> rfl
    · exact capitals_ne_pair (by decide) (by decide) single

theorem caseless_block : Caseless capitals closeBlock? := by
  intro cs
  fun_induction closeBlock? cs with
  | case1 => rfl
  | case2 rest => rfl
  | case3 c rest open_ ih =>
    rw [capitals_cons, closeBlock?, ih]
    exact capitals_ne_pair (by decide) (by decide) open_

theorem dropLine_capitals (cs : List Char) : dropLine (capitals cs) = capitals (dropLine cs) :=
  dropWhile_capitals (toUpper_bne (by decide)) cs

/-- A piece in capitals. -/
def Piece.capitals : Piece → Piece
  | .literal text => .literal (Text.capitals text)
  | .comment => .comment
  | .plain c => .plain c.toUpper

theorem frontPiece_capitals (c : Char) (rest : List Char) :
    frontPiece c.toUpper (capitals rest) = (frontPiece c rest).map Piece.capitals capitals := by
  fun_cases frontPiece c rest with
  | case1 rest body after closed =>
    have mark : '\''.toUpper = '\'' := rfl
    rw [mark, frontPiece, caseless_literal, closed]
    rfl
  | case2 rest open_ =>
    have mark : '\''.toUpper = '\'' := rfl
    rw [mark, frontPiece, caseless_literal, open_]
    rfl
  | case3 rest after closed =>
    have marks : capitals ('*' :: rest) = '*' :: capitals rest := rfl
    have slash : '/'.toUpper = '/' := rfl
    rw [marks, slash, frontPiece, caseless_block, closed]
    rfl
  | case4 rest open_ =>
    have marks : capitals ('*' :: rest) = '*' :: capitals rest := rfl
    have slash : '/'.toUpper = '/' := rfl
    rw [marks, slash, frontPiece, caseless_block, open_]
    rfl
  | case5 rest =>
    have marks : capitals ('-' :: rest) = '-' :: capitals rest := rfl
    have hyphen : '-'.toUpper = '-' := rfl
    rw [marks, hyphen, frontPiece, dropLine_capitals]
    rfl
  | case6 c rest quote block line =>
    rw [frontPiece]
    · rfl
    · exact fun same => quote ((toUpper_eq_iff (by decide)).mp same)
    · exact capitals_ne_pair (by decide) (by decide) block
    · exact capitals_ne_pair (by decide) (by decide) line

theorem pieces_capitals (cs : List Char) : pieces (capitals cs) = (pieces cs).map Piece.capitals := by
  fun_induction pieces cs with
  | case1 => rw [capitals_nil, pieces, List.map_nil]
  | case2 c rest ih => rw [capitals_cons, pieces, frontPiece_capitals, Prod.map_fst, Prod.map_snd, ih, List.map_cons]

theorem stripCommentChars_capitals (cs : List Char) :
    stripCommentChars (capitals cs) = capitals (stripCommentChars cs) := by
  have kept (piece : Piece) : piece.capitals.kept = capitals piece.kept := by cases piece <;> rfl
  rw [stripCommentChars, stripCommentChars, pieces_capitals, ← trimChars_capitals, List.flatMap_map]
  simp only [kept]
  rw [capitals, List.map_flatMap]
  rfl

theorem emptyLiterals_capitals (cs : List Char) : emptyLiterals (capitals cs) = capitals (emptyLiterals cs) := by
  fun_induction emptyLiterals cs with
  | case1 => rw [capitals_nil, emptyLiterals]
  | case2 c rest quote body after closed ih =>
    obtain rfl := beq_iff_eq.mp quote
    rw [capitals_quote, emptyLiterals_quote, caseless_literal, closed]
    exact congrArg (['\'', '\''] ++ ·) ih
  | case3 c rest quote open_ ih =>
    obtain rfl := beq_iff_eq.mp quote
    rw [capitals_quote, emptyLiterals_quote, caseless_literal, open_]
    exact congrArg ('\'' :: ·) ih
  | case4 c rest plain ih =>
    have other : c.toUpper ≠ '\'' := fun same => plain (beq_iff_eq.mpr ((toUpper_eq_iff (by decide)).mp same))
    rw [capitals_cons, emptyLiterals_plain other, ih, capitals_cons]

end Literals

section Attributes

theorem allowsNull_capitals (cs : List Char) : allowsNull (capitals cs) = allowsNull cs := by
  rw [allowsNull, allowsNull, emptyLiterals_capitals, hasWholePhrase_capitals]

theorem stopsHere_capitals (inWord : Bool) (cs : List Char) : stopsHere inWord (capitals cs) = stopsHere inWord cs := by
  have semicolon : ((capitals cs).head? == some ';') = (cs.head? == some ';') := by
    cases cs with
    | nil => rfl
    | cons c rest => exact toUpper_beq (by decide) c
  rw [stopsHere, stopsHere, isEmpty_capitals, semicolon]
  simp only [(caseless_wholePhrase _ inWord).isSome]

theorem stopsAhead_capitals (inWord : Bool) (cs : List Char) :
    stopsAhead inWord (capitals cs) = stopsAhead inWord cs := by
  cases cs with
  | nil => rfl
  | cons c rest =>
    have here := stopsHere_capitals inWord (c :: rest)
    rw [capitals_cons] at here
    rw [capitals_cons, stopsAhead, stopsAhead, isBlank_toUpper, here, ← capitals_cons, trimStart_capitals,
      stopsHere_capitals]

-- Stated with `bind`: the equation of the definition matches on the scan and keeps a proof of what it gave, so that
-- the scan of the capitals cannot be rewritten in it.
private theorem defaultChars?_quote {started inWord : Bool} {rest : List Char}
    (goesOn : ¬(started && stopsAhead inWord ('\'' :: rest)) = true) :
    defaultChars? started inWord ('\'' :: rest) = (closeLiteral? rest).bind fun (body, after) =>
      (defaultChars? true false after).map ('\'' :: body ++ ·) := by
  rw [defaultChars?, if_neg goesOn, if_pos (by rfl)]
  split <;> next found => rw [found]; rfl

theorem caseless_default (started inWord : Bool) : Caseless capitals (defaultChars? started inWord) := by
  intro cs
  fun_induction defaultChars? started inWord cs with
  | case1 started inWord cs stops =>
    rw [defaultChars?.eq_def, stopsAhead_capitals, if_pos stops]
    rfl
  | case2 started inWord goesOn =>
    rw [capitals_nil, defaultChars?.eq_def, if_neg goesOn]
    rfl
  | case3 started inWord c rest quote body after closed goesOn ih =>
    obtain rfl := beq_iff_eq.mp quote
    rw [← stopsAhead_capitals, capitals_quote] at goesOn
    rw [capitals_quote, defaultChars?_quote goesOn, caseless_literal, closed]
    change (defaultChars? true false (capitals after)).map _ = _
    rw [ih, Option.map_map, Option.map_map]
    congr 1
    funext value
    exact congrArg ('\'' :: ·) (capitals_append body value).symm
  | case4 started inWord c rest quote open_ goesOn =>
    obtain rfl := beq_iff_eq.mp quote
    rw [← stopsAhead_capitals, capitals_quote] at goesOn
    rw [capitals_quote, defaultChars?_quote goesOn, caseless_literal, open_]
    rfl
  | case5 started inWord c rest plain goesOn ih =>
    rw [← stopsAhead_capitals, capitals_cons] at goesOn
    rw [capitals_cons, defaultChars?, if_neg goesOn, toUpper_beq (by decide), if_neg plain, isWordChar_toUpper, ih,
      Option.map_map, Option.map_map]
    rfl

theorem caseless_afterDefault : Caseless capitals defaultAfterKeyword? := by
  intro cs
  cases cs with
  | nil => rfl
  | cons c rest =>
    have second : (capitals rest).head?.any isBlank = rest.head?.any isBlank := by
      cases rest with
      | nil => rfl
      | cons d more => exact isBlank_toUpper d
    rw [capitals_cons, defaultAfterKeyword?, defaultAfterKeyword?, isBlank_toUpper, second, trimStart_capitals,
      stopsHere_capitals, caseless_default false false]
    split
    · cases defaultChars? false false (trimStart rest) with
      | none => split <;> rfl
      | some value => rfl
    · rfl

theorem caseless_findDefault (inWord : Bool) : Caseless capitals (findDefault? inWord) := by
  intro cs
  induction cs generalizing inWord with
  | nil => rfl
  | cons c rest ih =>
    have here := (caseless_keyword "DEFAULT".toList).bind caseless_afterDefault (c :: rest)
    rw [capitals_cons] at here
    dsimp only at here
    rw [capitals_cons, findDefault?, findDefault?, here, isWordChar_toUpper, ih]
    cases inWord with
    | true => rfl
    | false => exact (Option.map_or).symm

theorem dropSemicolons_capitals (cs : List Char) : dropSemicolons (capitals cs) = capitals (dropSemicolons cs) :=
  dropEndWhile_capitals (toUpper_beq (by decide)) cs

theorem caseless_declaredDefault : Caseless capitalText declaredDefault := by
  refine (caseless_findDefault false).bind fun value => ?_
  rw [trimChars_capitals, dropSemicolons_capitals, trimChars_capitals]
  dsimp only
  rw [isEmpty_capitals]
  split
  · rfl
  · rw [Option.map_some, capitalText, String.toList_ofList]

end Attributes

end SchemaSync.Script
