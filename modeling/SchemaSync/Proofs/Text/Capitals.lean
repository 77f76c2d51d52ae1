import SchemaSync.Proofs.Text.WordChar
import SchemaSync.Text.Digit

/-! Texts with their ASCII letters in capitals. White space, words, digits and marks stand in such a text
where they stand in the text itself, so that trimming, cutting and reading numbers go on as before. -/

namespace SchemaSync.Text

def capitals (cs : List Char) : List Char :=
  cs.map Char.toUpper

@[simp] theorem capitals_nil : capitals [] = [] :=
  rfl

@[simp] theorem capitals_cons (c : Char) (cs : List Char) : capitals (c :: cs) = c.toUpper :: capitals cs :=
  rfl

theorem capitals_append (front rest : List Char) : capitals (front ++ rest) = capitals front ++ capitals rest :=
  List.map_append

theorem capitals_reverse (cs : List Char) : capitals cs.reverse = (capitals cs).reverse :=
  List.map_reverse

@[simp] theorem length_capitals (cs : List Char) : (capitals cs).length = cs.length :=
  List.length_map _

@[simp] theorem isEmpty_capitals (cs : List Char) : (capitals cs).isEmpty = cs.isEmpty :=
  List.isEmpty_map

def capitalText (s : String) : String :=
  String.ofList (capitals s.toList)

section Characters

theorem toUpper_eq_self {c : Char} (large : 128 ≤ c.toNat) : c.toUpper = c := by
  refine dif_neg fun lower => ?_
  have last : c.toNat ≤ 122 := lower.2
  omega

/-- What tells no ASCII letter from its capital tells no letter from it, all of ASCII being tried. -/
theorem view_toUpper {β : Type} [BEq β] [LawfulBEq β] (view : Char → β)
    (ascii : (List.range 128).all (fun n => view (Char.ofNat n).toUpper == view (Char.ofNat n)) = true)
    (c : Char) : view c.toUpper = view c := by
  rcases Nat.lt_or_ge c.toNat 128 with small | large
  · exact beq_iff_eq.mp (test_of_small (fun c => view c.toUpper == view c) ascii small)
  · rw [toUpper_eq_self large]

/-- What the readers of a text ask of a character. -/
structure Sight where
  isBlank : Bool
  isWordChar : Bool
  isIdentifierChar : Bool
  isNumeralSpace : Bool
  isAlpha : Bool
  digit : Option Nat
  capital : Char
  capitals : List Char
deriving DecidableEq

def sight (c : Char) : Sight where
  isBlank := isBlank c
  isWordChar := isWordChar c
  isIdentifierChar := isIdentifierChar c
  isNumeralSpace := isNumeralSpace c
  isAlpha := c.isAlpha
  digit := digitValue? c
  capital := c.toUpper
  capitals := upperChar c

theorem sight_toUpper (c : Char) : sight c.toUpper = sight c :=
  view_toUpper sight (by decide +kernel) c

@[simp] theorem isBlank_toUpper (c : Char) : isBlank c.toUpper = isBlank c :=
  congrArg Sight.isBlank (sight_toUpper c)

@[simp] theorem isWordChar_toUpper (c : Char) : isWordChar c.toUpper = isWordChar c :=
  congrArg Sight.isWordChar (sight_toUpper c)

@[simp] theorem isIdentifierChar_toUpper (c : Char) : isIdentifierChar c.toUpper = isIdentifierChar c :=
  congrArg Sight.isIdentifierChar (sight_toUpper c)

@[simp] theorem isNumeralSpace_toUpper (c : Char) : isNumeralSpace c.toUpper = isNumeralSpace c :=
  congrArg Sight.isNumeralSpace (sight_toUpper c)

theorem isAlpha_toUpper (c : Char) : c.toUpper.isAlpha = c.isAlpha :=
  congrArg Sight.isAlpha (sight_toUpper c)

@[simp] theorem digitValue?_toUpper (c : Char) : digitValue? c.toUpper = digitValue? c :=
  congrArg Sight.digit (sight_toUpper c)

@[simp] theorem toUpper_toUpper (c : Char) : c.toUpper.toUpper = c.toUpper :=
  congrArg Sight.capital (sight_toUpper c)

@[simp] theorem upperChar_toUpper (c : Char) : upperChar c.toUpper = upperChar c :=
  congrArg Sight.capitals (sight_toUpper c)

/-- No letter becomes another character, and no other character a letter. -/
theorem toUpper_eq_iff {mark : Char} (plain : mark.isAlpha = false) {c : Char} : c.toUpper = mark ↔ c = mark := by
  by_cases lower : c.val ≥ 'a'.val ∧ c.val ≤ 'z'.val
  · have small : c.isLower = true := Bool.and_eq_true_iff.mpr ⟨decide_eq_true lower.1, decide_eq_true lower.2⟩
    have letter : c.isAlpha = true := Bool.or_eq_true_iff.mpr (.inr small)
    have capital : c.toUpper.isAlpha = true := (isAlpha_toUpper c).trans letter
    have other {d : Char} (alpha : d.isAlpha = true) : d ≠ mark := by
      rintro rfl
      rw [alpha] at plain
      cases plain
    exact iff_of_false (other capital) (other letter)
  · have same : c.toUpper = c := dif_neg lower
    rw [same]

theorem toUpper_beq {mark : Char} (plain : mark.isAlpha = false) (c : Char) : (c.toUpper == mark) = (c == mark) := by
  rw [Bool.eq_iff_iff, beq_iff_eq, beq_iff_eq, toUpper_eq_iff plain]

theorem toUpper_bne {mark : Char} (plain : mark.isAlpha = false) (c : Char) : (c.toUpper != mark) = (c != mark) :=
  congrArg (!·) (toUpper_beq plain c)

/-- A text starts with a mark if its capitals do. -/
theorem capitals_eq_cons_iff {mark : Char} (plain : mark.isAlpha = false) {cs rest : List Char} :
    capitals cs = mark :: rest ↔ ∃ more, cs = mark :: more ∧ capitals more = rest := by
  rw [capitals, List.map_eq_cons_iff]
  constructor
  · rintro ⟨c, more, rfl, start, same⟩
    exact ⟨more, by rw [(toUpper_eq_iff plain).mp start], same⟩
  · rintro ⟨more, rfl, same⟩
    exact ⟨mark, more, rfl, (toUpper_eq_iff plain).mpr rfl, same⟩

theorem capitals_ne_cons {mark : Char} (plain : mark.isAlpha = false) {cs : List Char}
    (apart : ∀ rest, cs = mark :: rest → False) (rest : List Char) (same : capitals cs = mark :: rest) : False :=
  have ⟨more, start, _⟩ := (capitals_eq_cons_iff plain).mp same
  apart more start

theorem capitals_ne_pair {first second : Char} (plain : first.isAlpha = false) (bare : second.isAlpha = false)
    {c : Char} {cs : List Char} (apart : ∀ rest, c = first → cs = second :: rest → False) :
    ∀ rest, c.toUpper = first → capitals cs = second :: rest → False :=
  fun rest start => capitals_ne_cons bare (fun more => apart more ((toUpper_eq_iff plain).mp start)) rest

end Characters

section Cuts

variable {test : Char → Bool} (blind : ∀ c, test c.toUpper = test c)
include blind

theorem takeWhile_capitals (cs : List Char) : (capitals cs).takeWhile test = capitals (cs.takeWhile test) := by
  have same : test ∘ Char.toUpper = test := funext blind
  rw [capitals, List.takeWhile_map, same, capitals]

theorem dropWhile_capitals (cs : List Char) : (capitals cs).dropWhile test = capitals (cs.dropWhile test) := by
  have same : test ∘ Char.toUpper = test := funext blind
  rw [capitals, List.dropWhile_map, same, capitals]

/-- What is cut at the end of a text is cut from its capitals. -/
theorem dropEndWhile_capitals (cs : List Char) :
    ((capitals cs).reverse.dropWhile test).reverse = capitals (cs.reverse.dropWhile test).reverse := by
  rw [← capitals_reverse, dropWhile_capitals blind, capitals_reverse]

theorem all_capitals (cs : List Char) : (capitals cs).all test = cs.all test := by
  have same : test ∘ Char.toUpper = test := funext blind
  rw [capitals, List.all_map, same]

end Cuts

theorem capitals_capitals (cs : List Char) : capitals (capitals cs) = capitals cs := by
  simp [capitals]

theorem trimStart_capitals (cs : List Char) : trimStart (capitals cs) = capitals (trimStart cs) :=
  dropWhile_capitals isBlank_toUpper cs

theorem trimChars_capitals (cs : List Char) : trimChars (capitals cs) = capitals (trimChars cs) := by
  rw [trimChars, trimStart_capitals, trimEnd, dropEndWhile_capitals isBlank_toUpper]
  rfl

theorem upperChars_capitals (cs : List Char) : upperChars (capitals cs) = upperChars cs := by
  simp [upperChars, capitals, List.flatMap_map]

theorem upperChars_ascii {cs : List Char} (ascii : ∀ c ∈ cs, c.toNat < 128) : upperChars cs = capitals cs := by
  induction cs with
  | nil => rfl
  | cons c cs ih =>
    rw [List.forall_mem_cons] at ascii
    rw [upperChars, List.flatMap_cons, upperChar, if_pos ascii.1]
    exact congrArg (c.toUpper :: ·) (ih ascii.2)

theorem wordsOf_capitals (cs : List Char) : wordsOf (capitals cs) = (wordsOf cs).map capitals := by
  induction cs with
  | nil => rfl
  | cons c rest ih =>
    rw [capitals_cons, wordsOf.eq_def, wordsOf.eq_def (c :: rest)]
    dsimp only
    rw [isBlank_toUpper, ih]
    split
    · rfl
    · cases rest with
      | nil => rfl
      | cons d more =>
        rw [capitals_cons]
        dsimp only
        rw [isBlank_toUpper]
        split
        · rfl
        · cases wordsOf (d :: more) <;> rfl

theorem piecesAt_capitals {separator : Char} (plain : separator.isAlpha = false) (cs : List Char) :
    piecesAt separator (capitals cs) = (piecesAt separator cs).map capitals := by
  induction cs with
  | nil => rfl
  | cons c rest ih =>
    rw [capitals_cons, piecesAt, piecesAt, ih, toUpper_beq plain]
    cases piecesAt separator rest with
    | nil => rfl
    | cons piece pieces => cases c == separator <;> simp

theorem capitals_intercalate (separator : Char) (parts : List (List Char)) :
    capitals ([separator].intercalate parts) = [separator.toUpper].intercalate (parts.map capitals) := by
  induction parts with
  | nil => rfl
  | cons part parts ih =>
    cases parts with
    | nil => simp
    | cons next parts =>
      rw [List.map_cons] at ih
      rw [List.intercalate_cons_cons, capitals_append, capitals_append, ih, List.map_cons, List.map_cons,
        List.intercalate_cons_cons]
      rfl

/-! ## Numerals -/

theorem numeralDigits?_capitals (cs : List Char) : numeralDigits? (capitals cs) = numeralDigits? cs := by
  fun_induction numeralDigits? cs with
  | case1 => rfl
  | case2 c => rw [capitals_cons, capitals_nil, numeralDigits?, digitValue?_toUpper]
  | case3 c rest ih =>
    have joint : '_'.toUpper = '_' := by decide
    rw [capitals_cons, capitals_cons, joint, numeralDigits?, digitValue?_toUpper, ih]
  | case4 c rest tail joint ih =>
    rw [capitals_cons, numeralDigits?, digitValue?_toUpper, ih]
    · exact fun empty => tail (List.map_eq_nil_iff.mp empty)
    · exact capitals_ne_cons (by decide) joint

theorem bareNumeral_capitals (cs : List Char) : bareNumeral (capitals cs) = capitals (bareNumeral cs) := by
  rw [bareNumeral, dropWhile_capitals isNumeralSpace_toUpper, dropEndWhile_capitals isNumeralSpace_toUpper]
  rfl

theorem splitSign_capitals (numeral : List Char) :
    splitSign (capitals numeral) = ((splitSign numeral).1, capitals (splitSign numeral).2) := by
  fun_cases splitSign numeral with
  | case1 rest => rfl
  | case2 rest => rfl
  | case3 _ minus plus =>
    rw [splitSign]
    · exact capitals_ne_cons (by decide) minus
    · exact capitals_ne_cons (by decide) plus

theorem intOfChars?_capitals (cs : List Char) : intOfChars? (capitals cs) = intOfChars? cs := by
  rw [intOfChars?, intOfChars?, bareNumeral_capitals, splitSign_capitals]
  simp only [numeralDigits?_capitals]

end SchemaSync.Text
