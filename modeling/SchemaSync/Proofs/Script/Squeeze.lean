import SchemaSync.Plan.Difference
import SchemaSync.Proofs.Script.Directive
import SchemaSync.Proofs.Script.ProcedureSource
import SchemaSync.Proofs.Text.Squeeze

/-! Spaces before other white space do not count when a definition is read. -/

namespace SchemaSync.Script

open Text

theorem unseen_squeeze : Unseen squeeze where
  letter c rest letter := squeeze_solid (isBlank_of_letter letter) rest
  other cs other c head := by
    rcases head?_squeeze cs with same | ⟨blank, _⟩
    · exact other c (same ▸ head)
    · rw [foldCase_of_blank (blank c head), isAlpha_of_blank (blank c head)]
  blank := head_squeeze
  trim := trimStart_squeeze
  word cs := by
    have apart {cs : List Char} (blank : ∀ c ∈ cs.head?, isBlank c = true) : startsInWord cs = false := by
      cases cs with
      | nil => rfl
      | cons c cs => exact isWordChar_of_blank (blank c rfl)
    rcases head?_squeeze cs with same | ⟨blank, blank'⟩
    · rw [startsInWord, same, startsInWord]
    · rw [apart blank, apart blank']

section Bare

private theorem opensComment_squeeze (c : Char) (rest : List Char) :
    opensComment (c :: squeeze rest) = opensComment (c :: rest) := by
  have apart {cs : List Char} (blank : ∀ c ∈ cs.head?, isBlank c = true) : opensComment (c :: cs) = false := by
    refine opensComment_other fun d head => ?_
    have here := blank d head
    constructor <;> (rintro rfl; cases here)
  rcases head?_squeeze rest with same | ⟨blank, blank'⟩
  · exact opensComment_head same
  · rw [apart blank, apart blank']

private theorem closed_squeeze (cs : List Char) (quoted : Bool) : closed quoted (squeeze cs) = closed quoted cs := by
  fun_induction squeeze cs generalizing quoted with
  | case1 => rfl
  | case2 c rest dropped ih =>
    simp only [Bool.and_eq_true, beq_iff_eq] at dropped
    rw [ih, dropped.1, closed_plain (by decide)]
  | case3 c rest kept ih => rw [closed, ih, closed]

private theorem outside_squeeze (cs : List Char) (quoted inWord : Bool) :
    outside (fun _ cs => !opensComment cs) quoted inWord (squeeze cs) =
      outside (fun _ cs => !opensComment cs) quoted inWord cs := by
  fun_induction squeeze cs generalizing quoted inWord with
  | case1 => rfl
  | case2 c rest dropped ih =>
    simp only [Bool.and_eq_true, beq_iff_eq] at dropped
    have space : opensComment (' ' :: rest) = false := by simp [opensComment]
    rw [ih, dropped.1, outside, space, Bool.not_false, Bool.or_true, Bool.true_and, outside_inWord]
    conv => rhs; rw [outside_inWord]
    cases quoted <;> rfl
  | case3 c rest kept ih => rw [outside, opensComment_squeeze, ih, outside]

theorem bare_squeeze_iff {cs : List Char} : Bare (squeeze cs) ↔ Bare cs := by
  have closed := closed_squeeze cs false
  have plain := outside_squeeze cs false false
  exact ⟨fun bare => ⟨closed ▸ bare.closed, plain ▸ bare.plain⟩, fun bare => ⟨closed ▸ bare.closed, plain ▸ bare.plain⟩⟩

end Bare

theorem startsDirective_squeeze (cs : List Char) (lineStart : Bool) :
    startsDirective lineStart (squeeze cs) = startsDirective lineStart cs := by
  fun_induction squeeze cs generalizing lineStart with
  | case1 => rfl
  | case2 c rest dropped ih =>
    simp only [Bool.and_eq_true, beq_iff_eq] at dropped
    obtain ⟨rfl, blank⟩ := dropped
    cases rest with
    | nil => cases blank
    | cons d rest =>
      -- The line goes on after the space, so it starts with the same words.
      have start : trimStart (' ' :: d :: rest) = trimStart (d :: rest) := rfl
      rw [ih, startsDirective, startsDirective, start]
      conv => rhs; rw [startsDirective]
      rfl
  | case3 c rest kept ih =>
    have whole : squeeze (c :: rest) = c :: squeeze rest := by
      rw [squeeze, if_neg kept]
    rw [startsDirective, ih, ← whole, trimStart_squeeze, unseen_squeeze.afterPhrase?_eq (by decide), Option.isSome_map,
      startsDirective]

theorem dropTerminator_squeeze {d : Char} (solid : isBlank d = false) (cs : List Char) :
    dropTerminator [d] (squeeze cs) = squeeze (dropTerminator [d] cs) := by
  by_cases last : cs.getLast? = some d
  · obtain ⟨front, rfl⟩ := List.getLast?_eq_some_iff.mp last
    have start : ∀ c ∈ [d].head?, isBlank c = false := by
      rintro c ⟨⟩
      exact solid
    rw [squeeze_append start, squeeze_solid solid]
    change dropTerminator [d] (squeeze front ++ [d]) = _
    rw [dropTerminator_append, dropTerminator_append, trimEnd_squeeze]
  · have other : ∀ c ∈ cs.getLast?, c ∉ [d] := fun c found same =>
      last (List.mem_singleton.mp same ▸ found)
    rw [dropTerminator_other (List.cons_ne_nil d []) (getLast?_squeeze cs ▸ other),
      dropTerminator_other (List.cons_ne_nil d []) other]

theorem afterSpaced?_squeeze {keyword : String} (letters : keyword.toList.all Char.isAlpha = true) (cs : List Char) :
    afterSpaced? keyword (squeeze cs) = (afterSpaced? keyword cs).map squeeze := by
  rw [afterSpaced?, afterSpaced?, unseen_squeeze.afterKeyword?_eq letters]
  cases afterKeyword? keyword.toList cs with
  | none => rfl
  | some rest => exact unseen_squeeze.afterBlanks?_eq rest

theorem afterSpacedPhrase?_squeeze {phrase : List String} (letters : Lettered phrase) (cs : List Char) :
    afterSpacedPhrase? phrase (squeeze cs) = (afterSpacedPhrase? phrase cs).map squeeze := by
  rw [afterSpacedPhrase?, afterSpacedPhrase?, unseen_squeeze.afterPhrase?_eq letters]
  cases afterPhrase? phrase cs with
  | none => rfl
  | some rest => exact unseen_squeeze.afterBlanks?_eq rest

theorem identifier?_squeeze (cs : List Char) :
    identifier? (squeeze cs) = (identifier? cs).map fun (name, rest) => (name, squeeze rest) := by
  have ends {cs : List Char} (stop : ∀ c ∈ cs.head?, isIdentifierChar c = false) :
      cs.takeWhile isIdentifierChar = [] ∧ cs.dropWhile isIdentifierChar = cs := by
    cases cs with
    | nil => exact ⟨rfl, rfl⟩
    | cons c cs => simp [stop c rfl]
  have front : (squeeze cs).takeWhile isIdentifierChar = cs.takeWhile isIdentifierChar ∧
      (squeeze cs).dropWhile isIdentifierChar = squeeze (cs.dropWhile isIdentifierChar) := by
    induction cs with
    | nil => exact ⟨rfl, rfl⟩
    | cons c cs ih =>
      cases inside : isIdentifierChar c with
      | true =>
        have other : c ≠ ' ' := by
          rintro rfl
          cases inside
        simp [squeeze_cons other, inside, ih]
      | false =>
        have stop : ∀ d ∈ (c :: cs).head?, isIdentifierChar d = false := by
          rintro d ⟨⟩
          exact inside
        have stop' : ∀ d ∈ (squeeze (c :: cs)).head?, isIdentifierChar d = false := by
          intro d head
          rcases head?_squeeze (c :: cs) with same | ⟨blank, _⟩
          · exact stop d (same ▸ head)
          · exact isIdentifierChar_of_blank (blank d head)
        rw [(ends stop).1, (ends stop).2, (ends stop').1, (ends stop').2]
        exact ⟨rfl, rfl⟩
  rw [identifier?, identifier?, front.1, front.2]
  dsimp only
  split <;> rfl

theorem procedureReading?_squeeze (cs : List Char) :
    procedureReading? (squeeze cs) = (procedureReading? cs).map fun (name, rest) => (name, squeeze rest) := by
  have create : "CREATE".toList.all Char.isAlpha = true := by decide
  have procedure : "PROCEDURE".toList.all Char.isAlpha = true := by decide
  simp only [procedureReading?, afterSpaced?_squeeze create, Option.bind_eq_bind]
  cases afterSpaced? "CREATE" cs with
  | none => rfl
  | some rest =>
    have start : (afterSpacedPhrase? ["OR", "ALTER"] (squeeze rest)).getD (squeeze rest) =
        squeeze ((afterSpacedPhrase? ["OR", "ALTER"] rest).getD rest) := by
      rw [afterSpacedPhrase?_squeeze (by decide)]
      cases afterSpacedPhrase? ["OR", "ALTER"] rest <;> rfl
    rw [Option.map_some, Option.bind_some, Option.bind_some, start,
      afterSpaced?_squeeze procedure]
    cases afterSpaced? "PROCEDURE" ((afterSpacedPhrase? ["OR", "ALTER"] rest).getD rest) with
    | none => rfl
    | some rest => exact identifier?_squeeze rest

theorem firstProcedure_squeeze (cs : List Char) : firstMatch? procedureReading? (squeeze cs) =
    (firstMatch? procedureReading? cs).map fun (name, rest) => (name, squeeze rest) := by
  fun_induction squeeze cs with
  | case1 => rfl
  | case2 c rest dropped ih =>
    simp only [Bool.and_eq_true, beq_iff_eq] at dropped
    have here : procedureReading? (c :: rest) = none := by
      rw [dropped.1]
      rfl
    rw [ih, firstMatch?, here, Option.none_or]
  | case3 c rest kept ih =>
    have whole : squeeze (c :: rest) = c :: squeeze rest := by
      rw [squeeze, if_neg kept]
    rw [firstMatch?, ih, ← whole, procedureReading?_squeeze, firstMatch?]
    cases procedureReading? (c :: rest) <;> rfl

/-- Sources with the same words count as the same. -/
theorem normalizeSource_congr {one two : List Char} (bareOne : Bare one) (bareTwo : Bare two)
    (trimmedOne : Trimmed one) (trimmedTwo : Trimmed two) (same : squeeze one = squeeze two) :
    normalizeSource (String.ofList one) = normalizeSource (String.ofList two) := by
  have words : wordsOf one = wordsOf two := by
    rw [← wordsOf_squeeze one, same, wordsOf_squeeze]
  rw [normalizeSource, normalizeSource, String.toList_ofList, String.toList_ofList,
    bareOne.stripCommentChars_eq trimmedOne, bareTwo.stripCommentChars_eq trimmedTwo, words]

end SchemaSync.Script
