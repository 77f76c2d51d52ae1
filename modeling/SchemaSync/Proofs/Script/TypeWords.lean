import SchemaSync.Proofs.Script.TypeEnd
import SchemaSync.Proofs.Text.Words
import SchemaSync.Schema.Object

/-! The words of a type that has been read. Whatever form of type is read, its first character is part of an
identifier, so that the type has a first word and neither it nor its canonical text is blank. -/

namespace SchemaSync

open Text

theorem isGiven_of_solid {text : String} (solid : isBlankText text = false) : isGiven (some text) = true := by
  rw [isGiven, Option.any_some, Bool.not_eq_true', ← Bool.not_eq_true, String.isEmpty_iff]
  rintro rfl
  cases solid

namespace Script

def Advances (read? : List Char → Option (List Char)) : Prop :=
  ∀ cs rest, read? cs = some rest → ∃ front, front ≠ [] ∧ cs = front ++ rest

namespace Advances

variable {first second : List Char → Option (List Char)}

theorem bind (one : Advances first) (two : Advances second) : Advances fun cs => (first cs).bind second := by
  intro cs rest read
  obtain ⟨middle, before, after⟩ := Option.bind_eq_some_iff.mp read
  obtain ⟨front, given, rfl⟩ := one cs middle before
  obtain ⟨next, _, rfl⟩ := two middle rest after
  exact ⟨front ++ next, List.append_ne_nil_of_left_ne_nil given next, (List.append_assoc ..).symm⟩

theorem or (one : Advances first) (two : Advances second) : Advances fun cs => (first cs).or (second cs) := by
  intro cs rest read
  rcases Option.or_eq_some_iff.mp read with here | ⟨_, there⟩
  · exact one cs rest here
  · exact two cs rest there

theorem keyword {keyword : List Char} (given : keyword ≠ []) : Advances (afterKeyword? keyword) := by
  intro cs rest read
  obtain ⟨word, rfl, split⟩ := afterKeyword?_eq_some read
  exact ⟨word, fun none => given (by rw [none, List.map_nil]), split⟩

theorem blanks : Advances afterBlanks? := by
  intro cs rest read
  obtain ⟨gap, apart, split⟩ := afterBlanks?_eq_some read
  exact ⟨gap, apart.1, split⟩

/-- An optional end of a keyword takes nothing, or what spells it. -/
theorem optional (keyword : String) (later : Advances second) :
    Advances fun cs => second (afterOptional keyword cs) := by
  intro cs rest read
  dsimp only at read
  rw [afterOptional] at read
  cases found : afterKeyword? keyword.toList cs with
  | none =>
    rw [found] at read
    exact later cs rest read
  | some after =>
    rw [found] at read
    obtain ⟨word, _, rfl⟩ := afterKeyword?_eq_some found
    obtain ⟨front, given, rfl⟩ := later after rest read
    exact ⟨word ++ front, List.append_ne_nil_of_right_ne_nil word given, (List.append_assoc ..).symm⟩

theorem phrase {keyword : String} {phrase : List String} (given : ∀ word ∈ keyword :: phrase, word.toList ≠ []) :
    Advances (afterPhrase? (keyword :: phrase)) := by
  induction phrase generalizing keyword with
  | nil => exact .keyword (given keyword List.mem_cons_self)
  | cons next phrase ih =>
    have spaced : Advances (afterSpaced? keyword) := bind (.keyword (given keyword List.mem_cons_self)) blanks
    exact bind spaced (ih fun word member => given word (List.mem_cons_of_mem keyword member))

theorem word : Advances afterWord? := by
  intro cs rest read
  rw [afterWord?] at read
  split at read
  · next start =>
    cases read
    refine ⟨cs.takeWhile isWordChar, fun none => ?_, List.takeWhile_append_dropWhile.symm⟩
    cases cs with
    | nil => cases start
    | cons c cs =>
      have inside : isWordChar c = true := start
      rw [List.takeWhile_cons_of_pos inside] at none
      cases none
  · cases read

theorem named : Advances fun cs => (identifier? cs).map Prod.snd := by
  intro cs rest read
  obtain ⟨⟨name, after⟩, identified, rfl⟩ := Option.map_eq_some_iff.mp read
  obtain ⟨split, named⟩ := identifier?_eq_some identified
  exact ⟨name, named.given, split⟩

theorem type : Advances afterType? := by
  have varying : Advances afterVarying? :=
    bind (.keyword (by decide)) (optional "ACTER" (bind blanks (.keyword (by decide))))
  have zoned : Advances afterZoned? :=
    bind (.keyword (by decide)) (optional "STAMP" (bind blanks
      (bind (.keyword (by decide)) (optional "OUT" (bind blanks (.phrase (by decide)))))))
  have blob : Advances afterBlob? := bind (bind (.phrase (by decide)) blanks) word
  exact or (.phrase (by decide)) (or varying (or zoned (or blob named)))

end Advances

section Words

variable {cs : List Char} {type : TypeReading}

theorem typeReading?_base (read : typeReading? cs = some type) :
    ∃ c front, type.base = c :: front ∧ isBlank c = false := by
  obtain ⟨after, words, rfl⟩ := Option.map_eq_some_iff.mp read
  obtain ⟨c, rest, split, solid⟩ := typeReading?_head read
  obtain ⟨front, given, rfl⟩ := Advances.type cs after words
  have base : (front ++ after).take ((front ++ after).length - after.length) = front := by
    rw [List.length_append, Nat.add_sub_cancel, List.take_left]
  obtain ⟨d, more, rfl⟩ := List.exists_cons_of_ne_nil given
  obtain rfl : d = c := (List.cons.inj split).1
  refine ⟨d, more, ?_, solid⟩
  dsimp only
  split <;> exact base

/-- The first word of a type is there to be looked at. -/
theorem wordsOf_base (read : typeReading? cs = some type) : wordsOf (upperChars type.base) ≠ [] := by
  obtain ⟨c, front, base, solid⟩ := typeReading?_base read
  obtain ⟨d, member, capital⟩ := exists_mem_upperChars (base ▸ List.mem_cons_self) solid
  exact wordsOf_ne_nil member capital

theorem isBlankText_base (read : typeReading? cs = some type) :
    isBlankText (String.ofList (upperChars type.base)) = false := by
  obtain ⟨c, front, base, solid⟩ := typeReading?_base read
  obtain ⟨d, member, capital⟩ := exists_mem_upperChars (base ▸ List.mem_cons_self) solid
  exact isBlankText_of_mem member capital

/-- The canonical form of a blob keeps the first word. -/
theorem canonicalWords_front {base first : List Char} {words : List (List Char)}
    (split : wordsOf (upperChars base) = first :: words) : ∃ more, canonicalWords base = first :: more := by
  rw [canonicalWords]
  split
  · next one two three found =>
    obtain rfl : first = one := (List.cons.inj (split.symm.trans found)).1
    split
    · exact ⟨_, rfl⟩
    · exact ⟨_, rfl⟩
  · exact ⟨words, split⟩

theorem isBlankText_canonicalType (read : typeReading? cs = some type) :
    isBlankText (String.ofList (canonicalType type.base type.parameters)) = false := by
  obtain ⟨first, words, split⟩ := List.exists_cons_of_ne_nil (wordsOf_base read)
  obtain ⟨more, canonical⟩ := canonicalWords_front split
  have inside : first ∈ wordsOf (upperChars type.base) := split ▸ List.mem_cons_self
  obtain ⟨c, rest, rfl⟩ := List.exists_cons_of_ne_nil (ne_nil_of_mem_wordsOf inside)
  have solid : isBlank c = false := isBlank_of_mem_wordsOf inside List.mem_cons_self
  have member : c ∈ [' '].intercalate (canonicalWords type.base) := by
    rw [canonical]
    cases more <;> simp [List.intercalate]
  refine isBlankText_of_mem (c := c) ?_ solid
  unfold canonicalType
  dsimp only
  split
  · exact member
  · split
    · exact member
    · exact List.mem_append_left _ (List.mem_append_left _ member)

end Words

end Script

end SchemaSync
