import SchemaSync.Proofs.Text.LineFeed
import SchemaSync.Text.UpperCase
import SchemaSync.Text.WordChar

/-! The characters of plain names: capitals, digits, underscores and dollar signs. Such a name is one
word without white space, and its own capital form. -/

namespace SchemaSync.Text

def isNameChar (c : Char) : Bool :=
  (65 ≤ c.toNat && c.toNat ≤ 90) || (48 ≤ c.toNat && c.toNat ≤ 57) || c == '_' || c == '$'

def IsName (cs : List Char) : Prop :=
  cs ≠ [] ∧ cs.all isNameChar = true

instance (cs : List Char) : Decidable (IsName cs) :=
  inferInstanceAs (Decidable (_ ∧ _))

/-- What every character below a limit passes, all of them being tried. -/
theorem test_of_small (test : Char → Bool) {limit : Nat}
    (holds : (List.range limit).all (fun n => test (Char.ofNat n)) = true) {c : Char}
    (small : c.toNat < limit) : test c = true := by
  rw [← Char.ofNat_toNat c]
  exact List.all_eq_true.mp holds c.toNat (List.mem_range.mpr small)

private theorem isNameChar_small {c : Char} (name : isNameChar c = true) : c.toNat < 128 := by
  simp only [isNameChar, Bool.or_eq_true, Bool.and_eq_true, decide_eq_true_eq, beq_iff_eq] at name
  rcases name with ((capital | digit) | rfl) | rfl
  · omega
  · omega
  · decide
  · decide

/-- What every plain character passes, all those in ASCII being tried. -/
theorem test_of_isNameChar (test : Char → Bool)
    (holds : (List.range 128).all (fun n => !isNameChar (Char.ofNat n) || test (Char.ofNat n)) = true)
    {c : Char} (name : isNameChar c = true) : test c = true := by
  have here : (!isNameChar c || test c) = true :=
    test_of_small (fun c => !isNameChar c || test c) holds (isNameChar_small name)
  rwa [name, Bool.not_true, Bool.false_or] at here

theorem isIdentifierChar_of_isNameChar {c : Char} (name : isNameChar c = true) :
    isIdentifierChar c = true :=
  test_of_isNameChar isIdentifierChar (by decide +kernel) name

theorem isBlank_of_isNameChar {c : Char} (name : isNameChar c = true) : isBlank c = false :=
  Bool.not_eq_true' _ ▸ test_of_isNameChar (fun c => !isBlank c) (by decide +kernel) name

theorem upperChar_of_isNameChar {c : Char} (name : isNameChar c = true) : upperChar c = [c] :=
  beq_iff_eq.mp (test_of_isNameChar (fun c => upperChar c == [c]) (by decide +kernel) name)

theorem upperChars_eq_self {cs : List Char} (same : ∀ c ∈ cs, upperChar c = [c]) : upperChars cs = cs := by
  induction cs with
  | nil => rfl
  | cons c cs ih =>
    rw [upperChars, List.flatMap_cons, same c (by simp)]
    exact congrArg (c :: ·) (ih fun d member => same d (by simp [member]))

namespace IsName

variable {cs : List Char} (name : IsName cs)
include name

theorem isNameChar {c : Char} (member : c ∈ cs) : isNameChar c = true :=
  List.all_eq_true.mp name.2 c member

theorem upperChars_eq : upperChars cs = cs :=
  upperChars_eq_self fun _ member => upperChar_of_isNameChar (name.isNameChar member)

theorem solid {c : Char} (member : c ∈ cs) : isBlank c = false :=
  isBlank_of_isNameChar (name.isNameChar member)

theorem start : ∃ c rest, cs = c :: rest ∧ Text.isNameChar c = true := by
  obtain ⟨c, rest, rfl⟩ := List.exists_cons_of_ne_nil name.1
  exact ⟨c, rest, rfl, name.isNameChar List.mem_cons_self⟩

theorem isBlankText_ofList : isBlankText (String.ofList cs) = false := by
  obtain ⟨c, rest, rfl, plain⟩ := name.start
  exact isBlankText_of_mem List.mem_cons_self (isBlank_of_isNameChar plain)

theorem trimmed : Trimmed cs :=
  ⟨fun _ head => name.solid (List.mem_of_mem_head? head),
    fun _ last => name.solid (List.mem_of_getLast? last)⟩

end IsName

private def blankPoints : List Nat :=
  [9, 10, 11, 12, 13, 28, 29, 30, 31, 32, 0x85, 0xA0, 0x1680, 0x2000, 0x2001, 0x2002, 0x2003, 0x2004,
    0x2005, 0x2006, 0x2007, 0x2008, 0x2009, 0x200A, 0x2028, 0x2029, 0x202F, 0x205F, 0x3000]

private theorem mem_blankPoints {c : Char} (blank : isBlank c = true) : c.toNat ∈ blankPoints := by
  simp only [isBlank, Bool.or_eq_true, Bool.and_eq_true, decide_eq_true_eq, beq_iff_eq] at blank
  simp only [blankPoints, List.mem_cons, List.not_mem_nil, or_false]
  omega

theorem isWordChar_of_blank {c : Char} (blank : isBlank c = true) : isWordChar c = false := by
  have solid : blankPoints.all (fun n => !isWordChar (Char.ofNat n)) = true := by decide +kernel
  have here := List.all_eq_true.mp solid c.toNat (mem_blankPoints blank)
  rwa [Char.ofNat_toNat, Bool.not_eq_true'] at here

theorem isIdentifierChar_of_blank {c : Char} (blank : isBlank c = true) : isIdentifierChar c = false := by
  rw [isIdentifierChar, isWordChar_of_blank blank, Bool.or_false, beq_eq_false_iff_ne]
  rintro rfl
  cases blank

theorem isBlank_of_isIdentifierChar {c : Char} (inside : isIdentifierChar c = true) : isBlank c = false := by
  rw [← Bool.not_eq_true]
  intro blank
  rw [isIdentifierChar_of_blank blank] at inside
  cases inside

theorem upperChar_ne_nil (c : Char) : upperChar c ≠ [] := by
  have given : expandingCapitals.all (fun entry => !entry.2.isEmpty) = true := by decide +kernel
  rw [upperChar]
  split
  · exact List.cons_ne_nil _ _
  · split
    · next points found =>
      obtain ⟨front, back, split, _⟩ := List.lookup_eq_some_iff.mp found
      have entry := List.all_eq_true.mp given (c.toNat, points) (by simp [split])
      simpa using entry
    · split <;> exact List.cons_ne_nil _ _

theorem toNat_ofNat (n : Nat) : (Char.ofNat n).toNat = n ∨ (Char.ofNat n).toNat = 0 := by
  by_cases valid : n.isValidChar
  · have plain : Char.ofNat n = Char.ofNatAux n valid := dif_pos valid
    exact .inl (plain ▸ rfl)
  · have null : Char.ofNat n = '\x00' := dif_neg valid
    exact .inr (null ▸ rfl)

/-- Characters that are no capitals of others, as the tables of capitals show. -/
theorem mem_of_upperChar {points : List Nat} (positive : points.all (0 < ·) = true)
    (ascii : (List.range 128).all (fun n => points.contains n || !points.contains (Char.ofNat n).toUpper.toNat) = true)
    (expanding : expandingCapitals.all (fun entry => entry.2.all (!points.contains ·)) = true)
    (shifted : caseRuns.all (fun run => points.all fun n =>
      decide ((n : Int) < run.first + run.shift) || decide (run.last + run.shift < (n : Int))) = true)
    {c d : Char} (member : d ∈ upperChar c) (capital : d.toNat ∈ points) : c.toNat ∈ points := by
  -- A number of no character stands for the null character, which is not among the points.
  have given {n : Nat} (inside : (Char.ofNat n).toNat ∈ points) : n ∈ points := by
    rcases toNat_ofNat n with same | null
    · exact same ▸ inside
    · rw [null] at inside
      cases of_decide_eq_true (List.all_eq_true.mp positive 0 inside)
  rw [upperChar] at member
  split at member
  · next small =>
    have here := List.all_eq_true.mp ascii c.toNat (List.mem_range.mpr small)
    rw [Char.ofNat_toNat, ← List.mem_singleton.mp member, List.contains_iff_mem.mpr capital] at here
    simpa using here
  · split at member
    · next entry found =>
      obtain ⟨front, back, split, _⟩ := List.lookup_eq_some_iff.mp found
      have apart := List.all_eq_true.mp expanding (c.toNat, entry) (by simp [split])
      obtain ⟨point, inside, rfl⟩ := List.mem_map.mp member
      have other := List.all_eq_true.mp apart point inside
      rw [List.contains_iff_mem.mpr (given capital)] at other
      cases other
    · split at member
      · next run found =>
        have apart := List.all_eq_true.mp shifted _ (List.mem_of_find?_eq_some found)
        have covers := List.find?_some found
        simp only [CaseRun.covers, Bool.and_eq_true, decide_eq_true_eq] at covers
        obtain rfl := List.mem_singleton.mp member
        have point := given capital
        have some := of_decide_eq_true (List.all_eq_true.mp positive _ point)
        have apart := List.all_eq_true.mp apart _ point
        simp only [Bool.or_eq_true, decide_eq_true_eq] at apart
        omega
      · exact List.mem_singleton.mp member ▸ capital

theorem isBlank_upperChar {c d : Char} (solid : isBlank c = false) (member : d ∈ upperChar c) : isBlank d = false := by
  rw [← Bool.not_eq_true]
  intro blank
  have point := mem_of_upperChar (by decide) (by decide +kernel) (by decide +kernel) (by decide +kernel) member
    (mem_blankPoints blank)
  have blanks : blankPoints.all (fun n => isBlank (Char.ofNat n)) = true := by decide +kernel
  have here := List.all_eq_true.mp blanks c.toNat point
  rw [Char.ofNat_toNat, solid] at here
  cases here

theorem exists_mem_upperChars {cs : List Char} {c : Char} (member : c ∈ cs) (solid : isBlank c = false) :
    ∃ d ∈ upperChars cs, isBlank d = false := by
  obtain ⟨d, capital⟩ := List.exists_mem_of_ne_nil _ (upperChar_ne_nil c)
  exact ⟨d, List.mem_flatMap.mpr ⟨c, member, capital⟩, isBlank_upperChar solid capital⟩

/-- No other character has an apostrophe for its capital. -/
theorem apostrophe_not_mem_upperChar {c : Char} (other : c ≠ '\'') : '\'' ∉ upperChar c := by
  intro member
  have point : c.toNat ∈ ['\''.toNat] :=
    mem_of_upperChar (by decide) (by decide +kernel) (by decide +kernel) (by decide +kernel) member (by simp)
  exact other (Char.toNat_inj.mp (List.mem_singleton.mp point))

theorem return_mem_upperChars {cs : List Char} : '\r' ∈ upperChars cs ↔ '\r' ∈ cs := by
  have same : blankPoints.all (fun n => upperChar (Char.ofNat n) == [Char.ofNat n]) = true := by decide +kernel
  rw [upperChars, List.mem_flatMap]
  constructor
  · rintro ⟨c, member, capital⟩
    cases blank : isBlank c with
    | false => cases isBlank_upperChar blank capital
    | true =>
      have here := beq_iff_eq.mp (List.all_eq_true.mp same c.toNat (mem_blankPoints blank))
      rw [Char.ofNat_toNat] at here
      rw [here, List.mem_singleton] at capital
      exact capital ▸ member
  · exact fun member => ⟨'\r', member, by decide⟩

end SchemaSync.Text
