import SchemaSync.Proofs.Text.Trim
import SchemaSync.Text.Digit

/-! The decimal numeral of a number reads back as the number, if it is not longer than any numeral that
is read. -/

namespace SchemaSync.Text

private theorem toNat_isDigit {c : Char} (digit : c.isDigit = true) : 48 ≤ c.toNat ∧ c.toNat ≤ 57 := by
  rw [Char.isDigit, Bool.and_eq_true, decide_eq_true_eq, decide_eq_true_eq] at digit
  exact digit

theorem toNat_of_mem_toDigits {n : Nat} {c : Char} (member : c ∈ Nat.toDigits 10 n) :
    48 ≤ c.toNat ∧ c.toNat ≤ 57 :=
  toNat_isDigit (Nat.isDigit_of_mem_toDigits (by decide) (by decide) member)

private theorem digitValue?_digit {c : Char} (digit : c.isDigit = true) :
    digitValue? c = some (c.toNat - 48) := by
  have := toNat_isDigit digit
  rw [digitValue?, if_pos (by omega), if_pos digit]

private theorem numeralDigits?_digits {cs : List Char} (given : cs ≠ [])
    (digits : ∀ c ∈ cs, c.isDigit = true) : numeralDigits? cs = some (cs.map (·.toNat - 48)) := by
  fun_induction numeralDigits? cs with
  | case1 => exact absurd rfl given
  | case2 c => rw [digitValue?_digit (digits c List.mem_cons_self)]; rfl
  | case3 c rest => cases digits '_' (by simp)
  | case4 c rest tail _ ih =>
    have later := ih (fun empty => tail (by rw [empty])) fun d member => digits d (List.mem_cons_of_mem _ member)
    rw [digitValue?_digit (digits c List.mem_cons_self), later]
    rfl

private theorem numberOfDigits_digits (cs : List Char) (number : Nat) :
    (cs.map (·.toNat - 48)).foldl (fun number digit => number * 10 + digit) number =
      Nat.ofDigitChars 10 cs number := by
  induction cs generalizing number with
  | nil => rfl
  | cons c cs ih =>
    rw [List.map_cons, List.foldl_cons, ih, Nat.ofDigitChars_cons, Nat.mul_comm]
    rfl

private theorem bareNumeral_digits {cs : List Char} (digits : ∀ c ∈ cs, c.isDigit = true) :
    bareNumeral cs = cs := by
  have solid : ∀ c, c.isDigit = true → isNumeralSpace c = false := by
    intro c digit
    have := toNat_isDigit digit
    have blank : isBlank c = false := by
      rw [← Bool.not_eq_true]
      simp only [isBlank, Bool.or_eq_true, Bool.and_eq_true, decide_eq_true_eq, beq_iff_eq]
      omega
    rw [isNumeralSpace, blank, Bool.false_and]
  have kept : ∀ cs : List Char, (∀ c ∈ cs, c.isDigit = true) → cs.dropWhile isNumeralSpace = cs := by
    intro cs digits
    cases cs with
    | nil => rfl
    | cons c cs => rw [List.dropWhile_cons_of_neg (by simp [solid c (digits c List.mem_cons_self)])]
  rw [bareNumeral, kept cs digits, kept cs.reverse (by simpa using digits), List.reverse_reverse]

private theorem splitSign_digits {cs : List Char} (digits : ∀ c ∈ cs, c.isDigit = true) :
    splitSign cs = (false, cs) := by
  unfold splitSign
  split
  · cases digits '-' List.mem_cons_self
  · cases digits '+' List.mem_cons_self
  · rfl

theorem intOfChars?_toDigits {n : Nat} (short : (Nat.toDigits 10 n).length ≤ maxNumeralDigits) :
    intOfChars? (Nat.toDigits 10 n) = some (n : Int) := by
  have digits : ∀ c ∈ Nat.toDigits 10 n, c.isDigit = true :=
    fun c => Nat.isDigit_of_mem_toDigits (by decide) (by decide)
  have value : numberOfDigits ((Nat.toDigits 10 n).map (·.toNat - 48)) = n := by
    rw [numberOfDigits, numberOfDigits_digits, Nat.ofDigitChars_ten_toDigits]
  rw [intOfChars?, bareNumeral_digits digits, splitSign_digits digits]
  simp only [numeralDigits?_digits Nat.toDigits_ne_nil digits, Option.bind_eq_bind, Option.bind_some,
    List.length_map, if_pos short, value]
  rfl

end SchemaSync.Text
