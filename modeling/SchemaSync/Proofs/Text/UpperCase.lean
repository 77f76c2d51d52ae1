import SchemaSync.Proofs.Text.WordChar

/-! Capitals have no capitals of their own, so that a text in capitals is its own capital form. The tables of capitals
are compared run by run, not character by character. -/

namespace SchemaSync.Text

namespace CaseRun

def image (run : CaseRun) : CaseRun where
  first := (run.first + run.shift).toNat
  last := (run.last + run.shift).toNat
  step := run.step
  shift := 0

/-- Whether two runs have no letter in common, as far as their ends and, in runs of every other letter, the parity of
the letters tell. -/
def apart (run other : CaseRun) : Bool :=
  Nat.blt run.last other.first || Nat.blt other.last run.first ||
    (other.step == 2 && (run.step == 2 || run.first == run.last) && (run.first + other.first) % 2 != 0)

theorem covers_eq_false {run other : CaseRun} (apart : run.apart other = true) {point : Nat}
    (covers : run.covers point = true) : other.covers point = false := by
  rw [← Bool.not_eq_true]
  intro also
  simp only [CaseRun.apart, Bool.or_eq_true, Bool.and_eq_true, beq_iff_eq, bne_iff_ne, Nat.blt_eq] at apart
  simp only [CaseRun.covers, Bool.and_eq_true, decide_eq_true_eq, beq_iff_eq] at covers also
  obtain ⟨⟨above, below⟩, inStep⟩ := covers
  obtain ⟨⟨alsoAbove, alsoBelow⟩, alsoInStep⟩ := also
  rcases apart with (before | after) | ⟨⟨two, narrow⟩, parity⟩
  · omega
  · omega
  · rw [two] at alsoInStep
    rcases narrow with alsoTwo | single
    · rw [alsoTwo] at inStep
      omega
    · omega

def settled (run : CaseRun) : Bool :=
  (Nat.blt run.last 97 || Nat.ble 128 run.first) && caseRuns.all run.apart &&
    expandingCapitals.all fun entry => Nat.blt entry.1 run.first || Nat.blt run.last entry.1

theorem upperChar_eq_self {run : CaseRun} (settled : run.settled = true) {c : Char}
    (covers : run.covers c.toNat = true) : upperChar c = [c] := by
  simp only [CaseRun.settled, Bool.and_eq_true, Bool.or_eq_true, Nat.blt_eq, Nat.ble_eq, List.all_eq_true] at settled
  obtain ⟨⟨ascii, apart⟩, single⟩ := settled
  have within := covers
  simp only [CaseRun.covers, Bool.and_eq_true, decide_eq_true_eq] at within
  have unlisted : expandingCapitals.lookup c.toNat = none := by
    rw [List.lookup_eq_none_iff]
    intro entry member
    have := single entry member
    simp only [bne_iff_ne]
    omega
  have uncovered : caseRuns.find? (·.covers c.toNat) = none := by
    rw [List.find?_eq_none]
    intro other member
    rw [covers_eq_false (apart other member) covers]
    exact Bool.false_ne_true
  rw [upperChar, unlisted, uncovered]
  split
  · have kept : c.toUpper = c := by
      refine dif_neg fun lower => ?_
      have first : 97 ≤ c.toNat := lower.1
      omega
    rw [kept]
  · rfl

end CaseRun

theorem upperChar_of_mem {c d : Char} (member : d ∈ upperChar c) : upperChar d = [d] := by
  have ascii : (List.range 128).all (fun n => upperChar (Char.ofNat n).toUpper == [(Char.ofNat n).toUpper]) = true := by
    decide +kernel
  have expanding : expandingCapitals.all (fun entry => entry.2.all fun point => (CaseRun.mk point point 1 0).settled) =
      true := by decide +kernel
  have shifted : caseRuns.all (fun run => run.image.settled && decide (0 ≤ run.first + run.shift)) = true := by
    decide +kernel
  have point {n : Nat} {run : CaseRun} (settled : run.settled = true) (covers : run.covers n = true) :
      upperChar (Char.ofNat n) = [Char.ofNat n] := by
    rcases toNat_ofNat n with same | null
    · exact CaseRun.upperChar_eq_self settled (same.symm ▸ covers)
    · -- What is no character stands for the null character, which is its own capital.
      rw [← Char.ofNat_toNat (Char.ofNat n), null]
      decide
  -- The tables are checked entry by entry; all that is left is to find the entry of `c`.
  rw [upperChar] at member
  split at member
  · next small =>
    obtain rfl := List.mem_singleton.mp member
    exact beq_iff_eq.mp (test_of_small (fun c => upperChar c.toUpper == [c.toUpper]) ascii small)
  · next large =>
    split at member
    · next points found =>
      obtain ⟨front, back, split, _⟩ := List.lookup_eq_some_iff.mp found
      have listed := List.all_eq_true.mp expanding (c.toNat, points) (by simp [split])
      obtain ⟨n, inside, rfl⟩ := List.mem_map.mp member
      exact point (List.all_eq_true.mp listed n inside) (by simp [CaseRun.covers])
    · next unlisted =>
      split at member
      · next run found =>
        have moved := List.all_eq_true.mp shifted run (List.mem_of_find?_eq_some found)
        rw [Bool.and_eq_true, decide_eq_true_eq] at moved
        have covers := List.find?_some found
        obtain rfl := List.mem_singleton.mp member
        refine point moved.1 ?_
        simp only [CaseRun.covers, Bool.and_eq_true, decide_eq_true_eq, beq_iff_eq] at covers
        rw [CaseRun.covers, Bool.and_eq_true, Bool.and_eq_true, decide_eq_true_eq, decide_eq_true_eq, beq_iff_eq]
        dsimp only [CaseRun.image]
        -- No run is shifted below zero: capitals lie as far apart as their letters.
        have step : (c.toNat + run.shift).toNat - (run.first + run.shift).toNat = c.toNat - run.first := by omega
        refine ⟨by omega, ?_⟩
        rw [step, covers.2]
      · next uncovered =>
        obtain rfl := List.mem_singleton.mp member
        rw [upperChar, if_neg large, unlisted, uncovered]

theorem upperChars_upperChars (cs : List Char) : upperChars (upperChars cs) = upperChars cs := by
  refine upperChars_eq_self fun d member => ?_
  obtain ⟨c, _, capital⟩ := List.mem_flatMap.mp member
  exact upperChar_of_mem capital

end SchemaSync.Text
