import SchemaSync.Text.Utf8

/-! Reading back what is written as UTF-8, and what the bytes are that a text is read from. -/

namespace SchemaSync.Text.Utf8

private theorem toNat_byte {n : Nat} (small : n < 256) : n.toUInt8.toNat = n := by
  simpa using small

/-- What a second byte has to keep to, by the number of the first. -/
private theorem secondRange_holds {n m : Nat} (small : n < 256) (least : 0x80 ≤ m) (most : m ≤ 0xBF)
    (e0 : n = 0xE0 → 0xA0 ≤ m) (ed : n = 0xED → m ≤ 0x9F) (f0 : n = 0xF0 → 0x90 ≤ m)
    (f4 : n = 0xF4 → m ≤ 0x8F) : (secondRange n.toUInt8).1 ≤ m ∧ m ≤ (secondRange n.toUInt8).2 := by
  have same {k : UInt8} (equal : (n.toUInt8 == k) = true) : n = k.toNat := by
    rw [← beq_iff_eq.mp equal, toNat_byte small]
  rw [secondRange]
  split
  · next here => exact ⟨e0 (same here), most⟩
  split
  · next here => exact ⟨least, ed (same here)⟩
  split
  · next here => exact ⟨f0 (same here), most⟩
  split
  · next here => exact ⟨least, f4 (same here)⟩
  · exact ⟨least, most⟩

private theorem readFollowers_cons {count value width n : Nat} {range : Nat × Nat} {rest : List UInt8}
    (small : n < 256) (fits : range.1 ≤ n ∧ n ≤ range.2) :
    readFollowers (count + 1) value width range (n.toUInt8 :: rest) =
      readFollowers count (value * 0x40 + (n - 0x80)) (width + 1) (0x80, 0xBF) rest := by
  rw [readFollowers, toNat_byte small, if_pos (by simp [fits])]

private theorem followers?_eq {n : Nat} (small : n < 256) :
    followers? n.toUInt8 = if n < 0x80 then some 0 else if n < 0xC2 then none
      else if n < 0xE0 then some 1 else if n < 0xF0 then some 2 else if n < 0xF5 then some 3
      else none := by
  simp only [followers?, toNat_byte small]

/-- A character is what stands at the front of its own bytes. -/
theorem front_encodeChar (c : Char) : ∃ first more, encodeChar c = first :: more ∧
    ∀ rest, front first (more ++ rest) = .char c (more.length + 1) := by
  have valid : c.toNat < 0xD800 ∨ (0xDFFF < c.toNat ∧ c.toNat < 0x110000) := c.valid
  have whole : Char.ofNat c.toNat = c := Char.ofNat_toNat c
  rw [encodeChar]
  generalize c.toNat = n at valid whole
  -- One case for each number of bytes: the first byte tells how many follow, and each of these carries six bits.
  have last : 0x80 ≤ 0x80 + n % 0x40 ∧ 0x80 + n % 0x40 ≤ 0xBF := by omega
  have inner : 0x80 ≤ 0x80 + n / 0x40 % 0x40 ∧ 0x80 + n / 0x40 % 0x40 ≤ 0xBF := by omega
  split
  · refine ⟨_, _, rfl, fun rest => ?_⟩
    have follow : followers? n.toUInt8 = some 0 := by rw [followers?_eq (by omega), if_pos (by omega)]
    simp only [front, follow, toNat_byte (show n < 256 by omega), whole]
    rfl
  split
  · refine ⟨_, _, rfl, fun rest => ?_⟩
    have lead : 0xC0 + n / 0x40 < 256 := by omega
    have follow : followers? (0xC0 + n / 0x40).toUInt8 = some 1 := by
      rw [followers?_eq lead, if_neg (by omega), if_neg (by omega), if_pos (by omega)]
    have second := secondRange_holds lead last.1 last.2 (by omega) (by omega) (by omega) (by omega)
    have value : (0xC0 + n / 0x40 - 0xC0) * 0x40 + (0x80 + n % 0x40 - 0x80) = n := by omega
    simp only [front, follow, toNat_byte lead, List.cons_append]
    rw [readFollowers_cons (by omega) second, readFollowers, value, whole]
    rfl
  split
  · refine ⟨_, _, rfl, fun rest => ?_⟩
    have lead : 0xE0 + n / 0x1000 < 256 := by omega
    have follow : followers? (0xE0 + n / 0x1000).toUInt8 = some 2 := by
      rw [followers?_eq lead, if_neg (by omega), if_neg (by omega), if_neg (by omega), if_pos (by omega)]
    have second := secondRange_holds lead inner.1 inner.2 (by omega) (by omega) (by omega) (by omega)
    have value : ((0xE0 + n / 0x1000 - 0xE0) * 0x40 + (0x80 + n / 0x40 % 0x40 - 0x80)) * 0x40 +
        (0x80 + n % 0x40 - 0x80) = n := by omega
    simp only [front, follow, toNat_byte lead, List.cons_append]
    rw [readFollowers_cons (by omega) second, readFollowers_cons (by omega) last, readFollowers, value, whole]
    rfl
  · refine ⟨_, _, rfl, fun rest => ?_⟩
    have lead : 0xF0 + n / 0x40000 < 256 := by omega
    have follow : followers? (0xF0 + n / 0x40000).toUInt8 = some 3 := by
      rw [followers?_eq lead, if_neg (by omega), if_neg (by omega), if_neg (by omega), if_neg (by omega),
        if_pos (by omega)]
    have middle : 0x80 ≤ 0x80 + n / 0x1000 % 0x40 ∧ 0x80 + n / 0x1000 % 0x40 ≤ 0xBF := by omega
    have second := secondRange_holds lead middle.1 middle.2 (by omega) (by omega) (by omega) (by omega)
    have value : (((0xF0 + n / 0x40000 - 0xF0) * 0x40 + (0x80 + n / 0x1000 % 0x40 - 0x80)) * 0x40 +
        (0x80 + n / 0x40 % 0x40 - 0x80)) * 0x40 + (0x80 + n % 0x40 - 0x80) = n := by omega
    simp only [front, follow, toNat_byte lead, List.cons_append]
    rw [readFollowers_cons (by omega) second, readFollowers_cons (by omega) inner,
      readFollowers_cons (by omega) last, readFollowers, value, whole]
    rfl

private theorem decodeFrom_skip (more rest : List UInt8) (position : Nat) :
    decodeFrom position more.length (more ++ rest) = decodeFrom (position + more.length) 0 rest := by
  induction more generalizing position with
  | nil => rfl
  | cons byte more ih =>
    rw [List.cons_append, List.length_cons, decodeFrom, ih]
    congr 1
    omega

theorem decodeFrom_encode (cs : List Char) (position : Nat) :
    decodeFrom position 0 (encode cs) = .ok cs := by
  induction cs generalizing position with
  | nil => rfl
  | cons c cs ih =>
    obtain ⟨first, more, bytes, read⟩ := front_encodeChar c
    rw [encode, List.flatMap_cons, bytes, List.cons_append, decodeFrom, read]
    have rest := decodeFrom_skip more (encode cs) (position + 1)
    rw [ih] at rest
    exact congrArg (Except.map (c :: ·)) rest

theorem decode_encode (cs : List Char) : decode (encode cs) = .ok cs :=
  decodeFrom_encode cs 0

/-- A text that starts with an ASCII character reads back whether or not a mark is expected. -/
theorem decodeMarked_encode {c : Char} (ascii : c.toNat < 0x80) (cs : List Char) :
    decodeMarked (encode (c :: cs)) = .ok (c :: cs) := by
  have bytes : encode (c :: cs) = c.toNat.toUInt8 :: encode cs := by
    rw [encode, List.flatMap_cons, encodeChar, if_pos ascii]
    rfl
  have differs : ¬ 0xEF = c.toNat.toUInt8 := by
    intro same
    have := congrArg UInt8.toNat same
    rw [toNat_byte (by omega)] at this
    have numbers : (0xEF : UInt8).toNat = 0xEF := rfl
    omega
  rw [decodeMarked, if_neg, if_neg]
  · exact decode_encode (c :: cs)
  · simp [bytes, mark, differs]
  · simp [bytes, mark, Ne.symm differs]

private theorem toUInt8_eq {n : Nat} (byte : UInt8) (same : n = byte.toNat) : n.toUInt8 = byte := by
  rw [← UInt8.toNat_inj, same, toNat_byte byte.toNat_lt]

/-- What the second byte of a character keeps to, by the number of the first. -/
private theorem secondRange_bounds {first : UInt8} {m : Nat}
    (inside : (secondRange first).1 ≤ m ∧ m ≤ (secondRange first).2) :
    0x80 ≤ m ∧ m ≤ 0xBF ∧ (first.toNat = 0xE0 → 0xA0 ≤ m) ∧ (first.toNat = 0xED → m ≤ 0x9F) ∧
      (first.toNat = 0xF0 → 0x90 ≤ m) ∧ (first.toNat = 0xF4 → m ≤ 0x8F) := by
  have same (k : UInt8) : (first == k) = true ↔ first.toNat = k.toNat := by
    rw [beq_iff_eq, UInt8.toNat_inj]
  have numbers : (0xE0 : UInt8).toNat = 0xE0 ∧ (0xED : UInt8).toNat = 0xED ∧ (0xF0 : UInt8).toNat = 0xF0 ∧
    (0xF4 : UInt8).toNat = 0xF4 := ⟨rfl, rfl, rfl, rfl⟩
  simp only [secondRange, same, numbers, apply_ite Prod.fst, apply_ite Prod.snd] at inside
  grind

private theorem readFollowers_char {count value width size : Nat} {range : Nat × Nat} {bytes : List UInt8} {c : Char}
    (read : readFollowers (count + 1) value width range bytes = .char c size) :
    ∃ byte rest, bytes = byte :: rest ∧ (range.1 ≤ byte.toNat ∧ byte.toNat ≤ range.2) ∧
      readFollowers count (value * 0x40 + (byte.toNat - 0x80)) (width + 1) (0x80, 0xBF) rest = .char c size := by
  cases bytes with
  | nil => cases read
  | cons byte rest =>
    rw [readFollowers] at read
    split at read
    · next inside => exact ⟨byte, rest, rfl, by simpa using inside, read⟩
    · cases read

private theorem toNat_ofNat_valid {n : Nat} (valid : n < 0xD800 ∨ (0xDFFF < n ∧ n < 0x110000)) :
    (Char.ofNat n).toNat = n := by
  have valid : n.isValidChar := valid
  rw [Char.ofNat, dif_pos valid]
  rfl

/-- The bytes from which a character is read are its own. -/
theorem encodeChar_of_front {first : UInt8} {rest : List UInt8} {c : Char} {width : Nat}
    (read : front first rest = .char c width) :
    ∃ more tail, rest = more ++ tail ∧ width = more.length + 1 ∧ encodeChar c = first :: more := by
  have size := first.toNat_lt
  have follow : followers? first = if first.toNat < 0x80 then some 0 else if first.toNat < 0xC2 then none
      else if first.toNat < 0xE0 then some 1 else if first.toNat < 0xF0 then some 2
      else if first.toNat < 0xF5 then some 3 else none := rfl
  -- The bounds of the second byte rule out overlong forms and surrogates, so encoding takes as many bytes again.
  rw [front] at read
  split at read
  · cases read
  · next none =>
    rw [none] at follow
    have small : first.toNat < 0x80 := by grind
    cases read
    refine ⟨[], rest, rfl, rfl, ?_⟩
    rw [encodeChar, toNat_ofNat_valid (.inl (by omega)), if_pos small, toUInt8_eq first rfl]
  · next one =>
    rw [one] at follow
    have lead : 0xC2 ≤ first.toNat ∧ first.toNat < 0xE0 := by grind
    obtain ⟨second, tail, rfl, inside, read⟩ := readFollowers_char read
    have bounds := secondRange_bounds inside
    rw [readFollowers] at read
    obtain ⟨rfl, rfl⟩ := Front.char.inj read
    refine ⟨[second], tail, rfl, rfl, ?_⟩
    rw [encodeChar, toNat_ofNat_valid (.inl (by omega)), if_neg (by omega), if_pos (by omega),
      toUInt8_eq first (by omega), toUInt8_eq second (by omega)]
  · next two =>
    rw [two] at follow
    have lead : 0xE0 ≤ first.toNat ∧ first.toNat < 0xF0 := by grind
    obtain ⟨second, _, rfl, inside, read⟩ := readFollowers_char read
    obtain ⟨third, tail, rfl, last, read⟩ := readFollowers_char read
    have bounds := secondRange_bounds inside
    rw [readFollowers] at read
    obtain ⟨rfl, rfl⟩ := Front.char.inj read
    refine ⟨[second, third], tail, rfl, rfl, ?_⟩
    rw [encodeChar, toNat_ofNat_valid (by omega), if_neg (by omega), if_neg (by omega), if_pos (by omega),
      toUInt8_eq first (by omega), toUInt8_eq second (by omega), toUInt8_eq third (by omega)]
  · next more other =>
    rw [other] at follow
    have lead : 0xF0 ≤ first.toNat ∧ first.toNat < 0xF5 := by grind
    obtain ⟨second, _, rfl, inside, read⟩ := readFollowers_char read
    obtain ⟨third, _, rfl, middle, read⟩ := readFollowers_char read
    obtain ⟨fourth, tail, rfl, last, read⟩ := readFollowers_char read
    have bounds := secondRange_bounds inside
    rw [readFollowers] at read
    obtain ⟨rfl, rfl⟩ := Front.char.inj read
    refine ⟨[second, third, fourth], tail, rfl, rfl, ?_⟩
    rw [encodeChar, toNat_ofNat_valid (by omega), if_neg (by omega), if_neg (by omega), if_neg (by omega),
      toUInt8_eq first (by omega), toUInt8_eq second (by omega), toUInt8_eq third (by omega),
      toUInt8_eq fourth (by omega)]

private theorem drop_eq_encode {bytes : List UInt8} {position skip : Nat} {cs : List Char}
    (read : decodeFrom position skip bytes = .ok cs) : bytes.drop skip = encode cs := by
  induction bytes generalizing position skip cs with
  | nil =>
    cases read
    exact List.drop_nil
  | cons byte rest ih =>
    cases skip with
    | succ skip => exact ih read
    | zero =>
      rw [decodeFrom] at read
      cases here : front byte rest with
      | fault reason width =>
        rw [here] at read
        cases read
      | char c width =>
        rw [here] at read
        obtain ⟨more, tail, rfl, rfl, bytes⟩ := encodeChar_of_front here
        cases later : decodeFrom (position + 1) (more.length + 1 - 1) (more ++ tail) with
        | error =>
          dsimp only at read
          rw [later] at read
          cases read
        | ok following =>
          dsimp only at read
          rw [later] at read
          cases read
          have left : tail = encode following := by simpa using ih later
          rw [encode, List.flatMap_cons, bytes, List.drop_zero, left]
          rfl

/-- Bytes that are UTF-8 throughout are those of the text that is read. -/
theorem decode_eq_ok_iff {bytes : List UInt8} {cs : List Char} : decode bytes = .ok cs ↔ bytes = encode cs := by
  constructor
  · exact fun read => by simpa using drop_eq_encode read
  · rintro rfl
    exact decode_encode cs

/-- Bytes spell a text in UTF-8. A mark in front does not belong to the text. -/
def Spells (bytes : List UInt8) (cs : List Char) : Prop :=
  bytes = mark ++ encode cs ∨ (¬mark <+: bytes ∧ bytes = encode cs)

def CutMark (bytes : List UInt8) : Prop :=
  bytes = [0xEF] ∨ bytes = [0xEF, 0xBB]

instance (bytes : List UInt8) : Decidable (CutMark bytes) :=
  inferInstanceAs (Decidable (_ ∨ _))

/-- What is cut off within the mark is not UTF-8. -/
theorem CutMark.not_spells {bytes : List UInt8} (cut : CutMark bytes) (cs : List Char) : ¬Spells bytes cs := by
  have short : bytes.length < mark.length := by
    rcases cut with rfl | rfl <;> decide
  have unread : ¬(decode bytes).isOk := by
    rcases cut with rfl | rfl <;> decide
  rintro (marked | ⟨_, plain⟩)
  · rw [marked, List.length_append] at short
    omega
  · rw [decode_eq_ok_iff.mpr plain] at unread
    exact unread rfl

private theorem beginning_iff (bytes : List UInt8) :
    (bytes.length < 3 && bytes.isPrefixOf mark) = true ↔ bytes = [] ∨ CutMark bytes := by
  match bytes with
  | [] => simp
  | [first] => simp [CutMark, mark]
  | [first, second] => simp [CutMark, mark]
  | first :: second :: third :: rest =>
    rw [Bool.and_eq_true, decide_eq_true_eq]
    exact iff_of_false (fun short => absurd short.1 (Nat.not_lt.mpr (Nat.le_add_left 3 rest.length)))
      (by simp [CutMark])

/-- Reading bytes that may start with a mark gives what they spell, and nothing for less than a mark. -/
theorem decodeMarked_eq_ok_iff {bytes : List UInt8} {cs : List Char} :
    decodeMarked bytes = .ok cs ↔ Spells bytes cs ∨ (CutMark bytes ∧ cs = []) := by
  rw [decodeMarked]
  split
  · next short =>
    rw [Except.ok.injEq, eq_comm (a := [])]
    rcases (beginning_iff bytes).mp short with rfl | cut
    · rw [or_iff_left fun cut => by simp [CutMark] at cut]
      constructor
      · rintro rfl
        exact .inr ⟨by decide, rfl⟩
      · rintro (marked | ⟨_, plain⟩)
        · cases marked
        · exact (Except.ok.inj (decode_eq_ok_iff.mpr plain)).symm
    · simp [cut, cut.not_spells cs]
  · next long =>
    have whole : ¬CutMark bytes := fun cut => long ((beginning_iff bytes).mpr (.inr cut))
    rw [Spells, or_iff_left fun cut => whole cut.1]
    split
    · next marked =>
      obtain ⟨rest, rfl⟩ := List.isPrefixOf_iff_prefix.mp marked
      have after : (mark ++ rest).drop 3 = rest := rfl
      rw [after, decode_eq_ok_iff, List.append_cancel_left_eq,
        or_iff_left fun unmarked => unmarked.1 (List.prefix_append mark rest)]
    · next unmarked =>
      have unmarked : ¬mark <+: bytes := fun start => unmarked (List.isPrefixOf_iff_prefix.mpr start)
      rw [decode_eq_ok_iff, or_iff_right fun marked => unmarked ⟨encode cs, marked.symm⟩, and_iff_right unmarked]

theorem Spells.unique {bytes : List UInt8} {cs others : List Char} (spells : Spells bytes cs)
    (again : Spells bytes others) : cs = others :=
  Except.ok.inj ((decodeMarked_eq_ok_iff.mpr (.inl spells)).symm.trans (decodeMarked_eq_ok_iff.mpr (.inl again)))

end SchemaSync.Text.Utf8
