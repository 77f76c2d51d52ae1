import SchemaSync.Settings.Json

/-! How far reading a JSON text gets. What is read is the front of a text. Reading fails for want of depth only if more
arrays and objects stand inside each other than may, and for the length of a numeral only if so long a numeral is
there. -/

namespace SchemaSync.Json

/-- Where a place in a text lies: outside strings, inside one, or inside one right after a backslash. -/
inductive Mode
  | plain
  | quoted
  | escaped
  deriving DecidableEq, Repr

/-- How many arrays and objects are open at once in a text, of which `level` are open at its front. -/
def deepest (level : Nat) (mode : Mode) (cs : List Char) : Nat :=
  match mode, cs with
  | _, [] => level
  | .escaped, _ :: rest => deepest level .quoted rest
  | .quoted, c :: rest =>
    if c == '"' then deepest level .plain rest
    else if c == '\\' then deepest level .escaped rest
    else deepest level .quoted rest
  | .plain, c :: rest =>
    if c == '"' then deepest level .quoted rest
    else if c == '[' || c == '\x7b' then deepest (level + 1) .plain rest
    else if c == ']' || c == '\x7d' then max level (deepest (level - 1) .plain rest)
    else deepest level .plain rest

def isMark (c : Char) : Bool :=
  c == '"' || c == '[' || c == '\x7b' || c == ']' || c == '\x7d'

/-- A text that is left when characters that open and close nothing are taken from the front of another one. -/
def Passes (cs rest : List Char) : Prop :=
  ∃ token, cs = token ++ rest ∧ ∀ c ∈ token, isMark c = false

def HasLongNumeral (cs : List Char) : Prop :=
  ∃ front digits rest, cs = front ++ (digits ++ rest) ∧ digits.all Char.isDigit = true ∧
    Text.maxNumeralDigits < digits.length

/-- What is left of a text when something has been read that closes `closed` arrays and objects more than it opens. -/
structure Advances (closed : Nat) (cs rest : List Char) : Prop where
  suffix : rest <:+ cs
  shorter : rest.length < cs.length
  within : ∀ level, deepest level .plain rest ≤ deepest (level + closed) .plain cs

/-- What can come of reading a text when `depth` arrays and objects more may be opened. -/
def Outcome (closed depth : Nat) (cs : List Char) : Except Failure (Json × List Char) → Prop
  | .ok (_, rest) => Advances closed cs rest
  | .error .tooDeep => ∀ level, level + depth < deepest level .plain cs
  | .error .longNumeral => HasLongNumeral cs
  | .error (.malformed _ _) => True

theorem level_le_deepest (level : Nat) (mode : Mode) (cs : List Char) : level ≤ deepest level mode cs := by
  fun_induction deepest level mode cs with
  | case1 => exact Nat.le_refl _
  | case7 _ _ _ _ _ ih => exact Nat.le_trans (Nat.le_succ _) ih
  | case8 => exact Nat.le_max_left _ _
  | _ => assumption

section Tokens

theorem deepest_token {token : List Char} (plain : ∀ c ∈ token, isMark c = false) (level : Nat) (rest : List Char) :
    deepest level .plain (token ++ rest) = deepest level .plain rest := by
  induction token with
  | nil => rfl
  | cons c token ih =>
    rw [List.forall_mem_cons] at plain
    have other := plain.1
    simp only [isMark, Bool.or_eq_false_iff] at other
    obtain ⟨⟨⟨⟨quote, bracket⟩, brace⟩, closing⟩, last⟩ := other
    rw [List.cons_append, deepest, quote, bracket, brace, closing, last]
    exact ih plain.2

namespace Passes

variable {cs between rest : List Char}

theorem refl (cs : List Char) : Passes cs cs :=
  ⟨[], rfl, by simp⟩

theorem trans (first : Passes cs between) (second : Passes between rest) : Passes cs rest := by
  obtain ⟨one, rfl, plainOne⟩ := first
  obtain ⟨two, rfl, plainTwo⟩ := second
  refine ⟨one ++ two, (List.append_assoc ..).symm, fun c member => ?_⟩
  exact (List.mem_append.mp member).elim (plainOne c) (plainTwo c)

theorem cons {c : Char} (other : isMark c = false) (cs : List Char) : Passes (c :: cs) cs :=
  ⟨[c], rfl, by simpa using other⟩

theorem dropWhile {test : Char → Bool} (other : ∀ c, test c = true → isMark c = false) (cs : List Char) :
    Passes cs (cs.dropWhile test) :=
  ⟨cs.takeWhile test, List.takeWhile_append_dropWhile.symm, fun c member =>
    other c (List.all_eq_true.mp List.all_takeWhile c member)⟩

theorem suffix (passes : Passes cs rest) : rest <:+ cs := by
  obtain ⟨token, rfl, _⟩ := passes
  exact List.suffix_append token rest

theorem deepest_eq (passes : Passes cs rest) (level : Nat) : deepest level .plain cs = deepest level .plain rest := by
  obtain ⟨token, rfl, plain⟩ := passes
  exact deepest_token plain level rest

end Passes

theorem HasLongNumeral.of_suffix {cs rest : List Char} (long : HasLongNumeral rest) (suffix : rest <:+ cs) :
    HasLongNumeral cs := by
  obtain ⟨front, rfl⟩ := suffix
  obtain ⟨before, digits, after, rfl, numeral⟩ := long
  exact ⟨front ++ before, digits, after, (List.append_assoc ..).symm, numeral⟩

theorem isMark_of_isDigit {c : Char} (digit : c.isDigit = true) : isMark c = false := by
  simp only [isMark, Bool.or_eq_false_iff, beq_eq_false_iff_ne]
  refine ⟨⟨⟨⟨?_, ?_⟩, ?_⟩, ?_⟩, ?_⟩ <;> (rintro rfl; cases digit)

theorem isMark_of_isSpace {c : Char} (space : isSpace c = true) : isMark c = false := by
  simp only [isMark, Bool.or_eq_false_iff, beq_eq_false_iff_ne]
  refine ⟨⟨⟨⟨?_, ?_⟩, ?_⟩, ?_⟩, ?_⟩ <;> (rintro rfl; cases space)

theorem passes_skipSpace (cs : List Char) : Passes cs (skipSpace cs) :=
  .dropWhile (fun _ => isMark_of_isSpace) cs

theorem passes_spanDigits (cs : List Char) : Passes cs (spanDigits cs).2 :=
  .dropWhile (fun _ => isMark_of_isDigit) cs

theorem passes_spanFraction (cs : List Char) : Passes cs (spanFraction cs).2 := by
  unfold spanFraction
  split
  · next rest =>
    dsimp only
    split
    · exact .refl _
    · exact (Passes.cons (by decide) rest).trans (passes_spanDigits rest)
  · exact .refl _

theorem passes_spanExponent (cs : List Char) : Passes cs (spanExponent cs).2 := by
  unfold spanExponent
  split
  · next e rest =>
    by_cases letter : (e == 'e' || e == 'E') = true
    · have other : isMark e = false := by
        rcases Bool.or_eq_true_iff.mp letter with same | same <;> (rw [beq_iff_eq.mp same]; decide)
      rw [if_pos letter]
      split
      rename_i negative numeral sign
      have signed : Passes rest numeral := by
        split at sign
        · cases sign
          exact .cons (by decide) _
        · cases sign
          exact .cons (by decide) _
        · cases sign
          exact .refl _
      dsimp only
      split
      · exact .refl _
      · exact ((Passes.cons other rest).trans signed).trans (passes_spanDigits numeral)
    · rw [if_neg letter]
      exact .refl _
  · exact .refl _

theorem Advances.of_passes {cs rest : List Char} (passes : Passes cs rest) (shorter : rest.length < cs.length) :
    Advances 0 cs rest where
  suffix := passes.suffix
  shorter := shorter
  within level := Nat.le_of_eq (passes.deepest_eq level).symm

theorem outcome_number (depth : Nat) (cs : List Char) : Outcome 0 depth cs (number cs) := by
  unfold number
  split
  rename_i negative unsigned sign
  have signed : Passes cs unsigned := by
    split at sign
    · cases sign
      exact .cons (by decide) _
    · cases sign
      exact .refl _
  -- From here on it does not matter how the sign was split off.
  clear sign
  split
  rename_i whole afterWhole digits
  have numeral : unsigned = whole ++ afterWhole ∧ whole.all Char.isDigit = true := by
    split at digits
    · cases digits
      exact ⟨rfl, by decide⟩
    · cases digits
      exact ⟨List.takeWhile_append_dropWhile.symm, List.all_takeWhile⟩
  clear digits
  obtain ⟨rfl, digits⟩ := numeral
  split
  · trivial
  next given =>
  have rest : Passes afterWhole (spanExponent (spanFraction afterWhole).2).2 :=
    (passes_spanFraction _).trans (passes_spanExponent _)
  have read : Passes (whole ++ afterWhole) afterWhole :=
    ⟨whole, rfl, fun c member => isMark_of_isDigit (List.all_eq_true.mp digits c member)⟩
  have advances : Advances 0 cs (spanExponent (spanFraction afterWhole).2).2 := by
    refine .of_passes (signed.trans (read.trans rest)) ?_
    have some : 0 < whole.length := List.length_pos_iff.mpr fun none => given (List.isEmpty_iff.mpr none)
    have first := signed.suffix.length_le
    have last := rest.suffix.length_le
    rw [List.length_append] at first
    omega
  dsimp only
  split
  · split
    · next long => exact HasLongNumeral.of_suffix ⟨[], whole, afterWhole, rfl, digits, long⟩ signed.suffix
    · exact advances
  · exact advances

end Tokens

section Strings

/-- What is left of the inside of a string, of which `skip` characters have been read, when its closing quotation mark
has been read too. -/
structure Closes (skip : Nat) (cs rest : List Char) : Prop where
  suffix : rest <:+ cs
  shorter : rest.length < cs.length
  within : ∀ level, deepest level .quoted (cs.drop skip) = deepest level .plain rest

def Closing (skip : Nat) (cs : List Char) : Except Failure (List Char × List Char) → Prop
  | .ok (_, rest) => Closes skip cs rest
  | .error failure => ∃ fault left, failure = .malformed fault left

theorem Closing.prepend {skip left : Nat} {cs : List Char} {read : Except Failure (List Char × List Char)}
    (closing : Closing left cs read) (front : List Char)
    (same : ∀ level, deepest level .quoted ((front ++ cs).drop skip) = deepest level .quoted (cs.drop left)) :
    Closing skip (front ++ cs) read := by
  cases read with
  | error failure => exact closing
  | ok read =>
    obtain ⟨body, rest⟩ := read
    have shorter : rest.length < (front ++ cs).length := by
      have shorter := closing.shorter
      rw [List.length_append]
      omega
    exact ⟨closing.suffix.trans (List.suffix_append front cs), shorter,
      fun level => (same level).trans (closing.within level)⟩

theorem Closing.cons {skip : Nat} {cs : List Char} {read : Except Failure (List Char × List Char)}
    (closing : Closing skip cs read) (c : Char) :
    Closing skip cs (do let (body, rest) ← read; .ok (c :: body, rest)) := by
  cases read with
  | error failure => exact closing
  | ok read => exact closing

theorem deepest_letter {c : Char} (quote : c ≠ '"') (backslash : c ≠ '\\') (level : Nat) (rest : List Char) :
    deepest level .quoted (c :: rest) = deepest level .quoted rest := by
  rw [deepest, if_neg (by simpa using quote), if_neg (by simpa using backslash)]

theorem deepest_hexDigit {c : Char} {digit : Nat} (read : hexValue? c = some digit) (level : Nat) (rest : List Char) :
    deepest level .quoted (c :: rest) = deepest level .quoted rest := by
  refine deepest_letter ?_ ?_ level rest <;> (rintro rfl; cases read)

theorem deepest_fourHex {cs : List Char} {point : Nat} (read : fourHex? cs = some point) (level : Nat) :
    deepest level .quoted cs = deepest level .quoted (cs.drop 4) := by
  unfold fourHex? at read
  split at read
  · next a b c d e rest =>
    simp only [Option.bind_eq_bind, Option.bind_eq_some_iff] at read
    obtain ⟨first, one, second, two, third, three, fourth, four, _⟩ := read
    rw [deepest_hexDigit one, deepest_hexDigit two, deepest_hexDigit three, deepest_hexDigit four]
    rfl
  · cases read

theorem deepest_escape (level : Nat) {rest : List Char} {point : Nat} (digits : fourHex? rest = some point) :
    deepest level .quoted ('\\' :: 'u' :: rest) = deepest level .quoted (rest.drop 4) := by
  rw [← deepest_fourHex digits]
  simp [deepest]

theorem lowSurrogate?_error {cs : List Char} {failure : Failure} (read : lowSurrogate? cs = .error failure) :
    ∃ fault left, failure = .malformed fault left := by
  unfold lowSurrogate? at read
  repeat' split at read
  all_goals cases read
  exact ⟨_, _, rfl⟩

theorem deepest_lowSurrogate {cs : List Char} {low : Nat} (read : lowSurrogate? cs = .ok (some low)) (level : Nat) :
    deepest level .quoted cs = deepest level .quoted (cs.drop 6) := by
  unfold lowSurrogate? at read
  split at read
  · repeat' split at read
    · cases read
    · cases read
    · next digits _ => exact deepest_escape level digits
    · cases read
  · cases read

theorem closing_stringBody (start skip : Nat) (cs : List Char) : Closing skip cs (stringBody start skip cs) := by
  fun_induction stringBody start skip cs with
  | case2 c rest skip ih => exact ih.prepend [c] fun _ => rfl
  | case3 rest => exact ⟨List.suffix_cons _ _, Nat.lt_succ_self _, fun level => by simp [deepest]⟩
  | case6 rest point digits join high ih =>
    -- The digits and the other half of a pair are skipped: four characters, or ten.
    cases second : lowSurrogate? (rest.drop 4) with
    | error failure => exact lowSurrogate?_error second
    | ok low =>
      cases low with
      | none => exact ((ih 4).cons _).prepend ['\\', 'u'] (deepest_escape · digits)
      | some low =>
        refine ((ih 10).cons _).prepend ['\\', 'u'] fun level => ?_
        have next := deepest_lowSurrogate second level
        rw [List.drop_drop] at next
        exact (deepest_escape level digits).trans next
  | case7 rest point digits join high ih => exact ((ih 4).cons _).prepend ['\\', 'u'] (deepest_escape · digits)
  | case9 e rest other c short ih => exact (ih.cons c).prepend ['\\', e] fun level => by simp [deepest]
  | case11 c rest quote alone unicode escape printable ih =>
    refine (ih.cons c).prepend [c] fun level => ?_
    have backslash : c ≠ '\\' := by
      rintro rfl
      cases rest with
      | nil => exact alone rfl rfl
      | cons e rest => exact escape e rest rfl rfl
    exact deepest_letter quote backslash level rest
  | _ => exact ⟨_, _, rfl⟩

end Strings

section Values

variable {closed depth : Nat} {cs rest : List Char} {read : Except Failure (Json × List Char)}

theorem Advances.trans {between : List Char} (first : Advances 0 cs between) (second : Advances closed between rest) :
    Advances closed cs rest where
  suffix := second.suffix.trans first.suffix
  shorter := Nat.lt_trans second.shorter first.shorter
  within level := Nat.le_trans (second.within level) (first.within (level + closed))

namespace Outcome

/-- What comes of reading on at a later place, where `opened` arrays and objects more are open. -/
theorem later (opened : Nat) (outcome : Outcome (closed + opened) depth rest read) (suffix : rest <:+ cs)
    (within : ∀ level, deepest (level + opened) .plain rest ≤ deepest level .plain cs) :
    Outcome closed (depth + opened) cs read := by
  match read, outcome with
  | .ok (_, left), outcome =>
    refine ⟨outcome.suffix.trans suffix, Nat.lt_of_lt_of_le outcome.shorter suffix.length_le, fun level => ?_⟩
    have read := outcome.within level
    rw [← Nat.add_assoc] at read
    exact Nat.le_trans read (within (level + closed))
  | .error (.malformed _ _), _ => trivial
  | .error .longNumeral, long => exact HasLongNumeral.of_suffix long suffix
  | .error .tooDeep, deep =>
    intro level
    have exceeded := Nat.lt_of_lt_of_le (deep (level + opened)) (within level)
    omega

theorem after (outcome : Outcome closed depth rest read) (advances : Advances 0 cs rest) :
    Outcome closed depth cs read :=
  outcome.later 0 advances.suffix advances.within

theorem passing (outcome : Outcome closed depth rest read) (passes : Passes cs rest) : Outcome closed depth cs read :=
  outcome.later 0 passes.suffix fun level => Nat.le_of_eq (passes.deepest_eq level).symm

/-- Failing to read something is failing to read what it is the front of. -/
theorem error {failure : Failure} (outcome : Outcome 0 depth cs (.error failure)) :
    Outcome closed depth cs (.error failure) := by
  cases failure with
  | malformed => trivial
  | longNumeral => exact outcome
  | tooDeep => exact outcome

end Outcome

theorem named_plain : ∀ entry ∈ named, entry.1 ≠ [] ∧ entry.1.all (!isMark ·) = true := by
  decide

theorem advances_named {name : List Char} {json : Json} (found : named.find? (·.1.isPrefixOf cs) = some (name, json)) :
    Advances 0 cs (cs.drop name.length) := by
  obtain ⟨given, plain⟩ := named_plain _ (List.mem_of_find?_eq_some found)
  simp only [List.all_eq_true, Bool.not_eq_true'] at plain
  have start : name.isPrefixOf cs = true := by simpa using List.find?_some found
  obtain ⟨rest, rfl⟩ := List.isPrefixOf_iff_prefix.mp start
  rw [List.drop_left]
  refine .of_passes ⟨name, rfl, plain⟩ ?_
  have some : 0 < name.length := List.length_pos_iff.mpr given
  rw [List.length_append]
  omega

theorem advances_string {start : Nat} {body : List Char} (read : stringBody start 0 cs = .ok (body, rest)) :
    Advances 0 ('"' :: cs) rest := by
  have closes : Closes 0 cs rest := by
    have closing := closing_stringBody start 0 cs
    rwa [read] at closing
  refine ⟨closes.suffix.trans (List.suffix_cons _ _), Nat.lt_succ_of_lt closes.shorter, fun level => ?_⟩
  rw [← closes.within level]
  simp [deepest]

theorem outcome_stringBody_error {start : Nat} {failure : Failure} (read : stringBody start 0 rest = .error failure) :
    Outcome closed depth cs (.error failure) := by
  have closing := closing_stringBody start 0 rest
  rw [read] at closing
  obtain ⟨fault, left, rfl⟩ := closing
  trivial

theorem length_skipSpace_le (cs : List Char) : (skipSpace cs).length ≤ cs.length :=
  (passes_skipSpace cs).suffix.length_le

theorem length_lt_of_skipSpace {c : Char} (token : skipSpace cs = c :: rest) : rest.length < cs.length := by
  have bound := length_skipSpace_le cs
  rwa [token, List.length_cons] at bound

theorem advances_token {c : Char} (other : isMark c = false) (token : skipSpace cs = c :: rest) :
    Advances 0 cs (skipSpace rest) := by
  have passes : Passes cs rest := (token ▸ passes_skipSpace cs).trans (.cons other rest)
  exact .of_passes (passes.trans (passes_skipSpace rest))
    (Nat.lt_of_le_of_lt (length_skipSpace_le rest) (length_lt_of_skipSpace token))

theorem deepest_open {c : Char} (bracket : c = '[' ∨ c = '\x7b') (level : Nat) (cs : List Char) :
    deepest level .plain (c :: cs) = deepest (level + 1) .plain cs := by
  rcases bracket with rfl | rfl <;> rfl

theorem le_deepest_close {c : Char} (bracket : c = ']' ∨ c = '\x7d') (level : Nat) (cs : List Char) :
    deepest level .plain cs ≤ deepest (level + 1) .plain (c :: cs) := by
  rcases bracket with rfl | rfl <;> exact Nat.le_max_right (level + 1) _

theorem advances_close {c : Char} (bracket : c = ']' ∨ c = '\x7d') (token : skipSpace cs = c :: rest) :
    Advances 1 cs rest where
  suffix := (List.suffix_cons c rest).trans (token ▸ (passes_skipSpace cs).suffix)
  shorter := length_lt_of_skipSpace token
  within level := by
    rw [(passes_skipSpace cs).deepest_eq, token]
    exact le_deepest_close bracket level rest

theorem outcome_open {c : Char} (bracket : c = '[' ∨ c = '\x7b') (outcome : Outcome 1 depth cs read) :
    Outcome 0 (depth + 1) (c :: cs) read :=
  outcome.later 1 (List.suffix_cons _ _) fun level => Nat.le_of_eq (deepest_open bracket level cs).symm

theorem outcome_full {c : Char} (bracket : c = '[' ∨ c = '\x7b') : Outcome 0 0 (c :: cs) (.error .tooDeep) := by
  intro level
  rw [deepest_open bracket]
  exact level_le_deepest (level + 1) .plain cs

/-- What reading with so much fuel comes to: there is enough of it for two steps a character. -/
structure Reads (fuel : Nat) : Prop where
  value : ∀ depth cs, 2 * cs.length + 1 ≤ fuel → Outcome 0 depth cs (value fuel depth cs)
  members : ∀ depth read cs, 2 * cs.length + 2 ≤ fuel → Outcome 1 depth cs (members fuel depth read cs)
  items : ∀ depth read cs, 2 * cs.length + 2 ≤ fuel → Outcome 1 depth cs (items fuel depth read cs)

namespace Reads

variable {fuel : Nat}

theorem value_succ (reads : Reads fuel) (depth : Nat) (cs : List Char) (enough : 2 * cs.length ≤ fuel) :
    Outcome 0 depth cs (Json.value (fuel + 1) depth cs) := by
  unfold Json.value
  split
  · next rest =>
    cases read : stringBody ('"' :: rest).length 0 rest with
    | error failure => exact outcome_stringBody_error read
    | ok read => exact advances_string read
  · next rest =>
    have bound := length_skipSpace_le rest
    rw [List.length_cons] at enough
    split
    · exact outcome_full (.inr rfl)
    · next depth =>
      refine outcome_open (.inr rfl) ?_
      split
      · next closes => exact advances_close (.inr rfl) closes
      · exact (reads.members depth [] (skipSpace rest) (by omega)).passing (passes_skipSpace rest)
  · next rest =>
    have bound := length_skipSpace_le rest
    rw [List.length_cons] at enough
    split
    · exact outcome_full (.inl rfl)
    · next depth =>
      refine outcome_open (.inl rfl) ?_
      split
      · next closes => exact advances_close (.inl rfl) closes
      · exact (reads.items depth [] (skipSpace rest) (by omega)).passing (passes_skipSpace rest)
  · split
    · next found => exact advances_named found
    · exact outcome_number depth _

theorem members_succ (reads : Reads fuel) (depth : Nat) (before : List (String × Json)) (cs : List Char)
    (enough : 2 * cs.length + 1 ≤ fuel) : Outcome 1 depth cs (Json.members (fuel + 1) depth before cs) := by
  unfold Json.members
  split
  · next rest =>
    cases string : stringBody ('"' :: rest).length 0 rest with
    | error failure => exact outcome_stringBody_error string
    | ok pair =>
    obtain ⟨name, afterName⟩ := pair
    have named : Advances 0 ('"' :: rest) afterName := advances_string string
    dsimp only [Bind.bind, Except.bind]
    split
    · next afterColon colon =>
      have toMember := named.trans (advances_token (by decide) colon)
      have member := reads.value depth (skipSpace afterColon) (by have := toMember.shorter; omega)
      cases value : Json.value fuel depth (skipSpace afterColon) with
      | error failure => exact (value ▸ member).error.after toMember
      | ok pair =>
      obtain ⟨json, afterMember⟩ := pair
      rw [value] at member
      have read := toMember.trans member
      dsimp only
      split
      · next brace => exact read.trans (advances_close (.inr rfl) brace)
      · next afterComma comma =>
        have toNext := read.trans (advances_token (by decide) comma)
        exact (reads.members depth _ _ (by have := toNext.shorter; omega)).after toNext
      · trivial
    · trivial
  · trivial

theorem items_succ (reads : Reads fuel) (depth : Nat) (before : List Json) (cs : List Char)
    (enough : 2 * cs.length + 1 ≤ fuel) : Outcome 1 depth cs (Json.items (fuel + 1) depth before cs) := by
  unfold Json.items
  have item := reads.value depth cs enough
  cases value : Json.value fuel depth cs with
  | error failure => exact (value ▸ item).error
  | ok pair =>
  obtain ⟨json, afterItem⟩ := pair
  rw [value] at item
  dsimp only [Bind.bind, Except.bind]
  split
  · next bracket => exact item.trans (advances_close (.inl rfl) bracket)
  · next afterComma comma =>
    have toNext := item.trans (advances_token (by decide) comma)
    exact (reads.items depth _ _ (by have := toNext.shorter; omega)).after toNext
  · trivial

end Reads

theorem reads (fuel : Nat) : Reads fuel := by
  -- A step either moves on in the text or goes from a list to its first item at the same place, so fuel never runs out.
  induction fuel with
  | zero => constructor <;> (intros; omega)
  | succ fuel ih =>
    exact {
      value := fun depth cs enough => ih.value_succ depth cs (by omega)
      members := fun depth before cs enough => ih.members_succ depth before cs (by omega)
      items := fun depth before cs enough => ih.items_succ depth before cs (by omega) }

end Values

section Texts

theorem outcome_whole (maxDepth : Nat) (cs : List Char) :
    Outcome 0 maxDepth cs (value (2 * cs.length + 2) maxDepth (skipSpace cs)) := by
  have bound := length_skipSpace_le cs
  exact ((reads _).value maxDepth (skipSpace cs) (by omega)).passing (passes_skipSpace cs)

/-- A text fails otherwise than by a fault only if something in it is too long or too deep. -/
theorem parse_error {maxDepth : Nat} {cs : List Char} {failure : Failure}
    (read : parse maxDepth cs = .error failure) :
    (∃ fault left, failure = .malformed fault left) ∨ (failure = .longNumeral ∧ HasLongNumeral cs) ∨
      (failure = .tooDeep ∧ maxDepth < deepest 0 .plain cs) := by
  unfold parse at read
  split at read
  · cases read
    exact .inl ⟨_, _, rfl⟩
  have whole := outcome_whole maxDepth cs
  cases value : value (2 * cs.length + 2) maxDepth (skipSpace cs) with
  | ok pair =>
    rw [value] at read
    dsimp only [Bind.bind, Except.bind] at read
    split at read
    · cases read
    · cases read
      exact .inl ⟨_, _, rfl⟩
  | error first =>
    rw [value] at read whole
    cases read
    cases failure with
    | malformed fault left => exact .inl ⟨fault, left, rfl⟩
    | longNumeral => exact .inr (.inl ⟨rfl, whole⟩)
    | tooDeep => exact .inr (.inr ⟨rfl, Nat.zero_add maxDepth ▸ whole 0⟩)

end Texts

end SchemaSync.Json
