import SchemaSync.Proofs.Script.Keyword
import SchemaSync.Proofs.Script.Literal
import SchemaSync.Proofs.Text.WordChar
import SchemaSync.Script.Attribute
import SchemaSync.Script.Render

/-! Reading back the clauses after a type: a default that nothing inside ends is read whole, and
`NOT NULL` is told from what a default says. -/

namespace SchemaSync.Script

open Text

/-- A default that reads back: bare text without white space around it, in which no clause and no
semicolon stands outside literals. -/
structure IsDefault (value : List Char) : Prop where
  given : value ≠ []
  trimmed : Trimmed value
  bare : Bare value
  unstopped : outside (fun inWord cs => !stopsHere inWord cs) false false value = true

section Stops

theorem lettered_stops {phrase : List String} (stop : phrase ∈ defaultStops) : Lettered phrase := by
  have all : defaultStops.all (fun phrase => phrase.all (·.toList.all Char.isAlpha)) = true := by decide
  exact List.all_eq_true.mp all phrase stop

theorem stopsHere_eq_false {inWord : Bool} {cs : List Char} : stopsHere inWord cs = false ↔
    cs ≠ [] ∧ cs.head? ≠ some ';' ∧
      ∀ phrase ∈ defaultStops, (afterWholePhrase? phrase inWord cs).isSome = false := by
  rw [stopsHere, Bool.or_eq_false_iff, Bool.or_eq_false_iff, List.isEmpty_eq_false_iff,
    beq_eq_false_iff_ne, List.any_eq_false, and_assoc]
  simp only [Bool.not_eq_true]

theorem stopsHere_withLineFeeds (inWord : Bool) (cs : List Char) :
    stopsHere inWord (withLineFeeds cs) = stopsHere inWord cs := by
  have shape : ((withLineFeeds cs).isEmpty || (withLineFeeds cs).head? == some ';') =
      (cs.isEmpty || cs.head? == some ';') :=
    lineFeeds_induct (motive := fun cs written => (written.isEmpty || written.head? == some ';') =
      (cs.isEmpty || cs.head? == some ';')) rfl (fun _ _ _ _ => rfl) (fun _ _ _ => rfl) (fun _ _ => rfl) cs
  rw [stopsHere, stopsHere, shape]
  congr 1
  rw [Bool.eq_iff_iff, List.any_eq_true, List.any_eq_true]
  refine exists_congr fun phrase => and_congr_right fun stop => ?_
  rw [unseen_withLineFeeds.afterWholePhrase?_isSome (lettered_stops stop)]

end Stops

theorem IsDefault.withLineFeeds {value : List Char} (default : IsDefault value) :
    IsDefault (withLineFeeds value) where
  given := by
    intro none
    have start := default.given
    match value with
    | [] => exact start rfl
    | c :: rest =>
      by_cases same : c = '\r'
      · subst same
        cases default.trimmed.head _ rfl
      · rw [withLineFeeds_cons same] at none
        cases none
  trimmed := default.trimmed.withLineFeeds
  bare := default.bare.withLineFeeds
  unstopped := outside_withLineFeeds (fun inWord cs => congrArg (!·) (stopsHere_withLineFeeds inWord cs))
    value default.unstopped

/-- A text into which nothing that stands before it is read on: it starts with no apostrophe and in no
word, and with no later keyword of a clause that ends a default. -/
structure Breaks (rest : List Char) : Prop where
  quote : rest.head? ≠ some '\''
  phrases : ∀ phrase ∈ defaultStops, Apart phrase rest

theorem Breaks.of_all {rest : List Char} (quote : (rest.head? != some '\'') = true)
    (apart : defaultStops.all (fun phrase => decide (Apart phrase rest)) = true) : Breaks rest :=
  ⟨bne_iff_ne.mp quote, fun phrase stop => of_decide_eq_true (List.all_eq_true.mp apart phrase stop)⟩

structure EndsDefault (rest : List Char) : Prop extends Breaks rest where
  stops : ∀ inWord, stopsAhead inWord rest = true

section Tail

variable {rest : List Char}

theorem stopsHere_append (breaks : Breaks rest) {inWord : Bool} {cs : List Char}
    (goesOn : stopsHere inWord cs = false) : stopsHere inWord (cs ++ rest) = false := by
  obtain ⟨start, semicolon, unread⟩ := stopsHere_eq_false.mp goesOn
  obtain ⟨c, more, rfl⟩ := List.exists_cons_of_ne_nil start
  refine stopsHere_eq_false.mpr ⟨List.cons_ne_nil _ _, semicolon, fun phrase stop => ?_⟩
  rw [(breaks.phrases phrase stop).whole (lettered_stops stop) inWord (c :: more), Option.isSome_map]
  exact unread phrase stop

theorem outside_trimStart {test : Bool → List Char → Bool} {inWord : Bool} {cs : List Char}
    (holds : outside test false inWord cs = true) (blank : cs.head?.any isBlank = true) :
    outside test false false (trimStart cs) = true := by
  induction cs generalizing inWord with
  | nil => cases blank
  | cons c rest ih =>
    rw [List.head?_cons, Option.any_some] at blank
    have quote : c ≠ '\'' := by
      rintro rfl
      cases blank
    rw [outside_plain quote, isWordChar_of_blank blank, Bool.and_eq_true] at holds
    rw [trimStart, List.dropWhile_cons_of_pos blank, ← trimStart]
    cases more : rest.head?.any isBlank with
    | true => exact ih holds.2 more
    | false =>
      rw [trimStart_head]
      · exact holds.2
      · intro d head
        rw [Option.mem_def.mp head] at more
        exact more

private theorem getLast?_trimStart {cs : List Char} (solid : ∀ c ∈ cs.getLast?, isBlank c = false)
    (start : cs ≠ []) : trimStart cs ≠ [] := by
  intro empty
  have last := List.getLast?_eq_some_getLast start
  have blank := blank_of_trimStart empty _ (List.getLast_mem start)
  rw [solid _ last] at blank
  cases blank

private theorem stopsAhead_append (breaks : Breaks rest) {inWord : Bool} {cs : List Char} (start : cs ≠ [])
    (last : ∀ c ∈ cs.getLast?, isBlank c = false)
    (unstopped : outside (fun inWord cs => !stopsHere inWord cs) false inWord cs = true) :
    stopsAhead inWord (cs ++ rest) = false := by
  have front : ∀ {inWord : Bool} {cs : List Char}, cs ≠ [] →
      outside (fun inWord cs => !stopsHere inWord cs) false inWord cs = true →
      stopsHere inWord cs = false := by
    intro inWord cs start unstopped
    obtain ⟨c, rest, rfl⟩ := List.exists_cons_of_ne_nil start
    rw [outside, Bool.and_eq_true, Bool.false_or, Bool.not_eq_true'] at unstopped
    exact unstopped.1
  obtain ⟨c, more, rfl⟩ := List.exists_cons_of_ne_nil start
  have solid := getLast?_trimStart last start
  rw [List.cons_append, stopsAhead, ← List.cons_append]
  split
  · next blank =>
    rw [trimStart_append solid]
    exact stopsHere_append breaks (front solid (outside_trimStart unstopped blank))
  · exact stopsHere_append breaks (front start unstopped)

private theorem last_of_append (front : List Char) {rest : List Char}
    (last : ∀ c ∈ (front ++ rest).getLast?, isBlank c = false) :
    ∀ c ∈ rest.getLast?, isBlank c = false := by
  intro c found
  refine last c ?_
  rw [List.getLast?_append, Option.mem_def.mp found]
  rfl

/-- Reading a default stops where the text after it ends it, and nowhere before. -/
theorem defaultChars?_append (ends : EndsDefault rest) {cs : List Char} (whole : closed false cs = true) :
    ∀ started inWord, (cs ≠ [] ∨ started = true) → (∀ c ∈ cs.getLast?, isBlank c = false) →
      outside (fun inWord cs => !stopsHere inWord cs) false inWord cs = true →
      defaultChars? started inWord (cs ++ rest) = some cs := by
  have quiet (inWord : Bool) (rest : List Char) : (!stopsHere inWord ('\'' :: rest)) = true := by
    cases inWord <;> rfl
  -- The reader takes a literal at a time, and so does the induction: nothing inside one can stop a default.
  refine closed_induct (motive := fun cs => ∀ started inWord, (cs ≠ [] ∨ started = true) →
    (∀ c ∈ cs.getLast?, isBlank c = false) →
    outside (fun inWord cs => !stopsHere inWord cs) false inWord cs = true →
    defaultChars? started inWord (cs ++ rest) = some cs) ?_ ?_ ?_ cs whole
  · intro started inWord begun _ _
    obtain rfl : started = true := begun.resolve_left (fun start => start rfl)
    rw [List.nil_append, defaultChars?.eq_def, ends.stops inWord, Bool.and_true, if_pos rfl]
  · intro c more quote _ ih started inWord _ last unstopped
    have goesOn := stopsAhead_append ends.toBreaks (List.cons_ne_nil c more) last unstopped
    rw [List.cons_append] at goesOn ⊢
    rw [outside_plain quote, Bool.and_eq_true] at unstopped
    rw [defaultChars?, goesOn, Bool.and_false, if_neg Bool.false_ne_true, if_neg (by simpa using quote),
      ih true _ (.inr rfl) (last_of_append [c] last) unstopped.2]
    rfl
  · intro body after literal apart _ ih started inWord _ last unstopped
    have goesOn := stopsAhead_append ends.toBreaks (List.cons_ne_nil '\'' (body ++ after)) last unstopped
    have later : (after ++ rest).head? ≠ some '\'' := by
      cases after with
      | nil => exact ends.quote
      | cons c after => exact apart
    have read := closeLiteral?_append literal later
    rw [outside_literal quiet literal] at unstopped
    have following := ih true false (.inr rfl) (last_of_append ('\'' :: body) last) unstopped
    rw [List.cons_append, List.append_assoc] at goesOn ⊢
    rw [defaultChars?, goesOn, Bool.and_false, if_neg Bool.false_ne_true, if_pos (by rfl)]
    split
    · next found =>
      rw [read] at found
      cases found
      rw [following]
      rfl
    · next found =>
      rw [read] at found
      cases found

/-- The last character of a default is no semicolon. -/
private theorem semicolon_not_last {cs : List Char} (whole : closed false cs = true) :
    ∀ inWord, outside (fun inWord cs => !stopsHere inWord cs) false inWord cs = true →
      cs.getLast? ≠ some ';' := by
  have quiet (inWord : Bool) (rest : List Char) : (!stopsHere inWord ('\'' :: rest)) = true := by
    cases inWord <;> rfl
  refine closed_induct (motive := fun cs => ∀ inWord,
    outside (fun inWord cs => !stopsHere inWord cs) false inWord cs = true → cs.getLast? ≠ some ';')
    (fun _ _ last => by cases last) ?_ ?_ cs whole
  · intro c rest quote _ ih inWord unstopped last
    rw [outside_plain quote, Bool.and_eq_true] at unstopped
    cases rest with
    | nil =>
      cases last
      cases inWord <;> exact Bool.false_ne_true unstopped.1
    | cons d rest => exact ih _ unstopped.2 last
  · intro body after literal apart _ ih inWord unstopped last
    rw [outside_literal quiet literal] at unstopped
    cases after with
    | nil =>
      rw [List.append_nil, List.getLast?_cons, literal.last] at last
      cases last
    | cons d after =>
      refine ih _ unstopped ?_
      rw [← last, ← List.cons_append, List.getLast?_append,
        List.getLast?_eq_some_getLast (List.cons_ne_nil d after), Option.some_or]

theorem findDefault?_append (ends : EndsDefault rest) {value : List Char} (default : IsDefault value) :
    findDefault? false (" DEFAULT ".toList ++ (value ++ rest)) = some value := by
  have start : trimStart (value ++ rest) = value ++ rest := by
    obtain ⟨c, more, rfl⟩ := List.exists_cons_of_ne_nil default.given
    exact trimStart_head fun d head => default.trimmed.head d head
  have read := defaultChars?_append ends
    default.bare.closed false false (.inl default.given) default.trimmed.last default.unstopped
  have here : findDefault? false (" DEFAULT ".toList ++ (value ++ rest)) =
      (defaultAfterKeyword? (' ' :: (value ++ rest))).or
        (findDefault? true ("EFAULT ".toList ++ (value ++ rest))) := rfl
  rw [here, defaultAfterKeyword?, if_pos (by rfl), start, read, Option.some_or, Option.some_or]

theorem declaredDefault_append (ends : EndsDefault rest) {value : List Char} (default : IsDefault value) :
    declaredDefault (" DEFAULT ".toList ++ (value ++ rest)) = some (String.ofList value) := by
  have last : dropSemicolons value = value := by
    obtain ⟨front, c, split⟩ := (List.eq_nil_or_concat value).resolve_left default.given
    rw [List.concat_eq_append] at split
    subst split
    have other := semicolon_not_last default.bare.closed false default.unstopped
    rw [List.getLast?_concat] at other
    rw [dropSemicolons, List.reverse_append, List.reverse_singleton, List.singleton_append,
      List.dropWhile_cons_of_neg (by simpa using other)]
    simp
  rw [declaredDefault, findDefault?_append ends default, Option.bind_some]
  simp only [default.trimmed.trimChars_eq, last, List.isEmpty_iff, default.given, if_false]

end Tail

section EmptyLiterals

theorem emptyLiterals_plain {c : Char} (plain : c ≠ '\'') (rest : List Char) :
    emptyLiterals (c :: rest) = c :: emptyLiterals rest := by
  rw [emptyLiterals, if_neg (by simpa using plain)]

theorem emptyLiterals_quote (rest : List Char) : emptyLiterals ('\'' :: rest) =
    (closeLiteral? rest).elim ('\'' :: emptyLiterals rest) fun closed => '\'' :: '\'' :: emptyLiterals closed.2 := by
  rw [emptyLiterals, if_pos (by rfl)]
  split <;> next found => rw [found]; rfl

theorem emptyLiterals_literal {body after : List Char} (literal : LiteralRest body)
    (apart : after.head? ≠ some '\'') :
    emptyLiterals ('\'' :: (body ++ after)) = '\'' :: '\'' :: emptyLiterals after := by
  rw [emptyLiterals_quote, closeLiteral?_append literal apart]
  rfl

theorem emptyLiterals_append {front : List Char} (none : '\'' ∉ front) (rest : List Char) :
    emptyLiterals (front ++ rest) = front ++ emptyLiterals rest := by
  induction front with
  | nil => rfl
  | cons c front ih =>
    rw [List.mem_cons, not_or] at none
    rw [List.cons_append, emptyLiterals_plain (Ne.symm none.1), ih none.2, List.cons_append]

theorem emptyLiterals_head (cs : List Char) : (emptyLiterals cs).head? = cs.head? := by
  cases cs with
  | nil => rw [emptyLiterals]
  | cons c cs =>
    rw [emptyLiterals]
    split
    · next quote =>
      split
      · rw [beq_iff_eq.mp quote]
        rfl
      · rfl
    · rfl

/-- Keywords read the same whatever the literals around them say. -/
theorem unseen_emptyLiterals : Unseen emptyLiterals where
  letter c rest letter := by
    refine emptyLiterals_plain ?_ rest
    rintro rfl
    cases letter
  other cs other := by rwa [emptyLiterals_head]
  blank cs := by rw [emptyLiterals_head]
  trim cs := by
    induction cs with
    | nil => rw [emptyLiterals, trimStart, List.dropWhile_nil, emptyLiterals]
    | cons c cs ih =>
      cases blank : isBlank c with
      | true =>
        have quote : c ≠ '\'' := by
          rintro rfl
          cases blank
        rw [emptyLiterals_plain quote, trimStart, trimStart, List.dropWhile_cons_of_pos blank,
          List.dropWhile_cons_of_pos blank]
        exact ih
      | false =>
        have head : ∀ d ∈ (emptyLiterals (c :: cs)).head?, isBlank d = false := by
          rw [emptyLiterals_head]
          rintro d ⟨⟩
          exact blank
        rw [trimStart_head head, trimStart, List.dropWhile_cons_of_neg (by simpa using blank)]
  word cs := by rw [startsInWord, startsInWord, emptyLiterals_head]

theorem emptyLiterals_closed {front rest : List Char} (whole : closed false front = true)
    (apart : rest.head? ≠ some '\'') : emptyLiterals (front ++ rest) = emptyLiterals front ++ emptyLiterals rest := by
  refine closed_induct (motive := fun cs => emptyLiterals (cs ++ rest) = emptyLiterals cs ++ emptyLiterals rest)
    ?_ ?_ ?_ front whole
  · rw [emptyLiterals.eq_def []]
    rfl
  · intro c more quote _ ih
    rw [List.cons_append, emptyLiterals_plain quote, emptyLiterals_plain quote, ih, List.cons_append]
  · intro body after literal alone _ ih
    have later : (after ++ rest).head? ≠ some '\'' := by
      cases after with
      | nil => exact apart
      | cons c after => exact alone
    rw [List.cons_append, List.append_assoc, emptyLiterals_literal literal later, emptyLiterals_literal literal alone,
      ih, List.cons_append, List.cons_append]

theorem allowsNull_unquoted {cs : List Char} (none : '\'' ∉ cs) :
    allowsNull cs = !hasWholePhrase ["NOT", "NULL"] false cs := by
  rw [allowsNull, ← List.append_nil cs, emptyLiterals_append none, emptyLiterals, List.append_nil]

/-- Words in front that start nothing say nothing about null. -/
theorem allowsNull_prepend {front : List Char} (plain : '\'' ∉ front)
    (skip : ∀ cs, hasWholePhrase ["NOT", "NULL"] false (front ++ cs) = hasWholePhrase ["NOT", "NULL"] false cs)
    (cs : List Char) : allowsNull (front ++ cs) = allowsNull cs := by
  rw [allowsNull, allowsNull, emptyLiterals_append plain, skip]

/-- A text that the text before it does not go on with says what it says about null by itself. -/
theorem allowsNull_append {front rest : List Char} (whole : closed false front = true) (quote : rest.head? ≠ some '\'')
    (apart : Apart ["NOT", "NULL"] rest) : allowsNull (front ++ rest) = (allowsNull front && allowsNull rest) := by
  have letters : Lettered ["NOT", "NULL"] := by decide
  rw [allowsNull, allowsNull, allowsNull, emptyLiterals_closed whole quote,
    hasWholePhrase_append letters (by decide) ((unseen_emptyLiterals.apart_iff letters).mpr apart), Bool.not_or]

theorem IsDefault.allowsNull_eq {value : List Char} (default : IsDefault value) : allowsNull value = true := by
  have quiet (inWord : Bool) (rest : List Char) : (!stopsHere inWord ('\'' :: rest)) = true := by
    cases inWord <;> rfl
  suffices silent : ∀ inWord, outside (fun inWord cs => !stopsHere inWord cs) false inWord value = true →
      hasWholePhrase ["NOT", "NULL"] inWord (emptyLiterals value) = false by
    rw [allowsNull, silent false default.unstopped, Bool.not_false]
  refine closed_induct (motive := fun cs => ∀ inWord,
    outside (fun inWord cs => !stopsHere inWord cs) false inWord cs = true →
    hasWholePhrase ["NOT", "NULL"] inWord (emptyLiterals cs) = false) ?_ ?_ ?_ value default.bare.closed
  · intro inWord _
    rw [emptyLiterals, hasWholePhrase]
  · intro c more quote _ ih inWord unstopped
    rw [outside_plain quote, Bool.and_eq_true, Bool.not_eq_true'] at unstopped
    have unread := (stopsHere_eq_false.mp unstopped.1).2.2 ["NOT", "NULL"] (by decide)
    rw [← unseen_emptyLiterals.afterWholePhrase?_isSome (by decide), emptyLiterals_plain quote] at unread
    rw [emptyLiterals_plain quote, hasWholePhrase, unread, Bool.false_or]
    exact ih _ unstopped.2
  · intro body after literal apart _ ih inWord unstopped
    rw [outside_literal quiet literal] at unstopped
    rw [emptyLiterals_literal literal apart, ← ih false unstopped]
    cases inWord <;> rfl

theorem allowsNull_default {rest : List Char} (breaks : Breaks rest) {value : List Char}
    (default : IsDefault value) : allowsNull (" DEFAULT ".toList ++ (value ++ rest)) = allowsNull rest := by
  rw [allowsNull_prepend (by decide) fun _ => rfl, allowsNull_append default.bare.closed breaks.quote (breaks.phrases _ (by decide)), default.allowsNull_eq,
    Bool.true_and]

end EmptyLiterals

/-- The clauses after a default, with the semicolon that ends a statement if it is `terminated`. -/
def afterDefault (isNullable terminated : Bool) : List Char :=
  (if isNullable then [] else " NOT NULL".toList) ++ (if terminated then [';'] else [])

theorem endsDefault_afterDefault (isNullable terminated : Bool) :
    EndsDefault (afterDefault isNullable terminated) where
  toBreaks := by cases isNullable <;> cases terminated <;> exact .of_all rfl (by decide)
  stops inWord := by cases isNullable <;> cases terminated <;> cases inWord <;> decide

def clauseChars (value : Option (List Char)) (isNullable terminated : Bool) : List Char :=
  (value.elim [] fun value => " DEFAULT ".toList ++ value) ++ afterDefault isNullable terminated

section Clauses

variable {value : Option (List Char)} {isNullable terminated : Bool}

theorem clauseChars_semicolon : clauseChars value isNullable false ++ [';'] = clauseChars value isNullable true := by
  rw [clauseChars, clauseChars, List.append_assoc]
  cases isNullable <;> rfl

theorem declaredDefault_clauseChars (readable : ∀ v ∈ value, IsDefault v) :
    declaredDefault (clauseChars value isNullable terminated) = value.map String.ofList := by
  cases value with
  | none => cases isNullable <;> cases terminated <;> rfl
  | some v =>
    rw [clauseChars, Option.elim_some, List.append_assoc]
    exact declaredDefault_append (endsDefault_afterDefault _ _) (readable v rfl)

theorem allowsNull_clauseChars (readable : ∀ v ∈ value, IsDefault v) :
    allowsNull (clauseChars value isNullable terminated) = isNullable := by
  have tail : allowsNull (afterDefault isNullable terminated) = isNullable := by
    rw [allowsNull, ← List.append_nil (afterDefault isNullable terminated), emptyLiterals_append, emptyLiterals]
    · cases isNullable <;> cases terminated <;> decide
    · cases isNullable <;> cases terminated <;> decide
  cases value with
  | none => exact tail
  | some v =>
    rw [clauseChars, Option.elim_some, List.append_assoc,
      allowsNull_default (endsDefault_afterDefault _ _).toBreaks (readable v rfl), tail]

/-- A text with clauses after it ends with something other than white space if it does without them.
-/
theorem last_clauseChars (readable : ∀ v ∈ value, IsDefault v) {front : List Char}
    (solid : ∀ c ∈ front.getLast?, isBlank c = false) :
    ∀ c ∈ (front ++ clauseChars value isNullable terminated).getLast?, isBlank c = false := by
  intro c last
  rw [clauseChars, ← List.append_assoc, List.getLast?_append] at last
  by_cases tail : afterDefault isNullable terminated = []
  · rw [tail, List.getLast?_nil, Option.none_or] at last
    cases value with
    | none => exact solid c (List.append_nil front ▸ last)
    | some v =>
      obtain ⟨given, trimmed, _, _⟩ := readable v rfl
      rw [Option.elim_some, List.getLast?_append, List.getLast?_append,
        List.getLast?_eq_some_getLast given, Option.some_or, Option.some_or] at last
      exact trimmed.last c (List.getLast?_eq_some_getLast given ▸ last)
  · have end_ : (afterDefault isNullable terminated).getLast?.all (fun c => !isBlank c) = true := by
      cases isNullable <;> cases terminated <;> decide
    rw [List.getLast?_eq_some_getLast tail] at end_ last
    rw [Option.some_or, Option.mem_some_iff] at last
    subst last
    simpa using end_

theorem bare_clauseChars (readable : ∀ v ∈ value, IsDefault v) : Bare (clauseChars value isNullable terminated) := by
  have tail : Bare (afterDefault isNullable terminated) := by
    rw [← List.append_nil (afterDefault _ _)]
    exact bare_nil.prepend (by cases isNullable <;> cases terminated <;> decide)
  have joint : ∀ c ∈ (afterDefault isNullable terminated).head?, c ≠ '-' ∧ c ≠ '*' := by
    cases isNullable <;> cases terminated <;> simp [afterDefault]
  cases value with
  | none => exact tail
  | some v =>
    rw [clauseChars, Option.elim_some, List.append_assoc]
    exact ((readable v rfl).bare.append tail joint).prepend (by decide)

theorem withLineFeeds_clauseChars {default : Option String} (readable : ∀ v ∈ default, IsDefault v.toList) :
    withLineFeeds (clauseChars (default.map String.toList) isNullable terminated) =
      clauseChars ((default.map lineFed).map String.toList) isNullable terminated := by
  have tail : withLineFeeds (afterDefault isNullable terminated) = afterDefault isNullable terminated := by
    cases isNullable <;> cases terminated <;> decide
  cases default with
  | none => exact tail
  | some v =>
    have stop : '\r' ∉ v.toList.getLast? := fun last => by cases (readable v rfl).trimmed.last _ last
    have fed : (lineFed v).toList = withLineFeeds v.toList := String.toList_ofList
    rw [Option.map_some, Option.map_some, Option.map_some, fed, clauseChars, clauseChars, Option.elim_some,
      Option.elim_some, List.append_assoc, List.append_assoc, withLineFeeds_prepend (by decide),
      withLineFeeds_append stop, tail]

end Clauses

theorem readable_map {default : Option String} (readable : ∀ v ∈ default, IsDefault v.toList) :
    ∀ v ∈ default.map String.toList, IsDefault v := by
  intro v member
  obtain ⟨text, given, rfl⟩ := Option.map_eq_some_iff.mp member
  exact readable text given

theorem readable_lineFed {default : Option String} (readable : ∀ v ∈ default, IsDefault v.toList) :
    ∀ v ∈ default.map lineFed, IsDefault v.toList := by
  intro v member
  obtain ⟨text, given, rfl⟩ := Option.map_eq_some_iff.mp member
  rw [lineFed, String.toList_ofList]
  exact (readable text given).withLineFeeds

theorem attributes_eq {default : Option String} (readable : ∀ v ∈ default, IsDefault v.toList)
    (isNullable : Bool) : (attributes default isNullable).toList =
      clauseChars (default.map String.toList) isNullable false := by
  cases default with
  | none => cases isNullable <;> rfl
  | some v =>
    have trimmed := (readable v rfl).trimmed.trimChars_eq
    have same : trim v = v := by rw [trim, trimmed, String.ofList_toList]
    have given : v.isEmpty = false := by
      rw [← Bool.not_eq_true, String.isEmpty_iff]
      rintro rfl
      exact (readable "" rfl).given rfl
    rw [attributes, Option.getD_some, same]
    simp only [given, clauseChars]
    cases isNullable <;> simp [afterDefault]

end SchemaSync.Script
