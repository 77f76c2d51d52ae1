import SchemaSync.Proofs.Script.Nesting

/-! Splitting a text at its commas and joining parts by commas undo each other. Each part but the last leaves no
parenthesis and no apostrophe open, whatever text it is cut from, so the parts are cut at the same places again. -/

namespace SchemaSync.Script

open Text

open Nesting

/-- Parts that separate where they meet. The first one starts at a nesting, and each of the others where nothing is
open. Only the last one may leave something open. -/
inductive Separated : Nesting → List (List Char) → Prop
  | last {n m : Nesting} {part : List Char} (through : n.through? part = some m) : Separated n [part]
  | cons {n : Nesting} {part : List Char} {rest : List (List Char)} (through : n.through? part = some outer)
      (more : Separated outer rest) : Separated n (part :: rest)

namespace Separated

variable {n : Nesting} {parts : List (List Char)}

theorem ne_nil (separated : Separated n parts) : parts ≠ [] := by
  cases separated <;> exact List.cons_ne_nil _ _

theorem extend {c : Char} {part : List Char} (goesOn : n.separates c = false)
    (separated : Separated (n.next c) (part :: parts)) : Separated n ((c :: part) :: parts) := by
  have step (m : Nesting) (through : (n.next c).through? part = some m) : n.through? (c :: part) = some m := by
    rw [through?, goesOn, if_neg Bool.false_ne_true, through]
  cases separated with
  | last through => exact .last (step _ through)
  | cons through more => exact .cons (step _ through) more

end Separated

/-- Any text, malformed ones included, is split into parts that separate where they meet. -/
theorem separated_splitAtCommas (n : Nesting) (cs : List Char) : Separated n (splitAtCommas n.depth n.quoted cs) := by
  induction cs generalizing n with
  | nil => exact .last rfl
  | cons c cs ih =>
    cases cuts : n.separates c with
    | true =>
      have open_ := cuts
      simp only [separates, Bool.and_eq_true, Bool.not_eq_true', beq_iff_eq] at open_
      obtain ⟨⟨unquoted, rfl⟩, depth⟩ := open_
      have here : n = outer := by
        cases n
        cases unquoted
        cases depth
        rfl
      subst here
      exact .cons rfl (ih outer)
    | false =>
      have later := ih (n.next c)
      obtain ⟨part, parts, split⟩ := List.exists_cons_of_ne_nil later.ne_nil
      rw [split] at later
      have whole : splitAtCommas n.depth n.quoted (c :: cs) = (c :: part) :: parts := splitAtCommas_cons cuts split
      rw [whole]
      exact later.extend cuts

/-- Parts that separate where they meet are the parts of their join. -/
theorem Separated.splitAtCommas_join {n : Nesting} {parts : List (List Char)} (separated : Separated n parts) :
    splitAtCommas n.depth n.quoted ([','].intercalate parts) = parts := by
  induction separated with
  | @last n m part through =>
    have alone : splitAtCommas m.depth m.quoted [] = [[]] := rfl
    have whole := splitAtCommas_through through alone
    rw [List.append_nil] at whole
    rw [List.intercalate_singleton, whole]
  | @cons n part rest through more ih =>
    obtain ⟨next, others, split⟩ := List.exists_cons_of_ne_nil more.ne_nil
    have comma : splitAtCommas outer.depth outer.quoted (',' :: [','].intercalate rest) = [] :: rest := congrArg _ ih
    have whole := splitAtCommas_through through comma
    rw [List.append_nil] at whole
    rw [split, List.intercalate_cons_cons, ← split, List.append_assoc, List.singleton_append, whole]

/-- What is left of parts when white space at their ends and empty parts are dropped. -/
def neat (parts : List (List Char)) : List (List Char) :=
  (parts.map trimChars).filter (!·.isEmpty)

theorem columnDefinitions_eq (body : List Char) : columnDefinitions body = neat (splitAtCommas 0 false body) :=
  rfl

theorem neat_cons (part : List Char) (parts : List (List Char)) :
    neat (part :: parts) = if trimChars part = [] then neat parts else trimChars part :: neat parts := by
  rw [neat, List.map_cons, List.filter_cons]
  by_cases empty : trimChars part = []
  · rw [empty]
    rfl
  · rw [if_neg empty, if_pos (by simpa using empty)]
    rfl

theorem mem_neat {part : List Char} {parts : List (List Char)} (member : part ∈ neat parts) :
    Trimmed part ∧ part ≠ [] := by
  obtain ⟨member, given⟩ := List.mem_filter.mp member
  obtain ⟨whole, _, rfl⟩ := List.mem_map.mp member
  exact ⟨trimmed_trimChars whole, by simpa using given⟩

theorem Separated.columnDefinitions_join {parts : List (List Char)} (separated : Separated outer parts) :
    columnDefinitions ([','].intercalate parts) = neat parts := by
  have split : splitAtCommas 0 false ([','].intercalate parts) = parts := separated.splitAtCommas_join
  rw [columnDefinitions_eq, split]

theorem neat_eq_self {parts : List (List Char)} (tidy : ∀ part ∈ parts, Trimmed part ∧ part ≠ []) :
    neat parts = parts := by
  have trimmed : parts.map trimChars = parts :=
    (List.map_congr_left fun part member => (tidy part member).1.trimChars_eq).trans (List.map_id' parts)
  rw [neat, trimmed]
  exact List.filter_eq_self.mpr fun part member => by simpa using (tidy part member).2

theorem Separated.neat {parts : List (List Char)} (separated : Separated outer parts) :
    neat parts = [] ∨ Separated outer (neat parts) := by
  generalize start : outer = n at separated
  induction separated with
  | @last n m part through =>
    rw [neat_cons]
    split
    · exact .inl rfl
    · exact .inr (.last ((through?_trimChars part).trans through))
  | @cons n part rest through more ih =>
    subst start
    have tidied : outer.through? (trimChars part) = some outer := (through?_trimChars part).trans through
    rw [neat_cons]
    split
    · exact ih rfl
    · refine .inr ?_
      rcases ih rfl with none | some
      · rw [none]
        exact .last tidied
      · exact .cons tidied some

section Parts

/-- The characters of a text outside apostrophes. `quoted` tells whether one is open at the start. -/
def unquoted (quoted : Bool) (cs : List Char) : List Char :=
  match cs with
  | [] => []
  | c :: rest =>
    if c == '\'' then unquoted (!quoted) rest
    else if quoted then unquoted quoted rest
    else c :: unquoted quoted rest

/-- Parentheses match, and commas stand in them only. `depth` parentheses are open at the start. -/
structure Encloses (depth : Nat) (cs : List Char) : Prop where
  closes : ∀ front, front <+: cs → front.count ')' ≤ depth + front.count '('
  matches_ : cs.count ')' = depth + cs.count '('
  commas : ∀ front, front ++ [','] <+: cs → front.count ')' < depth + front.count '('

structure IsPart (cs : List Char) : Prop where
  given : cs ≠ []
  trimmed : Trimmed cs
  paired : cs.count '\'' % 2 = 0
  encloses : Encloses 0 (unquoted false cs)

theorem encloses_nil {depth : Nat} : Encloses depth [] ↔ depth = 0 := by
  constructor
  · intro encloses
    simpa using encloses.matches_.symm
  · rintro rfl
    exact ⟨by simp, rfl, by simp⟩

theorem encloses_cons {depth : Nat} {c : Char} {cs : List Char} : Encloses depth (c :: cs) ↔
    (c = ')' ∨ c = ',' → 0 < depth) ∧
      Encloses (if c = '(' then depth + 1 else if c = ')' then depth - 1 else depth) cs := by
  -- A front of the longer text is empty, or a front of the rest with `c` before it, which shifts the counts.
  have counts (d : Char) (front : List Char) : (c :: front).count d = front.count d + if c = d then 1 else 0 := by
    rw [List.count_cons]
    simp
  constructor
  · intro whole
    have inside : c = ')' ∨ c = ',' → 0 < depth := by
      rintro (rfl | rfl)
      · have here := whole.closes [')'] (by simp)
        simpa [Nat.pos_iff_ne_zero, Nat.one_le_iff_ne_zero] using here
      · simpa using whole.commas [] (by simp)
    refine ⟨inside, ?_, ?_, ?_⟩
    · intro front before
      have here := whole.closes (c :: front) (List.cons_prefix_cons.mpr ⟨rfl, before⟩)
      rw [counts, counts] at here
      grind
    · have here := whole.matches_
      rw [counts, counts] at here
      grind
    · intro front before
      have here := whole.commas (c :: front) (List.cons_prefix_cons.mpr ⟨rfl, before⟩)
      rw [counts, counts] at here
      grind
  · rintro ⟨inside, rest⟩
    refine ⟨?_, ?_, ?_⟩
    · intro front before
      rcases List.prefix_cons_iff.mp before with rfl | ⟨front, rfl, later⟩
      · exact Nat.zero_le _
      · have here := rest.closes front later
        rw [counts, counts]
        grind
    · have here := rest.matches_
      rw [counts, counts]
      grind
    · intro front before
      cases front with
      | nil =>
        obtain ⟨rfl, _⟩ := List.cons_prefix_cons.mp before
        simpa using inside (.inr rfl)
      | cons d front =>
        obtain ⟨rfl, later⟩ := List.cons_prefix_cons.mp before
        have here := rest.commas front later
        rw [counts, counts]
        grind

/-- A text is nested if its apostrophes come in pairs, and parentheses outside them match and hold all commas. -/
theorem nested_iff {n : Nesting} {cs : List Char} : nested n.depth n.quoted cs = true ↔
    (cs.count '\'' + n.quoted.toNat) % 2 = 0 ∧ Encloses n.depth (unquoted n.quoted cs) := by
  induction cs generalizing n with
  | nil =>
    obtain ⟨depth, quoted⟩ := n
    cases quoted <;> simp [nested, unquoted, encloses_nil]
  | cons c cs ih =>
    obtain ⟨depth, quoted⟩ := n
    have count : (c :: cs).count '\'' = cs.count '\'' + if c = '\'' then 1 else 0 := by
      rw [List.count_cons]
      simp
    rw [nested_cons_iff, ih, count, unquoted]
    by_cases quote : c = '\''
    · subst quote
      cases quoted with
      | true =>
        simp [next]
        omega
      | false => simp [next]
    · have other : (c == '\'') = false := beq_eq_false_iff_ne.mpr quote
      cases quoted <;> simp [next, quote, other, encloses_cons, and_left_comm]

theorem isPart_iff {cs : List Char} : IsPart cs ↔ cs ≠ [] ∧ Trimmed cs ∧ nested 0 false cs = true := by
  have whole : nested 0 false cs = true ↔ cs.count '\'' % 2 = 0 ∧ Encloses 0 (unquoted false cs) :=
    nested_iff (n := outer)
  rw [whole]
  exact ⟨fun part => ⟨part.given, part.trimmed, part.paired, part.encloses⟩,
    fun ⟨given, trimmed, paired, encloses⟩ => ⟨given, trimmed, paired, encloses⟩⟩

end Parts

/-- A definition with white space around it. -/
structure SpacedPart where
  before : String
  definition : String
  after : String
  blankBefore : isBlankText before = true
  blankAfter : isBlankText after = true
  isPart : IsPart definition.toList

namespace SpacedPart

def text (p : SpacedPart) : String :=
  p.before ++ p.definition ++ p.after

theorem trimChars_text (p : SpacedPart) : trimChars p.text.toList = p.definition.toList := by
  have front := List.all_eq_true.mp p.blankBefore
  have back := List.all_eq_true.mp p.blankAfter
  rw [text, String.toList_append, String.toList_append, trimChars_append_blanks back, trimChars_blanks front,
    p.isPart.trimmed.trimChars_eq]

theorem through?_text (p : SpacedPart) : outer.through? p.text.toList = some outer := by
  rw [← through?_trimChars, trimChars_text]
  exact through?_nested (isPart_iff.mp p.isPart).2.2

theorem separated (first : SpacedPart) (rest : List SpacedPart) :
    Separated outer ((first :: rest).map (·.text.toList)) := by
  induction rest generalizing first with
  | nil => exact .last first.through?_text
  | cons next rest ih => exact .cons first.through?_text (ih next)

theorem neat_text (parts : List SpacedPart) :
    neat (parts.map (·.text.toList)) = parts.map (·.definition.toList) := by
  rw [neat, List.map_map, List.map_congr_left fun p _ => p.trimChars_text]
  refine List.filter_eq_self.mpr fun part member => ?_
  obtain ⟨p, _, rfl⟩ := List.mem_map.mp member
  simpa using p.isPart.given

end SpacedPart

/-- The parts of any text come back from their join. -/
theorem columnDefinitions_join_self (cs : List Char) :
    columnDefinitions ([','].intercalate (columnDefinitions cs)) = columnDefinitions cs := by
  rw [columnDefinitions_eq cs]
  rcases (separated_splitAtCommas outer cs).neat with none | some
  · have nothing : neat (splitAtCommas 0 false cs) = [] := none
    rw [nothing]
    rfl
  · exact some.columnDefinitions_join.trans (neat_eq_self fun _ => mem_neat)

theorem toList_joined (parts : List String) :
    (",".intercalate parts).toList = [','].intercalate (parts.map String.toList) :=
  String.toList_intercalate

/-- Splitting at commas undoes joining by commas. Definitions come back from a text in which they stand between commas
with any white space around them. The parts of any text, well formed or not, have no white space at their ends, are not
empty, and come back from their join. -/
theorem splitColumnDefinitions_join :
    (∀ parts : List SpacedPart,
      splitColumnDefinitions (",".intercalate (parts.map SpacedPart.text)) = parts.map SpacedPart.definition) ∧
    ∀ text : String, (∀ part ∈ splitColumnDefinitions text, part ≠ "" ∧ trim part = part) ∧
      splitColumnDefinitions (",".intercalate (splitColumnDefinitions text)) = splitColumnDefinitions text := by
  constructor
  · intro parts
    cases parts with
    | nil => rfl
    | cons first rest =>
      rw [splitColumnDefinitions, toList_joined, List.map_map, Function.comp_def,
        (SpacedPart.separated first rest).columnDefinitions_join, SpacedPart.neat_text, List.map_map]
      exact List.map_congr_left fun p _ => String.ofList_toList
  · intro text
    constructor
    · intro part member
      obtain ⟨cs, inside, rfl⟩ := List.mem_map.mp member
      obtain ⟨trimmed, given⟩ := mem_neat inside
      rw [trim, String.toList_ofList, trimmed.trimChars_eq]
      exact ⟨by simpa using given, rfl⟩
    · have lists :
          ((columnDefinitions text.toList).map String.ofList).map String.toList = columnDefinitions text.toList := by
        rw [List.map_map]
        exact (List.map_congr_left fun _ _ => String.toList_ofList).trans (List.map_id' _)
      rw [splitColumnDefinitions, splitColumnDefinitions, toList_joined, lists, columnDefinitions_join_self]

/-- Commas in parentheses and in literals stay where they are, and so does a part that closes too much. -/
theorem splitColumnDefinitions_join_price :
    splitColumnDefinitions "PRICE DECIMAL(10,2) ,\n NOTE VARCHAR(5) DEFAULT ',(' " =
      ["PRICE DECIMAL(10,2)", "NOTE VARCHAR(5) DEFAULT ',('"] ∧
    splitColumnDefinitions "A ) , , B ( C, 'D " = ["A )", "B ( C, 'D"] ∧
    splitColumnDefinitions "A ),B ( C, 'D" = ["A )", "B ( C, 'D"] := by
  have price : IsPart "PRICE DECIMAL(10,2)".toList :=
    isPart_iff.mpr ⟨by decide, ⟨by rintro c ⟨⟩; rfl, by rintro c ⟨⟩; rfl⟩, by decide⟩
  have note : IsPart "NOTE VARCHAR(5) DEFAULT ',('".toList :=
    isPart_iff.mpr ⟨by decide, ⟨by rintro c ⟨⟩; rfl, by rintro c ⟨⟩; rfl⟩, by decide⟩
  have malformed : splitColumnDefinitions "A ) , , B ( C, 'D " = ["A )", "B ( C, 'D"] := by decide
  have again := (splitColumnDefinitions_join.2 "A ) , , B ( C, 'D ").2
  rw [malformed] at again
  exact ⟨splitColumnDefinitions_join.1 [⟨"", _, " ", rfl, rfl, price⟩, ⟨"\n ", _, " ", rfl, rfl, note⟩], malformed,
    again⟩

end SchemaSync.Script
