import SchemaSync.CommandLine.Program
import SchemaSync.Proofs.Run.PartialFailure

/-! What a part of the program has shown when it ends. The screen may refuse an item, and then the program breaks off
after the items before it. -/

namespace SchemaSync.CommandLine

open Firebird

/-- The exit code of the program, by how a command ends. A failure that breaks it off counts as one. -/
def exitStatus : Except Error Nat → Nat
  | .ok code => code
  | .error _ => 1

def Unasked (items : List Item) : Prop :=
  ∀ item ∈ items, item.isQuestion = false

theorem Unasked.append {first second : List Item} (one : Unasked first) (two : Unasked second) :
    Unasked (first ++ second) :=
  List.forall_mem_append.mpr ⟨one, two⟩

/-- Items up to the first one that the screen refuses. -/
structure Cut (screen : Screen) (items shown : List Item) (reason : String) : Prop where
  prints : screen.Prints shown
  refused : ∃ item after, items = shown ++ item :: after ∧ screen.refusal? item = some reason

namespace Cut

variable {screen : Screen} {items shown : List Item} {reason : String} (cut : Cut screen items shown reason)

include cut

theorem after {first : List Item} (printed : screen.Prints first) : Cut screen (first ++ items) (first ++ shown) reason := by
  obtain ⟨prints, item, rest, rfl, refused⟩ := cut
  exact ⟨List.forall_mem_append.mpr ⟨printed, prints⟩, item, rest, (List.append_assoc _ _ _).symm, refused⟩

theorem append (more : List Item) : Cut screen (items ++ more) shown reason := by
  obtain ⟨prints, item, rest, rfl, refused⟩ := cut
  exact ⟨prints, item, rest ++ more, List.append_assoc _ _ _, refused⟩

theorem unasked (quiet : Unasked items) : Unasked shown := by
  obtain ⟨_, item, after, rfl, _⟩ := cut
  exact fun item member => quiet item (List.mem_append_left _ member)

end Cut

/-- The end of a program that shows its last items and exits with a code, unless an item is refused. -/
inductive Ending (screen : Screen) (items : List Item) (code : Nat) : List Item → Except Error Nat → Prop
  | whole (prints : screen.Prints items) : Ending screen items code items (.ok code)
  | broken {shown : List Item} {reason : String} (cut : Cut screen items shown reason) :
      Ending screen items code shown (.error (.unprintable reason))

namespace Ending

variable {screen : Screen} {items shown : List Item} {code : Nat} {result : Except Error Nat}
  (ending : Ending screen items code shown result)

include ending

theorem after {first : List Item} (printed : screen.Prints first) :
    Ending screen (first ++ items) code (first ++ shown) result := by
  cases ending with
  | whole prints => exact .whole (List.forall_mem_append.mpr ⟨printed, prints⟩)
  | broken cut => exact .broken (cut.after printed)

theorem unasked (quiet : Unasked items) : Unasked shown := by
  cases ending with
  | whole => exact quiet
  | broken cut => exact cut.unasked quiet

end Ending

structure Shows {α : Type} (screen : Screen) (part : Show α) (world : World Item (List Call)) (result : Except Error α)
    (calls : List Call) (items : List Item) : Prop extends Ends part world result calls where
  shown : (part.perform world).2.journal = world.journal ++ items
  prints : screen.Prints items

namespace Shows

variable {α β : Type} {screen : Screen} {part : Show α} {world : World Item (List Call)} {value : α} {error : Error}
  {result : Except Error β} {first second : List Call} {shown more : List Item}

theorem ofExcept (result : Except Error β) (world : World Item (List Call)) :
    Shows screen (Action.ofExcept result) world result [] [] :=
  ⟨.ofExcept result world, (List.append_nil _).symm, List.forall_mem_nil _⟩

theorem pure (value : β) (world : World Item (List Call)) : Shows screen (Pure.pure value) world (.ok value) [] [] :=
  ofExcept (.ok value) world

theorem bind (one : Shows screen part world (.ok value) first shown) {next : α → Show β}
    (two : Shows screen (next value) (part.perform world).2 result second more) :
    Shows screen (part >>= next) world result (first ++ second) (shown ++ more) := by
  have ended : part.perform world = (.ok value, (part.perform world).2) := Prod.ext one.result rfl
  refine ⟨one.toEnds.bind two.toEnds, ?_, List.forall_mem_append.mpr ⟨one.prints, two.prints⟩⟩
  rw [Action.perform_bind_ok ended next, two.shown, one.shown, List.append_assoc]

theorem bind_error (one : Shows screen part world (.error error) first shown) (next : α → Show β) :
    Shows screen (part >>= next) world (.error error) first shown := by
  have ended : part.perform world = (.error error, (part.perform world).2) := Prod.ext one.result rfl
  refine ⟨one.toEnds.bind_error next, ?_, one.prints⟩
  rw [Action.perform_bind_error ended next, one.shown]

/-- What comes of a part and what follows it, said of all calls and items of the two. -/
theorem goOn (one : Shows screen part world (.ok value) first shown) {next : α → Show β}
    {P : Except Error β → List Call → List Item → Prop}
    (two : ∃ result calls items, Shows screen (next value) (part.perform world).2 result calls items ∧
      P result (first ++ calls) (shown ++ items)) :
    ∃ result calls items, Shows screen (part >>= next) world result calls items ∧ P result calls items := by
  obtain ⟨result, calls, items, shows, property⟩ := two
  exact ⟨result, first ++ calls, shown ++ items, one.bind shows, property⟩

theorem item {item : Item} (printed : screen.refusal? item = none) (world : World Item (List Call)) :
    Shows screen (Show.item screen item) world (.ok ()) [] [item] := by
  rw [Show.item, printed]
  exact ⟨⟨rfl, (List.append_nil _).symm⟩, rfl, List.forall_mem_singleton.mpr printed⟩

theorem item_refused {item : Item} {reason : String} (refused : screen.refusal? item = some reason)
    (world : World Item (List Call)) : Shows screen (Show.item screen item) world (.error (.unprintable reason)) [] [] := by
  rw [Show.item, refused]
  exact .ofExcept _ world

variable (screen)

theorem items (items : List Item) (world : World Item (List Call)) :
    screen.Prints items ∧ Shows screen (Show.items screen items) world (.ok ()) [] items ∨
      ∃ shown reason, Cut screen items shown reason ∧
        Shows screen (Show.items screen items) world (.error (.unprintable reason)) [] shown := by
  induction items generalizing world with
  | nil => exact .inl ⟨List.forall_mem_nil _, .pure () world⟩
  | cons item rest ih =>
    cases refusal : screen.refusal? item with
    | some reason =>
      have here : Cut screen (item :: rest) [] reason := ⟨List.forall_mem_nil _, item, rest, rfl, refusal⟩
      exact .inr ⟨[], reason, here, (item_refused refusal world).bind_error _⟩
    | none =>
      have first := Shows.item refusal world
      rcases ih ((Show.item screen item).perform world).2 with ⟨prints, shows⟩ | ⟨shown, reason, cut, shows⟩
      · exact .inl ⟨List.forall_mem_append.mpr ⟨first.prints, prints⟩, first.bind shows⟩
      · exact .inr ⟨item :: shown, reason, cut.after first.prints, first.bind shows⟩

theorem exitWith (last : List Item) (code : Nat) (world : World Item (List Call)) : ∃ result shown,
    Shows screen (Show.exitWith screen last code) world result [] shown ∧ Ending screen last code shown result := by
  rcases Shows.items screen last world with ⟨prints, shows⟩ | ⟨shown, reason, cut, shows⟩
  · have whole : Shows screen (Show.exitWith screen last code) world (.ok code) [] (last ++ []) := shows.bind (.pure code _)
    rw [List.append_nil] at whole
    exact ⟨.ok code, last, whole, .whole prints⟩
  · exact ⟨_, shown, shows.bind_error _, .broken cut⟩

/-- A run that is followed shows only lines that no screen refuses. -/
theorem follow (verbose : Bool) (world : World Item (List Call)) {run : Action Entry (List Call) α}
    {outcome : Except Error α} {calls : List Call}
    (ends : Ends run ⟨world.files, world.remote, []⟩ outcome calls) :
    ∃ items, Shows screen (Show.follow screen verbose run) world (.ok outcome) calls items ∧ Unasked items := by
  have each : ∀ entry, ∀ item ∈ Item.ofEntry screen.escape verbose entry,
      screen.refusal? item = none ∧ item.isQuestion = false := by
    intro entry item given
    cases entry with
    | log record =>
      rw [Item.ofEntry, Item.ofLog] at given
      split at given
      · rw [List.mem_singleton.mp given]
        exact ⟨screen.shows_log record, rfl⟩
      · cases given
    | event event =>
      rw [Item.ofEntry] at given
      split at given
      · rw [List.mem_singleton.mp given]
        exact ⟨screen.shows_escaped _ _ _, rfl⟩
      · cases given
  refine ⟨_, ⟨ends.within.attempt, rfl, fun item member => ?_⟩, fun item member => ?_⟩
  all_goals obtain ⟨entry, _, given⟩ := List.mem_flatMap.mp member
  · exact (each entry item given).1
  · exact (each entry item given).2

/-- A failure that may be shown is the last item. -/
theorem exitOnError {error : Error} (declared : error.kind.isDeclared = true) (world : World Item (List Call)) :
    ∃ result shown, Shows screen (Show.exitOnError screen error) world result [] shown ∧
      Ending screen [.failure error.message] error.kind.exitCode shown result := by
  rw [Show.exitOnError, if_pos declared]
  exact exitWith screen _ _ world

end Shows

end SchemaSync.CommandLine
