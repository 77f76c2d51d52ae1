import Mathlib.Data.List.Pairwise
import SchemaSync.Proofs.Definitions.Account
import SchemaSync.Proofs.Definitions.Provenance

/-! When a definition set is read without a warning: all of its scripts are, and no two of one kind define the same
object. -/

namespace SchemaSync

namespace ScriptReader

variable {α : Type} (reader : ScriptReader α)

/-- No script is skipped if and only if each gives an object, with a key that neither is taken nor comes up before. -/
theorem warnings_outcomes_eq_nil_iff (taken : List NameKey) (scripts : List ScriptFile) :
    Outcomes.warnings (reader.outcomes taken scripts) = [] ↔
      (∀ script ∈ scripts, ∃ object, reader.read script.text = .ok object ∧ reader.key object ∉ taken) ∧
        scripts.Pairwise fun earlier script => ∀ one two, reader.read earlier.text = .ok one →
          reader.read script.text = .ok two → reader.key one ≠ reader.key two := by
  -- A key that is given joins the taken ones, so the rest is about both conditions at once.
  induction scripts generalizing taken with
  | nil => simp [outcomes, Outcomes.warnings]
  | cons script rest ih =>
    rw [List.forall_mem_cons, List.pairwise_cons]
    rcases reader.outcome_cases taken script with ⟨warning, skipped, inside⟩ | ⟨object, accepted, read, outside⟩
    · rw [outcomes_skipped skipped]
      refine iff_of_false (List.cons_ne_nil warning _) ?_
      rintro ⟨⟨⟨object, read, outside⟩, _⟩, _⟩
      exact outside (inside object read)
    · rw [outcomes_accepted accepted]
      refine (ih (reader.key object :: taken)).trans ?_
      constructor
      · rintro ⟨each, apart⟩
        refine ⟨⟨⟨object, read, outside⟩, fun other member => ?_⟩, fun other member one two first second => ?_, apart⟩
        · obtain ⟨given, again, fresh⟩ := each other member
          exact ⟨given, again, fun taken => fresh (List.mem_cons_of_mem _ taken)⟩
        · obtain ⟨given, again, fresh⟩ := each other member
          cases read.symm.trans first
          cases again.symm.trans second
          exact fun same => fresh (List.mem_cons.mpr (.inl same.symm))
      · rintro ⟨⟨_, each⟩, first, apart⟩
        refine ⟨fun other member => ?_, apart⟩
        obtain ⟨given, again, fresh⟩ := each other member
        refine ⟨given, again, fun taken => ?_⟩
        rcases List.mem_cons.mp taken with same | taken
        · exact first other member object given read again same.symm
        · exact fresh taken

end ScriptReader

namespace Definitions

/-- A script defines an object of some kind and key. -/
def Defines (kind : ObjectKind) (text : String) (key : NameKey) : Prop :=
  match kind with
  | .domain => ∃ d, Domain.ofScript text = .ok d ∧ d.key = key
  | .table => ∃ t, Table.ofScript text = .ok t ∧ t.key = key
  | .procedure => ∃ p, Procedure.ofScript text = .ok p ∧ p.key = key

/-- Each script for a kind of object defines one, and none before it, by the order of names, defines one with the same
key. -/
def Parsed (files : Tree) (root : Path) (kind : ObjectKind) : Prop :=
  ∀ script, OfKind files root kind script → ∃ key, Defines kind script.text key ∧
    ∀ earlier, OfKind files root kind earlier → earlier.path.name < script.path.name → ¬Defines kind earlier.text key

/-- A clean definition set: it has a script, each file can be read, each script tells its kind, and all are parsed. -/
structure Clean (files : Tree) (root : Path) : Prop where
  given : ∃ kind script, OfKind files root kind script
  readable : ∀ directory path, Consulted files root directory → ¬Unreadable files directory path
  told : ∀ script, ¬Untold files root script
  parsed : ∀ kind, Parsed files root kind

/-- What holds of any two scripts, one before the other, in a list by name. -/
theorem pairwise_iff_of_byName {scripts : List ScriptFile} (order : ByName (scripts.map ScriptFile.path))
    {related : ScriptFile → ScriptFile → Prop} : scripts.Pairwise related ↔
      ∀ first ∈ scripts, ∀ second ∈ scripts, first.path.name < second.path.name → related first second := by
  have order := List.pairwise_map.mp order
  constructor
  · intro pairs
    -- Membership does not tell which of two scripts is first, so the claim is made for both orders.
    have same : ∀ script ∈ scripts, script.path.name < script.path.name → related script script :=
      fun script _ against => absurd against (String.lt_irrefl _)
    have earlier : scripts.Pairwise fun first second => first.path.name < second.path.name → related first second := by
      refine pairs.imp ?_
      exact fun holds _ => holds
    have later : scripts.Pairwise fun first second => second.path.name < first.path.name → related second first :=
      order.imp fun before against => absurd against (String.lt_asymm before)
    exact fun first one second two => List.Pairwise.forall_of_forall_of_flip same earlier later one two
  · intro every
    exact order.imp_of_mem fun one two before => every _ one _ two before

/-- Scripts of one kind are read without a warning if each defines an object that none before it defines. -/
theorem warnings_eq_nil_iff {α : Type} {reader : ScriptReader α} {kind : ObjectKind}
    (defines : ∀ text key, Defines kind text key ↔ ∃ object, reader.read text = .ok object ∧ reader.key object = key)
    {scripts : List ScriptFile} (order : ByName (scripts.map ScriptFile.path)) :
    Outcomes.warnings (reader.outcomes [] scripts) = [] ↔ ∀ script ∈ scripts, ∃ key, Defines kind script.text key ∧
      ∀ earlier ∈ scripts, earlier.path.name < script.path.name → ¬Defines kind earlier.text key := by
  rw [reader.warnings_outcomes_eq_nil_iff, pairwise_iff_of_byName order]
  constructor
  · rintro ⟨each, apart⟩ script member
    obtain ⟨object, read, _⟩ := each script member
    refine ⟨reader.key object, (defines _ _).mpr ⟨object, read, rfl⟩, fun earlier found before same => ?_⟩
    obtain ⟨other, given, equal⟩ := (defines _ _).mp same
    exact apart earlier found script member before other object given read equal
  · intro every
    constructor
    · intro script member
      obtain ⟨key, defined, _⟩ := every script member
      obtain ⟨object, read, _⟩ := (defines _ _).mp defined
      exact ⟨object, read, List.not_mem_nil⟩
    · intro earlier found script member before one two given read same
      obtain ⟨key, defined, fresh⟩ := every script member
      obtain ⟨object, again, rfl⟩ := (defines _ _).mp defined
      cases read.symm.trans again
      exact fresh earlier found before ((defines _ _).mpr ⟨one, given, same⟩)

namespace Accounts

variable {files : Tree} {root : Path} {set : ScriptSet} {unread undetected : List Path}
  (accounts : Accounts files root set unread undetected)
include accounts

theorem warnings_eq_nil_iff : set.warnings = [] ↔
    (∀ directory path, Consulted files root directory → ¬Unreadable files directory path) ∧
      ∀ script, ¬Untold files root script := by
  rw [accounts.warnings, List.append_eq_nil_iff, List.map_eq_nil_iff, List.map_eq_nil_iff,
    List.eq_nil_iff_forall_not_mem, List.eq_nil_iff_forall_not_mem]
  refine and_congr ⟨fun none directory path consulted failed => ?_, fun readable path inside => ?_⟩
    ⟨fun none script untold => ?_, fun told path inside => ?_⟩
  · exact none path ((accounts.unreadable path).mpr ⟨directory, consulted, failed⟩)
  · obtain ⟨directory, consulted, failed⟩ := (accounts.unreadable path).mp inside
    exact readable directory path consulted failed
  · exact none script.path ((accounts.untold _).mpr ⟨script, untold, rfl⟩)
  · obtain ⟨script, untold, _⟩ := (accounts.untold path).mp inside
    exact told script untold

theorem total_ne_zero_iff : set.total ≠ 0 ↔ ∃ kind script, OfKind files root kind script :=
  ScriptGroups.total_ne_zero_iff.trans (exists_congr fun kind => exists_congr (accounts.scripts kind))

end Accounts

end Definitions

end SchemaSync
