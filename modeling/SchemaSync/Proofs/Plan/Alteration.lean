import Mathlib.Logic.Basic
import SchemaSync.Proofs.Plan.Effect
import SchemaSync.Proofs.Text.Trim

/-! The statements for one object carry it over to the desired attributes. They are the texts of
clauses, and the clauses leave nothing to alter. -/

namespace SchemaSync

open Keyed

/-- Attributes that a comparison takes for the same. Types only count when `withType` is set. -/
structure Attributes.Agree (withType : Bool) (a b : Attributes) : Prop where
  type : withType = true → normalizeType a.type = normalizeType b.type
  nullable : a.isNullable = b.isNullable
  default : normalizeDefault a.defaultValue = normalizeDefault b.defaultValue

namespace Attributes

def clauses (withType : Bool) (existing desired : Attributes) : List Clause :=
  (if withType && normalizeType existing.type != normalizeType desired.type then
    [.type (desired.type.getD "")] else []) ++
  (if existing.isNullable != desired.isNullable then [.nullable desired.isNullable] else []) ++
  (if normalizeDefault existing.defaultValue != normalizeDefault desired.defaultValue then
    [.default (if normalizeDefault desired.defaultValue == "" then none
      else some (Text.trim (desired.defaultValue.getD "")))] else [])

theorem alterations_eq (head : String) (withType : Bool) (existing desired : Attributes) :
    alterations head withType existing desired =
      (existing.clauses withType desired).map (head ++ ·.text) := by
  simp only [alterations, clauses, List.map_append]
  refine congrArg₂ (· ++ ·) (congrArg₂ (· ++ ·) ?_ ?_) ?_
  · split <;> simp [Clause.text, String.append_assoc]
  · split
    · cases desired.isNullable <;> simp [Clause.text]
    · rfl
  · split
    · split <;> simp [Clause.text, String.append_assoc]
    · rfl

theorem clauses_eq_nil_iff {withType : Bool} {existing desired : Attributes} :
    existing.clauses withType desired = [] ↔ existing.Agree withType desired := by
  simp only [clauses, List.append_eq_nil_iff]
  constructor
  · rintro ⟨⟨type, nullable⟩, default⟩
    exact ⟨by simpa using type, by simpa using nullable, by simpa using default⟩
  · intro agree
    refine ⟨⟨?_, by simp [agree.nullable]⟩, by simp [agree.default]⟩
    cases withType with
    | false => rfl
    | true => simp [agree.type rfl]

theorem alterations_eq_nil_iff {head : String} {withType : Bool} {existing desired : Attributes} :
    alterations head withType existing desired = [] ↔ existing.Agree withType desired := by
  rw [alterations_eq, List.map_eq_nil_iff, clauses_eq_nil_iff]

theorem mem_clauses_type {withType : Bool} {existing desired : Attributes} {text : String}
    (member : .type text ∈ existing.clauses withType desired) :
    withType = true ∧ text = desired.type.getD "" := by
  simp only [clauses, List.mem_append] at member
  rcases member with (type | nullable) | default
  · split at type <;> simp_all
  · split at nullable <;> simp_all
  · split at default <;> simp_all

theorem foldl_clauses (withType : Bool) (existing desired : Attributes) :
    (existing.clauses withType desired).foldl set existing =
      { type := if withType && normalizeType existing.type != normalizeType desired.type then
          some (desired.type.getD "") else existing.type
        isNullable := desired.isNullable
        defaultValue :=
          if normalizeDefault existing.defaultValue != normalizeDefault desired.defaultValue then
            if normalizeDefault desired.defaultValue == "" then none
            else some (Text.trim (desired.defaultValue.getD ""))
          else existing.defaultValue } := by
  have nullable : ∀ a : Attributes, a.isNullable = existing.isNullable →
      (if existing.isNullable != desired.isNullable then [Clause.nullable desired.isNullable]
        else []).foldl set a = { a with isNullable := desired.isNullable } := by
    intro a same
    split
    · rfl
    · next equal =>
      have equal : existing.isNullable = desired.isNullable := by simpa using equal
      rw [← equal, ← same]
      rfl
  rw [clauses, List.foldl_append, List.foldl_append, nullable]
  · split <;> split <;> rfl
  · split <;> rfl

/-- The clauses between two sets of attributes leave no difference. -/
theorem foldl_clauses_agree (withType : Bool) (existing desired : Attributes) :
    ((existing.clauses withType desired).foldl set existing).Agree withType desired := by
  rw [foldl_clauses]
  refine ⟨?_, rfl, ?_⟩
  · rintro rfl
    split
    · rfl
    · next equal => simpa using equal
  · dsimp only
    split
    · split
      · next empty => rw [beq_iff_eq.mp empty]; rfl
      · simp only [normalizeDefault, Option.getD_some, Text.trim_trim]
    · next equal => simpa using equal

end Attributes

namespace Domain

/-- The clauses that carry one domain over to another. -/
def clauses (existing desired : Domain) : List Clause :=
  existing.attributes.clauses true desired.attributes

/-- A domain with every attribute that differs from another one's set. -/
def altered (existing desired : Domain) : Domain :=
  (existing.clauses desired).foldl set existing

theorem alterations_eq (existing desired : Domain) :
    existing.alterations desired =
      (existing.clauses desired).map ("ALTER DOMAIN " ++ existing.name ++ ·.text) :=
  Attributes.alterations_eq _ _ _ _

theorem name_set (d : Domain) (clause : Clause) : (d.set clause).name = d.name := by
  cases clause <;> rfl

theorem foldl_set (clauses : List Clause) (d : Domain) :
    (clauses.foldl set d).name = d.name ∧
      (clauses.foldl set d).attributes = clauses.foldl Attributes.set d.attributes := by
  induction clauses generalizing d with
  | nil => exact ⟨rfl, rfl⟩
  | cons clause rest ih =>
    have attributes : (d.set clause).attributes = d.attributes.set clause := by cases clause <;> rfl
    rw [List.foldl_cons, List.foldl_cons, (ih _).1, (ih _).2, name_set, attributes]
    exact ⟨rfl, rfl⟩

theorem key_altered (existing desired : Domain) : (existing.altered desired).key = existing.key :=
  congrArg NameKey.of (foldl_set _ _).1

theorem altered_agree (existing desired : Domain) :
    (existing.altered desired).attributes.Agree true desired.attributes := by
  rw [altered, (foldl_set _ _).2]
  exact Attributes.foldl_clauses_agree true _ _

theorem altered_of_agree {existing desired : Domain}
    (agree : existing.attributes.Agree true desired.attributes) :
    existing.altered desired = existing := by
  rw [altered, clauses, Attributes.clauses_eq_nil_iff.mpr agree, List.foldl_nil]

theorem key_alter? (statement : String) (d changed : Domain)
    (altered : Domain.alter? statement d = some changed) : changed.key = d.key := by
  obtain ⟨clause, _, rfl⟩ := Option.map_eq_some_iff.mp altered
  exact congrArg NameKey.of (name_set d clause)

theorem foldlM_alter? (clauses : List Clause) (d : Domain) (name : String) (same : d.name = name) :
    (clauses.map ("ALTER DOMAIN " ++ name ++ ·.text)).foldlM (fun d statement => Domain.alter? statement d) d =
      some (clauses.foldl set d) := by
  induction clauses generalizing d with
  | nil => rfl
  | cons clause rest ih =>
    have stepped : Domain.alter? ("ALTER DOMAIN " ++ name ++ clause.text) d = some (d.set clause) := by
      rw [alter?, same, Clause.ofStatement?_append, Option.map_some]
    rw [List.map_cons, List.foldlM_cons, stepped, List.foldl_cons]
    exact ih _ ((name_set d clause).trans same)

theorem alterations_succeed (existing desired : Domain) :
    (existing.alterations desired).foldlM (fun d statement => Domain.alter? statement d) existing =
      some (existing.altered desired) := by
  rw [alterations_eq]
  exact foldlM_alter? _ existing existing.name rfl

end Domain

namespace Column

/-- Whether the types of two columns count: neither of them is bound to a domain. -/
def typesCount (existing desired : Column) : Bool :=
  !isGiven existing.domainName && !isGiven desired.domainName

def clauses (existing desired : Column) : List Clause :=
  existing.attributes.clauses (typesCount existing desired) desired.attributes

/-- A column is another one with every attribute that differs from a desired one's set. -/
structure Altered (existing desired column : Column) : Prop where
  name : column.name = existing.name
  position : column.position = existing.position
  domainName : column.domainName = existing.domainName
  attributes : column.attributes =
    (existing.clauses desired).foldl Attributes.set existing.attributes

theorem alterations_eq (table : String) (existing desired : Column) :
    Column.alterations table existing desired = (existing.clauses desired).map
      ("ALTER TABLE " ++ table ++ " ALTER COLUMN " ++ desired.name ++ ·.text) :=
  Attributes.alterations_eq _ _ _ _

theorem Altered.agree {existing desired column : Column} (altered : Altered existing desired column) :
    column.attributes.Agree (typesCount column desired) desired.attributes := by
  rw [altered.attributes, typesCount, altered.domainName]
  exact Attributes.foldl_clauses_agree _ _ _

theorem Altered.eq_of_agree {existing desired column : Column}
    (altered : Altered existing desired column)
    (agree : existing.attributes.Agree (typesCount existing desired) desired.attributes) :
    column = existing := by
  have attributes := altered.attributes
  rw [clauses, Attributes.clauses_eq_nil_iff.mpr agree, List.foldl_nil] at attributes
  obtain ⟨name, position, domainName, _⟩ := altered
  cases column
  cases existing
  simp_all [Column.attributes]

theorem set?_eq_some {c changed : Column} {clause : Clause} (result : c.set? clause = some changed) :
    changed.name = c.name ∧ changed.position = c.position ∧ changed.domainName = c.domainName ∧
      changed.attributes = c.attributes.set clause := by
  cases clause with
  | type text =>
    rw [set?] at result
    split at result
    · cases result
      exact ⟨rfl, rfl, rfl, rfl⟩
    · cases result
  | nullable allowed => cases result; exact ⟨rfl, rfl, rfl, rfl⟩
  | default value => cases result; exact ⟨rfl, rfl, rfl, rfl⟩

/-- The texts of clauses are statements that set what the clauses name. A clause for the type needs
a column of a type of its own. -/
theorem foldlM_alter? (head : String) (clauses : List Clause) (c : Column)
    (typed : ∀ text, .type text ∈ clauses → isGiven c.domainName = false ∧ isGiven (some text) = true) :
    ∃ changed, (clauses.map (head ++ ·.text)).foldlM (fun c statement => c.alter? head statement) c =
        some changed ∧ changed.name = c.name ∧ changed.position = c.position ∧
      changed.domainName = c.domainName ∧
      changed.attributes = clauses.foldl Attributes.set c.attributes := by
  induction clauses generalizing c with
  | nil => exact ⟨c, rfl, rfl, rfl, rfl, rfl⟩
  | cons clause rest ih =>
    have can : ∃ next, c.set? clause = some next := by
      cases clause with
      | type text =>
        obtain ⟨raw, given⟩ := typed text (by simp)
        exact ⟨_, by rw [set?, dif_pos (by simp [raw, given])]⟩
      | nullable allowed => exact ⟨_, rfl⟩
      | default value => exact ⟨_, rfl⟩
    obtain ⟨next, stepped⟩ := can
    obtain ⟨name, position, domainName, attributes⟩ := set?_eq_some stepped
    obtain ⟨changed, ran, name', position', domainName', attributes'⟩ := ih next
      (fun text member => by rw [domainName]; exact typed text (by simp [member]))
    refine ⟨changed, ?_, name'.trans name, position'.trans position, domainName'.trans domainName, ?_⟩
    · rw [List.map_cons, List.foldlM_cons, alter?, Clause.ofStatement?_append, Option.bind_some, stepped]
      exact ran
    · rw [attributes', attributes, List.foldl_cons]

theorem key_alter? (head statement : String) (c changed : Column)
    (altered : c.alter? head statement = some changed) : changed.key = c.key := by
  obtain ⟨clause, _, result⟩ := Option.bind_eq_some_iff.mp altered
  exact congrArg NameKey.of (set?_eq_some result).1

theorem position_alter? {head statement : String} {c changed : Column}
    (altered : c.alter? head statement = some changed) : changed.position = c.position := by
  obtain ⟨clause, _, result⟩ := Option.bind_eq_some_iff.mp altered
  exact (set?_eq_some result).2.1

theorem alterations_succeed (table : String) (existing desired : Column) :
    ∃ changed, (Column.alterations table existing desired).foldlM
        (fun c statement =>
          c.alter? ("ALTER TABLE " ++ table ++ " ALTER COLUMN " ++ desired.name) statement)
        existing = some changed ∧ Altered existing desired changed := by
  have typed : ∀ text, .type text ∈ existing.clauses desired →
      isGiven existing.domainName = false ∧ isGiven (some text) = true := by
    intro text member
    obtain ⟨counts, rfl⟩ := Attributes.mem_clauses_type member
    simp only [typesCount, Bool.and_eq_true, Bool.not_eq_true'] at counts
    refine ⟨counts.1, ?_⟩
    have typed := desired.typed
    rw [counts.2] at typed
    cases declared : desired.dataType with
    | none => simp [declared, isGiven] at typed
    | some type => simpa [declared, Column.attributes] using typed.symm
  rw [alterations_eq]
  obtain ⟨changed, ran, name, position, domainName, attributes⟩ := foldlM_alter?
    ("ALTER TABLE " ++ table ++ " ALTER COLUMN " ++ desired.name) (existing.clauses desired) existing typed
  exact ⟨changed, ran, name, position, domainName, attributes⟩

end Column

end SchemaSync
