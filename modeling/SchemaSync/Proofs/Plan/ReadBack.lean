import SchemaSync.Proofs.Plan.Agreement
import SchemaSync.Proofs.Script.ProcedureScript
import SchemaSync.Proofs.Script.TableScript

/-! An object and the one that its script gives. A comparison tells them apart by the line ends in
their defaults, and by nothing else. -/

namespace SchemaSync

open Keyed Text

def Snapshot.defaults (s : Snapshot) : List String :=
  s.domains.flatMap (·.defaultValue.toList) ++ s.tables.flatMap fun t => t.columns.flatMap (·.defaultValue.toList)

/-- Line feeds for other line ends count as a change of a default. -/
theorem normalizeDefault_lineFed {default : Option String}
    (readable : ∀ v ∈ default, Script.IsDefault v.toList) :
    normalizeDefault default = normalizeDefault (default.map lineFed) ↔ ∀ v ∈ default, '\r' ∉ v.toList := by
  cases default with
  | none => simp
  | some v =>
    have trimmed {s : String} (ends : Trimmed s.toList) : trim s = s := by
      rw [trim, ends.trimChars_eq, String.ofList_toList]
    have fed : Trimmed (lineFed v).toList := by
      rw [lineFed, String.toList_ofList]
      exact (readable v rfl).trimmed.withLineFeeds
    have only : (∀ w ∈ Option.some v, '\r' ∉ w.toList) ↔ '\r' ∉ v.toList :=
      ⟨fun all => all v rfl, fun none w member => Option.some.inj member ▸ none⟩
    rw [only, normalizeDefault, normalizeDefault, Option.map_some, Option.getD_some, Option.getD_some,
      trimmed (readable v rfl).trimmed, trimmed fed]
    constructor
    · intro same member
      rw [upper, upper, String.ofList_inj] at same
      rw [← return_mem_upperChars, same, return_mem_upperChars, lineFed, String.toList_ofList] at member
      exact return_not_mem _ member
    · intro none
      rw [lineFed_eq_self none]

theorem Domain.agree_lineFed {d : Domain} (canonical : d.Canonical) :
    d.attributes.Agree true d.lineFed.attributes ↔ ∀ v ∈ d.defaultValue, '\r' ∉ v.toList := by
  rw [← normalizeDefault_lineFed canonical.default]
  exact ⟨fun agree => agree.default, fun same => ⟨fun _ => rfl, rfl, same⟩⟩

namespace Column

variable {c : Column}

/-- A column and the one that is read at any position have types that count as the same. -/
theorem agree_placed (canonical : c.Canonical) (position : Int) :
    c.attributes.Agree (c.typesCount (c.lineFed.placed position)) (c.lineFed.placed position).attributes ↔
      ∀ v ∈ c.defaultValue, '\r' ∉ v.toList := by
  have type : c.typesCount (c.lineFed.placed position) = true →
      normalizeType c.dataType = normalizeType (c.lineFed.placed position).dataType := by
    intro counts
    rw [typesCount, Bool.and_eq_true, Bool.not_eq_true'] at counts
    have raw : (c.lineFed.placed position).dataType = c.dataType := if_neg (by simp [lineFed, counts.1])
    rw [raw]
  rw [← normalizeDefault_lineFed canonical.readable]
  exact ⟨fun agree => agree.default, fun same => ⟨type, rfl, same⟩⟩

theorem forall_placedFrom {P Q : Column → Prop} {columns : List Column}
    (same : ∀ c ∈ columns, ∀ position, P (c.lineFed.placed position) ↔ Q c) (position : Int) :
    (∀ d ∈ placedFrom position (columns.map lineFed), P d) ↔ ∀ c ∈ columns, Q c := by
  induction columns generalizing position with
  | nil => simp [placedFrom]
  | cons c rest ih =>
    rw [List.map_cons, placedFrom, List.forall_mem_cons, List.forall_mem_cons, same c List.mem_cons_self,
      ih fun d member => same d (List.mem_cons_of_mem _ member)]

end Column

/-- A table covers the one that its script gives when its defaults have no other line end than line
feeds. -/
theorem Table.covers_lineFed {t u : Table} (canonical : t.Canonical) (distinct : Distinct Column.key t.columns)
    (read : u.columns = Column.placedFrom 0 (t.columns.map Column.lineFed)) :
    t.Covers u ↔ ∀ c ∈ t.columns, ∀ v ∈ c.defaultValue, '\r' ∉ v.toList := by
  rw [Table.Covers, read]
  refine Column.forall_placedFrom (fun c member position => ?_) 0
  have found : get? Column.key (c.lineFed.placed position).key t.columns = some c := get?_of_mem distinct member
  rw [found, ← Column.agree_placed (canonical.columns c member) position]
  exact ⟨fun ⟨x, same, agree⟩ => Option.some.inj same ▸ agree, fun agree => ⟨c, rfl, agree⟩⟩

end SchemaSync
