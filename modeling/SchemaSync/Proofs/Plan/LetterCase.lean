import SchemaSync.Proofs.Plan.Tally
import SchemaSync.Proofs.Script.LetterCase

/-! Letter case never asks for a change: what scripts with the same capitals define, no comparison tells apart. -/

namespace SchemaSync

open Keyed Text

theorem lastWith?_single {α : Type} {keyOf : α → NameKey} {a b : α} (same : keyOf a = keyOf b) :
    lastWith? keyOf (keyOf b) [a] = some a := by
  simp [lastWith?, same]

theorem Domain.compare_same {d e : Domain} (same : d.SameButCase e) : (compareDomains [d] [e]).hasChanges = false := by
  have key : d.key = e.key := congrArg NameKey.of same.name
  have unaltered : d.alterations e = [] := Attributes.alterations_eq_nil_iff.mpr same.attributes
  simp [DomainChanges.hasChanges, compareDomains, lastWith?_single key, unaltered]

theorem exists_of_mem_right {α β : Type} {related : α → β → Prop} {ones : List α} {twos : List β}
    (all : List.Forall₂ related ones twos) {b : β} (member : b ∈ twos) : ∃ a ∈ ones, related a b := by
  induction all with
  | nil => cases member
  | @cons a _ ones _ here _ ih =>
    rcases List.mem_cons.mp member with rfl | later
    · exact ⟨a, List.mem_cons_self, here⟩
    · obtain ⟨c, inside, found⟩ := ih later
      exact ⟨c, List.mem_cons_of_mem a inside, found⟩

/-- Where columns are told apart by their keys, a comparison finds each of them in the other table. -/
theorem Table.compareColumns_same {t u : Table} (same : t.SameButCase u) (distinct : Distinct Column.key t.columns) :
    (compareColumns t u).hasChanges = false := by
  rw [Bool.eq_false_iff, ne_eq, hasChanges_iff]
  rintro ⟨c, wanted, different⟩
  obtain ⟨x, member, agreed⟩ := exists_of_mem_right same.columns wanted
  have key : x.key = c.key := congrArg NameKey.of agreed.name
  rcases different with lacking | ⟨y, there, differing⟩
  · exact lacking (List.mem_map.mpr ⟨x, member, key⟩)
  · rw [lastWith?_eq_get? distinct, ← key, get?_of_mem distinct member] at there
    obtain rfl := Option.some.inj there
    have agree : Attributes.Agree (x.typesCount c) x.attributes c.attributes :=
      ⟨fun _ => agreed.attributes.type rfl, agreed.attributes.nullable, agreed.attributes.default⟩
    have unaltered : Column.alterations t.name x c = [] := Attributes.alterations_eq_nil_iff.mpr agree
    exact differing (Column.alterations_eq_nil_iff.mp unaltered)

theorem Table.compare_same {t u : Table} (same : t.SameButCase u) (distinct : Distinct Column.key t.columns) :
    (compareTables [t] [u]).hasChanges = false := by
  have key : t.key = u.key := congrArg NameKey.of same.name
  simp [TableChanges.hasChanges, compareTables, lastWith?_single key, compareColumns_same same distinct]

/-- Letter case in the script of a domain or a table never asks for a change. -/
theorem scripts_in_any_case {s t : String} (one : ∀ c ∈ s.toList, c.toNat < 128)
    (two : ∀ c ∈ t.toList, c.toNat < 128) (same : upper s = upper t) :
    SameOutcome (fun d e => d.name = e.name ∧ d.length = e.length ∧ d.precision = e.precision ∧ d.scale = e.scale ∧
        d.isNullable = e.isNullable ∧ (compareDomains [d] [e]).hasChanges = false)
      (Domain.ofScript s) (Domain.ofScript t) ∧
    SameOutcome (fun a b => a.name = b.name ∧
        List.Forall₂ (fun c d => c.name = d.name ∧ c.position = d.position ∧ c.domainName = d.domainName ∧
          c.isNullable = d.isNullable) a.columns b.columns ∧
        ((a.columns.map Column.name).Nodup → (compareTables [a] [b]).hasChanges = false))
      (Table.ofScript s) (Table.ofScript t) := by
  have capital : capitals s.toList = capitals t.toList := by
    rw [← upperChars_ascii one, ← upperChars_ascii two]
    exact String.ofList_inj.mp same
  constructor
  · refine (Domain.ofScript_same capital).imp fun d e _ _ agreed => ?_
    exact ⟨agreed.name, agreed.length, agreed.precision, agreed.scale, agreed.attributes.nullable,
      Domain.compare_same agreed⟩
  · refine (Table.ofScript_same capital).imp fun a b read _ agreed => ?_
    refine ⟨agreed.name, agreed.columns.imp fun c d alike =>
      ⟨alike.name, alike.position, alike.domainName, alike.attributes.nullable⟩, fun distinct => ?_⟩
    exact Table.compare_same agreed (Table.distinct_of_names read distinct)

/-- Two spellings of one domain, with a default whose letter case differs as well. -/
theorem scripts_in_any_case_mail :
    let small := "create domain mail as blob sub_type text default 'n/a' not null"
    let mixed := "CREATE DOMAIN Mail As BLOB Sub_Type TEXT DEFAULT 'N/A' NOT NULL"
    ∃ d e, Domain.ofScript small = .ok d ∧ Domain.ofScript mixed = .ok e ∧
      d.defaultValue = some "'n/a'" ∧ e.defaultValue = some "'N/A'" ∧ d.name = e.name ∧
      (compareDomains [d] [e]).hasChanges = false := by
  intro small mixed
  have ascii {s : String} (all : s.toList.all (fun c => decide (c.toNat < 128)) = true) :
      ∀ c ∈ s.toList, c.toNat < 128 :=
    fun c member => of_decide_eq_true (List.all_eq_true.mp all c member)
  have outcome := (scripts_in_any_case (s := small) (t := mixed) (ascii (by decide +kernel)) (ascii (by decide +kernel))
    (by decide +kernel)).1
  have smallValue : (Domain.ofScript small).toOption.map Domain.defaultValue = some (some "'n/a'") := by decide +kernel
  have mixedValue : (Domain.ofScript mixed).toOption.map Domain.defaultValue = some (some "'N/A'") := by decide +kernel
  cases first : Domain.ofScript small with
  | error _ =>
    rw [first] at smallValue
    cases smallValue
  | ok d =>
    cases second : Domain.ofScript mixed with
    | error _ =>
      rw [second] at mixedValue
      cases mixedValue
    | ok e =>
      rw [first, second] at outcome
      rw [first] at smallValue
      rw [second] at mixedValue
      cases outcome with
      | ok agreed =>
        exact ⟨d, e, rfl, rfl, Option.some.inj smallValue, Option.some.inj mixedValue, agreed.1, agreed.2.2.2.2.2⟩

end SchemaSync
