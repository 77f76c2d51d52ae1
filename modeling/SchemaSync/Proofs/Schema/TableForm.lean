import SchemaSync.Script.Render

/-! The one form of a table. Columns are kept in the order of their positions, whatever the order they are given in, so
that columns at different positions make one table, with one script. -/

namespace SchemaSync.Table

open Text

theorem arrange_perm (columns : List Column) : (arrange columns).Perm columns :=
  List.mergeSort_perm _ _

theorem arrange_ascending {columns : List Column} (ascending : Ascending columns) : arrange columns = columns :=
  List.mergeSort_of_pairwise (ascending.imp fun before => by simpa using Int.le_of_lt before)

section Columns

variable {columns others : List Column}

theorem arrange_eq_nil_iff : arrange columns = [] ↔ columns = [] := by
  rw [← List.length_eq_zero_iff, (arrange_perm columns).length_eq, List.length_eq_zero_iff]

theorem nodup_positions (ascending : Ascending columns) : (columns.map Column.position).Nodup :=
  List.pairwise_map.mpr (ascending.imp Int.ne_of_lt)

/-- Sorting leaves two columns side by side just if they are at one position. -/
theorem ascending_arrange_iff : Ascending (arrange columns) ↔ (columns.map Column.position).Nodup := by
  have positions := ((arrange_perm columns).map Column.position).nodup_iff
  constructor
  · intro ascending
    exact positions.mp (nodup_positions ascending)
  · intro distinct
    have sorted : (arrange columns).Pairwise fun first second => decide (first.position ≤ second.position) = true := by
      refine List.pairwise_mergeSort (fun one two three before after => ?_) (fun one two => ?_) columns
      · rw [decide_eq_true_eq] at before after ⊢
        exact Int.le_trans before after
      · rw [Bool.or_eq_true, decide_eq_true_eq, decide_eq_true_eq]
        exact Int.le_total _ _
    refine (sorted.and (List.pairwise_map.mp (positions.mpr distinct))).imp fun both => ?_
    exact Int.lt_iff_le_and_ne.mpr ⟨of_decide_eq_true both.1, both.2⟩

/-- Columns at different positions can be put in order in one way. -/
theorem arrange_eq_of_perm (same : others.Perm columns) (distinct : (columns.map Column.position).Nodup) :
    arrange others = arrange columns := by
  have alsoDistinct : (others.map Column.position).Nodup := (same.map Column.position).nodup_iff.mpr distinct
  have arranged : (arrange others).Perm (arrange columns) :=
    ((arrange_perm others).trans same).trans (arrange_perm columns).symm
  refine arranged.eq_of_pairwise (fun one two _ _ before after => ?_) (ascending_arrange_iff.mpr alsoDistinct)
    (ascending_arrange_iff.mpr distinct)
  exact absurd before (Int.lt_asymm after)

end Columns

section Create

variable {name : String} {columns others : List Column} {t : Table}

theorem create_eq_ok_iff : create name columns = .ok t ↔ t.name = name ∧ t.columns = arrange columns := by
  constructor
  · intro created
    rw [create] at created
    split at created
    · split at created
      · split at created
        · cases created
          exact ⟨rfl, rfl⟩
        · cases created
      · cases created
    · cases created
  · obtain ⟨_, _, named, nonempty, ascending⟩ := t
    rintro ⟨rfl, rfl⟩
    rw [create, dif_pos named, dif_pos nonempty, dif_pos ascending]

theorem create_ascending (named : isBlankText name = false) (nonempty : columns ≠ []) (ascending : Ascending columns) :
    create name columns = .ok { name, columns, named, nonempty, ascending } :=
  create_eq_ok_iff.mpr ⟨rfl, (arrange_ascending ascending).symm⟩

theorem create_columns (t : Table) : create t.name t.columns = .ok t :=
  create_eq_ok_iff.mpr ⟨rfl, (arrange_ascending t.ascending).symm⟩

theorem exists_create_iff : (∃ t, create name columns = .ok t) ↔
    isBlankText name = false ∧ columns ≠ [] ∧ (columns.map Column.position).Nodup := by
  rw [← ascending_arrange_iff, ne_eq, ← arrange_eq_nil_iff]
  constructor
  · rintro ⟨t, created⟩
    obtain ⟨rfl, arranged⟩ := create_eq_ok_iff.mp created
    rw [← arranged]
    exact ⟨t.named, t.nonempty, t.ascending⟩
  · rintro ⟨named, nonempty, ascending⟩
    exact ⟨⟨name, arrange columns, named, nonempty, ascending⟩, create_eq_ok_iff.mpr ⟨rfl, rfl⟩⟩

/-- The order in which columns are given does not count, neither for a table nor for what is wrong with it. -/
theorem create_perm (same : others.Perm columns) : create name others = create name columns := by
  by_cases distinct : (columns.map Column.position).Nodup
  · simp only [create, arrange_eq_of_perm same distinct]
  · -- Two columns at one position may be kept in either order, but then there is no table of them.
    have repeated {given : List Column} (same : given.Perm columns) : ¬Ascending (arrange given) := by
      rw [ascending_arrange_iff, (same.map Column.position).nodup_iff]
      exact distinct
    have empty : others = [] ↔ columns = [] := by
      rw [← List.length_eq_zero_iff, same.length_eq, List.length_eq_zero_iff]
    simp only [create, dif_neg (repeated same), dif_neg (repeated (.refl columns)), ne_eq, arrange_eq_nil_iff, empty]

end Create

/-- The script that creates a table of columns given in any order. -/
def scriptOf (name : String) (columns : List Column) : String :=
  "CREATE TABLE " ++ name ++ " (\n" ++
    String.intercalate ",\n" ((arrange columns).map ("    " ++ ·.definition)) ++ "\n);"

theorem scriptOf_eq {name : String} {columns : List Column} {t : Table} (created : create name columns = .ok t) :
    scriptOf name columns = t.script := by
  obtain ⟨rfl, arranged⟩ := create_eq_ok_iff.mp created
  unfold scriptOf script
  rw [arranged]

/-- Columns make a table just if its name is not blank, there are some, and no two are at one position. The table has
all of them, in the order of their positions, and its own columns make it again. In any other order they make the same
table, or are refused for the same reason, and the script for them is that of the table. -/
theorem create_canonical (name : String) (columns : List Column) :
    ((∃ t, create name columns = .ok t) ↔
      isBlankText name = false ∧ columns ≠ [] ∧ (columns.map Column.position).Nodup) ∧
    (∀ t, create name columns = .ok t → t.name = name ∧ t.columns.Perm columns ∧ Ascending t.columns ∧
      create t.name t.columns = .ok t) ∧
    ∀ others, others.Perm columns → create name others = create name columns ∧
      ∀ t, create name columns = .ok t → scriptOf name others = t.script := by
  refine ⟨exists_create_iff, fun t created => ?_, fun others same => ?_⟩
  · obtain ⟨named, arranged⟩ := create_eq_ok_iff.mp created
    exact ⟨named, arranged ▸ arrange_perm columns, t.ascending, create_columns t⟩
  · have equal : create name others = create name columns := create_perm same
    exact ⟨equal, fun t created => scriptOf_eq (equal.trans created)⟩

/-- Two columns given the wrong way round, with the script of their table. -/
theorem create_canonical_users :
    let id : Column := ⟨"ID", 0, some "D_ID", none, false, none, rfl, by decide⟩
    let label : Column := ⟨"NAME", 1, none, some "VARCHAR(100)", true, none, rfl, by decide⟩
    ∃ t, create "USERS" [label, id] = .ok t ∧ create "USERS" [id, label] = .ok t ∧ t.columns = [id, label] ∧
      t.script = "CREATE TABLE USERS (\n    ID D_ID NOT NULL,\n    NAME VARCHAR(100)\n);" := by
  intro id label
  obtain ⟨made, form, reorder⟩ := create_canonical "USERS" [label, id]
  obtain ⟨t, created⟩ := made.mpr ⟨rfl, List.cons_ne_nil _ _, by decide⟩
  obtain ⟨same, text⟩ := reorder [id, label] (.swap label id [])
  have columns : t.columns = [id, label] := by
    obtain ⟨_, perm, ascending, _⟩ := form t created
    refine (perm.trans (.swap id label [])).eq_of_pairwise (fun one two _ _ before after => ?_) ascending (by decide)
    exact absurd before (Int.lt_asymm after)
  refine ⟨t, created, same.trans created, columns, ?_⟩
  unfold script
  rw [(form t created).1, columns]
  decide

end SchemaSync.Table
