import Mathlib.Algebra.BigOperators.Group.List.Lemmas
import Mathlib.Data.List.Forall2
import SchemaSync.Proofs.Firebird.CatalogRows
import SchemaSync.Proofs.Plan.Tally
import SchemaSync.Proofs.Script.TableScript

/-! The rows of the catalog about columns, grouped into tables. No row is lost, and none gets into the table of
another name, in whatever order the rows of several tables come. -/

namespace SchemaSync.Firebird

open Text

structure ColumnRow.Describes (row : ColumnRow) (position : Nat) (column : Column) : Prop where
  name : column.name = row.name
  position : column.position = position
  domain : ∀ domain, NamesDomain row.fieldSource domain → column.domainName = some domain ∧ column.dataType = none
  own : (∀ domain, ¬NamesDomain row.fieldSource domain) →
    column.domainName = none ∧ column.dataType = some row.field.text
  isNullable : column.isNullable = true ↔ row.nullFlag = none ∨ row.nullFlag = some 0
  default : column.defaultValue = row.defaultSource.default?

/-- Tables are the groups of some rows: one for each name, in the order in which the names appear first, with a column
for each row of that name, in the order of the rows. -/
structure Groups (rows : List ColumnRow) (tables : List Table) : Prop where
  names : ∀ name, (∃ t ∈ tables, t.name = name) ↔ ∃ row ∈ rows, row.table = name
  inOrder : tables.Pairwise fun t u =>
    (rows.map ColumnRow.table).idxOf t.name < (rows.map ColumnRow.table).idxOf u.name
  columns : ∀ t ∈ tables, List.Forall₂ (fun entry column => entry.1.Describes entry.2 column)
    (rows.filter (·.table = t.name)).zipIdx t.columns
  total : (tables.flatMap Table.columns).length = rows.length

section Columns

variable {row : ColumnRow} {rows : List ColumnRow} {position start : Nat}

/-- No check fails: a row that has a name describes a column. -/
theorem ColumnRow.describes_column (named : isBlankText row.name = false) (position : Nat) :
    ∃ column, row.column position = .ok column ∧ row.Describes position column := by
  have nullable : (!isSet row.nullFlag) = true ↔ row.nullFlag = none ∨ row.nullFlag = some 0 := by
    rw [isSet]
    cases row.nullFlag <;> simp
  rw [column, Column.create, dif_pos named]
  cases given : userDomain? row.fieldSource with
  | some domain =>
    have names := userDomain?_eq_some_iff.mp given
    have typed : isGiven (some domain) ≠ isGiven none := by simpa [isGiven] using names.given
    rw [Option.isSome_some, if_pos rfl, dif_pos typed]
    refine ⟨_, rfl, rfl, rfl, fun other again => ?_, fun lacks => absurd names (lacks domain), nullable, rfl⟩
    exact ⟨given.symm.trans (userDomain?_eq_some_iff.mpr again), rfl⟩
  | none =>
    have lacks := userDomain?_eq_none_iff.mp given
    have typed : isGiven none ≠ isGiven (some row.field.text) := by simpa [isGiven] using row.field.text_ne_empty
    rw [Option.isSome_none, if_neg Bool.false_ne_true, dif_pos typed]
    exact ⟨_, rfl, rfl, rfl, fun domain names => absurd names (lacks domain), fun _ => ⟨rfl, rfl⟩, nullable, rfl⟩

/-- The rows of each table describe its columns, at positions that go on from the columns before. -/
theorem columnsOfRows_eq (named : ∀ row ∈ rows, isBlankText row.name = false) (earlier : List String) :
    ∃ columns, columnsOfRows earlier rows = .ok columns ∧ columns.map Prod.fst = rows.map ColumnRow.table ∧
      ∀ name, List.Forall₂ (fun entry column => entry.1.Describes entry.2 column)
        ((rows.filter (·.table = name)).zipIdx (earlier.count name)) ((columns.filter (·.1 == name)).map Prod.snd) := by
  induction rows generalizing earlier with
  | nil => exact ⟨[], rfl, rfl, fun _ => .nil⟩
  | cons row rest ih =>
    rw [List.forall_mem_cons] at named
    obtain ⟨column, made, describes⟩ := ColumnRow.describes_column named.1 (earlier.count row.table)
    obtain ⟨columns, read, tables, groups⟩ := ih named.2 (row.table :: earlier)
    refine ⟨(row.table, column) :: columns, ?_, ?_, fun name => ?_⟩
    · rw [columnsOfRows, made]
      exact congrArg (Except.map ((row.table, column) :: ·)) read
    · rw [List.map_cons, List.map_cons, tables]
    · have later := groups name
      by_cases same : row.table = name
      · subst same
        rw [List.count_cons_self] at later
        rw [List.filter_cons_of_pos (by simp), List.filter_cons_of_pos (by simp), List.zipIdx_cons, List.map_cons]
        exact .cons describes later
      · rw [List.count_cons_of_ne same] at later
        rwa [List.filter_cons_of_neg (by simpa using same), List.filter_cons_of_neg (by simpa using same)]

theorem ascending_of_describes {columns : List Column} (described : List.Forall₂
    (fun entry column => ColumnRow.Describes entry.1 entry.2 column) (rows.zipIdx start) columns) :
    Ascending columns ∧ ∀ column ∈ columns, (start : Int) ≤ column.position := by
  induction rows generalizing start columns with
  | nil =>
    cases described
    exact ⟨.nil, nofun⟩
  | cons row rest ih =>
    rw [List.zipIdx_cons] at described
    cases described with
    | cons here later =>
      obtain ⟨ascending, after⟩ := ih later
      have first := here.position
      refine ⟨List.pairwise_cons.mpr ⟨fun column member => ?_, ascending⟩, List.forall_mem_cons.mpr ⟨?_, ?_⟩⟩
      · have := after column member
        omega
      · omega
      · intro column member
        have := after column member
        omega

end Columns

section Names

variable (names : List String)

/-- What is left of a list without doubles is in the order of first appearance. -/
theorem pairwise_idxOf_eraseDups :
    names.eraseDups.Pairwise fun first second => names.idxOf first < names.idxOf second := by
  induction names using List.reverseRecOn with
  | nil => exact .nil
  | append_singleton front last ih =>
    have kept : front.eraseDups.Pairwise fun first second =>
        (front ++ [last]).idxOf first < (front ++ [last]).idxOf second := by
      refine ih.imp_of_mem fun one two before => ?_
      rwa [List.idxOf_append_of_mem (List.mem_eraseDups.mp one), List.idxOf_append_of_mem (List.mem_eraseDups.mp two)]
    rw [List.eraseDups_append]
    by_cases again : last ∈ front
    · have nothing : [last].removeAll front = [] := by simp [List.removeAll, again]
      rw [nothing, List.eraseDups_nil, List.append_nil]
      exact kept
    · have new : [last].removeAll front = [last] := by simp [List.removeAll, again]
      have alone : [last].eraseDups = [last] := rfl
      rw [new, alone, List.pairwise_append]
      refine ⟨kept, List.pairwise_singleton _ _, fun name member other single => ?_⟩
      obtain rfl := List.mem_singleton.mp single
      have inside := List.mem_eraseDups.mp member
      rw [List.idxOf_append_of_mem inside, List.idxOf_append_of_notMem again]
      exact Nat.lt_add_right _ (List.idxOf_lt_length_iff.mpr inside)

/-- Groups that are as large as the names are frequent hold one item for each place in the list. -/
theorem length_flatMap_eraseDups {α : Type} {group : String → List α}
    (size : ∀ name, (group name).length = names.count name) :
    (names.eraseDups.flatMap group).length = names.length := by
  have same : names.eraseDups.Perm names.dedup := by
    refine (List.perm_ext_iff_of_nodup (nodup_eraseDups names) names.nodup_dedup).mpr fun name => ?_
    rw [List.mem_eraseDups, List.mem_dedup]
  rw [List.length_flatMap, List.map_congr_left fun name _ => size name, (same.map _).sum_eq]
  exact names.sum_map_count_dedup_eq_length

end Names

private theorem mapM_eq_ok {ε α β : Type} {make : α → Except ε β} {made : α → β → Prop} {items : List α}
    (succeeds : ∀ item ∈ items, ∃ value, make item = .ok value ∧ made item value) :
    ∃ values, items.mapM make = .ok values ∧ List.Forall₂ made items values := by
  induction items with
  | nil => exact ⟨[], rfl, .nil⟩
  | cons item rest ih =>
    rw [List.forall_mem_cons] at succeeds
    obtain ⟨value, first, holds⟩ := succeeds.1
    obtain ⟨values, later, others⟩ := ih succeeds.2
    refine ⟨value :: values, ?_, .cons holds others⟩
    rw [List.mapM_cons, first]
    exact congrArg (Except.map (value :: ·)) later

/-- No check fails: rows with names are grouped into tables. -/
theorem tablesOfRows_groups {rows : List ColumnRow}
    (named : ∀ row ∈ rows, isBlankText row.table = false ∧ isBlankText row.name = false) :
    ∃ tables, tablesOfRows rows = .ok tables ∧ Groups rows tables := by
  obtain ⟨columns, read, firsts, groups⟩ := columnsOfRows_eq (fun row member => (named row member).2) []
  have size (name : String) : ((columns.filter (·.1 == name)).map Prod.snd).length =
      (rows.map ColumnRow.table).count name := by
    rw [← (groups name).length_eq, List.length_zipIdx, List.count_eq_length_filter, List.filter_map, List.length_map]
    rfl
  have made : ∀ name ∈ (rows.map ColumnRow.table).eraseDups, ∃ t : Table,
      Table.create name ((columns.filter (·.1 == name)).map Prod.snd) = .ok t ∧
        t.columns = (columns.filter (·.1 == t.name)).map Prod.snd ∧ name = t.name := by
    intro name member
    rw [List.mem_eraseDups] at member
    -- Only names that come up make a group, so none is without columns.
    have given : (columns.filter (·.1 == name)).map Prod.snd ≠ [] := by
      rw [← List.length_pos_iff, size]
      exact List.count_pos_iff.mpr member
    obtain ⟨row, inside, rfl⟩ := List.mem_map.mp member
    exact ⟨_, Table.create_ascending (named row inside).1 given (ascending_of_describes (groups row.table)).1, rfl, rfl⟩
  obtain ⟨tables, grouped, correspond⟩ := mapM_eq_ok made
  obtain ⟨own, sameNames⟩ := (List.forall₂_and_left _ _).mp correspond.flip
  have order : tables.map Table.name = (rows.map ColumnRow.table).eraseDups := by
    rw [← List.forall₂_eq_eq_eq, List.forall₂_map_left_iff]
    exact sameNames.imp fun _ _ => Eq.symm
  refine ⟨tables, ?_, ?_, ?_, ?_, ?_⟩
  · rw [tablesOfRows, read]
    show (columns.map Prod.fst).eraseDups.mapM _ = _
    rw [firsts]
    exact grouped
  · intro name
    rw [← List.mem_map, order, List.mem_eraseDups, List.mem_map]
  · have ordered := pairwise_idxOf_eraseDups (rows.map ColumnRow.table)
    rwa [← order, List.pairwise_map] at ordered
  · intro t member
    rw [own t member]
    exact groups t.name
  · have parts : tables.flatMap Table.columns =
        (tables.map Table.name).flatMap fun name => (columns.filter (·.1 == name)).map Prod.snd := by
      rw [List.flatMap_map]
      exact List.flatMap_congr own
    rw [parts, order, length_flatMap_eraseDups _ size, List.length_map]

namespace Server

variable (server : Server) {target : String}

/-- Where the driver answers with rows that have names, the tables of a database are the groups of the rows. -/
theorem tables_grouped (named : isBlankText target = false) (world : World LogRecord (List Call))
    {rows : List ColumnRow} (answers : server.Answers target .columns world.remote rows)
    (filled : ∀ row ∈ rows, isBlankText row.table = false ∧ isBlankText row.name = false) :
    ∃ tables, Ends (server.tables target) world (.ok tables) (server.queryCalls target .columns) ∧
      Groups rows tables := by
  obtain ⟨tables, read, groups⟩ := tablesOfRows_groups filled
  have listed : Ends (Action.ofExcept (tablesOfRows rows)) ((server.fetch target .columns).perform world).2
    (.ok tables) [] := ⟨read, (List.append_nil _).symm⟩
  exact ⟨tables, Ends.congr ((fetch_answered named answers).bind
    (listed.bind (((logExtracted_silent _ _ _).ends _).bind (.pure tables _)))) (List.append_nil _), groups⟩

/-- The rows of two tables take turns, and the name of an implicit domain is in small letters. -/
theorem tables_grouped_orders :
    let row (table name fieldSource : String) (code : Int) : ColumnRow := {
      table, name, fieldSource := some fieldSource, nullFlag := none, defaultSource := .null
      field := { code := some code } }
    let rows := [row "ORDERS" "ID" "D_ID" 8, row "ITEMS" "ID" "rdb$5" 8, row "ORDERS" "PLACED" "RDB$7" 12]
    let driver : Driver := {
      connect := fun _ _ => .ok ()
      create := fun _ _ => .ok ()
      fetch := fun
        | _, .columns => .ok rows
        | _, _ => .ok []
      execute := fun _ _ => .ok none }
    let server : Server := ⟨{ user := "SYSDBA", password := "masterkey" }, driver⟩
    ∃ tables, Ends (server.tables "shop.fdb") ⟨.empty [], [], []⟩ (.ok tables) (server.queryCalls "shop.fdb" .columns) ∧
      Groups rows tables := by
  intro row rows driver server
  have named : isBlankText "shop.fdb" = false := by decide
  have filled : ∀ row ∈ rows, isBlankText row.table = false ∧ isBlankText row.name = false := by decide
  exact server.tables_grouped named ⟨.empty [], [], []⟩ ⟨rfl, rfl⟩ filled

end Server

end SchemaSync.Firebird
