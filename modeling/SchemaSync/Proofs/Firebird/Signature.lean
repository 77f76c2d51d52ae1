import Mathlib.Data.List.Forall2
import SchemaSync.Proofs.Firebird.CatalogRows
import SchemaSync.Proofs.Text.Trim

/-! Procedures put together from two queries. Each one gets the parameters that are its own, and no others, however the
rows of several procedures and of both directions are mixed. -/

namespace SchemaSync.Firebird

open Text

/-- The declaration of a parameter: its name, then the domain that its field source names, or else the type of the row
itself. -/
structure ParameterRow.Declares (row : ParameterRow) (text : String) : Prop where
  domain : ∀ domain, NamesDomain row.fieldSource domain → text = row.name.getD "None" ++ " " ++ domain
  own : (∀ domain, ¬NamesDomain row.fieldSource domain) → text = row.name.getD "None" ++ " " ++ row.field.text

def Listed (words : String) (declarations lines : List String) : Prop :=
  (declarations = [] → lines = []) ∧
    (declarations ≠ [] → lines = [words ++ "(" ++ String.intercalate ", " declarations ++ ")"])

/-- The source of a procedure is its signature with some declarations, and then its body. -/
def IsSource (inputs outputs : List String) (body source : String) : Prop :=
  ∃ first second, Listed "" inputs first ∧ Listed "RETURNS " outputs second ∧
    source = String.intercalate "\n" (first ++ second ++ ["AS", body])

/-- A procedure is what a row describes together with the parameters that go by exactly its name, in their order. -/
structure ProcedureRow.Rebuilds (parameters : List ParameterRow) (row : ProcedureRow) (p : Procedure) : Prop where
  name : row.name = some p.name
  source : ∃ inputs outputs body, row.source.Shows body ∧
    List.Forall₂ ParameterRow.Declares
      (parameters.filter fun q => q.procedure = some p.name ∧ q.direction = some 0) inputs ∧
    List.Forall₂ ParameterRow.Declares
      (parameters.filter fun q => q.procedure = some p.name ∧ q.direction ≠ some 0) outputs ∧
    IsSource inputs outputs (String.ofList (trimChars body)) p.sourceCode
  description : p.description = row.description.text?

theorem ProcedureRow.Rebuilds.of_own {parameters : List ParameterRow} {row : ProcedureRow} {p : Procedure}
    (rebuilds : row.Rebuilds parameters p) {names : List (Option String)} (own : some p.name ∈ names) :
    row.Rebuilds (parameters.filter (·.procedure ∈ names)) p := by
  have same (test : ParameterRow → Bool) :
      (parameters.filter (·.procedure ∈ names)).filter (fun q => q.procedure = some p.name ∧ test q = true) =
        parameters.filter fun q => q.procedure = some p.name ∧ test q = true := by
    rw [List.filter_filter]
    refine List.filter_congr fun q _ => ?_
    by_cases here : q.procedure = some p.name <;> simp [here, own]
  obtain ⟨name, ⟨inputs, outputs, body, shows, input, output, source⟩, description⟩ := rebuilds
  refine ⟨name, ⟨inputs, outputs, body, shows, ?_, ?_, source⟩, description⟩
  · have own := same fun q => q.direction = some 0
    simp only [decide_eq_true_eq] at own
    rwa [own]
  · have own := same fun q => q.direction ≠ some 0
    simp only [decide_eq_true_eq] at own
    rwa [own]

theorem ParameterRow.declares_declaration (row : ParameterRow) : row.Declares row.declaration := by
  rw [declaration, declaredType]
  refine ⟨fun domain names => ?_, fun lacks => ?_⟩
  · rw [userDomain?_eq_some_iff.mpr names, Option.getD_some]
  · rw [userDomain?_eq_none_iff.mpr lacks, Option.getD_none]

theorem listed_signatureLines (words : String) (declarations : List String) :
    Listed words declarations (signatureLines words declarations) := by
  rw [signatureLines]
  refine ⟨fun none => ?_, fun some => ?_⟩
  · rw [if_pos (List.isEmpty_iff.mpr none)]
  · rw [if_neg (mt List.isEmpty_iff.mp some)]

theorem isSource_procedureSource (inputs outputs : List String) (body : List Char) :
    IsSource inputs outputs (String.ofList (trimChars body))
      (procedureSource inputs outputs (String.ofList (trimChars body))) := by
  refine ⟨_, _, listed_signatureLines "" inputs, listed_signatureLines "RETURNS " outputs, ?_⟩
  rw [procedureSource, trim, String.toList_ofList, trimChars_trimChars]

private theorem mem_intercalate {α : Type} (separator : List α) {item : α} {part : List α} {parts : List (List α)}
    (inside : item ∈ part) (member : part ∈ parts) : item ∈ separator.intercalate parts := by
  induction parts with
  | nil => cases member
  | cons first rest ih =>
    cases rest with
    | nil =>
      obtain rfl := List.mem_singleton.mp member
      simpa [List.intercalate] using inside
    | cons next others =>
      rw [List.intercalate_cons_cons, List.mem_append, List.mem_append]
      rcases List.mem_cons.mp member with rfl | later
      · exact .inl (.inl inside)
      · exact .inr (ih later)

/-- A source is never blank, since it has a word of its own. -/
theorem isBlankText_procedureSource (inputs outputs : List String) (body : String) :
    isBlankText (procedureSource inputs outputs body) = false := by
  have word : "AS".toList ∈ (signatureLines "" inputs ++ signatureLines "RETURNS " outputs ++ ["AS", trim body]).map
      String.toList := List.mem_map_of_mem (by simp)
  have letter := mem_intercalate "\n".toList (List.mem_cons_self : 'A' ∈ "AS".toList) word
  rw [← String.toList_intercalate] at letter
  rw [isBlankText, List.all_eq_false]
  exact ⟨'A', letter, by decide⟩

/-- No check fails: a row with a name describes a procedure just if it shows a source. -/
theorem ProcedureRow.rebuilds_procedure? {row : ProcedureRow} {name : String} (called : row.name = some name)
    (named : isBlankText name = false) (parameters : List ParameterRow) :
    (¬row.source.IsFilled ∧ row.procedure? parameters = none) ∨
      row.source.IsFilled ∧ ∃ p, row.procedure? parameters = some (.ok p) ∧ row.Rebuilds parameters p := by
  have declared (rows : List ParameterRow) :
      List.Forall₂ ParameterRow.Declares rows (rows.map ParameterRow.declaration) := by
    rw [List.forall₂_map_right_iff]
    exact List.forall₂_same.mpr fun q _ => q.declares_declaration
  rw [← Cell.isSome_text?_iff]
  cases shown : row.source.text? with
  | none =>
    refine .inl ⟨Bool.false_ne_true, ?_⟩
    rw [procedure?, shown]
    rfl
  | some text =>
    obtain ⟨body, shows, rfl⟩ := Cell.text?_eq_some_iff.mp shown
    refine .inr ⟨rfl, ?_⟩
    have own {test : ParameterRow → Bool} {holds : ParameterRow → Prop} [DecidablePred holds]
        (same : ∀ q, test q = true ↔ holds q) : parameters.filter (fun q => q.procedure = some name ∧ holds q) =
          (parameters.filter (·.procedure == some name)).filter test := by
      rw [List.filter_filter]
      refine List.filter_congr fun q _ => ?_
      rw [Bool.eq_iff_iff]
      simp [same, and_comm]
    have input (q : ParameterRow) : q.isInput = true ↔ q.direction = some 0 := by
      rw [ParameterRow.isInput, inputDirection, beq_iff_eq]
    have output (q : ParameterRow) : (!q.isInput) = true ↔ q.direction ≠ some 0 := by
      rw [Bool.not_eq_true', ← Bool.not_eq_true, input]
    rw [procedure?, shown, Option.map_some, called, Option.getD_some]
    dsimp only
    rw [Procedure.create, dif_pos named, dif_pos (isBlankText_procedureSource _ _ _)]
    refine ⟨_, rfl, called, ⟨_, _, body, shows, ?_, ?_, isSource_procedureSource _ _ body⟩, rfl⟩
    · rw [own input]
      exact declared _
    · rw [own output]
      exact declared _

namespace Server

variable (server : Server) {target : String}

theorem proceduresOfRows_rebuilds (parameters : List ParameterRow) {rows : List ProcedureRow}
    (named : ∀ row ∈ rows, ∃ name, row.name = some name ∧ isBlankText name = false)
    (world : World LogRecord (List Call)) :
    ∃ procedures, Ends (proceduresOfRows parameters rows) world (.ok procedures) [] ∧
      List.Forall₂ (ProcedureRow.Rebuilds parameters) (rows.filter (·.source.IsFilled)) procedures := by
  induction rows generalizing world with
  | nil => exact ⟨[], .pure [] world, .nil⟩
  | cons row rest ih =>
    rw [List.forall_mem_cons] at named
    obtain ⟨⟨name, called, filled⟩, later⟩ := named
    rw [proceduresOfRows]
    rcases ProcedureRow.rebuilds_procedure? called filled parameters with ⟨lacks, none⟩ | ⟨shows, p, made, rebuilds⟩
    · rw [none]
      obtain ⟨procedures, ends, rebuilt⟩ := ih later _
      refine ⟨procedures, ((Silent.log _ _).ends world).bind ends, ?_⟩
      rwa [List.filter_cons_of_neg (by simpa using lacks)]
    · rw [made]
      obtain ⟨procedures, ends, rebuilt⟩ := ih later _
      refine ⟨p :: procedures, (Ends.ofExcept _ world).bind (ends.bind (.pure (p :: procedures) _)), ?_⟩
      rw [List.filter_cons_of_pos (by simpa using shows)]
      exact .cons rebuilds rebuilt

/-- Where the driver answers both queries, and the procedures have names, each procedure that shows a source is rebuilt
from its own parameters, in the order of the rows. The parameters of all others might as well not be there. -/
theorem procedures_rebuilt (named : isBlankText target = false) (world : World LogRecord (List Call))
    {parameters : List ParameterRow} {rows : List ProcedureRow}
    (first : server.Answers target .parameters world.remote parameters)
    (second : server.Answers target .procedures (world.remote ++ server.queryCalls target .parameters) rows)
    (called : ∀ row ∈ rows, ∃ name, row.name = some name ∧ isBlankText name = false) :
    ∃ procedures, Ends (server.procedures target) world (.ok procedures)
        (server.queryCalls target .parameters ++ server.queryCalls target .procedures) ∧
      List.Forall₂ (ProcedureRow.Rebuilds parameters) (rows.filter (·.source.IsFilled)) procedures ∧
      List.Forall₂ (ProcedureRow.Rebuilds (parameters.filter fun q =>
        q.procedure ∈ (rows.filter (·.source.IsFilled)).map ProcedureRow.name)) (rows.filter (·.source.IsFilled))
        procedures := by
  have asked := fetch_answered named first
  rw [← asked.calls] at second
  have answered := fetch_answered named second
  obtain ⟨procedures, rebuilding, rebuilt⟩ := proceduresOfRows_rebuilds parameters called
    ((server.fetch target .procedures).perform ((server.fetch target .parameters).perform world).2).2
  refine ⟨procedures, ?_, rebuilt, ?_⟩
  · refine Ends.congr (asked.bind (answered.bind (rebuilding.bind
      (((logExtracted_silent _ _ _).ends _).bind (.pure procedures _))))) ?_
    rw [List.append_nil, List.nil_append, List.append_nil]
  · have inside := (List.forall₂_and_left _ _).mpr ⟨fun _ member => member, rebuilt⟩
    exact inside.imp fun row p ⟨member, rebuilds⟩ =>
      rebuilds.of_own (rebuilds.name ▸ List.mem_map_of_mem (f := ProcedureRow.name) member)

/-- The parameters of two procedures are mixed, and one of these has no source. -/
theorem procedures_rebuilt_fill :
    let parameter (procedure name fieldSource : String) (direction : Int) : ParameterRow := {
      procedure := some procedure, name := some name, direction := some direction, fieldSource := some fieldSource
      field := { code := some 8 } }
    let parameters := [parameter "FILL" "A" "D_ID" 0, parameter "EMPTY" "B" "D_ID" 0, parameter "FILL" "C" "RDB$3" 1]
    let rows : List ProcedureRow := [⟨some "EMPTY", .text " ", .null⟩, ⟨some "FILL", .text " BEGIN END", .null⟩]
    let driver : Driver := {
      connect := fun _ _ => .ok ()
      create := fun _ _ => .ok ()
      fetch := fun
        | _, .parameters => .ok parameters
        | _, .procedures => .ok rows
        | _, _ => .ok []
      execute := fun _ _ => .ok none }
    let server : Server := ⟨{ user := "SYSDBA", password := "masterkey" }, driver⟩
    ∃ procedures, Ends (server.procedures "shop.fdb") ⟨.empty [], [], []⟩ (.ok procedures)
        (server.queryCalls "shop.fdb" .parameters ++ server.queryCalls "shop.fdb" .procedures) ∧
      List.Forall₂ (ProcedureRow.Rebuilds parameters) [⟨some "FILL", .text " BEGIN END", .null⟩] procedures := by
  intro parameter parameters rows driver server
  have named : isBlankText "shop.fdb" = false := by decide
  have called : ∀ row ∈ rows, ∃ name, row.name = some name ∧ isBlankText name = false :=
    List.forall_mem_cons.mpr ⟨⟨"EMPTY", rfl, by decide⟩, List.forall_mem_singleton.mpr ⟨"FILL", rfl, by decide⟩⟩
  obtain ⟨procedures, ends, rebuilt, _⟩ := server.procedures_rebuilt named ⟨.empty [], [], []⟩ ⟨rfl, rfl⟩
    ⟨rfl, rfl⟩ called
  exact ⟨procedures, ends, rebuilt⟩

end Server

end SchemaSync.Firebird
