import SchemaSync.Definitions.Desired

/-! Scripts are refused only in the declared ways: whatever the text, a reader gives an object or an error that callers
may show. -/

namespace SchemaSync

def FailsAs {α : Type} (sort : Error → Prop) (result : Except Error α) : Prop :=
  ∀ error, result = .error error → sort error

namespace FailsAs

variable {α β : Type} {sort wider : Error → Prop}

theorem ok (value : α) : FailsAs sort (.ok value) := by
  rintro error ⟨⟩

theorem error {error : Error} (holds : sort error) : FailsAs sort (.error error : Except Error α) := by
  rintro _ ⟨⟩
  exact holds

theorem bind {result : Except Error α} (first : FailsAs sort result) {next : α → Except Error β}
    (second : ∀ value, FailsAs sort (next value)) : FailsAs sort (result >>= next) := by
  cases result with
  | ok value => exact second value
  | error error => exact fun _ same => first _ (congrArg _ (Except.error.inj same))

theorem mono {result : Except Error α} (fails : FailsAs sort result) (implies : ∀ error, sort error → wider error) :
    FailsAs wider result :=
  fun error same => implies error (fails error same)

end FailsAs

def Error.IsArgument (error : Error) : Prop :=
  ∃ fault, error = .argument fault

theorem FailsAs.argument {α : Type} (fault : ArgumentError) :
    FailsAs Error.IsArgument (.error (.argument fault) : Except Error α) :=
  .error ⟨fault, rfl⟩

def Declares {α : Type} (result : Except Error α) : Prop :=
  ∀ error, result = .error error → error.kind.isDeclared = true

namespace Declares

variable {α β : Type}

theorem ok (value : α) : Declares (.ok value) :=
  FailsAs.ok value

theorem script (error : ScriptError) : Declares (.error (.script error) : Except Error α) := by
  rintro _ ⟨⟩
  rfl

theorem bind {result : Except Error α} (first : Declares result) {next : α → Except Error β}
    (second : ∀ value, Declares (next value)) : Declares (result >>= next) :=
  FailsAs.bind first second

theorem argument {result : Except Error α} (fails : FailsAs Error.IsArgument result) : Declares result :=
  fails.mono fun _ ⟨_, same⟩ => same ▸ rfl

theorem map {result : Except Error α} (declares : Declares result) (f : α → β) : Declares (f <$> result) :=
  declares.bind fun value => .ok (f value)

end Declares

open Script

theorem declares_requireText (kind : ObjectKind) (script : String) : Declares (requireText kind script) := by
  rw [requireText]
  split
  · exact .argument (.argument _)
  · exact .ok ()

section Create

variable (name dataType sourceCode : String) (isNullable : Bool) (defaultValue : Option String)

theorem Domain.fails_create (length precision scale : Option Int) :
    FailsAs Error.IsArgument (Domain.create name dataType length precision scale isNullable defaultValue) := by
  rw [create]
  split
  · exact .ok _
  · exact .argument _

theorem Column.fails_create (position : Int) (domainName dataType : Option String) :
    FailsAs Error.IsArgument (Column.create name position domainName dataType isNullable defaultValue) := by
  rw [create]
  split
  · split
    · exact .ok _
    · exact .argument _
  · exact .argument _

theorem Table.fails_create (columns : List Column) : FailsAs Error.IsArgument (Table.create name columns) := by
  rw [create]
  split
  · split
    · split
      · exact .ok _
      · exact .argument _
    · exact .argument _
  · exact .argument _

theorem Procedure.fails_create (description : Option String) :
    FailsAs Error.IsArgument (Procedure.create name sourceCode description) := by
  rw [create]
  split
  · split
    · exact .ok _
    · exact .argument _
  · exact .argument _

end Create

theorem Domain.declares_ofScript (script : String) : Declares (Domain.ofScript script) := by
  refine (declares_requireText _ _).bind fun _ => ?_
  split
  · exact .script _
  · next reading _ =>
    generalize numericParameters reading.type.parameters = numbers
    exact .argument (fails_create _ _ _ _ numbers.1 numbers.1 numbers.2)

theorem Column.declares_ofDefinitionChars (definition : List Char) (position : Int) :
    Declares (Column.ofDefinitionChars definition position) := by
  rw [ofDefinitionChars]
  split
  · exact .ok _
  split
  · exact .ok _
  · exact (Declares.argument (fails_create _ _ _ _ _ _)).map _

theorem Column.declares_ofDefinitions (definitions : List (List Char)) (position : Int) :
    Declares (Column.ofDefinitions position definitions) := by
  induction definitions generalizing position with
  | nil => exact .ok []
  | cons definition rest ih =>
    rw [ofDefinitions]
    refine (declares_ofDefinitionChars definition position).bind fun column => ?_
    cases column with
    | none => exact ih position
    | some column => exact (ih (position + 1)).bind fun columns => .ok (column :: columns)

theorem Table.declares_ofScript (script : String) : Declares (Table.ofScript script) := by
  refine (declares_requireText _ _).bind fun _ => ?_
  dsimp only
  split
  · exact .script _
  split
  · exact .script _
  refine (Column.declares_ofDefinitions _ _).bind fun columns => ?_
  split
  · exact .script _
  · exact .argument (fails_create _ _)

theorem Procedure.declares_ofScript (script : String) : Declares (Procedure.ofScript script) := by
  refine (declares_requireText _ _).bind fun _ => ?_
  dsimp only
  split
  · exact .script _
  split
  · exact .script _
  · exact .argument (fails_create _ _ _)

end SchemaSync
