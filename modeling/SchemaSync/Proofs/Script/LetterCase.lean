import Mathlib.Data.List.Forall2
import SchemaSync.Proofs.Plan.Alteration
import SchemaSync.Proofs.Script.CapitalReading
import SchemaSync.Proofs.Script.TableScript
import SchemaSync.Proofs.Text.UpperCase

/-! Scripts with the same capitals. They define the same domain or table up to the letter case of types and defaults,
or they fail in the same way. -/

namespace SchemaSync

open Keyed Script Text

inductive SameOutcome {α : Type} (agree : α → α → Prop) : Except Error α → Except Error α → Prop
  | error {one two : Error} (kind : one.kind = two.kind) : SameOutcome agree (.error one) (.error two)
  | ok {one two : α} (agreed : agree one two) : SameOutcome agree (.ok one) (.ok two)

namespace SameOutcome

variable {α β : Type} {agree : α → α → Prop} {alike : β → β → Prop} {one two : Except Error α}

theorem refl (same : ∀ a, agree a a) (result : Except Error α) : SameOutcome agree result result := by
  cases result with
  | error e => exact .error rfl
  | ok a => exact .ok (same a)

theorem bind (first : SameOutcome agree one two) {next later : α → Except Error β}
    (goOn : ∀ a b, one = .ok a → two = .ok b → agree a b → SameOutcome alike (next a) (later b)) :
    SameOutcome alike (one >>= next) (two >>= later) := by
  cases first with
  | error kind => exact .error kind
  | ok agreed => exact goOn _ _ rfl rfl agreed

theorem imp {wider : α → α → Prop} (first : SameOutcome agree one two)
    (keep : ∀ a b, one = .ok a → two = .ok b → agree a b → wider a b) : SameOutcome wider one two := by
  cases first with
  | error kind => exact .error kind
  | ok agreed => exact .ok (keep _ _ rfl rfl agreed)

theorem map (first : SameOutcome agree one two) {f g : α → β} (keep : ∀ a b, agree a b → alike (f a) (g b)) :
    SameOutcome alike (f <$> one) (g <$> two) := by
  cases first with
  | error kind => exact .error kind
  | ok agreed => exact .ok (keep _ _ agreed)

end SameOutcome

theorem NameKey.of_upperChars {name : List Char} (inside : ∀ c ∈ name, isIdentifierChar c = true) :
    NameKey.of (String.ofList (upperChars name)) = ⟨String.ofList (upperChars name)⟩ := by
  have solid : ∀ d ∈ upperChars name, isBlank d = false := by
    intro d member
    obtain ⟨c, letter, capital⟩ := List.mem_flatMap.mp member
    exact isBlank_upperChar (isBlank_of_isIdentifierChar (inside c letter)) capital
  have trimmed : Trimmed (upperChars name) :=
    ⟨fun d head => solid d (List.mem_of_mem_head? head), fun d last => solid d (List.mem_of_getLast? last)⟩
  rw [NameKey.of, upper, trim, String.toList_ofList, String.toList_ofList, trimmed.trimChars_eq, upperChars_upperChars]

structure Domain.SameButCase (d e : Domain) : Prop where
  name : d.name = e.name
  length : d.length = e.length
  precision : d.precision = e.precision
  scale : d.scale = e.scale
  attributes : d.attributes.Agree true e.attributes

structure Column.SameButCase (c d : Column) : Prop where
  name : c.name = d.name
  position : c.position = d.position
  domainName : c.domainName = d.domainName
  attributes : c.attributes.Agree true d.attributes

structure Table.SameButCase (t u : Table) : Prop where
  name : t.name = u.name
  columns : List.Forall₂ Column.SameButCase t.columns u.columns

namespace Script

/-- What does not see letter case is the same of texts with the same capitals. -/
theorem blind_eq {β : Type} {view : List Char → β} (blind : ∀ cs, view (capitals cs) = view cs)
    {one two : List Char} (same : capitals one = capitals two) : view one = view two := by
  rw [← blind one, same, blind]

/-- In texts with the same capitals a reader reads nothing, or it reads what is the same in capitals. -/
theorem Caseless.same {α : Type} {f : α → α} {read? : List Char → Option α} (read : Caseless f read?)
    {one two : List Char} (same : capitals one = capitals two) :
    read? one = none ∧ read? two = none ∨ ∃ a b, read? one = some a ∧ read? two = some b ∧ f a = f b := by
  have both : (read? one).map f = (read? two).map f := by rw [← read, same, read]
  cases first : read? one with
  | none =>
    rw [first, Option.map_none, eq_comm, Option.map_eq_none_iff] at both
    exact .inl ⟨rfl, both⟩
  | some a =>
    rw [first, Option.map_some, eq_comm, Option.map_eq_some_iff] at both
    obtain ⟨b, second, equal⟩ := both
    exact .inr ⟨a, b, rfl, second, equal.symm⟩

theorem normalize_capitalText (s : String) : upper (trim (capitalText s)) = upper (trim s) := by
  rw [upper, upper, trim, trim, capitalText]
  simp only [String.toList_ofList, trimChars_capitals, upperChars_capitals]

theorem normalizeDefault_same {one two : List Char} (same : capitals one = capitals two) :
    normalizeDefault (declaredDefault one) = normalizeDefault (declaredDefault two) := by
  rcases caseless_declaredDefault.same same with ⟨first, second⟩ | ⟨a, b, first, second, equal⟩
  · rw [first, second]
  · rw [first, second]
    exact (normalize_capitalText a).symm.trans ((congrArg (upper ∘ trim) equal).trans (normalize_capitalText b))

/-- The attributes that a type and the clauses after it declare. -/
def TypeReading.attributes (reading : TypeReading) : Attributes where
  type := some (String.ofList (canonicalType reading.base reading.parameters))
  isNullable := allowsNull reading.rest
  defaultValue := declaredDefault reading.rest

section Types

variable {one two : TypeReading} (same : one.capitals = two.capitals)
include same

theorem TypeReading.capitals_canonicalType : Text.capitals (canonicalType one.base one.parameters) =
    Text.capitals (canonicalType two.base two.parameters) := by
  have base : Text.capitals one.base = Text.capitals two.base := congrArg TypeReading.base same
  have parameters : one.parameters.map Text.capitals = two.parameters.map Text.capitals :=
    congrArg TypeReading.parameters same
  rw [← Script.capitals_canonicalType, base, parameters, Script.capitals_canonicalType]

theorem TypeReading.attributes_agree : one.attributes.Agree true two.attributes where
  type _ := by
    have type := congrArg String.ofList (TypeReading.capitals_canonicalType same)
    have normal (cs : List Char) : normalizeType (some (String.ofList (Text.capitals cs))) =
        normalizeType (some (String.ofList cs)) := by
      have text := normalize_capitalText (String.ofList cs)
      rwa [capitalText, String.toList_ofList] at text
    exact (normal _).symm.trans ((congrArg (normalizeType ∘ some) type).trans (normal _))
  nullable := blind_eq allowsNull_capitals (congrArg TypeReading.rest same)
  default := normalizeDefault_same (congrArg TypeReading.rest same)

theorem TypeReading.numericParameters_eq : numericParameters one.parameters = numericParameters two.parameters := by
  have parameters : one.parameters.map Text.capitals = two.parameters.map Text.capitals :=
    congrArg TypeReading.parameters same
  rw [← numericParameters_capitals, parameters, numericParameters_capitals]

end Types

end Script

section Readings

variable {s t : String} (same : capitals s.toList = capitals t.toList)
include same

theorem requireText_same (kind : ObjectKind) : requireText kind s = requireText kind t := by
  have blank : isBlankText s = isBlankText t := by
    rw [isBlankText, ← all_capitals isBlank_toUpper, same, all_capitals isBlank_toUpper, isBlankText]
  rw [requireText, requireText, blank]

theorem stripCommentChars_same : capitals (stripCommentChars s.toList) = capitals (stripCommentChars t.toList) := by
  rw [← stripCommentChars_capitals, same, stripCommentChars_capitals]

theorem Domain.ofScript_same : SameOutcome Domain.SameButCase (Domain.ofScript s) (Domain.ofScript t) := by
  rw [Domain.ofScript, Domain.ofScript, requireText_same same]
  have given : SameOutcome (fun _ _ => True) (requireText .domain t) (requireText .domain t) :=
    .refl (fun _ => trivial) _
  refine given.bind fun _ _ _ _ _ => ?_
  rcases caseless_domainReading.firstMatch?.same (stripCommentChars_same same) with
    ⟨first, second⟩ | ⟨one, two, first, second, equal⟩
  · rw [first, second]
    exact .error rfl
  · have name : upperChars one.name = upperChars two.name :=
      blind_eq upperChars_capitals (congrArg DomainReading.name equal)
    have type : one.type.capitals = two.type.capitals := congrArg DomainReading.type equal
    rw [first, second]
    dsimp only
    rw [name, TypeReading.numericParameters_eq type, Domain.create, Domain.create]
    split
    · exact .ok ⟨rfl, rfl, rfl, rfl, TypeReading.attributes_agree type⟩
    · exact .error rfl

end Readings

namespace Column

theorem create_same {name : String} {position : Int} {domainName type other : Option String} {one two : Bool}
    {default later : Option String} (given : isGiven type = isGiven other)
    (agree : Attributes.Agree true ⟨type, one, default⟩ ⟨other, two, later⟩) :
    SameOutcome SameButCase (Column.create name position domainName type one default)
      (Column.create name position domainName other two later) := by
  simp only [Column.create, given]
  split
  · split
    · exact .ok ⟨rfl, rfl, rfl, agree⟩
    · exact .error rfl
  · exact .error rfl

theorem create_eq_ok {name : String} {position : Int} {domainName dataType default : Option String} {isNullable : Bool}
    {c : Column} (made : Column.create name position domainName dataType isNullable default = .ok c) :
    c.name = name ∧ c.position = position := by
  rw [create] at made
  split at made
  · split at made
    · cases made
      exact ⟨rfl, rfl⟩
    · cases made
  · cases made

theorem ofDefinitionChars_same {one two : List Char} (same : capitals one = capitals two) (position : Int) :
    SameOutcome (Option.Rel SameButCase) (ofDefinitionChars one position) (ofDefinitionChars two position) := by
  rw [ofDefinitionChars, ofDefinitionChars, blind_eq isTableClause_capitals same]
  split
  · exact .ok .none
  rcases caseless_columnReading.same same with
    ⟨first, second⟩ | ⟨⟨name, type⟩, ⟨otherName, otherType⟩, first, second, equal⟩
  · rw [first, second]
    exact .ok .none
  · have names : upperChars name = upperChars otherName :=
      blind_eq upperChars_capitals (congrArg DomainReading.name equal)
    have types : type.capitals = otherType.capitals := congrArg DomainReading.type equal
    have bases : Text.capitals type.base = Text.capitals otherType.base := congrArg TypeReading.base types
    have agree := TypeReading.attributes_agree types
    rw [first, second]
    dsimp only
    rw [names, blind_eq isKnownTypeChars_capitals bases, blind_eq upperChars_capitals bases]
    refine SameOutcome.map (show SameOutcome SameButCase _ _ from ?_) fun _ _ => .some
    split
    · have given (cs : List Char) : isGiven (some (String.ofList cs)) = !(Text.capitals cs).isEmpty := by
        rw [isEmpty_capitals, isGiven, Option.any_some, Bool.not_inj_iff, Bool.eq_iff_iff, String.isEmpty_iff,
          List.isEmpty_iff]
        exact String.ofList_eq_empty_iff
      refine create_same ?_ agree
      rw [given, given, TypeReading.capitals_canonicalType types]
    · exact create_same rfl ⟨fun _ => rfl, agree.nullable, agree.default⟩

theorem ofDefinitions_same {ones twos : List (List Char)} (same : ones.map capitals = twos.map capitals)
    (position : Int) : SameOutcome (List.Forall₂ SameButCase) (ofDefinitions position ones)
      (ofDefinitions position twos) := by
  induction ones generalizing twos position with
  | nil =>
    obtain rfl := List.map_eq_nil_iff.mp same.symm
    exact .ok .nil
  | cons one ones ih =>
    obtain ⟨two, twos, rfl, front, rest⟩ := List.map_eq_cons_iff.mp same.symm
    rw [ofDefinitions, ofDefinitions]
    refine (ofDefinitionChars_same front.symm position).bind fun a b _ _ agreed => ?_
    cases agreed with
    | none => exact ih rest.symm position
    | some agreed => exact (ih rest.symm (position + 1)).bind fun _ _ _ _ others => .ok (.cons agreed others)

/-- A name that has been read is its own key. -/
theorem ofDefinitionChars_keyed {definition : List Char} {position : Int} {c : Column}
    (read : ofDefinitionChars definition position = .ok (some c)) : c.position = position ∧ c.key = ⟨c.name⟩ := by
  rw [ofDefinitionChars] at read
  split at read
  · cases read
  cases found : columnReading? definition with
  | none =>
    rw [found] at read
    cases read
  | some reading =>
    obtain ⟨name, type⟩ := reading
    obtain ⟨⟨_, named⟩, _⟩ := isRead_of_columnReading found
    rw [found] at read
    dsimp only at read
    generalize made : Column.create _ _ _ _ _ _ = result at read
    cases result with
    | error e => cases read
    | ok d =>
      cases read
      obtain ⟨called, placed⟩ := create_eq_ok made
      refine ⟨placed, ?_⟩
      rw [key, called, NameKey.of_upperChars named.inside]

/-- What is defined one after another from a position on is in order, and each name is its own key. -/
theorem ofDefinitions_keyed {definitions : List (List Char)} {position : Int} {columns : List Column}
    (read : ofDefinitions position definitions = .ok columns) :
    Ascending columns ∧ ∀ c ∈ columns, position ≤ c.position ∧ c.key = ⟨c.name⟩ := by
  induction definitions generalizing position columns with
  | nil =>
    cases read
    exact ⟨.nil, fun _ member => by cases member⟩
  | cons definition definitions ih =>
    cases here : ofDefinitionChars definition position with
    | error e =>
      rw [ofDefinitions, here] at read
      cases read
    | ok column =>
      cases column with
      | none =>
        -- A definition of no column takes no position.
        rw [ofDefinitions, here] at read
        exact ih read
      | some c =>
        obtain ⟨first, key⟩ := ofDefinitionChars_keyed here
        rw [ofDefinitions_cons here] at read
        cases rest : ofDefinitions (position + 1) definitions with
        | error e =>
          rw [rest] at read
          cases read
        | ok others =>
          rw [rest] at read
          cases read
          obtain ⟨ascending, keyed⟩ := ih rest
          have later (d : Column) (member : d ∈ others) : position < d.position := by
            have := (keyed d member).1
            omega
          refine ⟨.cons (fun d member => first ▸ later d member) ascending, List.forall_mem_cons.mpr ⟨⟨?_, key⟩, ?_⟩⟩
          · exact Int.le_of_eq first.symm
          · exact fun d member => ⟨Int.le_of_lt (later d member), (keyed d member).2⟩

end Column

theorem Table.create_same {name : String} {columns others : List Column} (ordered : Ascending columns)
    (alsoOrdered : Ascending others) (given : columns ≠ []) (agreed : List.Forall₂ Column.SameButCase columns others) :
    SameOutcome Table.SameButCase (Table.create name columns) (Table.create name others) := by
  have alsoGiven : others ≠ [] := by
    rintro rfl
    cases agreed
    exact given rfl
  by_cases named : isBlankText name = false
  · -- Columns in order stay where they are, so that the two lists go on side by side.
    rw [create_ascending named given ordered, create_ascending named alsoGiven alsoOrdered]
    exact .ok ⟨rfl, agreed⟩
  · rw [Table.create, Table.create, dif_neg named, dif_neg named]
    exact .error rfl

theorem Table.ofScript_same {s t : String} (same : capitals s.toList = capitals t.toList) :
    SameOutcome Table.SameButCase (Table.ofScript s) (Table.ofScript t) := by
  have texts := stripCommentChars_same same
  rw [Table.ofScript, Table.ofScript, requireText_same same]
  have given : SameOutcome (fun _ _ => True) (requireText .table t) (requireText .table t) := .refl (fun _ => trivial) _
  refine given.bind fun _ _ _ _ _ => ?_
  rcases caseless_tableName.firstMatch?.same texts with
    ⟨first, second⟩ | ⟨⟨name, _⟩, ⟨otherName, _⟩, first, second, equal⟩
  · simp only [first, second]
    exact .error rfl
  have names : upperChars name = upperChars otherName := blind_eq upperChars_capitals (Prod.mk.inj equal).1
  rcases caseless_tableBody.firstMatch?.same texts with
    ⟨third, fourth⟩ | ⟨body, otherBody, third, fourth, bodies⟩
  · simp only [first, second, third, fourth]
    exact .error rfl
  have definitions : (columnDefinitions body).map capitals = (columnDefinitions otherBody).map capitals := by
    rw [← columnDefinitions_capitals, bodies, columnDefinitions_capitals]
  simp only [first, second, third, fourth, names]
  refine (Column.ofDefinitions_same definitions 0).bind fun columns others read alsoRead agreed => ?_
  cases columns with
  | nil =>
    cases agreed
    exact .error rfl
  | cons c rest =>
    cases agreed with
    | cons first others =>
      exact Table.create_same (Column.ofDefinitions_keyed read).1 (Column.ofDefinitions_keyed alsoRead).1
        (List.cons_ne_nil c rest) (.cons first others)

/-- The columns of a table that has been read are those that the definitions in its body declare. -/
theorem Table.ofScript_eq_ok {s : String} {t : Table} (read : Table.ofScript s = .ok t) :
    ∃ body, firstMatch? tableBody? (stripCommentChars s.toList) = some body ∧
      Column.ofDefinitions 0 (columnDefinitions body) = .ok t.columns := by
  rw [Table.ofScript] at read
  cases allowed : requireText .table s with
  | error e =>
    rw [allowed] at read
    cases read
  | ok _ =>
    rw [allowed] at read
    cases named : firstMatch? tableName? (stripCommentChars s.toList) with
    | none =>
      simp only [named] at read
      cases read
    | some reading =>
      cases inside : firstMatch? tableBody? (stripCommentChars s.toList) with
      | none =>
        simp only [named, inside] at read
        cases read
      | some body =>
        simp only [named, inside] at read
        cases declared : Column.ofDefinitions 0 (columnDefinitions body) with
        | error e =>
          rw [declared] at read
          cases read
        | ok columns =>
          rw [declared] at read
          change (if columns.isEmpty then _ else Table.create _ columns) = _ at read
          split at read
          · cases read
          · have ordered := arrange_ascending (Column.ofDefinitions_keyed declared).1
            exact ⟨body, rfl, by rw [(create_eq_ok_iff.mp read).2, ordered, declared]⟩

theorem Table.distinct_of_names {s : String} {t : Table} (read : Table.ofScript s = .ok t)
    (names : (t.columns.map Column.name).Nodup) : Distinct Column.key t.columns := by
  obtain ⟨_, _, declared⟩ := Table.ofScript_eq_ok read
  have keyed := (Column.ofDefinitions_keyed declared).2
  have keys : t.columns.map Column.key = (t.columns.map Column.name).map NameKey.mk := by
    rw [List.map_map]
    exact List.map_congr_left fun c member => (keyed c member).2
  rw [Distinct, keys]
  exact List.pairwise_map.mpr (names.imp fun different same => different (NameKey.mk.inj same))

end SchemaSync
