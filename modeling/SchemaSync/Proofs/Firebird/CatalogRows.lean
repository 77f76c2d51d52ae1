import SchemaSync.Proofs.Firebird.Request
import SchemaSync.Proofs.Text.Capitals

/-! What the rows of the catalog say about the fields that they describe, and the queries that give such rows. -/

namespace SchemaSync.Firebird

open Text

/-- A field source is the name of an implicit domain: it starts with the four characters of such names, in capitals or
not. -/
def NamesImplicit (source : String) : Prop :=
  implicitStart <+: capitals source.toList

instance (source : String) : Decidable (NamesImplicit source) :=
  inferInstanceAs (Decidable (_ <+: _))

structure NamesDomain (fieldSource : Option String) (domain : String) : Prop where
  source : fieldSource = some domain
  given : domain ≠ ""
  own : ¬NamesImplicit domain

section FieldSource

private def startPoints : List Nat := [36, 66, 68, 82, 98, 100, 114]

private theorem small_of_startPoints {c : Char} (inside : c.toNat ∈ startPoints) : c.toNat < 128 :=
  of_decide_eq_true (List.all_eq_true.mp (by decide : startPoints.all (· < 128) = true) _ inside)

/-- Where one of these characters comes up as a capital, the capital is that of an ASCII character. -/
private theorem small_of_capital {c mark : Char} (point : mark.toNat ∈ startPoints)
    (capital : mark ∈ upperChar c ∨ mark = c.toUpper) : c.toNat < 128 := by
  rcases capital with member | rfl
  · exact small_of_startPoints
      (mem_of_upperChar (by decide) (by decide +kernel) (by decide +kernel) (by decide +kernel) member point)
  · rcases Nat.lt_or_ge c.toNat 128 with small | large
    · exact small
    · rw [toUpper_eq_self large] at point
      exact small_of_startPoints point

private theorem prefix_upperChars_iff {word : List Char} (points : ∀ mark ∈ word, mark.toNat ∈ startPoints)
    (cs : List Char) : word <+: upperChars cs ↔ word <+: capitals cs := by
  induction word generalizing cs with
  | nil => simp
  | cons mark word ih =>
    rw [List.forall_mem_cons] at points
    cases cs with
    | nil => simp [upperChars]
    | cons c cs =>
      rw [upperChars, List.flatMap_cons, capitals_cons, List.cons_prefix_cons]
      by_cases small : c.toNat < 128
      · rw [upperChar, if_pos small, List.singleton_append, List.cons_prefix_cons]
        exact and_congr_right fun _ => ih points.2 cs
      · refine iff_of_false (fun start => ?_) fun both => small (small_of_capital points.1 (.inr both.1))
        obtain ⟨d, more, split⟩ := List.exists_cons_of_ne_nil (upperChar_ne_nil c)
        rw [split, List.cons_append, List.cons_prefix_cons] at start
        exact small (small_of_capital points.1 (.inl (start.1 ▸ split ▸ List.mem_cons_self)))

theorem implicitStart_prefix_iff (source : String) :
    implicitStart.isPrefixOf (upperChars source.toList) = true ↔ NamesImplicit source := by
  have all : implicitStart.all (fun mark => startPoints.contains mark.toNat) = true := by decide
  refine List.isPrefixOf_iff_prefix.trans (prefix_upperChars_iff (fun mark member => ?_) source.toList)
  exact List.contains_iff_mem.mp (List.all_eq_true.mp all mark member)

theorem userDomain?_eq_some_iff {fieldSource : Option String} {domain : String} :
    userDomain? fieldSource = some domain ↔ NamesDomain fieldSource domain := by
  rw [userDomain?, Option.filter_eq_some_iff, Bool.and_eq_true, Bool.not_eq_true', Bool.not_eq_true',
    String.isEmpty_eq_false_iff, ← Bool.not_eq_true, implicitStart_prefix_iff]
  exact ⟨fun ⟨source, given, own⟩ => ⟨source, given, own⟩, fun ⟨source, given, own⟩ => ⟨source, given, own⟩⟩

theorem userDomain?_eq_none_iff {fieldSource : Option String} :
    userDomain? fieldSource = none ↔ ∀ domain, ¬NamesDomain fieldSource domain := by
  simp only [Option.eq_none_iff_forall_ne_some, ne_eq, userDomain?_eq_some_iff]

end FieldSource

namespace FieldType

theorem exactText_ne_empty (field : FieldType) {plain : String} (given : plain ≠ "") (usual : Int) :
    field.exactText plain usual ≠ "" := by
  rw [exactText]
  split
  · simp [String.append_eq_empty_iff]
  · exact given

theorem blobText_ne_empty (field : FieldType) : field.blobText ≠ "" := by
  rw [blobText]
  split <;> simp [String.append_eq_empty_iff]

theorem text_ne_empty (field : FieldType) : field.text ≠ "" := by
  have exact : ∀ entry ∈ exactTypes, entry.2.1 ≠ "" := by decide
  have fixed : ∀ entry ∈ fixedTypes, entry.2 ≠ "" := by decide
  have textual : ∀ entry ∈ textTypes, entry.2 ≠ "" := by decide
  have inside {ι : Type} {entries : List (Int × ι)} {code : Int} {value : ι}
      (found : entries.lookup code = some value) : (code, value) ∈ entries := by
    obtain ⟨front, back, rfl, _⟩ := List.lookup_eq_some_iff.mp found
    exact List.mem_append_right _ List.mem_cons_self
  rw [text]
  split
  · decide
  · split
    · next found => exact field.exactText_ne_empty (exact _ (inside found)) _
    · next found => exact fixed _ (inside found)
    · next found =>
      have given := textual _ (inside found)
      split
      · simp [String.append_eq_empty_iff]
      · exact given
    · split
      · exact field.blobText_ne_empty
      · simp [String.append_eq_empty_iff]

end FieldType

namespace Cell

/-- A cell shows a text that is not white space only. -/
structure Shows (cell : Cell) (cs : List Char) : Prop where
  chars : cell.chars? = some cs
  filled : ∃ c ∈ cs, isBlank c = false

theorem text?_eq_some_iff {cell : Cell} {text : String} :
    cell.text? = some text ↔ ∃ cs, cell.Shows cs ∧ text = String.ofList (trimChars cs) := by
  have filled {cs : List Char} : (!(trimChars cs).isEmpty) = true ↔ ∃ c ∈ cs, isBlank c = false := by
    rw [Bool.not_eq_true', List.isEmpty_eq_false_iff, ne_eq, trimChars_eq_nil_iff]
    simp
  constructor
  · intro given
    obtain ⟨_, kept, rfl⟩ := Option.map_eq_some_iff.mp given
    obtain ⟨found, solid⟩ := Option.filter_eq_some_iff.mp kept
    obtain ⟨cs, chars, rfl⟩ := Option.map_eq_some_iff.mp found
    exact ⟨cs, ⟨chars, filled.mp solid⟩, rfl⟩
  · rintro ⟨cs, ⟨chars, solid⟩, rfl⟩
    have kept : cell.trimmed? = some (trimChars cs) := by
      rw [trimmed?, chars]
      exact Option.filter_eq_some_iff.mpr ⟨rfl, filled.mpr solid⟩
    rw [text?, kept]
    rfl

def IsFilled (cell : Cell) : Prop :=
  ∃ cs, cell.Shows cs

theorem isSome_text?_iff {cell : Cell} : cell.text?.isSome = true ↔ cell.IsFilled := by
  simp only [Option.isSome_iff_exists, text?_eq_some_iff]
  exact ⟨fun ⟨_, cs, shows, _⟩ => ⟨cs, shows⟩, fun ⟨cs, shows⟩ => ⟨_, cs, shows, rfl⟩⟩

instance (cell : Cell) : Decidable cell.IsFilled :=
  decidable_of_iff _ isSome_text?_iff

end Cell

namespace Server

variable (server : Server) (target : String)

structure Answers (query : Query) (before : List Call) (rows : List query.Row) : Prop where
  opened : server.driver.connect before (server.loginAt target) = .ok ()
  accepted : server.driver.fetch (before ++ [.connect (server.loginAt target)]) query = .ok rows

def queryCalls (query : Query) : List Call :=
  [.connect (server.loginAt target), .query query, .commit, .close]

variable {server target}

theorem fetch_answered (named : isBlankText target = false) {query : Query} {world : World LogRecord (List Call)}
    {rows : List query.Row} (answers : server.Answers target query world.remote rows) :
    Ends (server.fetch target query) world (.ok rows) (server.queryCalls target query) := by
  have asked := Ends.ask (.query query) (server.driver.fetch · query)
    { world with remote := world.remote ++ [.connect (server.loginAt target)] }
  rw [answers.accepted] at asked
  exact server.withConnection_opened named [.query query, .commit] answers.opened
    (asked.bind ((Ends.ask .commit (fun _ => ()) _).bind (.pure rows _)))

end Server

end SchemaSync.Firebird
