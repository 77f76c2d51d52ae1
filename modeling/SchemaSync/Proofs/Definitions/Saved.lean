import SchemaSync.Definitions.Save
import SchemaSync.Proofs.Files.Tree
import SchemaSync.Proofs.Run.Gives

/-! The files that a schema is written to: below the root, a directory for each kind of object that there
is, and in it a file for each script. -/

namespace SchemaSync

theorem ObjectKind.plain_directory (kind : ObjectKind) : Path.IsPlain kind.directory := by
  cases kind <;> constructor <;> decide

theorem ObjectKind.directory_inj {kind other : ObjectKind} (same : kind.directory = other.directory) :
    kind = other := by
  cases kind <;> cases other <;> first | rfl | exact absurd same (by decide)

namespace Definitions

open SchemaSync.Tree

variable {σ : Type}

def scriptPath (directory : Path) (script : String × String) : Path :=
  directory.child (script.1 ++ ".sql")

def scriptEntries (place : Location) (scripts : List (String × String)) : List (Location × Node) :=
  scripts.map fun script => (place ++ [script.1 ++ ".sql"], .file (Text.Utf8.encode script.2.toList))

def kindEntries (place : Location) (s : Snapshot) (kind : ObjectKind) : List (Location × Node) :=
  if namedScripts s kind = [] then []
  else (place ++ [kind.directory], .directory) :: scriptEntries (place ++ [kind.directory]) (namedScripts s kind)

/-- A schema whose scripts can be files, each with a name of its own in its directory. -/
structure Savable (s : Snapshot) : Prop where
  plain : ∀ kind, ∀ script ∈ namedScripts s kind, Path.IsPlain (script.1 ++ ".sql")
  distinct : ∀ kind, ((namedScripts s kind).map Prod.fst).Nodup

/-- No path of a schema's files below a root is too long. -/
structure Fits (root : Path) (s : Snapshot) : Prop where
  directories : ∀ kind, (root.child (ObjectKind.directory kind)).toString.utf8ByteSize ≤ maxPathBytes
  files : ∀ kind, ∀ script ∈ namedScripts s kind,
    (scriptPath (root.child kind.directory) script).toString.utf8ByteSize ≤ maxPathBytes

variable {t : Tree} {directory : Path} {place : Location}

private theorem gives_writeScript {made : Tree} {script : String × String}
    (there : t.ensureDirectories directory = .ok made)
    (located : made.locate (scriptPath directory script) = .ok place) (absent : made.find? place = none) :
    (writeScript directory script.1 script.2 : Action LogRecord σ Path).Gives t (scriptPath directory script)
      (made.extend [(place, .file (Text.Utf8.encode script.2.toList))]) :=
  (Action.gives_changeFiles there).bind
    ((Action.gives_changeFiles (write_new located absent _)).bind (Action.gives_pure _))

theorem find?_scriptEntries_other {scripts : List (String × String)} {name : String}
    (other : name ∉ scripts.map Prod.fst) :
    (scriptEntries place scripts).lookup (place ++ [name ++ ".sql"]) = none := by
  rw [List.lookup_eq_none_iff]
  intro entry member
  obtain ⟨script, inside, rfl⟩ := List.mem_map.mp member
  rw [bne_iff_ne]
  intro same
  rw [List.append_cancel_left_eq, List.cons.injEq, String.append_left_inj] at same
  exact other (same.1 ▸ List.mem_map_of_mem inside)

private theorem gives_writeScripts {root : Path} {kind : ObjectKind} {made : Tree}
    {scripts : List (String × String)} (given : scripts ≠ [])
    (there : t.ensureDirectories (root.child kind.directory) = .ok made)
    (located : made.locate (root.child kind.directory) = .ok place) (inside : made.find? place = some .directory)
    (plain : ∀ script ∈ scripts, Path.IsPlain (script.1 ++ ".sql")) (distinct : (scripts.map Prod.fst).Nodup)
    (short : ∀ script ∈ scripts,
      (scriptPath (root.child kind.directory) script).toString.utf8ByteSize ≤ maxPathBytes)
    (absent : ∀ script ∈ scripts, made.find? (place ++ [script.1 ++ ".sql"]) = none) :
    (writeScripts (root.child kind.directory) scripts : Action LogRecord σ (List Path)).Gives t
      (scripts.map (scriptPath (root.child kind.directory))) (made.extend (scriptEntries place scripts)) := by
  -- The directory is made for the first file, and it is there for the others.
  induction scripts generalizing t made with
  | nil => exact absurd rfl given
  | cons script rest ih =>
    obtain ⟨fresh, distinct⟩ := List.nodup_cons.mp distinct
    have first := gives_writeScript (σ := σ) there
      (locate_child located inside (plain script List.mem_cons_self) (short script List.mem_cons_self))
      (absent script List.mem_cons_self)
    refine first.bind (Action.Gives.bind ?_ (Action.gives_pure _))
    cases rest with
    | nil => exact Action.gives_pure _
    | cons next rest =>
      have located := locate_extend located (scriptEntries place [script])
      have inside := find?_extend_some inside (scriptEntries place [script])
      have absent : ∀ other ∈ next :: rest,
          (made.extend (scriptEntries place [script])).find? (place ++ [other.1 ++ ".sql"]) = none := by
        intro other member
        rw [find?_extend, absent other (List.mem_cons_of_mem _ member), Option.none_or]
        refine find?_scriptEntries_other fun same => fresh ?_
        rw [List.map_singleton, List.mem_singleton] at same
        exact same ▸ List.mem_map_of_mem member
      have later := ih (List.cons_ne_nil _ _) (ensureDirectories_present kind.plain_directory located inside) located
        inside (fun other member => plain other (List.mem_cons_of_mem _ member)) distinct
        (fun other member => short other (List.mem_cons_of_mem _ member)) absent
      rwa [extend_extend] at later

private theorem gives_saveKind {root : Path} {s : Snapshot} {kind : ObjectKind} (savable : Savable s)
    (fits : Fits root s) (located : t.locate root = .ok place) (inside : t.find? place = some .directory)
    (clear : ∀ more, t.find? (place ++ kind.directory :: more) = none) :
    (writeScripts (root.child kind.directory) (namedScripts s kind) : Action LogRecord σ (List Path)).Gives t
      ((namedScripts s kind).map (scriptPath (root.child kind.directory)))
      (t.extend (kindEntries place s kind)) := by
  have below := locate_child located inside kind.plain_directory (fits.directories kind)
  have absent (name : String) : (t.extend [(place ++ [kind.directory], .directory)]).find?
      (place ++ [kind.directory] ++ [name]) = none := by
    rw [find?_extend, List.append_assoc, List.singleton_append, clear, Option.none_or, List.lookup_eq_none_iff]
    intro entry member
    rw [List.mem_singleton.mp member]
    simp
  rw [kindEntries]
  split
  · next empty =>
    rw [empty, extend_nil]
    exact Action.gives_pure _
  · next given =>
    have written := gives_writeScripts (σ := σ) given (ensureDirectories_new kind.plain_directory below (clear []))
      (locate_extend below _) (by rw [find?_extend, clear [], Option.none_or, List.lookup_cons_self])
      (savable.plain kind) (savable.distinct kind) (fits.files kind) (fun script _ => absent _)
    rwa [extend_extend] at written

theorem lookup_kindEntries_other {s : Snapshot} {kind other : ObjectKind} (different : kind ≠ other)
    (more : Location) : (kindEntries place s kind).lookup (place ++ other.directory :: more) = none := by
  have apart {rest : Location} : place ++ other.directory :: more ≠ place ++ kind.directory :: rest := by
    intro same
    rw [List.append_cancel_left_eq, List.cons.injEq] at same
    exact different (ObjectKind.directory_inj same.1.symm)
  rw [kindEntries, List.lookup_eq_none_iff]
  intro entry member
  rw [bne_iff_ne]
  split at member
  · cases member
  · rcases List.mem_cons.mp member with rfl | member
    · exact apart
    · obtain ⟨script, _, rfl⟩ := List.mem_map.mp member
      rw [List.append_assoc, List.singleton_append]
      exact apart

private theorem gives_saveKinds {root : Path} {s : Snapshot} (savable : Savable s) (fits : Fits root s)
    (kinds : List ObjectKind) (distinct : kinds.Nodup) (located : t.locate root = .ok place)
    (inside : t.find? place = some .directory)
    (clear : ∀ kind ∈ kinds, ∀ more, t.find? (place ++ kind.directory :: more) = none) :
    ∃ written, (saveKinds root s kinds : Action LogRecord σ (List Path)).Gives t written
      (t.extend (kinds.flatMap (kindEntries place s))) := by
  induction kinds generalizing t with
  | nil => exact ⟨[], by rw [List.flatMap_nil, extend_nil]; exact Action.gives_pure _⟩
  | cons kind rest ih =>
    obtain ⟨fresh, distinct⟩ := List.nodup_cons.mp distinct
    have first := gives_saveKind (σ := σ) savable fits located inside (clear kind List.mem_cons_self)
    obtain ⟨written, later⟩ := ih distinct (locate_extend located (kindEntries place s kind))
      (find?_extend_some inside _) fun other member more => by
        have different : kind ≠ other := fun same => fresh (same ▸ member)
        rw [find?_extend, clear other (List.mem_cons_of_mem _ member), Option.none_or]
        exact lookup_kindEntries_other different more
    rw [extend_extend, ← List.flatMap_cons] at later
    exact ⟨_, first.bind (later.bind (Action.gives_pure _))⟩

def savedEntries (place : Location) (s : Snapshot) : List (Location × Node) :=
  ObjectKind.all.flatMap (kindEntries place s)

/-- A schema saved below a root that is empty once it is there. -/
theorem gives_save {root : Path} {s : Snapshot} {made : Tree} (savable : Savable s) (fits : Fits root s)
    (there : t.ensureDirectories root = .ok made) (located : made.locate root = .ok place)
    (inside : made.find? place = some .directory) (hollow : made.Hollow place) :
    ∃ written, (save root s : Action LogRecord σ (List Path)).Gives t written
      (made.extend (savedEntries place s)) := by
  obtain ⟨written, gives⟩ := gives_saveKinds (σ := σ) savable fits ObjectKind.all (by decide) located inside
    fun kind _ more => hollow.find?_eq_none kind.directory more
  exact ⟨written, (Action.gives_changeFiles there).bind
    (gives.bind ((Action.gives_log _ _).bind (Action.gives_pure _)))⟩

end Definitions

end SchemaSync
