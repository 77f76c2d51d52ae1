import Mathlib.Tactic.Choose
import SchemaSync.Proofs.Definitions.Account
import SchemaSync.Proofs.Run.Gives

/-! Loading a definition set from a tree of files. Either all that is consulted is accounted for, or a path cannot be
followed and loading is broken off. -/

namespace SchemaSync

namespace Definitions

open SchemaSync.Tree SchemaSync.Action

variable {σ : Type} {files : Tree} {root directory : Path} {place : Location}

/-- What breaks loading off: a path is too long, or the root is locked. -/
inductive Obstructs (files : Tree) (root : Path) : Error → Prop
  | tooLong (path : String) : Obstructs files root (.file ⟨.nameTooLong, path⟩)
  | denied (locked : ¬Entered files root) (path : String) : Obstructs files root (.file ⟨.denied, path⟩)

theorem locate_of_valid {text : String} (valid : validateRoot files text = .ok root) : ∃ place,
    files.locate root = .ok place ∧
      (files.find? place = some .directory ∨ files.find? place = some .lockedDirectory) := by
  rw [validateRoot] at valid
  split at valid
  · cases valid
  · dsimp only at valid
    split at valid
    · next directory =>
      cases valid
      obtain ⟨place, located, found⟩ := locate_of_isDirectory directory
      exact ⟨place, located, any_isDirectory_iff.mp found⟩
    · cases valid
    · cases valid

structure FollowedKind (files : Tree) (root : Path) (kind : ObjectKind) : Prop where
  short : (root.child kind.directory).toString.utf8ByteSize ≤ maxPathBytes
  reachable : Reachable files (root.child kind.directory)

theorem Followed.followedKind (followed : Followed files root) (kind : ObjectKind) : FollowedKind files root kind :=
  ⟨followed.directories kind, followed.scripts _ (.kind kind)⟩

/-- The longest name of a directory for a kind of object, in bytes. -/
private theorem directory_short (kind : ObjectKind) : kind.directory.utf8ByteSize ≤ 10 := by
  cases kind <;> decide

/-- Where the path of the root leaves room for two names, all paths can be followed. -/
theorem followed_of_short (sound : files.Sound) (entered : Entered files root)
    (short : root.toString.utf8ByteSize + 12 + maxNameBytes ≤ maxPathBytes) : Followed files root := by
  have below (kind : ObjectKind) := Path.utf8ByteSize_child_le kind.plain_directory root
  refine ⟨entered, fun kind => ?_, fun directory consulted path node listed => ?_⟩
  · have := below kind
    have := directory_short kind
    omega
  · obtain ⟨name, contains, _, rfl⟩ := listed
    have plain := sound.isPlain_of_contains contains
    have := Path.utf8ByteSize_child_le plain directory
    have := plain.short
    cases consulted with
    | kind kind =>
      have := below kind
      have := directory_short kind
      omega
    | root => omega

section Directories

variable (sound : files.Sound)
include sound

theorem gives_readScripts (located : files.locate directory = .ok place)
    (inside : files.find? place = some .directory) (reachable : Reachable files directory) :
    (readScripts directory : Action LogRecord σ Reading).Gives files (readDirectory files directory) files := by
  refine gives_files.bind ((gives_recordAll _).bind ?_)
  rw [obstacle_of_reachable sound located inside reachable]
  exact gives_pure _

theorem fails_readScripts (located : files.locate directory = .ok place)
    (inside : files.find? place = some .directory) (unreachable : ¬Reachable files directory) :
    (readScripts directory : Action LogRecord σ Reading).Fails files (Obstructs files root) := by
  obtain ⟨path, obstacle⟩ := obstacle_of_not_reachable sound located inside unreachable
  refine gives_files.fails ((gives_recordAll _).fails ?_)
  rw [obstacle]
  exact fails_fail (.tooLong path)

variable (located : files.locate root = .ok place) (inside : files.find? place = some .directory) {kind : ObjectKind}
include located inside

theorem gives_readKind (followed : FollowedKind files root kind) : ∃ reading : Reading,
      (readKind root kind : Action LogRecord σ Reading).Gives files reading files ∧
        reading.Covers files (root.child kind.directory) := by
  have below := locate_child located inside kind.plain_directory followed.short
  have directory := isDirectory_eq below
  have nothing (closed : files.find? (place ++ [kind.directory]) ≠ some .directory) :
      Reading.Covers { scripts := [], failed := [], obstacle := none } files (root.child kind.directory) := by
    refine covers_nothing ?_
    rintro path node ⟨_, ⟨other, located', inside', _⟩, _⟩
    cases below.symm.trans located'
    exact closed inside'
  have gives {reading : Reading} (there : (files.find? (place ++ [kind.directory])).any Node.isDirectory = true)
      (read : (readScripts (root.child kind.directory) : Action LogRecord σ Reading).Gives files reading files) :
      (readKind root kind : Action LogRecord σ Reading).Gives files reading files := by
    refine gives_files.bind ?_
    dsimp only
    rw [directory, there]
    exact read.bind ((gives_log _ _).bind (gives_pure _))
  cases there : (files.find? (place ++ [kind.directory])).any Node.isDirectory with
  | false =>
    refine ⟨_, gives_files.bind ?_, nothing fun inside => ?_⟩
    · dsimp only
      rw [directory, there]
      exact gives_pure _
    · rw [inside] at there
      cases there
  | true =>
    rcases any_isDirectory_iff.mp there with inside | locked
    · exact ⟨_, gives there (gives_readScripts sound below inside followed.reachable),
        covers_readDirectory sound below inside followed.reachable⟩
    · refine ⟨_, gives there (gives_files.bind ((gives_recordAll _).bind ?_)), nothing (by rw [locked]; nofun)⟩
      rw [readDirectory_locked below locked]
      exact gives_pure _

/-- A path that is too long is one to the directory of a kind, or to something in it. -/
theorem fails_readKind (unfollowed : ¬FollowedKind files root kind) :
    (readKind root kind : Action LogRecord σ Reading).Fails files (Obstructs files root) := by
  refine gives_files.fails ?_
  dsimp only
  by_cases short : (root.child kind.directory).toString.utf8ByteSize ≤ maxPathBytes
  · have unreachable : ¬Reachable files (root.child kind.directory) := fun reachable => unfollowed ⟨short, reachable⟩
    have below := locate_child located inside kind.plain_directory short
    have there : files.find? (place ++ [kind.directory]) = some .directory := by
      by_contra absent
      refine unreachable fun path node listed => ?_
      obtain ⟨_, ⟨other, located', inside', _⟩, _⟩ := listed
      cases below.symm.trans located'
      exact absurd inside' absent
    rw [isDirectory_of_find? below there]
    exact (fails_readScripts sound below there unreachable).bind _
  · have located := locate_child_long located kind.plain_directory (Nat.not_le.mp short)
    rw [isDirectory_of_fault located]
    exact fails_fail (.tooLong _)

omit sound inside in
theorem fails_readKind_locked (locked : files.find? place = some .lockedDirectory) :
    (readKind root kind : Action LogRecord σ Reading).Fails files (Obstructs files root) := by
  have closed : ¬Entered files root := by
    rintro ⟨other, located', inside⟩
    cases located.symm.trans located'
    cases locked.symm.trans inside
  refine gives_files.fails ?_
  dsimp only
  by_cases short : (root.child kind.directory).toString.utf8ByteSize ≤ maxPathBytes
  · rw [isDirectory_of_fault (locate_child_locked located locked kind.plain_directory short)]
    exact fails_fail (.denied closed _)
  · rw [isDirectory_of_fault (locate_child_long located kind.plain_directory (Nat.not_le.mp short))]
    exact fails_fail (.tooLong _)

end Directories

section Root

variable (sound : files.Sound) {text : String} (valid : validateRoot files text = .ok root)
include sound valid

theorem gives_find (followed : Followed files root) : ∃ found unread undetected,
    (find text : Action LogRecord σ FoundScripts).Gives files found files ∧
      Accounts files root (.ofFound found) unread undetected := by
  obtain ⟨place, located, inside⟩ := followed.entered
  choose readings gives covers using fun kind =>
    gives_readKind (σ := σ) sound located inside (followed.followedKind kind)
  by_cases grouped : Grouped files root
  · refine ⟨_, _, _, ?_, accounts_grouped covers sound grouped⟩
    refine gives_files.bind ((gives_ofExcept valid).bind ((gives .domain).bind ((gives .table).bind
      ((gives .procedure).bind ?_))))
    have some : (groupsOf readings).total ≠ 0 := (total_groupsOf covers).mpr grouped
    exact (if_pos some).symm ▸ gives_pure _
  · have reachable := followed.scripts root (.root grouped)
    refine ⟨_, _, _, ?_, accounts_flat covers sound grouped (covers_readDirectory sound located inside reachable)⟩
    refine gives_files.bind ((gives_ofExcept valid).bind ((gives .domain).bind ((gives .table).bind
      ((gives .procedure).bind ?_))))
    have none : ¬(groupsOf readings).total ≠ 0 := mt (total_groupsOf covers).mp grouped
    exact (if_neg none).symm ▸ (gives_log _ _).bind
      ((gives_readScripts sound located inside reachable).bind (gives_pure _))

theorem fails_find_inside (located : files.locate root = .ok place) (inside : files.find? place = some .directory)
    (unfollowed : ¬Followed files root) :
    (find text : Action LogRecord σ FoundScripts).Fails files (Obstructs files root) := by
  have entered : Entered files root := ⟨place, located, inside⟩
  refine gives_files.fails ((gives_ofExcept valid).fails ?_)
  by_cases every : ∀ kind, FollowedKind files root kind
  · choose readings gives covers using fun kind => gives_readKind (σ := σ) sound located inside (every kind)
    have flat : ¬Grouped files root := by
      refine fun grouped => unfollowed ⟨entered, fun kind => (every kind).short, fun directory consulted => ?_⟩
      cases consulted with
      | kind kind => exact (every kind).reachable
      | root flat => exact absurd grouped flat
    have unreachable : ¬Reachable files root := by
      refine fun reachable => unfollowed ⟨entered, fun kind => (every kind).short, fun directory consulted => ?_⟩
      cases consulted with
      | kind kind => exact (every kind).reachable
      | root => exact reachable
    refine (gives .domain).fails ((gives .table).fails ((gives .procedure).fails ?_))
    have none : ¬(groupsOf readings).total ≠ 0 := mt (total_groupsOf covers).mp flat
    exact (if_neg none).symm ▸ (gives_log _ _).fails ((fails_readScripts sound located inside unreachable).bind _)
  · -- The first kind whose directory cannot be followed ends the search.
    by_cases domain : FollowedKind files root .domain
    · obtain ⟨_, first, _⟩ := gives_readKind (σ := σ) sound located inside domain
      refine first.fails ?_
      by_cases table : FollowedKind files root .table
      · obtain ⟨_, second, _⟩ := gives_readKind (σ := σ) sound located inside table
        refine second.fails ((fails_readKind sound located inside fun procedure => every fun kind => ?_).bind _)
        cases kind with
        | domain => exact domain
        | table => exact table
        | procedure => exact procedure
      · exact (fails_readKind sound located inside table).bind _
    · exact (fails_readKind sound located inside domain).bind _

theorem fails_find (unfollowed : ¬Followed files root) :
    (find text : Action LogRecord σ FoundScripts).Fails files (Obstructs files root) := by
  obtain ⟨place, located, inside | locked⟩ := locate_of_valid valid
  · exact fails_find_inside sound valid located inside unfollowed
  · -- The first directory that is looked for below a locked root is out of reach.
    exact gives_files.fails ((gives_ofExcept valid).fails ((fails_readKind_locked located locked).bind _))

theorem gives_load (followed : Followed files root) : ∃ set unread undetected,
    (load find text : Action LogRecord σ ScriptSet).Gives files set files ∧
      Accounts files root set unread undetected := by
  obtain ⟨found, unread, undetected, gives, accounts⟩ := gives_find (σ := σ) sound valid followed
  exact ⟨_, unread, undetected, gives.bind ((gives_recordAll _).bind ((gives_log _ _).bind (gives_pure _))), accounts⟩

theorem fails_load (unfollowed : ¬Followed files root) :
    (load find text : Action LogRecord σ ScriptSet).Fails files (Obstructs files root) :=
  (fails_find sound valid unfollowed).bind _

/-- Loading a definition set accounts for all that is consulted, if all paths can be followed, and fails if not. -/
theorem load_accounts : (Followed files root → ∃ set unread undetected,
      (load find text : Action LogRecord σ ScriptSet).Gives files set files ∧
        Accounts files root set unread undetected) ∧
    (¬Followed files root → (load find text : Action LogRecord σ ScriptSet).Fails files (Obstructs files root)) :=
  ⟨gives_load sound valid, fails_load sound valid⟩

end Root

/-- A flat definition set: a script, a file that is cut off within the mark and one that is not UTF-8. -/
def cutTree : Tree where
  base := ["home"]
  entries := [
    (["home"], .directory), (["home", "d"], .directory),
    (["home", "d", "A.sql"], .file "CREATE DOMAIN A AS INTEGER;".toUTF8.toList),
    (["home", "d", "B.sql"], .file [0xEF]), (["home", "d", "C.sql"], .file [0xFF])]

/-- Nothing is said about the file that is cut off within the mark. -/
theorem load_accounts_cut : ∃ set unread undetected,
    (load find "d" : Action LogRecord Unit ScriptSet).Gives cutTree set cutTree ∧
      Accounts cutTree (Path.ofString "d") set unread undetected ∧
      (Path.ofString "d").child "B.sql" ∉ accounted set unread undetected := by
  have sound : cutTree.Sound := by decide
  have valid : validateRoot cutTree "d" = .ok (Path.ofString "d") := by decide
  have entered : Entered cutTree (Path.ofString "d") := ⟨["home", "d"], by decide, by decide⟩
  have followed : Followed cutTree (Path.ofString "d") := followed_of_short sound entered (by decide)
  obtain ⟨set, unread, undetected, gives, accounts⟩ := (load_accounts (σ := Unit) sound valid).1 followed
  refine ⟨set, unread, undetected, gives, accounts, fun inside => ?_⟩
  obtain ⟨directory, node, _, listed, counts⟩ := (accounts.whole _).mp inside
  have found := lookup_listed sound listed
  have cut : cutTree.lookup ((Path.ofString "d").child "B.sql") = .ok (.file [0xEF]) := by decide
  rw [cut, if_pos (by decide)] at found
  cases found
  cases counts with
  | filled filled => exact filled (.inr (.inl rfl))

end Definitions

end SchemaSync
