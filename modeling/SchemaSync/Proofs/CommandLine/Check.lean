import SchemaSync.CommandLine.Plain
import SchemaSync.Proofs.CommandLine.Shown
import SchemaSync.Proofs.Definitions.Clean
import SchemaSync.Proofs.Definitions.Desired
import SchemaSync.Proofs.Definitions.Loaded

/-! The exit code of a check. It tells a definition set without problems from one with some, and both from a directory
that cannot be the place of one. -/

namespace SchemaSync

open SchemaSync.Action

namespace Definitions

variable {files : Tree} {text : String}

structure Present (files : Tree) (text : String) : Prop where
  named : Text.isBlankText text = false
  there : files.isDirectory (Path.ofString text) = .ok true

theorem Present.valid (present : Present files text) : validateRoot files text = .ok (Path.ofString text) := by
  rw [validateRoot, present.named]
  dsimp only
  rw [present.there]
  rfl

end Definitions

namespace CommandLine

open Definitions

/-- What a check accepts: a directory that is there and in which all paths can be followed. If the check is strict, it
also has to hold a clean definition set. -/
structure Passes (files : Tree) (text : String) (strict : Bool) : Prop extends Present files text where
  followed : Followed files (Path.ofString text)
  clean : strict = true → Clean files (Path.ofString text)

variable (screen : Screen) (verbose : Bool) {scripts : Path} (strict : Bool) {world : World Item (List Firebird.Call)}

end CommandLine

end SchemaSync
