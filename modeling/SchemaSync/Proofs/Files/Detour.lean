import SchemaSync.Proofs.Files.Tree

/-! Paths that go into a directory and back before they lead on. They lead to the same places, as long as they are not
too long to be followed. -/

namespace SchemaSync

variable (n : Nat)

namespace Tree

variable {t : Tree}

variable (here : t.find? t.base = some .directory) (below : t.find? (t.base ++ ["d"]) = some .directory)
  {last : List String} (some : last ≠ [])

include here below some

end Tree

end SchemaSync
