import SchemaSync.Text.Blank

/-! Path texts. A path is an anchor and its components; components that are empty or a single dot
say nothing and are dropped, while a double dot stays, since only the tree can tell where it leads.
-/

namespace SchemaSync

/-- A path: nothing, one or two slashes as its anchor, then components. -/
structure Path where
  anchor : String
  parts : List String
  deriving DecidableEq, Repr

namespace Path

/-- The anchor of a text: exactly two leading slashes are kept as two. -/
def anchorOf (cs : List Char) : String :=
  match cs with
  | '/' :: '/' :: '/' :: _ => "/"
  | '/' :: '/' :: _ => "//"
  | '/' :: _ => "/"
  | _ => ""

def ofString (s : String) : Path where
  anchor := anchorOf s.toList
  parts := ((Text.piecesAt '/' s.toList).map String.ofList).filter fun part =>
    part != "" && part != "."

def isAbsolute (p : Path) : Bool :=
  p.anchor != ""

/-- The path as text; a path without anchor and components is the current directory. -/
def toString (p : Path) : String :=
  if p.anchor == "" && p.parts.isEmpty then "."
  else p.anchor ++ String.intercalate "/" p.parts

/-- The path `q` as seen from the directory `p`. -/
def join (p q : Path) : Path :=
  if q.isAbsolute then q else { p with parts := p.parts ++ q.parts }

/-- An entry of the directory `p`, named by a text that may have several components. -/
def child (p : Path) (name : String) : Path :=
  p.join (ofString name)

def parent (p : Path) : Path :=
  { p with parts := p.parts.dropLast }

/-- The last component, empty when there is none. -/
def name (p : Path) : String :=
  p.parts.getLast?.getD ""

/-- A file name without its extension. A dot at either end of the name starts no extension. -/
def stemOf (name : List Char) : List Char :=
  let reversed := name.reverse
  let extension := reversed.takeWhile (· != '.')
  let stem := (reversed.drop (extension.length + 1)).reverse
  if extension.isEmpty || extension.length == reversed.length || stem.isEmpty then name else stem

def stem (p : Path) : String :=
  String.ofList (stemOf p.name.toList)

end Path

end SchemaSync
