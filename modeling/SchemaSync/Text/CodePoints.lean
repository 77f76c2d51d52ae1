/-! Sets of code points. A set is given by the increasing list of the code points at which
membership changes, so a run of members costs two entries whatever its length. -/

namespace SchemaSync.Text

/-- Membership in the set whose boundaries are listed: the number of boundaries passed is odd. -/
def inRuns (boundaries : List Nat) (point : Nat) : Bool :=
  (boundaries.takeWhile (· ≤ point)).length % 2 == 1

end SchemaSync.Text
