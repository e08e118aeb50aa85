import RecordRegistry.Text

/-!
# The latest version

Versions come in an order that is given from outside, the newest first.
-/

namespace RecordRegistry

/-- The first of the ordered versions that is available; without a list of the available ones, all
of them are. -/
def latestVersion (ordered : List Text) (available : Option (List Text)) : Option Text :=
  match available with
  | none => ordered.head?
  | some available => ordered.find? (· ∈ available)

/-- An order of versions, and those among them that are available. -/
structure VersionResolver where
  ordered : List Text
  available : Option (List Text)
deriving DecidableEq, Repr

/-- The newest available version. -/
def VersionResolver.latest (resolver : VersionResolver) : Option Text :=
  latestVersion resolver.ordered resolver.available

end RecordRegistry
