import EdgeOperator.Program

set_option autoImplicit false

/-! # The anchor of a namespace

The routing ingress of a namespace belongs to one anchor: of those that are not deleted the one
created first, and of several created at once the one whose name comes first. An anchor without a
time of creation comes before all others. -/

namespace EdgeOperator

namespace Anchor

/-- What anchors are ordered by. -/
def rank (anchor : Resource .anchor) : Option Timestamp × String :=
  (anchor.metadata.creationTimestamp?, anchor.metadata.displayName)

/-- Whether an anchor comes before another or is level with it. -/
def precedes (a b : Resource .anchor) : Bool :=
  ((compare (rank a).1 (rank b).1).then (compare (rank a).2 (rank b).2)).isLE

/-- The first of a list of anchors by their order; of several with one rank the first in the
list. -/
def least? : List (Resource .anchor) → Option (Resource .anchor)
  | [] => none
  | anchor :: rest =>
    match least? rest with
    | none => some anchor
    | some other => some (if precedes anchor other then anchor else other)

/-- The first of the anchors that are not deleted. -/
def first? (anchors : List (Resource .anchor)) : Option (Resource .anchor) :=
  least? (anchors.filter fun anchor => !anchor.metadata.isDeleted)

end Anchor

/-- Finds the anchor of a namespace. -/
def findAnchor (namespaceName : String) : Program (Resource .anchor) := do
  match Anchor.first? (← Program.list .anchor (some namespaceName)) with
  | some anchor => return anchor
  | none => .fail (.missingAnchor namespaceName)

end EdgeOperator
