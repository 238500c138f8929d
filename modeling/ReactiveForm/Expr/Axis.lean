/-!
# Axes

The thirteen directions in which a location step looks from a node.
-/

set_option autoImplicit false

namespace ReactiveForm

inductive Axis where
  | child
  | descendant
  | attributes
  | self
  | descendantOrSelf
  | followingSibling
  | following
  | namespaces
  | parent
  | ancestor
  | precedingSibling
  | preceding
  | ancestorOrSelf
  deriving Repr, DecidableEq

namespace Axis

def all : List Axis :=
  [child, descendant, attributes, self, descendantOrSelf, followingSibling, following, namespaces,
    parent, ancestor, precedingSibling, preceding, ancestorOrSelf]

def name : Axis → String
  | child => "child"
  | descendant => "descendant"
  | attributes => "attribute"
  | self => "self"
  | descendantOrSelf => "descendant-or-self"
  | followingSibling => "following-sibling"
  | following => "following"
  | namespaces => "namespace"
  | parent => "parent"
  | ancestor => "ancestor"
  | precedingSibling => "preceding-sibling"
  | preceding => "preceding"
  | ancestorOrSelf => "ancestor-or-self"

def ofName? (s : String) : Option Axis :=
  all.find? (·.name == s)

/-- Whether positions along the axis count away from the context node, against document order. -/
def isReverse : Axis → Bool
  | parent | ancestor | ancestorOrSelf | precedingSibling | preceding => true
  | _ => false

end Axis

end ReactiveForm
