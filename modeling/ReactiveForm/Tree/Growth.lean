import ReactiveForm.Tree.Basic

/-!
# Growth of live trees

New nodes are made for a definition and for all that it holds, each before its children. Instances
are added to a range and removed from it; the nodes removed lose their identifiers.
-/

set_option autoImplicit false

namespace ReactiveForm

namespace Arena

/-- Stores a node and then what it holds, given how the latter is stored below it. -/
def graft (a : Arena Node) (node : Node)
    (below : NodeId → Arena Node → List NodeId × Arena Node) : NodeId × Arena Node :=
  let (id, a) := a.alloc node
  let (children, a) := below id a
  (id, a.modify id fun n => { n with children })

mutual

/-- Stores new nodes for a definition: one for each child of it, or for each instance that a repeat
starts with. -/
def plant (parent : Option NodeId) (a : Arena Node) : Definition → NodeId × Arena Node
  | .root h cs => a.graft (.fresh (.root h cs) parent) fun id a => plantAll id a cs
  | .group h cs => a.graft (.fresh (.group h cs) parent) fun id a => plantAll id a cs
  | .range h template instances =>
    a.graft (.fresh (.range h template instances) parent) fun id a => plantAll id a instances
  | .inst h cs => a.graft (.fresh (.inst h cs) parent) fun id a => plantAll id a cs
  | .value h default => a.alloc (.fresh (.value h default) parent)
  | .select h mode default items itemset =>
    a.alloc (.fresh (.select h mode default items itemset) parent)

/-- Stores new nodes for definitions below a node, one after the other. -/
def plantAll (parent : NodeId) (a : Arena Node) : List Definition → List NodeId × Arena Node
  | [] => ([], a)
  | d :: ds =>
    let (id, a) := plant (some parent) a d
    let (ids, a) := plantAll parent a ds
    (id :: ids, a)

end

end Arena

namespace Tree

/-- The tree that a form starts with. -/
def ofDefinition (d : Definition) : Tree :=
  let (root, arena) := Arena.plant none {} d
  { arena, root }

/-- What a new instance of a range looks like. -/
def template? (t : Tree) (range : NodeId) : Option Definition :=
  match t.definition? range with
  | some (.range _ template _) => some template
  | _ => none

/-- Adds instances to a range, behind the first `place` of those that it has. -/
def insertInstances (t : Tree) (range : NodeId) (place count : Nat) (template : Definition) :
    Tree :=
  let (created, arena) := Arena.plantAll range t.arena (List.replicate count template)
  { t with arena }.modify range fun n =>
    { n with children := n.children.take place ++ created ++ n.children.drop place }

/-- Removes `count` instances of a range behind the first `place`. The nodes removed, in document
order, come with the tree that is left. -/
def removeInstances (t : Tree) (range : NodeId) (place count : Nat) : List NodeId × Tree :=
  let removed := ((t.children range).drop place).take count |>.flatMap t.subtree
  let kept := t.modify range fun n =>
    { n with children := n.children.take place ++ n.children.drop (place + count) }
  (removed, { kept with arena := removed.foldl Arena.release kept.arena })

end Tree

end ReactiveForm
