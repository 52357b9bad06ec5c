import ImagePull.Yaml.Basic

/-!
# Documents with aliases

A document is written as a tree in which a node may carry a mark, and an alias stands
for the node with its mark. One mark may be given to several nodes; an alias stands for
the last of them in the text, even where that comes after the alias or is around it.

`Tree.expand` puts the nodes in the place of their aliases. It goes only so deep into
nested collections and follows only so many aliases, so it ends also where a node
stands inside itself, which has no expansion.
-/

namespace ImagePull.Yaml

/-- A document as it is written. -/
inductive Tree where
  | reference (mark : Nat)
  | marked (mark : Nat) (node : Tree)
  | scalar (tag : Option Tag) (style : Style) (text : String)
  | sequence (tag : Option Tag) (items : List Tree)
  | mapping (tag : Option Tag) (pairs : List (Tree × Tree))

namespace Tree

/-- The tree that stands where nothing is written. -/
def empty : Tree := .scalar none .plain ""

mutual

/-- The number of scalars, aliases, and ends of collections in a tree. -/
def events : Tree → Nat
  | .reference _ => 1
  | .marked _ node => events node
  | .scalar _ _ _ => 1
  | .sequence _ items => itemEvents items + 2
  | .mapping _ pairs => pairEvents pairs + 2

@[inherit_doc events]
def itemEvents : List Tree → Nat
  | [] => 0
  | item :: rest => events item + itemEvents rest

@[inherit_doc events]
def pairEvents : List (Tree × Tree) → Nat
  | [] => 0
  | (key, value) :: rest => events key + events value + pairEvents rest

end

mutual

/-- The marks in a tree with their nodes, in the order of the text, put before `later`. -/
def marks (later : List (Nat × Tree)) : Tree → List (Nat × Tree)
  | .reference _ => later
  | .marked mark node => (mark, node) :: marks later node
  | .scalar _ _ _ => later
  | .sequence _ items => itemMarks later items
  | .mapping _ pairs => pairMarks later pairs

@[inherit_doc marks]
def itemMarks (later : List (Nat × Tree)) : List Tree → List (Nat × Tree)
  | [] => later
  | item :: rest => marks (itemMarks later rest) item

@[inherit_doc marks]
def pairMarks (later : List (Nat × Tree)) : List (Tree × Tree) → List (Nat × Tree)
  | [] => later
  | (key, value) :: rest => marks (marks (pairMarks later rest) value) key

end

/-- Computing with a number of aliases that may still be followed. -/
abbrev Expansion := StateT Nat Option

/-- The tree without its mark, or what it stands for. -/
def target (marked : List (Nat × Tree)) : Tree → Expansion Tree
  | .reference mark => do
    match ← get with
    | 0 => failure
    | left + 1 =>
      set left
      match marked.lookup mark with
      | some node => return node
      | none => failure
  | .marked _ node => return node
  | node => return node

/-- The node that a tree stands for, with collections nested at most `depth` deep. -/
def expand (marked : List (Nat × Tree)) : (depth : Nat) → Tree → Expansion Node
  | 0, t => do
    match ← target marked t with
    | .scalar tag style text => return .scalar tag style text
    | _ => failure
  | depth + 1, t => do
    match ← target marked t with
    | .scalar tag style text => return .scalar tag style text
    | .sequence tag items => return .sequence tag (← items.mapM (expand marked depth))
    | .mapping tag pairs =>
      return .mapping tag (← pairs.mapM fun p => do
        return (← expand marked depth p.1, ← expand marked depth p.2))
    | _ => failure

/-- The deepest nesting of collections that is expanded. -/
def depthLimit : Nat := 128

/-- How many aliases are followed for each event of a document. -/
def followLimit : Nat := 100

/-- The node that a whole document stands for. -/
def node? (t : Tree) : Option Node :=
  (expand (t.marks []).reverse depthLimit t).run' (followLimit * t.events)

end Tree

end ImagePull.Yaml
