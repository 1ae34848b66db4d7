import RulerCompass.Ledger.Fact

/-!
# Forests of equal relations

The nodes are the relations that occur in facts, in the order in which they were entered.  Each node
names its parent by key; a root names itself.  Relations with one root are equal.  A root carries as
a tag the number of the fact that last enlarged its tree.
-/

namespace RulerCompass

/-- A relation in a tree, with the key of its parent. -/
structure Node where
  relation : Relation
  parent : String
  tag : Option Int := none
  deriving DecidableEq

/-- A node goes by the key of its relation. -/
def Node.key (n : Node) : String := n.relation.key

/-- The trees, as one list of nodes. -/
abbrev Forest := List Node

namespace Forest

variable (f : Forest)

/-- The keys of all nodes, in the order in which they were entered. -/
def keys : List String := f.map Node.key

/-- The node with this key. -/
def node? (key : String) : Option Node := f.find? fun n => n.key = key

/-- Whether a relation with this key has been entered. -/
def Holds (key : String) : Prop := key ∈ f.keys

instance (key : String) : Decidable (f.Holds key) := inferInstanceAs (Decidable (_ ∈ _))

/-! ### Finding roots -/

/-- The keys from `key` up to its root, at most `fuel` steps. -/
def pathFrom (key : String) : Nat → List String
  | 0 => [key]
  | fuel + 1 =>
    match f.node? key with
    | none => [key]
    | some n => if n.parent = key then [key] else key :: pathFrom n.parent fuel

/-- The keys from `key` up to its root; a path visits each node at most once. -/
def path (key : String) : List String := f.pathFrom key f.length

/-- The last key on the way up. -/
def root (key : String) : String := (f.path key).getLastD key

/-- The nodes with these keys get `root` as their parent. -/
def redirect (keys : List String) (root : String) : Forest :=
  f.map fun n => if n.key ∈ keys then { n with parent := root } else n

/-- Every node on the way up from `key` gets the root as its parent. -/
def compress (key : String) : Forest := f.redirect (f.path key) (f.root key)

/-- The root of a key, and the forest with the way to it shortened. -/
def find (key : String) : String × Forest := (f.root key, f.compress key)

/-! ### Classes -/

/-- Whether two keys have one root; a key that has not been entered equals only itself. -/
def connected (left right : String) : Bool × Forest :=
  if left = right then (true, f)
  else if f.Holds left ∧ f.Holds right then
    let (a, f) := find f left
    let (b, f) := find f right
    (a = b, f)
  else (false, f)

/-- Adds a tree of one node, unless its key is there already. -/
def enter (r : Relation) : Forest := if f.Holds r.key then f else f ++ [⟨r, r.key, none⟩]

/-- Hangs the root `lower` below `upper` and hands the tag over. -/
def attach (upper lower : String) (tag : Int) : Forest :=
  f.map fun n =>
    if n.key = lower then { n with parent := upper, tag := none }
    else if n.key = upper then { n with tag := some tag }
    else n

/-- Joins two trees; the smaller root stays. -/
def union (left right : String) (tag : Int) : Forest :=
  let (a, f) := find f left
  let (b, f) := find f right
  if a = b then f
  else if b < a then attach f b a tag
  else attach f a b tag

/-- The relations with the root `root`, of those with the given keys, finding each root in turn. -/
def membersAmong (root : String) (f : Forest) : List String → List Relation × Forest
  | [] => ([], f)
  | key :: rest =>
    let (r, f) := find f key
    let (members, f) := membersAmong root f rest
    ((if r = root then (f.node? key).toList.map Node.relation else []) ++ members, f)

/-- The relations equal to the one with this key, in the order in which they were entered. -/
def members (key : String) : List Relation × Forest :=
  if f.Holds key then
    let (r, f) := find f key
    membersAmong r f f.keys
  else ([], f)

end Forest

end RulerCompass
