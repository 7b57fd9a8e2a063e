import ServerManifests.Yaml.Node

/-!
From the tree of a document to its value. Anchors are numbered in the order of
the text by the count of names before them, so a name given again may share a
number with the next new one; of nodes with one number the last is meant.
-/
namespace ServerManifests.Yaml

/-- The number of each anchor name so far. -/
abbrev AnchorNumbers := List (String × Nat)

namespace AnchorNumbers

def give (numbers : AnchorNumbers) (name : String) : AnchorNumbers :=
  (name, numbers.length) :: numbers.filter (·.1 ≠ name)

end AnchorNumbers

namespace NodeProperties

def number (properties : NodeProperties String) (numbers : AnchorNumbers) :
    NodeProperties Nat × AnchorNumbers :=
  match properties.anchor with
  | .none => (⟨.none, properties.tag⟩, numbers)
  | some name => (⟨some numbers.length, properties.tag⟩, numbers.give name)

end NodeProperties

namespace Node

mutual

/-- Replaces names by numbers; an alias needs an anchor before it. -/
def number? : Node String → AnchorNumbers → Option (Node Nat × AnchorNumbers)
  | .scalar properties text plain, numbers =>
    let (properties, numbers) := properties.number numbers
    some (.scalar properties text plain, numbers)
  | .alias name, numbers => (numbers.lookup name).map fun n => (.alias n, numbers)
  | .sequence properties items, numbers => do
    let (properties, numbers) := properties.number numbers
    let (items, numbers) ← numberItems? items numbers
    return (.sequence properties items, numbers)
  | .mapping properties entries, numbers => do
    let (properties, numbers) := properties.number numbers
    let (entries, numbers) ← numberEntries? entries numbers
    return (.mapping properties entries, numbers)

def numberItems? : List (Node String) → AnchorNumbers → Option (List (Node Nat) × AnchorNumbers)
  | [], numbers => some ([], numbers)
  | item :: rest, numbers => do
    let (item, numbers) ← item.number? numbers
    let (rest, numbers) ← numberItems? rest numbers
    return (item :: rest, numbers)

def numberEntries? : List (Node String × Node String) → AnchorNumbers →
    Option (List (Node Nat × Node Nat) × AnchorNumbers)
  | [], numbers => some ([], numbers)
  | (key, value) :: rest, numbers => do
    let (key, numbers) ← key.number? numbers
    let (value, numbers) ← value.number? numbers
    let (rest, numbers) ← numberEntries? rest numbers
    return ((key, value) :: rest, numbers)

end

def labelled {Label : Type} (properties : NodeProperties Label) (node : Node Label) :
    List (Label × Node Label) :=
  properties.anchor.toList.map (·, node)

mutual

/-- All nodes with a label, in the order of the text. -/
def anchored {Label : Type} : Node Label → List (Label × Node Label)
  | .scalar properties text plain => labelled properties (.scalar properties text plain)
  | .alias _ => []
  | .sequence properties items =>
    labelled properties (.sequence properties items) ++ anchoredItems items
  | .mapping properties entries =>
    labelled properties (.mapping properties entries) ++ anchoredEntries entries

def anchoredItems {Label : Type} : List (Node Label) → List (Label × Node Label)
  | [] => []
  | item :: rest => item.anchored ++ anchoredItems rest

def anchoredEntries {Label : Type} : List (Node Label × Node Label) → List (Label × Node Label)
  | [] => []
  | (key, value) :: rest => key.anchored ++ (value.anchored ++ anchoredEntries rest)

end

mutual

/-- The number of scalars and aliases and of starts and ends of collections. -/
def eventCount {Label : Type} : Node Label → Nat
  | .scalar _ _ _ => 1
  | .alias _ => 1
  | .sequence _ items => eventCountItems items + 2
  | .mapping _ entries => eventCountEntries entries + 2

def eventCountItems {Label : Type} : List (Node Label) → Nat
  | [] => 0
  | item :: rest => item.eventCount + eventCountItems rest

def eventCountEntries {Label : Type} : List (Node Label × Node Label) → Nat
  | [] => 0
  | (key, value) :: rest => key.eventCount + value.eventCount + eventCountEntries rest

end

/-- Collections may be nested so deep. -/
def maxDepth : Nat := 128

/-- What the aliases of a document stand for, and how many may be followed. -/
structure Targets where
  nodes : List (Nat × Node Nat)
  limit : Nat

def Targets.ofRoot (root : Node Nat) : Targets :=
  ⟨root.anchored.reverse, 100 * root.eventCount⟩

/-- Composition counts the aliases that were followed. -/
abbrev Compose := StateT Nat Option

/-- Follows an alias. -/
def follow (targets : Targets) : Node Nat → Compose (Node Nat)
  | .alias number => do
    let followed ← get
    if targets.limit ≤ followed then failure
    set (followed + 1)
    match targets.nodes.lookup number with
    | some node => return node
    | none => failure
  | node => return node

/-- The value of a scalar apart from its tag. -/
def untaggedScalar? (text : String) (plain : Bool) : Option Value :=
  if plain then Value.ofPlain? text else some (.text text)

def scalarValue? (tag : Option TagMeaning) (text : String) (plain : Bool) : Option Value :=
  match tag with
  | none => untaggedScalar? text plain
  | some (.custom name) => (untaggedScalar? text plain).map (.tagged name)
  | some .text => some (.text text)
  | some .null => if Scalar.nullNames.contains text then some .null else none
  | some .bool => (Scalar.boolean? text).map .bool
  | some .int => ((Scalar.integer? text.toList).filter Scalar.fitsWord).map .int
  | some .float => (Scalar.float? text.toList).map .float

def withTag (tag : Option TagMeaning) (value : Value) : Value :=
  match tag with
  | some (.custom name) => .tagged name value
  | _ => value

/-- The value of a node in which collections are nested at most `depth` deep. -/
def value? (targets : Targets) : (depth : Nat) → Node Nat → Compose Value
  | 0, node => do
    match ← follow targets node with
    | .scalar properties text plain => StateT.lift (scalarValue? properties.tag text plain)
    | _ => failure
  | depth + 1, node => do
    match ← follow targets node with
    | .scalar properties text plain => StateT.lift (scalarValue? properties.tag text plain)
    | .sequence properties items => do
      let items ← items.mapM (value? targets depth)
      return withTag properties.tag (.list items)
    | .mapping properties entries => do
      let entries ← entries.foldlM (fun (done : Entries) (key, value) => do
        let key ← value? targets depth key
        if (done.find? key).isSome then failure
        let value ← value? targets depth value
        return done ++ [(key, value)]) []
      return withTag properties.tag (.map entries)
    | .alias _ => failure

end Node

/-- The value of a document text; none if it is no single document or holds what
no value can stand for. A text without a document is null. -/
def Value.parse? (text : String) : Option Value := do
  let tokens ← Token.ofText? text
  match ← Node.ofTokens? tokens with
  | none => some .null
  | some node => do
    let (root, _) ← node.number? []
    let (value, _) ← (root.value? (.ofRoot root) Node.maxDepth).run 0
    return value

end ServerManifests.Yaml
