import Leasehold.Yaml.Node
import Leasehold.Yaml.Stream

/-!
# Documents of YAML

A stream of one document is its node with the aliases resolved. An alias refers
to the anchor of its name that was last given before it. Anchors are told apart
by the number of different names that were given before them, so an anchor of a
name that was given already may take the place of another one.
-/

namespace Leasehold.Yaml

/-- The anchors that were given so far: the number of each name, and the node of
each number. -/
structure Anchors where
  numbers : List (String × Nat)
  nodes : List (Nat × NamedNode)

namespace Anchors

/-- No anchors. -/
def empty : Anchors :=
  ⟨[], []⟩

/-- The anchors with that of a node, if it has one. -/
def give (anchors : Anchors) (name : Option String) (node : NamedNode) : Anchors :=
  match name with
  | none => anchors
  | some name =>
    let number := anchors.numbers.length
    let others := anchors.numbers.filter fun given => given.1 != name
    ⟨(name, number) :: others, (number, node) :: anchors.nodes⟩

end Anchors

mutual

/-- A node with the number of an anchor for each alias, given the anchors before
it. -/
def resolve? (anchors : Anchors) : NamedNode → Option (Node Nat × Anchors)
  | .alias name => (anchors.numbers.lookup name).map fun number => (.alias number, anchors)
  | .scalar properties style text =>
    some (.scalar properties style text,
      anchors.give properties.anchor (.scalar properties style text))
  | .sequence properties items =>
    let given := anchors.give properties.anchor (.sequence properties items)
    (resolveItems? given items).map fun (items, anchors) => (.sequence properties items, anchors)
  | .mapping properties members =>
    let given := anchors.give properties.anchor (.mapping properties members)
    (resolveMembers? given members).map fun (members, anchors) =>
      (.mapping properties members, anchors)
  termination_by structural node => node

/-- The items of a sequence, resolved one after the other. -/
def resolveItems? (anchors : Anchors) : List NamedNode → Option (List (Node Nat) × Anchors)
  | [] => some ([], anchors)
  | item :: items =>
    match resolve? anchors item with
    | none => none
    | some (item, anchors) =>
      (resolveItems? anchors items).map fun (items, anchors) => (item :: items, anchors)
  termination_by structural nodes => nodes

/-- The members of a mapping, resolved one after the other. -/
def resolveMembers? (anchors : Anchors) :
    List (NamedNode × NamedNode) → Option (List (Node Nat × Node Nat) × Anchors)
  | [] => some ([], anchors)
  | (key, value) :: members =>
    match resolve? anchors key with
    | none => none
    | some (key, anchors) =>
      match resolve? anchors value with
      | none => none
      | some (value, anchors) =>
        (resolveMembers? anchors members).map fun (members, anchors) =>
          ((key, value) :: members, anchors)
  termination_by structural nodes => nodes

end

/-- A document: its node, if there is any, and the nodes of its anchors. -/
structure Document where
  root : Option (Node Nat)
  anchored : List (Nat × NamedNode)

namespace Document

/-- The directives at the front of tokens: a version at most once, which has to be
known, and what handles stand for, each at most once. -/
def directives? (hasVersion : Bool) (handles : TagHandles) :
    List Token → Option (TagHandles × List Token)
  | .version major minor :: rest =>
    if hasVersion || major != 1 || (minor != 1 && minor != 2) then none
    else directives? true handles rest
  | .tagPrefix handle leading :: rest =>
    if (handles.lookup handle).isSome then none
    else directives? hasVersion ((handle, leading) :: handles) rest
  | rest => some (handles, rest)

/-- Whether a token cannot begin the node of a document. -/
def endsDocument : Token → Bool
  | .version .. => true
  | .tagPrefix .. => true
  | .documentStart => true
  | .documentEnd => true
  | _ => false

/-- A bound for the steps that reading a node takes. -/
def fuel (tokens : List Token) : Nat :=
  4 * tokens.length + 4

/-- The node of a document at the front of tokens. -/
def root? : List Token → Option (NamedNode × List Token)
  | tokens => do
    let (handles, rest) ← directives? false [] tokens
    let handles := handles ++ standardHandles
    match rest with
    | .documentStart :: rest =>
      if rest.head?.all endsDocument then return (.omitted, rest)
      else node? handles ⟨true, false⟩ (fuel rest) rest
    | rest =>
      if rest.length = tokens.length then node? handles ⟨true, false⟩ (fuel rest) rest else none

/-- The document of a text. -/
def read? (text : String) : Option Document := do
  match ← tokens? text with
  | [] => return ⟨none, []⟩
  | tokens =>
    let (root, rest) ← root? tokens
    if rest.all (· == Token.documentEnd) then
      let (root, anchors) ← resolve? .empty root
      return ⟨some root, anchors.nodes⟩
    else none

/-- The scalar that a node is or refers to. -/
def scalar? (document : Document) : Node Nat → Option (Properties × ScalarStyle × String)
  | .scalar properties style text => some (properties, style, text)
  | .alias number =>
    match document.anchored.lookup number with
    | some (.scalar properties style text) => some (properties, style, text)
    | _ => none
  | _ => none

end Document

end Leasehold.Yaml
