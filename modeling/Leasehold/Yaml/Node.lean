import Leasehold.Yaml.Token

/-!
# Nodes of YAML

A document is a tree of scalars, sequences and mappings, in which an alias may
stand for a node that was given an anchor before. Aliases are names at first. A
value that is left out is the empty plain scalar.
-/

namespace Leasehold.Yaml

/-- The anchor and the tag of a node. -/
structure Properties where
  anchor : Option String
  tag : Option String
  deriving DecidableEq, Repr

/-- No anchor and no tag. -/
def Properties.none : Properties :=
  ⟨.none, .none⟩

/-- A node of a document whose aliases are of type `ρ`. -/
inductive Node (ρ : Type) where
  | alias (target : ρ)
  | scalar (properties : Properties) (style : ScalarStyle) (text : String)
  | sequence (properties : Properties) (items : List (Node ρ))
  | mapping (properties : Properties) (members : List (Node ρ × Node ρ))
  deriving Repr

/-- A node as it is written. -/
abbrev NamedNode :=
  Node String

/-- The node that is left out. -/
def Node.omitted {ρ : Type} : Node ρ :=
  .scalar .none .plain ""

/-- What the handles of tags stand for. -/
abbrev TagHandles :=
  List (String × String)

/-- The handles that every document has. -/
def standardHandles : TagHandles :=
  [("!", "!"), ("!!", "tag:yaml.org,2002:")]

/-- A whole tag. -/
def resolveTag? (handles : TagHandles) (handle suffix : String) : Option String :=
  if handle = "" then some suffix else (handles.lookup handle).map (· ++ suffix)

/-- The properties at the front of tokens: at most one anchor and one tag. -/
def properties? (handles : TagHandles) : List Token → Option (Properties × List Token)
  | .anchor name :: .tag handle suffix :: rest =>
    (resolveTag? handles handle suffix).map fun tag => (⟨some name, some tag⟩, rest)
  | .tag handle suffix :: .anchor name :: rest =>
    (resolveTag? handles handle suffix).map fun tag => (⟨some name, some tag⟩, rest)
  | .anchor name :: rest => some (⟨some name, .none⟩, rest)
  | .tag handle suffix :: rest =>
    (resolveTag? handles handle suffix).map fun tag => (⟨.none, some tag⟩, rest)
  | rest => some (.none, rest)

/-- Where a node stands: in block style or in brackets, and whether the entries of
a sequence may stand at the column of the mapping around it. -/
structure Position where
  block : Bool
  indentless : Bool
  deriving DecidableEq, Repr

/-- Whether a value or an entry in block style is left out before a token. -/
def isOmittedBefore (indentless : Bool) : List Token → Bool
  | .blockEnd :: _ => true
  | .blockEntry :: _ => !indentless
  | .key :: _ => indentless
  | .value :: _ => indentless
  | _ => false

/-- Whether an entry of an indentless sequence is left out before a token. -/
def isEntryOmittedBefore : List Token → Bool
  | .blockEntry :: _ => true
  | .key :: _ => true
  | .value :: _ => true
  | .blockEnd :: _ => true
  | _ => false

mutual

/-- The node at the front of tokens. -/
def node? (handles : TagHandles) (position : Position) :
    Nat → List Token → Option (NamedNode × List Token)
  | 0, _ => none
  | fuel + 1, tokens =>
    match tokens with
    | .alias name :: rest => some (.alias name, rest)
    | tokens => do
      let (properties, tokens) ← properties? handles tokens
      match position, tokens with
      | ⟨_, true⟩, .blockEntry :: _ =>
        let (items, rest) ← indentlessItems? handles fuel tokens
        return (.sequence properties items, rest)
      | _, .scalar style text :: rest => return (.scalar properties style text, rest)
      | _, .flowSequenceStart :: rest =>
        let (items, rest) ← flowItems? handles true fuel rest
        return (.sequence properties items, rest)
      | _, .flowMappingStart :: rest =>
        let (members, rest) ← flowMembers? handles true fuel rest
        return (.mapping properties members, rest)
      | ⟨true, _⟩, .blockSequenceStart :: rest =>
        let (items, rest) ← blockItems? handles fuel rest
        return (.sequence properties items, rest)
      | ⟨true, _⟩, .blockMappingStart :: rest =>
        let (members, rest) ← blockMembers? handles fuel rest
        return (.mapping properties members, rest)
      | _, rest => if properties = .none then none else return (.scalar properties .plain "", rest)

/-- The items of a block sequence up to its end. -/
def blockItems? (handles : TagHandles) : Nat → List Token → Option (List NamedNode × List Token)
  | 0, _ => none
  | fuel + 1, tokens =>
    match tokens with
    | .blockEnd :: rest => some ([], rest)
    | .blockEntry :: rest => do
      let (item, rest) ←
        if isOmittedBefore false rest then some (.omitted, rest)
        else node? handles ⟨true, false⟩ fuel rest
      let (items, rest) ← blockItems? handles fuel rest
      return (item :: items, rest)
    | _ => none

/-- The items of a sequence at the column of the mapping around it. -/
def indentlessItems? (handles : TagHandles) :
    Nat → List Token → Option (List NamedNode × List Token)
  | 0, _ => none
  | fuel + 1, tokens =>
    match tokens with
    | .blockEntry :: rest => do
      let (item, rest) ←
        if isEntryOmittedBefore rest then some (.omitted, rest)
        else node? handles ⟨true, false⟩ fuel rest
      let (items, rest) ← indentlessItems? handles fuel rest
      return (item :: items, rest)
    | rest => some ([], rest)

/-- A key or a value of a block mapping, which may be left out. -/
def blockPart? (handles : TagHandles) : Nat → List Token → Option (NamedNode × List Token)
  | 0, _ => none
  | fuel + 1, tokens =>
    if isOmittedBefore true tokens then some (.omitted, tokens)
    else node? handles ⟨true, true⟩ fuel tokens

/-- The members of a block mapping up to its end. -/
def blockMembers? (handles : TagHandles) :
    Nat → List Token → Option (List (NamedNode × NamedNode) × List Token)
  | 0, _ => none
  | fuel + 1, tokens =>
    match tokens with
    | .blockEnd :: rest => some ([], rest)
    | .key :: rest => do
      let (key, rest) ← blockPart? handles fuel rest
      let (value, rest) ← match rest with
        | .value :: rest => blockPart? handles fuel rest
        | rest => some (.omitted, rest)
      let (members, rest) ← blockMembers? handles fuel rest
      return ((key, value) :: members, rest)
    | _ => none

/-- The value of a pair in brackets; `.none` if there is no colon. -/
def flowValue? (handles : TagHandles) (ends : Token → Bool) :
    Nat → List Token → Option (NamedNode × List Token)
  | 0, _ => none
  | fuel + 1, tokens =>
    match tokens with
    | .value :: rest =>
      if rest.head?.any ends then some (.omitted, rest)
      else node? handles ⟨false, false⟩ fuel rest
    | rest => some (.omitted, rest)

/-- The items of a sequence in brackets up to its end. An item with a key is a
mapping of one pair; a key that is left out takes the next token with it. -/
def flowItems? (handles : TagHandles) (first : Bool) :
    Nat → List Token → Option (List NamedNode × List Token)
  | 0, _ => none
  | fuel + 1, tokens =>
    let rest? := match first, tokens with
      | true, tokens => some tokens
      | false, .flowEntry :: rest => some rest
      | false, .flowSequenceEnd :: rest => some (.flowSequenceEnd :: rest)
      | false, _ => none
    match rest? with
    | none => none
    | some (.flowSequenceEnd :: rest) => some ([], rest)
    | some (.key :: rest) => do
      let ends : Token → Bool := fun token => token = .flowEntry ∨ token = .flowSequenceEnd
      let (key, rest) ← match rest with
        | token :: rest' =>
          if token = .value ∨ ends token then some (.omitted, rest')
          else node? handles ⟨false, false⟩ fuel rest
        | [] => none
      let (value, rest) ← flowValue? handles ends fuel rest
      let (items, rest) ← flowItems? handles false fuel rest
      return (.mapping .none [(key, value)] :: items, rest)
    | some rest => do
      let (item, rest) ← node? handles ⟨false, false⟩ fuel rest
      let (items, rest) ← flowItems? handles false fuel rest
      return (item :: items, rest)

/-- The members of a mapping in brackets up to its end. -/
def flowMembers? (handles : TagHandles) (first : Bool) :
    Nat → List Token → Option (List (NamedNode × NamedNode) × List Token)
  | 0, _ => none
  | fuel + 1, tokens =>
    let rest? := match first, tokens with
      | true, tokens => some tokens
      | false, .flowEntry :: rest => some rest
      | false, .flowMappingEnd :: rest => some (.flowMappingEnd :: rest)
      | false, _ => none
    match rest? with
    | none => none
    | some (.flowMappingEnd :: rest) => some ([], rest)
    | some (.key :: rest) => do
      let ends : Token → Bool := fun token => token = .flowEntry ∨ token = .flowMappingEnd
      let (key, rest) ←
        if rest.head?.any fun token => token = .value ∨ ends token then some (.omitted, rest)
        else node? handles ⟨false, false⟩ fuel rest
      let (value, rest) ← flowValue? handles ends fuel rest
      let (members, rest) ← flowMembers? handles false fuel rest
      return ((key, value) :: members, rest)
    | some rest => do
      let (key, rest) ← node? handles ⟨false, false⟩ fuel rest
      let (members, rest) ← flowMembers? handles false fuel rest
      return ((key, .omitted) :: members, rest)

end

end Leasehold.Yaml
