import Syndication.Yaml.Token

/-!
# The structure of a YAML text

A node is a scalar, a list or a map, each of which may have a name and a type, or
a reference to a node with a name. The tokens of a text are read as at most one
document, whose root is a node.

Main statement:

* `root?`: the root of the document that tokens make up.
-/

namespace Syndication.Yaml

/-- What is said about a node. -/
structure Properties where
  /-- Its name. -/
  anchor : Option String
  /-- Its type. -/
  tag : Option String
deriving DecidableEq, Repr

/-- Nothing is said about a node. -/
def Properties.none : Properties := ⟨.none, .none⟩

/-- A part of a document. -/
inductive Node where
  /-- A reference to a node with a name. -/
  | alias (name : String)
  | scalar (properties : Properties) (style : Style) (text : String)
  | list (properties : Properties) (items : List Node)
  | map (properties : Properties) (entries : List (Node × Node))
deriving Repr

namespace Node

/-- The node where nothing is written. -/
def missing : Node := .scalar .none .plain ""

/-- What the handles of tags stand for, those that were declared first. -/
abbrev Handles := List (String × String)

/-- What the handles stand for that need not be declared. -/
def standardHandles : Handles := [("!", "!"), ("!!", "tag:yaml.org,2002:")]

/-- The type that a tag names. -/
def tagName? (handles : Handles) (handle suffix : String) : Option String :=
  if handle == "" then some suffix else (handles.lookup handle).map (· ++ suffix)

/-- Reads what is said about a node, in either order, and what follows. -/
def properties? (handles : Handles) (ts : List Token) : Option (Properties × List Token) :=
  match ts with
  | .anchor a :: .tag h s :: rest | .tag h s :: .anchor a :: rest => do
    return (⟨some a, some (← tagName? handles h s)⟩, rest)
  | .anchor a :: rest => some (⟨some a, .none⟩, rest)
  | .tag h s :: rest => do return (⟨.none, some (← tagName? handles h s)⟩, rest)
  | rest => some (.none, rest)

/-- The scalar with what is said about it; the tag without a name says nothing but
that it may be of any type. -/
def ofScalar (p : Properties) (style : Style) (text : String) : Node :=
  if p.tag = some "!" then .scalar ⟨p.anchor, .none⟩ style text else .scalar p style text

/-- Where a node stands, which decides what may follow a mark without a node. -/
inductive Place where
  /-- In a list or a map by indentation, or at the root. -/
  | block
  /-- In a map by indentation: a list need not be indented. -/
  | entry
  /-- In brackets or braces. -/
  | flow
deriving DecidableEq, Repr

/-- Whether an item of a list by indentation is left out before a token. -/
def endsItem : List Token → Bool
  | .dash :: _ | .blockEnd :: _ | [] => true
  | _ => false

/-- The same for a list that is not indented. -/
def endsBareItem : List Token → Bool
  | .dash :: _ | .key :: _ | .value :: _ | .blockEnd :: _ | [] => true
  | _ => false

/-- Whether a key or a value of a map by indentation is left out before a token. -/
def endsEntry : List Token → Bool
  | .key :: _ | .value :: _ | .blockEnd :: _ | [] => true
  | _ => false

/-- Whether a key in brackets or braces is left out before a token. -/
def endsFlowKey (closing : Token) : List Token → Bool
  | .value :: _ | .comma :: _ => true
  | t :: _ => t == closing
  | [] => true

/-- Whether a value in brackets or braces is left out before a token. -/
def endsFlowValue (closing : Token) : List Token → Bool
  | .comma :: _ => true
  | t :: _ => t == closing
  | [] => true

mutual

/-- Reads a node, and what follows. -/
def node? (handles : Handles) : Nat → Place → List Token → Option (Node × List Token)
  | 0, _, _ => .none
  | fuel + 1, place, ts => do
    match ts with
    | .alias name :: rest => return (.alias name, rest)
    | _ =>
      let (p, ts) ← properties? handles ts
      match ts with
      | .dash :: _ =>
        -- the items of a list may stand at the column of its key
        if place = .entry then
          let (items, rest) ← bareItems? handles fuel ts
          return (.list p items, rest)
        else absent? p ts
      | .scalar style text :: rest => return (ofScalar p style text, rest)
      | .bracketOpen :: rest =>
        let (items, rest) ← flowItems? handles fuel true rest
        return (.list p items, rest)
      | .braceOpen :: rest =>
        let (entries, rest) ← flowEntries? handles fuel true rest
        return (.map p entries, rest)
      | .listStart :: rest =>
        if place = .flow then absent? p ts
        else
          let (items, rest) ← items? handles fuel rest
          return (.list p items, rest)
      | .mapStart :: rest =>
        if place = .flow then absent? p ts
        else
          let (entries, rest) ← entries? handles fuel rest
          return (.map p entries, rest)
      | _ => absent? p ts

/-- The node where nothing is written but what is said about it. -/
def absent? (p : Properties) (rest : List Token) : Option (Node × List Token) :=
  if p = .none then .none else some (.scalar p .plain "", rest)

/-- Reads the items of a list by indentation, and what follows. -/
def items? (handles : Handles) : Nat → List Token → Option (List Node × List Token)
  | 0, _ => .none
  | fuel + 1, ts => do
    match ts with
    | .dash :: rest =>
      let (item, rest) ←
        if endsItem rest then pure (missing, rest) else node? handles fuel .block rest
      let (items, rest) ← items? handles fuel rest
      return (item :: items, rest)
    | .blockEnd :: rest => return ([], rest)
    | _ => .none

/-- Reads the items of a list that is not indented, and what follows. -/
def bareItems? (handles : Handles) : Nat → List Token → Option (List Node × List Token)
  | 0, _ => .none
  | fuel + 1, ts => do
    match ts with
    | .dash :: rest =>
      let (item, rest) ←
        if endsBareItem rest then pure (missing, rest) else node? handles fuel .block rest
      let (items, rest) ← bareItems? handles fuel rest
      return (item :: items, rest)
    | rest => return ([], rest)

/-- Reads the entries of a map by indentation, and what follows. -/
def entries? (handles : Handles) : Nat → List Token → Option (List (Node × Node) × List Token)
  | 0, _ => .none
  | fuel + 1, ts => do
    match ts with
    | .key :: rest =>
      let (key, rest) ←
        if endsEntry rest then pure (missing, rest) else node? handles fuel .entry rest
      let (value, rest) ← match rest with
        | .value :: rest =>
          if endsEntry rest then pure (missing, rest) else node? handles fuel .entry rest
        | rest => pure (missing, rest)
      let (entries, rest) ← entries? handles fuel rest
      return ((key, value) :: entries, rest)
    | .blockEnd :: rest => return ([], rest)
    | _ => .none

/-- Reads the items of a list in brackets, and what follows. An item may be a map
of one entry. -/
def flowItems? (handles : Handles) : Nat → Bool → List Token → Option (List Node × List Token)
  | 0, _, _ => .none
  | fuel + 1, first, ts => do
    let ts ← match first, ts with
      | true, ts => pure ts
      | false, .comma :: rest => pure rest
      | false, .bracketClose :: rest => pure (.bracketClose :: rest)
      | false, _ => .none
    match ts with
    | .bracketClose :: rest => return ([], rest)
    | .key :: rest =>
      let (key, rest) ←
        -- behind a key that is left out one token is passed over
        if endsFlowKey .bracketClose rest then pure (missing, rest.drop 1)
        else node? handles fuel .flow rest
      let (value, rest) ← flowValue? handles fuel .bracketClose rest
      let (items, rest) ← flowItems? handles fuel false rest
      return (.map .none [(key, value)] :: items, rest)
    | ts =>
      let (item, rest) ← node? handles fuel .flow ts
      let (items, rest) ← flowItems? handles fuel false rest
      return (item :: items, rest)

/-- Reads the value of an entry in brackets or braces, if there is one, and what
follows. -/
def flowValue? (handles : Handles) : Nat → Token → List Token → Option (Node × List Token)
  | 0, _, _ => .none
  | fuel + 1, closing, ts =>
    match ts with
    | .value :: rest =>
      if endsFlowValue closing rest then some (missing, rest) else node? handles fuel .flow rest
    | rest => some (missing, rest)

/-- Reads the entries of a map in braces, and what follows. -/
def flowEntries? (handles : Handles) : Nat → Bool → List Token →
    Option (List (Node × Node) × List Token)
  | 0, _, _ => .none
  | fuel + 1, first, ts => do
    let ts ← match first, ts with
      | true, ts => pure ts
      | false, .comma :: rest => pure rest
      | false, .braceClose :: rest => pure (.braceClose :: rest)
      | false, _ => .none
    match ts with
    | .braceClose :: rest => return ([], rest)
    | .key :: rest =>
      let (key, rest) ←
        if endsFlowKey .braceClose rest then pure (missing, rest) else node? handles fuel .flow rest
      let (value, rest) ← flowValue? handles fuel .braceClose rest
      let (entries, rest) ← flowEntries? handles fuel false rest
      return ((key, value) :: entries, rest)
    | ts =>
      let (key, rest) ← node? handles fuel .flow ts
      let (entries, rest) ← flowEntries? handles fuel false rest
      return ((key, missing) :: entries, rest)

end

/-! ### Documents -/

/-- What the directives of a document have said. -/
structure Preamble where
  /-- Whether the version was given. -/
  versioned : Bool
  /-- What was declared about handles, first to last. -/
  handles : Handles

/-- Reads the directives of a document, and what follows. Each may be given once,
and only versions of the notation that are known. -/
def preamble? (p : Preamble) : List Token → Option (Preamble × List Token)
  | .version major minor :: rest =>
    if p.versioned || major != 1 || !(minor == 1 || minor == 2) then .none
    else preamble? { p with versioned := true } rest
  | .handle name meaning :: rest =>
    if (p.handles.lookup name).isSome then .none
    else preamble? { p with handles := p.handles ++ [(name, meaning)] } rest
  | rest => some (p, rest)

/-- Whether a document is left empty before a token. -/
def endsDocument : List Token → Bool
  | .version .. :: _ | .handle .. :: _ | .documentStart :: _ | .documentEnd :: _ | [] => true
  | _ => false

/-- Whether nothing follows but the ends of documents. -/
def isOver (ts : List Token) : Bool :=
  ts.all (· == .documentEnd)

/-- **The root of the document that tokens make up**; nothing is written where
there is none. -/
def root? (ts : List Token) : Option Node := do
  if ts.isEmpty then return missing
  else
    let fuel := 3 * ts.length + 3
    let (p, rest) ← preamble? ⟨false, []⟩ ts
    let handles := p.handles ++ standardHandles
    let (root, rest) ← match rest with
      | .documentStart :: rest =>
        if endsDocument rest then pure (missing, rest) else node? handles fuel .block rest
      | _ =>
        if p.versioned || !p.handles.isEmpty then .none else node? handles fuel .block rest
    if isOver rest then return root else .none

end Node

end Syndication.Yaml
