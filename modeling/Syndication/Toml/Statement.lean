import Syndication.Toml.Scalar

/-!
# Statements of a TOML text

A text is a sequence of statements: entries `key = value`, headers of tables and
headers of items of arrays of tables. A key is dotted if it has several parts.
Within brackets a value may go on over several lines.

Main statements:

* `statements?`: the statements of a text.
-/

namespace Syndication.Toml

/-- A statement. The last part of its key stands apart. -/
inductive Statement where
  /-- An entry of the table in which it stands. -/
  | pair (path : List String) (key : String) (value : Value)
  /-- The header of a table. -/
  | header (path : List String) (key : String)
  /-- The header of one more item of an array of tables. -/
  | item (path : List String) (key : String)
deriving Repr

/-! ### Blanks and comments -/

/-- The rest behind blanks, comments and ends of lines; `inComment` says that a
comment has begun. -/
def skipLines : Bool → List Char → Option (List Char)
  | _, [] => some []
  | _, '\n' :: rest => skipLines false rest
  | _, '\r' :: '\n' :: rest => skipLines false rest
  | true, c :: rest => if isTextChar c then skipLines true rest else none
  | false, c :: rest =>
    if isBlank c then skipLines false rest
    else if c == '#' then skipLines true rest
    else some (c :: rest)

/-- The rest behind a line that ends here but for blanks and a comment. -/
def endOfLine? (cs : List Char) : Option (List Char) :=
  let rest := match skipBlanks cs with
    | '#' :: comment => comment.dropWhile isTextChar
    | rest => rest
  if rest.isEmpty then some [] else newline? rest

/-- The rest behind a character. -/
def skip? (c : Char) : List Char → Option (List Char)
  | first :: rest => if first = c then some rest else none
  | [] => none

/-! ### Keys -/

/-- A letter, digit, underscore or hyphen of ASCII. -/
def isBareKeyChar (c : Char) : Bool :=
  c.isAlphanum || c == '_' || c == '-'

/-- The part of a key that begins here, and what follows. -/
def keyPart? (cs : List Char) : Option (String × List Char) :=
  match cs with
  | '"' :: rest => (scanQuoted rest).map fun (text, rest) => (String.ofList text, rest)
  | '\'' :: rest => (scanLiteral rest).map fun (text, rest) => (String.ofList text, rest)
  | cs =>
    let part := cs.takeWhile isBareKeyChar
    if part.isEmpty then none else some (String.ofList part, cs.dropWhile isBareKeyChar)

/-- The parts of the key that begins here, at most `fuel`, and what follows with
its blanks left out. -/
def keyParts? : Nat → List Char → Option (List String × List Char)
  | 0, _ => none
  | fuel + 1, cs => do
    let (part, rest) ← keyPart? (skipBlanks cs)
    match skipBlanks rest with
    | '.' :: rest =>
      let (parts, rest) ← keyParts? fuel rest
      return (part :: parts, rest)
    | rest => return ([part], rest)

/-- The greatest number of parts of a key, and of brackets around a value. -/
def maxDepth : Nat := 79

/-- The key that begins here, without its last part, that part, and what follows. -/
def key? (cs : List Char) : Option (List String × String × List Char) := do
  let (parts, rest) ← keyParts? maxDepth cs
  return (parts.dropLast, ← parts.getLast?, rest)

/-! ### Values -/

mutual

/-- The value that begins here inside `depth` brackets, and what follows. -/
def scanValue : Nat → Nat → List Char → Option (Value × List Char)
  | 0, _, _ => none
  | fuel + 1, depth, cs =>
    match cs with
    | '"' :: _ | '\'' :: _ => (text? cs).map fun (s, rest) => (.text s, rest)
    | 't' :: 'r' :: 'u' :: 'e' :: rest => some (.bool true, rest)
    | 'f' :: 'a' :: 'l' :: 's' :: 'e' :: rest => some (.bool false, rest)
    | '[' :: rest =>
      if depth < maxDepth then
        (scanItems fuel (depth + 1) rest).map fun (items, rest) => (.array items, rest)
      else none
    | '{' :: rest =>
      if depth < maxDepth then
        match skipBlanks rest with
        | '}' :: rest => some (.table .braces [], rest)
        | rest =>
          (scanPairs fuel (depth + 1) [] rest).map fun (es, rest) => (.table .braces es, rest)
      else none
    | cs => number? cs

/-- The items of an array up to its closing bracket, and what follows. -/
def scanItems : Nat → Nat → List Char → Option (List Value × List Char)
  | 0, _, _ => none
  | fuel + 1, depth, cs => do
    match ← skipLines false cs with
    | ']' :: rest => return ([], rest)
    | cs =>
      let (item, rest) ← scanValue fuel depth cs
      match ← skipLines false rest with
      | ',' :: rest =>
        let (items, rest) ← scanItems fuel depth rest
        return (item :: items, rest)
      | ']' :: rest => return ([item], rest)
      | _ => none

/-- The entries of a table in braces up to the closing one, added to given ones, and
what follows. -/
def scanPairs : Nat → Nat → List (String × Value) → List Char →
    Option (List (String × Value) × List Char)
  | 0, _, _, _ => none
  | fuel + 1, depth, entries, cs => do
    let (path, key, rest) ← key? cs
    let (value, rest) ← scanValue fuel depth (skipBlanks (← skip? '=' rest))
    let entries ← addPair? path key value entries
    match skipBlanks rest with
    | ',' :: rest => scanPairs fuel depth entries rest
    | '}' :: rest => return (entries, rest)
    | _ => none

end

/-- The value that begins here, and what follows. Every bracket and every item
takes at least one character, so twice the length of the text is depth enough. -/
def value? (cs : List Char) : Option (Value × List Char) :=
  scanValue (2 * cs.length + 2) 0 cs

/-! ### Statements -/

/-- The statement that begins here, and what follows its line. -/
def statement? (cs : List Char) : Option (Statement × List Char) :=
  match cs with
  | '[' :: '[' :: rest => do
    let (path, key, rest) ← key? rest
    return (.item path key, ← endOfLine? (← skip? ']' (← skip? ']' rest)))
  | '[' :: rest => do
    let (path, key, rest) ← key? rest
    return (.header path key, ← endOfLine? (← skip? ']' rest))
  | cs => do
    let (path, key, rest) ← key? cs
    let (value, rest) ← value? (skipBlanks (← skip? '=' rest))
    return (.pair path key value, ← endOfLine? rest)

/-- The statements of the rest of a text, at most `fuel`. -/
def scanStatements : Nat → List Char → Option (List Statement)
  | 0, _ => none
  | fuel + 1, cs => do
    match ← skipLines false cs with
    | [] => return []
    | cs =>
      let (s, rest) ← statement? cs
      return s :: (← scanStatements fuel rest)

/-- **The statements of a text**, which may begin with a mark of byte order. -/
def statements? (text : String) : Option (List Statement) :=
  let cs := match text.toList with
    | '\uFEFF' :: rest => rest
    | cs => cs
  scanStatements (cs.length + 1) cs

end Syndication.Toml
