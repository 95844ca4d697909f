import Syndication.Text.Blank
import Syndication.Url.Address
import Syndication.Url.Domain
import Syndication.Url.Percent

/-!
# Web addresses

A web address is a URL of the scheme `http` or `https`: a host, perhaps with a
user, a password and a port, then a path, and perhaps a query and a fragment. It
is kept in its normal form: host in lower case or as a numeric address, no
default port, dot segments resolved, and forbidden characters percent encoded.

Reading first finds the scheme. A URL of another scheme is read far enough to
tell a malformed one from one that is merely no web address.

Main statements:

* `Error.message`: the wording of what is wrong with a URL.
* `Url.text`: the normal form as a text.
-/

namespace Syndication

namespace Url

/-- What is wrong with a URL. -/
inductive Error where
  | noScheme
  /-- There is no host where one has to be. -/
  | emptyHost
  /-- The host is no domain name. -/
  | invalidDomain
  /-- The host of another scheme holds a forbidden character. -/
  | invalidHostCharacter
  /-- The port is no number below 2 ^ 16. -/
  | invalidPort
  /-- The host ends in a number but is no address of version four. -/
  | invalidAddress4
  /-- The host begins with a bracket but is no address of version six. -/
  | invalidAddress6
deriving DecidableEq, Repr

/-- The wording of the error. -/
def Error.message : Error → String
  | .noScheme => "relative URL without a base"
  | .emptyHost => "empty host"
  | .invalidDomain => "invalid international domain name"
  | .invalidHostCharacter => "invalid domain character"
  | .invalidPort => "invalid port number"
  | .invalidAddress4 => "invalid IPv4 address"
  | .invalidAddress6 => "invalid IPv6 address"

/-- A host. -/
inductive Host where
  | domain (name : String)
  /-- An address of version four. -/
  | address4 (value : Nat)
  /-- An address of version six, by its groups. -/
  | address6 (groups : List Nat)
deriving DecidableEq, Repr

/-- The text of a host. -/
def Host.text : Host → String
  | .domain name => name
  | .address4 value => String.ofList (address4Text value)
  | .address6 groups => String.ofList ('[' :: address6Text groups ++ [']'])

end Url

/-- A web address in its normal form. -/
structure Url where
  /-- Whether the scheme is `https` and not `http`. -/
  secure : Bool
  /-- The user name, percent encoded. -/
  user : String
  /-- The password, percent encoded. -/
  password : Option String
  host : Url.Host
  /-- The port, unless it is the default one. -/
  port : Option Nat
  /-- The segments of the path, percent encoded. -/
  path : List String
  /-- The query, percent encoded. -/
  query : Option String
  /-- The fragment, percent encoded. -/
  fragment : Option String
deriving DecidableEq, Repr

namespace Url

/-- The text of a web address. -/
def text (u : Url) : String :=
  let credentials := match u.password with
    | some p => u.user ++ ":" ++ p ++ "@"
    | none => if u.user.isEmpty then "" else u.user ++ "@"
  let port := match u.port with
    | some p => ":" ++ String.ofList (Nat.toDigits 10 p)
    | none => ""
  (if u.secure then "https://" else "http://") ++ credentials ++ u.host.text ++ port ++ "/" ++
    "/".intercalate u.path ++ (u.query.elim "" ("?" ++ ·)) ++ (u.fragment.elim "" ("#" ++ ·))

/-! ### Reading -/

/-- How the host of a scheme is read. -/
inductive Kind where
  /-- `http` or `https`. -/
  | web (secure : Bool)
  /-- Another scheme whose host is a domain name. -/
  | named
  /-- Files: the host may be left out. -/
  | file
  /-- Any other scheme. -/
  | other
deriving DecidableEq, Repr

/-- How the host of a scheme is read. -/
def kindOf (scheme : List Char) : Kind :=
  match String.ofList scheme with
  | "http" => .web false
  | "https" => .web true
  | "ws" | "wss" | "ftp" => .named
  | "file" => .file
  | _ => .other

/-- Whether a backslash counts as a slash. -/
def Kind.isSpecial : Kind → Bool
  | .other => false
  | _ => true

/-- Whether a character may stand in a scheme behind its first letter. -/
def isSchemeChar (c : Char) : Bool :=
  c.isAlphanum || c == '+' || c == '-' || c == '.'

/-- The scheme, in lower case, and what follows its colon. -/
def scheme? (cs : List Char) : Option (List Char × List Char) :=
  match cs with
  | c :: _ =>
    if c.isAlpha then
      match cs.dropWhile isSchemeChar with
      | ':' :: rest => some ((cs.takeWhile isSchemeChar).map Char.toLower, rest)
      | _ => none
    else none
  | [] => none

/-- Whether a character ends the part that holds user and host. -/
def endsAuthority (special : Bool) (c : Char) : Bool :=
  c == '/' || c == '?' || c == '#' || (special && c == '\\')

/-- A user name and a password. -/
structure Credentials where
  /-- The user name, percent encoded. -/
  user : List Char
  /-- The password, percent encoded, unless it is empty. -/
  password : Option (List Char)

/-- The user name and password before the last `@`. -/
def credentials (cs : List Char) : Credentials :=
  let user := cs.takeWhile (· != ':')
  let password := (cs.dropWhile (· != ':')).drop 1
  ⟨percentEncode inUserInfoSet user,
    if password.isEmpty then none else some (percentEncode inUserInfoSet password)⟩

/-- Cuts the part with user and host at its last `@`. -/
def splitCredentials (authority : List Char) : Option (List Char) × List Char :=
  if authority.contains '@' then
    let reversed := authority.reverse
    (some ((reversed.dropWhile (· != '@')).drop 1).reverse, (reversed.takeWhile (· != '@')).reverse)
  else (none, authority)

/-- The text of a host and what follows it: a colon outside brackets ends it. -/
def splitHost : Bool → List Char → List Char × List Char
  | _, [] => ([], [])
  | inside, c :: cs =>
    if c = ':' ∧ inside = false then ([], c :: cs)
    else
      let inside := if c = '[' then true else if c = ']' then false else inside
      let (host, rest) := splitHost inside cs
      (c :: host, rest)

/-- An address of version six between brackets. -/
def bracketed (cs : List Char) : Except Error Host :=
  if cs.getLast? = some ']' then
    match address6? (cs.drop 1).dropLast with
    | some groups => .ok (.address6 groups)
    | none => .error .invalidAddress6
  else .error .invalidAddress6

/-- The host of a scheme whose hosts are domain names. -/
def readHost (cs : List Char) : Except Error Host :=
  if cs.head? = some '[' then bracketed cs
  else
    match asciiDomain? (Text.decodeLossy (percentDecode cs)) with
    | none => .error .invalidDomain
    | some [] => .error .emptyHost
    | some domain =>
      -- what ends in a number has to be a numeric address
      if endsInNumber domain then
        match address4? domain with
        | some n => .ok (.address4 n)
        | none => .error .invalidAddress4
      else .ok (.domain (String.ofList domain))

/-- Checks the host of another scheme. -/
def checkOpaqueHost (cs : List Char) : Except Error Unit :=
  if cs.head? = some '[' then (bracketed cs).map fun _ => ()
  else if cs.any fun c => c.toNat == 0 ||
      [' ', '#', '/', ':', '<', '>', '?', '@', '[', '\\', ']', '^', '|'].contains c then
    .error .invalidHostCharacter
  else .ok ()

/-- The port behind a host: nothing when it is left out. -/
def readPort (cs : List Char) : Except Error (Option Nat) :=
  match cs with
  | ':' :: digits =>
    if digits.isEmpty then .ok none
    else
      match (Decimal.natOfDigits? digits).filter (· < 0x10000) with
      | some n => .ok (some n)
      | none => .error .invalidPort
  | _ => .ok none

/-- What stands between the slashes and the path. -/
structure Authority where
  /-- User name and password. -/
  credentials : Credentials
  /-- The host, of a scheme whose hosts are domain names. -/
  host : Option Host
  port : Option Nat

/-- Reads the part with user, host and port. -/
def readAuthority (kind : Kind) (cs : List Char) : Except Error Authority := do
  let (info, rest) := splitCredentials cs
  -- credentials need a host
  if info.isSome ∧ rest.isEmpty then throw .emptyHost
  let (host, rest) := splitHost false rest
  if kind.isSpecial then
    if host.isEmpty then throw .emptyHost
    let h ← readHost host
    let port ← readPort rest
    return ⟨credentials (info.getD []), some h, port⟩
  else
    checkOpaqueHost host
    -- and so does a port
    if host.isEmpty ∧ !rest.isEmpty then throw .emptyHost
    let port ← readPort rest
    return ⟨credentials (info.getD []), none, port⟩

/-! ### Paths -/

/-- The spellings of a segment that stands for the same place. -/
def isSingleDot (segment : List Char) : Bool :=
  ["." , "%2e"].contains (String.ofList (segment.map Char.toLower))

/-- The spellings of a segment that stands for the place above. -/
def isDoubleDot (segment : List Char) : Bool :=
  ["..", ".%2e", "%2e.", "%2e%2e"].contains (String.ofList (segment.map Char.toLower))

/-- Whether a segment looks like the letter of a drive; the place above does not
leave it. -/
def isDriveLetter (segment : List Char) : Bool :=
  match segment with
  | [c, d] => c.isAlpha && (d == ':' || d == '|')
  | _ => false

/-- The segments without the last one. -/
def shorten (segments : List (List Char)) : List (List Char) :=
  match segments.getLast? with
  | some last => if isDriveLetter last then segments else segments.dropLast
  | none => []

/-- Adds the segments of a path to those found so far. A dot segment at the end
leaves an empty segment behind. -/
def resolveDots (found : List (List Char)) : List (List Char) → List (List Char)
  | [] => found
  | s :: rest =>
    if isDoubleDot s then
      resolveDots (if rest.isEmpty then shorten found ++ [[]] else shorten found) rest
    else if isSingleDot s then
      resolveDots (if rest.isEmpty then found ++ [[]] else found) rest
    else resolveDots (found ++ [s]) rest

/-- The segments of a path, percent encoded and without dot segments. -/
def readPath (cs : List Char) : List String :=
  let cs := match cs with
    | '/' :: r | '\\' :: r => r
    | r => r
  let segments := Chars.splitWhere (fun c => c == '/' || c == '\\') cs
  (resolveDots [] (segments.map (percentEncode inPathSet))).map String.ofList

/-- Reads the part of a web address behind the slashes. -/
def readWeb (secure : Bool) (cs : List Char) : Except Error Url := do
  let authority := cs.takeWhile (!endsAuthority true ·)
  let rest := cs.dropWhile (!endsAuthority true ·)
  let a ← readAuthority (.web secure) authority
  -- a question mark in the fragment begins no query, so the fragment is cut off first
  let (rest, fragment) := match Chars.splitFirst? '#' rest with
    | some (before, after) => (before, some after)
    | none => (rest, none)
  let (path, query) := match Chars.splitFirst? '?' rest with
    | some (before, after) => (before, some after)
    | none => (rest, none)
  -- the default port is left out
  let standard := if secure then 443 else 80
  return {
    secure
    user := String.ofList a.credentials.user
    password := a.credentials.password.map String.ofList
    host := a.host.getD (.domain "")
    port := a.port.filter (· != standard)
    path := readPath path
    query := query.map fun q => String.ofList (percentEncode inQuerySet q)
    fragment := fragment.map fun f => String.ofList (percentEncode inFragmentSet f) }

/-- A URL as it is read: a web address or not. -/
inductive Parsed where
  /-- A web address. -/
  | web (url : Url)
  /-- A URL of another scheme. -/
  | other
deriving DecidableEq, Repr

/-- The part of a URL of files that would be its host. -/
def readFile (cs : List Char) : Except Error Unit :=
  let isSlash (c : Char) : Bool := c == '/' || c == '\\'
  match cs with
  | a :: b :: rest =>
    if isSlash a && isSlash b then
      -- the letter of a drive is no host but the beginning of the path
      let host := rest.takeWhile (!endsAuthority true ·)
      if host.isEmpty || isDriveLetter host then .ok () else (readHost host).map fun _ => ()
    else .ok ()
  | _ => .ok ()

/-- Reads a URL. Blanks and controls at its ends, and tabs and line breaks within
it, do not count. -/
def parse (raw : String) : Except Error Parsed := do
  let isEdge (c : Char) : Bool := c.toNat ≤ 0x20
  let cs := (((raw.toList.dropWhile isEdge).reverse.dropWhile isEdge).reverse).filter
    fun c => !(c == '\t' || c == '\n' || c == '\r')
  match scheme? cs with
  | none => throw .noScheme
  | some (scheme, rest) =>
    match kindOf scheme with
    | .web secure =>
      -- any number of slashes, of either kind, stands before the host
      .web <$> readWeb secure (rest.dropWhile fun c => c == '/' || c == '\\')
    | .named =>
      let rest := rest.dropWhile fun c => c == '/' || c == '\\'
      let _ ← readAuthority .named (rest.takeWhile (!endsAuthority true ·))
      return .other
    | .file =>
      readFile rest
      return .other
    | .other =>
      match rest with
      | '/' :: '/' :: rest =>
        let _ ← readAuthority .other (rest.takeWhile (!endsAuthority false ·))
        return .other
      | _ => return .other

end Url

end Syndication
