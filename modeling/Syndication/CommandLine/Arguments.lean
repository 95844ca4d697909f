import Syndication.Decimal.Reading
import Syndication.KeyMap
import Syndication.Text.Search

/-!
# Arguments of the command line

A command is named by one or two words. Its options follow it, each with a long
name and some with a letter too; the options for the file of settings and for the
log may stand anywhere. An option with a value takes it from the same argument,
behind an equals sign, or from the next one, which may then not look like an option
itself.

Main statements:

* `Arguments.read`: the command that arguments ask for.
* `scan_nil`: what has been given when no argument is left.
-/

namespace Syndication

/-! ### Options -/

/-- What an option takes. -/
inductive OptionKind where
  /-- Nothing. -/
  | flag
  | text
  /-- One path, which is not empty. -/
  | path
  /-- One natural number. -/
  | number
  /-- A text, each time that it is given. -/
  | texts
deriving DecidableEq, Repr

/-- An option. -/
structure CommandOption where
  /-- The long name. -/
  name : String
  /-- What it takes. -/
  kind : OptionKind
  letter : Option Char
deriving DecidableEq, Repr

/-- The natural number of 64 bits that a text writes, with an optional plus sign. -/
def countOf? (s : String) : Option Nat :=
  let digits := match s.toList with
    | '+' :: ds => ds
    | ds => ds
  (Decimal.natOfDigits? digits).filter (· ≤ Decimal.greatestNat64)

namespace CommandOption

/-- Whether the option takes a value. -/
def takesValue (o : CommandOption) : Bool :=
  o.kind != .flag

/-- Whether the option takes a certain value. -/
def admits (o : CommandOption) (value : String) : Bool :=
  match o.kind with
  | .path => value != ""
  | .number => (countOf? value).isSome
  | .flag | .text | .texts => true

end CommandOption

/-- What has been given to a command. -/
structure Given where
  /-- The options by name with their values, in order; the value of a flag is
  empty. -/
  options : List (String × String)
  /-- The other arguments, in order. -/
  words : List String
deriving DecidableEq, Repr

namespace Given

/-- Nothing has been given. -/
def nothing : Given := ⟨[], []⟩

/-- Whether an option has been given. -/
def has (g : Given) (name : String) : Bool :=
  g.options.any (·.1 == name)

/-- The value of an option. -/
def value? (g : Given) (name : String) : Option String :=
  g.options.lookup name

/-- The values of an option, in order. -/
def values (g : Given) (name : String) : List String :=
  (g.options.filter (·.1 == name)).map (·.2)

end Given

/-- Why no command is carried out. -/
inductive Refusal where
  /-- The arguments ask for no command. -/
  | usage
  /-- Help is asked for instead. -/
  | help
  /-- The version is asked for instead. -/
  | version
deriving DecidableEq, Repr

/-! ### Scanning -/

/-- The part of a command line that belongs to one word of the command. -/
structure Level where
  options : List CommandOption
  /-- The words that may come next; none at the end of a command. -/
  commands : List String
  /-- How many other arguments there may be. -/
  places : Nat
  /-- Whether the version may be asked for. -/
  hasVersion : Bool
deriving DecidableEq, Repr

namespace Level

/-- The options that may stand anywhere. -/
def everywhere : List CommandOption :=
  [⟨"config", .path, some 'c'⟩, ⟨"log-level", .text, none⟩]

/-- The option with a long name. -/
def named? (l : Level) (name : String) : Option CommandOption :=
  (l.options ++ everywhere).find? (·.name == name)

/-- The option with a letter. -/
def lettered? (l : Level) (letter : Char) : Option CommandOption :=
  (l.options ++ everywhere).find? (·.letter == some letter)

/-- Adds an option with its value, unless it may be given only once and has been, or
does not take the value. -/
def give (g : Given) (o : CommandOption) (value : String) : Except Refusal Given :=
  if (o.kind != .texts && g.has o.name) || !o.admits value then .error .usage
  else .ok { g with options := g.options ++ [(o.name, value)] }

/-- Adds another argument, if there is a place for it. -/
def giveWord (l : Level) (g : Given) (word : String) : Except Refusal Given :=
  if g.words.length < l.places then .ok { g with words := g.words ++ [word] }
  else .error .usage

/-- Whether an argument looks like an option. -/
def looksLikeOption (argument : String) : Bool :=
  Text.startsWith "-" argument && argument != "-"

/-- What an argument says. -/
inductive Reading where
  | option (o : CommandOption) (value : String)
  /-- An option whose value is the next argument. -/
  | begun (o : CommandOption)
  /-- All that follows is no option. -/
  | rest
  | word
  /-- It says nothing that is understood, or asks for something else. -/
  | refused (r : Refusal)
deriving DecidableEq, Repr

/-- What an argument with the long name of an option says. -/
def readLong (l : Level) (argument : List Char) : Reading :=
  let (name, value) := match Chars.splitFirst? '=' argument with
    | some (name, value) => (String.ofList name, some (String.ofList value))
    | none => (String.ofList argument, none)
  match l.named? name, value with
  | some o, some value => if o.takesValue then .option o value else .refused .usage
  | some o, none => if o.takesValue then .begun o else .option o ""
  | none, some _ => .refused .usage
  | none, none =>
    if name == "help" then .refused .help
    else if name == "version" && l.hasVersion then .refused .version
    else .refused .usage

/-- What an argument with the letter of an option says. All options with letters
take values. -/
def readShort (l : Level) (letter : Char) (value : List Char) : Reading :=
  match l.lettered? letter with
  | some o =>
    match value with
    | [] => .begun o
    | '=' :: value => .option o (String.ofList value)
    -- the value may follow its letter directly
    | value => .option o (String.ofList value)
  | none =>
    if letter == 'h' then .refused .help
    else if letter == 'V' && l.hasVersion then .refused .version
    else .refused .usage

/-- What an argument says. -/
def read (l : Level) (argument : String) : Reading :=
  match argument.toList with
  | ['-', '-'] => .rest
  | '-' :: '-' :: name => l.readLong name
  | '-' :: letter :: value => l.readShort letter value
  | _ => .word

/-- **Scans the arguments of a level**: what has been given, and the arguments from
the next word of the command on. -/
def scan (l : Level) (g : Given) : List String → Except Refusal (Given × List String)
  | [] => .ok (g, [])
  | argument :: more =>
    match l.read argument with
    | .refused r => .error r
    | .rest => (more.foldlM l.giveWord g).map fun g => (g, [])
    | .option o value => do l.scan (← give g o value) more
    | .begun o =>
      match more with
      | value :: more =>
        -- a value that begins with a hyphen needs the equals sign
        if looksLikeOption value then .error .usage
        else do l.scan (← give g o value) more
      | [] => .error .usage
    | .word =>
      if l.commands.isEmpty then do l.scan (← l.giveWord g argument) more
      else if l.commands.contains argument then .ok (g, argument :: more)
      else .error .usage

/-- What has been given when no argument is left. -/
@[simp] theorem scan_nil (l : Level) (g : Given) : l.scan g [] = .ok (g, []) := rfl

/-- What is asked for behind the word for help: the words must name a command. -/
def scanHelp (below : String → Option Level) : Level → List String → Refusal
  | _, [] => .help
  | l, word :: more =>
    if !l.commands.contains word then .usage
    else match below word with
      | some l => scanHelp below l more
      | none => .usage

end Level

/-! ### Commands -/

/-- What is asked of a sync. -/
structure SyncRequest where
  /-- The path of the article. -/
  article : String
  platforms : List String
  /-- Whether all enabled platforms are meant. -/
  all : Bool
  /-- Whether every platform is left with its draft. -/
  draftOnly : Bool
  /-- The platforms of a batch. -/
  concurrency : Option Nat
  /-- Whether no further batch begins after a failure. -/
  stopOnError : Bool
  /-- Whether what has failed is tried once more. -/
  retryFailedOnce : Bool
  /-- Whether the task is printed as a document. -/
  json : Bool
  /-- The directory of the definitions. -/
  directory : Option String
deriving DecidableEq, Repr

/-- A command. -/
inductive Command where
  /-- Publishes an article. -/
  | sync (request : SyncRequest)
  /-- Lists the definitions of a directory. -/
  | list (directory : Option String) (json : Bool)
  /-- Validates the definitions of a directory. -/
  | validate (directory : Option String)
  /-- Asks a platform whether the session is logged in. -/
  | check (id : String) (directory : Option String) (json : Bool)
  /-- Writes a file of settings as an example. -/
  | writeExample (path : String) (force : Bool)
  /-- Tells whether all is ready. -/
  | diagnose (directory : Option String) (json : Bool)
deriving DecidableEq, Repr

/-- What arguments ask for. -/
structure Arguments where
  /-- The file of settings. -/
  config : Option String
  command : Command
deriving DecidableEq, Repr

namespace Arguments

/-- The option for the directory of the definitions. -/
def directoryOption : CommandOption := ⟨"definitions-dir", .path, none⟩

/-- The option for printing a document. -/
def jsonOption : CommandOption := ⟨"json", .flag, none⟩

/-- The level before the first word. -/
def rootLevel : Level := ⟨[], ["sync", "platforms", "config", "doctor", "help"], 0, true⟩

/-- The levels behind the words of commands. -/
def level? : String → Option Level
  | "sync" => some ⟨[⟨"article", .path, none⟩, ⟨"platform", .texts, some 'p'⟩, ⟨"all", .flag, none⟩,
      ⟨"draft-only", .flag, none⟩, ⟨"concurrency", .number, none⟩, ⟨"stop-on-error", .flag, none⟩,
      ⟨"retry-failed-once", .flag, none⟩, jsonOption, directoryOption], [], 0, false⟩
  | "platforms" => some ⟨[], ["list", "validate", "check", "help"], 0, false⟩
  | "list" => some ⟨[directoryOption, jsonOption], [], 0, false⟩
  | "validate" => some ⟨[directoryOption], [], 0, false⟩
  | "check" => some ⟨[directoryOption, jsonOption], [], 1, false⟩
  | "config" => some ⟨[], ["init", "help"], 0, false⟩
  | "init" => some ⟨[⟨"path", .path, none⟩, ⟨"force", .flag, none⟩], [], 0, false⟩
  | "doctor" => some ⟨[directoryOption, jsonOption], [], 0, false⟩
  | "help" => some ⟨[], [], 0, false⟩
  | _ => none

/-- The sync that has been asked for. Either all platforms are meant or some are
named. -/
def syncRequest? (g : Given) : Option SyncRequest := do
  let article ← g.value? "article"
  -- neither both nor none of them
  if g.has "all" == g.has "platform" then none
  else
    return {
      article
      platforms := g.values "platform"
      all := g.has "all"
      draftOnly := g.has "draft-only"
      concurrency := (g.value? "concurrency").bind countOf?
      stopOnError := g.has "stop-on-error"
      retryFailedOnce := g.has "retry-failed-once"
      json := g.has "json"
      directory := g.value? "definitions-dir" }

/-- Where the example is written if nothing is said. -/
def defaultExamplePath : String := "./config.toml"

/-- The command with a name, for what has been given to it. -/
def command? (name : String) (g : Given) : Option Command :=
  let directory := g.value? "definitions-dir"
  match name with
  | "sync" => (syncRequest? g).map .sync
  | "list" => some (.list directory (g.has "json"))
  | "validate" => some (.validate directory)
  | "check" => g.words.head?.map fun id => .check id directory (g.has "json")
  | "init" => some (.writeExample ((g.value? "path").getD defaultExamplePath) (g.has "force"))
  | "doctor" => some (.diagnose directory (g.has "json"))
  | _ => none

/-- Reads the words of a command, of which there are at most `fuel`; `config` is the
file of settings that the words before have named. -/
def readWords : Nat → Level → String → Option String → List String → Except Refusal Arguments
  | 0, _, _, _, _ => .error .usage
  | fuel + 1, l, name, config, arguments => do
    let (g, rest) ← l.scan .nothing arguments
    -- the word that names it last counts
    let config := (g.value? "config").or config
    match rest with
    | "help" :: more => throw (Level.scanHelp level? l more)
    | word :: more =>
      match level? word with
      | some next => readWords fuel next word config more
      | none => throw .usage
    | [] =>
      match command? name g with
      | some command => return ⟨config, command⟩
      | none => throw .usage

/-- **What arguments ask for.** No command has more than two words. -/
def read (arguments : List String) : Except Refusal Arguments :=
  readWords 3 rootLevel "" none arguments

end Arguments

end Syndication
