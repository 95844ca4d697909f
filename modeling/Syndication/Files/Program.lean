/-!
# Programs on files

A program on files is what a command does with files, as a tree: it looks at what
stands at a path, writes a file or makes a directory, and ends with a value. What
it finds chooses the branch. A program does nothing by itself; it runs on a tree of
files, or on the files of the machine.

Main statements:

* `bind_pure`, `pure_bind`, `bind_assoc`: programs on files are a monad.
* `looksOnly_bind`: programs that write nothing write nothing one after another.
-/

namespace Syndication

/-- What stands at a path. -/
inductive FileEntry where
  /-- Nothing. -/
  | absent
  /-- A file. -/
  | file (content : List UInt8)
  /-- A file that cannot be read. -/
  | unreadable
  /-- A directory. -/
  | directory (names : List String)
deriving DecidableEq, Repr

/-- Whether anything stands there. -/
def FileEntry.isPresent : FileEntry → Bool
  | .absent => false
  | _ => true

/-- What a command does with files. -/
inductive FileProgram (α : Type) : Type where
  /-- Ends with a value. -/
  | done (value : α)
  /-- Looks at what stands at a path. -/
  | look (path : String) (next : FileEntry → FileProgram α)
  /-- Writes a file and learns whether that was possible. -/
  | write (path content : String) (next : Bool → FileProgram α)
  /-- Makes a directory, with those in which it lies, and learns whether that was
  possible. -/
  | makeDirectory (path : String) (next : Bool → FileProgram α)

namespace FileProgram

variable {α β γ : Type}

/-- One program after another. -/
def bind : FileProgram α → (α → FileProgram β) → FileProgram β
  | .done a, f => f a
  | .look path next, f => .look path fun entry => (next entry).bind f
  | .write path content next, f => .write path content fun possible => (next possible).bind f
  | .makeDirectory path next, f => .makeDirectory path fun possible => (next possible).bind f

instance : Monad FileProgram where
  pure := .done
  bind := bind

@[simp] theorem pure_bind (a : α) (f : α → FileProgram β) : bind (.done a) f = f a := rfl

@[simp] theorem bind_pure (p : FileProgram α) : bind p .done = p := by
  induction p with
  | done => rfl
  | look _ _ ih | write _ _ _ ih | makeDirectory _ _ ih => simp [bind, ih]

@[simp] theorem bind_assoc (p : FileProgram α) (f : α → FileProgram β) (g : β → FileProgram γ) :
    bind (bind p f) g = bind p fun a => bind (f a) g := by
  induction p with
  | done => rfl
  | look _ _ ih | write _ _ _ ih | makeDirectory _ _ ih => simp [bind, ih]

instance : LawfulMonad FileProgram :=
  .mk' FileProgram bind_pure (fun _ _ => rfl) bind_assoc

/-! ### Programs that only look -/

/-- **A program that only looks**, whatever it finds: it writes nothing. -/
inductive LooksOnly : FileProgram α → Prop
  | done (value : α) : LooksOnly (.done value)
  | look (path : String) {next : FileEntry → FileProgram α}
      (h : ∀ entry, LooksOnly (next entry)) : LooksOnly (.look path next)

theorem looksOnly_bind {p : FileProgram α} {f : α → FileProgram β} (hp : p.LooksOnly)
    (hf : ∀ a, (f a).LooksOnly) : (p >>= f).LooksOnly := by
  induction hp with
  | done a => exact hf a
  | look path _ ih => exact .look path ih

/-! ### Elementary programs -/

/-- What stands at a path. -/
def entry (path : String) : FileProgram FileEntry :=
  .look path .done

/-- Writes a file. -/
def save (path content : String) : FileProgram Bool :=
  .write path content .done

/-- Makes a directory and those in which it lies. -/
def makeDirectories (path : String) : FileProgram Bool :=
  .makeDirectory path .done

theorem looksOnly_entry (path : String) : (entry path).LooksOnly :=
  .look path .done

end FileProgram

end Syndication
