import Syndication.Markup.Markdown

/-!
# What the writer of a Markdown text writes

The writer keeps the parts of the HTML, the kind of the block that is open and, if it is a
paragraph, its lines; the parts are put together afterwards. Both steps are said here without a
state: the lines of a text are read as blocks, each block is written as its parts, one after the
other, and the parts of each block come together as its HTML.

Main statements:

* `run_addLine`: every block that is opened is closed, and nothing is written but its parts.
* `foldl_addPart_parts`: the parts of a block come together as its HTML, whatever its lines are.
* `toHtml_eq`: the HTML of a text is that of its blocks.
-/

namespace Syndication.Markup.Markdown

/-! ### Blocks -/

/-- A block of Markdown, with the text of its lines. -/
inductive Block where
  | heading (level : Nat) (text : List Char)
  /-- A paragraph, its lines trimmed. -/
  | paragraph (lines : List (List Char))
  | list (items : List (List Char))
  /-- Fenced code. -/
  | code (lines : List (List Char))
deriving DecidableEq, Repr

/-- A block that is still open, with its lines so far, the last one first. -/
inductive Unfinished where
  /-- No block is open. -/
  | nothing
  | paragraph (lines : List (List Char))
  | list (items : List (List Char))
deriving DecidableEq, Repr

/-- The block that an open one is when it ends. -/
def Unfinished.close : Unfinished → List Block
  | .nothing => []
  | .paragraph lines => [.paragraph lines.reverse]
  | .list items => [.list items.reverse]

mutual

/-- The blocks of the lines that follow an open block. -/
def blocksFrom (current : Unfinished) : List (List Char) → List Block
  | [] => current.close
  | line :: rest =>
    match classify line with
    | .fence => current.close ++ codeFrom [] rest
    | .blank => current.close ++ blocksFrom .nothing rest
    | .heading level text => current.close ++ .heading level text :: blocksFrom .nothing rest
    | .item text =>
      match current with
      | .list items => blocksFrom (.list (text :: items)) rest
      | _ => current.close ++ blocksFrom (.list [text]) rest
    | .text content =>
      match current with
      | .paragraph lines => blocksFrom (.paragraph (content :: lines)) rest
      | _ => current.close ++ blocksFrom (.paragraph [content]) rest

/-- The blocks of the lines that follow an opening fence and some lines of code,
the last one first. -/
def codeFrom (code : List (List Char)) : List (List Char) → List Block
  | [] => [.code code.reverse]
  | line :: rest =>
    if isFence line then .code code.reverse :: blocksFrom .nothing rest
    else codeFrom (line :: code) rest

end

/-- The blocks of a text. -/
def blocks (markdown : List Char) : List Block :=
  blocksFrom .nothing (Chars.lines markdown)

/-- A block that is open at the end of the text is closed there. -/
@[simp] theorem blocksFrom_nil (current : Unfinished) : blocksFrom current [] = current.close := rfl

/-! ### The parts that are written -/

/-- The parts of the HTML of a block. -/
def Block.parts : Block → List (List Char)
  | .heading level text => [headingElement level text]
  | .paragraph lines => [paragraphElement lines]
  | .list items => listOpening :: (items.map itemElement ++ [listClosing])
  | .code lines => codeOpening :: (lines.map Entity.encode ++ [codeClosing])

/-- The writer that has written some parts, with a block open behind them. -/
def Unfinished.writer (written : List (List Char)) : Unfinished → Writer
  | .nothing => { parts := written.toArray }
  | .paragraph lines =>
    { parts := written.toArray, block := .paragraph, paragraph := lines.reverse.toArray }
  | .list items =>
    { parts := (written ++ listOpening :: items.reverse.map itemElement).toArray, block := .list }

/-- The writer that has written some parts and is in fenced code behind them. -/
def codeWriter (written code : List (List Char)) : Writer :=
  { parts := (written ++ codeOpening :: code.reverse.map Entity.encode).toArray, block := .code }

variable (written code : List (List Char)) (current : Unfinished)

/-- Closing the open block completes its parts. -/
theorem close_writer :
    (current.writer written).close =
      Unfinished.nothing.writer (written ++ current.close.flatMap Block.parts) := by
  cases current <;>
    simp [Unfinished.writer, Unfinished.close, Writer.close, Writer.push, Block.parts]

theorem close_codeWriter :
    (codeWriter written code).close =
      Unfinished.nothing.writer (written ++ (Block.code code.reverse).parts) := by
  simp [codeWriter, Unfinished.writer, Writer.close, Writer.push, Block.parts]

theorem block_writer_ne : (current.writer written).block ≠ .code := by
  cases current <;> exact OpenBlock.noConfusion

/-- What a line does outside fenced code: a line that goes on with the open block leaves it open,
and any other line closes it. -/
theorem addKind_writer (kind : Line) :
    (current.writer written).addKind kind =
      let closed := written ++ current.close.flatMap Block.parts
      match kind with
      | .fence => codeWriter closed []
      | .blank => Unfinished.nothing.writer closed
      | .heading level text =>
        Unfinished.nothing.writer (closed ++ (Block.heading level text).parts)
      | .item text =>
        match current with
        | .list items => (Unfinished.list (text :: items)).writer written
        | _ => (Unfinished.list [text]).writer closed
      | .text content =>
        match current with
        | .paragraph lines => (Unfinished.paragraph (content :: lines)).writer written
        | _ => (Unfinished.paragraph [content]).writer closed := by
  cases kind with
  | fence =>
    rw [Writer.addKind, close_writer]
    simp [Unfinished.writer, codeWriter, Writer.push]
  | blank => rw [Writer.addKind, close_writer]
  | heading level text =>
    rw [Writer.addKind, close_writer]
    simp [Unfinished.writer, Block.parts, Writer.push]
  | item text =>
    rw [Writer.addKind, close_writer]
    cases current <;> simp [Unfinished.writer, Unfinished.close, Writer.push]
  | text content =>
    rw [Writer.addKind, close_writer]
    cases current <;> simp [Unfinished.writer, Unfinished.close]

theorem addLine_writer (line : List Char) :
    (current.writer written).addLine line = (current.writer written).addKind (classify line) :=
  if_neg (block_writer_ne written current)

/-- What a line does in fenced code. -/
theorem addLine_codeWriter (line : List Char) :
    (codeWriter written code).addLine line =
      if isFence line then Unfinished.nothing.writer (written ++ (Block.code code.reverse).parts)
      else codeWriter written (line :: code) := by
  have hblock : (codeWriter written code).block = .code := rfl
  rw [Writer.addLine, if_pos hblock, close_codeWriter]
  congr 1
  simp [codeWriter, Writer.push]

/-- **Every block that is opened is closed**, and nothing is written but its parts: from an open
block, or within fenced code, the lines that follow and the end of the text write the parts of the
blocks that are read. -/
theorem run_addLine (lines : List (List Char)) :
    (∀ written current, (lines.foldl Writer.addLine (current.writer written)).close =
      Unfinished.nothing.writer (written ++ (blocksFrom current lines).flatMap Block.parts)) ∧
    ∀ written code, (lines.foldl Writer.addLine (codeWriter written code)).close =
      Unfinished.nothing.writer (written ++ (codeFrom code lines).flatMap Block.parts) := by
  -- the writer is at every line one that has a block open or one that is in fenced code
  induction lines with
  | nil =>
    refine ⟨fun written current => ?_, fun written code => ?_⟩
    · exact close_writer written current
    · rw [codeFrom, List.flatMap_singleton]
      exact close_codeWriter written code
  | cons line rest ih =>
    obtain ⟨ihBlocks, ihCode⟩ := ih
    refine ⟨fun written current => ?_, fun written code => ?_⟩
    · rw [List.foldl_cons, addLine_writer, addKind_writer, blocksFrom]
      cases classify line with
      | fence => rw [List.flatMap_append, ← List.append_assoc]; exact ihCode _ _
      | blank => rw [List.flatMap_append, ← List.append_assoc]; exact ihBlocks _ _
      | heading level text =>
        rw [List.flatMap_append, List.flatMap_cons, ← List.append_assoc, ← List.append_assoc]
        exact ihBlocks _ _
      | item text =>
        cases current with
        | list items => exact ihBlocks _ _
        | nothing | paragraph lines =>
          dsimp only
          rw [List.flatMap_append, ← List.append_assoc]
          exact ihBlocks _ _
      | text content =>
        cases current with
        | paragraph lines => exact ihBlocks _ _
        | nothing | list items =>
          dsimp only
          rw [List.flatMap_append, ← List.append_assoc]
          exact ihBlocks _ _
    · rw [List.foldl_cons, addLine_codeWriter, codeFrom]
      split
      · rw [List.flatMap_cons, ← List.append_assoc]
        exact ihBlocks _ _
      · exact ihCode _ _

/-- The parts of the HTML of a text are those of its blocks. -/
theorem parts_eq (markdown : List Char) :
    (parts markdown).toList = (blocks markdown).flatMap Block.parts := by
  have hrun := (run_addLine (Chars.lines markdown)).1 [] .nothing
  rw [List.nil_append] at hrun
  exact congrArg (fun w => w.parts.toList) hrun

/-! ### The parts put together -/

/-- The HTML of a block, each part on a line of its own; code hugs its tags. -/
def Block.html : Block → List Char
  | .heading level text => headingElement level text ++ ['\n']
  | .paragraph lines => paragraphElement lines ++ ['\n']
  | .list items => (listOpening :: (items.map itemElement ++ [listClosing])).flatMap (· ++ ['\n'])
  | .code lines =>
    codeOpening ++ Chars.join ['\n'] (lines.map Entity.encode) ++ codeClosing ++ ['\n']

/-- **A part that is not taken for a tag around code.** -/
def HasOwnLine (part : List Char) : Prop :=
  part ≠ codeOpening ∧ part ≠ codeClosing

theorem hasOwnLine_of_notMem {part : List Char} (h : '<' ∉ part) : HasOwnLine part :=
  ⟨fun heq => h (heq ▸ by decide), fun heq => h (heq ▸ by decide)⟩

/-- What another tag begins is not taken for a tag around code. -/
theorem hasOwnLine_append {tag : List Char} (h : ¬ tag <+: codeOpening)
    (h' : ¬ tag <+: codeClosing) (rest : List Char) : HasOwnLine (tag ++ rest) :=
  ⟨fun heq => h ⟨rest, heq⟩, fun heq => h' ⟨rest, heq⟩⟩

theorem hasOwnLine_headingElement (level : Nat) (text : List Char) :
    HasOwnLine (headingElement level text) := by
  have hopening : s!"<h{level}>".toList = "<h".toList ++ (toString level).toList ++ ">".toList :=
    String.toList_append.trans (congrArg (· ++ ">".toList) String.toList_append)
  rw [headingElement, element, hopening]
  simp only [List.append_assoc]
  exact hasOwnLine_append (by decide) (by decide) _

theorem hasOwnLine_paragraphElement (lines : List (List Char)) :
    HasOwnLine (paragraphElement lines) := by
  rw [paragraphElement, element, List.append_assoc]
  exact hasOwnLine_append (by decide) (by decide) _

theorem hasOwnLine_itemElement (text : List Char) : HasOwnLine (itemElement text) := by
  rw [itemElement, element, List.append_assoc]
  exact hasOwnLine_append (by decide) (by decide) _

section Assembling

variable (html : Array Char)

/-- Parts that are no tags around code are put on lines of their own. -/
theorem foldl_addPart {parts : List (List Char)} (h : ∀ part ∈ parts, HasOwnLine part) :
    (parts.foldl addPart html).toList = html.toList ++ parts.flatMap (· ++ ['\n']) := by
  induction parts generalizing html with
  | nil => exact (List.append_nil _).symm
  | cons part rest ih =>
    obtain ⟨⟨hopening, hclosing⟩, hrest⟩ := List.forall_mem_cons.1 h
    rw [List.foldl_cons, ih _ hrest, addPart_of_ne hopening hclosing]
    simp

theorem addPart_codeOpening : (addPart html codeOpening).toList = html.toList ++ codeOpening := by
  simp [addPart]

theorem codeClosing_ne : codeClosing ≠ codeOpening := by decide

/-- The line feed before the tags behind code is taken back. -/
theorem addPart_codeClosing_of_newline {html : Array Char} {code : List Char}
    (h : html.toList = code ++ ['\n']) :
    (addPart html codeClosing).toList = code ++ codeClosing ++ ['\n'] := by
  have hlast : html.back? = some '\n' := by
    rw [← Array.getLast?_toList, h, List.getLast?_concat]
  rw [addPart, if_neg codeClosing_ne, if_pos rfl]
  simp [hlast, h]

/-- Where there is no line feed, nothing is taken back. -/
theorem addPart_codeClosing {html : Array Char} (h : html.toList.getLast? ≠ some '\n') :
    (addPart html codeClosing).toList = html.toList ++ codeClosing ++ ['\n'] := by
  rw [Array.getLast?_toList] at h
  rw [addPart, if_neg codeClosing_ne, if_pos rfl]
  simp [h]

/-- The parts of fenced code come together as its lines, with a line feed between each two. -/
theorem foldl_addPart_code (lines : List (List Char)) :
    ((Block.code lines).parts.foldl addPart html).toList =
      html.toList ++ (Block.code lines).html := by
  rw [Block.parts, List.foldl_cons, List.foldl_append, List.foldl_cons, List.foldl_nil, Block.html]
  rcases List.eq_nil_or_concat lines with rfl | ⟨front, last, rfl⟩
  · have hopening : codeOpening.getLast? = some '>' := by decide
    have hlast : (addPart html codeOpening).toList.getLast? ≠ some '\n' := by
      rw [addPart_codeOpening, List.getLast?_append, hopening, Option.some_or]
      decide
    have hjoin : Chars.join ['\n'] [] = [] := rfl
    rw [List.map_nil, List.foldl_nil, addPart_codeClosing hlast, addPart_codeOpening, hjoin]
    simp only [List.append_assoc, List.nil_append]
  · rw [List.concat_eq_append]
    have hlines : ∀ part ∈ (front ++ [last]).map Entity.encode, HasOwnLine part :=
      fun part hpart => by
        obtain ⟨line, -, rfl⟩ := List.mem_map.1 hpart
        exact hasOwnLine_of_notMem (Entity.lt_not_mem_encode line)
    have hjoin : ((front ++ [last]).map Entity.encode).flatMap (· ++ ['\n']) =
        Chars.join ['\n'] ((front ++ [last]).map Entity.encode) ++ ['\n'] := by
      rw [List.map_append, List.map_singleton, Chars.join_concat]
      simp
    -- the line feed behind the last line is the one that is taken back
    have hcode := foldl_addPart (addPart html codeOpening) hlines
    rw [hjoin, addPart_codeOpening, ← List.append_assoc] at hcode
    rw [addPart_codeClosing_of_newline hcode]
    simp only [List.append_assoc]

/-- **The parts of a block come together as its HTML**, whatever its lines are. -/
theorem foldl_addPart_parts (block : Block) :
    (block.parts.foldl addPart html).toList = html.toList ++ block.html := by
  cases block with
  | heading level text =>
    rw [Block.parts, Block.html, ← List.flatMap_singleton (· ++ ['\n'])]
    exact foldl_addPart html (List.forall_mem_singleton.2 (hasOwnLine_headingElement level text))
  | paragraph lines =>
    rw [Block.parts, Block.html, ← List.flatMap_singleton (· ++ ['\n'])]
    exact foldl_addPart html (List.forall_mem_singleton.2 (hasOwnLine_paragraphElement lines))
  | list items =>
    refine foldl_addPart html fun part hpart => ?_
    rcases List.mem_cons.1 hpart with rfl | hpart
    · exact ⟨by decide, by decide⟩
    · rcases List.mem_append.1 hpart with hpart | hpart
      · obtain ⟨item, -, rfl⟩ := List.mem_map.1 hpart
        exact hasOwnLine_itemElement item
      · rw [List.mem_singleton.1 hpart]
        exact ⟨by decide, by decide⟩
  | code lines => exact foldl_addPart_code html lines

theorem foldl_addPart_flatMap (blocks : List Block) :
    ((blocks.flatMap Block.parts).foldl addPart html).toList =
      html.toList ++ blocks.flatMap Block.html := by
  induction blocks generalizing html with
  | nil => exact (List.append_nil _).symm
  | cons block rest ih =>
    rw [List.flatMap_cons, List.flatMap_cons, List.foldl_append, ih, foldl_addPart_parts,
      List.append_assoc]

end Assembling

/-- **The HTML of a text is that of its blocks**, but for the line feed at its end. -/
theorem toHtml_eq (markdown : List Char) :
    toHtml markdown = Chars.trimEnd ((blocks markdown).flatMap Block.html) := by
  rw [toHtml, ← Array.foldl_toList, parts_eq, foldl_addPart_flatMap, Array.toList_empty,
    List.nil_append]

end Syndication.Markup.Markdown
