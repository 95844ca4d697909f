import Syndication.Document.Plain
import Syndication.Timestamp
import Syndication.Toml.Table

/-!
# Scalars of a TOML text

Texts in double or single quotes, on one line or on several, integers in four
bases, numbers with a fraction or an exponent, dates and times of day.

Main statements:

* `text?`, `number?`: reading a scalar that begins here, and what follows.
* `scanDigits_append`: the digits that were read, followed by a blank, are read
  again.
-/

namespace Syndication.Toml

/-- A blank within a line. -/
def isBlank (c : Char) : Bool :=
  c == ' ' || c == '\t'

/-- The rest behind the blanks of the line. -/
def skipBlanks (cs : List Char) : List Char :=
  cs.dropWhile isBlank

/-- Whether a character may stand in a text or a comment as it is. -/
def isTextChar (c : Char) : Bool :=
  c == '\t' || (0x20 ≤ c.toNat && c.toNat != 0x7F)

/-- The rest behind the end of a line. -/
def newline? : List Char → Option (List Char)
  | '\n' :: rest => some rest
  | '\r' :: '\n' :: rest => some rest
  | _ => none

/-! ### Texts -/

/-- The character of a number in hexadecimal digits. -/
def codePoint? (digits : List Char) : Option Char :=
  (Plain.natInBase? 16 digits).bind fun n =>
    if n < 0xD800 ∨ (0xE000 ≤ n ∧ n < 0x110000) then some (Char.ofNat n) else none

/-- The character that a short escape stands for. -/
def escaped? : Char → Option Char
  | 'b' => some '\x08'
  | 't' => some '\t'
  | 'n' => some '\n'
  | 'f' => some '\x0C'
  | 'r' => some '\r'
  | '"' => some '"'
  | '\\' => some '\\'
  | _ => none

/-- A character in front of what is read. -/
def after (c : Char) : Option (List Char × List Char) → Option (List Char × List Char) :=
  Option.map fun (text, rest) => (c :: text, rest)

/-- The rest of a text in double quotes, up to the closing one. -/
def scanQuoted : List Char → Option (List Char × List Char)
  | [] => none
  | '"' :: rest => some ([], rest)
  | '\\' :: 'u' :: a :: b :: c :: d :: rest =>
    (codePoint? [a, b, c, d]).bind fun x => after x (scanQuoted rest)
  | '\\' :: 'U' :: a :: b :: c :: d :: e :: f :: g :: h :: rest =>
    (codePoint? [a, b, c, d, e, f, g, h]).bind fun x => after x (scanQuoted rest)
  | '\\' :: e :: rest => (escaped? e).bind fun x => after x (scanQuoted rest)
  | c :: rest => if isTextChar c && c != '\\' then after c (scanQuoted rest) else none

/-- The rest of a text in single quotes, up to the closing one. -/
def scanLiteral : List Char → Option (List Char × List Char)
  | [] => none
  | '\'' :: rest => some ([], rest)
  | c :: rest => if isTextChar c then after c (scanLiteral rest) else none

/-- The quotes that close a text of several lines: three, and up to two in front of
them that belong to the text. -/
def closing? (quote : Char) (cs : List Char) : Option (List Char × List Char) :=
  let run := (cs.takeWhile (· == quote)).length
  -- the last three close the text
  let inside := min (run - 3) 2
  if run < 3 then none else some (List.replicate inside quote, cs.drop (inside + 3))

/-- The rest of a text of several lines, up to its closing quotes. A backslash at
the end of a line leaves out all blanks and ends of lines that follow; `skipping`
says that they are being left out. -/
def scanLines (quote : Char) (escapes skipping : Bool) :
    List Char → Option (List Char × List Char)
  | [] => none
  | c :: rest =>
    if skipping && (isBlank c || c == '\n') then scanLines quote escapes true rest
    else match closing? quote (c :: rest) with
    | some r => some r
    | none =>
      if c == '\r' then
        match rest with
        | '\n' :: rest =>
          if skipping then scanLines quote escapes true rest
          else after '\n' (scanLines quote escapes false rest)
        | _ => none
      else if c == '\n' then after '\n' (scanLines quote escapes false rest)
      else if escapes && c == '\\' then
        match rest with
        | 'u' :: a :: b :: c :: d :: rest =>
          (codePoint? [a, b, c, d]).bind fun x => after x (scanLines quote escapes false rest)
        | 'U' :: a :: b :: c :: d :: e :: f :: g :: h :: rest =>
          (codePoint? [a, b, c, d, e, f, g, h]).bind fun x =>
            after x (scanLines quote escapes false rest)
        | e :: rest =>
          match escaped? e with
          | some x => after x (scanLines quote escapes false rest)
          | none =>
            if (newline? (skipBlanks (e :: rest))).isSome then scanLines quote escapes true rest
            else none
        | [] => none
      else if isTextChar c then after c (scanLines quote escapes false rest)
      else none

/-- The rest behind an end of a line, if there is one. -/
def skipNewline (cs : List Char) : List Char :=
  (newline? cs).getD cs

/-- The text in quotes that begins here, and what follows. -/
def text? (cs : List Char) : Option (String × List Char) :=
  let found := match cs with
    | '"' :: '"' :: '"' :: rest => scanLines '"' true false (skipNewline rest)
    | '"' :: rest => scanQuoted rest
    | '\'' :: '\'' :: '\'' :: rest => scanLines '\'' false false (skipNewline rest)
    | '\'' :: rest => scanLiteral rest
    | _ => none
  found.map fun (text, rest) => (String.ofList text, rest)

/-! ### Numbers -/

/-- The digits that begin here, with single underscores between them left out, and
what follows. -/
def scanDigits (isDigit : Char → Bool) : List Char → Option (List Char × List Char)
  | [] => none
  | c :: rest =>
    if !isDigit c then none
    else match rest with
      | '_' :: more => after c (scanDigits isDigit more)
      | d :: more =>
        if isDigit d then after c (scanDigits isDigit (d :: more)) else some ([c], d :: more)
      | [] => some ([c], [])

/-- Digits followed by what is neither a digit nor an underscore are read as they
are. -/
theorem scanDigits_append {isDigit : Char → Bool} {digits rest : List Char}
    (hne : digits ≠ []) (hall : ∀ d ∈ digits, isDigit d = true ∧ d ≠ '_')
    (hrest : ∀ c ∈ rest.head?, isDigit c = false ∧ c ≠ '_') :
    scanDigits isDigit (digits ++ rest) = some (digits, rest) := by
  induction digits with
  | nil => exact absurd rfl hne
  | cons d ds ih =>
    have hd := hall d (by simp)
    cases ds with
    | nil =>
      cases rest with
      | nil => simp [scanDigits, hd.1]
      | cons c cs =>
        have hc := hrest c (by simp)
        simp only [List.cons_append, List.nil_append]
        unfold scanDigits
        simp only [hd.1, Bool.not_true, Bool.false_eq_true, if_false]
        split
        · rename_i heq
          simp only [List.cons.injEq] at heq
          exact absurd heq.1 hc.2
        · rename_i heq
          simp only [List.cons.injEq] at heq
          obtain ⟨rfl, rfl⟩ := heq
          simp [hc.1]
        · rename_i heq
          simp at heq
    | cons e es =>
      have he := hall e (by simp)
      have hr := ih (by simp) fun x hx => hall x (List.mem_cons_of_mem _ hx)
      simp only [List.cons_append] at hr ⊢
      unfold scanDigits
      simp only [hd.1, Bool.not_true, Bool.false_eq_true, if_false]
      split
      · rename_i heq
        simp only [List.cons.injEq] at heq
        exact absurd heq.1 he.2
      · rename_i heq
        simp only [List.cons.injEq] at heq
        obtain ⟨rfl, rfl⟩ := heq
        simp [he.1, hr, after]
      · rename_i heq
        simp at heq

/-- A sign in front of a number, and what follows. -/
def scanSign : List Char → List Char × List Char
  | '+' :: rest => (['+'], rest)
  | '-' :: rest => (['-'], rest)
  | cs => ([], cs)

/-- The decimal digits of an integer that begin here; zero stands alone. -/
def scanWhole : List Char → Option (List Char × List Char)
  | '0' :: rest => some (['0'], rest)
  | cs => scanDigits Char.isDigit cs

/-- The value of an integer, if it has no more than 64 bits. -/
def integerValue? (i : Int) : Option Value :=
  if Decimal.leastInt64 ≤ i ∧ i ≤ Decimal.greatestInt64 then some (.integer i) else none

/-- The digits of an integer in a base, behind the mark of the base. -/
def inBase? (base : Nat) (cs : List Char) : Option (Value × List Char) := do
  let isDigit (c : Char) : Bool := (Plain.hexValue? c).any (· < base)
  let (digits, rest) ← scanDigits isDigit cs
  let n ← Plain.natInBase? base digits
  return (← integerValue? n, rest)

/-- The integer that begins here, and what follows. -/
def integer? (cs : List Char) : Option (Value × List Char) :=
  match cs with
  | '0' :: 'x' :: rest => inBase? 16 rest
  | '0' :: 'o' :: rest => inBase? 8 rest
  | '0' :: 'b' :: rest => inBase? 2 rest
  | cs => do
    let (sign, cs) := scanSign cs
    let (digits, rest) ← scanWhole cs
    return (← (Decimal.int? (sign ++ digits)).bind integerValue?, rest)

/-- The exponent that begins here with its letter, and what follows. -/
def exponent? : List Char → Option (List Char × List Char)
  | c :: cs =>
    if c = 'e' ∨ c = 'E' then
      let (sign, cs) := scanSign cs
      (scanDigits Char.isDigit cs).map fun (digits, rest) => ('e' :: sign ++ digits, rest)
    else none
  | [] => none

/-- The fraction that begins here with its point, and what follows. -/
def fraction? : List Char → Option (List Char × List Char)
  | '.' :: cs => after '.' (scanDigits Char.isDigit cs)
  | _ => none

/-- The fraction or exponent, or both, that begin here, and what follows. -/
def scanDecimals (cs : List Char) : Option (List Char × List Char) :=
  match fraction? cs with
  | some (fraction, rest) =>
    match exponent? rest with
    | some (exponent, rest) => some (fraction ++ exponent, rest)
    | none => some (fraction, rest)
  | none => exponent? cs

/-- The number with a fraction or an exponent that begins here, and what follows.
One that is too large is refused. -/
def decimal? (cs : List Char) : Option (Value × List Char) := do
  let (sign, cs) := scanSign cs
  let (whole, cs) ← scanWhole cs
  let (decimals, rest) ← scanDecimals cs
  let x ← Extended.read? (sign ++ whole ++ decimals)
  if x = .infinite false then none else return (.float x, rest)

/-- The infinity, or the mark for no number, that begins here, and what follows. -/
def special? (cs : List Char) : Option (Value × List Char) :=
  let (sign, cs) := scanSign cs
  match cs with
  | 'i' :: 'n' :: 'f' :: rest => some (.float (.infinite (sign == ['-'])), rest)
  | 'n' :: 'a' :: 'n' :: rest => some (.float .notANumber, rest)
  | _ => none

/-! ### Dates and times of day -/

/-- The date that begins here, and what follows. -/
def date? (cs : List Char) : Option (List Char × List Char) := do
  let (year, cs) ← Timestamp.digits? 4 cs
  let (month, cs) ← Timestamp.digits? 2 (← Timestamp.skip? '-' cs)
  let (day, cs) ← Timestamp.digits? 2 (← Timestamp.skip? '-' cs)
  if 1 ≤ day ∧ day ≤ daysInMonth year month then
    return (Timestamp.padded 4 year ++ '-' :: Timestamp.padded 2 month ++
      '-' :: Timestamp.padded 2 day, cs)
  else none

/-- The time of day that begins here, and what follows. -/
def time? (cs : List Char) : Option (List Char × List Char) := do
  let (hour, cs) ← Timestamp.digits? 2 cs
  let (minute, cs) ← Timestamp.digits? 2 (← Timestamp.skip? ':' cs)
  let (second, cs) ← Timestamp.digits? 2 (← Timestamp.skip? ':' cs)
  let (nanosecond, cs) ← Timestamp.fraction? cs
  let fraction := if nanosecond = 0 then [] else '.' :: Duration.fractionDigits nanosecond 9
  if hour ≤ 23 ∧ minute ≤ 59 ∧ second ≤ 60 then
    return (Timestamp.padded 2 hour ++ ':' :: Timestamp.padded 2 minute ++
      ':' :: Timestamp.padded 2 second ++ fraction, cs)
  else none

/-- The offset from universal time that begins here, and what follows. -/
def offset? : List Char → Option (List Char × List Char)
  | [] => none
  | sign :: cs =>
    if sign = 'Z' ∨ sign = 'z' then some (['Z'], cs)
    else if sign = '+' ∨ sign = '-' then do
      let (hours, cs) ← Timestamp.digits? 2 cs
      let (minutes, cs) ← Timestamp.digits? 2 (← Timestamp.skip? ':' cs)
      if hours ≤ 23 ∧ minutes ≤ 59 then
        -- an offset of nothing has no sign of its own
        let sign := if hours = 0 ∧ minutes = 0 then '+' else sign
        return (sign :: Timestamp.padded 2 hours ++ ':' :: Timestamp.padded 2 minutes, cs)
      else none
    else none

/-- The time of day with its offset that begins here behind what parts it from the
date, and what follows. -/
def timeAfterDate? : List Char → Option (List Char × List Char)
  | [] => none
  | c :: cs =>
    if c = 'T' ∨ c = 't' ∨ c = ' ' then
      (time? cs).map fun (time, rest) =>
        match offset? rest with
        | some (offset, rest) => ('T' :: time ++ offset, rest)
        | none => ('T' :: time, rest)
    else none

/-- The date, time of day or both that begin here, and what follows. -/
def moment? (cs : List Char) : Option (Value × List Char) :=
  let found := match date? cs with
    | some (date, rest) =>
      match timeAfterDate? rest with
      | some (time, rest) => some (date ++ time, rest)
      | none => some (date, rest)
    | none => time? cs
  found.map fun (text, rest) => (.moment (String.ofList text), rest)

/-- The scalar without quotes that begins here, and what follows. -/
def number? (cs : List Char) : Option (Value × List Char) :=
  -- the longer forms first: an integer may be the beginning of one
  moment? cs <|> decimal? cs <|> special? cs <|> integer? cs

end Syndication.Toml
