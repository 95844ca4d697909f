import Syndication.Proofs.Markup.Passes
import Syndication.Proofs.Text.Choosing

/-!
# Well-formed markup within a line

The markup of a line is made in passes, first code, then images, links and emphasis, and each pass
goes over the tags and the code that the earlier ones put in. Where the marks that a pass replaces
stand in running text, and what they enclose is well formed, the HTML of the line is that of tokens
that make up the line: elements are nested, no tag stands in an attribute, and code is only escaped.

Nothing keeps a pass from a mark inside of code or of a tag, so not all lines are such.

Main statements:

* `exists_tokens_of_code`: the first pass makes code of all the code of a line.
* `renders_inline`: the HTML of a line whose marks keep apart from tags is that of tokens.
* `not_renders_codeWithMarks`: asterisks in code become emphasis.
-/

namespace Syndication.Markup.Markdown

open Pattern Entity

variable {line cs rest text : List Char} {m : Match} {p : Place}

/-! ### Code -/

/-- Code stands between two backticks. -/
theorem exists_code_of_matchAt (h : codeSpan.matchAt p = some m) :
    ∃ code rest, p.rest = '\x60' :: (code ++ ['\x60']) ++ rest ∧ m.whole = ⟨p.rest, rest⟩ ∧
      m.group 1 = code ∧ code ≠ [] ∧ '\x60' ∉ code := by
  obtain ⟨code, rest, hrest, hwhole, hgroup, hne, hcode⟩ :=
    exists_between_of_matchAt (recognizes_char _) (recognizes_many1 _) (recognizes_char _) h
  exact ⟨code, rest, hrest, hwhole, hgroup, hne, fun hmem => nomatch hcode _ hmem⟩

theorem unanchored_codeSpan : codeSpan.Unanchored := by
  intro before before' cs
  cases cs <;> rfl

/-- Between two backticks stands code. -/
theorem exists_matchAt_code {code : List Char} (hne : code ≠ []) (hcode : '\x60' ∉ code)
    (rest : List Char) :
    ∃ m, codeSpan.matchAt ⟨none, '\x60' :: (code ++ ['\x60']) ++ rest⟩ = some m ∧
      m.whole = ⟨'\x60' :: (code ++ ['\x60']) ++ rest, rest⟩ ∧ m.group 1 = code := by
  have haccepts : ∀ c ∈ code, noneOf ['\x60'] c = true := fun c hc => by
    simpa [noneOf] using fun heq : c = '\x60' => hcode (heq ▸ hc)
  have hpasses : codeSpan.Passes ('\x60' :: (code ++ ['\x60'])) rest :=
    (passes_char '\x60').seq (((passes_many1 hne haccepts).group 1).seq (passes_char '\x60'))
  obtain ⟨before, groups, hcovers⟩ := hpasses none []
  obtain ⟨m, hm⟩ := Option.isSome_iff_exists.1 (isSome_matchAt_of_covers hcovers)
  obtain ⟨code', rest', hrest, hwhole, hgroup, -, hcode'⟩ := exists_code_of_matchAt hm
  have hsplit : code ++ '\x60' :: rest = code' ++ '\x60' :: rest' := by
    simpa using hrest
  obtain ⟨rfl, rfl⟩ := append_cons_inj hcode hcode' hsplit
  exact ⟨m, hm, hwhole, hgroup⟩

/-- **A line begins with code**: a text without backticks between two of them. -/
def BeginsWithCode (line : List Char) : Prop :=
  ∃ code rest, line = '\x60' :: (code ++ ['\x60']) ++ rest ∧ code ≠ [] ∧ '\x60' ∉ code

/-- A line begins with code when it does so as it is written. -/
theorem BeginsWithCode.of_encode (h : BeginsWithCode (encode line)) : BeginsWithCode line := by
  obtain ⟨code, rest, hline, hne, hcode⟩ := h
  have hbacktick : encode ['\x60'] = ['\x60'] := rfl
  have hhtml : html (line.map Token.char) = encode ['\x60'] ++ (code ++ '\x60' :: rest) := by
    rw [html_map_char, hline, hbacktick]
    simp
  -- both backticks stand for themselves, so the line can be cut at them before it is written
  have hlt : '<' ∉ code := fun hmem => lt_not_mem_encode line (by rw [hline]; simp [hmem])
  obtain ⟨back, htokens, hsound, hback⟩ := exists_append_of_encode (sound_map_char line) hhtml
  obtain ⟨written, back, rfl, rfl, hclose⟩ := exists_chars_of_html (by decide) hback hlt
  have hend : html back = encode ['\x60'] ++ rest := hclose
  obtain ⟨later, rfl, -, -⟩ :=
    exists_append_of_encode (List.forall_mem_append.1 hsound).2 hend
  have hsource := congrArg source htokens
  exact ⟨written, source later, by simpa using hsource, fun hnil => hne (by rw [hnil]; rfl),
    mt (mem_encode_iff (by decide)).2 hcode⟩

/-- Tokens in front of others, where the code is shown. -/
theorem ShowsCode.cons {t : Token} {tokens : List Token} (h : ShowsCode tokens)
    (ht : t.spelled = [t]) (hhead : t = .char '\x60' → ∀ text rest,
      source tokens = text ++ '\x60' :: rest → '\x60' ∉ text → text = []) :
    ShowsCode (t :: tokens) := by
  intro front back text rest hspelled hback htext
  rw [spelled_cons, ht, List.singleton_append] at hspelled
  cases front with
  | nil =>
    obtain ⟨rfl, rfl⟩ := List.cons.inj hspelled
    rw [source_spelled] at hback
    exact hhead rfl text rest hback htext
  | cons t' front => exact h front back text rest (List.cons.inj hspelled).2 hback htext

/-- **The first pass makes code of all the code of a line.** -/
theorem exists_tokens_of_code (line : List Char) :
    ∃ tokens, source tokens = line ∧
      html tokens = codeSpan.replace (between "<code>" "</code>") (encode line) ∧
      ShowsCode tokens ∧ Nested tokens ∧ Sound tokens := by
  -- a line goes on behind its first code, if it begins with some, and else behind one character
  induction hlength : line.length using Nat.strongRecOn generalizing line with | ind n ih
  by_cases hbegins : BeginsWithCode line
  · obtain ⟨code, rest, rfl, hne, hcode⟩ := hbegins
    obtain ⟨tokens, rfl, hhtml, hshows, hnested, hsound⟩ :=
      ih rest.length (by simp [← hlength]; omega) rest rfl
    have hcode' : '\x60' ∉ encode code := mt (mem_encode_iff (by decide)).1 hcode
    have hne' : encode code ≠ [] := fun hnil => hne (encode_injective hnil)
    obtain ⟨m, hm, hwhole, hgroup⟩ := exists_matchAt_code hne' hcode' (encode (source tokens))
    have hencode : encode ('\x60' :: (code ++ ['\x60']) ++ source tokens) =
        '\x60' :: (encode code ++ ['\x60']) ++ encode (source tokens) := by
      rw [encode_append, ← List.singleton_append, encode_append, encode_append]
      rfl
    refine ⟨.code code :: tokens, rfl, ?_, hshows.cons rfl (fun h => by cases h), hnested,
      List.forall_mem_cons.2 ⟨⟨hne, hcode⟩, hsound⟩⟩
    rw [hencode, unanchored_codeSpan.replace_append hm hwhole (List.cons_ne_nil _ _), ← hhtml,
      between, hgroup, html_cons, Token.html_code]
    simp only [List.append_assoc]
  · cases line with
    | nil =>
      exact ⟨[], rfl, rfl, fun _ _ _ _ h => by simp at h, rfl,
        fun _ h => absurd h List.not_mem_nil⟩
    | cons c cs =>
      obtain ⟨tokens, rfl, hhtml, hshows, hnested, hsound⟩ :=
        ih cs.length (by simp [← hlength]) cs rfl
      have hencode : encode (c :: source tokens) = encodeChar c ++ encode (source tokens) := rfl
      refine ⟨.char c :: tokens, rfl, ?_, hshows.cons rfl ?_, hnested,
        List.forall_mem_cons.2 ⟨trivial, hsound⟩⟩
      · rw [hencode, unanchored_codeSpan.replace_append_of_none, ← hhtml]
        · rfl
        intro front d back hc
        by_contra hsome
        obtain ⟨m, hm⟩ := Option.ne_none_iff_exists'.1 hsome
        obtain ⟨code, rest, hrest, -, -, hne, hcode⟩ := exists_code_of_matchAt hm
        -- a backtick is not part of a reference
        obtain ⟨rfl, -⟩ := List.cons.inj hrest
        obtain rfl := eq_of_mem_encodeChar (by decide) (hc ▸ by simp : '\x60' ∈ encodeChar c)
        obtain ⟨rfl, rfl⟩ : front = [] ∧ back = [] := by
          rw [encodeChar_of_notMem (by decide)] at hc
          cases front with
          | nil => exact ⟨rfl, (List.cons.inj hc).2.symm⟩
          | cons d front => simp at hc
        exact hbegins (.of_encode ⟨code, rest, hrest, hne, hcode⟩)
      · rintro hc text rest hsource htext
        cases hc
        by_contra hne
        exact hbegins ⟨text, rest, by rw [hsource]; simp, hne, htext⟩

/-! ### All passes -/

/-- **The marks of a line keep apart from its tags.** What is replaced stands in running text: not
in code and not in a tag that was put in before. No tag stands in the description of an image or in
an address, and what stands between the marks of a link or of emphasis is well formed. -/
structure KeepsApart (line : List Char) : Prop where
  images : Apart image (fun description address => '<' ∉ description ∧ '<' ∉ address) (withCode line)
  links : Apart link (fun text address => WellFormed text ∧ '<' ∉ address) (withImages line)
  strong : Apart strong (fun text _ => WellFormed text) (withLinks line)
  emphasis : Apart emphasis (fun text _ => WellFormed text) (withStrong line)

/-! ### A line with markup of every kind -/

/-- A line with code, an image, a link with strong emphasis in it, and plain emphasis. -/
def markedLine : List Char :=
  "\x60a<b\x60 ![c](d) [e **f**](g) *h*".toList

/-- What the line is made of. -/
def lineTokens : List Token :=
  [.code "a<b".toList, .char ' ', .image ['c'] ['d'], .char ' ', .opening (.link ['g']), .char 'e',
    .char ' ', .opening .strong, .char 'f', .closing .strong, .closing (.link ['g']), .char ' ',
    .opening .emphasis, .char 'h', .closing .emphasis]

theorem whole_take_lineTokens (n : Nat) : Whole (html (lineTokens.take n)) := by
  have hsound : Sound lineTokens := by decide
  exact ⟨lineTokens.take n, fun t ht => hsound t (List.mem_of_mem_take ht), rfl⟩

/-- Text without tags is well formed. -/
theorem wellFormed_encode (cs : List Char) : WellFormed (encode cs) :=
  ⟨cs.map Token.char, sound_map_char cs, html_map_char cs, unclosed_map_char [] cs⟩

theorem keepsApart_markedLine : KeepsApart markedLine where
  images := fun found hfound => by
    have hfindings : findings image (withCode markedLine) =
        [⟨html (lineTokens.take 2), ['c'], ['d']⟩] := by
      decide +kernel
    rw [hfindings] at hfound
    obtain rfl := List.mem_singleton.1 hfound
    exact ⟨whole_take_lineTokens 2, by decide, by decide⟩
  links := fun found hfound => by
    have hfindings : findings link (withImages markedLine) =
        [⟨html (lineTokens.take 4), "e **f**".toList, ['g']⟩] := by
      decide +kernel
    rw [hfindings] at hfound
    obtain rfl := List.mem_singleton.1 hfound
    exact ⟨whole_take_lineTokens 4, wellFormed_encode "e **f**".toList, by decide⟩
  strong := fun found hfound => by
    have hfindings : findings strong (withLinks markedLine) =
        [⟨html (lineTokens.take 7), ['f'], []⟩] := by
      decide +kernel
    rw [hfindings] at hfound
    obtain rfl := List.mem_singleton.1 hfound
    exact ⟨whole_take_lineTokens 7, wellFormed_encode ['f']⟩
  emphasis := fun found hfound => by
    have hfindings : findings emphasis (withStrong markedLine) =
        [⟨html (lineTokens.take 12), ['h'], []⟩] := by
      decide +kernel
    rw [hfindings] at hfound
    obtain rfl := List.mem_singleton.1 hfound
    exact ⟨whole_take_lineTokens 12, wellFormed_encode ['h']⟩

/-! ### The whole markup -/

/-- **The HTML of a line whose marks keep apart from its tags** is that of tokens that make up the
line: elements are nested, no tag stands in an attribute, and code is only escaped. -/
theorem renders_inline (h : KeepsApart line) : Renders line (inline line) := by
  obtain ⟨tokens, hsource, hhtml, hshows, hnested, hsound⟩ := exists_tokens_of_code line
  have hcode : html tokens = withCode line := hhtml
  obtain ⟨images, himages, hbecomes₁⟩ :=
    exists_becomes_of_replace marksUp_image hsound (hcode ▸ h.images)
  rw [hcode, ← withImages] at himages
  obtain ⟨links, hlinks, hbecomes₂⟩ :=
    exists_becomes_of_replace marksUp_link hbecomes₁.sound (himages ▸ h.links)
  rw [himages, ← withLinks] at hlinks
  obtain ⟨strongs, hstrongs, hbecomes₃⟩ :=
    exists_becomes_of_replace marksUp_strong hbecomes₂.sound (hlinks ▸ h.strong)
  rw [hlinks, ← withStrong] at hstrongs
  obtain ⟨result, hresult, hbecomes₄⟩ :=
    exists_becomes_of_replace marksUp_plain hbecomes₃.sound (hstrongs ▸ h.emphasis)
  rw [hstrongs, ← inline_eq] at hresult
  -- four times tokens took the place of others
  have hbecomes := ((hbecomes₁.trans hbecomes₂).trans hbecomes₃).trans hbecomes₄
  refine ⟨result, ?_, hresult, ?_, hbecomes.unclosed_eq _ _ hnested, hbecomes.sound⟩
  · rw [← source_spelled, hbecomes.spelled_eq, source_spelled, hsource]
  · intro front back text rest hspelled
    exact hshows front back text rest (hbecomes.spelled_eq ▸ hspelled)

/-- The HTML of the line with all of its markup. -/
theorem renders_markedLine : Renders markedLine
    ("<code>a&lt;b</code> <img src=\"d\" alt=\"c\"> ".toList ++
      "<a href=\"g\">e <strong>f</strong></a> <em>h</em>".toList) := by
  have hinline : inline markedLine = "<code>a&lt;b</code> <img src=\"d\" alt=\"c\"> ".toList ++
      "<a href=\"g\">e <strong>f</strong></a> <em>h</em>".toList := by
    decide +kernel
  rw [← hinline]
  exact renders_inline keepsApart_markedLine

/-- **A line in which the marks in code are marked up**: its asterisks become emphasis. -/
theorem not_renders_codeWithMarks : ¬ Renders "\x60**a**\x60".toList
    (inline "\x60**a**\x60".toList) := by
  have hinline : inline "\x60**a**\x60".toList =
      "<code>".toList ++ "<strong>a</strong></code>".toList := by
    decide +kernel
  rw [hinline]
  rintro ⟨tokens, -, hhtml, -, -, hsound⟩
  cases tokens with
  | nil => cases hhtml
  | cons t tokens =>
    obtain ⟨inner, hinner⟩ := t.lead_isPrefix
    have hlead : ['<', 'c'] ∈ leads := by decide
    have hbegins : t.html ++ html tokens = ['<', 'c'] ++
        ("ode>".toList ++ "<strong>a</strong></code>".toList) := hhtml
    rcases t.char_or_lead_mem with ⟨c, rfl⟩ | hmem
    · exact encodeChar_append_ne hlead hbegins
    rw [← hinner, List.append_assoc] at hbegins
    match t, hsound, eq_of_lead_append hmem hlead hbegins with
    | .code text, hsound, _ =>
      -- the text of the code would begin with an angle bracket
      obtain ⟨hne, -⟩ := hsound (.code text) List.mem_cons_self
      rw [html_cons, Token.html_code, List.append_assoc] at hhtml
      have htext := List.append_cancel_left hhtml
      obtain ⟨d, ds, hwritten⟩ := List.exists_cons_of_ne_nil
        (show encode text ≠ [] from fun hnil => hne (encode_injective hnil))
      rw [hwritten] at htext
      obtain rfl : d = '<' := (List.cons.inj htext).1
      exact lt_not_mem_encode text (by rw [hwritten]; exact List.mem_cons_self)

end Syndication.Markup.Markdown
