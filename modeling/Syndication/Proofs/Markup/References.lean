import Syndication.Markup.Entity
import Syndication.Text.Search

/-!
# References, one replacement after another

Text is written inside HTML by three replacements, one after another, and read back by six. Every
replacement goes over what the earlier ones have left, so it might take for a reference what they
have put together. It does not: the ampersand is the first character to be written and the last to
be read, and apart from it no replacement puts in a character that stands in a reference.

* `encode_eq_replaceEach`, `decode_eq_replaceEach`: the replacements do what writing character by
  character and reading in one pass do.
* `read_write`: what is written is read back.
-/

namespace Syndication.Chars

variable {old new name cs rest : List Char} {c x : Char}

theorem startsWith_iff : startsWith old cs = true ↔ old <+: cs := by
  rw [startsWith, Option.isSome_iff_exists]
  constructor
  · rintro ⟨rest, h⟩
    exact ⟨rest, (stripPrefix?_eq_some_iff.1 h).symm⟩
  · rintro ⟨rest, h⟩
    exact ⟨rest, stripPrefix?_eq_some_iff.2 h.symm⟩

/-- Where no occurrence begins, a character stays. -/
theorem replaceAll_cons (h : ¬ old <+: c :: cs) :
    replaceAll old new (c :: cs) = c :: replaceAll old new cs := by
  rw [← startsWith_iff] at h
  rw [replaceAll, replaceFrom, if_neg h, replaceAll]

theorem replaceFrom_length (old new cs rest : List Char) :
    replaceFrom old new cs.length (cs ++ rest) = replaceAll old new rest := by
  induction cs with
  | nil => rfl
  | cons c cs ih => exact ih

/-- An occurrence at the beginning is replaced. -/
theorem replaceAll_cons_append (c : Char) (cs new rest : List Char) :
    replaceAll (c :: cs) new (c :: (cs ++ rest)) = new ++ replaceAll (c :: cs) new rest := by
  have hstarts : startsWith (c :: cs) (c :: (cs ++ rest)) = true :=
    startsWith_iff.2 (List.prefix_append (c :: cs) rest)
  rw [replaceAll, replaceFrom, if_pos hstarts]
  exact congrArg (new ++ ·) (replaceFrom_length (c :: cs) new cs rest)

/-- Text without the first character of what is replaced stays. -/
theorem replaceAll_append_of_notMem (h : c ∉ cs) (rest : List Char) :
    replaceAll (c :: old) new (cs ++ rest) = cs ++ replaceAll (c :: old) new rest := by
  induction cs with
  | nil => rfl
  | cons d cs ih =>
    have hne : ¬ c :: old <+: d :: (cs ++ rest) := fun hprefix =>
      h (by rw [(List.cons_prefix_cons.1 hprefix).1]; exact List.mem_cons_self)
    rw [List.cons_append, replaceAll_cons hne, ih fun hmem => h (List.mem_cons_of_mem d hmem)]
    rfl

/-- What a replaced text begins with it began with before, unless the new character is in it. -/
theorem isPrefix_of_replaceAll (hx : x ∉ name) (h : name <+: replaceAll old [x] cs) :
    name <+: cs := by
  induction name generalizing cs with
  | nil => exact List.nil_prefix
  | cons c name ih =>
    obtain ⟨hc, hname⟩ := not_or.1 (mt List.mem_cons.2 hx)
    cases cs with
    | nil => exact h
    | cons d cs =>
      by_cases hstarts : startsWith old (d :: cs) = true
      · rw [replaceAll, replaceFrom, if_pos hstarts] at h
        exact absurd (List.cons_prefix_cons.1 h).1.symm hc
      · rw [replaceAll_cons (mt startsWith_iff.2 hstarts)] at h
        obtain ⟨rfl, hrest⟩ := List.cons_prefix_cons.1 h
        exact List.cons_prefix_cons.2 ⟨rfl, ih hname hrest⟩

theorem replaceAll_singleton (c : Char) (new cs : List Char) :
    replaceAll [c] new cs = cs.flatMap fun d => if d = c then new else [d] := by
  induction cs with
  | nil => rfl
  | cons d cs ih =>
    rw [List.flatMap_cons, ← ih]
    by_cases h : d = c
    · subst h
      rw [if_pos rfl]
      exact replaceAll_cons_append d [] new cs
    · rw [if_neg h, replaceAll_cons fun hprefix => h (List.cons_prefix_cons.1 hprefix).1.symm]
      rfl

end Syndication.Chars

namespace Syndication.Markup.Entity

open Chars (replaceAll)

/-- **Replacements, one after another**: each goes over what the earlier ones have left. -/
def replaceEach (table : List (String × String)) (s : String) : String :=
  table.foldl (fun s r => Text.replaceAll r.1 r.2 s) s

/-- What is replaced to write text, the ampersand first. -/
def writing : List (String × String) :=
  [("&", "&amp;"), ("<", "&lt;"), (">", "&gt;")]

/-- What is replaced to read text, the ampersand last. -/
def reading : List (String × String) :=
  [("&lt;", "<"), ("&gt;", ">"), ("&quot;", "\""), ("&#39;", "'"), ("&nbsp;", " "), ("&amp;", "&")]

theorem encode_eq_replaceEach (s : String) : encode s.toList = (replaceEach writing s).toList := by
  have hchar (c : Char) : encodeChar c =
      ((if c = '&' then "&amp;".toList else [c]).flatMap fun c =>
        if c = '<' then "&lt;".toList else [c]).flatMap fun c =>
          if c = '>' then "&gt;".toList else [c] := by
    unfold encodeChar
    by_cases hamp : c = '&'
    · subst hamp
      rfl
    by_cases hlt : c = '<'
    · subst hlt
      rfl
    · simp [hamp, hlt]
  simp only [replaceEach, writing, List.foldl_cons, List.foldl_nil, Text.replaceAll,
    String.toList_ofList, show "&".toList = ['&'] from rfl, show "<".toList = ['<'] from rfl,
    show ">".toList = ['>'] from rfl, Chars.replaceAll_singleton, List.flatMap_assoc]
  rw [encode]
  congr 1
  funext c
  rw [hchar, List.flatMap_assoc]

/-! ### Reading -/

/-- References replaced one after another, each given by its name behind the ampersand. -/
def readEach (table : List (List Char × Char)) (cs : List Char) : List Char :=
  table.foldl (fun cs r => replaceAll ('&' :: r.1) [r.2] cs) cs

/-- **No replacement gets in the way of another**: no name begins with another one, and what an
earlier replacement puts in does not stand in a later reference. -/
structure Apart (table : List (List Char × Char)) : Prop where
  mark : ∀ r ∈ table, '&' ∉ r.1
  names : table.Pairwise fun r r' => ¬ r.1 <+: r'.1 ∧ ¬ r'.1 <+: r.1
  fresh : table.Pairwise fun r r' => r.2 ≠ '&' ∧ r.2 ∉ r'.1

variable {table : List (List Char × Char)} {r : List Char × Char} {name cs : List Char} {c x : Char}

theorem Apart.tail (h : Apart (r :: table)) : Apart table where
  mark := fun r' hr' => h.mark r' (List.mem_cons_of_mem r hr')
  names := (List.pairwise_cons.1 h.names).2
  fresh := (List.pairwise_cons.1 h.fresh).2

/-- A character that begins no reference stays. -/
theorem readEach_cons (hc : c ≠ '&') (table : List (List Char × Char)) (cs : List Char) :
    readEach table (c :: cs) = c :: readEach table cs := by
  induction table generalizing cs with
  | nil => rfl
  | cons r table ih =>
    have hstays : replaceAll ('&' :: r.1) [r.2] (c :: cs) =
        c :: replaceAll ('&' :: r.1) [r.2] cs :=
      Chars.replaceAll_cons fun hprefix => hc (List.cons_prefix_cons.1 hprefix).1.symm
    show readEach table (replaceAll ('&' :: r.1) [r.2] (c :: cs)) = _
    rw [hstays, ih]
    rfl

/-- An ampersand that begins no reference stays: no replacement behind it makes it begin one. -/
theorem readEach_mark (h : Apart table) (hnone : ∀ r ∈ table, ¬ r.1 <+: cs) :
    readEach table ('&' :: cs) = '&' :: readEach table cs := by
  induction table generalizing cs with
  | nil => rfl
  | cons r table ih =>
    obtain ⟨hfirst, hothers⟩ := List.forall_mem_cons.1 hnone
    have hstays : replaceAll ('&' :: r.1) [r.2] ('&' :: cs) =
        '&' :: replaceAll ('&' :: r.1) [r.2] cs :=
      Chars.replaceAll_cons fun hprefix => hfirst (List.cons_prefix_cons.1 hprefix).2
    -- what is put in stands in no later name, so none begins here that did not begin before
    have hnone' : ∀ r' ∈ table, ¬ r'.1 <+: replaceAll ('&' :: r.1) [r.2] cs := by
      intro r' hr' hprefix
      have hfresh := ((List.pairwise_cons.1 h.fresh).1 r' hr').2
      exact hothers r' hr' (Chars.isPrefix_of_replaceAll hfresh hprefix)
    show readEach table (replaceAll ('&' :: r.1) [r.2] ('&' :: cs)) = _
    rw [hstays, ih h.tail hnone']
    rfl

/-- A reference is read, whatever follows it. -/
theorem readEach_reference (h : Apart table) (hmem : (name, x) ∈ table) (cs : List Char) :
    readEach table ('&' :: (name ++ cs)) = x :: readEach table cs := by
  induction table generalizing cs with
  | nil => cases hmem
  | cons r table ih =>
    show readEach table (replaceAll ('&' :: r.1) [r.2] ('&' :: (name ++ cs))) = _
    rcases List.mem_cons.1 hmem with rfl | hmem
    · rw [Chars.replaceAll_cons_append]
      show readEach table (x :: replaceAll ('&' :: name) [x] cs) = _
      -- what it stands for is left alone by the later replacements, if there are any
      cases table with
      | nil => rfl
      | cons r' table =>
        have hx : x ≠ '&' := ((List.pairwise_cons.1 h.fresh).1 r' List.mem_cons_self).1
        rw [readEach_cons hx]
        rfl
    · obtain ⟨hnot, hnot'⟩ := (List.pairwise_cons.1 h.names).1 _ hmem
      have hlater : ¬ '&' :: r.1 <+: '&' :: (name ++ cs) := by
        intro hprefix
        have hname := (List.cons_prefix_cons.1 hprefix).2
        exact (List.prefix_or_prefix_of_prefix hname (List.prefix_append name cs)).elim hnot hnot'
      have hmark : '&' ∉ name := h.tail.mark _ hmem
      rw [Chars.replaceAll_cons hlater, Chars.replaceAll_append_of_notMem hmark, ih h.tail hmem]
      rfl

/-- The names of the references and what they stand for, in the order in which they are read. -/
def references : List (List Char × Char) :=
  [(['l', 't', ';'], '<'), (['g', 't', ';'], '>'), (['q', 'u', 'o', 't', ';'], '"'),
    (['#', '3', '9', ';'], '\''), (['n', 'b', 's', 'p', ';'], ' '), (['a', 'm', 'p', ';'], '&')]

theorem apart_references : Apart references where
  mark := by decide
  names := by decide
  fresh := by decide

theorem toList_replaceEach_reading (s : String) :
    (replaceEach reading s).toList = readEach references s.toList := by
  simp only [replaceEach, reading, List.foldl_cons, List.foldl_nil, Text.replaceAll,
    String.toList_ofList]
  rfl

/-- Reading in one pass does what the replacements do. -/
theorem decode_eq_readEach (cs : List Char) : decode cs = readEach references cs := by
  have hreads (name : List Char) {cs : List Char} {x : Char} (hmem : (name, x) ∈ references)
      (ih : decode cs = readEach references cs) :
      x :: decode cs = readEach references ('&' :: (name ++ cs)) := by
    rw [readEach_reference apart_references hmem, ih]
  induction cs using decode.induct with
  | case1 rest ih =>
    rw [decode]
    exact hreads ['l', 't', ';'] (by decide) ih
  | case2 rest ih =>
    rw [decode]
    exact hreads ['g', 't', ';'] (by decide) ih
  | case3 rest ih =>
    rw [decode]
    exact hreads ['q', 'u', 'o', 't', ';'] (by decide) ih
  | case4 rest ih =>
    rw [decode]
    exact hreads ['#', '3', '9', ';'] (by decide) ih
  | case5 rest ih =>
    rw [decode]
    exact hreads ['n', 'b', 's', 'p', ';'] (by decide) ih
  | case6 rest ih =>
    rw [decode]
    exact hreads ['a', 'm', 'p', ';'] (by decide) ih
  | case7 c rest hlt hgt hquot hapos hnbsp hamp ih =>
    rw [decode.eq_7 c rest hlt hgt hquot hapos hnbsp hamp]
    by_cases hc : c = '&'
    · subst hc
      have hnone : ∀ r ∈ references, ¬ r.1 <+: rest := by
        rintro r hr ⟨tail, rfl⟩
        simp only [references, List.mem_cons, List.not_mem_nil, or_false] at hr
        rcases hr with rfl | rfl | rfl | rfl | rfl | rfl
        · exact hlt tail rfl rfl
        · exact hgt tail rfl rfl
        · exact hquot tail rfl rfl
        · exact hapos tail rfl rfl
        · exact hnbsp tail rfl rfl
        · exact hamp tail rfl rfl
      rw [readEach_mark apart_references hnone, ih]
    · rw [readEach_cons hc, ih]
  | case8 => rfl

theorem decode_eq_replaceEach (s : String) : decode s.toList = (replaceEach reading s).toList := by
  rw [toList_replaceEach_reading, decode_eq_readEach]

/-- **What is written is read back**, by the replacements one after another and by writing each
character and reading in one pass, which do the same. -/
theorem read_write (s : String) :
    replaceEach reading (replaceEach writing s) = s ∧ decode (encode s.toList) = s.toList ∧
      encode s.toList = (replaceEach writing s).toList ∧
      ∀ t : String, decode t.toList = (replaceEach reading t).toList := by
  have hread : decode (encode s.toList) = s.toList := by
    have happend := decode_encode_append s.toList []
    rwa [List.append_nil, show decode [] = [] from rfl, List.append_nil] at happend
  refine ⟨?_, hread, encode_eq_replaceEach s, decode_eq_replaceEach⟩
  apply String.toList_injective
  rw [← decode_eq_replaceEach, ← encode_eq_replaceEach, hread]

/-- A reference in the text is written as text and stays one. -/
example : replaceEach writing "a &lt; b" = "a &amp;lt; b" := by decide

end Syndication.Markup.Entity
