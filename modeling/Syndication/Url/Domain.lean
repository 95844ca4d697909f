import Syndication.Text.Search
import Syndication.Url.Punycode

/-!
# Domain names

A domain name is brought into the form in which it is looked up: in lower case,
a label with characters beyond ASCII in Punycode behind `xn--`. Some ASCII
characters may not stand in a domain name.
-/

namespace Syndication.Url

/-- The ASCII characters that a domain name may not hold. -/
def isForbiddenInDomain (c : Char) : Bool :=
  c.toNat ≤ 0x20 || c.toNat == 0x7F ||
    ['%', '#', '/', ':', '<', '>', '?', '@', '[', '\\', ']', '^', '|'].contains c

/-- The form of a character in a domain name: letters in lower case, wide forms
of ASCII characters as those, the ideographic full stops as full stops, and
nothing for the soft hyphen and the joiners. -/
def domainChars (c : Char) : List Char :=
  let n := c.toNat
  if n < 128 then [c.toLower]
  else if n == 0xAD || n == 0x200B || n == 0x2060 || n == 0xFEFF then []
  else if n == 0x3002 || n == 0xFF61 then ['.']
  else if 0xFF01 ≤ n && n ≤ 0xFF5E then [(Char.ofNat (n - 0xFEE0)).toLower]
  else if (0xC0 ≤ n && n ≤ 0xDE && n != 0xD7) || (0x391 ≤ n && n ≤ 0x3A9) ||
      (0x410 ≤ n && n ≤ 0x42F) then [Char.ofNat (n + 32)]
  else if 0x400 ≤ n && n ≤ 0x40F then [Char.ofNat (n + 80)]
  else if ((0x100 ≤ n && n ≤ 0x12F) || (0x14A ≤ n && n ≤ 0x177) || (0x460 ≤ n && n ≤ 0x481) ||
      (0x48A ≤ n && n ≤ 0x4BF) || (0x4D0 ≤ n && n ≤ 0x52F) || (0x1E00 ≤ n && n ≤ 0x1E95) ||
      (0x1EA0 ≤ n && n ≤ 0x1EFF)) && n % 2 == 0 then [Char.ofNat (n + 1)]
  else if ((0x139 ≤ n && n ≤ 0x148) || (0x179 ≤ n && n ≤ 0x17E)) && n % 2 == 1 then
    [Char.ofNat (n + 1)]
  else [c]

/-- Whether a character can never stand in a domain name: the replacement
character, blanks beyond ASCII and controls. -/
def isNeverInDomain (c : Char) : Bool :=
  let n := c.toNat
  (0x80 ≤ n && n ≤ 0xA0) || (0x2000 ≤ n && n ≤ 0x200A) || n == 0x2028 || n == 0x2029 ||
    n == 0x202F || n == 0x205F || n == 0x3000 || (0xFFF9 ≤ n && n ≤ 0xFFFF) ||
    (0xE000 ≤ n && n ≤ 0xF8FF) || (0x202A ≤ n && n ≤ 0x202E)

/-- The ASCII form of a label. A label that already stands in Punycode has to be
the Punycode of a label that needs it. -/
def asciiLabel? (label : List Char) : Option (List Char) :=
  match Chars.stripPrefix? ['x', 'n', '-', '-'] label with
  | some code =>
    match Punycode.decode? code with
    | some decoded =>
      if decoded.all (·.toNat < 128) || Punycode.encode decoded != code ||
          decoded.flatMap domainChars != decoded || decoded.any isNeverInDomain then none
      else some label
    | none => none
  | none =>
    -- no need for Punycode
    if label.all (·.toNat < 128) then some label
    else if label.any isNeverInDomain then none
    else some (['x', 'n', '-', '-'] ++ Punycode.encode label)

/-- The ASCII form of a domain name, if it is one. -/
def asciiDomain? (domain : List Char) : Option (List Char) := do
  let labels ← (Chars.splitOn '.' (domain.flatMap domainChars)).mapM asciiLabel?
  let ascii := Chars.join ['.'] labels
  if ascii.any isForbiddenInDomain then none else some ascii

end Syndication.Url
