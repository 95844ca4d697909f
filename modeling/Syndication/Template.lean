import Syndication.Expression.Basic
import Syndication.Text.Pattern

/-!
# Templates

A template is text with placeholders, written as a field path between double
braces, with blanks around it or without. Rendering puts the text of the
addressed value in the place of each placeholder, and nothing where the path is
none or addresses nothing. What is put in is not looked at again.

A template that is one placeholder and nothing else, blanks at the ends apart,
stands for the addressed value itself, with its type.

Main statement:

* `interpolateChars_of_allMatches_eq_nil`: a template without a placeholder is its
  own rendering.
-/

namespace Syndication

namespace Template

/-- Whether a character is a brace. -/
def isBrace (c : Char) : Bool :=
  c == '{' || c == '}'

/-- A placeholder. The first group is what stands between the braces, less the
blanks before it and, as far as something is left, those after it. -/
def placeholder : Pattern :=
  .sequence [.char '{', .char '{', .blanks, .group 1 (.few1 (!isBrace ·)), .blanks, .char '}',
    .char '}']

/-- The text in the place of a placeholder: that of the value at the path that it
names, or nothing when it names none. -/
def renderPath (context : Json) (path : List Char) : List Char :=
  match FieldPath.parseChars path with
  | .ok path => (renderValue (path.resolve context)).toList
  | .error _ => []

end Template

open Template

/-- The rendering of a template. -/
def interpolateChars (template : List Char) (context : Json) : List Char :=
  placeholder.replace (fun m => renderPath context (m.group 1)) template

/-- The rendering of a template. -/
def interpolate (template : String) (context : Json) : String :=
  String.ofList (interpolateChars template.toList context)

/-- A template without a placeholder is its own rendering. -/
theorem interpolateChars_of_allMatches_eq_nil {template : List Char} {context : Json}
    (h : placeholder.allMatches template = []) : interpolateChars template context = template :=
  Pattern.replace_of_allMatches_eq_nil h

/-- The path of a template that is one placeholder, blanks at the ends apart. -/
def solePlaceholder? (template : List Char) : Option FieldPath :=
  let template := Chars.trim template
  (placeholder.first? template).bind fun m =>
    if m.text.length = template.length then (FieldPath.parseChars (m.group 1)).toOption else none

/-- The value of a text leaf of a template: a sole placeholder keeps the type of
the value it addresses, and becomes the empty text when there is none. -/
def interpolateLeaf (s : String) (context : Json) : Json :=
  match solePlaceholder? s.toList with
  | some path =>
    match path.resolve context with
    | some .null | none => .string ""
    | some value => value
  | none => .string (interpolate s context)

mutual

/-- A JSON template with its text leaves rendered. -/
def interpolateValue (context : Json) : Json → Json
  | .string s => interpolateLeaf s context
  | .array items => .array (interpolateItems context items)
  | .object members => .object (interpolateMembers context members)
  | other => other

/-- The items of a template with their text leaves rendered. -/
def interpolateItems (context : Json) : List Json → List Json
  | [] => []
  | v :: rest => interpolateValue context v :: interpolateItems context rest

/-- The members of a template with their text leaves rendered. -/
def interpolateMembers (context : Json) : List (String × Json) → List (String × Json)
  | [] => []
  | (k, v) :: rest => (k, interpolateValue context v) :: interpolateMembers context rest

end

theorem interpolateItems_eq_map (context : Json) (items : List Json) :
    interpolateItems context items = items.map (interpolateValue context) := by
  induction items with
  | nil => rfl
  | cons v rest ih => rw [interpolateItems, ih, List.map_cons]

theorem interpolateMembers_eq_map (context : Json) (members : List (String × Json)) :
    interpolateMembers context members =
      members.map fun m => (m.1, interpolateValue context m.2) := by
  induction members with
  | nil => rfl
  | cons m rest ih => rw [interpolateMembers, ih, List.map_cons]

end Syndication
