/-!
# Why a text is no expression
-/

namespace Syndication

/-- Why a text is no expression. -/
inductive ExpressionError where
  /-- There is nothing but blanks. -/
  | empty
  /-- The text that should be a field path is none. -/
  | invalidPath (text : String)
  /-- The text that should be a literal is none. -/
  | invalidLiteral (text : String)
  /-- The text is more than a path or one comparison. -/
  | unsupported (text : String)
deriving DecidableEq, Repr

/-- The wording of the error. -/
def ExpressionError.message : ExpressionError → String
  | .empty => "expression is empty"
  | .invalidPath text => s!"invalid field path '{text}'"
  | .invalidLiteral text => s!"invalid literal '{text}'"
  | .unsupported text => s!"unsupported expression '{text}'"

end Syndication
