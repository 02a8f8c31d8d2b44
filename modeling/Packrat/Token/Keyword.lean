namespace Packrat
namespace Token

/-!
# Reserved words

A name in this list is a keyword and never an identifier.
-/

/-- The thirty-five reserved words. -/
def keywords : List String :=
  ["False", "None", "True", "and", "as", "assert", "async", "await", "break", "class",
    "continue", "def", "del", "elif", "else", "except", "finally", "for", "from", "global",
    "if", "import", "in", "is", "lambda", "nonlocal", "not", "or", "pass", "raise",
    "return", "try", "while", "with", "yield"]

/-- Whether a name is reserved; case matters. -/
def isKeyword (name : String) : Bool :=
  keywords.contains name

end Token
end Packrat
