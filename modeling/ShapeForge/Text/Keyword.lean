/-!
# Reserved words

The words that the emitted source cannot use as identifiers.
-/

namespace ShapeForge

/-- The reserved words of the emitted source. -/
def keywords : List String :=
  ["False", "None", "True", "and", "as", "assert", "async", "await", "break", "class", "continue",
    "def", "del", "elif", "else", "except", "finally", "for", "from", "global", "if", "import",
    "in", "is", "lambda", "nonlocal", "not", "or", "pass", "raise", "return", "try", "while",
    "with", "yield"]

def isKeyword (text : String) : Bool := keywords.contains text

end ShapeForge
