import ShapeForge.Text.Blank

/-!
# Documentation blocks

A block of documentation between triple quotes. Runs of blanks are single spaces, backslashes are
doubled, and a run of three quotes is escaped. An empty line divides paragraphs.
-/

namespace ShapeForge.Emission

def doubleBackslashes (cs : List Char) : List Char :=
  cs.flatMap fun c => if c = '\\' then ['\\', '\\'] else [c]

/-- Escapes every three quotes in a row, from the left. -/
def escapeQuotes : List Char → List Char
  | '"' :: '"' :: '"' :: rest => '\\' :: '"' :: '\\' :: '"' :: '\\' :: '"' :: escapeQuotes rest
  | c :: rest => c :: escapeQuotes rest
  | [] => []

/-- A line of documentation as it is written. -/
def docLine (line : String) : String :=
  String.ofList (escapeQuotes (doubleBackslashes (Text.collapseBlank line).toList))

/-- The lines without the empty ones at their end. -/
def dropEmptyEnd (lines : List String) : List String :=
  (lines.reverse.dropWhile String.isEmpty).reverse

/-- The lines of a documentation block; none for empty documentation. -/
def docstring (indent : String) (lines : List String) : List String :=
  match dropEmptyEnd (lines.map docLine) with
  | [] => []
  | [line] => [indent ++ "\"\"\"" ++ line ++ "\"\"\""]
  | first :: rest =>
    (indent ++ "\"\"\"" ++ first)
      :: rest.map (fun line => if line.isEmpty then "" else indent ++ line)
      ++ [indent ++ "\"\"\""]

end ShapeForge.Emission
