/-!
# Words of a name

A name is cut into words at every run of characters other than ASCII letters and digits, and
inside such a run-free chunk wherever a capital starts a new word. Pascal case and snake case are
the two ways of joining the words again.
-/

namespace ShapeForge.Naming

/-- Whether a new word starts at `c`, given the character before it and the one after it. A
capital starts a word after a small letter or a digit, and the last capital of a run starts one
when a small letter follows. -/
def startsWord (before c : Char) (after : Option Char) : Bool :=
  c.isUpper && (before.isLower || before.isDigit || (before.isUpper && after.any Char.isLower))

/-- Cuts a chunk of letters and digits into its words. -/
def camelWords : List Char → List (List Char)
  | [] => []
  | [c] => [[c]]
  | b :: c :: rest =>
    if startsWord b c rest.head? then
      [b] :: camelWords (c :: rest)
    else
      match camelWords (c :: rest) with
      | [] => [[b]]
      | word :: words => (b :: word) :: words

/-- The maximal runs of ASCII letters and digits, in order. -/
def chunks : List Char → List (List Char)
  | [] => []
  | c :: rest =>
    if c.isAlphanum then
      match rest, chunks rest with
      | d :: _, chunk :: more => if d.isAlphanum then (c :: chunk) :: more else [c] :: chunk :: more
      | _, more => [c] :: more
    else
      chunks rest

/-- The words of a name, in order. -/
def words (name : List Char) : List (List Char) :=
  (chunks name).flatMap camelWords

/-- Makes the first letter a capital and keeps the others. -/
def capitalize : List Char → List Char
  | [] => []
  | c :: rest => c.toUpper :: rest

/-- An identifier does not start with a digit: an underscore goes in front of one. -/
def guardDigit : List Char → List Char
  | [] => []
  | c :: rest => if c.isDigit then '_' :: c :: rest else c :: rest

/-- The words joined with every first letter a capital; `Thing` when there is no word. -/
def toPascalCase (name : String) : String :=
  match (words name.toList).flatMap capitalize with
  | [] => "Thing"
  | result => String.ofList (guardDigit result)

/-- The words in small letters joined by underscores; `value` when there is no word. -/
def toSnakeCase (name : String) : String :=
  match ['_'].intercalate ((words name.toList).map (·.map Char.toLower)) with
  | [] => "value"
  | result => String.ofList (guardDigit result)

end ShapeForge.Naming
