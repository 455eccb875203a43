/-!
# Segments

The parts of a text between the occurrences of a separator. There is always one more than there
are separators.
-/

namespace ShapeForge.Text

/-- The segments between separators. -/
def segments (separator : Char) : List Char → List (List Char)
  | [] => [[]]
  | c :: rest =>
    match segments separator rest with
    | [] => [[c]]
    | s :: more => if c = separator then [] :: s :: more else (c :: s) :: more

end ShapeForge.Text
