/-!
# IRI references

A reference is resolved against a base: a reference with a scheme is an IRI already, a fragment
goes after the base, and a relative path replaces the last segment of the base path, with leading
dot segments taken off one by one.
-/

namespace ShapeForge.Rdf

/-- Whether a reference has a scheme: a colon that no slash stands before. -/
def hasScheme (reference : List Char) : Bool :=
  (reference.dropWhile fun c => c ≠ ':' && c ≠ '/').head? == some ':'

/-- A base, cut into the scheme with the authority, and the path. -/
structure Base where
  root : List Char
  path : List Char

/-- The scheme with its colon, and what follows. -/
def splitScheme (iri : List Char) : List Char × List Char :=
  match iri.span (· ≠ ':') with
  | (scheme, ':' :: rest) => (scheme ++ [':'], rest)
  | (scheme, rest) => (scheme, rest)

/-- Cuts a base before its path; an empty path after an authority is a slash. A base whose scheme
has no path behind it cannot be cut. -/
def Base.of? (iri : List Char) : Option Base :=
  match splitScheme iri with
  | (scheme, '/' :: '/' :: rest) =>
    let authority := rest.takeWhile (· ≠ '/')
    let path := rest.dropWhile (· ≠ '/')
    some ⟨scheme ++ '/' :: '/' :: authority, if path.isEmpty then ['/'] else path⟩
  | (scheme, '/' :: rest) => some ⟨scheme, '/' :: rest⟩
  | _ => none

/-- The characters up to the last slash. -/
def directory (path : List Char) : List Char := (path.reverse.dropWhile (· ≠ '/')).reverse

/-- The directory above one that ends in a slash; the topmost one stays. -/
def parent (dir : List Char) : List Char :=
  let up := directory dir.dropLast
  if up.isEmpty then dir else up

/-- A relative path placed into a directory. -/
def place (dir : List Char) : List Char → List Char
  | '.' :: '.' :: '/' :: rest => place (parent dir) rest
  | '.' :: '/' :: rest => place dir rest
  | ['.', '.'] => parent dir
  | ['.'] => dir
  | path => dir ++ path

/-- The IRI of a reference under a base. -/
def resolve? (base reference : List Char) : Option (List Char) :=
  if hasScheme reference then
    some reference
  else
    let path := reference.takeWhile (· ≠ '#')
    let fragment := reference.dropWhile (· ≠ '#')
    match path with
    | [] => some (base ++ fragment)
    | '/' :: '/' :: _ => some ((splitScheme base).1 ++ reference)
    | '/' :: _ => (Base.of? base).map fun b => b.root ++ reference
    | _ => (Base.of? base).map fun b => b.root ++ place (directory b.path) path ++ fragment

end ShapeForge.Rdf
