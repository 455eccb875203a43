import ShapeForge.Json.Reader
import ShapeForge.Platform

/-!
# Reading contexts

A text that ends in `#` or `/` defines a prefix, another text maps a type, and an object with an
identifier defines a term. The prefixes, the base and the vocabulary of an object hold for all its
entries, wherever they stand in it.
-/

namespace ShapeForge

/-- Whether a text has another one in it. -/
def containsText (part : List Char) : List Char → Bool
  | [] => part.isEmpty
  | c :: rest => part.isPrefixOf (c :: rest) || containsText part rest

/-- Whether an IRI ends like a namespace. -/
def isNamespace (iri : String) : Bool := iri.endsWith "#" || iri.endsWith "/"

/-- Whether a term is an IRI already. -/
def isAbsolute (term : String) : Bool :=
  containsText "://".toList term.toList || term.startsWith "urn:"

/-- The parts of a term before and after its first colon. -/
def splitColon (term : String) : Option (String × String) :=
  match term.toList.span (· ≠ ':') with
  | (before, _ :: after) => some (String.ofList before, String.ofList after)
  | (_, []) => none

namespace Context

/-- The IRI of a term without a prefix. -/
def expandPlain (c : Context) (term : String) : Except ContextError String :=
  if isAbsolute term then .ok term
  else match c.vocab, c.base with
    | some vocab, _ => .ok (vocab ++ term)
    | none, some base => .ok (base ++ term)
    | none, none => .error (.unqualified term)

/-- The IRI that a term stands for: a known prefix is replaced by its namespace, an IRI stays, and
any other term goes after the vocabulary or the base. -/
def expand (c : Context) (term : String) : Except ContextError String :=
  match splitColon term with
  | some (name, rest) =>
    if name.isEmpty then
      -- A colon at the front separates nothing.
      c.expandPlain term
    else
      -- The prefixes come first, so one named like a scheme changes absolute IRIs.
      match Assoc.get? name c.prefixes with
      | some expansion => .ok (expansion ++ rest)
      | none => if isAbsolute term then .ok term else .error (.unknownPrefix name term)
  | none => c.expandPlain term

/-- The IRI of a term given as a JSON value. -/
def expandJson (c : Context) : Json → Except ContextError String
  | .text term => c.expand term
  | _ => .error .notText

/-- Adds the prefixes of one context object. -/
def addPrefixes (c : Context) (fields : List (String × Json)) : Context :=
  fields.foldl
    (fun c (key, value) => match value with
      | .text iri =>
        if key.startsWith "@" || key.contains ':' || !isNamespace iri then c
        else { c with prefixes := Assoc.put key iri c.prefixes }
      | _ => c)
    c

/-- Takes the base and the vocabulary of one context object. -/
def takeDefaults (c : Context) (fields : List (String × Json)) : Context :=
  let c := match Assoc.get? "@base" fields with
    | some (.text base) => { c with base := some base }
    | _ => c
  match Assoc.get? "@vocab" fields with
  | some (.text vocab) => { c with vocab := some vocab }
  | _ => c

/-- The type of a term definition: the mark of references stays, another one is expanded. -/
def termType (c : Context) : Option Json → Except ContextError (Option String)
  | none | some .null => .ok none
  | some value =>
    match value with
    | .text t => if t = referenceMark then .ok (some t) else (c.expand t).map some
    | value => (c.expandJson value).map some

/-- Takes one entry of a context object. -/
def takeEntry (c : Context) (key : String) (value : Json) : Except ContextError Context :=
  if key.startsWith "@" then
    .ok c
  else
    match value with
    | .text iri =>
      if key.contains ':' || isNamespace iri then .ok c
      else do
        let expanded ← c.expand iri
        return { c with types := Assoc.put key expanded c.types }
    | .object fields =>
      match Assoc.get? "@id" fields with
      | none | some .null => .ok c
      | some id => do
        -- The type goes first: of two faults, its own is the one that is reported.
        let type ← c.termType (Assoc.get? "@type" fields)
        let id ← c.expandJson id
        let container := (Assoc.get? "@container" fields).getD .null
        return { c with terms := Assoc.put key ⟨id, type, container⟩ c.terms }
    | _ => .ok c

/-- Takes one context object: first what holds for all its entries, then the entries in order. -/
def takeObject (c : Context) (fields : List (String × Json)) : Except ContextError Context :=
  fields.foldlM (fun c (key, value) => c.takeEntry key value)
    ((c.addPrefixes fields).takeDefaults fields)

/-- The context objects of a document: one or a list of them, in which all else is left out. -/
def objectsOf : Option Json → Except ContextError (List (List (String × Json)))
  | some (.object fields) => .ok [fields]
  | some (.list items) => .ok (items.filterMap fun
      | .object fields => some fields
      | _ => none)
  | some (.text reference) => .error (.externalContext reference)
  | _ => .ok []

def ofDocument : Json → Except ContextError Context
  | .object fields => do
    let objects ← objectsOf (Assoc.get? "@context" fields)
    if objects.isEmpty then
      throw .noContext
    objects.foldlM takeObject {}
  | _ => .error .notAnObject

/-- The document of a text. -/
def decode [Platform] (text : String) : Except ContextError Json :=
  (Json.read Platform.jsonDepth text).mapError fun
    | .malformed => .invalidJson
    | .longInteger digits => .longInteger digits
    | .tooDeep => .tooDeep

def ofText [Platform] (text : String) : Except ContextError Context := do
  ofDocument (← decode text)

/-- Reads a context that is given as a text or as a decoded document. -/
def ofJson [Platform] : Json → Except ContextError Context
  | .text text => ofText text
  | document => ofDocument document

end Context

end ShapeForge
