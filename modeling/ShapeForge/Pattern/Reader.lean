import ShapeForge.Number.Numeral
import ShapeForge.Pattern.Basic
import ShapeForge.Text.Code

/-!
# Reading patterns

The concrete form of patterns: classes in brackets, groups in parentheses, repetition marks after
what they repeat. An expression that breaks the form has no pattern; of several faults, the first
one in reading order is the one that is reported. Characters by their names are not read.
-/

namespace ShapeForge.Pattern

/-- How letters are compared under flags. -/
def Flags.folding (flags : Flags) : Folding :=
  if flags.ignoreCase then (if flags.ascii then .ascii else .unicode) else .exact

/-- The groups that were opened so far. -/
structure Groups where
  count : Nat := 0
  names : List (String × Nat) := []
  unclosed : List Nat := []
  /-- The widths of the groups that are closed. -/
  widths : List (Nat × Width) := []
  /-- The number of groups before the assertion about what precedes that is being read. -/
  behind : Option Nat := none
  /-- The numbers in conditions, which may be those of later groups. -/
  conditions : List Nat := []

/-- Whether an assertion about what precedes may look at a group: one in it may not. -/
def Groups.isVisible (g : Groups) (n : Nat) : Bool :=
  g.behind.all fun before => n ≤ before && !g.unclosed.contains n

/-- Whether a group can be referred to. -/
def Groups.isClosed (g : Groups) (n : Nat) : Bool :=
  n ≤ g.count && !g.unclosed.contains n && g.isVisible n

/-- How a part of a sequence can be repeated. -/
inductive ItemKind where
  | plain
  | anchor
  | repeated
deriving DecidableEq

/-- A part of a sequence. -/
structure Item where
  body : Pattern
  kind : ItemKind := .plain

/-- The sequence of items that were read, the last one first. -/
def joinItems (items : List Item) : Pattern :=
  match items.reverse with
  | [] => .empty
  | first :: rest => rest.foldl (fun p item => .cat p item.body) first.body

/-- The control characters that letters stand for. -/
def controlEscape? : Char → Option Char
  | 'a' => some '\x07'
  | 'f' => some '\x0c'
  | 'n' => some '\n'
  | 'r' => some '\r'
  | 't' => some '\t'
  | 'v' => some '\x0b'
  | '\\' => some '\\'
  | _ => none

/-- The classes that letters stand for. -/
def classEscape? (ascii : Bool) : Char → Option ClassItem
  | 'd' => some (.digit ascii false)
  | 'D' => some (.digit ascii true)
  | 's' => some (.space ascii false)
  | 'S' => some (.space ascii true)
  | 'w' => some (.word ascii false)
  | 'W' => some (.word ascii true)
  | _ => none

/-- Reads a code point of exactly `n` hexadecimal digits. Half of a pair is one too. -/
def hexCode (n : Nat) (cs : List Char) : Option (Nat × List Char) :=
  let digits := cs.take n
  let code := Text.ofHex digits
  if digits.length = n && digits.all Text.isHex && code ≤ 0x10FFFF then some (code, cs.drop n)
  else none

def isOctal (c : Char) : Bool := '0' ≤ c && c ≤ '7'

/-- The code point of octal digits, which is below 256. -/
def octalCode? (digits : List Char) : Option Nat :=
  let n := digits.foldl (fun n c => 8 * n + (c.toNat - '0'.toNat)) 0
  if n < 256 then some n else none

/-- Reads the code point behind `x`, `u` or `U`. -/
def codeEscape? (c : Char) (cs : List Char) : Option (Option (Nat × List Char)) :=
  if c = 'x' then some (hexCode 2 cs)
  else if c = 'u' then some (hexCode 4 cs)
  else if c = 'U' then some (hexCode 8 cs)
  else none

/-- A member of a class as it is written: a code point, which may start or end a range, or a class
of its own. -/
inductive Member where
  | code (n : Nat)
  | named (item : ClassItem)

def Member.item : Member → ClassItem
  | .code n => .code n
  | .named item => item

/-- Reads a member of a class after a backslash. -/
def classMember (ascii : Bool) (cs : List Char) : Option (Member × List Char) :=
  match cs with
  | [] => none
  | c :: rest =>
    match codeEscape? c rest with
    | some found => found.map fun (n, rest) => (.code n, rest)
    | none =>
      if c = 'b' then
        some (.code 0x08, rest)
      else
        match controlEscape? c, classEscape? ascii c with
        | some x, _ => some (.code x.toNat, rest)
        | none, some item => some (.named item, rest)
        | none, none =>
          if isOctal c then
            let digits := c :: (rest.take 2).takeWhile isOctal
            (octalCode? digits).map fun n => (.code n, cs.drop digits.length)
          else if c.isAlphanum then
            none
          else
            some (.code c.toNat, rest)

/-- Reads one member of a class. -/
def member (ascii : Bool) (cs : List Char) : Option (Member × List Char) :=
  match cs with
  | [] => none
  | '\\' :: rest => classMember ascii rest
  | c :: rest => some (.code c.toNat, rest)

/-- Reads the members of a class up to the closing bracket, which is a member at the start. -/
def classItems (ascii : Bool) :
    Nat → Bool → List ClassItem → List Char → Option (List ClassItem × List Char)
  | 0, _, _, _ => none
  | fuel + 1, atStart, items, cs =>
    match cs with
    | [] => none
    | c :: rest =>
      if c = ']' && !atStart then
        some (items, rest)
      else do
        let (low, rest) ← member ascii cs
        match rest with
        | '-' :: ']' :: rest => some (.code '-'.toNat :: low.item :: items, rest)
        | '-' :: rest =>
          let (high, rest) ← member ascii rest
          match low, high with
          | .code low, .code high =>
            if high < low then none
            else classItems ascii fuel false (.range low high :: items) rest
          | _, _ => none
        | _ => classItems ascii fuel false (low.item :: items) rest

/-- Reads a class after its opening bracket. -/
def charClass (flags : Flags) (cs : List Char) : Option (Item × List Char) := do
  let (negated, cs) := match cs with
    | '^' :: rest => (true, rest)
    | _ => (false, cs)
  let (items, rest) ← classItems flags.ascii (cs.length + 1) true [] cs
  return (⟨.one (.set negated flags.folding items), .plain⟩, rest)

def literalItem (flags : Flags) (code : Nat) : Item := ⟨.one (.literal code flags.folding), .plain⟩

/-- Reads a reference to a group, or a code point of three octal digits. -/
def groupReference (flags : Flags) (groups : Groups) (cs : List Char) :
    Option (Item × List Char) :=
  let two := (cs.take 2).takeWhile Char.isDigit
  let three := (cs.take 3).takeWhile isOctal
  if three.length = 3 then
    -- Three octal digits are a code point, whatever groups there are.
    (octalCode? three).map fun n => (literalItem flags n, cs.drop 3)
  else
    let n := two.foldl (fun n c => 10 * n + (c.toNat - '0'.toNat)) 0
    if groups.isClosed n then
      some (⟨.reference n flags.folding, .plain⟩, cs.drop two.length)
    else
      none

/-- Reads what stands after a backslash. -/
def escape (flags : Flags) (groups : Groups) (cs : List Char) : Option (Item × List Char) :=
  match cs with
  | [] => none
  | c :: rest =>
    let anchor (a : Anchor) : Option (Item × List Char) := some (⟨.anchor a, .anchor⟩, rest)
    match codeEscape? c rest with
    | some found => found.map fun (x, rest) => (literalItem flags x, rest)
    | none =>
      if c = 'A' then anchor .textStart
      else if c = 'Z' then anchor .textEnd
      else if c = 'b' then anchor (.wordBoundary flags.ascii false)
      else if c = 'B' then anchor (.wordBoundary flags.ascii true)
      else
        match controlEscape? c, classEscape? flags.ascii c with
        | some x, _ => some (literalItem flags x.toNat, rest)
        | none, some item => some (⟨.one (.set false flags.folding [item]), .plain⟩, rest)
        | none, none =>
          if c = '0' then
            let digits := c :: (rest.take 2).takeWhile isOctal
            (octalCode? digits).map fun n => (literalItem flags n, cs.drop digits.length)
          else if c.isDigit then
            groupReference flags groups cs
          else if c.isAlpha then
            none
          else
            some (literalItem flags c.toNat, rest)

/-- Reads one character, class, anchor or escape. -/
def atom (flags : Flags) (groups : Groups) (cs : List Char) : Option (Item × List Char) :=
  match cs with
  | [] => none
  | '\\' :: rest => escape flags groups rest
  | '[' :: rest => charClass flags rest
  | '.' :: rest => some (⟨.one (.any flags.dotAll), .plain⟩, rest)
  | '^' :: rest =>
    some (⟨.anchor (if flags.multiline then .lineStart else .textStart), .anchor⟩, rest)
  | '$' :: rest =>
    some (⟨.anchor (if flags.multiline then .lineEnd else .lastLineEnd), .anchor⟩, rest)
  | c :: rest => some (literalItem flags c.toNat, rest)

/-- What was read, unless it is malformed. -/
def orMalformed {α : Type} (found : Option α) : Except PatternError α :=
  match found with
  | some found => .ok found
  | none => .error .malformed

/-- A repetition mark. -/
inductive Mark where
  | times (least : Nat) (most : Option Nat)
  /-- A brace that is only a character. -/
  | brace

/-- The count that digits write, if there are any. -/
def count? (digits : List Char) : Except PatternError (Option Nat) :=
  if digits.isEmpty then .ok none
  else if Numeral.maxIntegerDigits < digits.length then .error .longCount
  else
    let n := digits.foldl (fun n c => 10 * n + (c.toNat - '0'.toNat)) 0
    if maxCount ≤ n then .error .largeCount else .ok (some n)

/-- Reads a repetition mark; the counts in braces must not fall. -/
def mark (c : Char) (rest : List Char) : Except PatternError (Mark × List Char) :=
  if c = '*' then .ok (.times 0 none, rest)
  else if c = '+' then .ok (.times 1 none, rest)
  else if c = '?' then .ok (.times 0 (some 1), rest)
  else
    let (low, after) := rest.span Char.isDigit
    let (high, after) := match after with
      | ',' :: more => more.span Char.isDigit
      | _ => (low, after)
    match after with
    | '\x7d' :: after =>
      if rest.head? = some '\x7d' then
        .ok (.brace, rest)
      else do
        let least := (← count? low).getD 0
        match ← count? high with
        | none => return (.times least none, after)
        | some most =>
          if most < least then throw .malformed else return (.times least (some most), after)
    | _ => .ok (.brace, rest)

/-- Repeats the last item. There must be one, and it must not be an anchor or repeated already. -/
def repeatLast (least : Nat) (most : Option Nat) (items : List Item) (cs : List Char) :
    Option (List Item × List Char) :=
  match items with
  | [] => none
  | last :: before =>
    if last.kind ≠ .plain then
      none
    else
      match cs with
      | '?' :: rest => some (⟨.loop least most false last.body, .repeated⟩ :: before, rest)
      | '+' :: rest =>
        -- A possessive repetition gives nothing back.
        some (⟨.atomic (.loop least most true last.body), .repeated⟩ :: before, rest)
      | _ => some (⟨.loop least most true last.body, .repeated⟩ :: before, cs)

/-- What the start of a group says about it. -/
inductive GroupKind where
  | capture (name : Option String)
  | plain (flags : Flags)
  | look (behind negated : Bool)
  | atomic
  /-- A choice by a group that is given by its name or its number. -/
  | conditional (key : String)
  /-- A reference to a named group, which has no content. -/
  | named (name : String)
  | comment

/-- Reads a name up to its closing character. -/
def nameUntil (close : Char) (cs : List Char) : Option (String × List Char) :=
  match cs.span (· ≠ close) with
  | (name, _ :: rest) =>
    let name := String.ofList name
    if Text.isIdentifier name then some (name, rest) else none
  | _ => none

/-- The letters of flags that a group can set. One of a group's letters can say whether names of
classes mean ASCII (`a`) or all characters (`u`). -/
def isFlagLetter (c : Char) : Bool :=
  c == 'i' || c == 'm' || c == 's' || c == 'x' || c == 'a' || c == 'u'

/-- Whether letters of flags can stand together. -/
def areCompatible (letters : List Char) : Bool := !(letters.contains 'a' && letters.contains 'u')

/-- The flags with those of letters set. -/
def Flags.putAll (flags : Flags) (letters : List Char) : Flags :=
  let flags := letters.foldl (fun flags c => flags.put c true) flags
  if letters.contains 'a' then { flags with ascii := true }
  else if letters.contains 'u' then { flags with ascii := false }
  else flags

/-- Reads the flags of a group up to its colon: those that it sets, then those that it clears. -/
def groupFlags (flags : Flags) (cs : List Char) : Option (Flags × List Char) :=
  let (set, rest) := cs.span isFlagLetter
  if !areCompatible set then none
  else
    match rest with
    | ':' :: rest => if set.isEmpty then none else some (flags.putAll set, rest)
    | '-' :: rest =>
      match rest.span fun c => isFlagLetter c && c != 'a' && c != 'u' with
      | (c :: clear, ':' :: rest) =>
        if set.any (c :: clear).contains then none
        else some ((c :: clear).foldl (fun flags c => flags.put c false) (flags.putAll set), rest)
      | _ => none
    | _ => none

/-- Reads the start of a group after its parenthesis. -/
def groupStart (flags : Flags) (cs : List Char) : Option (GroupKind × List Char) :=
  match cs with
  | '?' :: 'P' :: '<' :: rest =>
    (nameUntil '>' rest).map fun (name, rest) => (.capture (some name), rest)
  | '?' :: 'P' :: '=' :: rest => (nameUntil ')' rest).map fun (name, rest) => (.named name, rest)
  | '?' :: ':' :: rest => some (.plain flags, rest)
  | '?' :: '=' :: rest => some (.look false false, rest)
  | '?' :: '!' :: rest => some (.look false true, rest)
  | '?' :: '<' :: '=' :: rest => some (.look true false, rest)
  | '?' :: '<' :: '!' :: rest => some (.look true true, rest)
  | '?' :: '>' :: rest => some (.atomic, rest)
  | '?' :: '#' :: rest =>
    match rest.dropWhile (· ≠ ')') with
    | _ :: rest => some (.comment, rest)
    | [] => none
  | '?' :: '(' :: rest =>
    match rest.span (· ≠ ')') with
    | (key, _ :: rest) => some (.conditional (String.ofList key), rest)
    | _ => none
  | '?' :: rest => (groupFlags flags rest).map fun (flags, rest) => (.plain flags, rest)
  | _ => some (.capture none, cs)

/-- Whether a character counts for nothing in a verbose expression. -/
def isFiller (c : Char) : Bool :=
  c == ' ' || c == '\t' || c == '\n' || c == '\r' || c == '\x0b' || c == '\x0c'

/-- Opens a group; a name can be given only once. -/
def Groups.open? (g : Groups) (name : Option String) : Option Groups :=
  let index := g.count + 1
  let opened := { g with count := index, unclosed := index :: g.unclosed }
  match name with
  | none => some opened
  | some name =>
    if (g.names.lookup name).isSome then none
    else some { opened with names := (name, index) :: g.names }

def Groups.close (g : Groups) (index : Nat) (body : Pattern) : Groups :=
  { g with
    unclosed := g.unclosed.filter (· ≠ index)
    widths := (index, body.width g.widths) :: g.widths }

/-- The group of a condition: a name must be known, a number may be that of a later group. -/
def Groups.condition? (g : Groups) (key : String) : Option Nat := do
  let n ← if Text.isIdentifier key then g.names.lookup key
    else (Numeral.integer? key).map Int.toNat
  if n = 0 || !g.isVisible n then none else some n

mutual

/-- Reads alternatives; groups can be nested `depth` deep. -/
def alternatives : Nat → Nat → Flags → Groups → List Char →
    Except PatternError (Pattern × Groups × List Char)
  | 0, _, _, _, _ => .error .malformed
  | fuel + 1, depth, flags, groups, cs => do
    let (first, groups, rest) ← branch fuel depth flags groups [] cs
    match rest with
    | '|' :: rest =>
      let (others, groups, rest) ← alternatives fuel depth flags groups rest
      return (.alt first others, groups, rest)
    | _ => return (first, groups, rest)

/-- Reads a sequence up to a bar, a closing parenthesis or the end. -/
def branch : Nat → Nat → Flags → Groups → List Item → List Char →
    Except PatternError (Pattern × Groups × List Char)
  | 0, _, _, _, _, _ => .error .malformed
  | fuel + 1, depth, flags, groups, items, cs =>
    match cs with
    | [] => .ok (joinItems items, groups, [])
    | c :: rest =>
      if c = '|' || c = ')' then
        .ok (joinItems items, groups, cs)
      else if flags.verbose && isFiller c then
        branch fuel depth flags groups items rest
      else if flags.verbose && c = '#' then
        branch fuel depth flags groups items (rest.dropWhile (· ≠ '\n'))
      else if c = '(' then do
        let (item, groups, rest) ← readGroup fuel depth flags groups rest
        branch fuel depth flags groups (item.toList ++ items) rest
      else if c = '*' || c = '+' || c = '?' || c = '\x7b' then do
        match ← mark c rest with
        | (.brace, rest) => branch fuel depth flags groups (literalItem flags c.toNat :: items) rest
        | (.times least most, rest) =>
          let (items, rest) ← orMalformed (repeatLast least most items rest)
          branch fuel depth flags groups items rest
      else do
        let (item, rest) ← orMalformed (atom flags groups cs)
        branch fuel depth flags groups (item :: items) rest

/-- Reads a group after its opening parenthesis. -/
def readGroup : Nat → Nat → Flags → Groups → List Char →
    Except PatternError (Option Item × Groups × List Char)
  | 0, _, _, _, _ => .error .malformed
  | _, 0, _, _, _ => .error .tooDeep
  | fuel + 1, depth + 1, flags, groups, cs => do
    let (kind, rest) ← orMalformed (groupStart flags cs)
    match kind with
    | .comment => return (none, groups, rest)
    | .named name =>
      let n ← orMalformed (groups.names.lookup name)
      if groups.isClosed n then
        return (some ⟨.reference n flags.folding, .plain⟩, groups, rest)
      else
        throw .malformed
    | .capture name =>
      let groups ← orMalformed (groups.open? name)
      let index := groups.count
      let (body, groups, rest) ← alternatives fuel depth flags groups rest
      let rest ← closing rest
      return (some ⟨.group index body, .plain⟩, groups.close index body, rest)
    | .plain inner =>
      let (body, groups, rest) ← alternatives fuel depth inner groups rest
      let rest ← closing rest
      return (some ⟨body, .plain⟩, groups, rest)
    | .atomic =>
      let (body, groups, rest) ← alternatives fuel depth flags groups rest
      let rest ← closing rest
      return (some ⟨.atomic body, .plain⟩, groups, rest)
    | .conditional key =>
      let n ← orMalformed (groups.condition? key)
      let groups := { groups with conditions := n :: groups.conditions }
      let (captured, groups, rest) ← branch fuel depth flags groups [] rest
      let (missing, groups, rest) ← match rest with
        | '|' :: rest => branch fuel depth flags groups [] rest
        | _ => pure (.empty, groups, rest)
      let rest ← closing rest
      return (some ⟨.conditional n captured missing, .plain⟩, groups, rest)
    | .look behind negated =>
      let before := groups.behind
      let groups := if behind && before.isNone then { groups with behind := some groups.count }
        else groups
      let (body, groups, rest) ← alternatives fuel depth flags groups rest
      let rest ← closing rest
      -- The width is settled once the whole expression is read.
      let width := if behind then some 0 else none
      return (some ⟨.look width negated body, .plain⟩, { groups with behind := before }, rest)
where
  closing : List Char → Except PatternError (List Char)
    | ')' :: rest => .ok rest
    | _ => .error .malformed

end

/-- Settles how far the assertions about what precedes look back; the width of what they look for
must be fixed. -/
def settle (widths : List (Nat × Width)) : Pattern → Option Pattern
  | .cat a b => return .cat (← settle widths a) (← settle widths b)
  | .alt a b => return .alt (← settle widths a) (← settle widths b)
  | .conditional n a b => return .conditional n (← settle widths a) (← settle widths b)
  | .group n body => (settle widths body).map (.group n)
  | .atomic body => (settle widths body).map .atomic
  | .loop least most greedy body => (settle widths body).map (.loop least most greedy)
  | .look none negated body => (settle widths body).map (.look none negated)
  | .look (some _) negated body => do
    let body ← settle widths body
    let w := body.width widths
    if w.least = w.most then some (.look (some w.least) negated body) else none
  | p => some p

/-- Whether a pattern has a loop in it. -/
def hasLoop : Pattern → Bool
  | .loop .. => true
  | .cat a b | .alt a b | .conditional _ a b => hasLoop a || hasLoop b
  | .group _ body | .atomic body | .look _ _ body => hasLoop body
  | _ => false

/-- Takes the flags that stand at the very start of an expression, and gives the letters with
them. Comments and, in a verbose expression, blanks may stand between them. -/
def leadingFlags : Nat → Flags → List Char → List Char → Flags × List Char × List Char
  | 0, flags, letters, cs => (flags, letters, cs)
  | fuel + 1, flags, letters, cs =>
    match cs with
    | '(' :: '?' :: '#' :: rest =>
      match rest.dropWhile (· ≠ ')') with
      | _ :: rest => leadingFlags fuel flags letters rest
      | [] => (flags, letters, cs)
    | '(' :: '?' :: rest =>
      match rest.span fun c => isFlagLetter c || c == 't' with
      | (c :: more, ')' :: rest) =>
        if areCompatible (c :: more) then
          leadingFlags fuel (flags.putAll (c :: more)) (c :: more ++ letters) rest
        else
          (flags, letters, cs)
      | _ => (flags, letters, cs)
    | c :: rest =>
      if flags.verbose && isFiller c then leadingFlags fuel flags letters rest
      else if flags.verbose && c == '#' then
        leadingFlags fuel flags letters (rest.dropWhile (· ≠ '\n'))
      else (flags, letters, cs)
    | [] => (flags, letters, cs)

/-- The pattern of an expression whose groups are nested at most `depth` deep. -/
def read (depth : Nat) (flags : Flags) (expression : String) : Except PatternError Pattern := do
  let cs := expression.toList
  let (flags, letters, cs) := leadingFlags (cs.length + 1) flags [] cs
  let (pattern, groups, rest) ← alternatives (2 * cs.length + 4) depth flags {} cs
  if !areCompatible letters then
    throw .conflictingFlags
  if !rest.isEmpty || groups.conditions.any (groups.count < ·) then
    throw .malformed
  -- A template, which the letter `t` asks for, has no loops.
  if letters.contains 't' && hasLoop pattern then
    throw .malformed
  orMalformed (settle groups.widths pattern)

end ShapeForge.Pattern
