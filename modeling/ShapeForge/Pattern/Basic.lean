import ShapeForge.Text.Blank
import ShapeForge.Text.Case
import ShapeForge.Text.CharClass

/-!
# Patterns

Regular expressions over Unicode text with groups, references to groups, conditions on them,
assertions and lazy loops. What the flags of an expression change is settled when it is read, so it
stands in the pattern itself. Characters are given by their code points, so that an expression can
name one that no text has.
-/

namespace ShapeForge

/-- Which letters are the same when a pattern compares them. -/
inductive Folding where
  | exact
  /-- Case is ignored in the letters of ASCII. -/
  | ascii
  | unicode
deriving Repr, DecidableEq

/-- A member of a character class. The named classes hold characters of ASCII only, if the flag
is set. -/
inductive ClassItem where
  | range (low high : Nat)
  | digit (ascii negated : Bool)
  | space (ascii negated : Bool)
  | word (ascii negated : Bool)
deriving Repr, DecidableEq

/-- The class of one character. -/
def ClassItem.code (n : Nat) : ClassItem := .range n n

/-- What one character must be. -/
inductive CharTest where
  | literal (code : Nat) (folding : Folding)
  /-- Any character; a line feed only if the flag is set. -/
  | any (lineFeeds : Bool)
  | set (negated : Bool) (folding : Folding) (items : List ClassItem)
deriving Repr, DecidableEq

/-- The small letter of a code point. -/
def Folding.lower (folding : Folding) (code : Nat) : Nat :=
  match folding with
  | .exact => code
  | .ascii => if 0x41 ≤ code && code ≤ 0x5A then code + 0x20 else code
  | .unicode => Text.lowerCode code

def Folding.same (folding : Folding) (a b : Nat) : Bool :=
  match folding with
  | .unicode => Text.sameLetter a b
  | folding => folding.lower a == folding.lower b

/-- The code points that are the same letter as a given one. -/
def Folding.variants (folding : Folding) (code : Nat) : List Nat :=
  match folding with
  | .exact => [code]
  | .ascii =>
    let small := Folding.ascii.lower code
    if 0x61 ≤ small && small ≤ 0x7A then [small, small - 0x20] else [code]
  | .unicode => Text.caseVariants code

/-- Whether a character belongs to a word. -/
def isWordChar (ascii : Bool) (c : Char) : Bool :=
  (if ascii then c.isAlphanum else Text.isAlphanumeric c) || c == '_'

/-- The blanks of ASCII. -/
def isAsciiBlank (c : Char) : Bool := c == ' ' || (0x09 ≤ c.toNat && c.toNat ≤ 0x0D)

def ClassItem.accepts (item : ClassItem) (folding : Folding) (c : Char) : Bool :=
  match item with
  | .range low high => (folding.variants c.toNat).any fun n => low ≤ n && n ≤ high
  | .digit ascii negated => (if ascii then c.isDigit else Text.isDecimal c) != negated
  | .space ascii negated => (if ascii then isAsciiBlank c else Text.isBlank c) != negated
  | .word ascii negated => isWordChar ascii c != negated

def CharTest.accepts (test : CharTest) (c : Char) : Bool :=
  match test with
  | .literal code folding => folding.same c.toNat code
  | .any lineFeeds => lineFeeds || c ≠ '\n'
  | .set negated folding items => items.any (·.accepts folding c) != negated

/-- A condition on a place in a text. -/
inductive Anchor where
  | textStart
  | textEnd
  /-- The end of the text, or a line feed that ends it. -/
  | lastLineEnd
  | lineStart
  | lineEnd
  | wordBoundary (ascii negated : Bool)
deriving Repr, DecidableEq

inductive Pattern where
  | empty
  | one (test : CharTest)
  | anchor (condition : Anchor)
  | reference (group : Nat) (folding : Folding)
  | cat (first second : Pattern)
  | alt (first second : Pattern)
  | group (index : Nat) (body : Pattern)
  /-- What matches depends on whether a group was captured. -/
  | conditional (group : Nat) (captured missing : Pattern)
  /-- An assertion about what follows or, with a width, about what precedes. -/
  | look (behind : Option Nat) (negated : Bool) (body : Pattern)
  /-- The first way to match only. -/
  | atomic (body : Pattern)
  | loop (least : Nat) (most : Option Nat) (greedy : Bool) (body : Pattern)
deriving Repr, DecidableEq

namespace Pattern

/-- The flags that a pattern is read with. -/
structure Flags where
  ignoreCase : Bool := false
  multiline : Bool := false
  dotAll : Bool := false
  verbose : Bool := false
  ascii : Bool := false
deriving Repr, DecidableEq

/-- Sets the flag of a letter; other letters say nothing. -/
def Flags.put (flags : Flags) (letter : Char) (value : Bool) : Flags :=
  match letter with
  | 'i' => { flags with ignoreCase := value }
  | 'm' => { flags with multiline := value }
  | 's' => { flags with dotAll := value }
  | 'x' => { flags with verbose := value }
  | _ => flags

/-- The flags of the letters that are given beside an expression. -/
def Flags.ofText (letters : String) : Flags :=
  letters.toList.foldl (fun flags letter => flags.put letter true) {}

/-- The most that is counted; loops without an upper limit count up to it. -/
def maxCount : Nat := 4294967295

end Pattern

/-- Why an expression has no pattern. -/
inductive PatternError where
  | malformed
  /-- A count is beyond what is counted. -/
  | largeCount
  /-- A count has more digits than are read. -/
  | longCount
  | conflictingFlags
  /-- Groups are nested too deep. -/
  | tooDeep
deriving Repr, DecidableEq

/-- The least and the greatest width of the matches. -/
structure Width where
  least : Nat
  most : Nat
deriving Repr, DecidableEq

namespace Width

def exactly (n : Nat) : Width := ⟨n, n⟩

/-- The width within what is counted. -/
def capped (w : Width) : Width :=
  ⟨min w.least (Pattern.maxCount - 1), min w.most Pattern.maxCount⟩

def add (a b : Width) : Width := ⟨a.least + b.least, a.most + b.most⟩

def join (a b : Width) : Width := ⟨min a.least b.least, max a.most b.most⟩

end Width

/-- The width of a pattern; `groups` are the widths of the groups. -/
def Pattern.width (groups : List (Nat × Width)) : Pattern → Width
  | .empty | .anchor _ | .look .. => .exactly 0
  | .one _ => .exactly 1
  | .reference n _ => (groups.lookup n).getD (.exactly 0)
  | .cat a b => ((a.width groups).add (b.width groups)).capped
  | .alt a b => (a.width groups).join (b.width groups)
  | .conditional _ a b => (a.width groups).join (b.width groups)
  | .group _ body | .atomic body => body.width groups
  | .loop least most _ body =>
    let w := body.width groups
    (Width.mk (least * w.least) (most.getD maxCount * w.most)).capped

end ShapeForge
