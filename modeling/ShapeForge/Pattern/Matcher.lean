import ShapeForge.Pattern.Basic

/-!
# Matching

A cursor is a place in the text with the groups captured so far. Matching maps a cursor to the
cursors behind the ways to match, in the order in which they are preferred and each once. A text
matches as a whole when one of them is at its end.
-/

namespace ShapeForge

/-- Whether a place satisfies an anchor. An empty text has neither word boundaries nor other
places between characters. -/
def Anchor.holds (text : Array Char) (place : Nat) : Anchor → Bool
  | .textStart => place == 0
  | .textEnd => place == text.size
  | .lastLineEnd => place == text.size || (place + 1 == text.size && text[place]? == some '\n')
  | .lineStart => place == 0 || text[place - 1]? == some '\n'
  | .lineEnd => place == text.size || text[place]? == some '\n'
  | .wordBoundary ascii negated =>
    let before := place != 0 && text[place - 1]?.any (isWordChar ascii)
    let after := text[place]?.any (isWordChar ascii)
    text.size != 0 && (before != after) != negated

namespace Pattern

/-- A place in a text, and the start and end of each captured group. -/
structure Cursor where
  place : Nat
  captured : List (Nat × Nat × Nat) := []
deriving Repr, DecidableEq

/-- The cursors without the repeated ones, in order of first occurrence. -/
def distinctCursors (cursors : List Cursor) : List Cursor :=
  cursors.foldl (fun seen c => if seen.contains c then seen else seen ++ [c]) []

/-- The cursor with a group captured up to its place. -/
def Cursor.capture (c : Cursor) (index start : Nat) : Cursor :=
  { c with captured := (c.captured.filter (·.1 ≠ index)) ++ [(index, start, c.place)] }

/-- How often a loop runs. -/
structure Limits where
  least : Nat
  most : Option Nat
  greedy : Bool

/-- The cursors behind a loop. `count` is the number of rounds so far and `moved` says whether the
last one consumed anything: after a round that did not, an optional round is not tried. States that
were met before give nothing new. -/
def explore (step : Cursor → List Cursor) (limits : Limits) :
    Nat → Nat → Bool → Cursor → List (Nat × Bool × Cursor) →
      List Cursor × List (Nat × Bool × Cursor)
  | 0, _, _, _, seen => ([], seen)
  | fuel + 1, count, moved, c, seen =>
    -- Without an upper limit the rounds beyond the least number are all alike.
    let rank := if limits.most.isNone then min count limits.least else count
    if seen.contains (rank, moved, c) then
      ([], seen)
    else
      let seen := (rank, moved, c) :: seen
      let again := limits.most.all (count < ·) && (count < limits.least || moved)
      let rounds := if again then step c else []
      let (deeper, seen) := rounds.foldl
        (fun (found, seen) d =>
          let (more, seen) := explore step limits fuel (count + 1) (d.place != c.place) d seen
          (found ++ more, seen))
        ([], seen)
      let here := if limits.least ≤ count then [c] else []
      (if limits.greedy then deeper ++ here else here ++ deeper, seen)

/-- Whether two stretches of a text are equal, up to case if that is ignored. -/
def sameStretch (folding : Folding) (text : Array Char) (start length place : Nat) : Bool :=
  (List.range length).all fun i =>
    match text[start + i]?, text[place + i]? with
    | some a, some b => folding.lower a.toNat == folding.lower b.toNat
    | _, _ => false

/-- The cursors behind the ways to match at a cursor. -/
def step (text : Array Char) : Pattern → Cursor → List Cursor
  | .empty, c => [c]
  | .one test, c =>
    match text[c.place]? with
    | some x => if test.accepts x then [{ c with place := c.place + 1 }] else []
    | none => []
  | .anchor a, c => if a.holds text c.place then [c] else []
  | .reference n folding, c =>
    match c.captured.lookup n with
    | none => []
    | some (start, stop) =>
      if sameStretch folding text start (stop - start) c.place then
        [{ c with place := c.place + (stop - start) }]
      else
        []
  | .cat a b, c => distinctCursors ((step text a c).flatMap (step text b))
  | .alt a b, c => distinctCursors (step text a c ++ step text b c)
  | .group index body, c => (step text body c).map fun d => d.capture index c.place
  | .conditional n captured missing, c =>
    if (c.captured.lookup n).isSome then step text captured c else step text missing c
  | .look behind negated body, c =>
    -- Looking is atomic: only the preferred way to match counts, with what it captured.
    let found := match behind with
      | none => (step text body c).head?
      | some width =>
        if width ≤ c.place then (step text body { c with place := c.place - width }).head?
        else none
    match found with
    | some d => if negated then [] else [{ d with place := c.place }]
    | none => if negated then [c] else []
  | .atomic body, c => (step text body c).head?.toList
  | .loop least most greedy body, c =>
    distinctCursors
      (explore (step text body) ⟨least, most, greedy⟩ (least + text.size + 2) 0 true c []).1

/-- Whether a pattern matches a whole text. -/
def matchesAll (p : Pattern) (text : String) : Bool :=
  let chars := text.toList.toArray
  (step chars p ⟨0, []⟩).any fun c => c.place == chars.size

end Pattern

end ShapeForge
