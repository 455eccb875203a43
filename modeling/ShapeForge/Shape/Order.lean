import ShapeForge.Shape.Basic

/-!
# The order of properties

Properties with an order come first, by that order; the others follow as they stand. Equal orders
keep their places. When an order is not a number the comparisons are no order any more, and the
result is that of inserting one property after the other behind an initial run, which is meant for
fewer than 64 properties.
-/

namespace ShapeForge.Shape

/-- Whether the first of two optional orders comes strictly before the second. -/
def before : Option Double → Option Double → Bool
  | some a, some b => a.compare? b == some .lt
  | some _, none => true
  | none, _ => false

/-- Whether an order is a number or absent. -/
def comparable : Option Double → Bool
  | some .nan => false
  | _ => true

/-- The place of a pivot between `low` and `high`, found by halving. -/
def insertionPoint {α : Type} (lt : α → α → Bool) (sorted : Array α) (pivot : α) :
    Nat → Nat → Nat → Nat
  | 0, low, _ => low
  | fuel + 1, low, high =>
    if low < high then
      let middle := low + (high - low) / 2
      match sorted[middle]? with
      | some x =>
        if lt pivot x then insertionPoint lt sorted pivot fuel low middle
        else insertionPoint lt sorted pivot fuel (middle + 1) high
      | none => low
    else
      low

/-- The list with a pivot put in its place. -/
def insertPivot {α : Type} (lt : α → α → Bool) (sorted : List α) (pivot : α) : List α :=
  let place := insertionPoint lt sorted.toArray pivot sorted.length 0 sorted.length
  sorted.take place ++ pivot :: sorted.drop place

/-- The length of the run at the front in which neighbours are related. -/
def runLength {α : Type} (related : α → α → Bool) : List α → Nat
  | [] => 0
  | [_] => 1
  | x :: y :: rest => if related x y then runLength related (y :: rest) + 1 else 1

/-- Inserts one element after the other behind the initial run, which is turned around if it
falls. -/
def insertAll {α : Type} (lt : α → α → Bool) (xs : List α) : List α :=
  match xs with
  | x :: y :: _ =>
    let falls := lt y x
    -- A falling run falls strictly, so turning it around keeps equal elements in place.
    let n := runLength (fun a b => lt b a == falls) xs
    let run := if falls then (xs.take n).reverse else xs.take n
    (xs.drop n).foldl (insertPivot lt) run
  | _ => xs

/-- The properties in their order. -/
def arranged (properties : List PropertyShape) : List PropertyShape :=
  if properties.all fun p => comparable p.order then
    -- Any stable sort gives this list.
    properties.mergeSort fun p q => !before q.order p.order
  else
    insertAll (fun p q => before p.order q.order) properties

end ShapeForge.Shape
