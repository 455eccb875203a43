import ShapeForge.Proofs.Identifier
import ShapeForge.Value.Scalar

/-!
# Numerals of integers

The decimal numeral of an integer is read as this integer, by the lenient reader of literals
(`Numeral.integer?_toString`) and by the strict one of accessors (`Scalar.integer_toString`), unless
it has more digits than are read.
-/

namespace ShapeForge

open Naming

theorem Text.decimalValue?_of_isDigit {c : Char} (h : c.isDigit = true) :
    decimalValue? c = some (c.toNat - 48) := by
  obtain ⟨hlow, hhigh⟩ := isDigit_iff.1 h
  have hfind : (decimalRanges.find? fun e => decide (e.1 ≤ c.toNat) && decide (c.toNat ≤ e.2))
      = some (48, 57) := by
    rw [decimalRanges]
    exact List.find?_cons_of_pos (by simp [hlow, hhigh])
  change (decimalRanges.find? fun e => decide (e.1 ≤ c.toNat) && decide (c.toNat ≤ e.2)).map
    (fun e => (c.toNat - e.1) % 10) = _
  rw [hfind, Option.map_some, Option.some.injEq]
  omega

theorem Text.stripBy_of_forall {p : Char → Bool} {cs : List Char} (h : ∀ c ∈ cs, p c = false) :
    stripBy p cs = cs := by
  have hdrop : ∀ ds : List Char, (∀ c ∈ ds, p c = false) → ds.dropWhile p = ds
    | [], _ => rfl
    | d :: ds, hds => by rw [List.dropWhile_cons_of_neg (by simp [hds d])]
  rw [stripBy, hdrop cs h, hdrop _ fun c hc => h c (List.mem_reverse.1 hc), List.reverse_reverse]

namespace Numeral

/-- The digits of an integer. -/
def digitsOf (i : Int) : List Char := Nat.toDigits 10 i.natAbs

theorem isDigit_of_mem_digitsOf {i : Int} {c : Char} (h : c ∈ digitsOf i) : c.isDigit = true :=
  isDigit_of_mem_toDigits h

theorem toList_toString (i : Int) :
    (toString i).toList = if i < 0 then '-' :: digitsOf i else digitsOf i := by
  rcases i with n | n
  · rw [if_neg (by simp)]
    exact Nat.toList_repr
  · rw [if_pos (Int.negSucc_lt_zero n)]
    change ("-" ++ (n + 1).repr).toList = '-' :: Nat.toDigits 10 (n + 1)
    rw [String.toList_append, Nat.toList_repr]
    rfl

theorem takeSign_of_isDigit {d : Char} (h : d.isDigit = true) (cs : List Char) :
    takeSign (d :: cs) = (false, d :: cs) := by
  unfold takeSign
  split
  · rename_i heq
    obtain rfl := (List.cons.inj heq).1
    exact absurd h (by decide)
  · rename_i heq
    obtain rfl := (List.cons.inj heq).1
    exact absurd h (by decide)
  · rfl

theorem takeSign_of_digits {cs : List Char} (h : ∀ c ∈ cs, c.isDigit = true) :
    takeSign cs = (false, cs) := by
  rcases cs with _ | ⟨d, cs⟩
  · rfl
  · exact takeSign_of_isDigit (h d List.mem_cons_self) cs

theorem takeSign_toString (i : Int) :
    takeSign (toString i).toList = (decide (i < 0), digitsOf i) := by
  rw [toList_toString]
  by_cases hneg : i < 0
  · simp [hneg, takeSign]
  · simp [hneg, takeSign_of_digits fun _ => isDigit_of_mem_digitsOf]

/-- What follows cannot continue a run of digits. -/
def Stops (rest : List Char) : Prop := ∀ c ∈ rest.head?, Text.decimalValue? c = none ∧ c ≠ '_'

theorem takeDigits_of_stops {rest : List Char} (h : Stops rest) :
    takeDigits rest = ([], rest) := by
  rcases rest with _ | ⟨c, _ | ⟨next, rest⟩⟩
  · rfl
  · simp [takeDigits, (h c rfl).1]
  · simp [takeDigits, (h c rfl).1]

theorem takeDigits_append {rest : List Char} (hrest : Stops rest) :
    ∀ {cs : List Char}, (∀ c ∈ cs, c.isDigit = true) →
      takeDigits (cs ++ rest) = (cs.map fun c => c.toNat - 48, rest)
  | [], _ => takeDigits_of_stops hrest
  | c :: cs, h => by
    have hmore := takeDigits_append hrest fun d hd => h d (List.mem_cons_of_mem c hd)
    have hc := Text.decimalValue?_of_isDigit (h c List.mem_cons_self)
    -- Neither a digit nor what stops the run is an underscore.
    have hnext : ∀ d ∈ (cs ++ rest).head?, (d == '_') = false := by
      intro d hd
      rw [beq_eq_false_iff_ne]
      rcases cs with _ | ⟨e, cs⟩
      · exact (hrest d hd).2
      · obtain rfl : e = d := Option.some.inj hd
        rintro rfl
        exact absurd (h '_' (by simp)) (by decide)
    rw [List.cons_append]
    rcases htail : cs ++ rest with _ | ⟨d, tail⟩
    · rw [htail] at hmore
      obtain ⟨rfl, rfl⟩ := List.append_eq_nil_iff.1 htail
      simp [takeDigits, hc]
    · rw [htail] at hmore hnext
      rw [takeDigits, hc]
      simp only [hnext d rfl, hmore]
      rfl

theorem takeDigits_of_digits {cs : List Char} (h : ∀ c ∈ cs, c.isDigit = true) :
    takeDigits cs = (cs.map fun c => c.toNat - 48, []) := by
  have htake := takeDigits_append (show Stops [] by simp [Stops]) h
  rwa [List.append_nil] at htake

theorem ofDigits_digitsOf (i : Int) :
    ofDigits ((digitsOf i).map fun c => c.toNat - 48) = i.natAbs := by
  rw [ofDigits, List.foldl_map]
  exact Nat.ofDigitChars_ten_toDigits

theorem isMargin_of_isDigit {c : Char} (h : c.isDigit = true) : isMargin c = false := by
  obtain ⟨hlow, hhigh⟩ := isDigit_iff.1 h
  simp only [isMargin, Text.isBlank]
  simp
  omega

theorem integer?_toString (i : Int) : integer? (toString i)
    = if (digitsOf i).length ≤ maxIntegerDigits then some i else none := by
  have hstrip : Text.stripBy isMargin (toString i).toList = (toString i).toList := by
    refine Text.stripBy_of_forall fun c hc => ?_
    rw [toList_toString] at hc
    have hchar : c = '-' ∨ c.isDigit = true := by
      split_ifs at hc
      · exact (List.mem_cons.1 hc).imp_right isDigit_of_mem_digitsOf
      · exact .inr (isDigit_of_mem_digitsOf hc)
    rcases hchar with rfl | hdigit
    · decide
    · exact isMargin_of_isDigit hdigit
  have hsigned : signed (decide (i < 0)) i.natAbs = i := by
    unfold signed
    split_ifs with h <;> simp at h <;> omega
  have hdigits := takeDigits_of_digits fun (c : Char) (h : c ∈ digitsOf i) =>
    isDigit_of_mem_digitsOf h
  rw [integer?, hstrip, takeSign_toString]
  simp only [hdigits]
  rcases hcs : (digitsOf i).map fun c => c.toNat - 48 with _ | ⟨d, ds⟩
  · exact absurd (List.map_eq_nil_iff.1 hcs) Nat.toDigits_ne_nil
  · have hlen : (digitsOf i).length = (d :: ds).length := by rw [← hcs, List.length_map]
    have hvalue := ofDigits_digitsOf i
    rw [hcs] at hvalue
    simp only [hcs, hvalue, hsigned, hlen]

theorem toString_injective : Function.Injective (toString : Int → String) := by
  intro i j h
  have hparts := takeSign_toString i
  rw [h, takeSign_toString, Prod.mk.injEq, decide_eq_decide] at hparts
  have habs : j.natAbs = i.natAbs := toDigits_injective hparts.2
  omega

end Numeral

theorem Scalar.integer_toString (i : Int) : integer (toString i)
    = if (Numeral.digitsOf i).length ≤ Numeral.maxIntegerDigits then .ok i
      else .error .tooLong := by
  have hdigits : (Numeral.digitsOf i).all Char.isDigit = true :=
    List.all_eq_true.2 fun _ => Numeral.isDigit_of_mem_digitsOf
  have hne : (Numeral.digitsOf i).isEmpty = false :=
    List.isEmpty_eq_false_iff.2 Nat.toDigits_ne_nil
  rw [integer, Numeral.takeSign_toString, Numeral.integer?_toString]
  simp only [hdigits, hne]
  split_ifs <;> simp_all

end ShapeForge
