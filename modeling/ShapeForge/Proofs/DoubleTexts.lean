import ShapeForge.Proofs.Numerals
import ShapeForge.Proofs.ShortestDecimals

/-!
# Texts of doubles

A written double is a run of digits, perhaps with a point and more digits, perhaps with an exponent
(`Numeral.Writes`). Wherever the point stands, the reader finds the decimal that was written
(`Shortest.Format.layout_writes`), and it rounds this decimal to the double that it was written for
(`Numeral.double?_text`).
-/

namespace ShapeForge

namespace Numeral

/-! ## Digits -/

theorem ofDigits_append (a b : List ℕ) :
    ofDigits (a ++ b) = ofDigits a * 10 ^ b.length + ofDigits b := by
  have hfold : ∀ (b : List ℕ) (n : ℕ), b.foldl (fun n d => 10 * n + d) n
      = n * 10 ^ b.length + b.foldl (fun n d => 10 * n + d) 0 := by
    intro b
    induction b with
    | nil => simp
    | cons d b ih =>
      intro n
      rw [List.foldl_cons, List.foldl_cons, ih (10 * n + d), ih (10 * 0 + d), List.length_cons,
        pow_succ]
      ring
  rw [ofDigits, List.foldl_append, hfold]
  rfl

/-- The values of digits. -/
def digitValues (cs : List Char) : List ℕ := cs.map fun c => c.toNat - 48

theorem ofDigits_toDigits (c : ℕ) : ofDigits (digitValues (Nat.toDigits 10 c)) = c :=
  ofDigits_digitsOf c

theorem digitValues_append (a b : List Char) :
    digitValues (a ++ b) = digitValues a ++ digitValues b := List.map_append

theorem digitValues_zeros (n : ℕ) : digitValues (List.replicate n '0') = List.replicate n 0 :=
  List.map_replicate

theorem ofDigits_zeros (n : ℕ) : ofDigits (List.replicate n 0) = 0 := by
  induction n with
  | zero => rfl
  | succ n ih => rw [List.replicate_succ', ofDigits_append, ih]; rfl

theorem isDigit_zeros (n : ℕ) : ∀ d ∈ List.replicate n '0', d.isDigit = true := by
  intro d hd
  rw [List.eq_of_mem_replicate hd]
  rfl

/-! ## Decimals -/

/-- A character of a written double. -/
def isPart (c : Char) : Bool := c.isDigit || ['.', 'e', '+', '-'].contains c

/-- What may follow the digits: nothing, or the exponent. -/
structure ExponentPart (tail : List Char) (e : ℤ) : Prop where
  head : ∀ c ∈ tail.head?, c = 'e'
  parts : ∀ c ∈ tail, isPart c = true
  reads : exponent? tail = some e

theorem ExponentPart.stops {tail : List Char} {e : ℤ} (h : ExponentPart tail e) :
    Stops tail := by
  intro c hc
  rw [h.head c hc]
  exact ⟨by decide, by decide⟩

theorem ExponentPart.nil : ExponentPart [] 0 := ⟨by simp, by simp, rfl⟩

/-- The characters are read as a decimal of this value, and they are those of a number. -/
structure Writes (cs : List Char) (x : ℚ) : Prop where
  head : ∃ c ∈ cs.head?, c.isDigit = true
  parts : ∀ c ∈ cs, isPart c = true
  reads : ∃ c e, decimal? cs = some (c, e) ∧ (c : ℚ) * 10 ^ e = x

theorem isPart_of_digits {cs : List Char} (h : ∀ c ∈ cs, c.isDigit = true) :
    ∀ c ∈ cs, isPart c = true := fun c hc => by simp [isPart, h c hc]

theorem decimal?_of_whole {whole tail : List Char} {e : ℤ} (hne : whole ≠ [])
    (hwhole : ∀ c ∈ whole, c.isDigit = true) (htail : ExponentPart tail e) :
    decimal? (whole ++ tail) = some (ofDigits (digitValues whole), e) := by
  have hreads := htail.reads
  unfold decimal?
  rw [takeDigits_append htail.stops hwhole]
  rcases tail with _ | ⟨c, tail⟩
  · simp [hne, hreads, digitValues]
  · obtain rfl := htail.head c rfl
    simp [hne, hreads, digitValues]

theorem decimal?_of_fraction {whole fraction tail : List Char} {e : ℤ} (hne : whole ≠ [])
    (hwhole : ∀ c ∈ whole, c.isDigit = true) (hfraction : ∀ c ∈ fraction, c.isDigit = true)
    (htail : ExponentPart tail e) :
    decimal? (whole ++ '.' :: (fraction ++ tail))
      = some (ofDigits (digitValues (whole ++ fraction)), e - fraction.length) := by
  have hpoint : Stops ('.' :: (fraction ++ tail)) := by
    intro c hc
    obtain rfl : '.' = c := Option.some.inj hc
    exact ⟨by decide, by decide⟩
  unfold decimal?
  rw [takeDigits_append hpoint hwhole]
  simp [takeDigits_append htail.stops hfraction, hne, htail.reads, digitValues]

theorem writes_whole {whole tail : List Char} {e : ℤ} (hne : whole ≠ [])
    (hwhole : ∀ c ∈ whole, c.isDigit = true) (htail : ExponentPart tail e) :
    Writes (whole ++ tail) (ofDigits (digitValues whole) * 10 ^ e) where
  head := by
    obtain ⟨c, rest, rfl⟩ := List.exists_cons_of_ne_nil hne
    exact ⟨c, rfl, hwhole c List.mem_cons_self⟩
  parts := List.forall_mem_append.2 ⟨isPart_of_digits hwhole, htail.parts⟩
  reads := ⟨_, _, decimal?_of_whole hne hwhole htail, rfl⟩

theorem writes_fraction {whole fraction tail : List Char} {e : ℤ} (hne : whole ≠ [])
    (hwhole : ∀ c ∈ whole, c.isDigit = true) (hfraction : ∀ c ∈ fraction, c.isDigit = true)
    (htail : ExponentPart tail e) :
    Writes (whole ++ '.' :: (fraction ++ tail))
      (ofDigits (digitValues (whole ++ fraction)) * 10 ^ (e - fraction.length)) where
  head := by
    obtain ⟨c, rest, rfl⟩ := List.exists_cons_of_ne_nil hne
    exact ⟨c, rfl, hwhole c List.mem_cons_self⟩
  parts := by
    rw [List.forall_mem_append, List.forall_mem_cons, List.forall_mem_append]
    exact ⟨isPart_of_digits hwhole, by decide, isPart_of_digits hfraction, htail.parts⟩
  reads := ⟨_, _, decimal?_of_fraction hne hwhole hfraction htail, rfl⟩

end Numeral

namespace Shortest

open Numeral (Writes ExponentPart digitValues ofDigits)

theorem padded_digits (width n : ℕ) : (∀ c ∈ (padded width n).toList, c.isDigit = true)
    ∧ (padded width n).toList ≠ [] ∧ ofDigits (digitValues (padded width n).toList) = n := by
  unfold padded
  dsimp only
  rw [String.toList_ofList, Numeral.digitValues_append, Numeral.ofDigits_append,
    Numeral.digitValues_zeros, Numeral.ofDigits_zeros, Numeral.ofDigits_toDigits]
  refine ⟨?_, by simp [Nat.toDigits_ne_nil], by simp⟩
  exact List.forall_mem_append.2
    ⟨Numeral.isDigit_zeros _, fun c hc => Naming.isDigit_of_mem_toDigits hc⟩

theorem exponentPart_padded (width : ℕ) (e : ℤ) : ExponentPart
    ("e" ++ (if e < 0 then "-" else "+") ++ padded width e.natAbs).toList e := by
  obtain ⟨hdigits, hne, hvalue⟩ := padded_digits width e.natAbs
  set digits := (padded width e.natAbs).toList with hdef
  have htext : ("e" ++ (if e < 0 then "-" else "+") ++ padded width e.natAbs).toList
      = 'e' :: (if e < 0 then '-' else '+') :: digits := by
    rw [String.toList_append, String.toList_append, ← hdef]
    split_ifs <;> rfl
  have hsign : Numeral.takeSign ((if e < 0 then '-' else '+') :: digits)
      = (decide (e < 0), digits) := by
    by_cases h : e < 0 <;> simp [h, Numeral.takeSign]
  have hsigned : Numeral.signed (decide (e < 0)) e.natAbs = e := by
    unfold Numeral.signed
    split_ifs with h <;> simp at h <;> omega
  rw [htext]
  refine ⟨fun c hc => (Option.some.inj hc).symm, ?_, ?_⟩
  · rw [List.forall_mem_cons, List.forall_mem_cons]
    refine ⟨by decide, ?_, Numeral.isPart_of_digits hdigits⟩
    split_ifs <;> decide
  · rw [Numeral.exponent?]
    simp only [hsign, Numeral.takeDigits_of_digits hdigits]
    rcases hcs : digits.map fun c => c.toNat - 48 with _ | ⟨d, ds⟩
    · exact absurd (List.map_eq_nil_iff.1 hcs) hne
    · rw [digitValues, hcs] at hvalue
      simp [hcs, hvalue, hsigned]

section Layout

variable {digits : List Char} (hdigits : ∀ d ∈ digits, d.isDigit = true)

include hdigits

/-- Zeros between the point and the digits. -/
theorem writes_small (zeros : ℕ) :
    Writes ('0' :: '.' :: (List.replicate zeros '0' ++ digits))
      (ofDigits (digitValues digits) * 10 ^ (-(zeros + digits.length : ℤ))) := by
  have h := Numeral.writes_fraction (List.cons_ne_nil '0' []) (Numeral.isDigit_zeros 1)
    (List.forall_mem_append.2 ⟨Numeral.isDigit_zeros zeros, hdigits⟩) ExponentPart.nil
  rw [← List.append_assoc, Numeral.digitValues_append, Numeral.ofDigits_append,
    ← List.replicate_one, ← List.replicate_add, Numeral.digitValues_zeros,
    Numeral.ofDigits_zeros, zero_mul, zero_add, List.append_nil, zero_sub, List.length_append,
    List.length_replicate] at h
  exact_mod_cast h

/-- Zeros between the digits and the point. -/
theorem writes_large (hne : digits ≠ []) (zeros : ℕ) :
    Writes (digits ++ List.replicate zeros '0' ++ ['.', '0'])
      (ofDigits (digitValues digits) * 10 ^ (zeros : ℤ)) := by
  have hvalue : (ofDigits (digitValues ((digits ++ List.replicate zeros '0') ++ ['0'])) : ℚ)
      * 10 ^ ((0 : ℤ) - ['0'].length) = ofDigits (digitValues digits) * 10 ^ (zeros : ℤ) := by
    rw [List.append_assoc, ← List.replicate_one, ← List.replicate_add, Numeral.digitValues_append,
      Numeral.ofDigits_append, Numeral.digitValues_zeros, Numeral.ofDigits_zeros, add_zero,
      List.length_replicate, List.length_replicate, Nat.cast_mul, Nat.cast_pow, Nat.cast_ofNat,
      mul_assoc, ← zpow_natCast, ← zpow_add₀ (by norm_num)]
    congr 2
    push_cast
    omega
  rw [← hvalue]
  exact Numeral.writes_fraction (by simp [hne])
    (List.forall_mem_append.2 ⟨hdigits, Numeral.isDigit_zeros zeros⟩) (Numeral.isDigit_zeros 1)
    ExponentPart.nil

/-- The point between two digits. -/
theorem writes_split {place : ℕ} (hpos : 0 < place) (hlt : place < digits.length) :
    Writes (digits.take place ++ '.' :: digits.drop place)
      (ofDigits (digitValues digits) * 10 ^ ((place : ℤ) - digits.length)) := by
  have hne : digits.take place ≠ [] := by
    rw [ne_eq, List.take_eq_nil_iff, not_or]
    exact ⟨by omega, List.ne_nil_of_length_pos (by omega)⟩
  have h := Numeral.writes_fraction hne (fun d hd => hdigits d (List.mem_of_mem_take hd))
    (fun d (hd : d ∈ digits.drop place) => hdigits d (List.mem_of_mem_drop hd)) ExponentPart.nil
  have hplace : (0 : ℤ) - (digits.drop place).length = place - digits.length := by
    rw [List.length_drop]
    omega
  rwa [List.take_append_drop, List.append_nil, hplace] at h

end Layout

/-- Wherever the point stands, the digits and the exponent are those of the decimal. -/
theorem Format.layout_writes (f : Format) (c : ℕ) (k : ℤ) :
    Writes (f.layout (Nat.toDigits 10 c) (k + (Nat.toDigits 10 c).length - 1)).toList
      (c * 10 ^ k) := by
  have hdigits : ∀ d ∈ Nat.toDigits 10 c, d.isDigit = true := fun d hd =>
    Naming.isDigit_of_mem_toDigits hd
  have hne : Nat.toDigits 10 c ≠ [] := Nat.toDigits_ne_nil
  have hvalue := Numeral.ofDigits_toDigits c
  generalize Nat.toDigits 10 c = digits at hdigits hne hvalue
  subst hvalue
  have hlen : 0 < digits.length := List.length_pos_iff.2 hne
  generalize he : k + digits.length - 1 = e
  unfold layout
  split
  · -- Without an exponent, the point stands before, behind or between the digits.
    split
    · have hk : k = -((-e - 1).toNat + digits.length : ℤ) := by omega
      rw [String.toList_append, String.toList_ofList (l := _ ++ _), hk]
      exact writes_small hdigits _
    · dsimp only
      rw [String.toList_ofList]
      by_cases hshort : digits.length ≤ e.toNat + 1
      · have hk : k = ((e.toNat + 1 - digits.length : ℕ) : ℤ) := by omega
        rw [if_pos hshort, List.take_of_length_le hshort, hk]
        exact writes_large hdigits hne _
      · have hk : k = ((e.toNat + 1 : ℕ) : ℤ) - digits.length := by omega
        rw [if_neg hshort, Nat.sub_eq_zero_of_le (by omega), List.replicate_zero, List.append_nil,
          hk]
        exact writes_split hdigits (Nat.succ_pos _) (by omega)
  · -- With one, it stands behind the first digit, if there is another.
    dsimp only
    have htail := exponentPart_padded f.exponentWidth e
    rw [String.append_assoc, String.append_assoc, String.toList_append, String.toList_ofList,
      ← String.append_assoc]
    rcases digits with _ | ⟨d, _ | ⟨next, rest⟩⟩
    · exact absurd rfl hne
    · obtain rfl : e = k := by simp at he; omega
      exact Numeral.writes_whole hne hdigits htail
    · have hk : k = e - (next :: rest).length := by simp at he ⊢; omega
      rw [hk]
      rw [List.forall_mem_cons] at hdigits
      exact Numeral.writes_fraction (List.cons_ne_nil d []) (by simpa using hdigits.1)
        hdigits.2 htail

end Shortest

/-! ## Reading back -/

namespace Numeral

theorem isMargin_of_isPart {c : Char} (h : isPart c = true) : isMargin c = false := by
  rw [isPart, Bool.or_eq_true] at h
  rcases h with hdigit | hmark
  · exact isMargin_of_isDigit hdigit
  · simp only [List.contains_iff_mem, List.mem_cons, List.not_mem_nil, or_false] at hmark
    rcases hmark with rfl | rfl | rfl | rfl <;> decide

theorem spells_of_isDigit {d w : Char} {cs : List Char} {word : String} (hd : d.isDigit = true)
    (hword : word.toList.head? = some w) (hw : w.isDigit = false) :
    spells word (d :: cs) = false := by
  rw [spells, beq_eq_false_iff_ne]
  intro heq
  rw [← heq, List.map_cons, Naming.toLower_of_isDigit hd] at hword
  obtain rfl : d = w := Option.some.inj hword
  simp [hd] at hw

/-- The sign and the digits of a number are read apart. -/
theorem double?_of_writes {text : String} {x : ℚ} (h : Writes text.toList x) (negative : Bool) :
    ∃ c e, double? ((if negative then "-" else "") ++ text)
        = some (Double.ofDecimal negative c e) ∧ (c : ℚ) * 10 ^ e = x := by
  obtain ⟨c, e, hreads, hvalue⟩ := h.reads
  obtain ⟨d, hd, hdigit⟩ := h.head
  obtain ⟨rest, hrest⟩ := List.head?_eq_some_iff.1 hd
  have htext : ((if negative then "-" else "") ++ text).toList
      = (if negative then ['-'] else []) ++ text.toList := by
    rw [String.toList_append]
    split_ifs <;> rfl
  have hstrip : Text.stripBy isMargin ((if negative then ['-'] else []) ++ text.toList)
      = (if negative then ['-'] else []) ++ text.toList := by
    refine Text.stripBy_of_forall (List.forall_mem_append.2 ⟨?_, fun c hc =>
      isMargin_of_isPart (h.parts c hc)⟩)
    rcases negative
    · exact List.forall_mem_nil _
    · exact List.forall_mem_singleton.2 (by decide)
  have hsign : takeSign ((if negative then ['-'] else []) ++ d :: rest)
      = (negative, d :: rest) := by
    rcases negative
    · exact takeSign_of_isDigit hdigit rest
    · rfl
  refine ⟨c, e, ?_, hvalue⟩
  rw [hrest] at hreads
  rw [double?, htext, hstrip, hrest, hsign]
  dsimp only
  rw [spells_of_isDigit hdigit rfl rfl, spells_of_isDigit hdigit rfl rfl,
    spells_of_isDigit hdigit rfl rfl, hreads]
  rfl

end Numeral

open Double in
/-- A finite double is read back from its text in every format. -/
theorem Shortest.Format.double?_write (f : Format) {negative : Bool} {m : ℕ} {q : ℤ}
    (h : (finite negative m q).Canonical) :
    Numeral.double? (f.write (.finite negative m q)) = some (.finite negative m q) := by
  rcases Nat.eq_zero_or_pos m with rfl | hm
  · obtain ⟨c, e, hread, hvalue⟩ := Numeral.double?_of_writes (f.layout_writes 0 0) negative
    obtain rfl : q = minExponent := h.2.2.2 (by norm_num)
    obtain rfl : c = 0 := by simpa [zpow_ne_zero] using hvalue
    exact hread
  · obtain ⟨c, e, hread, hvalue⟩ :=
      Numeral.double?_of_writes (f.layout_writes (decimal m q).1 (decimal m q).2) negative
    have hwithin := decimal_within hm h.1 h.2.1
    rw [← hvalue] at hwithin
    rw [ofDecimal_of_within h hm hwithin] at hread
    simp only [write, if_neg hm.ne']
    exact hread

theorem Numeral.canonical_of_double? {text : String} {d : Double} (h : double? text = some d) :
    d.Canonical := by
  unfold double? at h
  dsimp only at h
  split_ifs at h
  · obtain rfl := Option.some.inj h
    trivial
  · obtain rfl := Option.some.inj h
    trivial
  · obtain ⟨x, -, rfl⟩ := Option.map_eq_some_iff.1 h
    exact Double.canonical_ofDecimal _ _ _

/-- A double is read back from its text. -/
theorem Numeral.double?_text {d : Double} (h : d.Canonical) : double? d.text = some d := by
  rcases d with ⟨negative, m, q⟩ | negative | _
  · exact Shortest.Format.double?_write _ h
  · cases negative <;> decide
  · decide

end ShapeForge
