import ShapeForge.Number.Bound
import ShapeForge.Package.Loading
import ShapeForge.Proofs.DoubleTexts

/-!
# Numbers of the source

A number of the source is digits, perhaps with a minus in front, and perhaps with a fraction and an
exponent behind (`Numeral.isNumeral`). Its value is an integer if it has neither of these, and a
double otherwise (`Numeral.number?`).

Integers and finite doubles are written as such numbers and are read back as themselves, integers
up to a number of digits. Infinities and not-a-number are written as words.
-/

namespace ShapeForge

namespace Numeral

/-- Whether characters are digits, at least one. -/
def isDigits (cs : List Char) : Bool := !cs.isEmpty && cs.all Char.isDigit

/-- Whether characters are an exponent, or nothing. -/
def isExponent (cs : List Char) : Bool :=
  cs.isEmpty || cs.head?.any (fun c => c == 'e' || c == 'E') && isDigits (takeSign cs.tail).2

/-- Whether characters are a number without a sign. An integer has no zeros in front. -/
def isUnsigned (cs : List Char) : Bool :=
  let whole := cs.takeWhile Char.isDigit
  let rest := cs.dropWhile Char.isDigit
  !whole.isEmpty && (!rest.isEmpty || whole.head? != some '0' || whole == ['0'])
    && isExponent (if rest.head? = some '.' then rest.tail.dropWhile Char.isDigit else rest)

/-- Whether a text is a number of the source. -/
def isNumeral (text : String) : Bool :=
  isUnsigned (if text.toList.head? = some '-' then text.toList.tail else text.toList)

/-- The value of a number of the source. -/
def number? (text : String) : Option Bound :=
  if isNumeral text = false then none
  else if text.toList.all (fun c => c == '-' || c.isDigit) then (integer? text).map .int
  else (double? text).map .double

/-! ## Integers -/

theorem head?_toDigits_ne_zero {n : ℕ} (h : 0 < n) : (Nat.toDigits 10 n).head? ≠ some '0' := by
  induction n using Nat.strongRecOn with
  | ind n ih =>
    rw [Nat.toDigits_eq_if (by decide)]
    split_ifs with hlt
    · simpa using h.ne'
    · rw [List.head?_append_of_ne_nil _ Nat.toDigits_ne_nil]
      exact ih (n / 10) (Nat.div_lt_self h (by decide)) (Nat.div_pos (not_lt.1 hlt) (by decide))

theorem isUnsigned_digitsOf (i : ℤ) : isUnsigned (digitsOf i) = true := by
  have hdigits : ∀ c ∈ digitsOf i, c.isDigit = true := fun c hc => isDigit_of_mem_digitsOf hc
  have hne : digitsOf i ≠ [] := Nat.toDigits_ne_nil
  have hzero : (digitsOf i).head? ≠ some '0' ∨ digitsOf i = ['0'] := by
    rcases Nat.eq_zero_or_pos i.natAbs with h | h
    · exact .inr (by rw [digitsOf, h]; rfl)
    · exact .inl (head?_toDigits_ne_zero h)
  rw [isUnsigned, List.takeWhile_eq_self_iff.2 hdigits, List.dropWhile_eq_nil_iff.2 hdigits]
  simpa [isExponent, hne] using hzero

/-- What follows a sign decides whether a text is a number. -/
theorem isNumeral_sign_append {text : String} {d : Char} (h : text.toList.head? = some d)
    (hdigit : d.isDigit = true) (negative : Bool) :
    isNumeral ((if negative then "-" else "") ++ text) = isUnsigned text.toList := by
  have hne : text.toList.head? ≠ some '-' := by
    rintro heq
    obtain rfl := Option.some.inj (h.symm.trans heq)
    exact absurd hdigit (by decide)
  rw [isNumeral, String.toList_append]
  cases negative
  · simp [hne]
  · simp

theorem isNumeral_toString (i : ℤ) : isNumeral (toString i) = true := by
  have htext : toString i
      = (if decide (i < 0) then "-" else "") ++ String.ofList (digitsOf i) := by
    rw [← String.toList_inj, toList_toString, String.toList_append, String.toList_ofList]
    by_cases h : i < 0 <;> simp [h]
  obtain ⟨d, ds, hds⟩ : ∃ d ds, digitsOf i = d :: ds :=
    List.exists_cons_of_ne_nil Nat.toDigits_ne_nil
  have hdigit : d.isDigit = true := isDigit_of_mem_digitsOf (hds ▸ List.mem_cons_self)
  rw [htext, isNumeral_sign_append (d := d) (by simp [hds]) hdigit, String.toList_ofList]
  exact isUnsigned_digitsOf i

/-- An integer is read back if it does not have too many digits. -/
theorem number?_toString (i : ℤ) : number? (toString i)
    = if (digitsOf i).length ≤ maxIntegerDigits then some (.int i) else none := by
  have hinteger : (toString i).toList.all (fun c => c == '-' || c.isDigit) = true := by
    have hdigits : ∀ c ∈ digitsOf i, (c == '-' || c.isDigit) = true := fun c hc => by
      simp [isDigit_of_mem_digitsOf hc]
    rw [List.all_eq_true, toList_toString]
    split_ifs
    · exact List.forall_mem_cons.2 ⟨rfl, hdigits⟩
    · exact hdigits
  rw [number?, isNumeral_toString, if_neg (by decide), if_pos hinteger, integer?_toString]
  split_ifs <;> rfl

/-! ## Doubles -/

theorem takeDigits_of_parts {cs : List Char} (h : ∀ c ∈ cs, isPart c = true) :
    takeDigits cs = (digitValues (cs.takeWhile Char.isDigit), cs.dropWhile Char.isDigit) := by
  have hmark {c : Char} (hc : c ∈ ['.', 'e', '+', '-']) :
      Text.decimalValue? c = none ∧ c ≠ '_' := by
    simp only [List.mem_cons, List.not_mem_nil, or_false] at hc
    rcases hc with rfl | rfl | rfl | rfl <;> decide
  have hstops : Stops (cs.dropWhile Char.isDigit) := by
    intro c hc
    have hpart := h c (List.dropWhile_subset _ (List.mem_of_mem_head? hc))
    have hdigit := List.head?_dropWhile_not Char.isDigit cs
    rw [hc] at hdigit
    rw [isPart, hdigit, Bool.false_or, List.contains_iff_mem] at hpart
    exact hmark hpart
  have htake := takeDigits_append hstops fun c (hc : c ∈ cs.takeWhile Char.isDigit) =>
    List.mem_takeWhile_imp hc
  rwa [List.takeWhile_append_dropWhile] at htake

theorem takeSign_subset (cs : List Char) : (takeSign cs).2 ⊆ cs := by
  unfold takeSign
  split <;> simp

theorem isExponent_of_exponent? {cs : List Char} {e : ℤ} (hparts : ∀ c ∈ cs, isPart c = true)
    (h : exponent? cs = some e) : isExponent cs = true := by
  rcases cs with _ | ⟨c, cs⟩
  · rfl
  have hdigits := takeDigits_of_parts fun d hd =>
    hparts d (List.mem_cons_of_mem c (takeSign_subset cs hd))
  rw [exponent?] at h
  split_ifs at h with hletter
  · simp only [hdigits] at h
    split at h
    · cases h
    · rename_i values hne heq
      rw [Prod.mk.injEq] at heq
      obtain ⟨rfl, hrest⟩ := heq
      have hall := List.dropWhile_eq_nil_iff.1 hrest
      rw [List.takeWhile_eq_self_iff.2 hall] at hne
      have hnil : (takeSign cs).2 ≠ [] := fun hnil => hne (by rw [hnil]; rfl)
      simpa [isExponent, hletter, isDigits, hnil] using hall
    · cases h

theorem isUnsigned_of_writes {cs : List Char} {x : ℚ} (h : Writes cs x)
    (hmark : ∃ c ∈ cs, c.isDigit = false) : isUnsigned cs = true := by
  obtain ⟨d, hd, hdigit⟩ := h.head
  obtain ⟨c, e, hreads, -⟩ := h.reads
  have hwhole : cs.takeWhile Char.isDigit ≠ [] := by
    obtain ⟨rest, rfl⟩ := List.head?_eq_some_iff.1 hd
    simp [hdigit]
  have hrest : cs.dropWhile Char.isDigit ≠ [] := by
    obtain ⟨mark, hmem, hmark⟩ := hmark
    rw [Ne, List.dropWhile_eq_nil_iff]
    intro hall
    simp [hall mark hmem] at hmark
  have hparts : ∀ c ∈ cs.dropWhile Char.isDigit, isPart c = true := fun c hc =>
    h.parts c (List.dropWhile_subset _ hc)
  have hexponent : isExponent (if (cs.dropWhile Char.isDigit).head? = some '.'
      then (cs.dropWhile Char.isDigit).tail.dropWhile Char.isDigit
      else cs.dropWhile Char.isDigit) = true := by
    unfold decimal? at hreads
    rw [takeDigits_of_parts h.parts] at hreads
    rcases hcs : cs.dropWhile Char.isDigit with _ | ⟨mark, rest⟩
    · rfl
    rw [hcs] at hparts hreads
    rw [List.forall_mem_cons] at hparts
    by_cases hpoint : mark = '.'
    · subst hpoint
      simp only [takeDigits_of_parts hparts.2] at hreads
      rw [Option.ite_none_left_eq_some] at hreads
      obtain ⟨_, hexponent, -⟩ := Option.map_eq_some_iff.1 hreads.2
      exact isExponent_of_exponent? (fun c hc => hparts.2 c (List.dropWhile_subset _ hc)) hexponent
    · rw [if_neg (by simpa using hpoint)]
      simp [hpoint] at hreads
      exact isExponent_of_exponent? (List.forall_mem_cons.2 hparts) hreads.2.1
  rw [isUnsigned, hexponent]
  simp [hwhole, hrest]

end Numeral

/-- A written double has a point or an exponent. -/
theorem Shortest.Format.exists_mark (f : Format) (digits : List Char) (e : ℤ) :
    ∃ c ∈ (f.layout digits e).toList, c = '.' ∨ c = 'e' := by
  unfold layout
  split_ifs
  · exact ⟨'.', by simp, .inl rfl⟩
  · exact ⟨'.', by simp, .inl rfl⟩
  all_goals exact ⟨'e', by simp, .inr rfl⟩

namespace Double

/-- A finite double is written as a sign and a number with a point or an exponent. -/
theorem exists_writes (negative : Bool) (m : ℕ) (q : ℤ) : ∃ (text : String) (x : ℚ),
    Numeral.Writes text.toList x ∧ (∃ c ∈ text.toList, c = '.' ∨ c = 'e')
      ∧ (finite negative m q).text = (if negative then "-" else "") ++ text := by
  rw [text, Shortest.Format.write]
  by_cases hm : m = 0
  · rw [if_pos hm]
    exact ⟨_, _, Shortest.Format.layout_writes .source 0 0, Shortest.Format.exists_mark ..,
      rfl⟩
  · rw [if_neg hm]
    exact ⟨_, _, Shortest.Format.layout_writes .source (Shortest.decimal m q).1
      (Shortest.decimal m q).2, Shortest.Format.exists_mark .., rfl⟩

theorem isNumeral_text (negative : Bool) (m : ℕ) (q : ℤ) :
    Numeral.isNumeral (finite negative m q).text = true := by
  obtain ⟨text, x, hwrites, ⟨c, hc, hmark⟩, htext⟩ := exists_writes negative m q
  obtain ⟨d, hd, hdigit⟩ := hwrites.head
  rw [htext, Numeral.isNumeral_sign_append hd hdigit]
  exact Numeral.isUnsigned_of_writes hwrites ⟨c, hc, by rcases hmark with rfl | rfl <;> rfl⟩

/-- A finite double is read back. -/
theorem number?_text {negative : Bool} {m : ℕ} {q : ℤ} (h : (finite negative m q).Canonical) :
    Numeral.number? (finite negative m q).text = some (.double (finite negative m q)) := by
  have hdouble : ¬ (finite negative m q).text.toList.all (fun c => c == '-' || c.isDigit) := by
    obtain ⟨text, x, -, ⟨c, hc, hmark⟩, htext⟩ := exists_writes negative m q
    rw [htext, String.toList_append, List.all_eq_true]
    intro hall
    have hinteger := hall c (List.mem_append_right _ hc)
    rcases hmark with rfl | rfl <;> exact absurd hinteger (by decide)
  rw [Numeral.number?, isNumeral_text, if_neg (by decide), if_neg hdouble, Numeral.double?_text h]
  rfl

end Double

namespace Bound

/-- Exactly the finite numbers are written as numbers. -/
theorem isNumeral_source (b : Bound) : Numeral.isNumeral b.source = b.isFinite := by
  rcases b with i | ⟨negative, m, q⟩ | negative | _
  · exact Numeral.isNumeral_toString i
  · exact Double.isNumeral_text negative m q
  · cases negative <;> decide
  · decide

/-- What is not finite is written as one of three words. -/
theorem source_of_not_isFinite {b : Bound} (h : b.isFinite = false) :
    b.source ∈ ["inf", "-inf", "nan"] := by
  rcases b with i | ⟨negative, m, q⟩ | negative | _
  · cases h
  · cases h
  · cases negative <;> decide
  · decide

end Bound

end ShapeForge
