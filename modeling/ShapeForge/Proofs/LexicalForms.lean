import ShapeForge.Proofs.DoubleTexts

/-!
# Lexical forms

What the texts of a scalar type are and which values they stand for, as a grammar
(`ScalarType.Denotes`). An integer is a sign and digits. A real number is a sign, digits with a
point before, between or behind them, and an exponent, and stands for the nearest double; or it is
one of four words.

The reader accepts exactly these texts, but for integers with too many digits
(`ScalarType.read_ok_iff`).
-/

namespace ShapeForge

open Numeral (Stops digitValues isMargin ofDigits signed takeDigits takeSign)

/-! ## The grammar -/

namespace Scalar

/-- A sign, or nothing; true for a minus. -/
inductive Sign : List Char → Bool → Prop
  | absent : Sign [] false
  | plus : Sign ['+'] false
  | minus : Sign ['-'] true

structure Digits (cs : List Char) : Prop where
  ne_nil : cs ≠ []
  digit : ∀ c ∈ cs, c.isDigit = true

/-- The number that digits write. -/
def natOf (digits : List Char) : ℕ := ofDigits (digitValues digits)

/-- An exponent, or nothing. -/
inductive Exponent : List Char → ℤ → Prop
  | absent : Exponent [] 0
  | present {letter : Char} {sign digits : List Char} {negative : Bool} :
    letter ∈ ['e', 'E'] → Sign sign negative → Digits digits →
      Exponent (letter :: (sign ++ digits)) (signed negative (natOf digits))

/-- A decimal without a sign: its coefficient and its exponent. -/
inductive Unsigned : List Char → ℕ → ℤ → Prop
  | whole {digits tail : List Char} {e : ℤ} :
    Digits digits → Exponent tail e → Unsigned (digits ++ tail) (natOf digits) e
  | fraction {whole fraction tail : List Char} {e : ℤ} :
    Digits (whole ++ fraction) → Exponent tail e →
      Unsigned (whole ++ '.' :: (fraction ++ tail)) (natOf (whole ++ fraction))
        (e - fraction.length)

end Scalar

open Scalar

/-- A text of a type, and the value that it stands for. -/
inductive ScalarType.Denotes : ScalarType → String → ScalarValue → Prop
  | text (s : String) : Denotes .text s (.text s none)
  | integer {s : String} {sign digits : List Char} {negative : Bool} :
    s.toList = sign ++ digits → Sign sign negative → Digits digits →
      Denotes .integer s (.integer (signed negative (natOf digits)))
  | decimal {s : String} {sign cs : List Char} {negative : Bool} {c : ℕ} {e : ℤ} :
    s.toList = sign ++ cs → Sign sign negative → Unsigned cs c e →
      Denotes .real s (.real (Double.ofDecimal negative c e))
  | infinite {s : String} : s ∈ ["INF", "+INF"] → Denotes .real s (.real (.infinite false))
  | negInfinite : Denotes .real "-INF" (.real (.infinite true))
  | nan : Denotes .real "NaN" (.real .nan)
  | yes {s : String} : s ∈ ["true", "1"] → Denotes .boolean s (.boolean true)
  | no {s : String} : s ∈ ["false", "0"] → Denotes .boolean s (.boolean false)

/-- An integer has no more digits than are read. -/
def ScalarType.Fits (type : ScalarType) (s : String) : Prop :=
  type = .integer → s.toList.countP Char.isDigit ≤ Numeral.maxIntegerDigits

theorem ScalarType.fits_real (s : String) : ScalarType.Fits .real s := nofun

namespace Scalar

/-! ## Signs and digits -/

theorem exists_sign (cs : List Char) :
    ∃ sign, Sign sign (takeSign cs).1 ∧ cs = sign ++ (takeSign cs).2 := by
  unfold takeSign
  split
  · exact ⟨['-'], .minus, rfl⟩
  · exact ⟨['+'], .plus, rfl⟩
  · exact ⟨[], .absent, rfl⟩

/-- What follows a sign is no sign itself. -/
theorem takeSign_append {sign cs : List Char} {negative : Bool} (hsign : Sign sign negative)
    (hcs : takeSign cs = (false, cs)) : takeSign (sign ++ cs) = (negative, cs) := by
  cases hsign with
  | absent => exact hcs
  | plus => rfl
  | minus => rfl

theorem Digits.isEmpty {cs : List Char} (h : Digits cs) : cs.isEmpty = false :=
  List.isEmpty_eq_false_iff.2 h.ne_nil

theorem Digits.all {cs : List Char} (h : Digits cs) : cs.all Char.isDigit = true :=
  List.all_eq_true.2 h.digit

theorem digits_of_all {cs : List Char} (hne : cs.isEmpty = false)
    (hall : cs.all Char.isDigit = true) : Digits cs :=
  ⟨List.isEmpty_eq_false_iff.1 hne, List.all_eq_true.1 hall⟩

theorem Digits.takeSign {cs : List Char} (h : Digits cs) : takeSign cs = (false, cs) :=
  Numeral.takeSign_of_digits h.digit

theorem Digits.exists_cons {cs : List Char} (h : Digits cs) :
    ∃ d ds, digitValues cs = d :: ds :=
  List.exists_cons_of_ne_nil fun hnil => h.ne_nil (List.map_eq_nil_iff.1 hnil)

theorem isMargin_of_sign {sign : List Char} {negative : Bool} (h : Sign sign negative) :
    ∀ c ∈ sign, isMargin c = false := by
  cases h with
  | absent => exact List.forall_mem_nil _
  | plus => exact List.forall_mem_singleton.2 (by decide)
  | minus => exact List.forall_mem_singleton.2 (by decide)

theorem Digits.isMargin {cs : List Char} (h : Digits cs) : ∀ c ∈ cs, isMargin c = false :=
  fun c hc => Numeral.isMargin_of_isDigit (h.digit c hc)

/-! ## Integers -/

theorem integer?_of_digits {s : String} {sign digits : List Char} {negative : Bool}
    (hs : s.toList = sign ++ digits) (hsign : Sign sign negative) (hdigits : Digits digits) :
    Numeral.integer? s = if digits.length ≤ Numeral.maxIntegerDigits
      then some (signed negative (natOf digits)) else none := by
  have hstrip : Text.stripBy isMargin s.toList = sign ++ digits := by
    rw [hs]
    exact Text.stripBy_of_forall
      (List.forall_mem_append.2 ⟨isMargin_of_sign hsign, hdigits.isMargin⟩)
  have hlength : digits.length = (digitValues digits).length := by simp [digitValues]
  have htake : takeDigits digits = (digitValues digits, []) :=
    Numeral.takeDigits_of_digits hdigits.digit
  obtain ⟨d, ds, hcons⟩ := hdigits.exists_cons
  rw [Numeral.integer?, hstrip, takeSign_append hsign hdigits.takeSign, natOf, hlength]
  simp only [htake, hcons]

theorem countP_isDigit {s : String} {sign digits : List Char} {negative : Bool}
    (hs : s.toList = sign ++ digits) (hsign : Sign sign negative) (hdigits : Digits digits) :
    s.toList.countP Char.isDigit = digits.length := by
  have hnone : sign.countP Char.isDigit = 0 := by cases hsign <;> rfl
  rw [hs, List.countP_append, hnone, Nat.zero_add]
  exact List.countP_eq_length.2 hdigits.digit

theorem integer_ok_iff {s : String} {i : ℤ} :
    integer s = .ok i ↔
      ScalarType.Denotes .integer s (.integer i) ∧ ScalarType.Fits .integer s := by
  constructor
  · intro h
    obtain ⟨sign, hsign, hs⟩ := exists_sign s.toList
    rw [integer] at h
    split_ifs at h with hform
    rw [Bool.not_eq_true, Bool.or_eq_false_iff, Bool.not_eq_false'] at hform
    have hdigits := digits_of_all hform.1 hform.2
    rw [integer?_of_digits hs hsign hdigits] at h
    split_ifs at h with hlength
    · rw [← Except.ok.inj h]
      refine ⟨.integer hs hsign hdigits, fun _ => ?_⟩
      rwa [countP_isDigit hs hsign hdigits]
  · rintro ⟨h, hfits⟩
    cases h with
    | integer hs hsign hdigits =>
      have hlength := hfits rfl
      rw [countP_isDigit hs hsign hdigits] at hlength
      rw [integer, hs, takeSign_append hsign hdigits.takeSign, hdigits.isEmpty, hdigits.all,
        integer?_of_digits hs hsign hdigits, if_pos hlength]
      rfl

/-! ## Real numbers -/

theorem isExponent_iff {cs : List Char} : isExponent cs = true ↔ ∃ e, Exponent cs e := by
  constructor
  · intro h
    rcases cs with _ | ⟨letter, rest⟩
    · exact ⟨0, .absent⟩
    · obtain ⟨sign, hsign, hrest⟩ := exists_sign rest
      simp only [isExponent, Bool.and_eq_true, Bool.not_eq_true', Bool.or_eq_true, beq_iff_eq] at h
      have hletter : letter ∈ ['e', 'E'] := by simpa using h.1.1
      rw [hrest]
      exact ⟨_, .present hletter hsign (digits_of_all h.1.2 h.2)⟩
  · rintro ⟨e, h⟩
    cases h with
    | absent => rfl
    | present hletter hsign hdigits =>
      rw [isExponent, takeSign_append hsign hdigits.takeSign, hdigits.isEmpty, hdigits.all]
      simpa using hletter

/-- What follows the digits of a decimal does not go on with them. -/
theorem Exponent.head? {cs : List Char} {e : ℤ} (h : Exponent cs e) :
    ∀ c ∈ cs.head?, c ∈ ['e', 'E'] := by
  cases h with
  | absent => simp
  | present hletter _ _ => simpa using hletter

theorem stops_of_head? {cs : List Char} (h : ∀ c ∈ cs.head?, c ∈ ['.', 'e', 'E']) : Stops cs := by
  intro c hc
  have hmem := h c hc
  simp only [List.mem_cons, List.not_mem_nil, or_false] at hmem
  rcases hmem with rfl | rfl | rfl <;> decide

theorem Exponent.stops {cs : List Char} {e : ℤ} (h : Exponent cs e) : Stops cs :=
  stops_of_head? fun c hc => List.mem_cons_of_mem _ (h.head? c hc)

theorem Exponent.exponent? {cs : List Char} {e : ℤ} (h : Exponent cs e) :
    Numeral.exponent? cs = some e := by
  cases h with
  | absent => rfl
  | @present letter sign digits negative hletter hsign hdigits =>
    have hor : (letter == 'e' || letter == 'E') = true := by simpa using hletter
    have htake : takeDigits digits = (digitValues digits, []) :=
      Numeral.takeDigits_of_digits hdigits.digit
    obtain ⟨d, ds, hcons⟩ := hdigits.exists_cons
    rw [Numeral.exponent?, if_pos hor, takeSign_append hsign hdigits.takeSign, natOf]
    simp only [htake, hcons]

theorem Exponent.isMargin {cs : List Char} {e : ℤ} (h : Exponent cs e) :
    ∀ c ∈ cs, isMargin c = false := by
  cases h with
  | absent => simp
  | present hletter hsign hdigits =>
    refine List.forall_mem_cons.2
      ⟨?_, List.forall_mem_append.2 ⟨isMargin_of_sign hsign, hdigits.isMargin⟩⟩
    simp only [List.mem_cons, List.not_mem_nil, or_false] at hletter
    rcases hletter with rfl | rfl <;> decide

theorem Unsigned.decimal? {cs : List Char} {c : ℕ} {e : ℤ} (h : Unsigned cs c e) :
    Numeral.decimal? cs = some (c, e) := by
  cases h with
  | @whole digits tail e hdigits htail =>
    unfold Numeral.decimal?
    rw [Numeral.takeDigits_append htail.stops hdigits.digit]
    have hreads := htail.exponent?
    have hne := hdigits.ne_nil
    rcases tail with _ | ⟨letter, tail⟩
    · simp [hne, hreads, natOf, digitValues]
    · have hpoint : letter ≠ '.' := by
        rintro rfl
        exact absurd (htail.head? '.' rfl) (by decide)
      simp [hne, hreads, natOf, digitValues, hpoint]
  | @fraction whole fraction tail e hdigits htail =>
    have hpoint : Stops ('.' :: (fraction ++ tail)) := stops_of_head? (by simp)
    have hdigit := List.forall_mem_append.1 hdigits.digit
    unfold Numeral.decimal?
    rw [Numeral.takeDigits_append hpoint hdigit.1]
    have hne : ¬ (whole = [] ∧ fraction = []) := fun h => hdigits.ne_nil (by simp [h.1, h.2])
    simp [Numeral.takeDigits_append htail.stops hdigit.2, hne, htail.exponent?, natOf, digitValues]

/-- A decimal starts with a digit or the point. -/
theorem Unsigned.exists_head {cs : List Char} {c : ℕ} {e : ℤ} (h : Unsigned cs c e) :
    ∃ d rest, cs = d :: rest ∧ (d.isDigit = true ∨ d = '.') := by
  have hfront : ∀ {whole rest : List Char}, Digits whole →
      ∃ d rest', whole ++ rest = d :: rest' ∧ (d.isDigit = true ∨ d = '.') := by
    intro whole rest hwhole
    obtain ⟨d, ds, rfl⟩ := List.exists_cons_of_ne_nil hwhole.ne_nil
    exact ⟨d, ds ++ rest, rfl, .inl (hwhole.digit d List.mem_cons_self)⟩
  cases h with
  | whole hdigits htail => exact hfront hdigits
  | @fraction whole fraction tail e hdigits htail =>
    rcases whole with _ | ⟨d, whole⟩
    · exact ⟨'.', fraction ++ tail, rfl, .inr rfl⟩
    · exact ⟨d, _, rfl, .inl (hdigits.digit d List.mem_cons_self)⟩

theorem Unsigned.isMargin {cs : List Char} {c : ℕ} {e : ℤ} (h : Unsigned cs c e) :
    ∀ c ∈ cs, isMargin c = false := by
  cases h with
  | whole hdigits htail => exact List.forall_mem_append.2 ⟨hdigits.isMargin, htail.isMargin⟩
  | fraction hdigits htail =>
    obtain ⟨hwhole, hfraction⟩ := List.forall_mem_append.1 hdigits.isMargin
    rw [List.forall_mem_append, List.forall_mem_cons, List.forall_mem_append]
    exact ⟨hwhole, by decide, hfraction, htail.isMargin⟩

theorem Unsigned.takeSign {cs : List Char} {c : ℕ} {e : ℤ} (h : Unsigned cs c e) :
    takeSign cs = (false, cs) := by
  obtain ⟨d, rest, rfl, hd | rfl⟩ := h.exists_head
  · exact Numeral.takeSign_of_isDigit hd rest
  · rfl

/-- A decimal spells no word of letters. -/
theorem Unsigned.spells {cs : List Char} {c : ℕ} {e : ℤ} (h : Unsigned cs c e) {word : String}
    {w : Char} (hword : word.toList.head? = some w) (hdigit : w.isDigit = false) (hw : w ≠ '.') :
    Numeral.spells word cs = false := by
  obtain ⟨d, rest, rfl, hd | rfl⟩ := h.exists_head
  · exact Numeral.spells_of_isDigit hd hword hdigit
  · rw [Numeral.spells, beq_eq_false_iff_ne]
    intro heq
    rw [← heq, List.map_cons] at hword
    exact hw (Option.some.inj hword).symm

theorem double?_of_unsigned {s : String} {sign cs : List Char} {negative : Bool} {c : ℕ} {e : ℤ}
    (hs : s.toList = sign ++ cs) (hsign : Sign sign negative) (hcs : Unsigned cs c e) :
    Numeral.double? s = some (Double.ofDecimal negative c e) := by
  have hstrip : Text.stripBy isMargin s.toList = sign ++ cs := by
    rw [hs]
    exact Text.stripBy_of_forall
      (List.forall_mem_append.2 ⟨isMargin_of_sign hsign, hcs.isMargin⟩)
  rw [Numeral.double?, hstrip, takeSign_append hsign hcs.takeSign]
  dsimp only
  rw [hcs.spells rfl rfl (by decide), hcs.spells rfl rfl (by decide),
    hcs.spells rfl rfl (by decide), hcs.decimal?]
  rfl

theorem span_digits {whole rest : List Char} (hwhole : ∀ c ∈ whole, c.isDigit = true)
    (hrest : ∀ c ∈ rest.head?, c.isDigit = false) :
    (whole ++ rest).span Char.isDigit = (whole, rest) := by
  have htake : rest.takeWhile Char.isDigit = [] ∧ rest.dropWhile Char.isDigit = rest := by
    rcases rest with _ | ⟨c, rest⟩
    · exact ⟨rfl, rfl⟩
    · have hc := hrest c rfl
      simp [hc]
  rw [List.span_eq_takeWhile_dropWhile, List.takeWhile_append_of_pos hwhole,
    List.dropWhile_append_of_pos hwhole, htake.1, htake.2, List.append_nil]

theorem Exponent.not_isDigit {cs : List Char} {e : ℤ} (h : Exponent cs e) :
    ∀ c ∈ cs.head?, c.isDigit = false := by
  intro c hc
  have hmem := h.head? c hc
  simp only [List.mem_cons, List.not_mem_nil, or_false] at hmem
  rcases hmem with rfl | rfl <;> rfl

theorem isDecimalForm_of_unsigned {s : String} {sign cs : List Char} {negative : Bool} {c : ℕ}
    {e : ℤ} (hs : s.toList = sign ++ cs) (hsign : Sign sign negative) (hcs : Unsigned cs c e) :
    isDecimalForm s = true := by
  rw [isDecimalForm, hs, takeSign_append hsign hcs.takeSign]
  cases hcs with
  | @whole digits tail e hdigits htail =>
    have hexponent := isExponent_iff.2 ⟨e, htail⟩
    simp only [span_digits hdigits.digit htail.not_isDigit]
    rcases tail with _ | ⟨letter, tail⟩
    · simp [hdigits.ne_nil, hexponent]
    · have hpoint : letter ≠ '.' := by
        rintro rfl
        exact absurd (htail.head? '.' rfl) (by decide)
      simp [hdigits.ne_nil, hexponent, hpoint]
  | @fraction whole fraction tail e hdigits htail =>
    obtain ⟨hwhole, hfraction⟩ := List.forall_mem_append.1 hdigits.digit
    have hne : ¬ (whole = [] ∧ fraction = []) := fun h => hdigits.ne_nil (by simp [h.1, h.2])
    have hpoint : ∀ c ∈ ('.' :: (fraction ++ tail)).head?, c.isDigit = false := by simp
    simp only [span_digits hwhole hpoint, span_digits hfraction htail.not_isDigit,
      isExponent_iff.2 ⟨e, htail⟩]
    simpa [-not_and] using not_and_or.1 hne

theorem exists_unsigned {s : String} (h : isDecimalForm s = true) :
    ∃ sign cs negative c e, s.toList = sign ++ cs ∧ Sign sign negative ∧ Unsigned cs c e := by
  obtain ⟨sign, hsign, hs⟩ := exists_sign s.toList
  rw [isDecimalForm, List.span_eq_takeWhile_dropWhile] at h
  generalize (Numeral.takeSign s.toList).2 = cs at h hs
  have hwhole : ∀ c ∈ cs.takeWhile Char.isDigit, c.isDigit = true := fun c hc =>
    List.mem_takeWhile_imp hc
  have hcs := List.takeWhile_append_dropWhile (p := Char.isDigit) (l := cs)
  refine ⟨sign, cs, (takeSign s.toList).1, ?_⟩
  dsimp only at h
  split at h
  · rename_i rest hrest
    rw [List.span_eq_takeWhile_dropWhile] at h
    dsimp only at h
    rw [Bool.and_eq_true, isExponent_iff] at h
    obtain ⟨hne, e, htail⟩ := h
    have hdigits : Digits (cs.takeWhile Char.isDigit ++ rest.takeWhile Char.isDigit) := by
      refine ⟨fun hnil => ?_, List.forall_mem_append.2
        ⟨hwhole, fun c hc => List.mem_takeWhile_imp hc⟩⟩
      rw [List.append_eq_nil_iff] at hnil
      simp [hnil.1, hnil.2] at hne
    have hunsigned := Unsigned.fraction hdigits htail
    rw [List.takeWhile_append_dropWhile, ← hrest, hcs] at hunsigned
    exact ⟨_, _, hs, hsign, hunsigned⟩
  · rw [Bool.and_eq_true, isExponent_iff, Bool.not_eq_true'] at h
    obtain ⟨hne, e, htail⟩ := h
    have hunsigned := Unsigned.whole ⟨List.isEmpty_eq_false_iff.1 hne, hwhole⟩ htail
    rw [hcs] at hunsigned
    exact ⟨_, _, hs, hsign, hunsigned⟩

/-- A decimal is none of the words. -/
theorem ne_of_unsigned {s word : String} {sign sign' cs rest : List Char}
    {negative negative' : Bool} {c : ℕ} {e : ℤ} {w : Char} (hs : s.toList = sign ++ cs)
    (hsign : Sign sign negative) (hcs : Unsigned cs c e) (hword : word.toList = sign' ++ w :: rest)
    (hsign' : Sign sign' negative') (hw : takeSign (w :: rest) = (false, w :: rest))
    (hletter : w.isDigit = false ∧ w ≠ '.') : s ≠ word := by
  rintro rfl
  have heq := takeSign_append hsign hcs.takeSign
  rw [← hs, hword, takeSign_append hsign' hw, Prod.mk.injEq] at heq
  obtain ⟨d, rest', rfl, hd⟩ := hcs.exists_head
  obtain rfl := (List.cons.inj heq.2).1
  rcases hd with hd | hd
  · simp [hd] at hletter
  · exact hletter.2 hd

theorem real_ok_iff {s : String} {d : Double} :
    real s = .ok d ↔ ScalarType.Denotes .real s (.real d) := by
  constructor
  · intro h
    rw [real] at h
    split_ifs at h with hplus hminus hnan hform
    · obtain rfl := Except.ok.inj h
      exact .infinite (by simpa using hplus)
    · obtain rfl := Except.ok.inj h
      rw [hminus]
      exact .negInfinite
    · obtain rfl := Except.ok.inj h
      rw [hnan]
      exact .nan
    · obtain ⟨sign, cs, negative, c, e, hs, hsign, hcs⟩ := exists_unsigned hform
      rw [double?_of_unsigned hs hsign hcs] at h
      obtain rfl := Except.ok.inj h
      exact .decimal hs hsign hcs
  · intro h
    cases h with
    | decimal hs hsign hcs =>
      have hplus : s ≠ "INF" :=
        ne_of_unsigned hs hsign hcs (w := 'I') rfl .absent rfl ⟨rfl, by decide⟩
      have hplus' : s ≠ "+INF" :=
        ne_of_unsigned hs hsign hcs (w := 'I') rfl .plus rfl ⟨rfl, by decide⟩
      have hminus : s ≠ "-INF" :=
        ne_of_unsigned hs hsign hcs (w := 'I') rfl .minus rfl ⟨rfl, by decide⟩
      have hnan : s ≠ "NaN" :=
        ne_of_unsigned hs hsign hcs (w := 'N') rfl .absent rfl ⟨rfl, by decide⟩
      rw [real, isDecimalForm_of_unsigned hs hsign hcs, double?_of_unsigned hs hsign hcs]
      simp [hplus, hplus', hminus, hnan]
    | infinite hmem =>
      simp only [List.mem_cons, List.not_mem_nil, or_false] at hmem
      rcases hmem with rfl | rfl <;> rfl
    | negInfinite => rfl
    | nan => rfl

theorem boolean_ok_iff {s : String} {b : Bool} :
    boolean s = .ok b ↔ ScalarType.Denotes .boolean s (.boolean b) := by
  constructor
  · intro h
    rw [boolean] at h
    split_ifs at h with htrue hfalse
    · obtain rfl := Except.ok.inj h
      exact .yes (by simpa using htrue)
    · obtain rfl := Except.ok.inj h
      exact .no (by simpa using hfalse)
  · intro h
    cases h with
    | yes hmem =>
      simp only [List.mem_cons, List.not_mem_nil, or_false] at hmem
      rcases hmem with rfl | rfl <;> rfl
    | no hmem =>
      simp only [List.mem_cons, List.not_mem_nil, or_false] at hmem
      rcases hmem with rfl | rfl <;> rfl

end Scalar

/-- The reader accepts the texts of a type, and reads the values that they stand for. -/
theorem ScalarType.read_ok_iff {type : ScalarType} {s : String} {v : ScalarValue} :
    type.read s = .ok v ↔ type.Denotes s v ∧ type.Fits s := by
  have hmap : ∀ {α : Type} {x : Except LexicalError α} {f : α → ScalarValue},
      x.map f = .ok v ↔ ∃ a, x = .ok a ∧ f a = v := by
    intro α x f
    rcases x with e | a <;> simp [Except.map]
  cases type with
  | text =>
    rw [read, Except.ok.injEq]
    constructor
    · rintro rfl
      exact ⟨.text s, nofun⟩
    · rintro ⟨⟨⟩, -⟩
      rfl
  | integer =>
    rw [read, hmap]
    constructor
    · rintro ⟨i, hi, rfl⟩
      exact integer_ok_iff.1 hi
    · rintro ⟨h, hfits⟩
      obtain ⟨i, rfl⟩ : ∃ i, v = .integer i := by cases h with | integer => exact ⟨_, rfl⟩
      exact ⟨i, integer_ok_iff.2 ⟨h, hfits⟩, rfl⟩
  | real =>
    rw [read, hmap]
    constructor
    · rintro ⟨d, hd, rfl⟩
      exact ⟨real_ok_iff.1 hd, ScalarType.fits_real s⟩
    · rintro ⟨h, -⟩
      obtain ⟨d, rfl⟩ : ∃ d, v = .real d := by cases h <;> exact ⟨_, rfl⟩
      exact ⟨d, real_ok_iff.2 h, rfl⟩
  | boolean =>
    rw [read, hmap]
    constructor
    · rintro ⟨b, hb, rfl⟩
      exact ⟨boolean_ok_iff.1 hb, nofun⟩
    · rintro ⟨h, -⟩
      obtain ⟨b, rfl⟩ : ∃ b, v = .boolean b := by cases h <;> exact ⟨_, rfl⟩
      exact ⟨b, boolean_ok_iff.2 h, rfl⟩

theorem ScalarType.read_real_iff {s : String} {v : ScalarValue} :
    ScalarType.real.read s = .ok v ↔ ScalarType.Denotes .real s v :=
  ScalarType.read_ok_iff.trans (and_iff_left (ScalarType.fits_real s))

end ShapeForge
