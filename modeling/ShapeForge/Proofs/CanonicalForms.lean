import Mathlib.Data.List.DropRight
import ShapeForge.Proofs.LexicalForms
import ShapeForge.Proofs.SourceNumbers
import ShapeForge.Rdf.Literal

/-!
# Canonical forms

A literal of a known datatype has the canonical text of its value. So it keeps a text exactly if the
text is canonical already or stands for no value (`Rdf.DatatypeFamily.Keeps`): an integer as it is
printed, a decimal without exponent and needless zeros (`Decimal.PlainForm`), a text without line
breaks, or a token with single spaces between its words (`Rdf.IsToken`). What the other datatypes
keep is up to them (`Rdf.Keeps`).
-/

namespace ShapeForge

open Numeral (digitValues ofDigits)
open Scalar (Digits natOf)

/-! ## Blanks -/

namespace Text

variable {p : Char → Bool} {cs : List Char}

theorem stripBy_eq (p : Char → Bool) (cs : List Char) :
    stripBy p cs = (cs.dropWhile p).rdropWhile p := rfl

theorem mem_of_mem_stripBy {c : Char} (h : c ∈ stripBy p cs) : c ∈ cs := by
  rw [stripBy_eq] at h
  exact (List.dropWhile_suffix p).subset ((List.rdropWhile_prefix p _).subset h)

theorem head?_stripBy : ∀ c ∈ (stripBy p cs).head?, p c = false := by
  intro c hc
  rw [stripBy_eq] at hc
  obtain ⟨rest, hrest⟩ := List.rdropWhile_prefix p (cs.dropWhile p)
  rcases hstrip : (cs.dropWhile p).rdropWhile p with _ | ⟨d, ds⟩
  · simp [hstrip] at hc
  · rw [hstrip] at hc hrest
    obtain rfl : d = c := Option.some.inj hc
    have hhead := List.head?_dropWhile_not p cs
    rw [← hrest] at hhead
    simpa using hhead

theorem getLast?_stripBy : ∀ c ∈ (stripBy p cs).getLast?, p c = false := by
  intro c hc
  rw [stripBy_eq] at hc
  obtain ⟨hne, rfl⟩ := List.mem_getLast?_eq_getLast hc
  simpa using List.rdropWhile_last_not p _ hne

theorem stripBy_eq_self (hfront : ∀ c ∈ cs.head?, p c = false)
    (hback : ∀ c ∈ cs.getLast?, p c = false) : stripBy p cs = cs := by
  have hdrop : cs.dropWhile p = cs := by
    rcases cs with _ | ⟨c, cs⟩
    · rfl
    · exact List.dropWhile_cons_of_neg (by simp [hfront c rfl])
  rw [stripBy_eq, hdrop, List.rdropWhile_eq_self_iff]
  intro hne
  simp [hback _ (List.getLast?_eq_some_getLast hne)]

end Text

namespace Rdf

theorem toList_spaced (s : String) : (spaced s).toList
    = s.toList.map fun c => if c = '\t' || c = '\n' || c = '\r' then ' ' else c := by
  rw [spaced, String.toList_map]

/-- The characters that are made spaces. -/
def breaks : List Char := ['\t', '\n', '\r']

theorem not_mem_breaks_of_mem_spaced {s : String} {c : Char} (h : c ∈ (spaced s).toList) :
    c ∉ breaks := by
  rw [toList_spaced, List.mem_map] at h
  obtain ⟨d, -, rfl⟩ := h
  split_ifs with hd
  · decide
  · simpa [breaks, not_or, and_assoc] using hd

theorem spaced_eq_self {s : String} (h : ∀ c ∈ s.toList, c ∉ breaks) : spaced s = s := by
  rw [← String.toList_inj, toList_spaced]
  refine (List.map_congr_left fun c hc => if_neg ?_).trans (List.map_id _)
  simpa [breaks, not_or, and_assoc] using h c hc

/-- Two spaces do not stand side by side. -/
def Apart (a b : Char) : Prop := ¬ (a = ' ' ∧ b = ' ')

theorem head?_squeezeSpaces (cs : List Char) : (squeezeSpaces cs).head? = cs.head? := by
  fun_induction squeezeSpaces cs with
  | case1 rest ih => simpa using ih
  | case2 c rest _ _ => rfl
  | case3 => rfl

theorem getLast?_squeezeSpaces (cs : List Char) :
    (squeezeSpaces cs).getLast? = cs.getLast? := by
  fun_induction squeezeSpaces cs with
  | case1 rest ih => simpa using ih
  | case2 c rest _ ih => rw [List.getLast?_cons, List.getLast?_cons, ih]
  | case3 => rfl

theorem mem_of_mem_squeezeSpaces {c : Char} {cs : List Char} (h : c ∈ squeezeSpaces cs) :
    c ∈ cs := by
  fun_induction squeezeSpaces cs with
  | case1 rest ih => exact List.mem_cons_of_mem _ (ih h)
  | case2 d rest _ ih =>
    rcases List.mem_cons.1 h with rfl | h
    · exact List.mem_cons_self
    · exact List.mem_cons_of_mem _ (ih h)
  | case3 => exact h

theorem isChain_squeezeSpaces (cs : List Char) : (squeezeSpaces cs).IsChain Apart := by
  fun_induction squeezeSpaces cs with
  | case1 rest ih => exact ih
  | case2 c rest hne ih =>
    rw [List.isChain_cons]
    refine ⟨fun d hd => ?_, ih⟩
    rintro ⟨rfl, rfl⟩
    rw [head?_squeezeSpaces] at hd
    rcases rest with _ | ⟨e, rest⟩
    · simp at hd
    · obtain rfl : e = ' ' := Option.some.inj hd
      exact hne _ rfl rfl
  | case3 => exact .nil

theorem squeezeSpaces_eq_self {cs : List Char} (h : cs.IsChain Apart) : squeezeSpaces cs = cs := by
  fun_induction squeezeSpaces cs with
  | case1 rest ih => exact absurd ⟨rfl, rfl⟩ (List.isChain_cons_cons.1 h).1
  | case2 c rest _ ih => rw [ih h.tail]
  | case3 => rfl

/-- Words with single spaces between them. -/
structure IsToken (s : String) : Prop where
  unbroken : ∀ c ∈ s.toList, c ∉ breaks
  front : ∀ c ∈ s.toList.head?, Text.isBlank c = false
  back : ∀ c ∈ s.toList.getLast?, Text.isBlank c = false
  apart : s.toList.IsChain Apart

theorem isToken_tokenText (s : String) : IsToken (tokenText s) := by
  constructor
  all_goals rw [tokenText, String.toList_ofList]
  · intro c hc
    exact not_mem_breaks_of_mem_spaced (Text.mem_of_mem_stripBy (mem_of_mem_squeezeSpaces hc))
  · rw [head?_squeezeSpaces]
    exact Text.head?_stripBy
  · rw [getLast?_squeezeSpaces]
    exact Text.getLast?_stripBy
  · exact isChain_squeezeSpaces _

theorem IsToken.tokenText_eq {s : String} (h : IsToken s) : tokenText s = s := by
  rw [tokenText, spaced_eq_self h.unbroken, Text.strip, Text.stripBy_eq_self h.front h.back,
    squeezeSpaces_eq_self h.apart, String.ofList_toList]

end Rdf

/-! ## Digits -/

namespace Scalar

theorem natOf_append_singleton (cs : List Char) (d : Char) :
    natOf (cs ++ [d]) = 10 * natOf cs + (d.toNat - 48) := by
  rw [natOf, Numeral.digitValues_append, Numeral.ofDigits_append, natOf]
  simp [digitValues, ofDigits, mul_comm]

theorem digitChar_of_isDigit {d : Char} (h : d.isDigit = true) :
    (d.toNat - 48).digitChar = d ∧ d.toNat - 48 < 10 := by
  obtain ⟨hlow, hhigh⟩ := Naming.isDigit_iff.1 h
  refine ⟨?_, by omega⟩
  rw [← Char.toNat_inj]
  interval_cases d.toNat <;> rfl

theorem Digits.append {cs places : List Char} (hcs : Digits cs) (hplaces : Digits places) :
    Digits (cs ++ places) :=
  ⟨List.append_ne_nil_of_left_ne_nil hcs.ne_nil _,
    List.forall_mem_append.2 ⟨hcs.digit, hplaces.digit⟩⟩

/-- Digits are the numeral of their number, with zeros in front. -/
theorem zeros_append_toDigits {cs : List Char} (h : Digits cs) :
    List.replicate (cs.length - (Nat.toDigits 10 (natOf cs)).length) '0'
      ++ Nat.toDigits 10 (natOf cs) = cs := by
  obtain ⟨hne, hdigit⟩ := h
  induction cs using List.reverseRecOn with
  | nil => exact absurd rfl hne
  | append_singleton cs d ih =>
    obtain ⟨hd, hlt⟩ := digitChar_of_isDigit (hdigit d (by simp))
    rw [natOf_append_singleton, Nat.toDigits_eq_if (by decide)]
    rcases List.eq_nil_or_concat cs with rfl | hcs
    · simp [natOf, digitValues, ofDigits, hlt, hd]
    · have hcs : cs ≠ [] := by
        obtain ⟨_, _, rfl⟩ := hcs
        simp
      have hmore := ih hcs fun c hc => hdigit c (List.mem_append_left _ hc)
      have hlength : (Nat.toDigits 10 (natOf cs)).length ≤ cs.length := by
        have hsum := congrArg List.length hmore
        rw [List.length_append] at hsum
        omega
      have hpos : 0 < cs.length := List.length_pos_of_ne_nil hcs
      split_ifs with hsmall
      · -- All digits but the last are zeros.
        have hzero : natOf cs = 0 := by omega
        rw [hzero] at hmore
        have hone : Nat.toDigits 10 0 = ['0'] := rfl
        rw [hone, ← List.replicate_one, List.replicate_append_replicate] at hmore
        rw [hzero, Nat.mul_zero, Nat.zero_add, hd]
        refine congrArg (· ++ [d]) (Eq.trans ?_ hmore)
        congr 1
        rw [List.length_append, List.length_singleton, List.length_replicate]
        omega
      · have hdiv : (10 * natOf cs + (d.toNat - 48)) / 10 = natOf cs := by omega
        have hmod : (10 * natOf cs + (d.toNat - 48)) % 10 = d.toNat - 48 := by omega
        rw [hdiv, hmod, hd, ← List.append_assoc]
        refine congrArg (· ++ [d]) (Eq.trans ?_ hmore)
        simp

/-- Digits without a needless zero. -/
structure Whole (cs : List Char) : Prop extends Digits cs where
  lead : cs.head? = some '0' → cs = ['0']

theorem whole_toDigits (n : ℕ) : Whole (Nat.toDigits 10 n) where
  ne_nil := Nat.toDigits_ne_nil
  digit := fun _ hc => Naming.isDigit_of_mem_toDigits hc
  lead := by
    intro h
    rcases Nat.eq_zero_or_pos n with rfl | hpos
    · rfl
    · exact absurd h (Numeral.head?_toDigits_ne_zero hpos)

theorem Whole.toDigits_natOf {cs : List Char} (h : Whole cs) : Nat.toDigits 10 (natOf cs) = cs := by
  have hpad := zeros_append_toDigits h.toDigits
  rcases hzeros : cs.length - (Nat.toDigits 10 (natOf cs)).length with _ | zeros
  · simpa [hzeros] using hpad
  · -- A zero in front would be the only digit.
    have hlead : cs = ['0'] := by
      refine h.lead ?_
      rw [← hpad, hzeros]
      rfl
    subst hlead
    rfl

end Scalar

open Scalar (Whole)

/-! ## Decimals -/

namespace Decimal

/-- The plain texts without a sign: no exponent, no needless zero in front, and digits on both sides
of the point; or words. -/
inductive PlainForm : List Char → Prop
  | whole {cs : List Char} : Whole cs → PlainForm cs
  | fraction {cs places : List Char} : Whole cs → Digits places →
    PlainForm (cs ++ '.' :: places)
  | infinity : PlainForm "Infinity".toList
  | nan {word payload : List Char} : word ∈ ["NaN".toList, "sNaN".toList] →
    payload = [] ∨ Whole payload ∧ payload ≠ ['0'] → PlainForm (word ++ payload)

/-- A text with a minus in front, or without. -/
def signedText (negative : Bool) (cs : List Char) : String :=
  (if negative then "-" else "") ++ String.ofList cs

/-- A decimal as it is printed. -/
def IsPlain (s : String) : Prop := ∃ negative cs, PlainForm cs ∧ s = signedText negative cs

theorem withPoint_zero {digits : List Char} (hne : digits ≠ []) : withPoint digits 0 = digits := by
  have hlength : 0 + 1 - digits.length = 0 := by
    have := List.length_pos_of_ne_nil hne
    omega
  simp [withPoint, hlength]

/-- The point is put back where it was. -/
theorem withPoint_natOf {cs places : List Char} (hcs : Whole cs) (hplaces : Digits places) :
    withPoint (Nat.toDigits 10 (natOf (cs ++ places))) places.length = cs ++ '.' :: places := by
  have hdigits : Digits (cs ++ places) := hcs.toDigits.append hplaces
  have hpad : List.replicate (places.length + 1 - (Nat.toDigits 10 (natOf (cs ++ places))).length)
      '0' ++ Nat.toDigits 10 (natOf (cs ++ places)) = cs ++ places := by
    by_cases hzero : cs.head? = some '0'
    · have hzeros := Scalar.zeros_append_toDigits hdigits
      rw [hcs.lead hzero] at hzeros ⊢
      rwa [List.length_append, List.length_singleton, Nat.add_comm] at hzeros
    · have hwhole : Whole (cs ++ places) := by
        refine ⟨hdigits, fun hlead => absurd hlead ?_⟩
        rwa [List.head?_append_of_ne_nil _ hcs.ne_nil]
      have hlength := List.length_pos_of_ne_nil hcs.ne_nil
      have hnone : places.length + 1 - (cs ++ places).length = 0 := by
        rw [List.length_append]
        omega
      rw [hwhole.toDigits_natOf, hnone, List.replicate_zero, List.nil_append]
  simp only [withPoint, hpad]
  simp [hplaces.ne_nil]

theorem plainForm_withPoint (c places : ℕ) : PlainForm (withPoint (Nat.toDigits 10 c) places) := by
  have hwhole := Scalar.whole_toDigits c
  rcases Nat.eq_zero_or_pos places with rfl | hpos
  · rw [withPoint_zero hwhole.ne_nil]
    exact .whole hwhole
  · simp only [withPoint, hpos.ne', if_false]
    generalize hzeros : places + 1 - (Nat.toDigits 10 c).length = zeros
    generalize hdigits : List.replicate zeros '0' ++ Nat.toDigits 10 c = digits
    have hlength : digits.length = zeros + (Nat.toDigits 10 c).length := by
      rw [← hdigits, List.length_append, List.length_replicate]
    have hall : ∀ d ∈ digits, d.isDigit = true := by
      rw [← hdigits]
      exact List.forall_mem_append.2 ⟨Numeral.isDigit_zeros zeros, hwhole.digit⟩
    have htake : (digits.take (digits.length - places)).length = digits.length - places := by
      rw [List.length_take]
      omega
    have hdrop : (digits.drop (digits.length - places)).length = places := by
      rw [List.length_drop]
      omega
    refine .fraction ⟨⟨?_, fun d hd => hall d (List.mem_of_mem_take hd)⟩, ?_⟩
      ⟨?_, fun d hd => hall d (List.mem_of_mem_drop hd)⟩
    · refine List.ne_nil_of_length_pos ?_
      omega
    · intro hhead
      rcases Nat.eq_zero_or_pos zeros with rfl | hzero
      · -- Without padding the number would be zero, which needs padding.
        rw [List.replicate_zero, List.nil_append] at hdigits
        have hlead : (Nat.toDigits 10 c).head? = some '0' := by
          rw [← hhead, List.head?_take, hdigits, if_neg (by omega)]
        have hone : (Nat.toDigits 10 c).length = 1 := by rw [hwhole.lead hlead]; rfl
        omega
      · have hone : (digits.take (digits.length - places)).length = 1 := by omega
        obtain ⟨d, hd⟩ := List.length_eq_one_iff.1 hone
        rw [hd] at hhead ⊢
        rw [Option.some.inj hhead]
    · refine List.ne_nil_of_length_pos ?_
      omega

/-- The digits behind a not-a-number. -/
def payloadText (n : ℕ) : List Char := if n = 0 then [] else Nat.toDigits 10 n

theorem payloadText_form (n : ℕ) :
    payloadText n = [] ∨ Whole (payloadText n) ∧ payloadText n ≠ ['0'] := by
  by_cases hn : n = 0
  · exact .inl (if_pos hn)
  · refine .inr ⟨?_, fun hzero => ?_⟩
    · rw [payloadText, if_neg hn]
      exact Scalar.whole_toDigits n
    · rw [payloadText, if_neg hn] at hzero
      have hhead := Numeral.head?_toDigits_ne_zero (Nat.pos_of_ne_zero hn)
      rw [hzero] at hhead
      exact hhead rfl

theorem payloadText_natOf {payload : List Char}
    (h : payload = [] ∨ Whole payload ∧ payload ≠ ['0']) :
    payloadText (natOf payload) = payload := by
  rcases h with rfl | ⟨hwhole, hne⟩
  · rfl
  · rw [payloadText, if_neg, hwhole.toDigits_natOf]
    intro hzero
    have hdigits := hwhole.toDigits_natOf
    rw [hzero] at hdigits
    exact hne hdigits.symm

theorem plain_nan (negative signaling : Bool) (n : ℕ) : (nan negative signaling n).plain
    = signedText negative ((if signaling then "sNaN" else "NaN").toList ++ payloadText n) := by
  rw [← String.toList_inj]
  by_cases hn : n = 0
  · simp [plain, signedText, payloadText, hn]
  · simp [plain, signedText, payloadText, hn]

theorem isPlain_plain (d : Decimal) : IsPlain d.plain := by
  cases d with
  | finite negative c e =>
    unfold plain
    by_cases he : e ≤ 0
    · simp only [if_pos he]
      exact ⟨negative, _, plainForm_withPoint c (-e).toNat, rfl⟩
    by_cases hc : c = 0
    · simp only [if_neg he, if_pos hc]
      exact ⟨negative, ['0'], .whole (Scalar.whole_toDigits 0), rfl⟩
    · simp only [if_neg he, if_neg hc]
      refine ⟨negative, _, .whole ⟨⟨?_, ?_⟩, ?_⟩, rfl⟩
      · simp [Nat.toDigits_ne_nil]
      · exact List.forall_mem_append.2
          ⟨(Scalar.whole_toDigits c).digit, Numeral.isDigit_zeros _⟩
      · rw [List.head?_append_of_ne_nil _ Nat.toDigits_ne_nil]
        exact fun h => absurd h (Numeral.head?_toDigits_ne_zero (Nat.pos_of_ne_zero hc))
  | infinite negative =>
    refine ⟨negative, _, .infinity, ?_⟩
    cases negative <;> rfl
  | nan negative signaling payload =>
    refine ⟨negative, _, .nan ?_ (payloadText_form payload), plain_nan negative signaling payload⟩
    cases signaling <;> simp

/-! ### Reading plain texts -/

/-- Characters that the reader of decimals does not leave out. -/
def isKept (c : Char) : Bool := !Text.isBlank c && c != '_'

theorem all_isKept_of_digits {cs : List Char} (h : ∀ c ∈ cs, c.isDigit = true) :
    cs.all isKept = true := by
  rw [List.all_eq_true]
  intro c hc
  obtain ⟨hlow, hhigh⟩ := Naming.isDigit_iff.1 (h c hc)
  have hblank : Text.isBlank c = false := by
    simp only [Text.isBlank, Bool.or_eq_false_iff, Bool.and_eq_false_imp, decide_eq_true_eq,
      decide_eq_false_iff_not, not_le, beq_eq_false_iff_ne, ne_eq]
    omega
  have hunderscore : c ≠ '_' := by
    rintro rfl
    exact absurd (h '_' hc) (by decide)
  simp [isKept, hblank, hunderscore]

theorem PlainForm.all_isKept {cs : List Char} (h : PlainForm cs) : cs.all isKept = true := by
  cases h with
  | whole hcs => exact all_isKept_of_digits hcs.digit
  | fraction hcs hplaces =>
    have hpoint : isKept '.' = true := by decide
    rw [List.all_append, List.all_cons, all_isKept_of_digits hcs.digit,
      all_isKept_of_digits hplaces.digit, hpoint]
    rfl
  | infinity => decide
  | @nan word payload hword hpayload =>
    have hletters : word.all isKept = true := by
      revert word
      decide
    rw [List.all_append, hletters, Bool.true_and]
    rcases hpayload with rfl | ⟨hwhole, -⟩
    · rfl
    · exact all_isKept_of_digits hwhole.digit

theorem PlainForm.takeSign {cs : List Char} (h : PlainForm cs) :
    Numeral.takeSign cs = (false, cs) := by
  cases h with
  | whole hcs => exact hcs.takeSign
  | @fraction cs places hcs hplaces =>
    obtain ⟨d, ds, rfl⟩ := List.exists_cons_of_ne_nil hcs.ne_nil
    exact Numeral.takeSign_of_isDigit (hcs.digit d List.mem_cons_self) _
  | infinity => rfl
  | nan hword hpayload =>
    simp only [List.mem_cons, List.not_mem_nil, or_false] at hword
    rcases hword with rfl | rfl <;> rfl

/-- Nothing is left out of a plain text, and only a minus is its sign. -/
theorem takeSign_signedText {cs : List Char} (h : PlainForm cs) (negative : Bool) :
    Numeral.takeSign ((Text.strip (signedText negative cs).toList).filter (· ≠ '_'))
      = (negative, cs) := by
  have hall : (signedText negative cs).toList.all isKept = true := by
    rw [signedText, String.toList_append, String.toList_ofList, List.all_append, h.all_isKept,
      Bool.and_true]
    cases negative <;> decide
  have hkept : ∀ c ∈ (signedText negative cs).toList, Text.isBlank c = false ∧ c ≠ '_' := by
    simpa [isKept] using hall
  have hfilter : (signedText negative cs).toList.filter (· ≠ '_')
      = (signedText negative cs).toList :=
    List.filter_eq_self.2 fun c hc => by simpa using (hkept c hc).2
  rw [Text.strip, Text.stripBy_of_forall fun c hc => (hkept c hc).1, hfilter, signedText,
    String.toList_append, String.toList_ofList]
  cases negative
  · exact h.takeSign
  · rfl

/-- What starts with a digit is none of the words. -/
theorem read?_of_isDigit {cs : List Char} (h : PlainForm cs) {d : Char} (hd : cs.head? = some d)
    (hdigit : d.isDigit = true) (negative : Bool) : read? (signedText negative cs)
      = (Numeral.decimal? cs).map fun found => finite negative found.1 found.2 := by
  obtain ⟨rest, rfl⟩ : ∃ rest, cs = d :: rest := by
    rcases cs with _ | ⟨e, rest⟩
    · simp at hd
    · exact ⟨rest, by rw [Option.some.inj hd]⟩
  have hspells : ∀ word ∈ ["inf", "infinity", "nan", "snan"], ∀ cs : List Char,
      Numeral.spells word (d :: cs) = false := by
    intro word hword cs
    simp only [List.mem_cons, List.not_mem_nil, or_false] at hword
    rcases hword with rfl | rfl | rfl | rfl <;>
      exact Numeral.spells_of_isDigit hdigit rfl (by decide)
  unfold read?
  rw [takeSign_signedText h]
  simp [hspells]

theorem payload?_eq {payload : List Char} (h : payload = [] ∨ Whole payload ∧ payload ≠ ['0']) :
    payload? payload = some (natOf payload) := by
  have hdigits : ∀ c ∈ payload, c.isDigit = true := by
    rcases h with rfl | ⟨hwhole, -⟩
    · simp
    · exact hwhole.digit
  rw [payload?, Numeral.takeDigits_of_digits hdigits]
  rfl

theorem read?_nan {word payload : List Char} (hword : word ∈ ["NaN".toList, "sNaN".toList])
    (hpayload : payload = [] ∨ Whole payload ∧ payload ≠ ['0']) (negative : Bool) :
    read? (signedText negative (word ++ payload))
      = some (nan negative (word == "sNaN".toList) (natOf payload)) := by
  unfold read?
  rw [takeSign_signedText (.nan hword hpayload)]
  simp only [List.mem_cons, List.not_mem_nil, or_false] at hword
  rcases hword with rfl | rfl
  · simp [Numeral.spells, payload?_eq hpayload]
  · simp [Numeral.spells, payload?_eq hpayload]

/-- A plain text is read as a decimal that is printed in this way. -/
theorem read?_signedText {negative : Bool} {cs : List Char} (h : PlainForm cs) :
    ∃ d, read? (signedText negative cs) = some d ∧ d.plain = signedText negative cs := by
  cases h with
  | whole hcs =>
    obtain ⟨d, ds, hd⟩ := List.exists_cons_of_ne_nil hcs.ne_nil
    have hread := read?_of_isDigit (.whole hcs) (by rw [hd]; rfl) (hcs.digit d (by simp [hd]))
      negative
    have hdecimal := (Scalar.Unsigned.whole hcs.toDigits .absent).decimal?
    rw [List.append_nil] at hdecimal
    rw [hdecimal, Option.map_some] at hread
    refine ⟨_, hread, ?_⟩
    simp [plain, hcs.toDigits_natOf, withPoint_zero hcs.ne_nil, signedText]
  | @fraction cs places hcs hplaces =>
    obtain ⟨d, ds, hd⟩ := List.exists_cons_of_ne_nil hcs.ne_nil
    have hread := read?_of_isDigit (.fraction hcs hplaces) (by rw [hd]; rfl)
      (hcs.digit d (by simp [hd])) negative
    have hdecimal := (Scalar.Unsigned.fraction (hcs.toDigits.append hplaces) .absent).decimal?
    rw [List.append_nil] at hdecimal
    rw [hdecimal, Option.map_some] at hread
    refine ⟨_, hread, ?_⟩
    simp [plain, withPoint_natOf hcs hplaces, signedText]
  | infinity =>
    refine ⟨.infinite negative, ?_, ?_⟩
    · cases negative <;> decide +kernel
    · cases negative <;> rfl
  | @nan word payload hword hpayload =>
    refine ⟨_, read?_nan hword hpayload negative, ?_⟩
    rw [plain_nan, payloadText_natOf hpayload]
    simp only [List.mem_cons, List.not_mem_nil, or_false] at hword
    rcases hword with rfl | rfl <;> rfl

end Decimal

/-! ## What literals keep -/

namespace Rdf

/-- The texts that a literal of the family keeps: those that stand for no value, and those that are
the canonical text of one. -/
def DatatypeFamily.Keeps : DatatypeFamily → String → Prop
  | .integer, s => Numeral.integer? s = none ∨ ∃ i : ℤ, s = toString i
  | .double, s => Numeral.double? s = none ∨ ∃ d : Double, d.Canonical ∧ s = d.text
  | .decimal, s => Decimal.read? s = none ∨ Decimal.IsPlain s
  | .boolean, s => s ∈ ["true", "false"]
  | .normalizedString, s => ∀ c ∈ s.toList, c ∉ breaks
  | .token, s => IsToken s
  | .text, _ => True

/-- The texts that a literal of the datatype keeps. -/
def Keeps [Datatypes] (datatype s : String) : Prop :=
  match DatatypeFamily.of? datatype with
  | some family => family.Keeps s
  | none => Datatypes.rewrite datatype s = s

/-- A canonical text is kept, so a text is changed at most once. -/
theorem keeps_canonical (s : String) (family : DatatypeFamily) :
    family.Keeps (valueOf s family).canonical := by
  cases family with
  | integer =>
    rcases hread : Numeral.integer? s with _ | i
    · simp [valueOf, hread, LiteralValue.canonical, DatatypeFamily.Keeps]
    · simp only [valueOf, hread, Option.map_some, Option.getD_some, LiteralValue.canonical]
      exact .inr ⟨i, rfl⟩
  | double =>
    rcases hread : Numeral.double? s with _ | d
    · simp [valueOf, hread, LiteralValue.canonical, DatatypeFamily.Keeps]
    · simp only [valueOf, hread, Option.map_some, Option.getD_some, LiteralValue.canonical]
      exact .inr ⟨d, Numeral.canonical_of_double? hread, rfl⟩
  | decimal =>
    rcases hread : Decimal.read? s with _ | d
    · simp [valueOf, hread, LiteralValue.canonical, DatatypeFamily.Keeps]
    · simp only [valueOf, hread, Option.map_some, Option.getD_some, LiteralValue.canonical]
      exact .inr (Decimal.isPlain_plain d)
  | boolean =>
    rcases hmeans : meansTrue s with _ | _ <;>
      simp [valueOf, hmeans, LiteralValue.canonical, DatatypeFamily.Keeps]
  | normalizedString => exact fun c hc => not_mem_breaks_of_mem_spaced hc
  | token => exact isToken_tokenText s
  | text => trivial

theorem canonical_of_keeps {s : String} {family : DatatypeFamily} (h : family.Keeps s) :
    (valueOf s family).canonical = s := by
  cases family with
  | integer =>
    rcases h with hnone | ⟨i, rfl⟩
    · simp [valueOf, hnone, LiteralValue.canonical]
    · rw [valueOf, Numeral.integer?_toString]
      split_ifs <;> rfl
  | double =>
    rcases h with hnone | ⟨d, hd, rfl⟩
    · simp [valueOf, hnone, LiteralValue.canonical]
    · rw [valueOf, Numeral.double?_text hd]
      rfl
  | decimal =>
    rcases h with hnone | ⟨negative, cs, hform, rfl⟩
    · simp [valueOf, hnone, LiteralValue.canonical]
    · obtain ⟨d, hread, hplain⟩ := Decimal.read?_signedText hform
      rw [valueOf, hread]
      exact hplain
  | boolean =>
    simp only [DatatypeFamily.Keeps, List.mem_cons, List.not_mem_nil, or_false] at h
    rcases h with rfl | rfl <;> decide
  | normalizedString => exact spaced_eq_self h
  | token => exact h.tokenText_eq
  | text => rfl

theorem Literal.lexical_typed_eq_iff [Datatypes] {s datatype : String} :
    (Literal.typed s datatype).lexical = s ↔ Keeps datatype s := by
  unfold Literal.typed formOf Keeps
  rcases DatatypeFamily.of? datatype with _ | family
  · exact Iff.rfl
  · refine ⟨fun h => ?_, canonical_of_keeps⟩
    have hkeeps := keeps_canonical s family
    rwa [show (valueOf s family).canonical = s from h] at hkeeps

end Rdf

end ShapeForge
