import Mathlib
import ShapeForge.Number.Bound

/-!
# Rounding to doubles

A ratio is rounded in two steps: the grain of the doubles around it is found (`Double.grain`), and
then the nearest multiple of the grain is taken, at a tie the even one (`RoundsTo`). So a ratio that
lies between the midpoints around a double gives this double (`Double.ofRatio_of_within`), and no
double is nearer to a ratio than the one that it gives (`Double.ofRatio_nearest`).

The integers that are doubles are those with at most 53 significant bits; any other one becomes the
nearest of these (`Double.ofInt_nearest`). From a certain number on, a ratio becomes an infinity
(`Double.ofRatio_infinite_iff`).
-/

namespace ShapeForge

/-- The integer is nearest to the number, and even if another one is as near. -/
def RoundsTo (x : ℚ) (m : ℕ) : Prop := |x - m| ≤ 1 / 2 ∧ (|x - m| = 1 / 2 → Even m)

namespace RoundsTo

variable {x : ℚ} {m n : ℕ}

theorem unique (hm : RoundsTo x m) (hn : RoundsTo x n) : m = n := by
  by_contra hne
  have hdist : (1 : ℚ) ≤ |(m : ℚ) - n| := by
    have hint : (1 : ℤ) ≤ |(m : ℤ) - n| := Int.one_le_abs (by omega)
    exact_mod_cast hint
  have htriangle : |(m : ℚ) - n| ≤ |x - m| + |x - n| := by
    rw [abs_sub_comm x m]
    exact abs_sub_le _ _ _
  -- Two integers are nearest only if they are next to each other, and then one is odd.
  have hmhalf : |x - m| = 1 / 2 := le_antisymm hm.1 (by linarith [hn.1])
  have hnhalf : |x - n| = 1 / 2 := le_antisymm hn.1 (by linarith [hm.1])
  have hone : |(m : ℤ) - n| = 1 := by
    have hle : |(m : ℚ) - n| ≤ 1 := by linarith
    exact le_antisymm (by exact_mod_cast hle) (by exact_mod_cast hdist)
  obtain ⟨a, ha⟩ := hm.2 hmhalf
  obtain ⟨b, hb⟩ := hn.2 hnhalf
  rcases abs_eq (zero_le_one' ℤ) |>.1 hone with h | h <;> omega

theorem le_dist (hm : RoundsTo x m) (k : ℤ) : |x - m| ≤ |x - k| := by
  by_cases heq : (m : ℤ) = k
  · rw [← heq]
    simp
  · have hdist : (1 : ℚ) ≤ |(m : ℚ) - k| := by
      have hint : (1 : ℤ) ≤ |(m : ℤ) - k| := Int.one_le_abs (by omega)
      exact_mod_cast hint
    have htriangle : |(m : ℚ) - k| ≤ |x - m| + |x - k| := by
      rw [abs_sub_comm x m]
      exact abs_sub_le _ _ _
    linarith [hm.1]

theorem div {u : ℚ} (hu : 0 < u) (hlow : (2 * m - 1) * u ≤ 2 * x)
    (hhigh : 2 * x ≤ (2 * m + 1) * u)
    (heven : 2 * x = (2 * m - 1) * u ∨ 2 * x = (2 * m + 1) * u → Even m) :
    RoundsTo (x / u) m := by
  obtain ⟨y, rfl⟩ : ∃ y, x = y * u := ⟨x / u, (div_mul_cancel₀ x hu.ne').symm⟩
  rw [← mul_assoc] at hlow hhigh heven
  rw [mul_div_cancel_right₀ y hu.ne', RoundsTo, abs_le]
  have hlow' := le_of_mul_le_mul_right hlow hu
  have hhigh' := le_of_mul_le_mul_right hhigh hu
  refine ⟨⟨by linarith, by linarith⟩, fun hhalf => heven ?_⟩
  rcases (abs_eq (by norm_num)).1 hhalf with h | h
  · exact .inr (by rw [show 2 * y = 2 * m + 1 by linarith])
  · exact .inl (by rw [show 2 * y = 2 * m - 1 by linarith])

end RoundsTo

namespace Double

theorem roundDiv_roundsTo {num den : ℕ} (hden : 0 < den) :
    RoundsTo ((num : ℚ) / den) (roundDiv num den) := by
  have hpos : (0 : ℚ) < den := by exact_mod_cast hden
  have hx : (num : ℚ) / den = (num / den : ℕ) + (num % den : ℕ) / (den : ℚ) := by
    rw [div_eq_iff hpos.ne', add_mul, div_mul_cancel₀ _ hpos.ne']
    exact_mod_cast (Nat.div_add_mod' num den).symm
  set r : ℚ := (num % den : ℕ) / (den : ℚ) with hr
  have hr0 : 0 ≤ r := by positivity
  have hr1 : r < 1 := by
    rw [hr, div_lt_one hpos]
    exact_mod_cast Nat.mod_lt _ hden
  have hbelow : r < 1 / 2 ↔ 2 * (num % den) < den := by
    rw [hr, div_lt_div_iff₀ hpos two_pos, one_mul, mul_comm]
    exact_mod_cast Iff.rfl
  have habove : 1 / 2 < r ↔ den < 2 * (num % den) := by
    rw [hr, div_lt_div_iff₀ two_pos hpos, one_mul, mul_comm]
    exact_mod_cast Iff.rfl
  have hdown : (num / den : ℕ) + r - (num / den : ℕ) = r := by ring
  have hup : (num / den : ℕ) + r - (num / den + 1 : ℕ) = -(1 - r) := by push_cast; ring
  unfold roundDiv RoundsTo
  dsimp only
  rw [hx]
  split_ifs with h1 h2 h3
  · rw [← hbelow] at h1
    rw [hdown, abs_of_nonneg hr0]
    exact ⟨h1.le, fun h => absurd h h1.ne⟩
  · rw [← habove] at h2
    rw [hup, abs_neg, abs_of_pos (by linarith)]
    exact ⟨by linarith, fun h => by linarith⟩
  · rw [← hbelow] at h1
    rw [← habove] at h2
    rw [hdown, abs_of_nonneg hr0]
    exact ⟨by linarith, fun _ => Nat.even_iff.2 (by simpa using h3)⟩
  · rw [← hbelow] at h1
    rw [← habove] at h2
    rw [hup, abs_neg, abs_of_pos (by linarith)]
    refine ⟨by linarith, fun _ => Nat.even_iff.2 ?_⟩
    have hodd : (num / den) % 2 ≠ 0 := by simpa using h3
    omega

/-! ## The grain of doubles -/

theorem cast_pow_toNat (b : ℕ) {q : ℤ} (hq : 0 ≤ q) :
    ((Nat.pow b q.toNat : ℕ) : ℚ) = (b : ℚ) ^ q := by
  rw [Nat.pow_eq, Nat.cast_pow, ← zpow_natCast, Int.toNat_of_nonneg hq]

theorem cast_pow_neg_toNat (b : ℕ) {q : ℤ} (hq : q < 0) :
    ((Nat.pow b (-q).toNat : ℕ) : ℚ) = ((b : ℚ) ^ q)⁻¹ := by
  rw [cast_pow_toNat b (by omega), zpow_neg]

theorem cast_two_pow_toNat {q : ℤ} (hq : 0 ≤ q) : ((Nat.pow 2 q.toNat : ℕ) : ℚ) = 2 ^ q := by
  rw [cast_pow_toNat 2 hq, Nat.cast_ofNat]

theorem cast_two_pow_neg_toNat {q : ℤ} (hq : q < 0) :
    ((Nat.pow 2 (-q).toNat : ℕ) : ℚ) = (2 ^ q)⁻¹ := by
  rw [cast_pow_neg_toNat 2 hq, Nat.cast_ofNat]

/-- The logarithms of the two parts tell the size of a ratio up to a factor of two. -/
theorem ratio_bounds {num den : ℕ} (hnum : 0 < num) (hden : 0 < den) :
    (2 : ℚ) ^ ((Nat.log2 num : ℤ) - (Nat.log2 den : ℤ) - 1) ≤ num / den
      ∧ (num : ℚ) / den < 2 ^ ((Nat.log2 num : ℤ) - (Nat.log2 den : ℤ) + 1) := by
  have hpos : (0 : ℚ) < den := by exact_mod_cast hden
  set e : ℤ := (Nat.log2 num : ℤ) - (Nat.log2 den : ℤ) with he
  constructor
  · rw [le_div_iff₀ hpos]
    have hn : (2 : ℚ) ^ Nat.log2 num ≤ num := by exact_mod_cast Nat.log2_self_le hnum.ne'
    have hd : (den : ℚ) ≤ 2 ^ (Nat.log2 den + 1) := by exact_mod_cast Nat.lt_log2_self.le
    calc (2 : ℚ) ^ (e - 1) * den ≤ 2 ^ (e - 1) * 2 ^ (Nat.log2 den + 1) := by gcongr
      _ = 2 ^ Nat.log2 num := by
        rw [← zpow_natCast, ← zpow_natCast, ← zpow_add₀ two_ne_zero]
        congr 1
        push_cast
        omega
      _ ≤ num := hn
  · rw [div_lt_iff₀ hpos]
    have hn : (num : ℚ) < 2 ^ (Nat.log2 num + 1) := by exact_mod_cast Nat.lt_log2_self
    have hd : (2 : ℚ) ^ Nat.log2 den ≤ den := by exact_mod_cast Nat.log2_self_le hden.ne'
    calc (num : ℚ) < 2 ^ (Nat.log2 num + 1) := hn
      _ = 2 ^ (e + 1) * 2 ^ Nat.log2 den := by
        rw [← zpow_natCast, ← zpow_natCast, ← zpow_add₀ two_ne_zero]
        congr 1
        push_cast
        omega
      _ ≤ 2 ^ (e + 1) * den := by gcongr

theorem log2Ratio_spec {num den : ℕ} (hnum : 0 < num) (hden : 0 < den) :
    (2 : ℚ) ^ log2Ratio num den ≤ num / den
      ∧ (num : ℚ) / den < 2 ^ (log2Ratio num den + 1) := by
  have hpos : (0 : ℚ) < den := by exact_mod_cast hden
  obtain ⟨hlow, hhigh⟩ := ratio_bounds hnum hden
  set e : ℤ := (Nat.log2 num : ℤ) - (Nat.log2 den : ℤ) with he
  have hbelow : (if 0 ≤ e then num < den * Nat.pow 2 e.toNat
      else num * Nat.pow 2 (-e).toNat < den) ↔ (num : ℚ) / den < 2 ^ e := by
    split_ifs with h
    · rw [div_lt_iff₀ hpos, mul_comm den, ← cast_two_pow_toNat h]
      exact_mod_cast Iff.rfl
    · rw [div_lt_iff₀ hpos, ← div_lt_iff₀' (by positivity), div_eq_mul_inv,
        ← cast_two_pow_neg_toNat (not_le.1 h)]
      exact_mod_cast Iff.rfl
  have hlog : log2Ratio num den = if (num : ℚ) / den < 2 ^ e then e - 1 else e :=
    if_congr hbelow rfl rfl
  rw [hlog]
  split_ifs with h
  · rw [sub_add_cancel]
    exact ⟨hlow, h⟩
  · exact ⟨not_lt.1 h, hhigh⟩

/-- The least difference of doubles of the size of a positive ratio, as the exponent of two. -/
def grain (num den : ℕ) : ℤ := max minExponent (log2Ratio num den - 52)

/-- The double of a rounded mantissa: one that has become too long is halved. -/
def settle (negative : Bool) (m : ℕ) (q : ℤ) : Double :=
  if m = 2 ^ 53 then
    if maxExponent < q + 1 then .infinite negative else .finite negative (2 ^ 52) (q + 1)
  else if maxExponent < q then .infinite negative else .finite negative m q

section Ratio

variable {num den : ℕ} (hnum : 0 < num) (hden : 0 < den)

include hnum hden

/-- A ratio gives its nearest multiple of the grain. -/
theorem ofRatio_eq_settle (negative : Bool) :
    ∃ m, RoundsTo ((num : ℚ) / den / 2 ^ grain num den) m
      ∧ ofRatio negative num den = settle negative m (grain num den) := by
  set q : ℤ := grain num den with hq
  set m : ℕ := if 0 ≤ q then roundDiv num (den * Nat.pow 2 q.toNat)
    else roundDiv (num * Nat.pow 2 (-q).toNat) den with hm
  have hround : RoundsTo ((num : ℚ) / den / 2 ^ q) m := by
    rw [hm]
    split_ifs with h
    · rw [div_div, ← cast_two_pow_toNat h, ← Nat.cast_mul]
      exact roundDiv_roundsTo (Nat.mul_pos hden (Nat.pow_pos two_pos))
    · rw [div_div, mul_comm, ← div_div, div_eq_mul_inv (num : ℚ),
        ← cast_two_pow_neg_toNat (not_le.1 h), ← Nat.cast_mul]
      exact roundDiv_roundsTo hden
  refine ⟨m, hround, ?_⟩
  unfold ofRatio
  rw [if_neg hnum.ne']
  change (if maxExponent < (if m = Nat.pow 2 53 then (Nat.pow 2 52, q + 1) else (m, q)).2 then
    infinite negative else finite negative
      (if m = Nat.pow 2 53 then (Nat.pow 2 52, q + 1) else (m, q)).1
      (if m = Nat.pow 2 53 then (Nat.pow 2 52, q + 1) else (m, q)).2) = settle negative m q
  unfold settle
  by_cases h : m = Nat.pow 2 53
  · simp only [if_pos h]
    exact (if_pos h).symm
  · simp only [if_neg h]
    exact (if_neg h).symm

theorem ratio_div_grain_lt : (num : ℚ) / den / 2 ^ grain num den < 2 ^ 53 := by
  rw [div_lt_iff₀ (by positivity)]
  calc (num : ℚ) / den < 2 ^ (log2Ratio num den + 1) := (log2Ratio_spec hnum hden).2
    _ ≤ 2 ^ (53 + grain num den) := by
      refine zpow_le_zpow_right₀ one_le_two ?_
      unfold grain
      omega
    _ = 2 ^ 53 * 2 ^ grain num den := by
      rw [zpow_add₀ two_ne_zero]
      norm_cast

theorem le_ratio_div_grain (h : minExponent < grain num den) :
    (2 : ℚ) ^ 52 ≤ (num : ℚ) / den / 2 ^ grain num den := by
  rw [le_div_iff₀ (by positivity)]
  have hgrain : 52 + grain num den = log2Ratio num den := by
    unfold grain at h ⊢
    omega
  calc (2 : ℚ) ^ 52 * 2 ^ grain num den = 2 ^ (52 + grain num den) := by
        rw [zpow_add₀ two_ne_zero]
        norm_cast
    _ ≤ num / den := by
      rw [hgrain]
      exact (log2Ratio_spec hnum hden).1

end Ratio

/-! ## Doubles and the ratios around them -/

/-- A finite double is written with the greatest mantissa. -/
def Canonical : Double → Prop
  | .finite _ m q =>
    m < 2 ^ 53 ∧ minExponent ≤ q ∧ q ≤ maxExponent ∧ (m < 2 ^ 52 → q = minExponent)
  | _ => True

theorem canonical_ofRatio {num den : ℕ} (hden : 0 < den) (negative : Bool) :
    (ofRatio negative num den).Canonical := by
  rcases Nat.eq_zero_or_pos num with rfl | hnum
  · exact ⟨by norm_num, le_refl _, by decide, fun _ => rfl⟩
  obtain ⟨m, hround, heq⟩ := ofRatio_eq_settle hnum hden negative
  obtain ⟨hlow, hhigh⟩ := abs_le.1 hround.1
  have hle : m ≤ 2 ^ 53 := by
    have hlt : (m : ℚ) < 2 ^ 53 + 1 := by linarith [ratio_div_grain_lt hnum hden]
    exact Nat.lt_succ_iff.1 (by exact_mod_cast hlt)
  have hge (h : m < 2 ^ 52) : grain num den = minExponent := by
    by_contra hne
    have hmin : minExponent < grain num den := lt_of_le_of_ne (le_max_left ..) (Ne.symm hne)
    have hlt : (m : ℚ) + 1 ≤ 2 ^ 52 := by exact_mod_cast h
    linarith [le_ratio_div_grain hnum hden hmin]
  have hmin : minExponent ≤ grain num den := le_max_left ..
  rw [heq, settle]
  split_ifs with h1 h2 h3
  · trivial
  · exact ⟨by norm_num, by omega, by omega, fun h => absurd h (lt_irrefl _)⟩
  · trivial
  · exact ⟨lt_of_le_of_ne hle h1, hmin, not_lt.1 h3, hge⟩

/-- The ratios that lie between the midpoints around a double, or on one of them if the mantissa is
even. Below a power of two the next double is half as far away. -/
structure Within (x : ℚ) (m : ℕ) (q : ℤ) : Prop where
  low : (4 * m - if m = 2 ^ 52 ∧ minExponent < q then 1 else 2) * (2 : ℚ) ^ (q - 2) ≤ x
  high : x ≤ (4 * m + 2) * (2 : ℚ) ^ (q - 2)
  even : (x = (4 * m - if m = 2 ^ 52 ∧ minExponent < q then 1 else 2) * (2 : ℚ) ^ (q - 2)
    ∨ x = (4 * m + 2) * (2 : ℚ) ^ (q - 2)) → Even m

theorem ofRatio_eq_of_roundsTo {num den m : ℕ} (hnum : 0 < num) (hden : 0 < den)
    (negative : Bool) (h : RoundsTo ((num : ℚ) / den / 2 ^ grain num den) m) :
    ofRatio negative num den = settle negative m (grain num den) := by
  obtain ⟨n, hn, heq⟩ := ofRatio_eq_settle hnum hden negative
  rw [heq, h.unique hn]

/-- The exponent is the one that the size of the ratio gives. -/
theorem grain_eq {num den : ℕ} (hnum : 0 < num) (hden : 0 < den) {q : ℤ} (hq : minExponent ≤ q)
    (hhigh : (num : ℚ) / den < 2 ^ (53 + q))
    (hlow : minExponent < q → (2 : ℚ) ^ (52 + q) ≤ num / den) : grain num den = q := by
  obtain ⟨hle, hlt⟩ := log2Ratio_spec hnum hden
  have hlog : log2Ratio num den < 53 + q :=
    (zpow_lt_zpow_iff_right₀ one_lt_two).1 (hle.trans_lt hhigh)
  unfold grain
  rcases hq.eq_or_lt with rfl | hmin
  · omega
  · have hlog' : 52 + q < log2Ratio num den + 1 :=
      (zpow_lt_zpow_iff_right₀ one_lt_two).1 ((hlow hmin).trans_lt hlt)
    omega

theorem two_zpow_add (n : ℕ) (q : ℤ) : (2 : ℚ) ^ (n + q) = 4 * 2 ^ n * 2 ^ (q - 2) := by
  rw [zpow_add₀ two_ne_zero, zpow_sub₀ two_ne_zero, zpow_natCast]
  norm_num
  ring

theorem two_zpow_eq (q : ℤ) : (2 : ℚ) ^ q = 4 * 2 ^ (q - 2) := by
  simpa using two_zpow_add 0 q

section Within

variable {num den m : ℕ} {q : ℤ} (hnum : 0 < num) (hden : 0 < den) (negative : Bool)

include hnum hden

theorem ofRatio_of_roundsTo (hm : m < 2 ^ 53) (hmin : minExponent ≤ q) (hmax : q ≤ maxExponent)
    (hhigh : (num : ℚ) / den < 2 ^ (53 + q))
    (hlow : minExponent < q → (2 : ℚ) ^ (52 + q) ≤ num / den)
    (h : RoundsTo ((num : ℚ) / den / 2 ^ q) m) :
    ofRatio negative num den = .finite negative m q := by
  have hgrain := grain_eq hnum hden hmin hhigh hlow
  rw [ofRatio_eq_of_roundsTo hnum hden negative (hgrain ▸ h), hgrain, settle, if_neg hm.ne,
    if_neg (not_lt.2 hmax)]

/-- Just below a power of two the grain is half as large, and the mantissa is carried over. -/
theorem ofRatio_of_below_power (hmin : minExponent < q) (hmax : q ≤ maxExponent)
    (hlow : (4 * 2 ^ 52 - 1) * (2 : ℚ) ^ (q - 2) ≤ num / den)
    (hhigh : (num : ℚ) / den < 2 ^ (52 + q)) :
    ofRatio negative num den = .finite negative (2 ^ 52) q := by
  have hp : (0 : ℚ) < 2 ^ (q - 2) := by positivity
  have hunit : (2 : ℚ) ^ (q - 1) = 2 * 2 ^ (q - 2) := by
    rw [show q - 1 = 1 + (q - 2) by ring, zpow_add₀ two_ne_zero, zpow_one]
  have hgrain : grain num den = q - 1 := by
    refine grain_eq hnum hden (by omega) ?_ fun _ => ?_
    · rwa [show (53 : ℤ) + (q - 1) = 52 + q by ring]
    · refine le_trans ?_ hlow
      rw [show (52 : ℤ) + (q - 1) = (51 : ℕ) + q by push_cast; ring, two_zpow_add]
      nlinarith
  have hround : RoundsTo ((num : ℚ) / den / 2 ^ grain num den) (2 ^ 53) := by
    rw [hgrain]
    have htop := two_zpow_add 52 q
    push_cast at htop
    refine .div (by positivity) ?_ ?_ fun _ => ⟨2 ^ 52, by norm_num⟩
    · rw [hunit]
      push_cast
      nlinarith
    · rw [hunit]
      push_cast
      nlinarith
  rw [ofRatio_eq_of_roundsTo hnum hden negative hround, hgrain, settle, if_pos rfl,
    sub_add_cancel, if_neg (not_lt.2 hmax)]

/-- A ratio that lies around a double is rounded to it. -/
theorem ofRatio_of_within (hcanonical : (finite negative m q).Canonical)
    (hx : Within ((num : ℚ) / den) m q) : ofRatio negative num den = .finite negative m q := by
  obtain ⟨hm, hmin, hmax, hsmall⟩ := hcanonical
  obtain ⟨hlow, hhigh, heven⟩ := hx
  have hp : (0 : ℚ) < 2 ^ (q - 2) := by positivity
  have hm' : (m : ℚ) + 1 ≤ 2 ^ 53 := by exact_mod_cast hm
  have htop : (num : ℚ) / den < 2 ^ (53 + q) := by
    have h := two_zpow_add 53 q
    push_cast at h
    nlinarith
  have hbase := two_zpow_add 52 q
  push_cast at hbase
  split_ifs at hlow heven with hpower
  · obtain ⟨rfl, hq⟩ := hpower
    push_cast at hlow hhigh heven
    by_cases hbelow : (num : ℚ) / den < 2 ^ (52 + q)
    · exact ofRatio_of_below_power hnum hden negative hq hmax hlow hbelow
    · rw [not_lt] at hbelow
      refine ofRatio_of_roundsTo hnum hden negative hm hmin hmax htop (fun _ => hbelow) ?_
      refine .div (by positivity) ?_ ?_ fun _ => ⟨2 ^ 51, by norm_num⟩
      · rw [two_zpow_eq]
        push_cast
        nlinarith
      · rw [two_zpow_eq]
        push_cast
        nlinarith
  · refine ofRatio_of_roundsTo hnum hden negative hm hmin hmax htop (fun hq => ?_) ?_
    · -- Above the least exponent the mantissa is long, and here it is no power of two.
      have hne : m ≠ 2 ^ 52 := fun h => hpower ⟨h, hq⟩
      have hlong : 2 ^ 52 ≤ m := not_lt.1 fun h => hq.ne' (hsmall h)
      have hlt : (2 : ℚ) ^ 52 + 1 ≤ m := by exact_mod_cast lt_of_le_of_ne hlong hne.symm
      nlinarith
    · refine .div (by positivity) ?_ ?_ fun h => heven ?_
      · rw [two_zpow_eq]
        nlinarith
      · rw [two_zpow_eq]
        nlinarith
      · rw [two_zpow_eq] at h
        rcases h with h | h
        · exact .inl (by linarith)
        · exact .inr (by linarith)

end Within

/-! ## No double is nearer -/

theorem settle_finite {negative sign : Bool} {n m : ℕ} {g q : ℤ}
    (h : settle negative n g = .finite sign m q) :
    sign = negative ∧ (m : ℚ) * 2 ^ q = n * 2 ^ g := by
  unfold settle at h
  split_ifs at h with hn
  · simp only [finite.injEq] at h
    obtain ⟨rfl, rfl, rfl⟩ := h
    rw [hn, zpow_add₀ two_ne_zero]
    push_cast
    exact ⟨rfl, by ring⟩
  · simp only [finite.injEq] at h
    obtain ⟨rfl, rfl, rfl⟩ := h
    exact ⟨rfl, rfl⟩

theorem ofRatio_nearest {num den m : ℕ} {q : ℤ} {negative sign : Bool} (hnum : 0 < num)
    (hden : 0 < den) (h : ofRatio negative num den = .finite sign m q) {a : ℕ} {j : ℤ}
    (ha : a < 2 ^ 53) (hj : minExponent ≤ j) :
    |(num : ℚ) / den - m * 2 ^ q| ≤ |(num : ℚ) / den - a * 2 ^ j| := by
  obtain ⟨n, hround, heq⟩ := ofRatio_eq_settle hnum hden negative
  rw [(settle_finite (heq.symm.trans h)).2]
  set g := grain num den with hg
  set x : ℚ := (num : ℚ) / den with hx
  have hu : (0 : ℚ) < 2 ^ g := by positivity
  -- Distances are measured in multiples of the grain.
  have hscale (y : ℚ) : |x - y * 2 ^ g| = |x / 2 ^ g - y| * 2 ^ g := by
    conv_lhs => rw [← div_mul_cancel₀ x hu.ne', ← sub_mul, abs_mul, abs_of_pos hu]
  have hstep (k : ℤ) : |x - n * 2 ^ g| ≤ |x - k * 2 ^ g| := by
    rw [hscale, hscale]
    exact mul_le_mul_of_nonneg_right (hround.le_dist k) hu.le
  rcases le_or_gt g j with hle | hlt
  · have hmultiple : (a : ℚ) * 2 ^ j = ((a * 2 ^ (j - g).toNat : ℤ) : ℚ) * 2 ^ g := by
      push_cast
      rw [mul_assoc, ← zpow_natCast, Int.toNat_of_nonneg (by omega), ← zpow_add₀ two_ne_zero,
        sub_add_cancel]
    rw [hmultiple]
    exact hstep _
  · -- A finer double is below the power of two that the ratio reaches.
    have hpower : 2 ^ 52 * (2 : ℚ) ^ g ≤ x := by
      rw [← le_div_iff₀ hu]
      exact le_ratio_div_grain hnum hden (hj.trans_lt hlt)
    have hbelow : (a : ℚ) * 2 ^ j ≤ 2 ^ 52 * 2 ^ g := by
      have ha' : (a : ℚ) ≤ 2 ^ 53 := by exact_mod_cast ha.le
      calc (a : ℚ) * 2 ^ j ≤ 2 ^ 53 * 2 ^ (g - 1) := by
            gcongr
            · exact one_le_two
            · omega
        _ = 2 ^ 52 * 2 ^ g := by
          rw [zpow_sub₀ two_ne_zero]
          ring
    refine (hstep (2 ^ 52)).trans ?_
    push_cast
    rw [abs_of_nonneg (by linarith), abs_of_nonneg (by linarith)]
    linarith

/-! ## Values -/

/-- The number that a finite double is. -/
def value? : Double → Option ℚ
  | .finite negative m q => some ((if negative then -1 else 1) * (m * 2 ^ q))
  | _ => none

theorem abs_value_lt {d : Double} {x : ℚ} (hcanonical : d.Canonical) (h : d.value? = some x) :
    |x| < 2 ^ (1024 : ℤ) := by
  rcases d with ⟨negative, m, q⟩ | _ | _
  · obtain rfl := Option.some.inj h
    obtain ⟨hm, -, hmax, -⟩ := hcanonical
    have hm' : (m : ℚ) < 2 ^ 53 := by exact_mod_cast hm
    have hsign : |(if negative then -1 else 1 : ℚ)| = 1 := by split_ifs <;> simp
    rw [abs_mul, hsign, one_mul, abs_of_nonneg (by positivity)]
    calc (m : ℚ) * 2 ^ q < 2 ^ 53 * 2 ^ q := mul_lt_mul_of_pos_right hm' (by positivity)
      _ ≤ 2 ^ 53 * 2 ^ maxExponent :=
        mul_le_mul_of_nonneg_left (zpow_le_zpow_right₀ one_le_two hmax) (by positivity)
      _ = 2 ^ (1024 : ℤ) := by
        rw [← zpow_natCast, ← zpow_add₀ two_ne_zero]
        rfl
  · cases h
  · cases h

theorem scaled_eq {negative : Bool} {m : ℕ} {q e : ℤ} (h : e ≤ q) :
    (scaled negative m q e : ℚ) * 2 ^ e = (if negative then -1 else 1) * (m * 2 ^ q) := by
  have hpow : ((Nat.pow 2 (q - e).toNat : ℕ) : ℚ) * 2 ^ e = 2 ^ q := by
    rw [cast_two_pow_toNat (by omega), ← zpow_add₀ two_ne_zero, sub_add_cancel]
  unfold scaled
  rw [← hpow]
  cases negative <;> simp <;> ring

/-- An integer is compared with the number itself. -/
theorem compareInt?_eq {d : Double} {x : ℚ} (h : d.value? = some x) (i : ℤ) :
    d.compareInt? i = some (cmp (i : ℚ) x) := by
  rcases d with ⟨negative, m, q⟩ | _ | _
  · obtain rfl := Option.some.inj h
    have hu : (0 : ℚ) < 2 ^ min 0 q := by positivity
    have hmono : StrictMono fun z : ℤ => (z : ℚ) * 2 ^ min 0 q := fun a b hab =>
      mul_lt_mul_of_pos_right (by exact_mod_cast hab) hu
    have hint : ((i * (Nat.pow 2 (-min 0 q).toNat : ℕ) : ℤ) : ℚ) * 2 ^ min 0 q = i := by
      push_cast
      rw [cast_two_pow_toNat (by omega), zpow_neg, mul_assoc,
        inv_mul_cancel₀ hu.ne', mul_one]
    have hcmp := hmono.cmp_map_eq (i * (Nat.pow 2 (-min 0 q).toNat : ℕ))
      (scaled negative m q (min 0 q))
    simp only [hint, scaled_eq (min_le_right 0 q)] at hcmp
    rw [hcmp, cmp_eq_compare]
    rfl
  · cases h
  · cases h

/-! ## Integers -/

/-- The integer has at most 53 significant bits. -/
def FitsMantissa (n : ℤ) : Prop := ∃ m j : ℕ, m < 2 ^ 53 ∧ n.natAbs = m * 2 ^ j

theorem fitsMantissa_of_le {n : ℤ} (h : n.natAbs ≤ 2 ^ 53) : FitsMantissa n := by
  rcases h.lt_or_eq with hlt | heq
  · exact ⟨n.natAbs, 0, hlt, by simp⟩
  · exact ⟨1, 53, by norm_num, by simpa using heq⟩

/-- The magnitude of the double of an integer is an integer that fits. -/
theorem exists_magnitude {num m : ℕ} {q : ℤ} {negative sign : Bool} (hnum : 0 < num)
    (h : ofRatio negative num 1 = .finite sign m q) :
    ∃ a j : ℕ, a < 2 ^ 53 ∧ (m : ℚ) * 2 ^ q = (a * 2 ^ j : ℕ) := by
  have hcanonical : (finite sign m q).Canonical := h ▸ canonical_ofRatio one_pos negative
  have hm := hcanonical.1
  rcases le_or_gt 0 q with hq | hq
  · refine ⟨m, q.toNat, hm, ?_⟩
    push_cast
    rw [← zpow_natCast, Int.toNat_of_nonneg hq]
  · have hnear {a : ℕ} {j : ℤ} (ha : a < 2 ^ 53) (hj : 0 ≤ j) :=
      ofRatio_nearest hnum one_pos h ha (show minExponent ≤ j from le_trans (by decide) hj)
    have hsmall : (m : ℚ) * 2 ^ q < 2 ^ 53 := by
      have hm' : (m : ℚ) < 2 ^ 53 := by exact_mod_cast hm
      have hle : (2 : ℚ) ^ q ≤ 1 := zpow_le_one_of_nonpos₀ one_le_two hq.le
      nlinarith [m.cast_nonneg (α := ℚ)]
    have hlt : num < 2 ^ 53 := by
      by_contra hge
      -- The power of two would be nearer.
      have hge' : (2 : ℚ) ^ 53 ≤ num := by exact_mod_cast not_lt.1 hge
      have hpower := hnear (a := 2 ^ 52) (j := 1) (by norm_num) (by norm_num)
      have hbound : ((2 ^ 52 : ℕ) : ℚ) * 2 ^ (1 : ℤ) = 2 ^ 53 := by norm_num
      rw [hbound, Nat.cast_one, div_one, abs_of_pos (by linarith),
        abs_of_nonneg (by linarith)] at hpower
      linarith
    have hexact := hnear (j := 0) hlt le_rfl
    simp only [Nat.cast_one, div_one, zpow_zero, mul_one, sub_self, abs_zero, abs_nonpos_iff]
      at hexact
    exact ⟨num, 0, hlt, by simp; linarith⟩

/-- The double of an integer is the nearest integer that fits. -/
theorem ofInt_nearest {n : ℤ} {sign : Bool} {m : ℕ} {q : ℤ} (h : ofInt n = .finite sign m q) :
    ∃ N : ℤ, (finite sign m q).value? = some (N : ℚ) ∧ FitsMantissa N
      ∧ ∀ k, FitsMantissa k → |n - N| ≤ |n - k| := by
  unfold ofInt at h
  rcases Nat.eq_zero_or_pos n.natAbs with hzero | hpos
  · obtain rfl : n = 0 := Int.natAbs_eq_zero.1 hzero
    obtain ⟨rfl, rfl, rfl⟩ : false = sign ∧ 0 = m ∧ minExponent = q := by
      simpa [ofRatio, zero] using h
    refine ⟨0, by simp [value?], fitsMantissa_of_le (by simp), fun k _ => ?_⟩
    simp
  · obtain ⟨a, j, ha, hvalue⟩ := exists_magnitude hpos h
    have hsign : sign = decide (n < 0) := by
      obtain ⟨rounded, -, heq⟩ := ofRatio_eq_settle hpos one_pos (decide (n < 0))
      exact (settle_finite (heq.symm.trans h)).1
    set N : ℤ := if n < 0 then -(a * 2 ^ j : ℕ) else (a * 2 ^ j : ℕ) with hN
    have habs : N.natAbs = a * 2 ^ j := by
      rw [hN]
      split_ifs <;> omega
    refine ⟨N, ?_, ⟨a, j, ha, habs⟩, fun k hk => ?_⟩
    · rw [value?, hvalue, hsign, hN]
      by_cases hneg : n < 0 <;> simp [hneg]
    · obtain ⟨b, i, hb, hbk⟩ := hk
      have hnear := ofRatio_nearest hpos one_pos h hb (show minExponent ≤ (i : ℤ) by
        unfold minExponent
        omega)
      rw [hvalue, Nat.cast_one, div_one, zpow_natCast] at hnear
      -- The integer and its double have one sign, so only the magnitudes count.
      have hmagnitude : |(n.natAbs : ℤ) - N.natAbs| ≤ |(n.natAbs : ℤ) - k.natAbs| := by
        rw [habs, hbk]
        exact_mod_cast hnear
      have hsame : |n - N| = |(n.natAbs : ℤ) - N.natAbs| := by
        rw [habs, hN]
        split_ifs with hneg
        · rw [show n - -((a * 2 ^ j : ℕ) : ℤ) = -((n.natAbs : ℤ) - (a * 2 ^ j : ℕ)) by omega,
            abs_neg]
        · rw [show n - ((a * 2 ^ j : ℕ) : ℤ) = (n.natAbs : ℤ) - (a * 2 ^ j : ℕ) by omega]
      rw [hsame]
      refine hmagnitude.trans ?_
      rw [Int.natCast_natAbs, Int.natCast_natAbs]
      exact abs_abs_sub_abs_le n k

/-! ## Numbers beyond all doubles -/

theorem settle_infinite_iff {negative : Bool} {m : ℕ} {q : ℤ} :
    (∃ sign, settle negative m q = .infinite sign)
      ↔ maxExponent < q ∨ q = maxExponent ∧ m = 2 ^ 53 := by
  unfold settle
  split_ifs with hm hq hq
  · exact iff_of_true ⟨negative, rfl⟩ (by omega)
  · exact iff_of_false (by simp) (by omega)
  · exact iff_of_true ⟨negative, rfl⟩ (.inl hq)
  · exact iff_of_false (by simp) (by omega)

/-- The least number that is rounded to an infinity: it is as far above the greatest finite double
as below the power of two that follows. -/
def leastInfinite : ℕ := (2 ^ 54 - 1) * 2 ^ 970

theorem cast_leastInfinite : (leastInfinite : ℚ) = (2 ^ 54 - 1) * 2 ^ 970 := by
  rw [leastInfinite, Nat.cast_mul, Nat.cast_pow, Nat.cast_ofNat,
    show ((2 ^ 54 - 1 : ℕ) : ℚ) = 2 ^ 54 - 1 by norm_num]

theorem ofRatio_infinite_iff {num den : ℕ} (hden : 0 < den) (negative : Bool) :
    (∃ sign, ofRatio negative num den = .infinite sign) ↔ (leastInfinite : ℚ) ≤ num / den := by
  rw [cast_leastInfinite]
  rcases Nat.eq_zero_or_pos num with rfl | hnum
  · rw [ofRatio, if_pos rfl, Nat.cast_zero, zero_div]
    refine iff_of_false (by simp [zero]) (not_le.2 ?_)
    exact mul_pos (by norm_num) (by positivity)
  obtain ⟨m, hround, heq⟩ := ofRatio_eq_settle hnum hden negative
  have hlt := ratio_div_grain_lt hnum hden
  have hle := le_ratio_div_grain hnum hden
  rw [heq, settle_infinite_iff]
  generalize (num : ℚ) / den = x at hround hlt hle ⊢
  set g := grain num den
  have hu : (0 : ℚ) < 2 ^ 970 := by positivity
  have hpow (k : ℕ) : (2 : ℚ) ^ ((970 + k : ℕ) : ℤ) = 2 ^ k * 2 ^ 970 := by
    rw [zpow_natCast, pow_add, mul_comm]
  generalize (2 : ℚ) ^ 970 = u at hpow hu
  rcases lt_trichotomy g maxExponent with hsmall | hmax | hlarge
  · -- The ratio is below the power of two at which the greatest exponent starts.
    refine iff_of_false (by omega) (not_le.2 ?_)
    have hg : (2 : ℚ) ^ g ≤ 2 ^ ((970 + 0 : ℕ) : ℤ) :=
      zpow_le_zpow_right₀ one_le_two (Int.lt_add_one_iff.1 hsmall)
    rw [hpow] at hg
    rw [div_lt_iff₀ (by positivity)] at hlt
    nlinarith
  · have hg : (2 : ℚ) ^ g = 2 * u := by
      rw [hmax, ← pow_one (2 : ℚ), ← hpow 1]
      norm_num [maxExponent]
    rw [hg] at hround hlt
    have hhalf : ((2 ^ 54 - 1) * u : ℚ) ≤ x ↔ 2 ^ 53 - 1 / 2 ≤ x / (2 * u) := by
      rw [le_div_iff₀ (by positivity)]
      ring_nf
    rw [hhalf]
    constructor
    · rintro (hlt' | ⟨-, rfl⟩)
      · omega
      · have hdist := (abs_le.1 hround.1).1
        push_cast at hdist
        linarith
    · intro hge
      refine .inr ⟨hmax, hround.unique ⟨?_, fun _ => ?_⟩⟩
      · rw [abs_le]
        push_cast
        constructor <;> linarith
      · exact Nat.even_pow.2 ⟨even_two, by norm_num⟩
  · refine iff_of_true (.inl hlarge) ?_
    have hmin : minExponent < g := lt_trans (by decide) hlarge
    have hg : (2 : ℚ) ^ ((970 + 2 : ℕ) : ℤ) ≤ 2 ^ g :=
      zpow_le_zpow_right₀ one_le_two hlarge
    rw [hpow] at hg
    have hlow := hle hmin
    rw [le_div_iff₀ (by positivity)] at hlow
    nlinarith

theorem ofInt_infinite_iff {n : ℤ} :
    (∃ sign, ofInt n = .infinite sign) ↔ leastInfinite ≤ n.natAbs := by
  rw [ofInt, ofRatio_infinite_iff one_pos, Nat.cast_one, div_one, Nat.cast_le]

end Double

end ShapeForge
