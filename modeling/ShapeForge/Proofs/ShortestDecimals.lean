import ShapeForge.Proofs.Rounding

/-!
# Decimals that give a double back

The decimal that is written for a double lies between the midpoints around it, so it is rounded to
this double again (`Shortest.decimal_within`, `Double.ofDecimal_of_within`). With each further digit
the grid of decimals gets finer; with seventeen digits its step is less than the distance of the two
midpoints, and one of the two grid points around the double lies between them
(`Shortest.candidate?_seventeen`).
-/

namespace ShapeForge.Shortest

open Double (Within Canonical minExponent maxExponent)

/-! ## Powers of ten -/

theorem powerOfTen_spec (k : ℤ) : 0 < (powerOfTen k).1 ∧ 0 < (powerOfTen k).2
    ∧ (10 : ℚ) ^ k = (powerOfTen k).1 / (powerOfTen k).2 := by
  unfold powerOfTen
  split_ifs with h
  · refine ⟨Nat.pow_pos (by norm_num), one_pos, ?_⟩
    rw [Double.cast_pow_toNat 10 h]
    simp
  · refine ⟨one_pos, Nat.pow_pos (by norm_num), ?_⟩
    rw [Double.cast_pow_neg_toNat 10 (not_le.1 h)]
    simp

theorem atLeastPower_iff {num den : ℕ} (hden : 0 < den) (k : ℤ) :
    atLeastPower num den k = true ↔ (10 : ℚ) ^ k ≤ num / den := by
  obtain ⟨-, hb, hpow⟩ := powerOfTen_spec k
  have hden' : (0 : ℚ) < den := by exact_mod_cast hden
  have hb' : (0 : ℚ) < (powerOfTen k).2 := by exact_mod_cast hb
  rw [hpow, div_le_div_iff₀ hb' hden', mul_comm]
  unfold atLeastPower
  rw [decide_eq_true_eq]
  exact_mod_cast Iff.rfl

/-- The guess is at most one too high, since `10 ^ 1233 ≤ 2 ^ 4096 ≤ 10 ^ 1234`. -/
theorem ten_zpow_guess_le {e : ℤ} (he : -4096 ≤ e) :
    (10 : ℚ) ^ (Int.fdiv (e * 1233) 4096 - 1) ≤ 2 ^ e := by
  have hlow : (10 : ℚ) ^ 1233 ≤ 2 ^ 4096 := by
    have h : 10 ^ 1233 ≤ 2 ^ 4096 := by decide +kernel
    exact_mod_cast h
  have hhigh : (2 : ℚ) ^ 4096 ≤ 10 ^ 1234 := by
    have h : 2 ^ 4096 ≤ 10 ^ 1234 := by decide +kernel
    exact_mod_cast h
  set g : ℤ := Int.fdiv (e * 1233) 4096 with hg
  have hfloor : g * 4096 ≤ e * 1233 := by
    rw [hg, Int.fdiv_eq_ediv_of_nonneg _ (by norm_num)]
    omega
  have htwo : ((2 : ℚ) ^ e) ^ 4096 = (2 ^ 4096) ^ e := by
    rw [← zpow_natCast, ← zpow_natCast, ← zpow_mul, ← zpow_mul, mul_comm]
  have hten (n : ℕ) : ((10 : ℚ) ^ n) ^ e = 10 ^ (n * e) := by
    rw [← zpow_natCast, ← zpow_mul]
  refine (pow_le_pow_iff_left₀ (by positivity) (by positivity) (by norm_num : 4096 ≠ 0)).1 ?_
  rw [htwo, ← zpow_natCast, ← zpow_mul]
  rcases le_or_gt 0 e with hpos | hneg
  · calc (10 : ℚ) ^ ((g - 1) * (4096 : ℕ)) ≤ 10 ^ ((1233 : ℕ) * e) := by
          refine zpow_le_zpow_right₀ (by norm_num) ?_
          push_cast
          omega
      _ = (10 ^ 1233) ^ e := (hten 1233).symm
      _ ≤ (2 ^ 4096) ^ e := zpow_le_zpow_left₀ hpos (by positivity) hlow
  · calc (10 : ℚ) ^ ((g - 1) * (4096 : ℕ)) ≤ 10 ^ ((1234 : ℕ) * e) := by
          refine zpow_le_zpow_right₀ (by norm_num) ?_
          push_cast
          omega
      _ = (10 ^ 1234) ^ e := (hten 1234).symm
      _ ≤ (2 ^ 4096) ^ e := by
        rw [← neg_neg e, zpow_neg _ (-e), zpow_neg _ (-e)]
        exact inv_anti₀ (by positivity) (zpow_le_zpow_left₀ (by omega) (by positivity) hhigh)

theorem log10Ratio_le {num den : ℕ} (hnum : 0 < num) (hden : 0 < den)
    (hlog : -4096 ≤ Double.log2Ratio num den) : (10 : ℚ) ^ log10Ratio num den ≤ num / den := by
  unfold log10Ratio
  dsimp only
  split_ifs with h1 h2
  · exact (ten_zpow_guess_le hlog).trans (Double.log2Ratio_spec hnum hden).1
  · exact (atLeastPower_iff hden _).1 h2
  · exact (atLeastPower_iff hden _).1 (by simpa using h1)

/-! ## Grid points in an interval -/

namespace Interval

variable {i : Interval} {c : ℕ} {k : ℤ}

/-- An interval as it stands around its value. -/
structure Proper (i : Interval) : Prop where
  den_pos : 0 < i.den
  low_lt : i.low < i.value
  lt_high : i.value < i.high

theorem contains_iff (hden : 0 < i.den) : i.contains c k = true ↔
    (i.low : ℚ) / i.den ≤ c * 10 ^ k ∧ (c : ℚ) * 10 ^ k ≤ i.high / i.den
      ∧ (i.closed = false →
        (i.low : ℚ) / i.den ≠ c * 10 ^ k ∧ (c : ℚ) * 10 ^ k ≠ i.high / i.den) := by
  obtain ⟨-, hb, hpow⟩ := powerOfTen_spec k
  set a := (powerOfTen k).1 with ha
  set b := (powerOfTen k).2 with hbdef
  have hden' : (0 : ℚ) < i.den := by exact_mod_cast hden
  have hb' : (0 : ℚ) < b := by exact_mod_cast hb
  have hx : (c : ℚ) * 10 ^ k = (c * a : ℕ) / b := by
    rw [hpow]
    push_cast
    ring
  have hlow : (i.low : ℚ) / i.den ≤ c * 10 ^ k ↔ i.low * b ≤ c * a * i.den := by
    rw [hx, div_le_div_iff₀ hden' hb']
    exact_mod_cast Iff.rfl
  have hhigh : (c : ℚ) * 10 ^ k ≤ i.high / i.den ↔ c * a * i.den ≤ i.high * b := by
    rw [hx, div_le_div_iff₀ hb' hden']
    exact_mod_cast Iff.rfl
  have hlow' : (i.low : ℚ) / i.den = c * 10 ^ k ↔ i.low * b = c * a * i.den := by
    rw [hx, div_eq_div_iff hden'.ne' hb'.ne']
    exact_mod_cast Iff.rfl
  have hhigh' : (c : ℚ) * 10 ^ k = i.high / i.den ↔ c * a * i.den = i.high * b := by
    rw [hx, div_eq_div_iff hb'.ne' hden'.ne']
    exact_mod_cast Iff.rfl
  rw [hlow, hhigh, Ne, Ne, hlow', hhigh']
  unfold contains
  dsimp only
  rw [← ha, ← hbdef]
  split_ifs with hclosed
  · simp [hclosed]
  · rw [Bool.not_eq_true] at hclosed
    simp only [Bool.and_eq_true, decide_eq_true_eq, hclosed, true_implies]
    omega

theorem contains_of_candidate? (h : i.candidate? k = some c) : i.contains c k = true := by
  unfold candidate? at h
  dsimp only at h
  split at h
  · rename_i hfloor hnext
    split_ifs at h <;> · obtain rfl := Option.some.inj h; assumption
  · obtain rfl := Option.some.inj h
    assumption
  · obtain rfl := Option.some.inj h
    assumption
  · cases h

/-- The two grid points next to the value are tried, so a grid that is fine enough has one in the
interval. -/
theorem candidate?_isSome (hi : i.Proper)
    (hfine : (10 : ℚ) ^ k < (i.high : ℚ) / i.den - i.low / i.den) : (i.candidate? k).isSome := by
  obtain ⟨ha, hb, hpow⟩ := powerOfTen_spec k
  set a := (powerOfTen k).1 with hadef
  set b := (powerOfTen k).2 with hbdef
  have hden' : (0 : ℚ) < i.den := by exact_mod_cast hi.den_pos
  have hb' : (0 : ℚ) < b := by exact_mod_cast hb
  have hstep : 0 < a * i.den := Nat.mul_pos ha hi.den_pos
  set c := i.value * b / (a * i.den) with hc
  have hlow : (i.low : ℚ) / i.den < i.value / i.den := by
    gcongr
    exact hi.low_lt
  have hhigh : (i.value : ℚ) / i.den < i.high / i.den := by
    gcongr
    exact hi.lt_high
  have hfloor : (c : ℚ) * 10 ^ k ≤ i.value / i.den := by
    have h : c * (a * i.den) ≤ i.value * b := Nat.div_mul_le_self _ _
    rw [hpow, ← mul_div_assoc, div_le_div_iff₀ hb' hden', mul_assoc]
    exact_mod_cast h
  have hnext : (i.value : ℚ) / i.den < (c + 1 : ℕ) * 10 ^ k := by
    have h : i.value * b < (c + 1) * (a * i.den) := by
      rw [mul_comm (c + 1)]
      exact Nat.lt_mul_div_succ _ hstep
    rw [hpow, ← mul_div_assoc, div_lt_div_iff₀ hden' hb', mul_assoc]
    exact_mod_cast h
  have hone : i.contains c k = true ∨ i.contains (c + 1) k = true := by
    rcases lt_or_ge ((i.low : ℚ) / i.den) (c * 10 ^ k) with hlt | hge
    · refine .inl ((contains_iff hi.den_pos).2 ⟨hlt.le, by linarith, fun _ => ⟨hlt.ne, ?_⟩⟩)
      exact (hfloor.trans_lt hhigh).ne
    · have htop : ((c + 1 : ℕ) : ℚ) * 10 ^ k < i.high / i.den := by
        push_cast
        linarith
      refine .inr ((contains_iff hi.den_pos).2 ⟨by linarith, htop.le, fun _ => ⟨?_, htop.ne⟩⟩)
      exact (hlow.trans hnext).ne
  unfold candidate?
  dsimp only
  rw [← hadef, ← hbdef, ← hc]
  rcases hfirst : i.contains c k with _ | _ <;> rcases hsecond : i.contains (c + 1) k with _ | _
  · simp [hfirst, hsecond] at hone
  · rfl
  · rfl
  · dsimp only
    split_ifs <;> rfl

end Interval

/-! ## The interval of a double -/

/-- The interval of a double reaches from midpoint to midpoint. -/
theorem interval_spec {m : ℕ} (hm : 0 < m) (q : ℤ) : (interval m q).Proper
    ∧ ((interval m q).low : ℚ) / (interval m q).den
      = (4 * m - if m = 2 ^ 52 ∧ minExponent < q then 1 else 2) * 2 ^ (q - 2)
    ∧ ((interval m q).value : ℚ) / (interval m q).den = m * 2 ^ q
    ∧ ((interval m q).high : ℚ) / (interval m q).den = (4 * m + 2) * 2 ^ (q - 2)
    ∧ (interval m q).closed = (m % 2 == 0) := by
  set below : ℕ := if m == Nat.pow 2 52 && decide (minExponent < q) then 1 else 2 with hbelow
  have hcast : (below : ℚ) = if m = 2 ^ 52 ∧ minExponent < q then 1 else 2 := by
    have hiff : (m == Nat.pow 2 52 && decide (minExponent < q)) = true
        ↔ m = 2 ^ 52 ∧ minExponent < q := by
      rw [Bool.and_eq_true, beq_iff_eq, decide_eq_true_eq]
      rfl
    rw [hbelow, if_congr hiff rfl rfl]
    split_ifs <;> rfl
  have hle : below ≤ 2 := by
    rw [hbelow]
    split_ifs <;> norm_num
  have hpos : 0 < below := by
    rw [hbelow]
    split_ifs <;> norm_num
  have hsub : ((4 * m - below : ℕ) : ℚ) = 4 * m - below := by
    rw [Nat.cast_sub (by omega)]
    push_cast
    rfl
  rw [← hcast, ← hsub]
  have hvalue : (m : ℚ) * 2 ^ q = (4 * m : ℕ) * 2 ^ (q - 2) := by
    rw [Double.two_zpow_eq]
    push_cast
    ring
  rw [hvalue]
  unfold interval
  dsimp only
  rw [← hbelow]
  split_ifs with hq
  · have hunit : ((Nat.pow 2 (q.toNat - 2) : ℕ) : ℚ) = 2 ^ (q - 2) := by
      rw [show q.toNat - 2 = (q - 2).toNat by omega, Double.cast_two_pow_toNat (by omega)]
    have hunit' : 0 < Nat.pow 2 (q.toNat - 2) := Nat.pow_pos two_pos
    refine ⟨⟨one_pos, ?_, ?_⟩, ?_, ?_, ?_, rfl⟩
    · exact Nat.mul_lt_mul_of_pos_right (by omega) hunit'
    · exact Nat.mul_lt_mul_of_pos_right (by omega) hunit'
    all_goals
      push_cast
      rw [hunit]
      ring
  · have hunit : ((Nat.pow 2 (2 - q).toNat : ℕ) : ℚ) = (2 ^ (q - 2))⁻¹ := by
      rw [show 2 - q = -(q - 2) by ring, Double.cast_two_pow_neg_toNat (by omega)]
    refine ⟨⟨Nat.pow_pos two_pos, by dsimp only; omega, by dsimp only; omega⟩, ?_, ?_, ?_, rfl⟩
    all_goals
      rw [hunit, div_inv_eq_mul]
    push_cast
    rfl

theorem within_of_contains {m c : ℕ} {q k : ℤ} (hm : 0 < m)
    (h : (interval m q).contains c k = true) : Within (c * 10 ^ k) m q := by
  obtain ⟨hi, hlow, -, hhigh, hclosed⟩ := interval_spec hm q
  rw [Interval.contains_iff hi.den_pos, hlow, hhigh] at h
  obtain ⟨hge, hle, hopen⟩ := h
  refine ⟨hge, hle, fun hend => ?_⟩
  rcases hparity : (interval m q).closed with _ | _
  · obtain ⟨hne, hne'⟩ := hopen hparity
    rcases hend with hend | hend
    · exact absurd hend.symm hne
    · exact absurd hend hne'
  · rw [hclosed, beq_iff_eq] at hparity
    exact Nat.even_iff.2 hparity

/-- With seventeen digits the grid is finer than the interval is wide. -/
theorem candidate?_seventeen {m : ℕ} {q : ℤ} (hm : 0 < m) (hlt : m < 2 ^ 53)
    (hq : minExponent ≤ q) : ((interval m q).candidate?
      (log10Ratio (interval m q).value (interval m q).den - 16)).isSome := by
  obtain ⟨hi, hlow, hvalue, hhigh, -⟩ := interval_spec hm q
  have hpos : 0 < (interval m q).value := (Nat.zero_le _).trans_lt hi.low_lt
  have hm1 : (1 : ℚ) ≤ m := by exact_mod_cast hm
  have hm2 : (m : ℚ) < 2 ^ 53 := by exact_mod_cast hlt
  have hp : (0 : ℚ) < 2 ^ (q - 2) := by positivity
  have hlog2 : -4096 ≤ Double.log2Ratio (interval m q).value (interval m q).den := by
    have hsize : (2 : ℚ) ^ q < 2 ^ (Double.log2Ratio (interval m q).value (interval m q).den + 1) :=
      calc (2 : ℚ) ^ q ≤ m * 2 ^ q := le_mul_of_one_le_left (by positivity) hm1
        _ = (interval m q).value / (interval m q).den := hvalue.symm
        _ < _ := (Double.log2Ratio_spec hpos hi.den_pos).2
    have hexp := (zpow_lt_zpow_iff_right₀ one_lt_two).1 hsize
    unfold minExponent at hq
    omega
  have hlog := log10Ratio_le hpos hi.den_pos hlog2
  refine Interval.candidate?_isSome hi ?_
  rw [hvalue, Double.two_zpow_eq] at hlog
  rw [zpow_sub₀ (by norm_num), hlow, hhigh]
  norm_num
  rw [div_lt_iff₀ (by norm_num)]
  -- The step is at most `m / 10 ^ 16` grains, and the interval is three quarters of a grain or one.
  split_ifs with hpower
  · have hm52 : (m : ℚ) = 4503599627370496 := by exact_mod_cast hpower.1
    rw [hm52] at hlog
    nlinarith
  · nlinarith

theorem candidate?_search {i : Interval} {log : ℤ} : ∀ {fuel digits : ℕ},
    (i.candidate? (log - (digits + fuel : ℕ))).isSome →
      i.candidate? (search i log fuel digits).2 = some (search i log fuel digits).1
  | 0, digits, h => by
    obtain ⟨c, hc⟩ := Option.isSome_iff_exists.1 h
    rw [Nat.add_zero] at hc
    simp [search, hc]
  | fuel + 1, digits, h => by
    rw [search]
    rcases hc : i.candidate? (log - digits) with _ | c
    · refine candidate?_search ?_
      rwa [Nat.add_right_comm]
    · exact hc

theorem normalize_value : ∀ (fuel c : ℕ) (k : ℤ),
    ((normalize fuel c k).1 : ℚ) * 10 ^ (normalize fuel c k).2 = c * 10 ^ k
  | 0, _, _ => rfl
  | fuel + 1, c, k => by
    rw [normalize]
    split_ifs with h
    · rw [normalize_value fuel (c / 10) (k + 1), zpow_add_one₀ (by norm_num)]
      have hdvd : 10 ∣ c := by
        simp only [Bool.and_eq_true, beq_iff_eq] at h
        exact Nat.dvd_of_mod_eq_zero h.2
      obtain ⟨d, rfl⟩ := hdvd
      rw [Nat.mul_div_cancel_left d (by norm_num)]
      push_cast
      ring
    · rfl

/-- The decimal of a double lies around it. -/
theorem decimal_within {m : ℕ} {q : ℤ} (hm : 0 < m) (hlt : m < 2 ^ 53) (hq : minExponent ≤ q) :
    Within ((decimal m q).1 * 10 ^ (decimal m q).2) m q := by
  unfold decimal
  dsimp only
  rw [normalize_value]
  exact within_of_contains hm
    (Interval.contains_of_candidate? (candidate?_search (candidate?_seventeen hm hlt hq)))

end ShapeForge.Shortest

namespace ShapeForge.Double

/-! ## Reading decimals -/

theorem decimalLength_spec {c : ℕ} (hc : 0 < c) :
    10 ^ (decimalLength c - 1) ≤ c ∧ c < 10 ^ decimalLength c := by
  have hpos : 0 < decimalLength c := Nat.length_toDigits_pos
  refine ⟨?_, (Nat.length_toDigits_le_iff (by norm_num) hpos).1 le_rfl⟩
  by_contra hlt
  rcases Nat.eq_zero_or_pos (decimalLength c - 1) with hone | hmore
  · rw [hone] at hlt
    omega
  · have hle := (Nat.length_toDigits_le_iff (b := 10) (by norm_num) hmore).2 (not_le.1 hlt)
    exact absurd hle (by unfold decimalLength at hpos ⊢; omega)

/-- The numbers around a double are far from those that are settled by their digits alone. -/
theorem within_bounds {x : ℚ} {negative : Bool} {m : ℕ} {q : ℤ}
    (hcanonical : (finite negative m q).Canonical) (hm : 0 < m) (hx : Within x m q) :
    (10 : ℚ) ^ (-330 : ℤ) ≤ x ∧ x ≤ 10 ^ (309 : ℤ) := by
  obtain ⟨hlt, hmin, hmax, -⟩ := hcanonical
  have hm1 : (1 : ℚ) ≤ m := by exact_mod_cast hm
  have hm2 : (m : ℚ) + 1 ≤ 2 ^ 53 := by exact_mod_cast hlt
  have hp : (0 : ℚ) < 2 ^ (q - 2) := by positivity
  constructor
  · have hsmall : (10 : ℚ) ^ (-330 : ℤ) ≤ 2 ^ (-1076 : ℤ) := by
      have h : (2 : ℚ) ^ 1076 ≤ 10 ^ 330 := by
        have hnat : 2 ^ 1076 ≤ 10 ^ 330 := by decide +kernel
        exact_mod_cast hnat
      rw [zpow_neg, zpow_neg]
      exact inv_anti₀ (by positivity) h
    have hunit : (2 : ℚ) ^ (-1076 : ℤ) ≤ 2 ^ (q - 2) := by
      refine zpow_le_zpow_right₀ one_le_two ?_
      unfold minExponent at hmin
      omega
    refine hsmall.trans (hunit.trans (le_trans ?_ hx.low))
    split_ifs <;> nlinarith
  · have hmantissa : 4 * (m : ℚ) + 2 ≤ 2 ^ 55 := by linarith
    have hunit : (2 : ℚ) ^ (q - 2) ≤ 2 ^ (969 : ℤ) := by
      refine zpow_le_zpow_right₀ one_le_two ?_
      unfold maxExponent at hmax
      omega
    have hlarge : (2 : ℚ) ^ (1024 : ℤ) ≤ 10 ^ (309 : ℤ) := by
      have hnat : 2 ^ 1024 ≤ 10 ^ 309 := by decide +kernel
      exact_mod_cast hnat
    calc x ≤ (4 * m + 2) * 2 ^ (q - 2) := hx.high
      _ ≤ 2 ^ 55 * 2 ^ (969 : ℤ) := mul_le_mul hmantissa hunit hp.le (by positivity)
      _ = 2 ^ (1024 : ℤ) := by
        rw [← zpow_natCast, ← zpow_add₀ two_ne_zero]
        rfl
      _ ≤ 10 ^ (309 : ℤ) := hlarge

/-- A decimal that lies around a double is read as it. -/
theorem ofDecimal_of_within {negative : Bool} {c m : ℕ} {e q : ℤ}
    (hcanonical : (finite negative m q).Canonical) (hm : 0 < m)
    (hx : Within (c * 10 ^ e) m q) : ofDecimal negative c e = .finite negative m q := by
  obtain ⟨hlow, hhigh⟩ := within_bounds hcanonical hm hx
  have hc : 0 < c := by
    rcases Nat.eq_zero_or_pos c with rfl | hc
    · have hpos : (0 : ℚ) < 10 ^ (-330 : ℤ) := by positivity
      simp only [Nat.cast_zero, zero_mul] at hlow
      linarith
    · exact hc
  obtain ⟨hge, hlt⟩ := decimalLength_spec hc
  have hlength : 0 < decimalLength c := Nat.length_toDigits_pos
  have hnotLarge : ¬ 310 < (decimalLength c : ℤ) + e := by
    have hle : (10 : ℚ) ^ ((decimalLength c : ℤ) - 1 + e) ≤ 10 ^ (309 : ℤ) := by
      refine le_trans ?_ hhigh
      rw [zpow_add₀ (by norm_num)]
      gcongr
      rw [← Nat.cast_pred hlength, zpow_natCast]
      exact_mod_cast hge
    have hexp := (zpow_le_zpow_iff_right₀ (by norm_num)).1 hle
    omega
  have hnotSmall : ¬ (decimalLength c : ℤ) + e < -330 := by
    have hlt' : (10 : ℚ) ^ (-330 : ℤ) < 10 ^ ((decimalLength c : ℤ) + e) := by
      refine hlow.trans_lt ?_
      rw [zpow_add₀ (by norm_num), zpow_natCast]
      gcongr
      exact_mod_cast hlt
    have hexp := (zpow_lt_zpow_iff_right₀ (by norm_num)).1 hlt'
    omega
  unfold ofDecimal
  dsimp only
  rw [if_neg hc.ne', if_neg hnotLarge, if_neg hnotSmall]
  have hpow (n : ℕ) : 0 < Nat.pow 10 n := Nat.pow_pos (by norm_num)
  split_ifs with he
  · refine ofRatio_of_within (Nat.mul_pos hc (hpow _)) one_pos negative hcanonical ?_
    rw [Nat.cast_one, div_one, Nat.cast_mul, cast_pow_toNat 10 he]
    exact_mod_cast hx
  · refine ofRatio_of_within hc (hpow _) negative hcanonical ?_
    rw [cast_pow_neg_toNat 10 (not_le.1 he), div_inv_eq_mul]
    exact_mod_cast hx

/-- A double that was read is written with the greatest mantissa. -/
theorem canonical_ofDecimal (negative : Bool) (c : ℕ) (e : ℤ) :
    (ofDecimal negative c e).Canonical := by
  have hzero : (zero negative).Canonical := ⟨by norm_num, le_refl _, by decide, fun _ => rfl⟩
  unfold ofDecimal
  dsimp only
  split_ifs
  · exact hzero
  · trivial
  · exact hzero
  · exact canonical_ofRatio one_pos negative
  · exact canonical_ofRatio (Nat.pow_pos (by decide)) negative

theorem ofRatio_ne_nan (negative : Bool) (num den : ℕ) : ofRatio negative num den ≠ .nan := by
  unfold ofRatio
  split_ifs
  · simp [zero]
  · dsimp only
    split_ifs <;> simp

theorem ofDecimal_ne_nan (negative : Bool) (c : ℕ) (e : ℤ) : ofDecimal negative c e ≠ .nan := by
  unfold ofDecimal
  dsimp only
  split_ifs
  · simp [zero]
  · simp
  · simp [zero]
  · exact ofRatio_ne_nan _ _ _
  · exact ofRatio_ne_nan _ _ _

/-- A decimal from the least number on that is rounded to an infinity becomes one; the digits alone
settle only what is far away from it. -/
theorem ofDecimal_infinite_iff {negative : Bool} {c : ℕ} {e : ℤ} :
    (∃ sign, ofDecimal negative c e = .infinite sign) ↔ (leastInfinite : ℚ) ≤ c * 10 ^ e := by
  have hpos : (1 : ℚ) ≤ leastInfinite := by
    have hnat : 1 ≤ leastInfinite := by decide +kernel
    exact_mod_cast hnat
  unfold ofDecimal
  dsimp only
  split_ifs with hc hlarge hsmall he
  · refine iff_of_false (by simp [zero]) ?_
    rw [hc, Nat.cast_zero, zero_mul, not_le]
    exact zero_lt_one.trans_le hpos
  · refine iff_of_true ⟨_, rfl⟩ ?_
    have hlength : 0 < decimalLength c := Nat.length_toDigits_pos
    have hge : ((10 : ℚ) ^ (decimalLength c - 1)) ≤ c := by
      exact_mod_cast (decimalLength_spec (Nat.pos_of_ne_zero hc)).1
    have hbound : (leastInfinite : ℚ) ≤ 10 ^ (310 : ℤ) := by
      have hnat : leastInfinite ≤ 10 ^ 310 := by decide +kernel
      exact_mod_cast hnat
    calc (leastInfinite : ℚ) ≤ 10 ^ (310 : ℤ) := hbound
      _ ≤ 10 ^ (((decimalLength c - 1 : ℕ) : ℤ) + e) := by
        refine zpow_le_zpow_right₀ (by norm_num) ?_
        omega
      _ = 10 ^ (decimalLength c - 1) * 10 ^ e := by
        rw [zpow_add₀ (by norm_num), zpow_natCast]
      _ ≤ c * 10 ^ e := by gcongr
  · refine iff_of_false (by simp [zero]) (not_le.2 (lt_of_lt_of_le ?_ hpos))
    have hlt : (c : ℚ) < 10 ^ decimalLength c := by
      exact_mod_cast (decimalLength_spec (Nat.pos_of_ne_zero hc)).2
    calc (c : ℚ) * 10 ^ e < 10 ^ decimalLength c * 10 ^ e := by gcongr
      _ = 10 ^ ((decimalLength c : ℤ) + e) := by rw [zpow_add₀ (by norm_num), zpow_natCast]
      _ ≤ 10 ^ (0 : ℤ) := by
        refine zpow_le_zpow_right₀ (by norm_num) ?_
        omega
      _ = 1 := zpow_zero _
  · rw [ofRatio_infinite_iff one_pos, Nat.cast_one, div_one, Nat.cast_mul, cast_pow_toNat 10 he]
    exact_mod_cast Iff.rfl
  · have hden : 0 < Nat.pow 10 (-e).toNat := Nat.pow_pos (by norm_num)
    rw [ofRatio_infinite_iff hden, cast_pow_neg_toNat 10 (not_le.1 he), div_inv_eq_mul]
    exact_mod_cast Iff.rfl

end ShapeForge.Double
