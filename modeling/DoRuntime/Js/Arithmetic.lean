import DoRuntime.Js.Number

namespace DoRuntime.Js

open Float.Model Float.Model.UnpackedFloat

/-- The rational number that a datum denotes, if it is finite. -/
def rational : UnpackedFloat → Option ℚ
  | .zero _ => some 0
  | .finite s m e _ => some ((s.apply m : ℤ) * 2 ^ e)
  | _ => none

section Rounding

theorem shiftRight_exact (k j : Nat) :
    ExtendedMantissa.mk (k * 2 ^ j) false false >>> j = ExtendedMantissa.mk k false false := by
  change j.repeat ExtendedMantissa.shiftRightOne _ = _
  induction j generalizing k with
  | zero => simp [Nat.repeat]
  | succ j ih =>
    have next := ih (k * 2)
    rw [Nat.repeat, show k * 2 ^ (j + 1) = k * 2 * 2 ^ j by ring, next]
    simp [ExtendedMantissa.shiftRightOne]

theorem log2_mul_two_pow {k : Nat} (positive : 0 < k) (j : Nat) : (k * 2 ^ j).log2 = k.log2 + j := by
  have scaled : k * 2 ^ j ≠ 0 := Nat.ne_of_gt (Nat.mul_pos positive (Nat.two_pow_pos j))
  have low := Nat.log2_self_le (Nat.ne_of_gt positive)
  have high : k < 2 ^ (k.log2 + 1) := Nat.lt_log2_self
  rw [Nat.log2_eq_iff scaled]
  constructor
  · rw [Nat.pow_add]
    exact Nat.mul_le_mul_right _ low
  · rw [show k.log2 + j + 1 = k.log2 + 1 + j by ring, Nat.pow_add]
    exact Nat.mul_lt_mul_of_pos_right high (Nat.two_pow_pos j)

/-- A mantissa of 53 bits, with an exponent that is not too small, is rounded to itself. -/
structure Normal (K : Nat) (T : Int) : Prop where
  low : 2 ^ 52 ≤ K
  high : K < 2 ^ 53
  least : -1074 ≤ T

variable {K : Nat} {T : Int}

theorem Normal.positive (normal : Normal K T) : 0 < K := Nat.lt_of_lt_of_le (Nat.two_pow_pos 52) normal.low

theorem Normal.log2 (normal : Normal K T) : K.log2 = 52 :=
  (Nat.log2_eq_iff (Nat.ne_of_gt normal.positive)).2 ⟨normal.low, normal.high⟩

theorem Normal.target (normal : Normal K T) {m : Nat} {e : Int} (total : (m.log2 : Int) + e = 52 + T) :
    Format.binary64.targetExponent (totalExponent m e) = T := by
  have least := normal.least
  simp only [Format.targetExponent, totalExponent, Format.mantissaBits, Format.minExponent]
  norm_num
  omega

theorem Normal.shifted (normal : Normal K T) (j : Nat) :
    shiftToTargetExponent Format.binary64 (K * 2 ^ j) (T - j) .exact = (⟨K, false, false⟩, T) := by
  have total : ((K * 2 ^ j).log2 : Int) + (T - j) = 52 + T := by
    rw [log2_mul_two_pow normal.positive, normal.log2]
    push_cast
    ring
  have amount : (T - (T - (j : Int))).toNat = j := by omega
  unfold shiftToTargetExponent shiftToExponent
  rw [normal.target total]
  dsimp only
  rw [amount]
  simp only [ExtendedMantissa.ofMantissaAndAccuracy, shiftRight_exact]
  rw [sub_add_cancel]

theorem Normal.roundWithAccuracy (normal : Normal K T) (s : Sign) (j : Nat) :
    roundWithAccuracy Format.binary64 s (K * 2 ^ j) (T - j) .exact = .finite s K T normal.positive := by
  have again := normal.shifted 0
  rw [pow_zero, mul_one, Nat.cast_zero, sub_zero] at again
  unfold UnpackedFloat.roundWithAccuracy
  rw [normal.shifted j]
  simp only [ExtendedMantissa.roundedMantissa, ExtendedMantissa.accuracy, Accuracy.roundToNearestEven, again]
  rw [dif_neg (Nat.ne_of_gt normal.positive)]

/-- Two mantissas of one number, the second at the larger exponent. -/
theorem mantissa_eq {m k j : Nat} {e : Int} (same : (m : ℚ) * 2 ^ e = k * 2 ^ (e + j)) : m = k * 2 ^ j := by
  have unit : (2 : ℚ) ^ e ≠ 0 := zpow_ne_zero e two_ne_zero
  rw [zpow_add₀ two_ne_zero, zpow_natCast, mul_comm ((2 : ℚ) ^ e), ← mul_assoc] at same
  have cancelled := mul_right_cancel₀ unit same
  exact_mod_cast cancelled

theorem Normal.round (normal : Normal K T) (s : Sign) {m : Nat} {e : Int}
    (same : (m : ℚ) * 2 ^ e = K * 2 ^ T) : round Format.binary64 s m e = .finite s K T normal.positive := by
  unfold UnpackedFloat.round decreaseExponent
  rcases le_total e T with below | above
  · obtain ⟨j, rfl⟩ := Int.le.dest below
    obtain rfl := mantissa_eq same
    have total : ((K * 2 ^ j).log2 : Int) + e = 52 + (e + j) := by
      rw [log2_mul_two_pow normal.positive, normal.log2]
      push_cast
      ring
    rw [normal.target total]
    have amount : (e - (e + (j : Int))).toNat = 0 := by omega
    have exact := normal.roundWithAccuracy s j
    rw [add_sub_cancel_right] at exact
    simpa only [amount, Nat.shiftLeft_zero, Nat.cast_zero, sub_zero] using exact
  · obtain ⟨j, rfl⟩ := Int.le.dest above
    obtain scaled := mantissa_eq same.symm
    have positive : 0 < m := by
      by_contra none
      obtain rfl := Nat.eq_zero_of_not_pos none
      exact absurd (scaled.trans (Nat.zero_mul _)) (Nat.ne_of_gt normal.positive)
    have total : (m.log2 : Int) + (T + j) = 52 + T := by
      have bits := normal.log2
      rw [scaled, log2_mul_two_pow positive] at bits
      omega
    rw [normal.target total]
    have amount : (T + (j : Int) - T).toNat = j := by omega
    have exact := normal.roundWithAccuracy s 0
    rw [pow_zero, mul_one, Nat.cast_zero, sub_zero] at exact
    simpa only [amount, Nat.shiftLeft_eq, ← scaled, add_sub_cancel_right] using exact

end Rounding

section Packing

theorem implicit_bit (m : BitVec 52) : (1#1 ++ m).toNat = 2 ^ 52 + m.toNat := by
  rw [BitVec.toNat_append, ← Nat.shiftLeft_add_eq_or_of_lt m.isLt]
  simp [Nat.shiftLeft_eq]

theorem ofBitVec_toBitVec (s : Sign) : Sign.ofBitVec s.toBitVec = s := by
  cases s <;> rfl

theorem unpackSign_components (spec : Format) (s : Sign) (e : BitVec spec.exponentBits)
    (m : BitVec spec.mantissaBitsWithoutImplicit) : unpackSign (packComponents spec s e m) = s.toBitVec := by
  apply BitVec.eq_of_getLsbD_eq
  intro i bound
  obtain rfl : i = 0 := by omega
  simp [unpackSign, packComponents, BitVec.getLsbD_append, BitVec.getElem_append]

variable {K : Nat} {T : Int}

theorem Normal.unpack_pack (normal : Normal K T) (top : T ≤ 971) (s : Sign) :
    unpack Format.binary64 (pack Format.binary64 (.finite s K T normal.positive))
      = .finite s K T normal.positive := by
  have least := normal.least
  obtain ⟨b, biased⟩ : ∃ b : Nat, T + 1075 = b := ⟨(T + 1075).toNat, (Int.toNat_of_nonneg (by omega)).symm⟩
  have range : 1 ≤ b ∧ b ≤ 2046 := by omega
  have exponent : (BitVec.ofNat 11 b).toNat = b := by
    rw [BitVec.toNat_ofNat, Nat.mod_eq_of_lt (by omega)]
  have mantissa : (1#1 ++ BitVec.ofNat 52 K).toNat = K := by
    rw [implicit_bit, BitVec.toNat_ofNat]
    have low := normal.low
    have high := normal.high
    omega
  have finite : ¬ 2 ^ 11 ≤ b + 1 := by omega
  have biased_toNat : (T + (Format.binary64.exponentBias : Int) + (52 : Nat)).toNat = b := by
    simp only [Format.exponentBias]
    norm_num
    omega
  have bits : K.log2 + 1 = Format.binary64.mantissaBits := by
    rw [normal.log2]
    rfl
  have packed : pack Format.binary64 (.finite s K T normal.positive) =
      packComponents Format.binary64 s (BitVec.ofNat 11 b) (BitVec.ofNat 52 K) := by
    unfold UnpackedFloat.pack
    simp only [biased_toNat]
    rw [if_neg finite, if_pos bits]
  have unmasked : BitVec.ofNat 11 b ≠ -1#11 := by
    intro same
    have value := congrArg BitVec.toNat same
    rw [exponent] at value
    simp at value
    omega
  have nonzero : BitVec.ofNat 11 b ≠ 0#11 := by
    intro same
    have value := congrArg BitVec.toNat same
    rw [exponent] at value
    simp at value
    omega
  rw [packed]
  unfold UnpackedFloat.unpack
  simp only [unpackMantissa_packComponents, unpackExponent_packComponents, unpackSign_components,
    ofBitVec_toBitVec]
  rw [if_neg unmasked, if_neg nonzero]
  simp only [exponent, mantissa]
  congr 1
  simp only [Format.exponentBias]
  norm_num
  omega

theorem unpack_finite {b : BitVec 64} {s : Sign} {positive : 0 < K}
    (unpacked : unpack Format.binary64 b = .finite s K T positive) : (Normal K T ∨ K < 2 ^ 52 ∧ T = -1074) ∧
      T ≤ 971 := by
  unfold UnpackedFloat.unpack at unpacked
  simp only [Format.exponentBias] at unpacked
  norm_num at unpacked
  have below : (@unpackExponent Format.binary64 b).toNat < 2 ^ 11 := BitVec.isLt _
  have fraction : (@unpackMantissa Format.binary64 b).toNat < 2 ^ 52 := BitVec.isLt _
  split at unpacked
  · split at unpacked <;> cases unpacked
  rename_i unmasked
  split at unpacked
  · rename_i zero
    split at unpacked
    · cases unpacked
    · cases unpacked
      rw [zero]
      exact ⟨.inr ⟨fraction, by simp⟩, by simp⟩
  · rename_i nonzero
    cases unpacked
    have least : 1 ≤ (@unpackExponent Format.binary64 b).toNat := by
      by_contra none
      exact nonzero (BitVec.eq_of_toNat_eq (by simpa using none))
    have most : (@unpackExponent Format.binary64 b).toNat ≤ 2046 := by
      by_contra more
      apply unmasked
      apply BitVec.eq_of_toNat_eq
      simp
      omega
    have bit : (1 <<< 52 ||| (@unpackMantissa Format.binary64 b).toNat) =
        2 ^ 52 + (@unpackMantissa Format.binary64 b).toNat := by
      rw [← Nat.shiftLeft_add_eq_or_of_lt fraction]
      rfl
    rw [bit]
    exact ⟨.inl ⟨by omega, by omega, by omega⟩, by omega⟩

end Packing

section Values

theorem apply_mul (s : Sign) (m k : Int) : s.apply (m * k) = s.apply m * k := by
  cases s <;> simp [Sign.apply]

theorem apply_natAbs (s : Sign) (m : Int) : (s.apply m).natAbs = m.natAbs := by
  cases s <;> simp [Sign.apply]

theorem scaled_eq (x n : Int) (j : Nat) : (x : ℚ) * 2 ^ (-(j : Int)) = n ↔ x = n * 2 ^ j := by
  have unit : (2 : ℚ) ^ j ≠ 0 := pow_ne_zero j two_ne_zero
  rw [zpow_neg, zpow_natCast, ← div_eq_mul_inv, div_eq_iff unit]
  exact_mod_cast Iff.rfl

theorem integralValue_iff (x : Float) (n : Int) :
    integralValue x = some n ↔ rational x.toModel.unpack = some (n : ℚ) := by
  unfold integralValue
  cases x.toModel.unpack with
  | notANumber => simp [rational]
  | infinity s => simp [rational]
  | zero s =>
    simp only [rational, Option.some.injEq]
    exact_mod_cast Iff.rfl
  | finite s m e positive =>
    simp only [rational, Option.some.injEq]
    by_cases whole : 0 ≤ e
    · obtain ⟨j, rfl⟩ := Int.eq_ofNat_of_zero_le whole
      rw [if_pos whole, apply_mul, Int.toNat_natCast, zpow_natCast, Option.some.injEq]
      exact_mod_cast Iff.rfl
    · obtain ⟨j, negative⟩ := Int.eq_ofNat_of_zero_le (show 0 ≤ -e by omega)
      obtain rfl : e = -(j : Int) := by omega
      rw [if_neg whole, scaled_eq, neg_neg, Int.toNat_natCast]
      by_cases divides : m % 2 ^ j = 0
      · rw [if_pos divides, Option.some.injEq]
        obtain ⟨q, rfl⟩ := Nat.dvd_of_mod_eq_zero divides
        have unit : (2 : Int) ^ j ≠ 0 := pow_ne_zero j two_ne_zero
        have quotient : ((2 ^ j * q : Nat) : Int) / 2 ^ j = q := by
          push_cast
          exact Int.mul_ediv_cancel_left _ unit
        have product : s.apply ((2 ^ j * q : Nat) : Int) = s.apply q * 2 ^ j := by
          rw [← apply_mul]
          push_cast
          rw [mul_comm]
        rw [quotient, product]
        exact ⟨fun same => by rw [same], fun same => mul_right_cancel₀ unit same⟩
      · rw [if_neg divides]
        refine ⟨fun impossible => (by cases impossible), fun same => absurd ?_ divides⟩
        have size := congrArg Int.natAbs same
        rw [apply_natAbs, Int.natAbs_mul, Int.natAbs_natCast, Int.natAbs_pow] at size
        rw [size]
        exact Nat.mul_mod_left _ _

theorem multiple_large {m k j : Nat} (positive : 0 < m) (long : 52 ≤ j) (same : m = k * 2 ^ j)
    : 2 ^ 52 ≤ m := by
  have some : 0 < k := by
    by_contra none
    rw [Nat.eq_zero_of_not_pos none, Nat.zero_mul] at same
    exact absurd same (Nat.ne_of_gt positive)
  rw [same]
  exact (Nat.pow_le_pow_right (by decide) long).trans (Nat.le_mul_of_pos_left _ some)

/-- An integer other than zero is a normal number. -/
theorem unpack_normal {x : Float} {s : Sign} {m : Nat} {e : Int} {positive : 0 < m}
    (unpacked : x.toModel.unpack = .finite s m e positive) {n : Int} (value : integralValue x = some n) :
    Normal m e ∧ e ≤ 971 := by
  obtain ⟨shape, top⟩ := unpack_finite unpacked
  refine ⟨?_, top⟩
  rcases shape with normal | ⟨small, least⟩
  · exact normal
  · obtain ⟨j, long, same⟩ : ∃ j : Nat, 52 ≤ j ∧ e = -(j : Int) := ⟨1074, by decide, least⟩
    rw [integralValue_iff, unpacked, rational, Option.some.injEq, same, scaled_eq] at value
    have size := congrArg Int.natAbs value
    rw [apply_natAbs, Int.natAbs_mul, Int.natAbs_natCast, Int.natAbs_pow] at size
    exact absurd (multiple_large positive long size) (Nat.not_le.2 small)

/-- A whole number of at most 53 bits, or the next one, as a normal number. -/
theorem exists_normal {n : Nat} (positive : 0 < n) (small : n ≤ 2 ^ 53) :
    ∃ K T, Normal K T ∧ T ≤ 971 ∧ (n : ℚ) = K * 2 ^ T := by
  rcases Nat.eq_or_lt_of_le small with rfl | small
  · refine ⟨2 ^ 52, 1, ⟨Nat.le_refl _, by decide, by decide⟩, by decide, ?_⟩
    norm_num
  have bits : n.log2 ≤ 52 := Nat.le_of_lt_succ ((Nat.log2_lt (Nat.ne_of_gt positive)).2 small)
  have low := Nat.log2_self_le (Nat.ne_of_gt positive)
  have high : n < 2 ^ (n.log2 + 1) := Nat.lt_log2_self
  obtain ⟨j, same⟩ := Nat.exists_eq_add_of_le bits
  refine ⟨n * 2 ^ j, -(j : Int), ⟨?_, ?_, by omega⟩, by omega, ?_⟩
  · rw [same, Nat.pow_add]
    exact Nat.mul_le_mul_right _ low
  · rw [show 53 = n.log2 + 1 + j by omega, Nat.pow_add]
    exact Nat.mul_lt_mul_of_pos_right high (Nat.two_pow_pos j)
  · have unit : (2 : ℚ) ^ j ≠ 0 := pow_ne_zero j two_ne_zero
    push_cast
    rw [zpow_neg, zpow_natCast, mul_assoc, mul_inv_cancel₀ unit, mul_one]

theorem unpack_pack_zero (s : Sign) : unpack Format.binary64 (pack Format.binary64 (.zero s)) = .zero s := by
  cases s <;> rfl

theorem round_value {m : Nat} {e : Int} {n : Nat} (s : Sign) (positive : 0 < n) (same : (m : ℚ) * 2 ^ e = n)
    (small : n ≤ 2 ^ 53) : rational (unpack Format.binary64 (pack Format.binary64
      (UnpackedFloat.round Format.binary64 s m e))) = some ((s.apply n : ℤ) : ℚ) := by
  obtain ⟨K, T, normal, top, value⟩ := exists_normal positive small
  rw [normal.round s (same.trans value), normal.unpack_pack top, rational]
  cases s with
  | positive =>
    simp only [Sign.apply, Int.cast_natCast]
    rw [value]
  | negative =>
    simp only [Sign.apply, Int.cast_neg, Int.cast_natCast]
    rw [value, neg_mul]

theorem normalize_value {μ e n : Int} (zeroSign : Sign) (same : (μ : ℚ) * 2 ^ e = n)
    (small : n.natAbs ≤ 2 ^ 53) :
    rational (unpack Format.binary64 (pack Format.binary64
      (UnpackedFloat.normalize Format.binary64 μ e zeroSign))) = some (n : ℚ) := by
  have unit : (0 : ℚ) < 2 ^ e := zpow_pos two_pos e
  have size : (μ.natAbs : ℚ) * 2 ^ e = n.natAbs := by
    have sizes := congrArg (fun q : ℚ => |q|) same
    rw [abs_mul, abs_of_pos unit] at sizes
    rw [Nat.cast_natAbs, Nat.cast_natAbs, Int.cast_abs, Int.cast_abs]
    exact sizes
  unfold UnpackedFloat.normalize
  rcases lt_trichotomy μ 0 with negative | rfl | positive
  · have below : n < 0 := by
      have product : (μ : ℚ) * 2 ^ e < 0 := mul_neg_of_neg_of_pos (by exact_mod_cast negative) unit
      rw [same] at product
      exact_mod_cast product
    have rounded := round_value .negative (by omega) size small
    rw [show Sign.negative.apply n.natAbs = n by simp only [Sign.apply]; omega] at rounded
    rw [show compare μ 0 = .lt from Int.compare_eq_lt.2 negative]
    rwa [show μ.natAbs = (-μ).toNat by omega] at rounded
  · rw [Int.cast_zero, zero_mul] at same
    rw [← same]
    simp [unpack_pack_zero, rational]
  · have above : 0 < n := by
      have product : 0 < (μ : ℚ) * 2 ^ e := mul_pos (by exact_mod_cast positive) unit
      rw [same] at product
      exact_mod_cast product
    have rounded := round_value .positive (by omega) size small
    rw [show Sign.positive.apply n.natAbs = n by simp only [Sign.apply]; omega] at rounded
    rw [show compare μ 0 = .gt from Int.compare_eq_gt.2 positive]
    rwa [show μ.natAbs = μ.toNat by omega] at rounded

theorem decreaseExponent_value (s : Sign) (m : Nat) {e t : Int} (least : t ≤ e) :
    ((s.apply (decreaseExponent m e t).1 : ℤ) : ℚ) * 2 ^ t = (s.apply m : ℤ) * 2 ^ e := by
  obtain ⟨j, rfl⟩ := Int.le.dest least
  have amount : (t + (j : Int) - t).toNat = j := by omega
  simp only [decreaseExponent, amount, Nat.shiftLeft_eq]
  push_cast
  rw [apply_mul, zpow_add₀ two_ne_zero, zpow_natCast]
  push_cast
  ring

/-- The sum of two whole numbers is exact where it is a safe integer, or the next number. -/
theorem integralValue_add {a b : Float} {m n : Int} (first : integralValue a = some m)
    (second : integralValue b = some n)
    (small : (m + n).natAbs ≤ 2 ^ 53) : integralValue (a + b) = some (m + n) := by
  rw [integralValue_iff]
  change rational (unpack Format.binary64 (pack Format.binary64
    (UnpackedFloat.add Format.binary64 a.toModel.unpack b.toModel.unpack))) = _
  have left := (integralValue_iff a m).1 first
  have right := (integralValue_iff b n).1 second
  cases ua : a.toModel.unpack with
  | notANumber => rw [ua] at left; cases left
  | infinity s => rw [ua] at left; cases left
  | zero s =>
    rw [ua] at left
    obtain rfl : m = 0 := by
      have zero := Option.some.inj left
      exact_mod_cast zero.symm
    rw [zero_add]
    cases ub : b.toModel.unpack with
    | notANumber => rw [ub] at right; cases right
    | infinity t => rw [ub] at right; cases right
    | zero t =>
      rw [ub] at right
      have sum : ∃ u, UnpackedFloat.add Format.binary64 (.zero s) (.zero t) = .zero u := by
        cases s <;> cases t <;> exact ⟨_, rfl⟩
      obtain ⟨u, sum⟩ := sum
      rw [sum, unpack_pack_zero]
      exact right
    | finite t m₂ e₂ positive =>
      obtain ⟨normal, top⟩ := unpack_normal ub second
      change rational (unpack Format.binary64 (pack Format.binary64 (.finite t m₂ e₂ positive))) = _
      rw [normal.unpack_pack top, ← ub]
      exact right
  | finite s m₁ e₁ positive₁ =>
    cases ub : b.toModel.unpack with
    | notANumber => rw [ub] at right; cases right
    | infinity t => rw [ub] at right; cases right
    | zero t =>
      obtain ⟨normal, top⟩ := unpack_normal ua first
      rw [ub] at right
      obtain rfl : n = 0 := by
        have zero := Option.some.inj right
        exact_mod_cast zero.symm
      change rational (unpack Format.binary64 (pack Format.binary64 (.finite s m₁ e₁ positive₁))) = _
      rw [normal.unpack_pack top, ← ua, add_zero]
      exact left
    | finite t m₂ e₂ positive₂ =>
      rw [ua, rational, Option.some.injEq] at left
      rw [ub, rational, Option.some.injEq] at right
      apply normalize_value .positive _ small
      rw [Int.cast_add, add_mul, Int.cast_add]
      congr 1
      · exact (decreaseExponent_value s m₁ (min_le_left _ _)).trans left
      · exact (decreaseExponent_value t m₂ (min_le_right _ _)).trans right

theorem one_unpack : (Float.ofBits 0x3FF0000000000000).toModel.unpack =
    .finite .positive (2 ^ 52) (-52) (Nat.two_pow_pos 52) := by rfl

theorem integralValue_mul_one {x : Float} {n : Int} (value : integralValue x = some n) :
    integralValue (x * Float.ofBits 0x3FF0000000000000) = some n := by
  rw [integralValue_iff]
  change rational (unpack Format.binary64 (pack Format.binary64
    (UnpackedFloat.mul Format.binary64 x.toModel.unpack (Float.ofBits 0x3FF0000000000000).toModel.unpack)))
      = _
  rw [one_unpack]
  have right := (integralValue_iff x n).1 value
  cases ux : x.toModel.unpack with
  | notANumber => rw [ux] at right; cases right
  | infinity s => rw [ux] at right; cases right
  | zero s =>
    rw [ux] at right
    have product : UnpackedFloat.mul Format.binary64 (.zero s)
      (.finite .positive (2 ^ 52) (-52) (Nat.two_pow_pos 52)) =
        .zero (s * .positive) := rfl
    rw [product, unpack_pack_zero]
    exact right
  | finite s m e positive =>
    obtain ⟨normal, top⟩ := unpack_normal ux value
    have product : UnpackedFloat.mul Format.binary64 (.finite s m e positive)
        (.finite .positive (2 ^ 52) (-52) (Nat.two_pow_pos 52)) = .finite s m e positive := by
      have sign : s * Sign.positive = s := by cases s <;> rfl
      have rounded := normal.roundWithAccuracy s 52
      change UnpackedFloat.roundWithAccuracy Format.binary64 (s * .positive) (m * 2 ^ 52) (e + -52) .exact = _
      rw [sign]
      exact rounded
    rw [product, normal.unpack_pack top, ← ux]
    exact right

theorem integralValue_ofNat {n : Nat} (small : n < 2 ^ 53) : integralValue (Float.ofNat n) = some (n : Int)
    := by
  have whole : integralValue n.toUInt64.toFloat = some (n : Int) := by
    rw [integralValue_iff]
    have same : n.toUInt64.toNat = n := UInt64.toNat_ofNat_of_lt' (small.trans (by decide))
    apply normalize_value (n := (n : Int)) .positive
    · rw [same, zpow_zero, mul_one]
    · exact small.le
  change integralValue (Float.ofScientific n false 0) = _
  unfold Float.ofScientific
  rw [dif_pos ⟨small, Nat.zero_le _⟩]
  exact integralValue_mul_one whole

end Values

section Order

variable {K L : Nat} {T U : Int}

theorem Normal.lt_of_exponent (first : Normal K T) (second : Normal L U) (less : T < U) :
    (K : ℚ) * 2 ^ T < L * 2 ^ U := by
  have unit : (0 : ℚ) < 2 ^ T := zpow_pos two_pos T
  obtain ⟨j, rfl⟩ := Int.le.dest (Int.add_one_le_iff.2 less)
  have high : (K : ℚ) < 2 ^ 53 := by exact_mod_cast first.high
  have low : (2 : ℚ) ^ 52 ≤ L := by exact_mod_cast second.low
  have grown : (1 : ℚ) ≤ 2 ^ j := one_le_pow₀ one_le_two
  calc (K : ℚ) * 2 ^ T < 2 ^ 53 * 2 ^ T := mul_lt_mul_of_pos_right high unit
    _ = 2 ^ 52 * (2 ^ (T + 1) * 1) := by rw [zpow_add₀ two_ne_zero]; ring
    _ ≤ L * (2 ^ (T + 1) * 2 ^ j) := by gcongr
    _ = L * 2 ^ (T + 1 + (j : Int)) := by rw [zpow_add₀ two_ne_zero (T + 1), zpow_natCast]

/-- Normal numbers are compared by their exponents, then by their mantissas. -/
theorem Normal.compare (first : Normal K T) (second : Normal L U) :
    (compare T U).then (compare K L) = compare ((K : ℚ) * 2 ^ T) (L * 2 ^ U) := by
  rcases lt_trichotomy T U with less | rfl | more
  · rw [compare_lt_iff_lt.2 less, compare_lt_iff_lt.2 (first.lt_of_exponent second less)]
    rfl
  · have unit : (0 : ℚ) < 2 ^ T := zpow_pos two_pos T
    rw [compare_eq_iff_eq.2 rfl]
    change Ord.compare K L = _
    rcases lt_trichotomy K L with less | rfl | more
    · have product : (K : ℚ) * 2 ^ T < L * 2 ^ T := mul_lt_mul_of_pos_right (by exact_mod_cast less) unit
      rw [compare_lt_iff_lt.2 less, compare_lt_iff_lt.2 product]
    · rw [compare_eq_iff_eq.2 rfl, compare_eq_iff_eq.2 rfl]
    · have product : (L : ℚ) * 2 ^ T < K * 2 ^ T := mul_lt_mul_of_pos_right (by exact_mod_cast more) unit
      rw [compare_gt_iff_gt.2 more, compare_gt_iff_gt.2 product]
  · rw [compare_gt_iff_gt.2 more, compare_gt_iff_gt.2 (second.lt_of_exponent first more)]
    rfl

theorem compare_cast (m n : Int) : compare (m : ℚ) n = compare m n := by
  rcases lt_trichotomy m n with less | rfl | more
  · rw [compare_lt_iff_lt.2 less, compare_lt_iff_lt.2 (by exact_mod_cast less)]
  · rw [compare_eq_iff_eq.2 rfl, compare_eq_iff_eq.2 rfl]
  · rw [compare_gt_iff_gt.2 more, compare_gt_iff_gt.2 (by exact_mod_cast more)]

theorem magnitude_positive {m : Nat} (positive : 0 < m) (e : Int) : (0 : ℚ) < m * 2 ^ e :=
  mul_pos (by exact_mod_cast positive) (zpow_pos two_pos e)

theorem rational_positive (m : Nat) (e : Int) : ((Sign.positive.apply m : ℤ) : ℚ) * 2 ^ e = m * 2 ^ e := by
  simp [Sign.apply]

theorem rational_negative (m : Nat) (e : Int) : ((Sign.negative.apply m : ℤ) : ℚ) * 2 ^ e = -(m * 2 ^ e) := by
  simp [Sign.apply]

theorem compare_neg (p q : ℚ) : compare (-p) (-q) = (compare p q).swap := by
  rcases lt_trichotomy p q with less | rfl | more
  · rw [compare_lt_iff_lt.2 less, compare_gt_iff_gt.2 (neg_lt_neg less)]
    rfl
  · rw [compare_eq_iff_eq.2 rfl, compare_eq_iff_eq.2 rfl]
    rfl
  · rw [compare_gt_iff_gt.2 more, compare_lt_iff_lt.2 (neg_lt_neg more)]
    rfl

/-- The order of whole numbers is that of the integers. -/
theorem order_integers {a b : Float} {m n : Int} (first : integralValue a = some m)
    (second : integralValue b = some n) :
    order a b = some (compare m n) := by
  have left := (integralValue_iff a m).1 first
  have right := (integralValue_iff b n).1 second
  rw [← compare_cast]
  unfold order
  cases ua : a.toModel.unpack with
  | notANumber => rw [ua] at left; cases left
  | infinity s => rw [ua] at left; cases left
  | zero s =>
    rw [ua, rational, Option.some.injEq] at left
    rw [← left]
    cases ub : b.toModel.unpack with
    | notANumber => rw [ub] at right; cases right
    | infinity t => rw [ub] at right; cases right
    | zero t =>
      rw [ub, rational, Option.some.injEq] at right
      rw [← right, compare_eq_iff_eq.2 rfl]
      rfl
    | finite t k f positive =>
      rw [ub, rational, Option.some.injEq] at right
      rw [← right]
      have above := magnitude_positive positive f
      cases t with
      | positive =>
        rw [rational_positive, compare_lt_iff_lt.2 above]
        rfl
      | negative =>
        rw [rational_negative, compare_gt_iff_gt.2 (neg_lt_zero.2 above)]
        rfl
  | finite s m₁ e₁ positive₁ =>
    have normal₁ := (unpack_normal ua first).1
    rw [ua, rational, Option.some.injEq] at left
    rw [← left]
    have above₁ := magnitude_positive positive₁ e₁
    cases ub : b.toModel.unpack with
    | notANumber => rw [ub] at right; cases right
    | infinity t => rw [ub] at right; cases right
    | zero t =>
      rw [ub, rational, Option.some.injEq] at right
      rw [← right]
      cases s with
      | positive =>
        rw [rational_positive, compare_gt_iff_gt.2 above₁]
        rfl
      | negative =>
        rw [rational_negative, compare_lt_iff_lt.2 (neg_lt_zero.2 above₁)]
        rfl
    | finite t m₂ e₂ positive₂ =>
      have normal₂ := (unpack_normal ub second).1
      rw [ub, rational, Option.some.injEq] at right
      rw [← right]
      have above₂ := magnitude_positive positive₂ e₂
      cases s with
      | positive =>
        rw [rational_positive]
        cases t with
        | positive =>
          rw [rational_positive, ← normal₁.compare normal₂]
          rfl
        | negative =>
          rw [rational_negative, compare_gt_iff_gt.2 ((neg_lt_zero.2 above₂).trans above₁)]
          rfl
      | negative =>
        rw [rational_negative]
        cases t with
        | positive =>
          rw [rational_positive, compare_lt_iff_lt.2 ((neg_lt_zero.2 above₁).trans above₂)]
          rfl
        | negative =>
          rw [rational_negative, compare_neg, ← normal₁.compare normal₂]
          rfl

theorem lt_integers {a b : Float} {m n : Int} (first : integralValue a = some m)
    (second : integralValue b = some n) :
    a < b ↔ m < n := by
  rw [lt_iff_order, order_integers first second, Option.some.injEq, compare_lt_iff_lt]

theorem not_nan_of_integer {x : Float} {n : Int} (value : integralValue x = some n) : isNaN x = false := by
  change x.toModel.unpack.isNaN = false
  rw [integralValue_iff] at value
  cases ux : x.toModel.unpack with
  | notANumber => rw [ux] at value; cases value
  | _ => rfl

theorem integralValue_mathMax {a b : Float} {m n : Int} (first : integralValue a = some m)
    (second : integralValue b = some n) : integralValue (mathMax a b) = some (max m n) := by
  have ordered := order_integers first second
  rcases mathMax_cases (not_nan_of_integer first) (not_nan_of_integer second) with
    ⟨less, result⟩ | ⟨more, result⟩ | ⟨same, result⟩
  · rw [result, second, max_eq_right ((lt_integers first second).1 less).le]
  · have least : n ≤ m := by
      by_contra less
      exact more ((le_iff_order a b).2
        (.inl ((lt_iff_order a b).1 ((lt_integers first second).2 (not_le.1 less)))))
    rw [result, first, max_eq_left least]
  · rw [ordered, Option.some.injEq, compare_eq_iff_eq] at same
    subst same
    rw [max_self]
    rcases result with result | result <;> rw [result] <;> assumption

end Order

end DoRuntime.Js
