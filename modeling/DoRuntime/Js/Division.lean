import DoRuntime.Js.Arithmetic

namespace DoRuntime.Js

open Float.Model Float.Model.UnpackedFloat

/-- `Math.floor` of a finite number. -/
def mathFloor (x : Float) : Option Int := (rational x.toModel.unpack).map Int.floor

section Truncated

variable {b c F : Nat}

theorem truncated_floor : b * 2 ^ F / c / 2 ^ F = b / c := by
  rw [Nat.div_div_eq_div_mul, Nat.mul_comm c, ← Nat.div_div_eq_div_mul, Nat.mul_div_cancel b (Nat.two_pow_pos F)]

/-- No whole number lies at the next mantissa, where the quotient is close enough to it. -/
theorem next_floor (positive : 0 < c) (small : b < 2 ^ 53) (wide : 2 ^ 53 * (c - b * 2 ^ F % c) ≤ b * 2 ^ F) :
    (b * 2 ^ F / c + 1) / 2 ^ F = b / c := by
  rw [Nat.succ_div, truncated_floor, if_neg, Nat.add_zero]
  rintro ⟨t, whole⟩
  have unit := Nat.two_pow_pos F
  have division := Nat.div_add_mod (b * 2 ^ F) c
  have below := Nat.mod_lt (b * 2 ^ F) positive
  generalize b * 2 ^ F % c = r at division below wide
  have gap : 2 ^ F * (t * c) = b * 2 ^ F + (c - r) := by
    have scaled : 2 ^ F * (t * c) = c * (b * 2 ^ F / c) + c := by rw [← Nat.mul_assoc, ← whole]; ring
    omega
  have above : b < t * c := by
    by_contra low
    have reached : 2 ^ F * (t * c) ≤ 2 ^ F * b := Nat.mul_le_mul_left _ (Nat.le_of_not_lt low)
    rw [gap, Nat.mul_comm b] at reached
    omega
  have wider : 2 ^ F * (b + 1) ≤ 2 ^ F * (t * c) := Nat.mul_le_mul_left _ above
  have apart : 2 ^ F ≤ c - r := by
    rw [gap, Nat.mul_add, Nat.mul_one, Nat.mul_comm (2 ^ F) b] at wider
    omega
  have large : 2 ^ 53 * 2 ^ F ≤ b * 2 ^ F := (Nat.mul_le_mul_left _ apart).trans wide
  exact absurd (Nat.le_of_mul_le_mul_right large unit) (Nat.not_le.2 small)

end Truncated

section Rounded

variable {K M : Nat} {T E : Int}

theorem shiftToTargetExponent_eq (normal : Normal K T) (j : Nat) (total : (M.log2 : Int) + E = 52 + T)
    (amount : E + j = T) (accuracy : Accuracy) : shiftToTargetExponent Format.binary64 M E accuracy =
      (ExtendedMantissa.ofMantissaAndAccuracy M accuracy >>> j, T) := by
  have shift : (T - E).toNat = j := by omega
  unfold shiftToTargetExponent shiftToExponent
  rw [normal.target total]
  dsimp only
  rw [shift, amount]

/-- The number that a rounded mantissa stands for. -/
def Denotes (u : UnpackedFloat) (m : Nat) (e : Int) : Prop :=
  rational (unpack Format.binary64 (pack Format.binary64 u)) = some ((m : ℚ) * 2 ^ e)

theorem roundWithAccuracy_denotes (low : 2 ^ 52 ≤ M) (high : M ≤ 2 ^ 53) (least : -1074 ≤ T) (top : T ≤ 970)
    {m : Nat} {e : Int} {accuracy : Accuracy} {rounded : ExtendedMantissa}
    (first : shiftToTargetExponent Format.binary64 m e accuracy = (rounded, T)) (same : rounded.roundedMantissa = M) :
    Denotes (roundWithAccuracy Format.binary64 .positive m e accuracy) M T := by
  have value : ∀ {K : Nat} {U : Int} (normal : Normal K U) (j : Nat), M = K * 2 ^ j → T = U - j → U ≤ 971 →
      Denotes (roundWithAccuracy Format.binary64 .positive m e accuracy) M T := by
    intro K U normal j mantissa exponent top
    have again := normal.shifted j
    rw [← mantissa, ← exponent] at again
    have result : roundWithAccuracy Format.binary64 .positive m e accuracy = .finite .positive K U normal.positive := by
      unfold roundWithAccuracy
      rw [first]
      simp only [same, again]
      rw [dif_neg (Nat.ne_of_gt normal.positive)]
    unfold Denotes
    rw [result, normal.unpack_pack top, rational, rational_positive, mantissa, exponent, Option.some.injEq]
    push_cast
    rw [mul_assoc, ← zpow_natCast, ← zpow_add₀ two_ne_zero, add_sub_cancel]
  rcases Nat.lt_or_eq_of_le high with inside | whole
  · exact value ⟨low, inside, least⟩ 0 (by omega) (by omega) (by omega)
  · have one : Normal (2 ^ 52) (T + 1) := ⟨Nat.le_refl _, by decide, by omega⟩
    exact value one 1 (by omega) (by omega) (by omega)

theorem ofMantissaAndAccuracy_mantissa (M : Nat) (accuracy : Accuracy) :
    (ExtendedMantissa.ofMantissaAndAccuracy M accuracy).mantissa = M := by
  cases accuracy with
  | exact => rfl
  | inexact order => cases order <;> rfl

theorem rounded_cases (M : Nat) (accuracy : Accuracy) :
    (ExtendedMantissa.ofMantissaAndAccuracy M accuracy).roundedMantissa = accuracy.roundToNearestEven M := by
  cases accuracy with
  | exact => rfl
  | inexact order => cases order <;> rfl

/-- A mantissa of one bit too many loses the last. -/
theorem shiftRightOne_cases (em : ExtendedMantissa) : em.shiftRightOne.roundedMantissa = em.mantissa / 2 ∨
    em.mantissa % 2 = 1 ∧ em.shiftRightOne.roundedMantissa = em.mantissa / 2 + 1 := by
  obtain ⟨m, roundBit, stickyBit⟩ := em
  rcases Nat.mod_two_eq_zero_or_one m with even | odd
  · left
    have dropped : (m % 2 != 0) = false := by rw [even]; rfl
    unfold ExtendedMantissa.shiftRightOne ExtendedMantissa.roundedMantissa
    dsimp only
    rw [dropped]
    cases roundBit <;> cases stickyBit <;> rfl
  · have kept : (m % 2 != 0) = true := by rw [odd]; rfl
    have halves : ∀ sticky, (ExtendedMantissa.mk (m / 2) true sticky).roundedMantissa = m / 2 ∨
        (ExtendedMantissa.mk (m / 2) true sticky).roundedMantissa = m / 2 + 1 := by
      intro sticky
      cases sticky with
      | true => exact .inr rfl
      | false =>
        have tie : (ExtendedMantissa.mk (m / 2) true false).roundedMantissa = m / 2 + m / 2 % 2 := rfl
        omega
    unfold ExtendedMantissa.shiftRightOne
    dsimp only
    rw [kept]
    rcases halves (roundBit || stickyBit) with down | up
    · exact .inl down
    · exact .inr ⟨odd, up⟩

/-- A whole number of at most 53 bits, unpacked. -/
theorem unpack_whole {x : Float} {n : Nat} (value : integralValue x = some (n : Int)) (positive : 0 < n)
    (small : n < 2 ^ 53) : ∃ (j : Nat) (positive' : 0 < n * 2 ^ j), j ≤ 52 ∧ Normal (n * 2 ^ j) (-(j : Int)) ∧
      x.toModel.unpack = .finite .positive (n * 2 ^ j) (-(j : Int)) positive' := by
  have number := (integralValue_iff _ _).1 value
  cases unpacked : x.toModel.unpack with
  | notANumber => rw [unpacked] at number; cases number
  | infinity s => rw [unpacked] at number; cases number
  | zero s =>
    rw [unpacked, rational, Option.some.injEq] at number
    have none : (n : Int) = 0 := by exact_mod_cast number.symm
    omega
  | finite s m e positive' =>
    obtain ⟨normal, -⟩ := unpack_normal unpacked value
    rw [unpacked, rational, Option.some.injEq] at number
    have magnitude := magnitude_positive positive' e
    have sign : s = .positive := by
      cases s with
      | positive => rfl
      | negative =>
        rw [rational_negative] at number
        have whole : (0 : ℚ) ≤ ((n : Int) : ℚ) := by exact_mod_cast Int.natCast_nonneg n
        linarith
    subst sign
    rw [rational_positive] at number
    have below : e ≤ 0 := by
      by_contra above
      obtain ⟨i, rfl⟩ := Int.eq_ofNat_of_zero_le (show 0 ≤ e by omega)
      rw [zpow_natCast] at number
      have same : m * 2 ^ i = n := by exact_mod_cast number
      have grown : 2 ≤ 2 ^ i := Nat.le_self_pow (by omega) 2
      have large : 2 ^ 52 * 2 ≤ m * 2 ^ i := Nat.mul_le_mul normal.low grown
      omega
    obtain ⟨j, negative⟩ := Int.eq_ofNat_of_zero_le (show 0 ≤ -e by omega)
    obtain rfl : e = -(j : Int) := by omega
    have scaled : (m : Int) = n * 2 ^ j := (scaled_eq m n j).1 (by exact_mod_cast number)
    obtain rfl : m = n * 2 ^ j := by exact_mod_cast scaled
    refine ⟨j, positive', ?_, normal, rfl⟩
    by_contra long
    have grown : 2 ^ 53 ≤ 2 ^ j := Nat.pow_le_pow_right (by decide) (by omega)
    have large : 1 * 2 ^ 53 ≤ n * 2 ^ j := Nat.mul_le_mul positive grown
    have high := normal.high
    omega

theorem unpack_zero {x : Float} (value : integralValue x = some ((0 : Nat) : Int)) :
    ∃ s, x.toModel.unpack = .zero s := by
  have number := (integralValue_iff _ _).1 value
  cases unpacked : x.toModel.unpack with
  | notANumber => rw [unpacked] at number; cases number
  | infinity s => rw [unpacked] at number; cases number
  | zero s => exact ⟨s, rfl⟩
  | finite s m e positive =>
    have magnitude := magnitude_positive positive e
    rw [unpacked, rational, Option.some.injEq] at number
    cases s with
    | positive =>
      rw [rational_positive] at number
      exact absurd number (ne_of_gt (by simpa using magnitude))
    | negative =>
      rw [rational_negative] at number
      exact absurd number (ne_of_lt (by simpa using magnitude))

end Rounded

section Quotient

theorem floor_scaled (M F : Nat) : ⌊(M : ℚ) * 2 ^ (-(F : Int))⌋ = ((M / 2 ^ F : Nat) : Int) := by
  have quotient : (M : ℚ) * 2 ^ (-(F : Int)) = M / ((2 ^ F : Nat) : ℚ) := by
    rw [zpow_neg, zpow_natCast, ← div_eq_mul_inv]
    push_cast
    rfl
  rw [quotient, Rat.floor_natCast_div_natCast]
  rfl

/-- A mantissa is rounded up only where half a unit or more is missing. -/
theorem roundToNearestEven_cases (M r n : Nat) :
    (accuracyOfFraction r n).roundToNearestEven M = M ∨
      n ≤ 2 * r ∧ (accuracyOfFraction r n).roundToNearestEven M = M + 1 := by
  unfold accuracyOfFraction
  by_cases none : r = 0
  · rw [if_pos none]
    exact .inl rfl
  · rw [if_neg none]
    rcases lt_trichotomy (2 * r) n with less | same | more
    · rw [compare_lt_iff_lt.2 less]
      exact .inl rfl
    · rw [compare_eq_iff_eq.2 same]
      have tie : (Accuracy.inexact .eq).roundToNearestEven M = M + M % 2 := rfl
      omega
    · rw [compare_gt_iff_gt.2 more]
      exact .inr ⟨Nat.le_of_lt more, rfl⟩

variable {m n i j F : Nat}

theorem divCore_eq (first : Normal (m * 2 ^ i) (-(i : Int))) (second : Normal (n * 2 ^ j) (-(j : Int))) (short : i ≤ 52)
    (few : j ≤ 52) (scale : F + j = 53 + i) :
    divCore Format.binary64 (m * 2 ^ i) (-(i : Int)) (n * 2 ^ j) (-(j : Int)) =
      (m * 2 ^ F / n, -(F : Int), accuracyOfFraction (m * 2 ^ F % n * 2 ^ j) (n * 2 ^ j)) := by
  have target : min (-(i : Int) - -(j : Int)) (Format.binary64.targetExponent
      (totalExponent (m * 2 ^ i) (-(i : Int)) - totalExponent (n * 2 ^ j) (-(j : Int)))) = -(F : Int) := by
    simp only [Format.targetExponent, totalExponent, Format.mantissaBits, Format.minExponent, first.log2, second.log2]
    norm_num
    omega
  have shift : (-(i : Int) - -(j : Int) - -(F : Int)).toNat = 53 := by omega
  have mantissa : (m * 2 ^ i) <<< 53 = m * 2 ^ F * 2 ^ j := by
    rw [Nat.shiftLeft_eq, Nat.mul_assoc, ← Nat.pow_add, Nat.mul_assoc, ← Nat.pow_add, scale, Nat.add_comm i]
  unfold divCore
  simp only [target, shift, mantissa]
  rw [Nat.mul_div_mul_right _ _ (Nat.two_pow_pos j), Nat.mul_mod_mul_right]

theorem quotient_bounds {x y : Int} (first : Normal (m * 2 ^ i) x) (second : Normal (n * 2 ^ j) y) (positive : 0 < n)
    (scaled : m * 2 ^ F * 2 ^ j = m * 2 ^ i * 2 ^ 53) : 2 ^ 52 ≤ m * 2 ^ F / n ∧ m * 2 ^ F / n < 2 ^ 54 := by
  have low := first.low
  have high := first.high
  have low' := second.low
  have high' := second.high
  constructor
  · rw [Nat.le_div_iff_mul_le positive]
    refine Nat.le_of_mul_le_mul_right ?_ (Nat.two_pow_pos j)
    rw [scaled, Nat.mul_assoc (2 ^ 52)]
    omega
  · rw [Nat.div_lt_iff_lt_mul positive]
    refine Nat.lt_of_mul_lt_mul_right (a := 2 ^ j) ?_
    rw [scaled, Nat.mul_assoc (2 ^ 54)]
    omega

theorem floor_of_denotes {u : UnpackedFloat} {M : Nat} (denotes : Denotes u M (-(F : Int))) :
    (rational (unpack Format.binary64 (pack Format.binary64 u))).map Int.floor = some ((M / 2 ^ F : Nat) : Int) := by
  rw [denotes, Option.map_some, floor_scaled]

/-- Rounding the quotient takes it to no other whole number. -/
theorem rounded_floor (small : m < 2 ^ 53) (positive : 0 < n) (fine : 0 < F) (low : 2 ^ 52 ≤ m * 2 ^ F / n)
    (high : m * 2 ^ F / n < 2 ^ 54) (bounded : F ≤ 105) :
    (rational (unpack Format.binary64 (pack Format.binary64 (roundWithAccuracy Format.binary64 .positive
      (m * 2 ^ F / n) (-(F : Int)) (accuracyOfFraction (m * 2 ^ F % n * 2 ^ j) (n * 2 ^ j)))))).map Int.floor =
      some ((m / n : Nat) : Int) := by
  have whole : m * 2 ^ F / n * n ≤ m * 2 ^ F := Nat.div_mul_le_self ..
  have left := Nat.mod_lt (m * 2 ^ F) positive
  by_cases fits : m * 2 ^ F / n < 2 ^ 53
  · have normal : Normal (m * 2 ^ F / n) (-(F : Int)) := ⟨low, fits, by omega⟩
    have shifted := shiftToTargetExponent_eq normal 0 (by rw [normal.log2]; rfl) (add_zero _)
      (accuracyOfFraction (m * 2 ^ F % n * 2 ^ j) (n * 2 ^ j))
    have rounded := rounded_cases (m * 2 ^ F / n) (accuracyOfFraction (m * 2 ^ F % n * 2 ^ j) (n * 2 ^ j))
    rcases roundToNearestEven_cases (m * 2 ^ F / n) (m * 2 ^ F % n * 2 ^ j) (n * 2 ^ j) with down | ⟨close, up⟩
    · rw [down] at rounded
      rw [floor_of_denotes (roundWithAccuracy_denotes low (by omega) (by omega) (by omega) shifted rounded),
        truncated_floor]
    · rw [up] at rounded
      have half : n ≤ 2 * (m * 2 ^ F % n) := by
        rw [← Nat.mul_assoc] at close
        exact Nat.le_of_mul_le_mul_right close (Nat.two_pow_pos j)
      have scaled : 2 ^ 52 * n ≤ m * 2 ^ F / n * n := Nat.mul_le_mul_right n low
      rw [floor_of_denotes (roundWithAccuracy_denotes (by omega) (by omega) (by omega) (by omega) shifted rounded),
        next_floor positive small (by omega)]
  · obtain ⟨G, rfl⟩ : ∃ G, F = G + 1 := ⟨F - 1, by omega⟩
    have scaled : 2 ^ 53 * n ≤ m * 2 ^ (G + 1) / n * n := Nat.mul_le_mul_right n (Nat.le_of_not_lt fits)
    have bits : (m * 2 ^ (G + 1) / n).log2 = 53 := (Nat.log2_eq_iff (by omega)).2 ⟨by omega, high⟩
    have normal : Normal (2 ^ 52) (-(G : Int)) := ⟨Nat.le_refl _, by decide, by omega⟩
    have shifted := shiftToTargetExponent_eq normal 1 (M := m * 2 ^ (G + 1) / n) (E := -((G + 1 : Nat) : Int))
      (by rw [bits]; push_cast; ring) (by push_cast; ring)
      (accuracyOfFraction (m * 2 ^ (G + 1) % n * 2 ^ j) (n * 2 ^ j))
    have mantissa : (ExtendedMantissa.ofMantissaAndAccuracy (m * 2 ^ (G + 1) / n)
        (accuracyOfFraction (m * 2 ^ (G + 1) % n * 2 ^ j) (n * 2 ^ j))).mantissa = m * 2 ^ (G + 1) / n :=
      ofMantissaAndAccuracy_mantissa _ _
    rcases shiftRightOne_cases (ExtendedMantissa.ofMantissaAndAccuracy (m * 2 ^ (G + 1) / n)
      (accuracyOfFraction (m * 2 ^ (G + 1) % n * 2 ^ j) (n * 2 ^ j))) with down | ⟨odd, up⟩
    · rw [mantissa] at down
      rw [floor_of_denotes (roundWithAccuracy_denotes (by omega) (by omega) (by omega) (by omega) shifted down),
        Nat.div_div_eq_div_mul, ← Nat.pow_succ', truncated_floor]
    · rw [mantissa] at odd up
      have next : m * 2 ^ (G + 1) / n / 2 + 1 = (m * 2 ^ (G + 1) / n + 1) / 2 := by omega
      rw [floor_of_denotes (roundWithAccuracy_denotes (by omega) (by omega) (by omega) (by omega) shifted up), next,
        Nat.div_div_eq_div_mul, ← Nat.pow_succ', next_floor positive small (by omega)]

/-- The floor of a rounded quotient of whole numbers is the whole quotient. -/
theorem floor_div {x y : Float} (dividend : integralValue x = some (m : Int)) (small : m < 2 ^ 53)
    (divisor : integralValue y = some (n : Int)) (positive : 0 < n) (few : n < 2 ^ 53) :
    mathFloor (x / y) = some ((m / n : Nat) : Int) := by
  obtain ⟨j, positive', short, second, right⟩ := unpack_whole divisor positive few
  have unpacked : (x / y).toModel.unpack = unpack Format.binary64 (pack Format.binary64
      (UnpackedFloat.div Format.binary64 x.toModel.unpack y.toModel.unpack)) := rfl
  unfold mathFloor
  rw [unpacked, right]
  rcases Nat.eq_zero_or_pos m with rfl | some_
  · obtain ⟨s, zero⟩ := unpack_zero dividend
    have quotient : UnpackedFloat.div Format.binary64 (.zero s)
        (.finite .positive (n * 2 ^ j) (-(j : Int)) positive') = .zero (s / .positive) := rfl
    rw [zero, quotient, unpack_pack_zero, rational, Option.map_some, Int.floor_zero, Nat.zero_div]
    rfl
  · obtain ⟨i, some', long, first, left⟩ := unpack_whole dividend some_ small
    obtain ⟨F, scale⟩ : ∃ F, F + j = 53 + i := ⟨53 + i - j, by omega⟩
    have quotient : UnpackedFloat.div Format.binary64 (.finite .positive (m * 2 ^ i) (-(i : Int)) some')
        (.finite .positive (n * 2 ^ j) (-(j : Int)) positive') =
        roundWithAccuracy Format.binary64 .positive (m * 2 ^ F / n) (-(F : Int))
          (accuracyOfFraction (m * 2 ^ F % n * 2 ^ j) (n * 2 ^ j)) := by
      have core : UnpackedFloat.div Format.binary64 (.finite .positive (m * 2 ^ i) (-(i : Int)) some')
          (.finite .positive (n * 2 ^ j) (-(j : Int)) positive') = roundWithAccuracy Format.binary64 .positive
            (divCore Format.binary64 (m * 2 ^ i) (-(i : Int)) (n * 2 ^ j) (-(j : Int))).1
            (divCore Format.binary64 (m * 2 ^ i) (-(i : Int)) (n * 2 ^ j) (-(j : Int))).2.1
            (divCore Format.binary64 (m * 2 ^ i) (-(i : Int)) (n * 2 ^ j) (-(j : Int))).2.2 := rfl
      rw [core, divCore_eq first second long short scale]
    rw [left, quotient]
    have scaled : m * 2 ^ F * 2 ^ j = m * 2 ^ i * 2 ^ 53 := by
      rw [Nat.mul_assoc, ← Nat.pow_add, scale, Nat.add_comm 53, Nat.pow_add, Nat.mul_assoc]
    obtain ⟨low, high⟩ := quotient_bounds first second positive scaled
    exact rounded_floor small positive (by omega) low high (by omega)

end Quotient

end DoRuntime.Js
