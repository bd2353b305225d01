import Mathlib.Algebra.Order.Field.Basic
import Mathlib.Algebra.Order.Field.Rat
import Mathlib.Data.Nat.Basic

/-!
# Doubles that hold a number exactly

A double has 53 binary digits and an exponent. A natural number of at most so many digits, times a
power of two that is not extreme, is therefore held exactly. Sums, products and quotients by powers
of two that leave the result its digits are exact too, since rounding then only shifts out zeros,
and such doubles compare as the numbers do that they stand for.
-/

namespace DalvikRules.Binary64

open Float.Model Float.Model.UnpackedFloat

variable {n j : Nat} {k : Int}

theorem log2_shiftLeft (hpos : 0 < n) (j : Nat) : (n <<< j).log2 = n.log2 + j := by
  have hne := Nat.ne_of_gt hpos
  rw [Nat.log2_eq_iff (Nat.ne_of_gt (Nat.shiftLeft_pos_iff.mpr hpos)), Nat.shiftLeft_eq,
    Nat.add_right_comm, Nat.pow_add, Nat.pow_add]
  exact ⟨Nat.mul_le_mul_right _ (Nat.log2_self_le hne),
    Nat.mul_lt_mul_of_pos_right Nat.lt_log2_self (Nat.two_pow_pos j)⟩

theorem log2_le (h : n < 2 ^ 53) : n.log2 ≤ 52 := by
  rcases Nat.eq_zero_or_pos n with rfl | hpos
  · decide
  · exact Nat.le_of_lt_succ ((Nat.log2_lt (Nat.ne_of_gt hpos)).mpr h)

theorem log2_mono {a b : Nat} (hpos : 0 < a) (hab : a ≤ b) : a.log2 ≤ b.log2 :=
  (Nat.le_log2 (by omega)).mpr ((Nat.log2_self_le (Nat.ne_of_gt hpos)).trans hab)

/-- The mantissa of 53 digits that starts with the digits of a natural number. -/
def mantissa (n : Nat) : Nat :=
  n <<< (52 - n.log2)

theorem mantissa_pos (hpos : 0 < n) : 0 < mantissa n :=
  Nat.shiftLeft_pos_iff.mpr hpos

theorem log2_mantissa (hpos : 0 < n) (h : n < 2 ^ 53) : (mantissa n).log2 = 52 := by
  have := log2_le h
  rw [mantissa, log2_shiftLeft hpos]
  omega

/-- The double of `n * 2 ^ k`, taken apart. -/
def dyadic (n : Nat) (k : Int) : UnpackedFloat :=
  if h : 0 < n then .finite .positive (mantissa n) (k - (52 - n.log2 : Nat)) (mantissa_pos h)
  else .zero .positive

theorem dyadic_zero : dyadic 0 k = .zero .positive :=
  rfl

theorem dyadic_pos (hpos : 0 < n) :
    dyadic n k =
      .finite .positive (mantissa n) (k - (52 - n.log2 : Nat)) (mantissa_pos hpos) :=
  dif_pos hpos

private theorem finite_congr {s s' : Sign} {m m' : Nat} {e e' : Int} {hpos : 0 < m}
    {hpos' : 0 < m'} (hs : s = s') (hm : m = m') (he : e = e') :
    UnpackedFloat.finite s m e hpos = .finite s' m' e' hpos' := by
  subst hs hm he
  rfl

/-- A number is the same after it has been given more digits for a smaller power. -/
theorem dyadic_shiftLeft (h : n <<< j < 2 ^ 53) : dyadic (n <<< j) k = dyadic n (k + j) := by
  rcases Nat.eq_zero_or_pos n with rfl | hpos
  · rw [Nat.zero_shiftLeft]
    rfl
  · have hlog := log2_le h
    rw [log2_shiftLeft hpos] at hlog
    have hmantissa : mantissa (n <<< j) = mantissa n := by
      rw [mantissa, mantissa, log2_shiftLeft hpos, ← Nat.shiftLeft_add]
      congr 1
      omega
    rw [dyadic_pos hpos, dyadic_pos (Nat.shiftLeft_pos_iff.mpr hpos)]
    refine finite_congr rfl hmantissa ?_
    rw [log2_shiftLeft hpos]
    omega

/-- A double can hold `n * 2 ^ k`: 53 digits suffice for `n`, and the power is not extreme. -/
structure Fits (n : Nat) (k : Int) : Prop where
  digits : n < 2 ^ 53
  low : -1000 ≤ k
  high : k ≤ 900

section Packing

/-- The first of 53 digits is one, and only the others are stored. -/
theorem toNat_one_append {m : Nat} (hge : 2 ^ 52 ≤ m) (hlt : m < 2 ^ 53) :
    (1#1 ++ BitVec.ofNat 52 m).toNat = m := by
  rw [BitVec.toNat_append, BitVec.toNat_ofNat, BitVec.toNat_ofNat,
    ← Nat.shiftLeft_add_eq_or_of_lt (Nat.mod_lt _ (Nat.two_pow_pos _)), Nat.shiftLeft_eq]
  omega

/-- The first bit of a double is its sign. -/
private theorem unpackSign_positive (exponent : BitVec 11) (fraction : BitVec 52) :
    unpackSign (packComponents .binary64 .positive exponent fraction) = 0#1 := by
  refine BitVec.eq_of_getLsbD_eq fun i hi => ?_
  obtain rfl : i = 0 := by omega
  change (BitVec.cast _ (BitVec.extractLsb 63 63 _)).getLsbD 0 = _
  rw [BitVec.getLsbD_cast, BitVec.getLsbD_extractLsb]
  change (decide (0 ≤ 0) && (0#1 ++ exponent ++ fraction).getLsbD 63) = _
  rw [BitVec.getLsbD_append, BitVec.getLsbD_append]
  simp

/-- The exponents of all zeros and of all ones mark other kinds of doubles. -/
private theorem unpack_eq_finite {bits : BitVec Format.binary64.numBits} {m : Nat} {e : Int}
    (hpos : 0 < m) (hsign : unpackSign bits = 0#1) (hones : unpackExponent bits ≠ -1#11)
    (hzeros : unpackExponent bits ≠ 0#11) (hm : (1#1 ++ unpackMantissa bits).toNat = m)
    (he : ((unpackExponent bits).toNat : Int) - (1023 + 52) = e) :
    UnpackedFloat.unpack .binary64 bits = .finite .positive m e hpos := by
  delta UnpackedFloat.unpack
  dsimp only
  rw [if_neg hones, if_neg hzeros]
  refine finite_congr ?_ hm he
  rw [hsign]
  rfl

/-- A double whose mantissa has all its 53 digits is read as it was written. -/
theorem unpack_pack {m : Nat} {e : Int} (hpos : 0 < m) (hm : m.log2 = 52)
    (hlow : -1074 ≤ e) (hhigh : e ≤ 971) :
    (Float.Model.pack (.finite .positive m e hpos)).unpack = .finite .positive m e hpos := by
  obtain ⟨hge, hlt⟩ := (Nat.log2_eq_iff (Nat.ne_of_gt hpos)).mp hm
  obtain ⟨biased, hbiased⟩ := Int.eq_ofNat_of_zero_le (show 0 ≤ e + 1075 by omega)
  have hpack : UnpackedFloat.pack .binary64 (.finite .positive m e hpos) =
      packComponents .binary64 .positive (BitVec.ofNat 11 biased) (BitVec.ofNat 52 m) := by
    have hexponent : (e + (Format.binary64.exponentBias : Int) +
        (Format.binary64.mantissaBitsWithoutImplicit : Int)).toNat = biased := by
      change (e + 1023 + 52).toNat = biased
      omega
    delta UnpackedFloat.pack
    dsimp only
    rw [hexponent, hm, if_neg (by omega)]
    exact if_pos rfl
  have hexponent : (BitVec.ofNat 11 biased).toNat = biased := by
    rw [BitVec.toNat_ofNat, Nat.mod_eq_of_lt (by omega)]
  have hother {b : BitVec 11} (hb : b.toNat ≠ biased) : BitVec.ofNat 11 biased ≠ b :=
    fun h => hb (by rw [← h, hexponent])
  change UnpackedFloat.unpack .binary64 (UnpackedFloat.pack .binary64 _) = _
  rw [hpack]
  refine unpack_eq_finite hpos (unpackSign_positive _ _) ?ones ?zeros ?mantissa ?exponent
  case ones =>
    rw [unpackExponent_packComponents]
    apply hother
    change 2047 ≠ biased
    omega
  case zeros =>
    rw [unpackExponent_packComponents]
    apply hother
    change 0 ≠ biased
    omega
  case mantissa =>
    rw [unpackMantissa_packComponents]
    exact toNat_one_append hge hlt
  case exponent =>
    rw [unpackExponent_packComponents, hexponent]
    omega

theorem unpack_pack_dyadic (h : Fits n k) :
    (Float.Model.pack (dyadic n k)).unpack = dyadic n k := by
  obtain ⟨hdigits, hlow, hhigh⟩ := h
  rcases Nat.eq_zero_or_pos n with rfl | hpos
  · rw [dyadic_zero]
    change UnpackedFloat.unpack .binary64 (UnpackedFloat.pack .binary64 (.zero .positive)) = _
    rfl
  · have := log2_le hdigits
    rw [dyadic_pos hpos]
    exact unpack_pack _ (log2_mantissa hpos hdigits) (by omega) (by omega)

end Packing

section Rounding

/-- Zeros at the end of a mantissa can be shifted out without a trace. -/
theorem shiftRight_exact (m i : Nat) :
    ExtendedMantissa.ofMantissaAndAccuracy (m <<< i) .exact >>> i =
      ExtendedMantissa.ofMantissaAndAccuracy m .exact := by
  change Nat.repeat ExtendedMantissa.shiftRightOne i ⟨m <<< i, false, false⟩ = ⟨m, false, false⟩
  induction i generalizing m with
  | zero => rfl
  | succ i ih =>
    rw [Nat.repeat, Nat.add_comm i 1, Nat.shiftLeft_add, ih]
    simp [ExtendedMantissa.shiftRightOne, Nat.shiftLeft_eq]

theorem shiftToTargetExponent_exact {m : Nat} {e : Int} (hpos : 0 < m) (hm : m.log2 = 52)
    (he : -1074 ≤ e) (i : Nat) :
    shiftToTargetExponent .binary64 (m <<< i) (e - i) .exact =
      (ExtendedMantissa.ofMantissaAndAccuracy m .exact, e) := by
  have htarget : Format.binary64.targetExponent (totalExponent (m <<< i) (e - i)) = e := by
    rw [totalExponent, log2_shiftLeft hpos, hm]
    change max (((52 + i : Nat) : Int) + 1 + (e - i) - 53) (-1074) = e
    omega
  have hshift : (e - (e - i)).toNat = i := by omega
  rw [shiftToTargetExponent, htarget, shiftToExponent]
  simp only [hshift, shiftRight_exact, Int.sub_add_cancel]

/-- A mantissa of 53 digits followed by zeros is not rounded. -/
theorem roundWithAccuracy_exact {m : Nat} {e : Int} (hpos : 0 < m) (hm : m.log2 = 52)
    (he : -1074 ≤ e) (i : Nat) :
    roundWithAccuracy .binary64 .positive (m <<< i) (e - i) .exact =
      .finite .positive m e hpos := by
  have hagain := shiftToTargetExponent_exact hpos hm he 0
  rw [Nat.shiftLeft_zero, Int.natCast_zero, Int.sub_zero] at hagain
  have hround : (ExtendedMantissa.ofMantissaAndAccuracy m .exact).roundedMantissa = m := rfl
  rw [roundWithAccuracy, shiftToTargetExponent_exact hpos hm he i]
  dsimp only
  rw [hround, hagain]
  exact dif_neg (Nat.ne_of_gt hpos)

theorem roundWithAccuracy_dyadic (hpos : 0 < n) (h : Fits n k) (hj : 52 - n.log2 ≤ j) :
    roundWithAccuracy .binary64 .positive (n <<< j) (k - j) .exact = dyadic n k := by
  obtain ⟨hdigits, hlow, hhigh⟩ := h
  obtain ⟨i, rfl⟩ := Nat.exists_eq_add_of_le hj
  rw [Nat.shiftLeft_add, Int.natCast_add, ← Int.sub_sub, dyadic_pos hpos]
  exact roundWithAccuracy_exact (mantissa_pos hpos) (log2_mantissa hpos hdigits) (by omega) i

theorem round_dyadic (hpos : 0 < n) (h : Fits n k) (j : Nat) :
    UnpackedFloat.round .binary64 .positive (n <<< j) (k - j) = dyadic n k := by
  have hlog := log2_le h.digits
  have hlow := h.low
  have htarget : Format.binary64.targetExponent (totalExponent (n <<< j) (k - j)) =
      k - (52 - n.log2 : Nat) := by
    rw [totalExponent, log2_shiftLeft hpos]
    change max (((n.log2 + j : Nat) : Int) + 1 + (k - j) - 53) (-1074) = _
    omega
  have hmissing : (k - j - (k - (52 - n.log2 : Nat))).toNat = 52 - n.log2 - j := by omega
  rw [UnpackedFloat.round, htarget, decreaseExponent]
  dsimp only
  rw [hmissing, ← Nat.shiftLeft_add, Int.sub_sub, ← Int.natCast_add]
  exact roundWithAccuracy_dyadic hpos h (by omega)

theorem normalize_dyadic (h : Fits n k) (j : Nat) :
    UnpackedFloat.normalize .binary64 ((n <<< j : Nat) : Int) (k - j) .positive = dyadic n k := by
  rcases Nat.eq_zero_or_pos n with rfl | hpos
  · rw [Nat.zero_shiftLeft]
    rfl
  · have hgt : compare ((n <<< j : Nat) : Int) 0 = .gt :=
      compare_gt_iff_gt.mpr (Int.natCast_pos.mpr (Nat.shiftLeft_pos_iff.mpr hpos))
    rw [UnpackedFloat.normalize, hgt]
    exact round_dyadic hpos h j

end Rounding

section Operations

variable {a b : Nat} {l : Int}

theorem add_dyadic (h : Fits (a + b) k) :
    UnpackedFloat.add .binary64 (dyadic a k) (dyadic b k) = dyadic (a + b) k := by
  rcases Nat.eq_zero_or_pos a with rfl | ha
  · rw [dyadic_zero, Nat.zero_add]
    rcases Nat.eq_zero_or_pos b with rfl | hb
    · rfl
    · rw [dyadic_pos hb]
      rfl
  rcases Nat.eq_zero_or_pos b with rfl | hb
  · rw [dyadic_zero, Nat.add_zero, dyadic_pos ha]
    rfl
  -- both numbers are given as many further digits as the one that needs more of them
  let j := max (52 - a.log2) (52 - b.log2)
  have hmin : min (k - (52 - a.log2 : Nat)) (k - (52 - b.log2 : Nat)) = k - j := by omega
  have hwiden {c : Nat} (hc : 52 - c.log2 ≤ j) :
      decreaseExponent (mantissa c) (k - (52 - c.log2 : Nat)) (k - j) = (c <<< j, k - j) := by
    obtain ⟨i, hi⟩ := Nat.exists_eq_add_of_le hc
    have hmissing : (k - (52 - c.log2 : Nat) - (k - j)).toNat = i := by omega
    rw [decreaseExponent, mantissa, hmissing, ← Nat.shiftLeft_add, ← hi, Int.sub_sub, hi,
      Int.natCast_add]
  rw [dyadic_pos ha, dyadic_pos hb]
  delta UnpackedFloat.add
  dsimp only
  rw [hmin, hwiden (Nat.le_max_left ..), hwiden (Nat.le_max_right ..)]
  change UnpackedFloat.normalize .binary64 (((a <<< j : Nat) : Int) + ((b <<< j : Nat) : Int))
    (k - j) .positive = dyadic (a + b) k
  rw [← Int.natCast_add, Nat.shiftLeft_eq, Nat.shiftLeft_eq, ← Nat.add_mul, ← Nat.shiftLeft_eq]
  exact normalize_dyadic h j

theorem mul_dyadic (h : Fits (a * b) (k + l)) :
    UnpackedFloat.mul .binary64 (dyadic a k) (dyadic b l) = dyadic (a * b) (k + l) := by
  rcases Nat.eq_zero_or_pos a with rfl | ha
  · rw [dyadic_zero, Nat.zero_mul]
    rcases Nat.eq_zero_or_pos b with rfl | hb
    · rfl
    · rw [dyadic_pos hb]
      rfl
  rcases Nat.eq_zero_or_pos b with rfl | hb
  · rw [dyadic_zero, Nat.mul_zero, dyadic_pos ha]
    rfl
  have hlog : a.log2 ≤ (a * b).log2 := log2_mono ha (Nat.le_mul_of_pos_right a hb)
  have hmantissa : mantissa a * mantissa b = (a * b) <<< (52 - a.log2 + (52 - b.log2)) := by
    simp only [mantissa, Nat.shiftLeft_eq, Nat.pow_add, Nat.mul_mul_mul_comm]
  have hexponent : k - (52 - a.log2 : Nat) + (l - (52 - b.log2 : Nat)) =
      k + l - (52 - a.log2 + (52 - b.log2) : Nat) := by
    omega
  rw [dyadic_pos ha, dyadic_pos hb]
  change roundWithAccuracy .binary64 .positive (mantissa a * mantissa b)
    (k - (52 - a.log2 : Nat) + (l - (52 - b.log2 : Nat))) .exact = _
  rw [hmantissa, hexponent]
  exact roundWithAccuracy_dyadic (Nat.mul_pos ha hb) h (by omega)

/-- Division by a power of two only changes the exponent. -/
theorem div_dyadic (h : Fits a (k - l)) :
    UnpackedFloat.div .binary64 (dyadic a k) (dyadic 1 l) = dyadic a (k - l) := by
  have hone : dyadic 1 l = .finite .positive (2 ^ 52) (l - 52) (Nat.two_pow_pos 52) := rfl
  rcases Nat.eq_zero_or_pos a with rfl | ha
  · rw [hone]
    rfl
  have hlog := log2_le h.digits
  have hlow := h.low
  have hcore : divCore .binary64 (mantissa a) (k - (52 - a.log2 : Nat)) (2 ^ 52) (l - 52) =
      (a <<< (52 - a.log2 + 1), k - l - (52 - a.log2 + 1 : Nat), .exact) := by
    have htarget : min (k - (52 - a.log2 : Nat) - (l - 52)) (Format.binary64.targetExponent
        (totalExponent (mantissa a) (k - (52 - a.log2 : Nat)) - totalExponent (2 ^ 52) (l - 52))) =
          k - l - (52 - a.log2 + 1 : Nat) := by
      rw [totalExponent, log2_mantissa ha h.digits, totalExponent, Nat.log2_two_pow]
      change min _ (max (((52 : Nat) : Int) + 1 + (k - (52 - a.log2 : Nat)) -
        (((52 : Nat) : Int) + 1 + (l - 52)) - 53) (-1074)) = _
      omega
    have hshift : (k - (52 - a.log2 : Nat) - (l - 52) -
        (k - l - (52 - a.log2 + 1 : Nat))).toNat = 53 := by omega
    have hdigits : mantissa a <<< 53 = a <<< (52 - a.log2 + 1) * 2 ^ 52 := by
      rw [mantissa, ← Nat.shiftLeft_eq, ← Nat.shiftLeft_add, ← Nat.shiftLeft_add]
    rw [divCore, htarget]
    simp only [hshift, hdigits, Nat.mul_div_cancel _ (Nat.two_pow_pos 52), Nat.mul_mod_left]
    rfl
  rw [hone, dyadic_pos ha]
  delta UnpackedFloat.div
  dsimp only
  rw [hcore]
  exact roundWithAccuracy_dyadic ha h (Nat.le_succ _)

/-- The exponents are compared first, and they grow with the number of digits. -/
theorem le_dyadic (ha : a < 2 ^ 53) (hb : b < 2 ^ 53) :
    UnpackedFloat.le (dyadic a k) (dyadic b k) = decide (a ≤ b) := by
  rcases Nat.eq_zero_or_pos a with rfl | hapos
  · rw [dyadic_zero, decide_eq_true (Nat.zero_le b)]
    rcases Nat.eq_zero_or_pos b with rfl | hbpos
    · rfl
    · rw [dyadic_pos hbpos]
      rfl
  rcases Nat.eq_zero_or_pos b with rfl | hbpos
  · rw [dyadic_zero, dyadic_pos hapos, decide_eq_false (Nat.not_le_of_lt hapos)]
    rfl
  have hloga := log2_le ha
  have hlogb := log2_le hb
  rw [dyadic_pos hapos, dyadic_pos hbpos]
  change ((compare (k - (52 - a.log2 : Nat)) (k - (52 - b.log2 : Nat))).then
    (compare (mantissa a) (mantissa b))).isLE = _
  rcases Nat.lt_trichotomy a.log2 b.log2 with hless | hsame | hmore
  · have hcompare : compare (k - (52 - a.log2 : Nat)) (k - (52 - b.log2 : Nat)) = .lt :=
      compare_lt_iff_lt.mpr (by omega)
    have hab : a ≤ b := by
      by_contra hba
      have := log2_mono hbpos (Nat.le_of_not_le hba)
      omega
    rw [hcompare, decide_eq_true hab]
    rfl
  · rw [hsame, compare_eq_iff_eq.mpr rfl, mantissa, mantissa, hsame, Nat.shiftLeft_eq,
      Nat.shiftLeft_eq, Bool.eq_iff_iff, decide_eq_true_iff]
    change (compare _ _).isLE = true ↔ _
    rw [Nat.isLE_compare, Nat.mul_le_mul_right_iff (Nat.two_pow_pos _)]
  · have hcompare : compare (k - (52 - a.log2 : Nat)) (k - (52 - b.log2 : Nat)) = .gt :=
      compare_gt_iff_gt.mpr (by omega)
    have hab : ¬ a ≤ b := by
      intro hab
      have := log2_mono hapos hab
      omega
    rw [hcompare, decide_eq_false hab]
    rfl

end Operations

/-- The number that a double stands for, and zero if it stands for none. -/
def value (x : Float) : ℚ :=
  match x.toModel.unpack with
  | .finite sign mantissa exponent _ => (sign.apply (mantissa : ℤ) : ℤ) * 2 ^ exponent
  | _ => 0

/-- A double holds `n * 2 ^ k`. -/
def Holds (x : Float) (n : Nat) (k : Int) : Prop :=
  x.toModel.unpack = dyadic n k

namespace Holds

variable {x y : Float} {a b : Nat} {l : Int}

theorem value_eq (h : Holds x n k) : value x = n * 2 ^ k := by
  rw [value, h]
  rcases Nat.eq_zero_or_pos n with rfl | hpos
  · rw [dyadic_zero, Nat.cast_zero, zero_mul]
  · rw [dyadic_pos hpos]
    change (((mantissa n : ℕ) : ℤ) : ℚ) * 2 ^ (k - (52 - n.log2 : Nat)) = n * 2 ^ k
    rw [zpow_sub₀ two_ne_zero, mantissa, Nat.shiftLeft_eq]
    push_cast
    rw [zpow_natCast, mul_assoc, mul_div_cancel₀ _ (pow_ne_zero _ two_ne_zero)]

theorem shiftLeft_iff (h : n <<< j < 2 ^ 53) : Holds x (n <<< j) k ↔ Holds x n (k + j) := by
  rw [Holds, Holds, dyadic_shiftLeft h]

theorem add (hx : Holds x a k) (hy : Holds y b k) (h : Fits (a + b) k) :
    Holds (x + y) (a + b) k := by
  change (Float.Model.pack (UnpackedFloat.add .binary64 x.toModel.unpack y.toModel.unpack)).unpack
    = _
  rw [hx, hy, add_dyadic h, unpack_pack_dyadic h]

theorem mul (hx : Holds x a k) (hy : Holds y b l) (h : Fits (a * b) (k + l)) :
    Holds (x * y) (a * b) (k + l) := by
  change (Float.Model.pack (UnpackedFloat.mul .binary64 x.toModel.unpack y.toModel.unpack)).unpack
    = _
  rw [hx, hy, mul_dyadic h, unpack_pack_dyadic h]

theorem div_two_pow (hx : Holds x a k) (hy : Holds y 1 l) (h : Fits a (k - l)) :
    Holds (x / y) a (k - l) := by
  change (Float.Model.pack (UnpackedFloat.div .binary64 x.toModel.unpack y.toModel.unpack)).unpack
    = _
  rw [hx, hy, div_dyadic h, unpack_pack_dyadic h]

/-- Doubles that hold multiples of one power of two are compared without rounding. -/
theorem le_iff (hx : Holds x a k) (hy : Holds y b k) (ha : a < 2 ^ 53) (hb : b < 2 ^ 53) :
    x ≤ y ↔ value x ≤ value y := by
  have hmodel : x ≤ y ↔ a ≤ b := by
    change decide (UnpackedFloat.le x.toModel.unpack y.toModel.unpack = true) = true ↔ _
    rw [hx, hy, le_dyadic ha hb, decide_eq_true_iff, decide_eq_true_iff]
  have hpower : (0 : ℚ) < 2 ^ k := zpow_pos two_pos k
  rw [hmodel, hx.value_eq, hy.value_eq, mul_le_mul_iff_left₀ hpower, Nat.cast_le]

theorem ofNat (h : n < 2 ^ 53) : Holds (Float.ofNat n) n 0 := by
  have hfits : Fits n 0 := ⟨h, by decide, by decide⟩
  have hinteger : Holds n.toUInt64.toFloat n 0 := by
    have hword : n.toUInt64.toNat = n := Nat.mod_eq_of_lt (by omega)
    have hnormal := normalize_dyadic hfits 0
    rw [Nat.shiftLeft_zero, Int.natCast_zero, Int.sub_zero] at hnormal
    change (Float.Model.pack
      (UnpackedFloat.normalize .binary64 (n.toUInt64.toNat : Int) 0 .positive)).unpack = _
    rw [hword, hnormal, unpack_pack_dyadic hfits]
  -- a decimal number without a fraction is an integer times the zeroth power of ten
  have hone : Holds Float.exactlyRepresentablePowersOfTen[0] 1 0 := rfl
  have hproduct := mul hinteger hone (by rwa [Nat.mul_one])
  rw [Nat.mul_one] at hproduct
  change Holds (Float.ofScientific n false 0) n 0
  rw [Float.ofScientific, dif_pos ⟨h, by decide⟩]
  exact hproduct

/-- A power of two is held as such. -/
theorem two_pow (hj : j ≤ 52) : Holds (Float.ofNat (2 ^ j)) 1 j := by
  have hlt : 2 ^ j < 2 ^ 53 := Nat.pow_lt_pow_right (by decide) (by omega)
  have hshift : 1 <<< j = 2 ^ j := Nat.one_shiftLeft j
  have hheld : Holds (Float.ofNat (2 ^ j)) (1 <<< j) 0 := by
    rw [hshift]
    exact ofNat hlt
  have hpower := (shiftLeft_iff (hshift ▸ hlt)).mp hheld
  rwa [Int.zero_add] at hpower

end Holds

end DalvikRules.Binary64
