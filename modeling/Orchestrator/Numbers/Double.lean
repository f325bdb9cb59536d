import Mathlib.Data.Int.Log
import Mathlib.Data.Rat.Floor
import Mathlib.Tactic

/-!
# Double precision

The numbers of the language are double-precision floating-point numbers, here by the rational
numbers they are.

* `roundDouble`: the double nearest to a rational number, halves going to the even one;
* `Double`: the non-negative rational numbers that are doubles;
* `roundDouble_exact`: small multiples of powers of two are doubles;
* `roundDouble_idem`: what is rounded is a double.
-/

namespace Numbers

/-- The nearest natural number; halves go to the even one. -/
def roundHalfEven (x : ℚ) : ℕ :=
  if x - ⌊x⌋₊ < 1 / 2 then ⌊x⌋₊
  else if 1 / 2 < x - ⌊x⌋₊ then ⌊x⌋₊ + 1
  else if ⌊x⌋₊ % 2 = 0 then ⌊x⌋₊ else ⌊x⌋₊ + 1

/-- The exponent of the last place of the double nearest to `q`. -/
def ulpExponent (q : ℚ) : ℤ := max (Int.log 2 q - 52) (-1074)

/-- Past the greatest double. -/
def overflowBound : ℚ := 2 ^ 1024

/-- The double nearest to `q`, or none where that is infinity. -/
def roundDouble (q : ℚ) : Option ℚ :=
  let x := (roundHalfEven (q / 2 ^ ulpExponent q) : ℚ) * 2 ^ ulpExponent q
  if x < overflowBound then some x else none

/-- A double that is not negative. -/
structure Double where
  value : ℚ
  nonneg : 0 ≤ value
  rounded : roundDouble value = some value
  deriving DecidableEq

@[ext] theorem Double.ext' {x y : Double} (h : x.value = y.value) : x = y := by
  cases x
  cases y
  cases h
  rfl

/-! ## Rounding -/

@[simp] theorem roundHalfEven_natCast (n : ℕ) : roundHalfEven n = n := by
  unfold roundHalfEven
  rw [Nat.floor_natCast, sub_self, if_pos (by norm_num)]

theorem roundHalfEven_le {x : ℚ} (hx : 0 ≤ x) {n : ℕ} (h : x < n) : roundHalfEven x ≤ n := by
  have hfloor : ⌊x⌋₊ < n := (Nat.floor_lt hx).mpr h
  unfold roundHalfEven
  split_ifs <;> omega

/-- A multiple of a power of two with at most 53 bits, in range, is a double. -/
theorem roundDouble_exact {m : ℕ} {e : ℤ} (hm : m ≤ 2 ^ 53) (he : -1074 ≤ e)
    (hlt : (m : ℚ) * 2 ^ e < overflowBound) : roundDouble (m * 2 ^ e) = some ((m : ℚ) * 2 ^ e) := by
  have htwo : (2 : ℚ) ≠ 0 := by norm_num
  -- the last place of the result divides the number
  have hdivides : ∃ n : ℕ, (m : ℚ) * 2 ^ e = n * 2 ^ ulpExponent (m * 2 ^ e) := by
    rcases Nat.eq_zero_or_pos m with rfl | hpos
    · exact ⟨0, by simp⟩
    · have hx : (0 : ℚ) < m * 2 ^ e := by positivity
      rcases hm.lt_or_eq with hm | rfl
      · have hlog : Int.log 2 ((m : ℚ) * 2 ^ e) < 53 + e := by
          rw [← Int.lt_zpow_iff_log_lt (by norm_num) hx, Nat.cast_ofNat, zpow_add₀ htwo]
          have hcast : (m : ℚ) < 2 ^ (53 : ℤ) := by exact_mod_cast hm
          exact mul_lt_mul_of_pos_right hcast (by positivity)
        have hle : ulpExponent ((m : ℚ) * 2 ^ e) ≤ e := by
          unfold ulpExponent
          omega
        obtain ⟨k, hk⟩ := Int.eq_ofNat_of_zero_le (sub_nonneg.mpr hle)
        refine ⟨m * 2 ^ k, ?_⟩
        rw [Nat.cast_mul, Nat.cast_pow, Nat.cast_ofNat, mul_assoc, ← zpow_natCast, ← zpow_add₀ htwo]
        congr 2
        omega
      · have hpow : ((2 ^ 53 : ℕ) : ℚ) * 2 ^ e = 2 ^ (53 + e) := by
          rw [zpow_add₀ htwo]
          norm_num
        have hlog : Int.log 2 ((2 : ℚ) ^ (53 + e)) = 53 + e := by
          exact_mod_cast Int.log_zpow (R := ℚ) (b := 2) (by norm_num) (53 + e)
        refine ⟨2 ^ 52, ?_⟩
        rw [hpow]
        have hulp : ulpExponent ((2 : ℚ) ^ (53 + e)) = e + 1 := by
          unfold ulpExponent
          rw [hlog]
          omega
        rw [hulp, show (53 : ℤ) + e = 52 + (e + 1) by ring, zpow_add₀ htwo]
        norm_num
  obtain ⟨n, hn⟩ := hdivides
  have hquotient : (m : ℚ) * 2 ^ e / 2 ^ ulpExponent (m * 2 ^ e) = n := by
    rw [div_eq_iff (by positivity)]
    exact hn
  unfold roundDouble
  simp only [hquotient, roundHalfEven_natCast]
  rw [← hn, if_pos hlt]

/-- Every double is a multiple of a power of two with at most 53 bits. -/
theorem roundDouble_eq_some {q x : ℚ} (hq : 0 ≤ q) (h : roundDouble q = some x) :
    ∃ (m : ℕ) (e : ℤ), x = (m : ℚ) * 2 ^ e ∧ m ≤ 2 ^ 53 ∧ -1074 ≤ e ∧ x < overflowBound := by
  unfold roundDouble at h
  simp only at h
  split at h
  · next hlt =>
    cases h
    refine ⟨_, _, rfl, ?_, le_max_right _ _, hlt⟩
    refine roundHalfEven_le (by positivity) ?_
    rw [div_lt_iff₀ (by positivity)]
    calc q < 2 ^ (Int.log 2 q + 1) := by exact_mod_cast Int.lt_zpow_succ_log_self (by norm_num) q
      _ ≤ 2 ^ (53 + ulpExponent q) := by
        apply zpow_le_zpow_right₀ (by norm_num)
        have := le_max_left (Int.log 2 q - 52) (-1074)
        unfold ulpExponent
        omega
      _ = ((2 ^ 53 : ℕ) : ℚ) * 2 ^ ulpExponent q := by
        rw [zpow_add₀ (by norm_num)]
        norm_num
  · cases h

/-- What is rounded stays as it is when it is rounded again. -/
theorem roundDouble_idem {q x : ℚ} (hq : 0 ≤ q) (h : roundDouble q = some x) :
    roundDouble x = some x := by
  obtain ⟨m, e, rfl, hm, he, hlt⟩ := roundDouble_eq_some hq h
  exact roundDouble_exact hm he hlt

theorem roundDouble_nonneg {q x : ℚ} (h : roundDouble q = some x) : 0 ≤ x := by
  unfold roundDouble at h
  simp only at h
  split at h
  · rw [← Option.some.inj h]
    exact mul_nonneg (Nat.cast_nonneg (α := ℚ) _) (zpow_nonneg zero_le_two _)
  · cases h

/-- Every double is an integer times the least double. -/
theorem Double.integral (x : Double) : ∃ n : ℕ, x.value = (n : ℚ) * 2 ^ (-1074 : ℤ) := by
  obtain ⟨m, e, hx, -, he, -⟩ := roundDouble_eq_some x.nonneg x.rounded
  obtain ⟨k, hk⟩ := Int.eq_ofNat_of_zero_le (show 0 ≤ e + 1074 by omega)
  refine ⟨m * 2 ^ k, ?_⟩
  rw [hx, Nat.cast_mul, Nat.cast_pow, Nat.cast_ofNat, mul_assoc, ← zpow_natCast,
    ← zpow_add₀ (by norm_num)]
  congr 2
  omega

/-- The numbers with at most 53 bits are doubles. -/
theorem roundDouble_natCast {n : ℕ} (h : n ≤ 2 ^ 53) : roundDouble n = some (n : ℚ) := by
  have hlt : (n : ℚ) * 2 ^ (0 : ℤ) < overflowBound := by
    rw [zpow_zero, mul_one]
    calc (n : ℚ) ≤ ((2 ^ 53 : ℕ) : ℚ) := by exact_mod_cast h
      _ = 2 ^ 53 := by norm_num
      _ < 2 ^ 1024 := pow_lt_pow_right₀ (by norm_num) (by norm_num)
  have hexact := roundDouble_exact h (by norm_num : (-1074 : ℤ) ≤ 0) hlt
  rwa [zpow_zero, mul_one] at hexact

/-! ## Numbers -/

/-- A value of type `number`. -/
inductive JsNumber where
  | nan
  | infinity (negative : Bool)
  | finite (negative : Bool) (x : Double)
  deriving DecidableEq

/-- The number nearest to a rational number that is not negative, with a sign. -/
def JsNumber.round (negative : Bool) (q : ℚ) : JsNumber :=
  if hq : 0 ≤ q then
    match h : roundDouble q with
    | some x => .finite negative ⟨x, roundDouble_nonneg h, roundDouble_idem hq h⟩
    | none => .infinity negative
  else .nan

theorem JsNumber.round_double (negative : Bool) {q : ℚ} {x : Double} (hq : 0 ≤ q)
    (h : roundDouble q = some x.value) : JsNumber.round negative q = .finite negative x := by
  unfold JsNumber.round
  rw [dif_pos hq]
  split
  · next y hy =>
    rw [h] at hy
    congr 1
    exact Double.ext' (Option.some.inj hy).symm
  · next hnone => rw [h] at hnone; cases hnone

/-- `Number.isInteger`. -/
def JsNumber.isInteger : JsNumber → Bool
  | .finite _ x => x.value.den = 1
  | _ => false

end Numbers
