import Mathlib.Algebra.Order.Floor.Ring
import Mathlib.Data.Rat.Floor
import Mathlib.Tactic.Linarith
import Solverr.Lib.Json

/-!
# Integers as doubles

`float(n)` of an integer is the nearest double, and the even one of two that are as near. A
double has 53 binary digits, so that many are kept of `n`. `ofInt?_eq_none_iff` says from
where on there is no double, and `ofInt?_floor` that a double's whole part is a double.
-/

namespace Solverr.Lib

/-- `n / 2 ^ shift`, rounded to the nearest, and to the even one of two. -/
def roundEven (n shift : ℕ) : ℕ :=
  let q := n / 2 ^ shift
  let r := n % 2 ^ shift
  if 2 * r < 2 ^ shift ∨ 2 * r = 2 ^ shift ∧ q % 2 = 0 then q else q + 1

/-- How many binary digits of `n` a double has no room for. -/
def excess (n : ℕ) : ℕ := n.log2 - 52

/-- The nearest number with 53 binary digits. -/
def nearest (n : ℕ) : ℕ := roundEven n (excess n) * 2 ^ excess n

/-- `float(n)`; `none` is `OverflowError`. -/
def Double.ofInt? (n : ℤ) : Option Double :=
  if nearest n.natAbs < 2 ^ 1024 then
    some (.finite (if n < 0 then -(nearest n.natAbs) else nearest n.natAbs))
  else none

/-- Half a unit beyond the greatest double. -/
def Double.limit : ℤ := 2 ^ 1024 - 2 ^ 970

/-- A rational that a finite double has for a value. -/
def IsDouble (q : ℚ) : Prop :=
  ∃ a e : ℤ, |a| < 2 ^ 53 ∧ -1074 ≤ e ∧ e ≤ 971 ∧ q = a * 2 ^ e

/-! ## The nearest double -/

theorem le_roundEven (n shift : ℕ) : n / 2 ^ shift ≤ roundEven n shift := by
  unfold roundEven
  dsimp only
  split <;> omega

theorem roundEven_le (n shift : ℕ) : roundEven n shift ≤ n / 2 ^ shift + 1 := by
  unfold roundEven
  dsimp only
  split <;> omega

/-- What divides is not rounded. -/
theorem roundEven_of_dvd {n shift : ℕ} (h : 2 ^ shift ∣ n) : roundEven n shift = n / 2 ^ shift := by
  have hrest : n % 2 ^ shift = 0 := Nat.mod_eq_zero_of_dvd h
  have hpos : 0 < 2 ^ shift := Nat.two_pow_pos shift
  unfold roundEven
  dsimp only
  rw [hrest, if_pos (.inl (by omega))]

/-- Rounding does not cross a power of two upwards. -/
theorem nearest_le {n k : ℕ} (h : n < 2 ^ k) : nearest n ≤ 2 ^ k := by
  unfold nearest
  have hshift : excess n ≤ k := by
    unfold excess
    by_cases hzero : n = 0
    · rw [hzero]
      exact Nat.zero_le k
    · have hlog := (Nat.log2_lt hzero).mpr h
      omega
  have hsplit : 2 ^ k = 2 ^ (k - excess n) * 2 ^ excess n := by
    rw [← pow_add, Nat.sub_add_cancel hshift]
  have hquot : n / 2 ^ excess n < 2 ^ (k - excess n) :=
    Nat.div_lt_of_lt_mul (by rwa [Nat.mul_comm, ← hsplit])
  rw [hsplit]
  exact Nat.mul_le_mul_right _ ((roundEven_le n _).trans hquot)

/-- Nor downwards. -/
theorem le_nearest {n : ℕ} (hn : n ≠ 0) : 2 ^ n.log2 ≤ nearest n := by
  unfold nearest
  have hshift : excess n ≤ n.log2 := Nat.sub_le ..
  have hsplit : 2 ^ n.log2 = 2 ^ (n.log2 - excess n) * 2 ^ excess n := by
    rw [← pow_add, Nat.sub_add_cancel hshift]
  have hquot : 2 ^ (n.log2 - excess n) ≤ n / 2 ^ excess n := by
    rw [Nat.le_div_iff_mul_le (Nat.two_pow_pos _), ← hsplit]
    exact Nat.log2_self_le hn
  rw [hsplit]
  exact Nat.mul_le_mul_right _ (hquot.trans (le_roundEven n _))

/-- A number with 53 binary digits and zeros is its own nearest. -/
theorem nearest_eq_self {a e : ℕ} (ha : a < 2 ^ 53) : nearest (a * 2 ^ e) = a * 2 ^ e := by
  by_cases hzero : a * 2 ^ e = 0
  · rw [hzero]
    decide
  · have hlt : a * 2 ^ e < 2 ^ (53 + e) := by
      rw [pow_add]
      exact Nat.mul_lt_mul_of_pos_right ha (Nat.two_pow_pos e)
    have hlog := (Nat.log2_lt hzero).mpr hlt
    have hdvd : 2 ^ excess (a * 2 ^ e) ∣ a * 2 ^ e := by
      refine (Nat.pow_dvd_pow 2 ?_).trans (Nat.dvd_mul_left ..)
      unfold excess
      omega
    unfold nearest
    rw [roundEven_of_dvd hdvd, Nat.div_mul_cancel hdvd]

/-! ## Where there is a double -/

/-- The last binade: from half a unit below its end on, everything is rounded up. -/
theorem nearest_lt_iff_of_log2 {n : ℕ} (h : n.log2 = 1023) :
    nearest n < 2 ^ 1024 ↔ n < 2 ^ 1024 - 2 ^ 970 := by
  have hexcess : excess n = 971 := by
    unfold excess
    rw [h]
  have hne : n ≠ 0 := fun hzero => by
    rw [hzero] at h
    exact absurd h (by decide)
  have htop : n < 2 ^ 1024 := by
    rw [← Nat.log2_lt hne, h]
    decide
  have hsplit : (2 : ℕ) ^ 1024 = 2 ^ 53 * 2 ^ 971 := by rw [← pow_add]
  have hhalf : (2 : ℕ) ^ 971 = 2 * 2 ^ 970 := by rw [← pow_succ']
  have hpos : 0 < (2 : ℕ) ^ 971 := pow_pos two_pos 971
  have hquot : n / 2 ^ 971 < 2 ^ 53 := by
    refine Nat.div_lt_of_lt_mul ?_
    rwa [Nat.mul_comm, ← hsplit]
  have hsum : 2 ^ 971 * (n / 2 ^ 971) + n % 2 ^ 971 = n := Nat.div_add_mod n _
  have hrest : n % 2 ^ 971 < 2 ^ 971 := Nat.mod_lt _ hpos
  unfold nearest
  rw [hexcess, hsplit, Nat.mul_lt_mul_right hpos]
  unfold roundEven
  dsimp only
  generalize n / 2 ^ 971 = q at *
  generalize n % 2 ^ 971 = r at *
  generalize (2 : ℕ) ^ 971 = unit at *
  generalize (2 : ℕ) ^ 970 = half at *
  rcases Nat.lt_or_ge q (2 ^ 53 - 1) with hlow | hlast
  · have hbelow : unit * q + unit ≤ 2 ^ 53 * unit - unit := by
      have hle := Nat.mul_le_mul_left unit (Nat.succ_le_of_lt hlow)
      rw [Nat.mul_succ, Nat.mul_sub, Nat.mul_one, Nat.mul_comm unit (2 ^ 53)] at hle
      exact hle
    split <;> omega
  · -- an odd quotient: halfway is rounded up
    obtain rfl : q = 2 ^ 53 - 1 := by omega
    split <;> omega

theorem nearest_lt_iff (n : ℕ) : nearest n < 2 ^ 1024 ↔ n < 2 ^ 1024 - 2 ^ 970 := by
  by_cases hzero : n = 0
  · have hnone : nearest 0 = 0 := rfl
    have hroom : (2 : ℕ) ^ 970 < 2 ^ 1024 := pow_lt_pow_right₀ one_lt_two (by decide)
    rw [hzero, hnone]
    exact iff_of_true (pow_pos two_pos 1024) (Nat.sub_pos_of_lt hroom)
  · rcases Nat.lt_trichotomy n.log2 1023 with hlt | heq | hgt
    · have hn : n < 2 ^ 1023 := by rwa [← Nat.log2_lt hzero]
      have hhalf : (2 : ℕ) ^ 970 ≤ 2 ^ 1023 := pow_le_pow_right₀ one_le_two (by decide)
      have habove : (2 : ℕ) ^ 1023 < 2 ^ 1024 := pow_lt_pow_right₀ one_lt_two (by decide)
      have hbelow : (2 : ℕ) ^ 1023 ≤ 2 ^ 1024 - 2 ^ 970 := by
        rw [pow_succ' 2 1023, Nat.two_mul]
        exact Nat.le_sub_of_add_le (Nat.add_le_add_left hhalf _)
      exact iff_of_true ((nearest_le hn).trans_lt habove) (hn.trans_le hbelow)
    · exact nearest_lt_iff_of_log2 heq
    · have hpow : (2 : ℕ) ^ 1024 ≤ 2 ^ n.log2 := pow_le_pow_right₀ one_le_two hgt
      have hn : 2 ^ 1024 ≤ n := hpow.trans (Nat.log2_self_le hzero)
      refine iff_of_false (not_lt.mpr (hpow.trans (le_nearest hzero))) ?_
      exact not_lt.mpr ((Nat.sub_le ..).trans hn)

namespace Double

/-- **Where there is no double**: from half a unit beyond the greatest one on. -/
theorem ofInt?_eq_none_iff (n : ℤ) : ofInt? n = none ↔ limit ≤ |n| := by
  have hle : (2 : ℕ) ^ 970 ≤ 2 ^ 1024 := pow_le_pow_right₀ one_le_two (by decide)
  have hcast : ((2 ^ 1024 - 2 ^ 970 : ℕ) : ℤ) = limit := by
    rw [Nat.cast_sub hle, Nat.cast_pow, Nat.cast_pow]
    rfl
  have hlimit : nearest n.natAbs < 2 ^ 1024 ↔ ¬ limit ≤ |n| := by
    rw [nearest_lt_iff, not_le, Int.abs_eq_natAbs, ← hcast, Nat.cast_lt]
  unfold ofInt?
  by_cases h : nearest n.natAbs < 2 ^ 1024
  · rw [if_pos h]
    exact iff_of_false nofun (hlimit.mp h)
  · rw [if_neg h]
    exact iff_of_true rfl (not_not.mp (hlimit.not.mp h))

/-- Digits and zeros, if there is room for them, are a double. -/
theorem ofInt?_of_digits {a e : ℕ} (ha : a < 2 ^ 53) (he : e ≤ 971) :
    ofInt? ((a * 2 ^ e : ℕ) : ℤ) = some (.finite ((a * 2 ^ e : ℕ) : ℚ)) := by
  have hlt : a * 2 ^ e < 2 ^ 1024 := by
    have hpow : (2 : ℕ) ^ e ≤ 2 ^ 971 := pow_le_pow_right₀ one_le_two he
    calc a * 2 ^ e < 2 ^ 53 * 2 ^ e := Nat.mul_lt_mul_of_pos_right ha (Nat.two_pow_pos e)
      _ ≤ 2 ^ 53 * 2 ^ 971 := Nat.mul_le_mul_left _ hpow
      _ = 2 ^ 1024 := by rw [← pow_add]
  unfold ofInt?
  rw [Int.natAbs_natCast, nearest_eq_self ha, if_pos hlt, if_neg (by omega)]

/-- Small numbers are doubles. -/
theorem ofInt?_of_lt {n : ℤ} (hn : 0 ≤ n) (hlt : n < 2 ^ 53) : ofInt? n = some (.finite n) := by
  obtain ⟨m, rfl⟩ := Int.eq_ofNat_of_zero_le hn
  have hm : m < 2 ^ 53 := by omega
  have hdigits := ofInt?_of_digits hm (Nat.zero_le 971)
  rwa [pow_zero, mul_one] at hdigits

/-- **The whole part** of a double is one. -/
theorem ofInt?_floor {q : ℚ} (h : IsDouble q) (hq : 0 ≤ q) :
    ofInt? ⌊q⌋ = some (.finite ⌊q⌋) := by
  obtain ⟨a, e, ha, -, he, rfl⟩ := h
  have hpow : (0 : ℚ) < 2 ^ e := zpow_pos two_pos e
  have hnonneg : 0 ≤ a := by
    have hcast : (0 : ℚ) ≤ a := nonneg_of_mul_nonneg_left hq hpow
    exact_mod_cast hcast
  rw [abs_of_nonneg hnonneg] at ha
  rcases le_or_gt 0 e with hzero | hneg
  · -- a whole number
    obtain ⟨m, rfl⟩ := Int.eq_ofNat_of_zero_le hnonneg
    obtain ⟨k, rfl⟩ := Int.eq_ofNat_of_zero_le hzero
    have hwhole : ((m : ℤ) : ℚ) * 2 ^ (k : ℤ) = ((m * 2 ^ k : ℕ) : ℚ) := by
      rw [zpow_natCast, Nat.cast_mul, Nat.cast_pow]
      rfl
    rw [hwhole, Int.floor_natCast]
    exact ofInt?_of_digits (by omega) (by omega)
  · -- no more digits than the double has
    have hone : (2 : ℚ) ^ e ≤ 1 := zpow_le_one_of_nonpos₀ one_le_two hneg.le
    have hle : (a : ℚ) * 2 ^ e ≤ a := by
      have hcast : (0 : ℚ) ≤ a := by exact_mod_cast hnonneg
      nlinarith
    have hfloor : ⌊(a : ℚ) * 2 ^ e⌋ ≤ a := Int.floor_le_iff.mpr (by linarith)
    exact ofInt?_of_lt (Int.floor_nonneg.mpr hq) (hfloor.trans_lt ha)

end Double

end Solverr.Lib
