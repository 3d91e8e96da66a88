/-
The intervals that round to binary numbers.

Without its sign a number is a row of 63 bits, and these rows, read as natural numbers, are in the
order of the magnitudes that they stand for.  A magnitude is what every quantity between the
midpoints to its two neighbours rounds to; a midpoint itself goes to the neighbour with the even
row.  So the intervals of different rows have no quantity in common, and a decimal that lies in the
interval of a number tells its magnitude.

Main definitions:

* `Binary64.row`, `Binary64.magnitude` — the bits without the sign, and what they stand for;
* `Binary64.edge`, `Binary64.RoundsTo` — the midpoints, and the intervals between them.

Main results:

* `Binary64.magnitude_strictMono` — rows are in the order of their magnitudes;
* `Binary64.RoundsTo.unique` — **a quantity rounds to one magnitude only**;
* `Shortest.inside_iff` — the search for a decimal looks into these intervals;
* `Shortest.roundsTo_decimal` — **the shortest decimal rounds to the number**.
-/

import ExportSurface.Number.Shortest
import Mathlib.Algebra.Order.Field.Power
import Mathlib.Algebra.Order.Field.Rat
import Mathlib.Tactic.FieldSimp
import Mathlib.Tactic.Linarith
import Mathlib.Tactic.LinearCombination
import Mathlib.Tactic.NormNum
import Mathlib.Tactic.Ring

set_option autoImplicit false

namespace ExportSurface

namespace Binary64

variable {x y : Binary64} {b b' : ℕ} {q : ℚ}

/-! ### Rows of bits -/

/-- The bits of a number without the sign. -/
def row (x : Binary64) : ℕ := x.bits.toNat % 2 ^ 63

theorem fraction_eq (x : Binary64) : x.fraction = x.row % 2 ^ 52 := by
  simp only [fraction, row, Nat.pow_eq]
  omega

theorem biased_eq (x : Binary64) : x.biased = x.row / 2 ^ 52 := by
  have hbits : x.bits.toNat < 2 ^ 64 := x.bits.toNat_lt
  simp only [biased, row, Nat.pow_eq]
  omega

/-- The sign and the other bits make up a number. -/
theorem eq_of_row_eq (hsign : x.isNegative = y.isNegative) (hrow : x.row = y.row) : x = y := by
  have hx : x.bits.toNat < 2 ^ 64 := x.bits.toNat_lt
  have hy : y.bits.toNat < 2 ^ 64 := y.bits.toNat_lt
  have hbits : x.bits.toNat = y.bits.toNat := by
    simp only [isNegative, Nat.pow_eq, Bool.beq_eq_decide_eq, decide_eq_decide] at hsign
    simp only [row] at hrow
    omega
  cases x
  cases y
  congr
  exact UInt64.toNat_inj.1 hbits

theorem isZero_iff : x.isZero = true ↔ x.row = 0 := by
  simp only [isZero, Bool.and_eq_true, beq_iff_eq, fraction_eq, biased_eq]
  omega

/-! ### Magnitudes -/

/-- The integer `m` in the magnitude `m * 2 ^ e` of a row. -/
def mantissaAt (b : ℕ) : ℕ := if b / 2 ^ 52 = 0 then b % 2 ^ 52 else 2 ^ 52 + b % 2 ^ 52

/-- The integer `e` in the magnitude `m * 2 ^ e` of a row. -/
def exponentAt (b : ℕ) : ℤ := if b / 2 ^ 52 = 0 then -1074 else (b / 2 ^ 52 : ℕ) - 1075

/-- The magnitude that a row of bits stands for. -/
def magnitude (b : ℕ) : ℚ := mantissaAt b * 2 ^ exponentAt b

theorem mantissa_eq (x : Binary64) : x.mantissa = mantissaAt x.row := by
  simp only [mantissa, mantissaAt, fraction_eq, biased_eq, Nat.pow_eq]

theorem exponent_eq (x : Binary64) : x.exponent = exponentAt x.row := by
  simp only [exponent, exponentAt, biased_eq]

theorem mantissaAt_mod_two (b : ℕ) : mantissaAt b % 2 = b % 2 := by
  unfold mantissaAt
  split <;> omega

theorem exponentAt_ge (b : ℕ) : -1074 ≤ exponentAt b := by
  unfold exponentAt
  split <;> omega

/-- **Neighbours** are one unit in the last place of the lower one apart. -/
theorem magnitude_succ (b : ℕ) : magnitude (b + 1) = magnitude b + 2 ^ exponentAt b := by
  -- Either the mantissa grows by one, or it wraps around and the exponent grows.
  have hstep : mantissaAt (b + 1) = mantissaAt b + 1 ∧ exponentAt (b + 1) = exponentAt b ∨
      2 * mantissaAt (b + 1) = mantissaAt b + 1 ∧ exponentAt (b + 1) = exponentAt b + 1 := by
    unfold mantissaAt exponentAt
    split <;> split <;> omega
  unfold magnitude
  rcases hstep with ⟨hmantissa, hexponent⟩ | ⟨hmantissa, hexponent⟩
  · rw [hmantissa, hexponent]
    push_cast
    ring
  · have hmantissa : 2 * (mantissaAt (b + 1) : ℚ) = mantissaAt b + 1 := by exact_mod_cast hmantissa
    rw [hexponent, zpow_add_one₀ two_ne_zero]
    linear_combination (2 : ℚ) ^ exponentAt b * hmantissa

theorem magnitude_strictMono : StrictMono magnitude := by
  refine strictMono_nat_of_lt_succ fun b => ?_
  have hpos : (0 : ℚ) < 2 ^ exponentAt b := by positivity
  linarith [magnitude_succ b]

theorem magnitude_zero : magnitude 0 = 0 := by
  simp [magnitude, mantissaAt]

theorem magnitude_eq_zero_iff : magnitude b = 0 ↔ b = 0 := by
  rw [← magnitude_zero, magnitude_strictMono.injective.eq_iff]

/-! ### Intervals -/

/-- The lower end of the interval of a row: zero, or the midpoint to the row below. -/
def edge : ℕ → ℚ
  | 0 => 0
  | b + 1 => (magnitude b + magnitude (b + 1)) / 2

/-- A quantity rounds to the magnitude of a row.  The ends of an interval belong to it exactly if
the row is even. -/
def RoundsTo (q : ℚ) (b : ℕ) : Prop :=
  if b % 2 = 0 then edge b ≤ q ∧ q ≤ edge (b + 1) else edge b < q ∧ q < edge (b + 1)

theorem edge_strictMono : StrictMono edge := by
  refine strictMono_nat_of_lt_succ fun b => ?_
  have hlt : magnitude b < magnitude (b + 1) := magnitude_strictMono b.lt_succ_self
  cases b with
  | zero =>
      rw [magnitude_zero] at hlt
      simp only [edge, magnitude_zero]
      linarith
  | succ b =>
      have hbelow : magnitude b < magnitude (b + 1) := magnitude_strictMono b.lt_succ_self
      simp only [edge]
      linarith

theorem RoundsTo.bounds (h : RoundsTo q b) : edge b ≤ q ∧ q ≤ edge (b + 1) := by
  unfold RoundsTo at h
  split at h
  · exact h
  · exact ⟨h.1.le, h.2.le⟩

/-- Two intervals meet at most in an end, and of two neighbours only one has the end. -/
theorem RoundsTo.not_lt (h : RoundsTo q b) (h' : RoundsTo q b') : ¬ b < b' := by
  intro hlt
  have hle : edge (b + 1) ≤ edge b' := edge_strictMono.monotone hlt
  have hedges : edge (b + 1) = edge b' :=
    le_antisymm hle (h'.bounds.1.trans h.bounds.2)
  obtain rfl : b + 1 = b' := edge_strictMono.injective hedges
  -- Of two neighbours one is odd, and its interval does not have the end that they share.
  unfold RoundsTo at h h'
  by_cases heven : b % 2 = 0
  · rw [if_neg (by omega)] at h'
    rw [if_pos heven] at h
    linarith [h'.1, h.2]
  · rw [if_pos (by omega)] at h'
    rw [if_neg heven] at h
    linarith [h'.1, h.2]

/-- **A quantity rounds to one magnitude only.** -/
theorem RoundsTo.unique (h : RoundsTo q b) (h' : RoundsTo q b') : b = b' :=
  Nat.le_antisymm (Nat.not_lt.1 (h'.not_lt h)) (Nat.not_lt.1 (h.not_lt h'))

/-- A quarter of the last place of a row. -/
def quarter (b : ℕ) : ℚ := 2 ^ (exponentAt b - 2)

theorem quarter_pos (b : ℕ) : 0 < quarter b := by
  unfold quarter
  positivity

theorem four_mul_quarter (b : ℕ) : 4 * quarter b = 2 ^ exponentAt b := by
  rw [quarter, zpow_sub₀ two_ne_zero]
  ring

theorem magnitude_eq (b : ℕ) : magnitude b = (4 * mantissaAt b : ℕ) * quarter b := by
  rw [magnitude, ← four_mul_quarter]
  push_cast
  ring

theorem edge_succ (b : ℕ) : edge (b + 1) = magnitude b + 2 * quarter b := by
  rw [edge, magnitude_succ, ← four_mul_quarter]
  ring

/-- The lower end of an interval: the neighbour below is half as far away as the one above if the
mantissa wraps around between them. -/
theorem edge_eq (hb : b ≠ 0) : edge b =
    magnitude b - (if b % 2 ^ 52 = 0 ∧ 1 < b / 2 ^ 52 then 1 else 2) * quarter b := by
  obtain ⟨b, rfl⟩ := Nat.exists_eq_succ_of_ne_zero hb
  have hexponent : exponentAt (b + 1) =
      exponentAt b + if (b + 1) % 2 ^ 52 = 0 ∧ 1 < (b + 1) / 2 ^ 52 then 1 else 0 := by
    unfold exponentAt
    split_ifs <;> omega
  rw [Nat.succ_eq_add_one, edge_succ, magnitude_succ, ← four_mul_quarter]
  split_ifs at hexponent ⊢ with hwraps
  · have hquarter : quarter (b + 1) = 2 * quarter b := by
      rw [quarter, quarter, hexponent, add_sub_right_comm, zpow_add_one₀ two_ne_zero, mul_comm]
    rw [hquarter]
    ring
  · have hquarter : quarter (b + 1) = quarter b := by
      rw [quarter, quarter, hexponent, add_zero]
    rw [hquarter]
    ring

/-- What is less than a quarter of the last place away rounds to the magnitude. -/
theorem roundsTo_of_near (hb : b ≠ 0) (hlow : magnitude b - quarter b < q)
    (hhigh : q ≤ magnitude b) : RoundsTo q b := by
  have hquarter := quarter_pos b
  have hbelow : edge b < q := by
    rw [edge_eq hb]
    split_ifs <;> linarith
  have habove : q < edge (b + 1) := by
    rw [edge_succ]
    linarith
  unfold RoundsTo
  split_ifs
  · exact ⟨hbelow.le, habove.le⟩
  · exact ⟨hbelow, habove⟩

theorem roundsTo_magnitude (hb : b ≠ 0) : RoundsTo (magnitude b) b :=
  roundsTo_of_near hb (sub_lt_self _ (quarter_pos b)) le_rfl

/-! ### Quotients -/

theorem scale_den_pos {den : ℕ} (hden : 0 < den) (num : ℕ) (e : ℤ) :
    0 < (scale num den e).2 := by
  unfold scale
  split_ifs
  · exact Nat.mul_pos hden (Nat.pow_pos two_pos)
  · exact hden

theorem scale_eq (num den : ℕ) (e : ℤ) :
    ((scale num den e).1 : ℚ) / (scale num den e).2 = num / den / 2 ^ e := by
  unfold scale
  split_ifs with he
  · obtain ⟨n, rfl⟩ := Int.eq_ofNat_of_zero_le he
    simp [div_div]
  · obtain ⟨n, rfl⟩ := Int.exists_eq_neg_ofNat (Int.not_le.1 he).le
    simp [mul_div_right_comm]

end Binary64

/-! ### The search for a decimal -/

namespace Shortest

open Binary64

variable {x : Binary64} {k : ℤ} {p : ℕ}

/-- A quarter of the last place of a number over the step of a grid, as a quotient. -/
def gridRatio (x : Binary64) (k : ℤ) : ℕ × ℕ :=
  let (a, b) := scale 1 1 (2 - x.exponent)
  (a * (if k < 0 then Nat.pow 10 (-k).toNat else 1), b * (if k < 0 then 1 else Nat.pow 10 k.toNat))

/-- Does a point of a grid lie in the interval of a number? -/
def inside (x : Binary64) (k : ℤ) (p : ℕ) : Bool :=
  let (low, _, high) := interval x
  let (num, den) := gridRatio x k
  if x.mantissa % 2 = 0 then low * num ≤ p * den && p * den ≤ high * num
  else low * num < p * den && p * den < high * num

/-- The last point of a grid that is not above a number. -/
def gridFloor (x : Binary64) (k : ℤ) : ℕ :=
  (interval x).2.1 * (gridRatio x k).1 / (gridRatio x k).2

theorem gridPoint?_eq (x : Binary64) (k : ℤ) : gridPoint? x k =
    match inside x k (gridFloor x k), inside x k (gridFloor x k + 1) with
    | true, true =>
        some (if (gridRatio x k).2 ≤ 2 * ((interval x).2.1 * (gridRatio x k).1 % (gridRatio x k).2)
          then gridFloor x k + 1 else gridFloor x k)
    | true, false => some (gridFloor x k)
    | false, true => some (gridFloor x k + 1)
    | false, false => none :=
  rfl

theorem gridRatio_den_pos (x : Binary64) (k : ℤ) : 0 < (gridRatio x k).2 := by
  refine Nat.mul_pos (scale_den_pos one_pos _ _) ?_
  split_ifs
  · exact one_pos
  · exact Nat.pow_pos (by norm_num)

theorem gridRatio_eq (x : Binary64) (k : ℤ) :
    ((gridRatio x k).1 : ℚ) * 10 ^ k = (gridRatio x k).2 * quarter x.row := by
  have hscale := scale_eq 1 1 (2 - x.exponent)
  have hpos : ((scale 1 1 (2 - x.exponent)).2 : ℚ) ≠ 0 :=
    Nat.cast_ne_zero.2 (scale_den_pos one_pos _ _).ne'
  have hquarter : quarter x.row = ((2 : ℚ) ^ (2 - x.exponent))⁻¹ := by
    rw [quarter, ← exponent_eq, ← zpow_neg, neg_sub]
  rw [Nat.cast_one, div_one, one_div, ← hquarter, div_eq_iff hpos] at hscale
  simp only [gridRatio]
  split_ifs with hk
  · obtain ⟨n, rfl⟩ := Int.exists_eq_neg_ofNat hk.le
    simp [hscale, mul_comm]
  · obtain ⟨n, rfl⟩ := Int.eq_ofNat_of_zero_le (Int.not_lt.1 hk)
    simp only [hscale, Nat.cast_mul, Int.toNat_natCast, Nat.pow_eq, Nat.cast_pow, zpow_natCast]
    push_cast
    ring

/-- A number of quarters and a point of a grid, brought to integers by one common factor. -/
theorem exists_gridFactor (x : Binary64) (k : ℤ) : ∃ t : ℚ, 0 < t ∧
    (∀ n : ℕ, ((n * (gridRatio x k).1 : ℕ) : ℚ) = t * (n * quarter x.row)) ∧
    ∀ p : ℕ, ((p * (gridRatio x k).2 : ℕ) : ℚ) = t * (p * 10 ^ k) := by
  have hratio := gridRatio_eq x k
  have hden : (0 : ℚ) < (gridRatio x k).2 := Nat.cast_pos.2 (gridRatio_den_pos x k)
  have hten : (10 : ℚ) ^ k ≠ 0 := by positivity
  refine ⟨(gridRatio x k).2 / 10 ^ k, div_pos hden (by positivity), fun n => ?_, fun p => ?_⟩
  · rw [div_mul_eq_mul_div, eq_div_iff hten]
    push_cast
    linear_combination (n : ℚ) * hratio
  · rw [div_mul_eq_mul_div, eq_div_iff hten]
    push_cast
    ring

theorem mul_num_le_iff (n : ℕ) : n * (gridRatio x k).1 ≤ p * (gridRatio x k).2 ↔
    (n : ℚ) * quarter x.row ≤ p * 10 ^ k := by
  obtain ⟨t, ht, hnum, hden⟩ := exists_gridFactor x k
  rw [← mul_le_mul_iff_right₀ ht, ← hnum, ← hden, Nat.cast_le]

theorem mul_den_le_iff (n : ℕ) : p * (gridRatio x k).2 ≤ n * (gridRatio x k).1 ↔
    p * 10 ^ k ≤ (n : ℚ) * quarter x.row := by
  obtain ⟨t, ht, hnum, hden⟩ := exists_gridFactor x k
  rw [← mul_le_mul_iff_right₀ ht, ← hnum, ← hden, Nat.cast_le]

/-- The ends of the interval of a number are the midpoints to its neighbours. -/
theorem interval_eq (hx : x.row ≠ 0) :
    ((interval x).1 : ℚ) * quarter x.row = edge x.row ∧
      ((interval x).2.1 : ℚ) * quarter x.row = magnitude x.row ∧
      ((interval x).2.2 : ℚ) * quarter x.row = edge (x.row + 1) := by
  have hmantissa : x.mantissa ≠ 0 := by
    rw [mantissa_eq]
    unfold mantissaAt
    split_ifs <;> omega
  have hnarrow : isNarrowBelow x = true ↔ x.row % 2 ^ 52 = 0 ∧ 1 < x.row / 2 ^ 52 := by
    simp [isNarrowBelow, fraction_eq, biased_eq]
  have hmid : magnitude x.row = 4 * x.mantissa * quarter x.row := by
    rw [magnitude_eq, ← mantissa_eq]
    push_cast
    ring
  simp only [interval]
  refine ⟨?_, ?_, ?_⟩
  · rw [edge_eq hx, hmid]
    by_cases h : isNarrowBelow x = true
    · rw [if_pos h, if_pos (hnarrow.1 h), Nat.cast_sub (by omega)]
      push_cast
      ring
    · rw [if_neg h, if_neg (h ∘ hnarrow.2), Nat.cast_sub (by omega)]
      push_cast
      ring
  · rw [hmid]
    push_cast
    ring
  · rw [edge_succ, hmid]
    push_cast
    ring

/-- **The search looks into the interval that rounds to the number.** -/
theorem inside_iff (hx : x.row ≠ 0) :
    inside x k p = true ↔ RoundsTo (p * 10 ^ k) x.row := by
  obtain ⟨hlow, -, hhigh⟩ := interval_eq hx
  have heven : x.mantissa % 2 = x.row % 2 := by rw [mantissa_eq, mantissaAt_mod_two]
  unfold inside RoundsTo
  simp only [heven]
  split_ifs
  · rw [Bool.and_eq_true, decide_eq_true_iff, decide_eq_true_iff, mul_num_le_iff, mul_den_le_iff,
      hlow, hhigh]
  · rw [Bool.and_eq_true, decide_eq_true_iff, decide_eq_true_iff, ← Nat.not_le, ← Nat.not_le,
      mul_num_le_iff, mul_den_le_iff, hlow, hhigh, not_le, not_le]

theorem roundsTo_of_gridPoint? (hx : x.row ≠ 0) (h : gridPoint? x k = some p) :
    RoundsTo (p * 10 ^ k) x.row := by
  rw [← inside_iff hx]
  rw [gridPoint?_eq] at h
  cases hfloor : inside x k (gridFloor x k) <;>
    cases hnext : inside x k (gridFloor x k + 1) <;> simp only [hfloor, hnext] at h
  · cases h
  · cases h
    exact hnext
  · cases h
    exact hfloor
  · split_ifs at h <;> cases h
    · exact hnext
    · exact hfloor

/-- A grid that is fine enough meets the interval of a number just below the number. -/
theorem exists_gridPoint? (hx : x.row ≠ 0) (hk : (10 : ℚ) ^ k ≤ quarter x.row) :
    ∃ p, gridPoint? x k = some p := by
  obtain ⟨-, hmid, -⟩ := interval_eq hx
  have hle : gridFloor x k * (gridRatio x k).2 ≤ (interval x).2.1 * (gridRatio x k).1 :=
    Nat.div_mul_le_self _ _
  have hlt : ¬ (gridFloor x k + 1) * (gridRatio x k).2 ≤ (interval x).2.1 * (gridRatio x k).1 := by
    rw [Nat.not_le, Nat.mul_comm (gridFloor x k + 1)]
    exact Nat.lt_mul_div_succ _ (gridRatio_den_pos x k)
  rw [mul_den_le_iff, hmid] at hle hlt
  have hfloor : inside x k (gridFloor x k) = true := by
    refine (inside_iff hx).2 (roundsTo_of_near hx ?_ hle)
    push_cast at hlt
    linarith
  rw [gridPoint?_eq, hfloor]
  cases inside x k (gridFloor x k + 1) with
  | true => exact ⟨_, rfl⟩
  | false => exact ⟨_, rfl⟩

/-- Where one of the grids that are searched meets the interval, the search finds a point. -/
theorem roundsTo_search (hx : x.row ≠ 0) {n : ℕ} {k : ℤ}
    (hmeets : ∃ i < n, ∃ p, gridPoint? x (k - i) = some p) :
    RoundsTo ((search x n k).1 * 10 ^ (search x n k).2) x.row := by
  induction n generalizing k with
  | zero =>
      obtain ⟨i, hi, -⟩ := hmeets
      omega
  | succ n ih =>
      rw [search]
      cases hpoint : gridPoint? x k with
      | some p => exact roundsTo_of_gridPoint? hx hpoint
      | none =>
          obtain ⟨i, hi, p, hp⟩ := hmeets
          cases i with
          | zero => simp [hpoint] at hp
          | succ i =>
              refine ih ⟨i, by omega, p, ?_⟩
              rw [← hp]
              congr 1
              push_cast
              ring

/-- **The shortest decimal of a number rounds to it.** -/
theorem roundsTo_decimal (hx : x.row ≠ 0) :
    RoundsTo ((decimal x).1 * 10 ^ (decimal x).2) x.row := by
  refine roundsTo_search hx ⟨652, by norm_num, exists_gridPoint? hx ?_⟩
  -- The finest grid is finer than a quarter of the least number.
  have hexponent := exponentAt_ge x.row
  calc (10 : ℚ) ^ ((309 : ℤ) - (652 : ℕ)) = (10 ^ (-7 : ℤ)) ^ 49 := by
        rw [← zpow_natCast, ← zpow_mul]
        norm_num
    _ ≤ (2 ^ (-22 : ℤ)) ^ 49 := pow_le_pow_left₀ (by positivity) (by norm_num) 49
    _ = 2 ^ (-1078 : ℤ) := by
        rw [← zpow_natCast, ← zpow_mul]
        norm_num
    _ ≤ 2 ^ (exponentAt x.row - 2) := zpow_le_zpow_right₀ one_le_two (by omega)

end Shortest

end ExportSurface
