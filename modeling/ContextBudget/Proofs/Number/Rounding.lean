import ContextBudget.Number.Binary
import ContextBudget.Prune.Selection
import Mathlib.Algebra.Ring.Nat

/-!
# Rounding once more

A number that an operation has rounded to a format is one that the format has: rounding it again
changes nothing.

- `dvd_round`: a rounded number is a whole multiple of its last place.
- `rounded_ofUnits`, `rounded_div`: the results of operations stay as they are when they are rounded
  again.
- `finite_ratio`: a share of lines is a finite number, if it was compared with a finite one.
-/

namespace ContextBudget

theorem nearest_mul_self (m : Nat) {k : Nat} (hk : 0 < k) : nearest (m * k) k = m := by
  rw [nearest, Nat.mul_mod_left, Nat.mul_div_cancel _ hk, if_pos (by omega)]

theorem nearest_le_succ (num den : Nat) : nearest num den ≤ num / den + 1 := by
  unfold nearest
  simp only
  split
  · omega
  · split <;> omega

namespace BinaryFormat

variable {f : BinaryFormat} {num den units : Nat}

theorem lt_pow_dropped (f : BinaryFormat) (units : Nat) :
    units < 2 ^ (f.precision + f.dropped units) := by
  refine Nat.lt_of_lt_of_le (Nat.lt_log2_self (n := units)) (Nat.pow_le_pow_right (by decide) ?_)
  rw [dropped]
  omega

theorem pow_dropped_le (hprecision : 0 < f.precision) (hunits : 0 < units) :
    2 ^ f.dropped units ≤ units := by
  refine Nat.le_trans (Nat.pow_le_pow_right (by decide) ?_) (Nat.log2_self_le (by omega))
  rw [dropped]
  omega

/-- A rounded number is a whole multiple of its last place. -/
theorem dvd_round (hprecision : 0 < f.precision) (num den : Nat) :
    2 ^ f.dropped (f.round num den) ∣ f.round num den := by
  have hround : f.round num den =
      nearest num (den * 2 ^ f.dropped (num / den)) * 2 ^ f.dropped (num / den) := rfl
  have hlast := lt_pow_dropped f (num / den)
  generalize hd : f.dropped (num / den) = d at hround hlast
  have hbound : nearest num (den * 2 ^ d) ≤ 2 ^ f.precision := by
    refine Nat.le_trans (nearest_le_succ _ _) ?_
    rw [← Nat.div_div_eq_div_mul]
    refine Nat.div_lt_of_lt_mul ?_
    rwa [Nat.mul_comm, ← Nat.pow_add]
  generalize nearest num (den * 2 ^ d) = n at hround hbound
  rw [hround]
  rcases Nat.lt_or_eq_of_le hbound with hless | heq
  · refine Nat.dvd_trans (Nat.pow_dvd_pow 2 ?_) (Nat.dvd_mul_left (2 ^ d) n)
    rcases Nat.eq_zero_or_pos n with rfl | hpos
    · rw [Nat.zero_mul, dropped, Nat.log2_zero]
      omega
    · have hsmall : n * 2 ^ d < 2 ^ (f.precision + d) := by
        rw [Nat.pow_add]
        exact Nat.mul_lt_mul_of_pos_right hless (Nat.two_pow_pos d)
      have hlog := (Nat.log2_lt (Nat.ne_of_gt (Nat.mul_pos hpos (Nat.two_pow_pos d)))).mpr hsmall
      rw [dropped]
      omega
  · -- The significand has one digit too many, but it is a power of two.
    rw [heq, ← Nat.pow_add, dropped, Nat.log2_two_pow]
    exact Nat.pow_dvd_pow 2 (by omega)

/-- A multiple of its last place is not changed by rounding. -/
theorem round_of_dvd (h : 2 ^ f.dropped units ∣ units) (hden : 0 < den) :
    f.round (units * den) den = units := by
  obtain ⟨m, hm⟩ := h
  have hstep : 0 < den * 2 ^ f.dropped units := Nat.mul_pos hden (Nat.two_pow_pos _)
  rw [round, Nat.mul_div_cancel _ hden]
  change nearest (units * den) (den * 2 ^ f.dropped units) * 2 ^ f.dropped units = units
  have hnum : units * den = m * (den * 2 ^ f.dropped units) :=
    calc units * den = 2 ^ f.dropped units * m * den := by rw [← hm]
      _ = m * (den * 2 ^ f.dropped units) := by
        rw [Nat.mul_comm (2 ^ _), Nat.mul_assoc, Nat.mul_comm (2 ^ _)]
  rw [hnum, nearest_mul_self m hstep, Nat.mul_comm, ← hm]

/-- Rounding a whole number neither takes it to zero nor doubles it. -/
theorem round_bounds (hprecision : 0 < f.precision) (hnum : 0 < num) :
    0 < f.round num 1 ∧ f.round num 1 ≤ 2 * num := by
  have hround : f.round num 1 =
      nearest num (2 ^ f.dropped num) * 2 ^ f.dropped num := by
    rw [round, Nat.div_one, Nat.one_mul]
    rfl
  have hstep := pow_dropped_le hprecision hnum
  have hlow := @le_nearest_mul num _ (Nat.two_pow_pos (f.dropped num))
  have hhigh := @nearest_mul_le num _ (Nat.two_pow_pos (f.dropped num))
  rw [← hround] at hlow hhigh
  omega

end BinaryFormat

namespace Binary

variable {f : BinaryFormat}

/-- A number that the format has: rounding it to the format changes nothing. -/
def Rounded (x : Binary f) : Prop := x.convert f = x

theorem rounded_ofUnits (hprecision : 0 < f.precision) (negative : Bool) (num den : Nat) :
    (ofUnits negative num den : Binary f).Rounded := by
  unfold ofUnits
  simp only
  split
  · rename_i hsmall
    have hround := BinaryFormat.round_of_dvd (BinaryFormat.dvd_round hprecision num den)
      (Nat.two_pow_pos f.scale)
    simp only [Rounded, convert, ofUnits]
    rw [Nat.pow_eq, hround, if_pos hsmall]
  · rfl

theorem rounded_zero (negative : Bool) : (finite negative 0 : Binary f).Rounded := by
  have hround := BinaryFormat.round_of_dvd (f := f) (Nat.dvd_zero _) (Nat.two_pow_pos f.scale)
  simp only [Rounded, convert, ofUnits]
  rw [Nat.pow_eq, hround, Nat.pow_eq, if_pos (Nat.two_pow_pos f.top)]

theorem rounded_ofNat (hprecision : 0 < f.precision) (n : Nat) : (ofNat n : Binary f).Rounded :=
  rounded_ofUnits hprecision _ _ _

theorem rounded_div (hprecision : 0 < f.precision) (x y : Binary f) : (x / y).Rounded := by
  change (div x y).Rounded
  unfold div
  split
  all_goals try rfl
  · exact rounded_zero _
  · split
    · split <;> rfl
    · exact rounded_ofUnits hprecision _ _ _

/-- A word is a finite number, and zero only if the word is, in a format that goes beyond words. -/
theorem exists_ofNat (hprecision : 0 < f.precision) (hroom : f.scale + 65 ≤ f.top) {n : Nat}
    (hn : n < Word.size) :
    ∃ units, (ofNat n : Binary f) = finite false units ∧ (0 < n → 0 < units) := by
  have hunits : (ofNat n : Binary f) = if f.round (n * 2 ^ f.scale) 1 < 2 ^ f.top
      then finite false (f.round (n * 2 ^ f.scale) 1) else infinity false := rfl
  rcases Nat.eq_zero_or_pos n with rfl | hpos
  · have hround := BinaryFormat.round_of_dvd (f := f) (Nat.dvd_zero _) Nat.one_pos
    rw [Nat.zero_mul] at hround hunits
    rw [hround, if_pos (Nat.two_pow_pos f.top)] at hunits
    exact ⟨0, hunits, fun h => h⟩
  · obtain ⟨hlow, hhigh⟩ :=
      BinaryFormat.round_bounds hprecision (Nat.mul_pos hpos (Nat.two_pow_pos f.scale))
    have hsmall : f.round (n * 2 ^ f.scale) 1 < 2 ^ f.top :=
      calc f.round (n * 2 ^ f.scale) 1 ≤ 2 * (n * 2 ^ f.scale) := hhigh
        _ < 2 * (2 ^ 64 * 2 ^ f.scale) :=
          Nat.mul_lt_mul_of_pos_left
            (Nat.mul_lt_mul_of_pos_right hn (Nat.two_pow_pos f.scale)) (by decide)
        _ = 2 ^ (f.scale + 65) := by
          rw [← Nat.pow_add, ← Nat.pow_succ']
          congr 1
          omega
        _ ≤ 2 ^ f.top := Nat.pow_le_pow_right (by decide) hroom
    rw [if_pos hsmall] at hunits
    exact ⟨_, hunits, fun _ => hlow⟩

/-- A quotient of words is finite, if it was compared with a finite number and is not more. -/
theorem finite_div (hprecision : 0 < f.precision) (hroom : f.scale + 65 ≤ f.top) {a b : Nat}
    (ha : a < Word.size) (hb : b < Word.size) (hpos : 0 < b) {limit : Binary f}
    (hlimit : limit.isFinite = true) (hless : limit.lt (ofNat a / ofNat b) = false) :
    (ofNat a / ofNat b : Binary f).isFinite = true := by
  obtain ⟨x, hx, -⟩ := exists_ofNat hprecision hroom ha
  obtain ⟨y, hy, hy0⟩ := exists_ofNat hprecision hroom hb
  have hquotient : (ofNat a / ofNat b : Binary f) = ofUnits false (x * Nat.pow 2 f.scale) y := by
    rw [hx, hy]
    exact if_neg (Nat.ne_of_gt (hy0 hpos))
  rw [hquotient, ofUnits] at hless ⊢
  by_cases hlarge : f.round (x * Nat.pow 2 f.scale) y < Nat.pow 2 f.top
  · rw [if_pos hlarge]
    rfl
  · rw [if_neg hlarge] at hless
    cases limit with
    | finite => cases hless
    | _ => cases hlimit

end Binary

namespace Selection

theorem rounded_zero : (0 : Double).Rounded := Binary.rounded_ofNat (by decide) 0

theorem rounded_ratio (part whole : Nat) : (ratio part whole).Rounded := by
  unfold ratio
  split
  · exact rounded_zero
  · exact Binary.rounded_div (by decide) _ _

theorem finite_zero : (0 : Double).isFinite = true := by
  obtain ⟨units, hzero, -⟩ := @Binary.exists_ofNat double (by decide) (by decide) 0 (by decide)
  change (Binary.ofNat 0 : Double).isFinite = true
  rw [hzero]
  rfl

/-- A share that was compared with a finite number, and is not more than it, is finite. -/
theorem finite_ratio {part whole : Nat} {limit : Double} (hpart : part < Word.size)
    (hwhole : whole < Word.size) (hlimit : limit.isFinite = true)
    (hless : limit.lt (ratio part whole) = false) : (ratio part whole).isFinite = true := by
  unfold ratio at hless ⊢
  by_cases hnone : whole = 0
  · rw [if_pos hnone]
    exact finite_zero
  · rw [if_neg hnone] at hless ⊢
    exact Binary.finite_div (by decide) (by decide) hpart hwhole (by omega) hlimit hless

end Selection
end ContextBudget
