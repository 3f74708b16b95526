import ContextBudget.Proofs.Number.Order
import Mathlib.Algebra.Order.Field.Rat
import Mathlib.Tactic.Positivity

/-!
# Products and quotients

A product and a quotient are rounded apart from each other, so that a part which is just the product
of a whole and a share may be a larger share of that whole once it is divided again.

- `Binary.value`: the exact number that a binary number stands for.
- `units_lt_round_iff`, `lt_div_iff`: a rounded number is below a rounded quotient if it is below
  the exact one, unless rounding takes the quotient to it.
- `mul_eq_of_le`: a rounded number that is above an exact product, and not above the rounded one, is
  the rounded product.
- `ofNat_le_of_le_floorWord`: whole things of which a number holds enough are no more than it.
-/

namespace ContextBudget
namespace BinaryFormat

variable {f : BinaryFormat} {units num den : Nat}

/-- A number of the format is below a rounded quotient if it is below the exact one, unless rounding
takes the quotient to it. -/
theorem units_lt_round_iff (hprecision : 0 < f.precision) (h : 2 ^ f.dropped units ∣ units)
    (hden : 0 < den) :
    units < f.round num den ↔ units * den < num ∧ units ≠ f.round num den := by
  have hself : f.round (units * den) den = units := round_of_dvd h hden
  constructor
  · intro hlt
    refine ⟨?_, Nat.ne_of_lt hlt⟩
    by_contra hle
    have : f.round num den ≤ f.round (units * den) den := round_mono hprecision (by omega)
    omega
  · rintro ⟨hless, hne⟩
    have : f.round (units * den) den ≤ f.round num den := round_mono hprecision (by omega)
    omega

end BinaryFormat

namespace Binary

variable {f : BinaryFormat} {units num den : Nat}

/-! ## Numbers of the format -/

/-- The exact number; what is not finite counts as nothing. -/
def value : Binary f → ℚ
  | finite negative units => signed negative units / 2 ^ f.scale
  | _ => 0

theorem value_finite (units : Nat) : (finite false units : Binary f).value = units / 2 ^ f.scale := by
  simp [value, signed]

theorem value_mul_lt_iff {x u y : Nat} :
    (finite false x : Binary f).value * (finite false u : Binary f).value <
      (finite false y : Binary f).value ↔ u * x < y * 2 ^ f.scale := by
  have hscale : (0 : ℚ) < 2 ^ f.scale := by positivity
  rw [value_finite, value_finite, value_finite, div_mul_div_comm, div_lt_div_iff₀ (by positivity)
    hscale, ← mul_assoc, mul_lt_mul_iff_left₀ hscale, mul_comm (x : ℚ)]
  exact_mod_cast Iff.rfl

/-- A number that the format has is a whole multiple of its last place, and below the top. -/
theorem Rounded.multiple (hprecision : 0 < f.precision) {negative : Bool}
    (h : (finite negative units : Binary f).Rounded) :
    2 ^ f.dropped units ∣ units ∧ units < 2 ^ f.top := by
  simp only [Rounded, convert, ofUnits] at h
  split at h
  · rename_i hsmall
    obtain ⟨-, hround⟩ := Binary.finite.inj h
    rw [hround] at hsmall
    exact ⟨hround ▸ BinaryFormat.dvd_round hprecision _ _, hsmall⟩
  · cases h

theorem lt_ofUnits (hunits : units < 2 ^ f.top) :
    (finite false units : Binary f).lt (ofUnits false num den) = decide (units < f.round num den) := by
  unfold ofUnits
  dsimp only
  split
  · simp [lt, signed]
  · rename_i hlarge
    have : units < f.round num den := Nat.lt_of_lt_of_le hunits (Nat.not_lt.mp hlarge)
    simp [lt, this]

theorem finite_eq_ofUnits (hunits : units < 2 ^ f.top) :
    (finite false units : Binary f) = ofUnits false num den ↔ units = f.round num den := by
  unfold ofUnits
  dsimp only
  split
  · simp
  · rename_i hlarge
    have : units < f.round num den := Nat.lt_of_lt_of_le hunits (Nat.not_lt.mp hlarge)
    simp [Nat.ne_of_lt this]

theorem value_nonneg {x : Binary f} (h : le 0 x = true) : 0 ≤ x.value := by
  change le (ofNat 0) x = true at h
  rw [ofNat_zero] at h
  rcases x with _ | _ | ⟨negative, units⟩
  · exact le_refl _
  · exact le_refl _
  · have hsigned : (0 : Int) ≤ signed negative units := by simpa [le, signed] using h
    exact div_nonneg (by exact_mod_cast hsigned) (by positivity)

/-- A whole number is zero, or past the largest number of the format, or positive. -/
theorem ofNat_cases (hprecision : 0 < f.precision) (n : Nat) :
    (ofNat n : Binary f) = infinity false ∨
      ∃ units, (ofNat n : Binary f) = finite false units ∧ (0 < n → 0 < units) := by
  unfold ofNat ofRatio ofUnits
  dsimp only
  split
  · exact .inr ⟨_, rfl, fun hn => (BinaryFormat.round_bounds hprecision
      (Nat.mul_pos hn (Nat.two_pow_pos f.scale))).1⟩
  · exact .inl rfl

theorem zero_le_ofNat (hprecision : 0 < f.precision) (n : Nat) : le 0 (ofNat n : Binary f) = true := by
  change le (ofNat 0) _ = true
  rw [ofNat_zero]
  rcases ofNat_cases hprecision n with h | ⟨units, h, -⟩ <;> rw [h] <;> simp [le, signed]

theorem floorWord_le (x : Binary f) : x.floorWord ≤ Word.last := by
  rcases x with _ | (_ | _) | ⟨_ | _, units⟩
  case infinity.false => exact Nat.le_refl _
  case finite.false => exact Nat.min_le_right _ _
  all_goals exact Nat.zero_le _

theorem ofUnits_zero (negative : Bool) (den : Nat) :
    (ofUnits negative 0 den : Binary f) = finite negative 0 := by
  have hround : f.round 0 den = 0 := by simp [BinaryFormat.round, nearest]
  simp only [ofUnits, hround]
  exact if_pos (Nat.two_pow_pos f.top)

theorem floorWord_zero_mul (x : Binary f) : (finite false 0 * x).floorWord = 0 := by
  change (mul _ x).floorWord = 0
  rcases x with _ | _ | ⟨negative, u⟩
  · rfl
  · rfl
  · rw [mul, Nat.zero_mul, ofUnits_zero]
    cases negative <;> simp [floorWord]

/-! ## Products and quotients of them -/

theorem mul_finite (x u : Nat) :
    (finite false x * finite false u : Binary f) = ofUnits false (x * u) (2 ^ f.scale) := rfl

theorem div_finite {x : Nat} (hx : 0 < x) (y : Nat) :
    (finite false y / finite false x : Binary f) = ofUnits false (y * 2 ^ f.scale) x :=
  if_neg (Nat.ne_of_gt hx)

theorem rounded_ofRatio (hprecision : 0 < f.precision) (num den : Nat) :
    (ofRatio num den : Binary f).Rounded := rounded_ofUnits hprecision _ _ _

theorem rounded_mul (hprecision : 0 < f.precision) (x u : Nat) :
    (finite false x * finite false u : Binary f).Rounded := rounded_ofUnits hprecision _ _ _

/-- A number is below a quotient if it is below the exact one, unless rounding takes the quotient to
it. -/
theorem lt_div_iff (hprecision : 0 < f.precision) {x u y : Nat} (hx : 0 < x)
    (hu : (finite false u : Binary f).Rounded) :
    (finite false u : Binary f).lt (finite false y / finite false x) = true ↔
      (finite false x : Binary f).value * (finite false u : Binary f).value <
          (finite false y : Binary f).value ∧
        (finite false u : Binary f) ≠ finite false y / finite false x := by
  obtain ⟨hdvd, hsmall⟩ := hu.multiple hprecision
  rw [div_finite hx, lt_ofUnits hsmall, decide_eq_true_eq, value_mul_lt_iff, Ne,
    finite_eq_ofUnits hsmall]
  exact BinaryFormat.units_lt_round_iff hprecision hdvd hx

/-- A number above an exact product that is not above the rounded one is the rounded one. -/
theorem mul_eq_of_le (hprecision : 0 < f.precision) {x u y : Nat}
    (hy : (finite false y : Binary f).Rounded)
    (hless : (finite false x : Binary f).value * (finite false u : Binary f).value <
      (finite false y : Binary f).value)
    (hle : (finite false y : Binary f).le (finite false x * finite false u) = true) :
    (finite false x * finite false u : Binary f) = finite false y := by
  obtain ⟨hdvd, hsmall⟩ := hy.multiple hprecision
  rw [value_mul_lt_iff, Nat.mul_comm u] at hless
  have hup : f.round (x * u) (2 ^ f.scale) ≤ y := by
    rw [← BinaryFormat.round_of_dvd hdvd (Nat.two_pow_pos f.scale)]
    exact BinaryFormat.round_mono hprecision hless.le
  rw [mul_finite] at hle ⊢
  refine ((finite_eq_ofUnits hsmall).mpr (Nat.le_antisymm ?_ hup)).symm
  have hfinite : f.round (x * u) (2 ^ f.scale) < 2 ^ f.top := Nat.lt_of_le_of_lt hup hsmall
  simp only [ofUnits, Nat.pow_eq, if_pos hfinite] at hle
  simpa [le, signed] using hle

/-- Whole things of which a number holds enough are no more than it. -/
theorem ofNat_le_of_le_floorWord (hprecision : 0 < f.precision) {x : Binary f} (hx : x.Rounded)
    {k : Nat} (hk : 0 < k) (h : k ≤ x.floorWord) : (ofNat k).le x = true := by
  rcases x with _ | (_ | _) | ⟨_ | _, units⟩
  case infinity.false =>
    unfold ofNat ofRatio ofUnits
    dsimp only
    split <;> rfl
  case finite.false =>
    obtain ⟨hdvd, hsmall⟩ := hx.multiple hprecision
    have hunits : k * 2 ^ f.scale ≤ units :=
      (Nat.le_div_iff_mul_le (Nat.two_pow_pos _)).mp (h.trans (Nat.min_le_left _ _))
    have hround : f.round (k * 2 ^ f.scale) 1 ≤ units := by
      rw [← BinaryFormat.round_of_dvd hdvd Nat.one_pos, Nat.mul_one]
      exact BinaryFormat.round_mono hprecision hunits
    have hof : (ofNat k : Binary f) = finite false (f.round (k * 2 ^ f.scale) 1) :=
      if_pos (Nat.lt_of_le_of_lt hround hsmall)
    rw [hof]
    simpa [le, signed] using hround
  all_goals
    simp only [floorWord, if_true] at h
    omega

end Binary
end ContextBudget
