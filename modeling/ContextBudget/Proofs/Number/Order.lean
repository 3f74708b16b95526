import ContextBudget.Proofs.Number.Rounding
import Mathlib.Data.Prod.Lex
import Mathlib.Order.Defs.LinearOrder

/-!
# The order of numbers

The numbers of a format stand in a line, each at a place of its own, and rounding keeps the order
of what is rounded.

- `before_iff_place`, `place_injective`: one number comes before another if its place does.
- `round_mono`, `floorWord_ofUnits_mono`: rounding keeps the order of numbers of units.
- `floorWord_mul_mono`: a larger part of a whole number is no fewer whole things.
- `lt_add_of_lt`: a sum of numbers that are not negative is no less than one of them.
-/

namespace ContextBudget

theorem div_le_nearest (num den : Nat) : num / den ≤ nearest num den := by
  unfold nearest
  simp only
  split
  · omega
  · split <;> omega

theorem nearest_mono {num num' : Nat} (den : Nat) (h : num ≤ num') :
    nearest num den ≤ nearest num' den := by
  rcases Nat.lt_or_eq_of_le (Nat.div_le_div_right (c := den) h) with hlt | heq
  · exact (nearest_le_succ num den).trans (Nat.le_trans hlt (div_le_nearest num' den))
  · have hrest : num % den ≤ num' % den := by
      have hnum := Nat.div_add_mod num den
      have hnum' := Nat.div_add_mod num' den
      rw [heq] at hnum
      omega
    unfold nearest
    simp only [heq]
    split <;> (try split) <;> (try split) <;> (try split) <;> omega

namespace BinaryFormat

variable {f : BinaryFormat} {num num' den : Nat}

theorem dropped_mono (h : num ≤ num') : f.dropped num ≤ f.dropped num' := by
  have hlog : Nat.log2 num ≤ Nat.log2 num' := by
    rcases Nat.eq_zero_or_pos num with rfl | hpos
    · simp
    · exact (Nat.le_log2 (by omega)).mpr ((Nat.log2_self_le (by omega)).trans h)
  simp only [dropped]
  omega

/-- Rounding stays at or below the number after the last significand. -/
theorem round_le (num den : Nat) :
    f.round num den ≤ 2 ^ (f.precision + f.dropped (num / den)) := by
  have hlast := lt_pow_dropped f (num / den)
  rw [round]
  change nearest num (den * 2 ^ f.dropped (num / den)) * 2 ^ f.dropped (num / den) ≤ _
  rw [Nat.pow_add]
  refine Nat.mul_le_mul_right _ ((nearest_le_succ _ _).trans ?_)
  rw [← Nat.div_div_eq_div_mul]
  refine Nat.div_lt_of_lt_mul ?_
  rwa [Nat.mul_comm, ← Nat.pow_add]

/-- Rounding a number that drops binary places stays at or above the first significand. -/
theorem le_round (hprecision : 0 < f.precision) (h : 0 < f.dropped (num / den)) :
    2 ^ (f.precision - 1 + f.dropped (num / den)) ≤ f.round num den := by
  rw [round]
  change _ ≤ nearest num (den * 2 ^ f.dropped (num / den)) * 2 ^ f.dropped (num / den)
  rw [Nat.pow_add]
  refine Nat.mul_le_mul_right _ (Nat.le_trans ?_ (div_le_nearest _ _))
  have hpos : num / den ≠ 0 := by
    intro h0
    rw [h0, dropped, Nat.log2_zero] at h
    omega
  have hlog : f.precision - 1 + f.dropped (num / den) ≤ Nat.log2 (num / den) := by
    rw [dropped] at h ⊢
    omega
  rw [← Nat.div_div_eq_div_mul, Nat.le_div_iff_mul_le (Nat.two_pow_pos _), ← Nat.pow_add]
  exact (Nat.pow_le_pow_right (by decide) hlog).trans (Nat.log2_self_le hpos)

/-- Rounding keeps the order of numbers of units. -/
theorem round_mono (hprecision : 0 < f.precision) (h : num ≤ num') : f.round num den ≤ f.round num' den := by
  have hdropped : f.dropped (num / den) ≤ f.dropped (num' / den) :=
    dropped_mono (Nat.div_le_div_right h)
  rcases Nat.lt_or_eq_of_le hdropped with hlt | heq
  · -- The larger number has a larger last place: a power of two lies between the two.
    calc f.round num den ≤ 2 ^ (f.precision + f.dropped (num / den)) := round_le num den
      _ ≤ 2 ^ (f.precision - 1 + f.dropped (num' / den)) :=
        Nat.pow_le_pow_right (by decide) (by omega)
      _ ≤ f.round num' den := le_round hprecision (by omega)
  · simp only [round, heq]
    exact Nat.mul_le_mul_right _ (nearest_mono _ h)

end BinaryFormat

namespace Binary

variable {f : BinaryFormat}

/-! ## Places -/

/-- Where a number stands in the line of all numbers. The negative zero is right before the other
one, and what is not a number comes last. -/
def place : Binary f → Int ×ₗ Int
  | infinity true => toLex (-1, 0)
  | finite true units => toLex (0, -2 * units)
  | finite false units => toLex (0, 2 * units + 1)
  | infinity false => toLex (1, 0)
  | nan => toLex (2, 0)

theorem before_finite {a b : Bool} {x y : Nat} :
    (finite a x : Binary f).before (finite b y) = true ↔
      signed a x < signed b y ∨ (a = true ∧ x = 0) ∧ b = false ∧ y = 0 := by
  cases a <;> cases b <;> cases x <;> cases y <;> simp [before, lt, signed]

theorem before_iff_place {a b : Binary f} : a.before b = true ↔ a.place < b.place := by
  rcases a with _ | (_ | _) | ⟨_ | _, x⟩ <;> rcases b with _ | (_ | _) | ⟨_ | _, y⟩
  -- Two finite numbers are left, each with or without a sign.
  all_goals try rw [before_finite]
  all_goals simp [before, lt, signed, place, Prod.Lex.toLex_lt_toLex]
  all_goals omega

theorem place_injective : Function.Injective (place : Binary f → Int ×ₗ Int) := by
  intro a b h
  rcases a with _ | (_ | _) | ⟨_ | _, x⟩ <;> rcases b with _ | (_ | _) | ⟨_ | _, y⟩
  all_goals simp [place] at h ⊢
  all_goals omega

/-! ## Less than -/

theorem lt_asymm {a b : Binary f} (h : a.lt b = true) : b.lt a = false := by
  rcases a with _ | (_ | _) | ⟨_ | _, x⟩ <;> rcases b with _ | (_ | _) | ⟨_ | _, y⟩
  all_goals simp [lt, signed] at h ⊢
  all_goals omega

theorem lt_irrefl (a : Binary f) : a.lt a = false := by
  cases h : a.lt a with
  | false => rfl
  | true => rw [lt_asymm h] at h; cases h

/-- What is below a number is also above all smaller ones. -/
theorem lt_of_le_of_lt {x y : Nat} {b : Binary f} (hle : x ≤ y)
    (h : (finite false y).lt b = true) : (finite false x).lt b = true := by
  rcases b with _ | (_ | _) | ⟨_ | _, z⟩
  all_goals simp [lt, signed] at h ⊢
  all_goals omega

/-- The larger of a number and a positive one is the positive one, unless it is below the
number. -/
theorem max_finite {a : Binary f} {units : Nat} (hunits : 0 < units) :
    a.max (finite false units) = if (finite false units).lt a then a else finite false units := by
  rcases a with _ | (_ | _) | ⟨_ | _, x⟩
  case finite.false =>
    rcases Nat.lt_trichotomy x units with hlt | rfl | hlt
    · simp [max, lt, signed, hlt, hlt.le]
    · simp [max, lt]
    · simp [max, lt, signed, hlt, hlt.le]
  case finite.true =>
    have hlt : -(x : Int) < units := by omega
    simp [max, lt, signed, hlt, hlt.le]
  all_goals simp [max, lt]

/-! ## Numbers that are not negative -/

@[simp] theorem isNegative_nan : (nan : Binary f).isNegative = false := rfl

@[simp] theorem isNegative_infinity (s : Bool) : (infinity s : Binary f).isNegative = s := rfl

@[simp] theorem isNegative_finite (s : Bool) (units : Nat) :
    (finite s units : Binary f).isNegative = s := rfl

@[simp] theorem isNegative_ofUnits (num den : Nat) :
    (ofUnits false num den : Binary f).isNegative = false := by
  unfold ofUnits
  simp only
  split <;> rfl

theorem isNegative_ofRatio (num den : Nat) : (ofRatio num den : Binary f).isNegative = false :=
  isNegative_ofUnits _ _

theorem isNegative_ofNat (n : Nat) : (ofNat n : Binary f).isNegative = false :=
  isNegative_ofUnits _ _

theorem isNegative_mul {a b : Binary f} (ha : a.isNegative = false) (hb : b.isNegative = false) :
    (a * b).isNegative = false := by
  change (mul a b).isNegative = false
  unfold mul
  split <;> (try split) <;> simp_all

theorem isNegative_div {a b : Binary f} (ha : a.isNegative = false) (hb : b.isNegative = false) :
    (a / b).isNegative = false := by
  change (div a b).isNegative = false
  unfold div
  split <;> (try split) <;> (try split) <;> simp_all

theorem isNegative_add {a b : Binary f} (ha : a.isNegative = false) (hb : b.isNegative = false) :
    (a + b).isNegative = false := by
  have hfinite : ∀ x y, (finite false x + finite false y : Binary f).isNegative = false := by
    intro x y
    change (add _ _).isNegative = false
    simp only [add, signed, Bool.false_eq_true, if_false]
    split
    · rfl
    · rw [decide_eq_false (by omega)]
      exact isNegative_ofUnits _ _
  rcases a with _ | (_ | _) | ⟨_ | _, x⟩ <;> rcases b with _ | (_ | _) | ⟨_ | _, y⟩
  all_goals first | rfl | exact hfinite _ _ | simp at ha hb

/-- The larger of two numbers is not negative if the second one is positive. -/
theorem isNegative_max {a : Binary f} {units : Nat} (hunits : 0 < units) :
    (a.max (finite false units)).isNegative = false := by
  rw [max_finite hunits]
  split
  · rename_i hlt
    rcases a with _ | (_ | _) | ⟨_ | _, x⟩
    all_goals simp [lt, signed] at hlt ⊢
    omega
  · rfl

/-- Among numbers that are not negative, the one that comes first is the smaller one. -/
theorem before_eq_lt {a b : Binary f} (ha : a.isNegative = false) (hb : b ≠ nan) :
    a.before b = a.lt b := by
  rcases a with _ | (_ | _) | ⟨_ | _, x⟩ <;> simp_all [isNegative, before, lt]

/-- A sum of numbers that are not negative is no less than the first of them. -/
theorem lt_add_of_lt (hprecision : 0 < f.precision) {least x : Nat} {y : Binary f}
    (hround : f.round x 1 = x) (hless : least < x) (hy : y.isNegative = false)
    (hsum : finite false x + y ≠ nan) : (finite false least).lt (finite false x + y) = true := by
  rcases y with _ | (_ | _) | ⟨_ | _, u⟩
  · exact absurd rfl hsum
  · rfl
  · cases hy
  · have hadd : (finite false x + finite false u : Binary f) = ofUnits false (x + u) 1 := by
      change add _ _ = _
      simp only [add, signed, Bool.false_eq_true, if_false]
      rw [if_neg (by omega), decide_eq_false (by omega)]
      rfl
    have hlarge : x ≤ f.round (x + u) 1 := by
      rw [← hround]
      exact BinaryFormat.round_mono hprecision (by omega)
    rw [hadd]
    unfold ofUnits
    dsimp only
    split
    · simp only [lt, signed, Bool.false_eq_true, if_false, decide_eq_true_eq]
      omega
    · rfl
  · cases hy

/-! ## Whole things -/

theorem floorWord_ofUnits_mono (hprecision : 0 < f.precision) {num num' : Nat} (den : Nat)
    (h : num ≤ num') :
    (ofUnits false num den : Binary f).floorWord ≤ (ofUnits false num' den : Binary f).floorWord := by
  have hround : f.round num den ≤ f.round num' den := BinaryFormat.round_mono hprecision h
  have hdiv := Nat.div_le_div_right (c := Nat.pow 2 f.scale) hround
  unfold ofUnits
  simp only
  split <;> split <;> simp only [floorWord, Bool.false_eq_true, if_false]
  · exact Nat.le_min.mpr ⟨(Nat.min_le_left _ _).trans hdiv, Nat.min_le_right _ _⟩
  · exact Nat.min_le_right _ _
  · omega
  · exact Nat.le_refl _

theorem floorWord_mul_zero (x : Binary f) (negative : Bool) :
    (x * finite negative 0).floorWord = 0 := by
  have hround : ∀ den, f.round 0 den = 0 := fun den => by simp [BinaryFormat.round, nearest]
  change (mul x _).floorWord = 0
  cases x with
  | nan => rfl
  | infinity a => rfl
  | finite a u =>
    simp only [mul, Nat.mul_zero, ofUnits, hround]
    split
    · simp [floorWord]
    · exact absurd (Nat.two_pow_pos f.top) ‹_›

theorem ofNat_zero : (ofNat 0 : Binary f) = finite false 0 := by
  have hround : f.round 0 1 = 0 := by simp [BinaryFormat.round, nearest]
  simp only [ofNat, ofRatio, ofUnits, Nat.zero_mul, hround]
  exact if_pos (Nat.two_pow_pos f.top)

/-- A larger part of a whole number is no fewer whole things. -/
theorem floorWord_mul_mono (hprecision : 0 < f.precision) (n : Nat) {a b : Binary f}
    (ha : a.isFinite = true) (hb : b.isFinite = true) (hpos : le 0 a = true)
    (hle : a.le b = true) : (ofNat n * a).floorWord ≤ (ofNat n * b).floorWord := by
  obtain ⟨s, x, rfl⟩ : ∃ s x, a = finite s x := by cases a <;> simp_all [isFinite]
  obtain ⟨t, y, rfl⟩ : ∃ t y, b = finite t y := by cases b <;> simp_all [isFinite]
  change le (ofNat 0) _ = true at hpos
  rw [ofNat_zero] at hpos
  rcases Nat.eq_zero_or_pos x with rfl | hx
  · rw [floorWord_mul_zero]
    exact Nat.zero_le _
  · -- A part that is not nothing is positive, and so is a larger one.
    obtain ⟨rfl, rfl, hxy⟩ : s = false ∧ t = false ∧ x ≤ y := by
      cases s <;> cases t <;> simp [le, signed] at hpos hle ⊢ <;> omega
    rcases hn : (ofNat n : Binary f) with _ | (_ | _) | ⟨_ | _, u⟩
    · exact Nat.le_refl _
    · change (if x = 0 then nan else _ : Binary f).floorWord ≤
        (if y = 0 then nan else _ : Binary f).floorWord
      rw [if_neg (by omega), if_neg (by omega)]
    · cases hn ▸ isNegative_ofNat (f := f) n
    · exact floorWord_ofUnits_mono hprecision _ (Nat.mul_le_mul_left u hxy)
    · cases hn ▸ isNegative_ofNat (f := f) n

end Binary
end ContextBudget
