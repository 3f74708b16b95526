import ContextBudget.Text.Digest
import Mathlib.Algebra.Ring.Nat

/-!
# Hexadecimal digits

Numbers that are written with the same digits differ by a whole multiple of the numbers that the
digits can tell apart, so ids that count up do not repeat soon.

- `hexDigits_ne`: numbers that are close to one another have different digits.
- `Issued.ne`: an id that counts up is none of those that were given out before.
-/

namespace ContextBudget

theorem digitChar_inj : ∀ a < 16, ∀ b < 16, Nat.digitChar a = Nat.digitChar b → a = b := by
  decide

theorem digit_eq_of_hexDigits {count a b i : Nat} (h : hexDigits count a = hexDigits count b)
    (hi : i < count) : a / 16 ^ i % 16 = b / 16 ^ i % 16 := by
  have hchars := congrArg String.toList h
  simp only [hexDigits, String.toList_ofList] at hchars
  have hchar := List.map_inj_left.mp hchars (count - 1 - i) (List.mem_range.mpr (by omega))
  rw [show count - 1 - (count - 1 - i) = i by omega, Nat.pow_eq] at hchar
  exact digitChar_inj _ (Nat.mod_lt _ (by decide)) _ (Nat.mod_lt _ (by decide)) hchar

theorem mod_eq_of_hexDigits {count a b : Nat} (h : hexDigits count a = hexDigits count b) :
    a % 16 ^ count = b % 16 ^ count := by
  have hmod : ∀ n ≤ count, a % 16 ^ n = b % 16 ^ n := by
    intro n hn
    induction n with
    | zero => simp [Nat.mod_one]
    | succ n ih =>
      rw [Nat.mod_pow_succ, Nat.mod_pow_succ, ih (by omega), digit_eq_of_hexDigits h (by omega)]
  exact hmod count (Nat.le_refl _)

/-- Numbers closer to one another than there are texts of digits have different ones. -/
theorem hexDigits_ne {count a b : Nat} (hlt : a < b) (hnear : b < a + 16 ^ count) :
    hexDigits count a ≠ hexDigits count b := by
  intro h
  have hzero := Nat.sub_mod_eq_zero_of_mod_eq (mod_eq_of_hexDigits h).symm
  rw [Nat.mod_eq_of_lt (by omega)] at hzero
  omega

/-! ## Ids -/

/-- How many ids there are. -/
def idCount : Nat := 16 ^ 32

/-- An id that opens with a mark was given out by a counter that started at `first` and has come
to `next`. -/
def Issued (mark : String) (first next : Nat) (id : String) : Prop :=
  ∃ k, first ≤ k ∧ k < next ∧ id = mark ++ hexDigits 32 k

variable {mark id : String} {first next : Nat}

theorem Issued.succ (hid : Issued mark first next id) : Issued mark first (next + 1) id := by
  obtain ⟨k, h1, h2, rfl⟩ := hid
  exact ⟨k, h1, by omega, rfl⟩

theorem Issued.last (hfirst : first ≤ next) :
    Issued mark first (next + 1) (mark ++ hexDigits 32 next) :=
  ⟨next, hfirst, Nat.lt_succ_self next, rfl⟩

theorem Issued.ne (hid : Issued mark first next id) (hnext : next < first + idCount) :
    id ≠ mark ++ hexDigits 32 next := by
  obtain ⟨k, h1, h2, rfl⟩ := hid
  intro h
  exact hexDigits_ne h2 (Nat.lt_of_lt_of_le hnext (Nat.add_le_add_right h1 _))
    ((String.append_right_inj mark).mp h)

end ContextBudget
