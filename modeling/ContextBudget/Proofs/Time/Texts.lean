import ContextBudget.Proofs.Time.Calendar
import ContextBudget.Proofs.Time.Order
import Mathlib.Algebra.Ring.Nat

/-!
# Moments as texts

A moment outside leap seconds, in a year of four digits, is read from its text. Each part of the
text is a number in a fixed count of digits, which a reader takes off the text and leaves the rest.

- `digits_padded`: a padded number is that many digits, and they denote it.
- `read?_text`: a moment is read from its text.
-/

namespace ContextBudget

open CalendarDay

/-! ## Numbers in a fixed count of digits -/

/-- Characters that are `width` digits, and together denote `n`. -/
structure Digits (cs : List Char) (width n : Nat) : Prop where
  length : cs.length = width
  digit : ∀ c ∈ cs, c.isDigit = true
  value : cs.foldl (fun n c => n * 10 + (c.toNat - '0'.toNat)) 0 = n

theorem Text.isBlank_digit {c : Char} (h : c.isDigit = true) : Text.isBlank c = false := by
  simp only [Char.isDigit, Bool.and_eq_true, decide_eq_true_eq, ge_iff_le,
    UInt32.le_iff_toNat_le] at h
  have hrange : 48 ≤ c.toNat ∧ c.toNat ≤ 57 := h
  simp only [Text.isBlank, Bool.or_eq_false_iff, Bool.and_eq_false_iff, decide_eq_false_iff_not,
    beq_eq_false_iff_ne]
  omega

theorem foldl_zeros (count : Nat) (cs : List Char) :
    (List.replicate count '0' ++ cs).foldl (fun n c => n * 10 + (c.toNat - '0'.toNat)) 0 =
      cs.foldl (fun n c => n * 10 + (c.toNat - '0'.toNat)) 0 := by
  induction count with
  | zero => rfl
  | succ count ih => exact ih

theorem foldl_toDigits (n : Nat) :
    (Nat.toDigits 10 n).foldl (fun n c => n * 10 + (c.toNat - '0'.toNat)) 0 = n := by
  have hvalue := Nat.ofDigitChars_toDigits (b := 10) (n := n) (by decide) (by decide)
  rw [Nat.ofDigitChars_eq_foldl] at hvalue
  simp only [Nat.mul_comm 10] at hvalue
  exact hvalue

/-- A padded number is as many digits as it was padded to. -/
theorem digits_padded {width n : Nat} (hwidth : 0 < width) (hn : n < 10 ^ width) :
    Digits (Span.padded width n).toList width n := by
  have hshort : (Nat.toDigits 10 n).length ≤ width :=
    (Nat.length_toDigits_le_iff (by decide) hwidth).mpr hn
  have hlist : (Span.padded width n).toList =
      List.replicate (width - (Nat.toDigits 10 n).length) '0' ++ Nat.toDigits 10 n := by
    simp [Span.padded, Nat.toList_repr, ← String.length_toList]
  refine ⟨?_, fun c hc => ?_, ?_⟩
  · rw [hlist, List.length_append, List.length_replicate, Nat.sub_add_cancel hshort]
  · rw [hlist, List.mem_append] at hc
    rcases hc with hzero | hdigit
    · rw [List.eq_of_mem_replicate hzero]
      decide
    · exact Nat.isDigit_of_mem_toDigits (by decide) (by decide) hdigit
  · rw [hlist, foldl_zeros, foldl_toDigits]

namespace Digits

variable {cs rest : List Char} {width n : Nat}

theorem ne_nil (h : Digits cs (width + 1) n) : cs ≠ [] := by
  rintro rfl
  exact absurd h.length (Nat.succ_ne_zero width).symm

theorem takeWhile (h : Digits cs width n) (hrest : rest.takeWhile Char.isDigit = []) :
    (cs ++ rest).takeWhile Char.isDigit = cs := by
  rw [List.takeWhile_append_of_pos h.digit, hrest, List.append_nil]

theorem trimLeft (h : Digits cs (width + 1) n) : Text.trimLeft (cs ++ rest) = cs ++ rest := by
  cases cs with
  | nil => exact absurd rfl h.ne_nil
  | cons c cs =>
    have hblank := Text.isBlank_digit (h.digit c List.mem_cons_self)
    simp [Text.trimLeft, hblank]

theorem readDigits (h : Digits cs (width + 1) n) :
    Moment.readDigits (width + 1) (cs ++ rest) = some (n, rest) := by
  have hkept : ((cs ++ rest).take (width + 1)).takeWhile Char.isDigit = cs := by
    have hall : (cs ++ []).takeWhile Char.isDigit = cs := h.takeWhile rfl
    rw [List.append_nil] at hall
    rw [List.take_left' h.length, hall]
  simp only [Moment.readDigits, hkept, List.isEmpty_eq_false_iff.mpr h.ne_nil, h.value, h.length,
    List.drop_left' h.length, Bool.false_eq_true, if_false]

theorem readPair (h : Digits cs 2 n) : Moment.readPair (cs ++ rest) = some (n, rest) := by
  rw [Moment.readPair, h.trimLeft, h.readDigits]

/-- Digits are a year without a sign. -/
theorem readYear (h : Digits cs 4 n) : Moment.readYear (cs ++ rest) = some ((n : Int), rest) := by
  cases cs with
  | nil => exact absurd rfl h.ne_nil
  | cons c cs =>
    have hdigit := h.digit c List.mem_cons_self
    rw [Moment.readYear, h.trimLeft]
    split
    · rename_i heq
      rw [(List.cons.inj heq).1] at hdigit
      cases hdigit
    · rename_i heq
      rw [(List.cons.inj heq).1] at hdigit
      cases hdigit
    · rw [h.readDigits]
      rfl

theorem readFraction (h : Digits cs (width + 1) n) (hwidth : width + 1 ≤ 9)
    (hrest : rest.takeWhile Char.isDigit = []) :
    Moment.readFraction ('.' :: (cs ++ rest)) = some (n * 10 ^ (9 - (width + 1)), rest) := by
  have hkept : cs.take 9 = cs := List.take_of_length_le (h.length ▸ hwidth)
  simp only [Moment.readFraction, h.takeWhile hrest, List.isEmpty_eq_false_iff.mpr h.ne_nil, hkept,
    h.value, h.length, List.drop_left' h.length, Bool.false_eq_true, if_false, Nat.pow_eq]

end Digits

namespace Moment

theorem readFraction_fractionText {nanos : Nat} (h : nanos < 1000000000) :
    readFraction ((fractionText nanos).toList ++ ['Z']) = some (nanos, ['Z']) := by
  have hdone : ['Z'].takeWhile Char.isDigit = [] := rfl
  rw [fractionText]
  split
  · rename_i hzero
    rw [hzero]
    rfl
  · split
    · have hdigits : Digits (Span.padded 3 (nanos / 1000000)).toList 3 (nanos / 1000000) :=
        digits_padded (by decide) (by omega)
      have hread := hdigits.readFraction (by decide) hdone
      rw [show nanos / 1000000 * 10 ^ (9 - 3) = nanos by omega] at hread
      simpa using hread
    · split
      · have hdigits : Digits (Span.padded 6 (nanos / 1000)).toList 6 (nanos / 1000) :=
          digits_padded (by decide) (by omega)
        have hread := hdigits.readFraction (by decide) hdone
        rw [show nanos / 1000 * 10 ^ (9 - 6) = nanos by omega] at hread
        simpa using hread
      · have hdigits : Digits (Span.padded 9 nanos).toList 9 nanos := digits_padded (by decide) h
        simpa using hdigits.readFraction (by decide) hdone

/-- The year of a moment has four digits or fewer, and no sign. -/
def FourDigitYear (m : Moment) : Prop :=
  0 ≤ (ofDays (m.seconds / 86400)).year ∧ (ofDays (m.seconds / 86400)).year ≤ 9999

theorem readMark_self (mark : Char) (rest : List Char) (h : Text.isBlank mark = false) :
    readMark mark (mark :: rest) = some rest := by
  simp [readMark, Text.trimLeft, h]

theorem bind_of_read {α β : Type} {o : Option α} {a : α} (h : o = some a) (f : α → Option β) :
    (o >>= f) = f a := by
  rw [h]
  rfl

/-- The parts of a moment are read from the text that they make together. -/
theorem read?_parts {y month day hour minute second nanos : Nat} {whole : Int}
    (hvalid : (CalendarDay.mk y month day).isValid = true) (hy : y ≤ 9999) (hhour : hour < 24)
    (hminute : minute < 60) (hsecond : second < 60) (hnanos : nanos < 1000000000)
    (hwhole : (CalendarDay.mk y month day).toDays * 86400 + hour * 3600 + minute * 60 + second =
      whole)
    (hcalendar : firstSecond ≤ whole ∧ whole ≤ lastSecond) :
    read? (Span.padded 4 y ++ "-" ++ Span.padded 2 month ++ "-" ++ Span.padded 2 day ++ "T"
      ++ Span.padded 2 hour ++ ":" ++ Span.padded 2 minute ++ ":" ++ Span.padded 2 second
      ++ fractionText nanos ++ "Z") = some ⟨whole, nanos⟩ := by
  obtain ⟨hmonth, hday⟩ := lt_of_isValid hvalid
  have hY : Digits (Span.padded 4 y).toList 4 y := digits_padded (by decide) (by omega)
  have hM : Digits (Span.padded 2 month).toList 2 month := digits_padded (by decide) hmonth
  have hD : Digits (Span.padded 2 day).toList 2 day := digits_padded (by decide) hday
  have hh : Digits (Span.padded 2 hour).toList 2 hour := digits_padded (by decide) (by omega)
  have hm : Digits (Span.padded 2 minute).toList 2 minute := digits_padded (by decide) (by omega)
  have hs : Digits (Span.padded 2 second).toList 2 second := digits_padded (by decide) (by omega)
  have hoffset : readOffset (Text.trimLeft ['Z']) = some (0, []) := rfl
  have hwritten : (Span.padded 4 y ++ "-" ++ Span.padded 2 month ++ "-" ++ Span.padded 2 day ++ "T"
      ++ Span.padded 2 hour ++ ":" ++ Span.padded 2 minute ++ ":" ++ Span.padded 2 second
      ++ fractionText nanos ++ "Z").toList = (Span.padded 4 y).toList ++ '-' ::
        ((Span.padded 2 month).toList ++ '-' :: ((Span.padded 2 day).toList ++ 'T' ::
        ((Span.padded 2 hour).toList ++ ':' :: ((Span.padded 2 minute).toList ++ ':' ::
        ((Span.padded 2 second).toList ++ ((fractionText nanos).toList ++ ['Z'])))))) := by
    simp
  rw [read?, hwritten]
  dsimp only
  rw [bind_of_read hY.readYear, bind_of_read (readMark_self '-' _ rfl),
    bind_of_read hM.readPair, bind_of_read (readMark_self '-' _ rfl), bind_of_read hD.readPair]
  dsimp only
  rw [if_pos (.inl rfl), bind_of_read rfl, bind_of_read hh.readPair,
    bind_of_read (readMark_self ':' _ rfl), bind_of_read hm.readPair,
    bind_of_read (readMark_self ':' _ rfl), bind_of_read hs.readPair,
    bind_of_read (readFraction_fractionText hnanos), bind_of_read hoffset]
  dsimp only
  have hseconds : (CalendarDay.mk y month day).toDays * 86400 + hour * 3600 + minute * 60
      + (Nat.min second 59 : Nat) - 0 = whole := by
    rw [show Nat.min second 59 = second from Nat.min_eq_left (by omega), Int.sub_zero, hwhole]
  rw [hvalid, hseconds, if_neg (by simp [Text.trimLeft]; omega), if_pos hcalendar,
    if_neg (by omega), Nat.add_zero]

/-- A moment outside leap seconds, in a year of four digits, is read from its text. -/
theorem read?_text {m : Moment} (hplain : m.Plain) (hyear : m.FourDigitYear) :
    read? m.text = some m := by
  obtain ⟨seconds, nanos⟩ := m
  change nanos < 1000000000 at hplain
  change 0 ≤ (ofDays (seconds / 86400)).year ∧ (ofDays (seconds / 86400)).year ≤ 9999 at hyear
  have hvalid := ofDays_isValid (seconds / 86400) (by omega) (by omega)
  have hnumber := toDays_ofDays (seconds / 86400)
  have heras := days_bounds (seconds / 86400)
  have hcalendar : firstSecond ≤ seconds ∧ seconds ≤ lastSecond := by
    have hbounds : firstSecond ≤ -1000000 * 86400 ∧ 4000000 * 86400 ≤ lastSecond := by decide
    omega
  have hpassed : 0 ≤ seconds % 86400 := Int.emod_nonneg seconds (by decide)
  obtain ⟨time, htime⟩ := Int.eq_ofNat_of_zero_le hpassed
  obtain ⟨y, hy⟩ := Int.eq_ofNat_of_zero_le hyear.1
  rw [text]
  dsimp only
  rw [htime, Int.toNat_natCast, if_neg (Nat.not_le.mpr hplain), yearText, if_pos hyear, hy,
    Int.toNat_natCast, Nat.zero_mul, Nat.sub_zero, Nat.add_zero]
  generalize ofDays (seconds / 86400) = date at *
  obtain ⟨year, month, day⟩ := date
  subst hy
  dsimp only at *
  exact read?_parts hvalid (by omega) (by omega) (by omega) (by omega) hplain (by omega) hcalendar

end Moment
end ContextBudget
