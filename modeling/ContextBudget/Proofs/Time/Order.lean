import ContextBudget.Time.Moment

/-!
# The order of moments

- `atMost_trans`, `atMost_total`: moments are in one order.
- `after?_cases`: outside leap seconds, a moment a span later is that many nanoseconds later, unless
  the calendar ends before.
-/

namespace ContextBudget
namespace Moment

variable {a b c m ending : Moment} {s : Span}

theorem atMost_iff : a.atMost b = true ↔
    a.seconds < b.seconds ∨ a.seconds = b.seconds ∧ a.nanos ≤ b.nanos := by
  simp [atMost]

theorem atMost_refl (m : Moment) : m.atMost m = true := atMost_iff.mpr (.inr ⟨rfl, Nat.le_refl _⟩)

theorem atMost_trans (hab : a.atMost b = true) (hbc : b.atMost c = true) : a.atMost c = true := by
  rw [atMost_iff] at *
  omega

theorem atMost_total (a b : Moment) : a.atMost b = true ∨ b.atMost a = true := by
  rw [atMost_iff, atMost_iff]
  omega

/-- The moment is not in a leap second. -/
def Plain (m : Moment) : Prop := m.nanos < 1000000000

/-- The nanoseconds since the start of 1970, for a moment outside leap seconds. -/
def sinceEpoch (m : Moment) : Int := m.seconds * 1000000000 + m.nanos

/-- The nanoseconds until the end of the calendar. -/
def endOfCalendar : Int := (lastSecond + 1) * 1000000000

theorem atMost_iff_sinceEpoch (ha : a.Plain) (hb : b.Plain) :
    a.atMost b = true ↔ a.sinceEpoch ≤ b.sinceEpoch := by
  rw [atMost_iff, sinceEpoch, sinceEpoch]
  rw [Plain] at ha hb
  omega

/-- Outside leap seconds, the calendar ends before a moment a span later, or there is one. -/
theorem after?_cases (hm : m.Plain) (s : Span) :
    m.after? s = none ∧ endOfCalendar ≤ m.sinceEpoch + s.nanos ∨
      ∃ ending, m.after? s = some ending ∧ ending.Plain ∧
        ending.sinceEpoch = m.sinceEpoch + s.nanos ∧ ending.sinceEpoch < endOfCalendar := by
  have hparts : s.nanos = s.wholeSeconds * 1000000000 + s.subNanos :=
    (Nat.div_add_mod' s.nanos 1000000000).symm
  have hpart : s.subNanos < 1000000000 := Nat.mod_lt _ (by decide)
  rw [Plain] at hm
  have hplain : ¬ 1000000000 ≤ m.nanos := by omega
  have hcarry := Nat.div_add_mod' (m.nanos + s.subNanos) 1000000000
  have hrest : (m.nanos + s.subNanos) % 1000000000 < 1000000000 := Nat.mod_lt _ (by decide)
  simp only [after?, hplain, false_and, if_false]
  split
  · refine .inr ⟨_, rfl, hrest, ?_, ?_⟩
    all_goals
      simp only [sinceEpoch, endOfCalendar]
      omega
  · refine .inl ⟨rfl, ?_⟩
    simp only [sinceEpoch, endOfCalendar]
    omega

end Moment
end ContextBudget
