import ContextBudget.Proofs.Number.Quotient
import ContextBudget.Proofs.Prune.LocalScores

/-!
# The bounds checked once more

A selection is checked against the bounds of its request before it is used. The quota comes from a
product of the count of lines and the ratio, the check from a quotient, and each of them is rounded
for itself. A selection fails the check in one case only: rounding has taken the product up to a
whole number, that many lines go, and the ratio is not what their share is rounded to.

- `Overruns`: that case.
- `lt_ratio_iff`: the lines of a quota are more than the ratio allows only there.
- `fault?_eq_none_iff`: a selection within the quota passes the check everywhere else.
- `prune_unsound_iff`: so a prune warns of an internal error only there.
- `not_sound_remainder`: five of twelve lines are too many for what seven twelfths leave.
-/

namespace ContextBudget
namespace Selection

/-- Some lines are more than a ratio allows, although rounding takes the product of the ratio and
the count of lines to their number, and the ratio is not what their share is rounded to. -/
structure Overruns (limit : Double) (count gone : Nat) : Prop where
  more : (Binary.ofNat count : Double).value * limit.value < (Binary.ofNat gone : Double).value
  product : Binary.ofNat count * limit = Binary.ofNat gone
  share : limit ≠ ratio gone count

/-- A ratio that may be asked for is a finite number that is not below zero. -/
theorem exists_of_isFraction {limit : Double} (h : PruneOptions.isFraction limit = true) :
    Binary.le 0 limit = true ∧ ∃ negative units, limit = .finite negative units := by
  simp only [PruneOptions.isFraction, Bool.and_eq_true] at h
  refine ⟨h.1.2, ?_⟩
  rcases limit with _ | _ | ⟨negative, units⟩
  · cases h.1.1
  · cases h.1.1
  · exact ⟨negative, units, rfl⟩

/-- No lines are never more than a ratio allows. -/
theorem lt_ratio_zero {limit : Double} (h : Binary.le 0 limit = true) (count : Nat) :
    limit.lt (ratio 0 count) = false := by
  have hzero : limit.lt (.finite false 0) = false := by
    change Binary.le (Binary.ofNat 0) limit = true at h
    rw [Binary.ofNat_zero] at h
    rcases limit with _ | (_ | _) | ⟨negative, units⟩
    all_goals simp [Binary.le, Binary.lt, Binary.signed] at h ⊢
    exact h
  rcases Nat.eq_zero_or_pos count with rfl | hcount
  · rw [ratio, if_pos rfl]
    change limit.lt (Binary.ofNat 0) = false
    rwa [Binary.ofNat_zero]
  · rw [ratio, if_neg (by omega), Binary.ofNat_zero]
    rcases Binary.ofNat_cases (f := double) (by decide) count with h | ⟨units, h, hunits⟩
    · rw [h]
      exact hzero
    · rw [h, Binary.div_finite (hunits hcount), Nat.zero_mul, Binary.ofUnits_zero]
      exact hzero

/-- The lines of a quota are more than the ratio allows only if rounding makes them so. -/
theorem lt_ratio_iff {limit : Double} {count gone : Nat} (hlimit : limit.Rounded)
    (hfraction : PruneOptions.isFraction limit = true)
    (hquota : gone ≤ (Binary.ofNat count * limit).floorWord) :
    limit.lt (ratio gone count) = true ↔ Overruns limit count gone := by
  obtain ⟨hpos, negative, u, rfl⟩ := exists_of_isFraction hfraction
  rcases Nat.eq_zero_or_pos gone with rfl | hgone
  · have hvalue := mul_nonneg (Binary.value_nonneg (Binary.zero_le_ofNat (f := double) (by decide) count))
      (Binary.value_nonneg hpos)
    rw [lt_ratio_zero hpos]
    refine ⟨by simp, fun h => absurd h.more (not_lt.mpr ?_)⟩
    rwa [Binary.ofNat_zero, Binary.value_finite, Nat.cast_zero, zero_div]
  · -- Some lines go, so that neither the count nor the ratio is zero.
    obtain ⟨y, hy, -⟩ := Binary.exists_ofNat (f := double) (by decide) (by decide)
      (Nat.lt_of_le_of_lt (hquota.trans (Binary.floorWord_le _)) (by decide : Word.last < Word.size))
    have hcount : 0 < count := by
      refine Nat.pos_of_ne_zero fun h => ?_
      rw [h, Binary.ofNat_zero, Binary.floorWord_zero_mul] at hquota
      omega
    obtain rfl : negative = false := by
      cases negative with
      | false => rfl
      | true =>
        obtain rfl : u = 0 := by
          change Binary.le (Binary.ofNat 0) _ = true at hpos
          simpa [Binary.ofNat_zero, Binary.le, Binary.signed] using hpos
        rw [Binary.floorWord_mul_zero] at hquota
        omega
    have hshare : ratio gone count = .finite false y / Binary.ofNat count := by
      rw [ratio, if_neg (by omega), hy]
    rcases Binary.ofNat_cases (f := double) (by decide) count with h | ⟨x, h, hx⟩
    · -- A count past all numbers makes no share, and no product is a number.
      have hproduct : Binary.infinity false * Binary.finite false u ≠ (Binary.finite false y : Double) := by
        change (if u = 0 then Binary.nan else Binary.infinity _ : Double) ≠ _
        split <;> simp
      rw [hshare, h]
      refine ⟨fun hlt => ?_, fun hover => absurd (h ▸ hy ▸ hover.product) hproduct⟩
      have hneg : (u : Int) < 0 := of_decide_eq_true hlt
      omega
    · rw [h] at hquota hshare
      have hle : Binary.le (.finite false y) (Binary.finite false x * Binary.finite false u) = true :=
        hy ▸ Binary.ofNat_le_of_le_floorWord (by decide) (Binary.rounded_mul (by decide) x u) hgone hquota
      have hrounded : (Binary.finite false y : Double).Rounded :=
        hy ▸ Binary.rounded_ofNat (by decide) gone
      rw [hshare, Binary.lt_div_iff (by decide) (hx hcount) hlimit]
      constructor
      · rintro ⟨hmore, hne⟩
        refine ⟨by rwa [h, hy], ?_, hshare ▸ hne⟩
        rw [h, hy]
        exact Binary.mul_eq_of_le (by decide) hrounded hmore hle
      · rintro ⟨hmore, -, hne⟩
        rw [h, hy] at hmore
        exact ⟨hmore, hshare ▸ hne⟩

/-- A selection within the quota passes the check, unless rounding makes it too many lines. -/
theorem fault?_eq_none_iff {options : PruneOptions} {mask : List Bool}
    (hratio : options.maxRatio.Rounded) (hvalid : options.fault? = none)
    (enough : options.minKeep ≤ mask.length)
    (hquota : goneCount mask ≤ quota options mask.length) :
    fault? options mask = none ↔ ¬ Overruns options.maxRatio mask.length (goneCount mask) := by
  have hfraction : PruneOptions.isFraction options.maxRatio = true := by
    simpa [PruneOptions.fault?] using hvalid
  have hmost : goneCount mask ≤ mask.length - options.minKeep := hquota.trans (Nat.min_le_right _ _)
  have hkeeps : decide (mask.length - goneCount mask < options.minKeep) = false :=
    decide_eq_false (by omega)
  rw [← lt_ratio_iff hratio hfraction (hquota.trans (Nat.min_le_left _ _)), fault?]
  simp [hkeeps]

end Selection

namespace Pruner

open PrunerM Selection

variable {σ : Type} {p : Pruner σ} {config : PrunerConfig} {request : PruneRequest}
  {s : PrunerState} {w : σ} {outside : OutsideScores} {warnings : List Warning}

/-! ## The warning -/

/-- The code of the warning that a selection did not pass the check. -/
def internalError : String := "internal_error"

theorem code_eq_internalError {refusal : Refusal} :
    refusal.warning.code = internalError ↔ ∃ fault, refusal = .unsound fault := by
  cases refusal <;> simp [Refusal.warning, internalError]

/-- A prune that is in time warns of an internal error, and gives the text back although the limits
allow it and there are enough lines, if rounding makes the lines that go too many, and only then. -/
theorem prune_unsound_iff (p : Pruner σ) (request : PruneRequest) (s : PrunerState) (w : σ)
    (hratio : request.options.maxRatio.Rounded)
    (inTime : Refusal.late.warning ∉ (exec (p.prune request) s w).1.1.warnings) :
    let r := (exec (p.prune request) s w).1.1
    let count := (Lines.ofText request.text).lines.length
    let mask := (chosenBy p.config request (p.outsideFor request s w)).mask
    let allowed := refusal? p.config request count = none ∧ request.options.minKeep ≤ count
    let overruns := Overruns request.options.maxRatio count (goneCount mask)
    ((∃ x ∈ r.warnings, x.code = internalError) ↔ allowed ∧ overruns) ∧
      (allowed → (r.gaveBack = true ↔ overruns)) := by
  rcases hrun : exec (p.prune request) s w with ⟨⟨r, s'⟩, w'⟩
  rw [hrun] at inTime
  obtain ⟨last, hr⟩ := answerOf_of_inTime hrun inTime
  dsimp only
  rcases hv : verdict p.config request (p.outsideFor request s w) with ⟨warnings, refusal | chosen⟩
  · -- The limits refuse the request, or there are too few lines.
    obtain ⟨hrefused, -, hsound⟩ := verdict_error hv
    refine ⟨⟨?_, fun h => absurd h.1 hrefused⟩, fun h => absurd h hrefused⟩
    rintro ⟨x, hx, herror⟩
    rw [hr, hv, answerOf] at hx
    rcases List.mem_append.mp hx with hx | hx
    · have hfailed := warnings_outsideFor x (warnings_verdict hv hx)
      rw [herror] at hfailed
      exact absurd hfailed (by decide)
    · rw [List.mem_singleton.mp hx, code_eq_internalError] at herror
      obtain ⟨fault, hfault⟩ := herror
      exact absurd hfault (hsound fault)
  · obtain ⟨choice, hmask, -⟩ := verdict_ok hv
    have hsound := fault?_eq_none_iff hratio (refusal_eq_none choice.allowed).1
      (choice.length_mask ▸ choice.enough) (choice.length_mask ▸ choice.goneCount_le)
    rw [choice.length_mask] at hsound
    have hallowed := And.intro choice.allowed choice.enough
    rw [← hmask]
    rw [hv, answerOf] at hr
    split at hr
    · rename_i fault hfault
      have hover : Overruns request.options.maxRatio (Lines.ofText request.text).lines.length
          (goneCount chosen.mask) := by
        by_contra hnot
        exact absurd (hsound.mpr hnot) (by simp [hfault])
      rw [hr]
      exact ⟨iff_of_true ⟨_, List.mem_append_right _ (List.mem_singleton_self _), rfl⟩
        ⟨hallowed, hover⟩, fun _ => iff_of_true rfl hover⟩
    · rename_i hnone
      have hover := hsound.mp hnone
      rw [hr]
      refine ⟨iff_of_false ?_ fun h => hover h.2, fun _ => iff_of_false Bool.false_ne_true hover⟩
      rintro ⟨x, hx, herror⟩
      have hfailed := warnings_outsideFor x (warnings_verdict hv hx)
      rw [herror] at hfailed
      exact absurd hfailed (by decide)

/-! ## What seven twelfths leave -/

/-- Ten of twelve lines are blank, and what is left of one after seven twelfths may go. -/
def remainder : PruneRequest where
  text := "a\n\n\n\n\n\n\n\n\n\n\nb"
  goal := ""
  kind := .document
  options := { PruneOptions.standard with maxRatio := .ofRatio 41666666666666663 100000000000000000 }

theorem count_remainder : (Lines.ofText remainder.text).lines.length = 12 := by decide +kernel

theorem allowed_remainder :
    refusal? .standard remainder 12 = none ∧ remainder.options.minKeep ≤ 12 := by
  decide +kernel

theorem mask_remainder : (chosenBy .standard remainder ⟨none, false, []⟩).mask =
    false :: List.replicate 5 true ++ List.replicate 6 false := by
  have hclasses : classify (remainder.kind.resolve (Lines.ofText remainder.text).lines)
      (Lines.ofText remainder.text).lines =
        .anchored :: List.replicate 10 .blank ++ [.anchored] := by
    rw [classify, earlierRepeats_eq]
    decide +kernel
  have hcandidates : candidates PrunerConfig.standard.keepScore
      (scores (Lines.ofText remainder.text).lines
        (.anchored :: List.replicate 10 .blank ++ [.anchored]) (termsOf remainder.goal) none) =
      (List.range' 1 10).map (Score.blank, ·) := by
    decide +kernel
  have hsorted : ((List.range' 1 10).map (Score.blank, ·)).Pairwise fun a b => sooner a b = true := by
    decide +kernel
  have hquota : quota remainder.options 12 = 5 := by decide +kernel
  simp only [chosenBy, maskOf, chosen, hclasses, hcandidates,
    mergeSort_sooner (.refl _) hsorted, count_remainder, hquota, mask_eq_map]
  decide +kernel

/-- The clock stands still, and the text is given back since its mask is not sound. -/
theorem unsound_remainder : ∃ fault millis,
    (exec (asleep.prune remainder) (.fresh .standard 0) ()).1.1 =
      unpruned (pruneId 0) remainder.text [(Refusal.unsound fault).warning] millis := by
  rcases hrun : exec (asleep.prune remainder) (.fresh .standard 0) () with ⟨⟨r, s'⟩, w'⟩
  obtain ⟨-, last, ⟨hlate, -⟩ | hr⟩ := prune_verdict hrun
  · exact absurd hlate (not_tellsDeadline_still (p := asleep) rfl (by decide))
  · have hquota : quota remainder.options 12 ≠ 0 := by decide +kernel
    have hfew : ¬ 12 < remainder.options.minKeep := by decide
    have hout : asleep.outsideFor remainder (.fresh .standard 0) () = ⟨none, false, []⟩ :=
      if_neg (by decide)
    have hv : verdict asleep.config remainder ⟨none, false, []⟩ =
        ([], .ok (chosenBy .standard remainder ⟨none, false, []⟩)) := by
      have hallowed : refusal? asleep.config remainder 12 = none := allowed_remainder.1
      simp only [verdict, count_remainder, hallowed, if_neg hfew, if_neg hquota]
      rfl
    obtain ⟨fault, hfault⟩ : ∃ fault, fault? remainder.options
        (chosenBy .standard remainder ⟨none, false, []⟩).mask = some fault := by
      rw [mask_remainder, ← Option.isSome_iff_exists]
      decide +kernel
    rw [hout, hv, answerOf, hfault] at hr
    exact ⟨fault, _, hr⟩

theorem inTime_remainder : Refusal.late.warning ∉
    (exec (asleep.prune remainder) (.fresh .standard 0) ()).1.1.warnings :=
  inTime_still rfl (by decide)

theorem prune_unsound_iff_remainder :
    remainder.options.maxRatio.Rounded ∧
    Refusal.late.warning ∉ (exec (asleep.prune remainder) (.fresh .standard 0) ()).1.1.warnings ∧
    let r := (exec (asleep.prune remainder) (.fresh .standard 0) ()).1.1
    let count := (Lines.ofText remainder.text).lines.length
    let mask := (chosenBy asleep.config remainder
      (asleep.outsideFor remainder (.fresh .standard 0) ())).mask
    let allowed := refusal? asleep.config remainder count = none ∧ remainder.options.minKeep ≤ count
    let overruns := Overruns remainder.options.maxRatio count (goneCount mask)
    ((∃ x ∈ r.warnings, x.code = internalError) ↔ allowed ∧ overruns) ∧
      (allowed → (r.gaveBack = true ↔ overruns)) := by
  have hratio : remainder.options.maxRatio.Rounded := by
    simp only [remainder]
    exact Binary.rounded_ofRatio (f := double) (by decide) _ _
  exact ⟨hratio, inTime_remainder,
    prune_unsound_iff asleep remainder _ () hratio inTime_remainder⟩

/-- Five of twelve lines are chosen to go, as many as the quota, and the check refuses them. -/
theorem not_sound_remainder :
    refusal? .standard remainder (Lines.ofText remainder.text).lines.length = none ∧
    remainder.options.minKeep ≤ (Lines.ofText remainder.text).lines.length ∧
    goneCount (chosenBy .standard remainder ⟨none, false, []⟩).mask =
      quota remainder.options (Lines.ofText remainder.text).lines.length ∧
    let r := (exec (asleep.prune remainder) (.fresh .standard 0) ()).1.1
    Refusal.late.warning ∉ r.warnings ∧ r.gaveBack = true ∧
      ∃ x ∈ r.warnings, x.code = internalError := by
  rw [count_remainder, mask_remainder]
  refine ⟨allowed_remainder.1, allowed_remainder.2, by decide +kernel, inTime_remainder, ?_⟩
  obtain ⟨fault, millis, hr⟩ := unsound_remainder
  rw [hr]
  exact ⟨rfl, _, List.mem_singleton_self _, rfl⟩

end Pruner
end ContextBudget
