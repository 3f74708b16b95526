import ContextBudget.Proofs.Json.Records
import ContextBudget.Proofs.Prune.Answer

/-!
# Answers of the right types

The numbers in the response of a pruner are of the types that they are sent as, if those of the
request are: the counts of a text whose lines can be counted, the time that has passed, and the
share of the lines that went.

- `prune_elapsed`: the time in a response is a word.
- `prune_typed`: a response to a request of the right types is of the right types.
-/

namespace ContextBudget

open Json Selection PrunerM

theorem Selection.last_le_of_mem_cuts {id : String} {lines : List String} {mask : List Bool}
    {c : Cut} (hlen : mask.length = lines.length) (hc : c ∈ cuts id lines mask) : c.last ≤ lines.length := by
  obtain ⟨hle, hall, -, -⟩ := (exists_cut_iff hlen).mp ⟨c, hc, rfl, rfl⟩
  obtain ⟨-, hgoes⟩ := mem_gone.mp (hall c.last hle (Nat.le_refl _))
  obtain ⟨hlt, -⟩ := List.getElem?_eq_some_iff.mp hgoes
  omega

namespace Pruner

variable {σ : Type} {p : Pruner σ} {request : PruneRequest} {s s' : PrunerState} {w w' : σ}
  {r : PruneResponse}

/-- A clock's count of milliseconds is a word. -/
theorem millisSince_le {start : Span} {millis : Nat}
    (h : exec (p.millisSince start) s w = ((millis, s'), w')) : millis ≤ Word.last := by
  obtain ⟨now, s₁, w₁, -, h₁⟩ := bind_ran h
  rw [(pure_ran h₁).1]
  exact Nat.min_le_right _ _

theorem giveBack_elapsed {id text : String} {warnings : List Warning} {start : Span}
    (h : exec (p.giveBack id text warnings start) s w = ((r, s'), w')) :
    r.stats.elapsedMillis ≤ Word.last := by
  obtain ⟨u, s₁, w₁, -, h₁⟩ := bind_ran h
  obtain ⟨millis, s₂, w₂, hmillis, h₂⟩ := bind_ran h₁
  rw [(pure_ran h₂).1]
  exact millisSince_le hmillis

theorem prune_elapsed (h : exec (p.prune request) s w = ((r, s'), w')) :
    r.stats.elapsedMillis ≤ Word.last := by
  unfold prune at h
  obtain ⟨start, s₁, w₁, -, h₁⟩ := bind_ran h
  obtain ⟨id, s₂, w₂, -, h₂⟩ := bind_ran h₁
  obtain ⟨⟨warnings, result⟩, s₃, w₃, -, h₃⟩ := bind_ran h₂
  cases result with
  | error refusal => exact giveBack_elapsed h₃
  | ok chosen =>
    simp only at h₃
    split at h₃
    · exact giveBack_elapsed h₃
    · obtain ⟨late, s₄, w₄, -, h₄⟩ := bind_ran h₃
      split at h₄
      · exact giveBack_elapsed h₄
      · obtain ⟨u, s₅, w₅, -, h₅⟩ := bind_ran h₄
        obtain ⟨millis, s₆, w₆, hmillis, h₆⟩ := bind_ran h₅
        rw [(pure_ran h₆).1]
        exact millisSince_le hmillis

/-- The response to a request of the right types is of the right types. -/
theorem prune_typed (htyped : request.options.Typed)
    (hlines : (Lines.ofText request.text).lines.length < Word.size)
    (h : exec (p.prune request) s w = ((r, s'), w')) : r.Typed := by
  have helapsed : r.stats.elapsedMillis < Word.size := by
    have := prune_elapsed h
    have hsize : Word.last + 1 = Word.size := rfl
    omega
  obtain ⟨record, v, hout, -, -⟩ := prune_ran h
  cases hout with
  | refused warnings refusal millis =>
    have hcuts : ∀ c ∈ (unpruned (pruneId s.next) request.text (warnings ++ [refusal.warning])
        millis).cuts, c.Typed := fun c hc => absurd hc List.not_mem_nil
    exact ⟨hcuts, hlines, hlines, Nat.two_pow_pos 64, rounded_zero, finite_zero,
      helapsed⟩
  | pruned chosen warnings millis choice sound =>
    have hlen := choice.length_mask
    have hgone : goneCount chosen.mask ≤ (Lines.ofText request.text).lines.length :=
      hlen ▸ List.count_le_length
    refine ⟨fun c hc => ?_, ?_⟩
    · have hlast := last_le_of_mem_cuts hlen hc
      obtain ⟨hpos, hfirst, hcount, -⟩ := cut_wellFormed hc
      exact ⟨by omega, by omega, by omega⟩
    · have hless : request.options.maxRatio.lt (ratio (goneCount chosen.mask)
          (Lines.ofText request.text).lines.length) = false := by
        rw [← hlen]
        by_cases hover : request.options.maxRatio.lt
            (ratio (goneCount chosen.mask) chosen.mask.length)
        · simp [fault?, hover] at sound
        · simpa using hover
      exact ⟨hlines, Nat.lt_of_le_of_lt (Nat.sub_le _ _) hlines, Nat.lt_of_le_of_lt hgone hlines,
        rounded_ratio _ _, finite_ratio (by omega) hlines htyped.finite hless, helapsed⟩

end Pruner
end ContextBudget
