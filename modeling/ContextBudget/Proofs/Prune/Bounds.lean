import ContextBudget.Proofs.Prune.Greedy

/-!
# Wider bounds

A request that lets a larger part of the lines go, or asks for fewer of them to stay, loses every
line that the narrower request loses: the lines that are chosen are the first of one order, and a
line that did not go alone does not go alone where more lines go.

- `quota_mono`: the quota grows with the bounds.
- `rawSelection_mono`, `gone_mono`: so do the lines that are chosen, with those that stay since they
  would go alone.
- `prune_wider`: so do the lines that two answers leave out.
-/

namespace ContextBudget

/-- The request with other bounds on what may go. -/
def PruneRequest.withBounds (request : PruneRequest) (ratio : Double) (keep : Nat) : PruneRequest :=
  { request with options := { request.options with maxRatio := ratio, minKeep := keep } }

namespace Selection

/-- The numbers of a run that is maximal among more numbers are one among fewer. -/
theorem MaximalRun.of_subset {numbers more : List Nat} {k : Nat} (h : MaximalRun more k k)
    (hsub : numbers ⊆ more) (hk : k ∈ numbers) : MaximalRun numbers k k := by
  obtain ⟨hle, -, hbefore, hafter⟩ := h
  refine ⟨hle, fun j hj hj' => ?_, fun hm => hbefore (hsub hm), fun hm => hafter (hsub hm)⟩
  rwa [Nat.le_antisymm hj' hj]

/-- Wider bounds let no fewer lines go. -/
theorem quota_mono {options wider : PruneOptions} (hvalid : options.fault? = none)
    (hwider : wider.fault? = none) (hratio : options.maxRatio.le wider.maxRatio = true)
    (hkeep : wider.minKeep ≤ options.minKeep) (n : Nat) : quota options n ≤ quota wider n := by
  have hfraction : ∀ {o : PruneOptions}, o.fault? = none →
      o.maxRatio.isFinite = true ∧ Binary.le 0 o.maxRatio = true := by
    intro o ho
    unfold PruneOptions.fault? PruneOptions.isFraction at ho
    simp_all
  obtain ⟨hfinite, hpos⟩ := hfraction hvalid
  have hfloor := Binary.floorWord_mul_mono (by decide) n hfinite (hfraction hwider).1 hpos hratio
  exact Nat.le_min.mpr ⟨(Nat.min_le_left _ _).trans hfloor, (Nat.min_le_right _ _).trans (by omega)⟩

end Selection

namespace Pruner

open PrunerM Selection

variable {config : PrunerConfig} {request : PruneRequest} {outside other : OutsideScores}
  {ratio : Double} {keep : Nat}

/-- More lines are chosen where the quota is larger, among them those of the smaller quota. -/
theorem rawSelection_mono (hscores : outside.scores = other.scores)
    (hquota : quota request.options (Lines.ofText request.text).lines.length ≤
      quota (request.withBounds ratio keep).options (Lines.ofText request.text).lines.length) :
    rawSelection config request outside ⊆
      rawSelection config (request.withBounds ratio keep) other := by
  intro k hk
  simp only [rawSelection, mem_gone_mask] at hk ⊢
  obtain ⟨hbounds, hchosen⟩ := hk
  rw [hscores] at hbounds hchosen
  exact ⟨hbounds, List.map_subset _ (List.take_prefix_take_left hquota).subset hchosen⟩

/-- With markers or without them, more lines go where more are chosen. -/
theorem gone_mono (hscores : outside.scores = other.scores)
    (hquota : quota request.options (Lines.ofText request.text).lines.length ≤
      quota (request.withBounds ratio keep).options (Lines.ofText request.text).lines.length) :
    gone (chosenBy config request outside).mask ⊆
      gone (chosenBy config (request.withBounds ratio keep) other).mask := by
  intro k hk
  have hraw : rawSelection config request outside ⊆
      rawSelection config (request.withBounds ratio keep) other :=
    rawSelection_mono hscores hquota
  rw [mem_gone_chosenBy] at hk ⊢
  exact ⟨hraw hk.1, fun hmarkers halone => hk.2 hmarkers (halone.of_subset hraw hk.1)⟩

/-- A pruner asks for the same scores whatever the bounds. -/
theorem outsideFor_withBounds {σ : Type} (p : Pruner σ) (request : PruneRequest) (ratio : Double)
    (keep : Nat) (s : PrunerState) (w : σ) :
    p.outsideFor (request.withBounds ratio keep) s w = p.outsideFor request s w := rfl

/-- Of two answers under the same settings and scores, the one to the request with wider bounds
leaves out all lines that the other one leaves out. -/
theorem prune_wider {σ τ : Type} (p : Pruner σ) (q : Pruner τ) (request : PruneRequest)
    (ratio : Double) (keep : Nat) (s t : PrunerState) (w : σ) (v : τ)
    (hconfig : p.config = q.config)
    (hscores : (p.outsideFor request s w).scores =
      (q.outsideFor (request.withBounds ratio keep) t v).scores)
    (hratio : request.options.maxRatio.le ratio = true) (hkeep : keep ≤ request.options.minKeep)
    (hnarrow : (exec (p.prune request) s w).1.1.gaveBack = false)
    (hwide : (exec (q.prune (request.withBounds ratio keep)) t v).1.1.gaveBack = false) :
    ∃ numbers more, LeavesOut request (exec (p.prune request) s w).1.1 numbers ∧
      LeavesOut (request.withBounds ratio keep)
        (exec (q.prune (request.withBounds ratio keep)) t v).1.1 more ∧
      numbers ⊆ more := by
  rcases hr : exec (p.prune request) s w with ⟨⟨r, s'⟩, w'⟩
  rcases hr' : exec (q.prune (request.withBounds ratio keep)) t v with ⟨⟨r', t'⟩, v'⟩
  rw [hr] at hnarrow
  rw [hr'] at hwide
  obtain ⟨chosen, choice, hmask, hout, -⟩ := prune_answered hr hnarrow
  obtain ⟨chosen', choice', hmask', hout', -⟩ := prune_answered hr' hwide
  refine ⟨_, _, hout, hout', ?_⟩
  rw [hmask, hmask', ← hconfig]
  exact gone_mono hscores (quota_mono (refusal_eq_none choice.allowed).1
    (refusal_eq_none choice'.allowed).1 hratio hkeep _)

/-- Half of the lines go, and then three quarters of them. -/
theorem prune_wider_scattered :
    Binary.le scattered.options.maxRatio (.ofRatio 3 4) = true ∧
    (exec (asleep.prune scattered) (.fresh .standard 0) ()).1.1.gaveBack = false ∧
    (exec (asleep.prune (scattered.withBounds (.ofRatio 3 4) 0)) (.fresh .standard 0)
      ()).1.1.gaveBack = false ∧
    ∃ numbers more,
      LeavesOut scattered (exec (asleep.prune scattered) (.fresh .standard 0) ()).1.1 numbers ∧
      LeavesOut (scattered.withBounds (.ofRatio 3 4) 0)
        (exec (asleep.prune (scattered.withBounds (.ofRatio 3 4) 0)) (.fresh .standard 0) ()).1.1
        more ∧
      numbers ⊆ more := by
  have hratio : Binary.le scattered.options.maxRatio (.ofRatio 3 4) = true := by decide +kernel
  have hcount : (Lines.ofText scattered.text).lines.length = 6 := by decide +kernel
  have hquota : quota (scattered.withBounds (.ofRatio 3 4) 0).options 6 = 4 := by decide +kernel
  have hmask : (chosenBy .standard (scattered.withBounds (.ofRatio 3 4) 0) ⟨none, false, []⟩).mask =
      [false, true, true, true, true, false] := by
    simp only [chosenBy, PruneRequest.withBounds] at hquota ⊢
    simp only [maskOf, chosen_scattered, length_scores, hcount, hquota, mask_eq_map]
    decide
  have hsound : fault? (scattered.withBounds (.ofRatio 3 4) 0).options
      [false, true, true, true, true, false] = none := by
    decide +kernel
  have hwide : (exec (asleep.prune (scattered.withBounds (.ofRatio 3 4) 0)) (.fresh .standard 0)
      ()).1.1.gaveBack = false :=
    answered_still (p := asleep) rfl (by decide) (by decide +kernel) (Nat.zero_le _)
      (by rw [← hsound, ← hmask]; rfl)
  exact ⟨hratio, answered_scattered, hwide,
    prune_wider asleep asleep scattered (.ofRatio 3 4) 0 _ _ () () rfl
      (by rw [outsideFor_withBounds]) hratio (Nat.zero_le _) answered_scattered hwide⟩

end Pruner
end ContextBudget
