import ContextBudget.Proofs.Rewriting
import ContextBudget.Proofs.Run.Stages
import Mathlib.Data.List.Induction

/-!
# What a redaction does

- `nodup_places`, `exists_of_mem_places`: a redaction goes over places of messages that are neither
  the system's nor masked, each of them once.
- `Prunes`: what the redactor is asked in a redaction, and answers.
- `redactEach_rewrites`: a redaction replaces the messages for which the redactor gave another text,
  and no other ones.
-/

namespace ContextBudget
namespace Pipeline

open BudgetM

variable {σ : Type} {p : Pipeline σ} {r : Run} {index : Nat} {m : Message} {w w' : σ}

/-! ## The places of a redaction -/

theorem nodup_candidates (r : Run) (minTokens : Nat) : (r.candidates minTokens).Nodup := by
  refine (List.mergeSort_perm _ _).nodup_iff.mpr ?_
  refine List.Nodup.sublist (List.filter_sublist.map _) ?_
  rw [List.zipIdx_map_snd]
  exact List.nodup_range'

theorem nodup_places (p : Pipeline σ) (r : Run) : (p.places r).Nodup := by
  unfold places
  split
  · exact nodup_candidates _ _
  · exact List.nodup_nil

/-- A place of a redaction is that of a message which may be given to the redactor. -/
theorem exists_of_mem_places (h : index ∈ p.places r) : ∃ m, r.messages[index]? = some m ∧
    r.isCandidate p.settings.redaction.config.minTokens m index = true := by
  unfold places at h
  split at h
  · obtain ⟨⟨m, i⟩, hitem, rfl⟩ := List.mem_map.mp (List.mem_mergeSort.mp h)
    obtain ⟨hmem, hcandidate⟩ := List.mem_filter.mp hitem
    exact ⟨m, List.mem_zipIdx_iff_getElem?.mp hmem, hcandidate⟩
  · cases h

/-! ## What a redaction asks and replaces -/

theorem redactEach_concat (p : Pipeline σ) (goal : String) (limit : Span) (done : Redacted)
    (places : List Nat) (index : Nat) :
    p.redactEach goal limit done (places ++ [index]) = (do
      let done ← p.redactEach goal limit done places
      if done.run.budget.fits then return done else p.redactOne goal limit done index) := by
  induction places generalizing done with
  | nil => simp only [List.nil_append, redactEach, pure_bind, bind_pure]
  | cons place rest ih =>
    rw [List.cons_append, redactEach, redactEach]
    split
    · rename_i hfits
      rw [pure_bind, if_pos hfits]
    · simp only [bind_assoc, ih]

/-- In a redaction, the redactor is asked for a message, and answers; then the services are in the
last state given. -/
inductive Prunes (p : Pipeline σ) (r : Run) (w : σ) (index : Nat) (m : Message) :
    Pending PruneResponse → σ → Prop where
  | intro {places : List Nat} {done : Redacted} {w₁ : σ} {reply : Pending PruneResponse} {w₂ : σ}
    (part : places ++ [index] <+: p.places r)
    (ran : exec (p.redactEach (Run.goal r.messages) p.patience ⟨r, [], [], []⟩ places) w =
      (.ok done, w₁))
    (exceeded : done.run.budget.fits = false) (found : done.run.messages[index]? = some m)
    (asked : (p.redactor.prune (p.question (Run.goal r.messages) m)).run w₁ = (reply, w₂)) :
    Prunes p r w index m reply w₂

/-- In a redaction, what the redactor left of a message takes its place: the redactor answered in
time, and with another text. -/
inductive Redacts (p : Pipeline σ) (r : Run) (w : σ) : Replacement → Prop where
  | intro {index : Nat} {m : Message} {reply : Pending PruneResponse} {response : PruneResponse}
    {w' : σ} (asks : p.Prunes r w index m reply w')
    (answered : reply.within p.patience = some response)
    (useful : (response.gaveBack || response.text == m.content) = false) :
    Redacts p r w (.redacted index m response)

/-- What a redaction may have replaced by the time it comes to the end of some of its places. -/
structure RedactedAt (p : Pipeline σ) (r : Run) (w : σ) (places : List Nat) (done : Redacted)
    (rs : List Replacement) : Prop where
  rewrites : Rewrites r.messages rs done.run.messages
  reduced : done.reduced = rs.map (·.index)
  pruneIds : done.pruneIds = rs.filterMap (·.pruneId?)
  handles : done.run.handles = r.handles
  ids : done.run.pruneIds = r.pruneIds
  within : ∀ x ∈ rs, x.index ∈ places
  redacts : ∀ x ∈ rs, p.Redacts r w x
  attempted : r.attempted ⊆ done.run.attempted
  tried : ∀ x ∈ rs, x.index ∈ done.run.attempted
  idle : rs = [] → done.run.tally = r.tally

theorem redactEach_rewrites {places : List Nat} {done : Redacted} (part : places <+: p.places r)
    (h : exec (p.redactEach (Run.goal r.messages) p.patience ⟨r, [], [], []⟩ places) w =
      (.ok done, w')) : ∃ rs, RedactedAt p r w places done rs := by
  induction places using List.reverseRecOn generalizing done w' with
  | nil =>
    obtain ⟨rfl, -⟩ := pure_ran h
    exact ⟨[], .nil, rfl, rfl, rfl, rfl, by simp, by simp, List.Subset.refl _, by simp,
      fun _ => rfl⟩
  | append_singleton places index ih =>
    rw [redactEach_concat] at h
    obtain ⟨before, w₁, hbefore, hone⟩ := bind_ran h
    obtain ⟨rs, hat⟩ := ih ((List.prefix_append _ _).trans part) hbefore
    have hwithin : ∀ x ∈ rs, x.index ∈ places ++ [index] := fun x hx =>
      List.mem_append_left _ (hat.within x hx)
    have hsame : ∀ done' : Redacted, done'.run.messages = before.run.messages →
        done'.reduced = before.reduced → done'.pruneIds = before.pruneIds →
        done'.run.handles = before.run.handles → done'.run.pruneIds = before.run.pruneIds →
        before.run.attempted ⊆ done'.run.attempted → done'.run.tally = before.run.tally →
        RedactedAt p r w (places ++ [index]) done' rs := fun done' hm hr hp hh hi ha ht =>
      ⟨hm ▸ hat.rewrites, hr ▸ hat.reduced, hp ▸ hat.pruneIds, hh ▸ hat.handles, hi ▸ hat.ids,
        hwithin, hat.redacts, List.Subset.trans hat.attempted ha, fun x hx => ha (hat.tried x hx),
        fun hnone => ht.trans (hat.idle hnone)⟩
    split at hone
    · obtain ⟨rfl, -⟩ := pure_ran hone
      exact ⟨rs, hsame _ rfl rfl rfl rfl rfl (List.Subset.refl _) rfl⟩
    · rename_i hexceeded
      have hgrows : before.run.attempted ⊆ before.run.attempted ++ [index] :=
        List.subset_append_left _ _
      cases redactOne_cases hone with
      | absent => exact ⟨rs, hsame _ rfl rfl rfl rfl rfl hgrows rfl⟩
      | late => exact ⟨rs, hsame _ rfl rfl rfl rfl rfl hgrows rfl⟩
      | same => exact ⟨rs, hsame _ rfl rfl rfl rfl rfl hgrows rfl⟩
      | replaced m reply response w₂ entry _ found asked answered useful counted =>
        let last : Replacement := .redacted index m response
        have hasks : p.Prunes r w index m reply w₂ :=
          .intro part hbefore (Bool.eq_false_iff.mpr hexceeded) found asked
        refine ⟨rs ++ [last], hat.rewrites.snoc last found, ?_, ?_, hat.handles, hat.ids,
          fun x hx => ?_, fun x hx => ?_, List.Subset.trans hat.attempted hgrows,
          fun x hx => ?_, by simp⟩
        · rw [List.map_append, ← hat.reduced]
          rfl
        · rw [List.filterMap_append, ← hat.pruneIds]
          rfl
        · rcases List.mem_append.mp hx with hx | hx
          · exact hwithin x hx
          · obtain rfl := List.mem_singleton.mp hx
            exact List.mem_append_right _ (List.mem_singleton.mpr rfl)
        · rcases List.mem_append.mp hx with hx | hx
          · exact hat.redacts x hx
          · obtain rfl := List.mem_singleton.mp hx
            exact .intro hasks answered useful
        · rcases List.mem_append.mp hx with hx | hx
          · exact hgrows (hat.tried x hx)
          · obtain rfl := List.mem_singleton.mp hx
            exact List.mem_append_right _ (List.mem_singleton.mpr rfl)

/-- The redactor is asked for a message as it was before the redaction, and one that may be given to
it. -/
theorem Prunes.candidate {reply : Pending PruneResponse} (h : p.Prunes r w index m reply w') :
    r.messages[index]? = some m ∧
      r.isCandidate p.settings.redaction.config.minTokens m index = true := by
  obtain @⟨places, done, _, _, _, part, ran, -, found, -⟩ := h
  obtain ⟨rs, hat⟩ := redactEach_rewrites ((List.prefix_append _ _).trans part) ran
  have hnodup : (places ++ [index]).Nodup := (nodup_places p r).sublist part.sublist
  have hfresh : index ∉ places := fun hmem =>
    (List.nodup_append.mp hnodup).2.2 index hmem index (List.mem_singleton.mpr rfl) rfl
  have huntouched : ∀ x ∈ rs, x.index ≠ index := fun x hx heq =>
    hfresh (heq ▸ hat.within x hx)
  rw [hat.rewrites.getElem?_of_not_mem huntouched] at found
  obtain ⟨m', hm', hcandidate⟩ := exists_of_mem_places (part.subset (by simp : index ∈ _))
  rw [found] at hm'
  obtain rfl := Option.some.inj hm'
  exact ⟨found, hcandidate⟩

/-- The redactor is asked for no message of the system. -/
theorem Prunes.spared {reply : Pending PruneResponse} (h : p.Prunes r w index m reply w') :
    m.role ≠ .system := by
  have hcandidate := h.candidate.2
  intro hrole
  simp [Run.isCandidate, Message.isSystem, hrole] at hcandidate

end Pipeline
end ContextBudget
