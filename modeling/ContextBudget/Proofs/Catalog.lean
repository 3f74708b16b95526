import ContextBudget.Catalog

/-!
# The larger model to move to

- `Suits`: what is asked of the model that a conversation moves to.
- `fallback?_suits`: the model that a catalog names suits the family and the limit that it lists for
  the model to leave.
- `find?_of_mem`: a model is found by its name, if no two models share a name.
- `oneFamily_ofModels`: in a catalog that is built model by model, a name stands for one family.
-/

namespace ContextBudget

namespace Model

theorem before_trans {a b c : Model} (hab : a.before b = true) (hbc : b.before c = true) :
    a.before c = true := by
  simp only [before, Bool.or_eq_true, Bool.and_eq_true, decide_eq_true_eq, beq_iff_eq] at *
  rcases hab with hab | ⟨hab, hname⟩ <;> rcases hbc with hbc | ⟨hbc, hname'⟩
  · exact .inl (by omega)
  · exact .inl (by omega)
  · exact .inl (by omega)
  · exact .inr ⟨hab.trans hbc, String.le_trans hname hname'⟩

theorem before_total (a b : Model) : (a.before b || b.before a) = true := by
  simp only [before, Bool.or_eq_true, Bool.and_eq_true, decide_eq_true_eq, beq_iff_eq]
  rcases Nat.lt_trichotomy a.limit b.limit with hlt | heq | hgt
  · exact .inl (.inl hlt)
  · rcases String.le_total a.name b.name with hname | hname
    · exact .inl (.inr ⟨heq, hname⟩)
    · exact .inr (.inr ⟨heq.symm, hname⟩)
  · exact .inr (.inl hgt)

theorem limit_le_of_before {a b : Model} (h : a.before b = true) : a.limit ≤ b.limit := by
  simp only [before, Bool.or_eq_true, Bool.and_eq_true, decide_eq_true_eq, beq_iff_eq] at h
  omega

end Model

namespace Catalog

variable {c : Catalog} {m known target : Model} {name : String} {required : Nat}

theorem mem_larger : m ∈ c.larger known ↔
    m ∈ c.models ∧ m.family = known.family ∧ known.limit < m.limit := by
  rw [larger, List.mem_mergeSort, List.mem_filter]
  simp only [Bool.and_eq_true, beq_iff_eq, decide_eq_true_eq]

theorem pairwise_before_larger (c : Catalog) (m : Model) :
    (c.larger m).Pairwise fun a b => a.before b = true :=
  @List.pairwise_mergeSort Model Model.before (fun _ _ _ => Model.before_trans)
    Model.before_total _

theorem pairwise_larger (c : Catalog) (m : Model) :
    (c.larger m).Pairwise fun a b => a.limit ≤ b.limit :=
  (pairwise_before_larger c m).imp Model.limit_le_of_before

/-- A model of a family that is larger than a limit, and the smallest of those that hold the
required tokens, if one of them does. -/
structure Suits (c : Catalog) (family : String) (limit required : Nat) (target : Model) : Prop where
  listed : target ∈ c.models
  related : target.family = family
  larger : limit < target.limit
  least : ∀ m ∈ c.models, m.family = family → limit < m.limit → required ≤ m.limit →
    required ≤ target.limit ∧ target.limit ≤ m.limit

/-- The first of the larger models that holds the tokens is the smallest that does. -/
theorem least_of_find? (h : (c.larger known).find? (required ≤ ·.limit) = some target)
    (hm : m ∈ c.larger known) (hholds : required ≤ m.limit) :
    required ≤ target.limit ∧ target.limit ≤ m.limit := by
  obtain ⟨htarget, before, after, hsplit, hbefore⟩ := List.find?_eq_some_iff_append.mp h
  refine ⟨of_decide_eq_true htarget, ?_⟩
  have hsorted := hsplit ▸ pairwise_larger c known
  rw [hsplit] at hm
  rcases List.mem_append.mp hm with hm | hm
  · exact absurd hholds (by simpa using hbefore m hm)
  · rcases List.mem_cons.mp hm with rfl | hm
    · exact Nat.le_refl _
    · exact (List.pairwise_cons.mp (List.pairwise_append.mp hsorted).2.1).1 m hm

/-- The model that a catalog names suits the family and the limit that it lists for the model to
leave. -/
theorem fallback?_suits (h : c.fallback? name required = some target) :
    ∃ known, c.find? name = some known ∧ c.Suits known.family known.limit required target := by
  obtain ⟨known, hknown, hlarger⟩ := Option.bind_eq_some_iff.mp h
  rcases Option.or_eq_some_iff.mp hlarger with hfirst | ⟨hnone, hlast⟩
  · obtain ⟨hlisted, hfamily, hlimit⟩ := mem_larger.mp (List.mem_of_find?_eq_some hfirst)
    exact ⟨known, hknown, hlisted, hfamily, hlimit, fun m hm hmf hml hholds =>
      least_of_find? hfirst (mem_larger.mpr ⟨hm, hmf, hml⟩) hholds⟩
  · obtain ⟨hlisted, hfamily, hlimit⟩ := mem_larger.mp (List.mem_of_getLast? hlast)
    refine ⟨known, hknown, hlisted, hfamily, hlimit, fun m hm hmf hml hholds => ?_⟩
    have hshort := List.find?_eq_none.mp hnone m (mem_larger.mpr ⟨hm, hmf, hml⟩)
    exact absurd hholds (by simpa using hshort)

/-- A model is found by its name, if no two models share a name. -/
theorem find?_of_mem (hdistinct : (c.models.map (·.name)).Nodup) (hm : m ∈ c.models) :
    c.find? m.name = some m := by
  obtain ⟨before, after, hsplit⟩ := List.append_of_mem hm
  rw [hsplit, List.map_append, List.map_cons] at hdistinct
  obtain ⟨-, -, hapart⟩ := List.nodup_append.mp hdistinct
  refine List.find?_eq_some_iff_append.mpr ⟨by simp, before, after, hsplit, fun a ha => ?_⟩
  simpa using hapart a.name (List.mem_map_of_mem ha) m.name List.mem_cons_self

/-- A name leads to a model of that name. -/
theorem name_of_find? (h : c.find? name = some m) : m.name = name := by
  simpa using List.find?_some h

/-- A name stands for one family. -/
def OneFamily (c : Catalog) : Prop :=
  ∀ a ∈ c.models, ∀ b ∈ c.models, a.name = b.name → a.family = b.family

theorem OneFamily.insert (h : c.OneFamily) (m : Model) : (c.insert m).OneFamily := by
  have hold : ∀ a ∈ (c.insert m).models, a = m ∨ (a ∈ c.models ∧ a.name ≠ m.name) := by
    intro a ha
    rcases List.mem_append.mp ha with ha | ha
    · exact .inr (by simpa using List.mem_filter.mp ha)
    · exact .inl (List.mem_singleton.mp ha)
  intro a ha b hb hname
  rcases hold a ha with rfl | ⟨ha, hother⟩ <;> rcases hold b hb with rfl | ⟨hb, hother'⟩
  · rfl
  · exact absurd hname.symm hother'
  · exact absurd hname hother
  · exact h a ha b hb hname

theorem oneFamily_ofModels (models : List Model) : (ofModels models).OneFamily := by
  have hall : ∀ c : Catalog, c.OneFamily → (models.foldl Catalog.insert c).OneFamily := by
    induction models with
    | nil => exact fun _ h => h
    | cons m rest ih => exact fun c h => ih _ (h.insert m)
  exact hall empty nofun

theorem find?_eq_none_iff : c.find? name = none ↔ ∀ m ∈ c.models, m.name ≠ name := by
  simp [find?]

end Catalog
end ContextBudget
