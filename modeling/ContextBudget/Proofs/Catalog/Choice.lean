import ContextBudget.Proofs.Catalog
import Mathlib.Data.List.Induction
import Mathlib.Data.List.Nodup

/-!
# The choice of a larger model

A catalog that is built model by model knows under each name the model that was added last. Which
larger model it names follows from these alone, so the order in which they came does not count.

- `find?_ofModels`, `mem_ofModels`: the models of a catalog are those that were added last under
  their names.
- `fallback?_congr`: the choice depends on nothing else.
- `ofModels_chooses`: which model is chosen, whatever was added in whatever order.
-/

namespace ContextBudget

theorem Model.before_antisymm {a b : Model} (hab : a.before b = true) (hba : b.before a = true) :
    a.name = b.name := by
  simp only [before, Bool.or_eq_true, Bool.and_eq_true, decide_eq_true_eq, beq_iff_eq] at *
  rcases hab with hab | ⟨hab, hname⟩ <;> rcases hba with hba | ⟨hba, hname'⟩
  · omega
  · omega
  · omega
  · exact String.le_antisymm hname hname'

namespace Catalog

variable {c d : Catalog} {m known target : Model} {models others before after : List Model}
  {name : String} {required : Nat}

/-! ## What was added last -/

/-- The model that was added last under a name. -/
def latest? (models : List Model) (name : String) : Option Model :=
  models.reverse.find? (·.name == name)

theorem latest?_append (before after : List Model) (name : String) :
    latest? (before ++ after) name = (latest? after name).or (latest? before name) := by
  simp [latest?, List.find?_append]

theorem latest?_cons (m : Model) (after : List Model) (name : String) :
    latest? (m :: after) name =
      (latest? after name).or (if m.name = name then some m else none) := by
  rw [show m :: after = [m] ++ after from rfl, latest?_append]
  by_cases hname : m.name = name <;> simp [latest?, hname]

theorem name_of_latest? (h : latest? models name = some m) : m.name = name := by
  simpa using List.find?_some h

/-- Where no two models share a name, each was added last under its own. -/
theorem latest?_eq_some_iff (hdistinct : (models.map (·.name)).Nodup) :
    latest? models name = some m ↔ m ∈ models ∧ m.name = name := by
  have hreversed : (models.reverse.map (·.name)).Nodup := by
    rw [List.map_reverse]
    exact List.nodup_reverse.mpr hdistinct
  constructor
  · intro h
    exact ⟨List.mem_reverse.mp (List.mem_of_find?_eq_some h), name_of_latest? h⟩
  · rintro ⟨hm, rfl⟩
    exact find?_of_mem (c := ⟨models.reverse⟩) hreversed (List.mem_reverse.mpr hm)

/-- Models of different names are known alike in every order. -/
theorem latest?_perm (hperm : models.Perm others) (hdistinct : (models.map (·.name)).Nodup)
    (name : String) : latest? others name = latest? models name := by
  have hothers : (others.map (·.name)).Nodup := (hperm.map _).nodup_iff.mp hdistinct
  refine Option.ext fun m => ?_
  rw [latest?_eq_some_iff hothers, latest?_eq_some_iff hdistinct, hperm.mem_iff]

/-- Under the name of a model that is added, what was added before it no longer counts. -/
theorem latest?_readded (before : List Model) (m : Model) (after : List Model) (name : String) :
    latest? (before.filter (·.name != m.name) ++ m :: after) name =
      latest? (before ++ m :: after) name := by
  rw [latest?_append, latest?_append, latest?_cons]
  by_cases hname : m.name = name
  · simp [hname]
  · have hkept : latest? (before.filter (·.name != m.name)) name = latest? before name := by
      rw [latest?, ← List.filter_reverse, List.find?_filter, latest?]
      congr 1
      funext other
      by_cases hother : other.name = name
      · simp [hother, Ne.symm hname]
      · simp [hother]
    rw [hkept]

/-! ## The models of a catalog -/

theorem find?_insert (c : Catalog) (m : Model) (name : String) :
    (c.insert m).find? name = if m.name = name then some m else c.find? name := by
  have hkept : (c.models.filter (·.name != m.name)).find? (·.name == name) =
      if m.name = name then none else c.find? name := by
    rw [List.find?_filter, find?]
    by_cases hname : m.name = name
    · subst hname
      simp
    · rw [if_neg hname]
      congr 1
      funext other
      by_cases hother : other.name = name
      · simp [hother, Ne.symm hname]
      · simp [hother]
  rw [find?, insert, List.find?_append, hkept]
  by_cases hname : m.name = name <;> simp [hname]

theorem nodup_insert (h : (c.models.map (·.name)).Nodup) (m : Model) :
    ((c.insert m).models.map (·.name)).Nodup := by
  rw [insert, List.map_append, List.map_singleton]
  refine List.nodup_append.mpr ⟨h.sublist (List.filter_sublist.map _), List.nodup_singleton _,
    fun a ha b hb => ?_⟩
  obtain ⟨other, hother, rfl⟩ := List.mem_map.mp ha
  rw [List.mem_singleton.mp hb]
  simpa using (List.mem_filter.mp hother).2

theorem ofModels_concat (models : List Model) (m : Model) :
    ofModels (models ++ [m]) = (ofModels models).insert m := by
  simp [ofModels]

theorem nodup_ofModels (models : List Model) : ((ofModels models).models.map (·.name)).Nodup := by
  induction models using List.reverseRecOn with
  | nil => exact List.nodup_nil
  | append_singleton models m ih => exact ofModels_concat models m ▸ nodup_insert ih m

/-- A catalog finds under a name the model that was added last. -/
theorem find?_ofModels (models : List Model) (name : String) :
    (ofModels models).find? name = latest? models name := by
  induction models using List.reverseRecOn with
  | nil => rfl
  | append_singleton models m ih =>
    rw [ofModels_concat, find?_insert, latest?_append, latest?_cons, ih]
    by_cases hname : m.name = name <;> simp [latest?, hname]

theorem mem_ofModels : m ∈ (ofModels models).models ↔ latest? models m.name = some m := by
  rw [← find?_ofModels]
  exact ⟨find?_of_mem (nodup_ofModels models), List.mem_of_find?_eq_some⟩

/-! ## The choice -/

/-- The larger models of a family are in one order only. -/
theorem larger_eq_of_perm (hperm : c.models.Perm d.models)
    (hdistinct : (c.models.map (·.name)).Nodup) (known : Model) :
    c.larger known = d.larger known := by
  refine List.Perm.eq_of_pairwise (fun a b ha hb hab hba => ?_) (pairwise_before_larger c known)
    (pairwise_before_larger d known) ?_
  · have hb : b ∈ c.models := hperm.mem_iff.mpr (mem_larger.mp hb).1
    exact List.inj_on_of_nodup_map hdistinct (mem_larger.mp ha).1 hb
      (Model.before_antisymm hab hba)
  · exact (List.mergeSort_perm _ _).trans
      ((hperm.filter _).trans (List.mergeSort_perm _ _).symm)

/-- The choice depends only on what was added last under each name. -/
theorem fallback?_congr (h : ∀ name, latest? others name = latest? models name)
    (name : String) (required : Nat) :
    (ofModels others).fallback? name required = (ofModels models).fallback? name required := by
  have hperm : (ofModels others).models.Perm (ofModels models).models := by
    refine (List.perm_ext_iff_of_nodup ((nodup_ofModels others).of_map _)
      ((nodup_ofModels models).of_map _)).mpr fun m => ?_
    rw [mem_ofModels, mem_ofModels, h]
  have hlarger := larger_eq_of_perm hperm (nodup_ofModels others)
  simp only [fallback?, find?_ofModels, h, hlarger]

/-- A model of the family of another one with a larger limit. It was not replaced. -/
structure Roomier (models : List Model) (known m : Model) : Prop where
  latest : latest? models m.name = some m
  related : m.family = known.family
  larger : known.limit < m.limit

theorem mem_larger_ofModels : m ∈ (ofModels models).larger known ↔ Roomier models known m := by
  rw [mem_larger, mem_ofModels]
  exact ⟨fun ⟨hlatest, hfamily, hlimit⟩ => ⟨hlatest, hfamily, hlimit⟩,
    fun h => ⟨h.latest, h.related, h.larger⟩⟩

/-- The smallest roomier model that holds the tokens, and among equal ones the first by name. -/
structure Smallest (models : List Model) (known : Model) (required : Nat) (target : Model) :
    Prop where
  holds : required ≤ target.limit
  least : ∀ m, Roomier models known m → required ≤ m.limit →
    target.limit < m.limit ∨ target.limit = m.limit ∧ target.name ≤ m.name

/-- None of the roomier models holds the tokens, and this one comes closest. -/
structure Largest (models : List Model) (known : Model) (required : Nat) (target : Model) :
    Prop where
  short : ∀ m, Roomier models known m → m.limit < required
  most : ∀ m, Roomier models known m → m.limit ≤ target.limit

/-- Which model is chosen after models were added one by one. -/
structure Chooses (models : List Model) (name : String) (required : Nat)
    (choice : Option Model) : Prop where
  none_iff : choice = none ↔ latest? models name = none ∨
    ∃ known, latest? models name = some known ∧ ∀ m, ¬ Roomier models known m
  chosen : ∀ target, choice = some target → ∃ known, latest? models name = some known ∧
    Roomier models known target ∧
      (Smallest models known required target ∨ Largest models known required target)

/-- The first of the sorted larger models that holds the tokens is the smallest one that does. -/
theorem smallest_of_find?
    (h : ((ofModels models).larger known).find? (required ≤ ·.limit) = some target) :
    Smallest models known required target := by
  obtain ⟨htarget, front, back, hsplit, hfront⟩ := List.find?_eq_some_iff_append.mp h
  refine ⟨of_decide_eq_true htarget, fun m hm hholds => ?_⟩
  have hsorted := pairwise_before_larger (ofModels models) known
  rw [hsplit] at hsorted
  have hmem := hsplit ▸ mem_larger_ofModels.mpr hm
  rcases List.mem_append.mp hmem with hmem | hmem
  · exact absurd hholds (by simpa using hfront m hmem)
  · rcases List.mem_cons.mp hmem with rfl | hmem
    · exact .inr ⟨rfl, String.le_refl _⟩
    · have hbefore := (List.pairwise_cons.mp (List.pairwise_append.mp hsorted).2.1).1 m hmem
      simpa [Model.before] using hbefore

/-- The last of the sorted larger models is the largest one. -/
theorem largest_of_getLast?
    (hnone : ((ofModels models).larger known).find? (required ≤ ·.limit) = none)
    (hlast : ((ofModels models).larger known).getLast? = some target) :
    Largest models known required target := by
  refine ⟨fun m hm => ?_, fun m hm => ?_⟩
  · have hshort := List.find?_eq_none.mp hnone m (mem_larger_ofModels.mpr hm)
    simpa using hshort
  · have hsorted := pairwise_larger (ofModels models) known
    obtain ⟨front, hsplit⟩ := List.getLast?_eq_some_iff.mp hlast
    rw [hsplit] at hsorted
    have hmem := hsplit ▸ mem_larger_ofModels.mpr hm
    rcases List.mem_append.mp hmem with hmem | hmem
    · exact (List.pairwise_append.mp hsorted).2.2 m hmem target (List.mem_singleton.mpr rfl)
    · exact Nat.le_of_eq (congrArg Model.limit (List.mem_singleton.mp hmem))

theorem chooses_fallback? (models : List Model) (name : String) (required : Nat) :
    Chooses models name required ((ofModels models).fallback? name required) := by
  rw [fallback?, find?_ofModels]
  cases hknown : latest? models name with
  | none => exact ⟨by simp [hknown], nofun⟩
  | some known =>
    rw [Option.bind_eq_bind, Option.bind_some]
    refine ⟨?_, fun target htarget => ⟨known, hknown, ?_⟩⟩
    · have hnone : (((ofModels models).larger known).find? (required ≤ ·.limit)).or
          ((ofModels models).larger known).getLast? = none ↔ (ofModels models).larger known = [] := by
        rw [Option.or_eq_none_iff, List.getLast?_eq_none_iff]
        exact ⟨And.right, fun h => ⟨by rw [h]; rfl, h⟩⟩
      rw [hnone, List.eq_nil_iff_forall_not_mem]
      simp only [mem_larger_ofModels, hknown, reduceCtorEq, Option.some.injEq, false_or,
        exists_eq_left']
    · rcases Option.or_eq_some_iff.mp htarget with hfirst | ⟨hnone, hlast⟩
      · exact ⟨mem_larger_ofModels.mp (List.mem_of_find?_eq_some hfirst),
          .inl (smallest_of_find? hfirst)⟩
      · exact ⟨mem_larger_ofModels.mp (List.mem_of_getLast? hlast),
          .inr (largest_of_getLast? hnone hlast)⟩

/-- A catalog chooses the smallest larger model of the family that holds the tokens, else a largest
one. Models of different names may be added in any order, and what was added under a name before
its last model does not count. -/
theorem ofModels_chooses (models : List Model) (name : String) (required : Nat) :
    Chooses models name required ((ofModels models).fallback? name required) ∧
      (∀ others, models.Perm others → (models.map (·.name)).Nodup →
        (ofModels others).fallback? name required = (ofModels models).fallback? name required) ∧
      ∀ before m after, models = before ++ m :: after →
        (ofModels (before.filter (·.name != m.name) ++ m :: after)).fallback? name required =
          (ofModels models).fallback? name required := by
  refine ⟨chooses_fallback? models name required, fun others hperm hdistinct => ?_, ?_⟩
  · exact fallback?_congr (latest?_perm hperm hdistinct) name required
  · rintro before m after rfl
    exact fallback?_congr (latest?_readded before m after) name required

/-- A family with two models of equal limit. -/
def twins : List Model := [⟨"small", "acme", 10⟩, ⟨"a", "acme", 20⟩, ⟨"b", "acme", 20⟩]

/-- Of two equal models the first by name is chosen in every order, and a larger limit that `small`
had before does not count. -/
theorem ofModels_chooses_twins :
    twins.Perm twins.reverse ∧ (twins.map (·.name)).Nodup ∧
      Chooses twins "small" 15 (some ⟨"a", "acme", 20⟩) ∧
      (ofModels twins.reverse).fallback? "small" 15 = some ⟨"a", "acme", 20⟩ ∧
      (ofModels (⟨"small", "acme", 30⟩ :: twins)).fallback? "small" 15 =
        some ⟨"a", "acme", 20⟩ := by
  have hperm : twins.Perm twins.reverse := twins.reverse_perm.symm
  have hdistinct : (twins.map (·.name)).Nodup := by decide
  have hchoice : (ofModels twins).fallback? "small" 15 = some ⟨"a", "acme", 20⟩ := by
    have hlarger : (ofModels twins).larger ⟨"small", "acme", 10⟩ =
        [⟨"a", "acme", 20⟩, ⟨"b", "acme", 20⟩] :=
      List.mergeSort_of_pairwise (by decide +kernel)
    have hknown : (ofModels twins).find? "small" = some ⟨"small", "acme", 10⟩ := by
      decide +kernel
    rw [fallback?, hknown, Option.bind_eq_bind, Option.bind_some, hlarger]
    decide
  obtain ⟨hchosen, hordered, -⟩ := ofModels_chooses twins "small" 15
  have hreadded := (ofModels_chooses (⟨"small", "acme", 30⟩ :: twins) "small" 15).2.2
    [⟨"small", "acme", 30⟩] ⟨"small", "acme", 10⟩ _ rfl
  exact ⟨hperm, hdistinct, hchoice ▸ hchosen, (hordered _ hperm hdistinct).trans hchoice,
    hreadded.symm.trans hchoice⟩

end Catalog
end ContextBudget
