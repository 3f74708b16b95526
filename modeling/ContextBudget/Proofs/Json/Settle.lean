import ContextBudget.Json.Decode

/-!
# Settled objects

A reader of whole values settles an object: the last field of a name wins, and the names are in
order. So each name stands for one value there, and a record can always be read.

- `field?_setField`: setting a field changes what its name stands for, and no other name.
- `field?_settle`: in a settled object a name stands for what it stood for before, settled.
- `exists_record`: a record can be read from a settled object, with the fields of the object.
-/

namespace ContextBudget
namespace Json

variable {name other : String} {value : Json} {fields known : List (String × Json)}

@[simp] theorem field?_nil : (obj []).field? name = none := rfl

theorem field?_cons : (obj ((other, value) :: fields)).field? name =
    ((obj fields).field? name).or (if other = name then some value else none) := by
  simp only [field?, List.reverse_cons, List.find?_append]
  by_cases h : other = name <;>
    cases fields.reverse.find? (·.1 == name) <;> simp [h]

theorem field?_eq_none (h : ∀ f ∈ fields, f.1 ≠ name) : (obj fields).field? name = none := by
  induction fields with
  | nil => rfl
  | cons f rest ih =>
    rw [field?_cons, ih fun f' hf' => h f' (List.mem_cons_of_mem _ hf'),
      if_neg (h f List.mem_cons_self), Option.none_or]

/-! ## Fields in order -/

/-- The names of fields are in order, none of them twice. -/
def InOrder (fields : List (String × Json)) : Prop := fields.Pairwise fun a b => a.1 < b.1

theorem InOrder.rest {f : String × Json} (h : InOrder (f :: fields)) : InOrder fields :=
  (List.pairwise_cons.mp h).2

theorem InOrder.field?_rest (h : InOrder ((name, value) :: fields)) :
    (obj fields).field? name = none :=
  field?_eq_none fun f hf heq => by
    have hless := (List.pairwise_cons.mp h).1 f hf
    rw [heq] at hless
    exact String.lt_irrefl _ hless

theorem mem_setField {f : String × Json} (h : f ∈ setField name value fields) :
    f = (name, value) ∨ f ∈ fields := by
  induction fields with
  | nil => exact .inl (List.mem_singleton.mp h)
  | cons g rest ih =>
    rw [setField] at h
    split at h
    · exact List.mem_cons.mp h
    · split at h
      · exact (List.mem_cons.mp h).imp_right (List.mem_cons_of_mem _)
      · rcases List.mem_cons.mp h with rfl | h
        · exact .inr List.mem_cons_self
        · exact (ih h).imp_right (List.mem_cons_of_mem _)

theorem InOrder.setField (h : InOrder fields) : InOrder (setField name value fields) := by
  induction fields with
  | nil => exact List.pairwise_singleton _ _
  | cons g rest ih =>
    obtain ⟨hfirst, hrest⟩ := List.pairwise_cons.mp h
    rw [Json.setField]
    split
    · rename_i hless
      refine List.pairwise_cons.mpr ⟨fun f hf => ?_, h⟩
      rcases List.mem_cons.mp hf with rfl | hf
      · exact hless
      · exact String.lt_trans hless (hfirst f hf)
    · rename_i hnot
      split
      · rename_i heq
        exact List.pairwise_cons.mpr ⟨fun f hf => heq ▸ hfirst f hf, hrest⟩
      · rename_i hne
        refine List.pairwise_cons.mpr ⟨fun f hf => ?_, ih hrest⟩
        rcases mem_setField hf with rfl | hf
        · exact Std.lt_of_le_of_ne (String.not_lt.mp hnot) hne
        · exact hfirst f hf

/-- Setting a field changes what its name stands for, and no other name. -/
theorem field?_setField (h : InOrder fields) : (obj (setField name value fields)).field? other =
    if name = other then some value else (obj fields).field? other := by
  induction fields with
  | nil => rw [setField, field?_cons, field?_nil, Option.none_or]
  | cons g rest ih =>
    obtain ⟨n, v⟩ := g
    rw [setField]
    split
    · rename_i hless
      rw [field?_cons]
      by_cases hname : name = other
      · subst hname
        have hnone : (obj ((n, v) :: rest)).field? name = none := by
          refine field?_eq_none fun f hf heq => ?_
          have hafter : name < f.1 := by
            rcases List.mem_cons.mp hf with rfl | hf
            · exact hless
            · exact String.lt_trans hless ((List.pairwise_cons.mp h).1 f hf)
          rw [heq] at hafter
          exact String.lt_irrefl _ hafter
        simp [hnone]
      · simp [hname]
    · split
      · rename_i heq
        subst heq
        by_cases hname : n = other
        · subst hname
          rw [field?_cons, h.field?_rest, if_pos rfl, if_pos rfl, Option.none_or]
        · simp [field?_cons, hname]
      · rename_i hne
        rw [field?_cons, ih h.rest, field?_cons]
        by_cases hname : name = other
        · subst hname
          simp [hne]
        · simp [hname]

theorem inOrder_foldl (h : InOrder known) :
    InOrder (fields.foldl (fun known f => setField f.1 f.2 known) known) := by
  induction fields generalizing known with
  | nil => exact h
  | cons f rest ih => exact ih h.setField

theorem field?_foldl (h : InOrder known) :
    (obj (fields.foldl (fun known f => setField f.1 f.2 known) known)).field? name =
      ((obj fields).field? name).or ((obj known).field? name) := by
  induction fields generalizing known with
  | nil => rfl
  | cons f rest ih =>
    obtain ⟨n, v⟩ := f
    rw [List.foldl_cons, ih h.setField, field?_setField h, field?_cons, Option.or_assoc]
    congr 1
    by_cases hname : n = name <;> simp [hname]

/-! ## Lists -/

/-- A list is read if its items are. -/
theorem list?_map {α : Type} {encode : α → Json} {decode : Json → Option α} {l : List α}
    (h : ∀ a ∈ l, decode (encode a) = some a) : list? decode (arr (l.map encode)) = some l := by
  change (l.map encode).mapM decode = some l
  induction l with
  | nil => rfl
  | cons a l ih =>
    have hrest := ih fun b hb => h b (List.mem_cons_of_mem a hb)
    simp [List.mapM_cons, h a List.mem_cons_self, hrest]

theorem settleItems_map {α : Type} (encode : α → Json) (l : List α) :
    settleItems (l.map encode) = l.map fun a => (encode a).settle := by
  induction l with
  | nil => rfl
  | cons a l ih => rw [List.map_cons, settleItems, ih, List.map_cons]

/-! ## Settled values -/

theorem field?_settleFields :
    (obj (settleFields fields)).field? name = ((obj fields).field? name).map settle := by
  induction fields with
  | nil => rfl
  | cons f rest ih =>
    obtain ⟨n, v⟩ := f
    rw [settleFields, field?_cons, field?_cons, ih, Option.map_or]
    by_cases hname : n = name <;> simp [hname]

/-- The fields of a settled object. -/
def settled (fields : List (String × Json)) : List (String × Json) :=
  (settleFields fields).foldl (fun known f => setField f.1 f.2 known) []

theorem settle_obj : (obj fields).settle = obj (settled fields) := by rw [settle, settled]

theorem inOrder_settled : InOrder (settled fields) := inOrder_foldl .nil

/-- In a settled object a name stands for what it stood for before, settled. -/
theorem field?_settle (v : Json) (name : String) :
    v.settle.field? name = (v.field? name).map settle := by
  cases v with
  | obj fields =>
    rw [settle_obj, settled, field?_foldl .nil, field?_settleFields, field?_nil, Option.or_none]
  | arr items => rfl
  | _ => rfl

end Json

namespace Record

open Json

variable {names : List String} {fields : List (String × Json)} {name : String}

theorem countP_le_one (h : InOrder fields) (name : String) :
    fields.countP (·.1 == name) ≤ 1 := by
  induction fields with
  | nil => exact Nat.zero_le 1
  | cons f rest ih =>
    rw [List.countP_cons]
    by_cases hname : f.1 = name
    · have hnone : rest.countP (·.1 == name) = 0 := by
        refine List.countP_eq_zero.mpr fun f' hf' heq => ?_
        have hless := (List.pairwise_cons.mp h).1 f' hf'
        rw [eq_of_beq heq, hname] at hless
        exact String.lt_irrefl _ hless
      simp [hnone, hname]
    · simpa [hname] using ih h.rest

theorem find?_eq_field? (h : InOrder fields) (name : String) :
    (fields.find? (·.1 == name)).map (·.2) = (obj fields).field? name := by
  induction fields with
  | nil => rfl
  | cons f rest ih =>
    obtain ⟨n, v⟩ := f
    rw [field?_cons]
    by_cases hname : n = name
    · subst hname
      simp [h.field?_rest]
    · simp [hname, ih h.rest]

/-- A record can be read from a settled object, and has the fields of the object. -/
theorem exists_record (names : List String) (fields : List (String × Json)) :
    ∃ r, Record.ofJson? names (obj fields).settle = some r ∧ r.positional = false ∧
      ∀ name ∈ names, r.get? name = ((obj fields).field? name).map settle := by
  have horder : InOrder ((settled fields).filter fun f => names.contains f.1) :=
    inOrder_settled.filter _
  refine ⟨⟨(settled fields).filter fun f => names.contains f.1, false⟩, ?_, rfl,
    fun name hname => ?_⟩
  · rw [settle_obj, Record.ofJson?]
    exact if_pos (List.all_eq_true.mpr fun n _ => decide_eq_true (countP_le_one horder n))
  · rw [Record.get?, List.find?_filter, ← field?_settle, settle_obj,
      ← find?_eq_field? inOrder_settled]
    congr 2
    funext f
    by_cases hf : f.1 = name
    · simp [hf, hname]
    · simp [hf]

end Record
end ContextBudget
