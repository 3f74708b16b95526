import ContextBudget.Service

/-!
# Computations with services

A computation is read step by step: what it gave, and the services' state after it. A `_ran` lemma
takes the result of a computation and gives back what it was made from.

- `bind_ran`: the two parts of a computation that went through.
- `bind_failed`: the part in which a computation failed.
- `Keeps`: a part of the services' state that a computation leaves as it is.
-/

namespace ContextBudget
namespace BudgetM

variable {σ α β γ : Type} {w w' : σ}

/-- What a computation gives, and the services' state after it. -/
def exec (m : BudgetM σ α) (w : σ) : Except BudgetError α × σ := m.run.run w

theorem exec_bind (m : BudgetM σ α) (f : α → BudgetM σ β) (w : σ) :
    exec (m >>= f) w = match exec m w with
      | (.ok a, w₁) => exec (f a) w₁
      | (.error e, w₁) => (.error e, w₁) := by
  rw [exec, ExceptT.run_bind, StateT.run_bind]
  change _ = match m.run.run w with
    | (.ok a, w₁) => exec (f a) w₁
    | (.error e, w₁) => (.error e, w₁)
  obtain ⟨_ | a, w₁⟩ := m.run.run w <;> rfl

theorem bind_ran {m : BudgetM σ α} {f : α → BudgetM σ β} {b : β}
    (h : exec (m >>= f) w = (.ok b, w')) :
    ∃ a w₁, exec m w = (.ok a, w₁) ∧ exec (f a) w₁ = (.ok b, w') := by
  rw [exec_bind] at h
  split at h
  · exact ⟨_, _, ‹_›, h⟩
  · cases h

/-- A call after a call. -/
theorem call_ran {m : StateM σ α} {f : α → StateM σ β} {out : β × σ}
    (h : (m >>= f).run w = out) : ∃ a w₁, m.run w = (a, w₁) ∧ (f a).run w₁ = out :=
  ⟨_, _, rfl, h⟩

theorem pure_ran {a b : α} (h : exec (pure a : BudgetM σ α) w = (.ok b, w')) : b = a ∧ w' = w := by
  cases h
  exact ⟨rfl, rfl⟩

theorem lift_ran {m : StateM σ α} {a : α} (h : exec (liftM m : BudgetM σ α) w = (.ok a, w')) :
    m.run w = (a, w') := by
  cases h
  rfl

/-- A computation that does not fail gives a value. -/
theorem ran_of_isSome {m : BudgetM σ α} (h : (exec m w).1.toOption.isSome = true) :
    ∃ a w', exec m w = (.ok a, w') := by
  cases hout : exec m w with
  | mk out w' =>
    rw [hout] at h
    cases out with
    | error e => cases h
    | ok a => exact ⟨a, w', rfl⟩

/-- A value that a computation gives. -/
theorem ran_of_toOption {m : BudgetM σ α} {a : α} (h : (exec m w).1.toOption = some a) :
    ∃ w', exec m w = (.ok a, w') := by
  obtain ⟨b, w', hb⟩ := ran_of_isSome (h ▸ rfl : (exec m w).1.toOption.isSome = true)
  rw [hb] at h
  obtain rfl := Option.some.inj h
  exact ⟨w', hb⟩

/-- A computation gives a value that passes a test. -/
theorem ran_of_any {m : BudgetM σ α} {P : α → Prop} [DecidablePred P]
    (h : ((exec m w).1.toOption.any fun a => P a) = true) :
    ∃ a w', exec m w = (.ok a, w') ∧ P a := by
  obtain ⟨a, ha, hP⟩ := (Option.any_eq_true ..).mp h
  obtain ⟨w', hran⟩ := ran_of_toOption ha
  exact ⟨a, w', hran, of_decide_eq_true hP⟩

/-- A failure that is caught is a value. -/
theorem catch_ran {m : BudgetM σ α} {a : Except BudgetError α}
    (h : exec (ExceptT.lift m.run : BudgetM σ (Except BudgetError α)) w = (.ok a, w')) :
    exec m w = (a, w') := by
  change (Except.ok (exec m w).1, (exec m w).2) = _ at h
  obtain ⟨hvalue, hstate⟩ := Prod.mk.inj h
  exact Prod.ext (Except.ok.inj hvalue) hstate

/-! ## Failures -/

/-- A computation fails in the first or the second of its parts. -/
theorem bind_failed {m : BudgetM σ α} {f : α → BudgetM σ β} {e : BudgetError}
    (h : exec (m >>= f) w = (.error e, w')) :
    exec m w = (.error e, w') ∨
      ∃ a w₁, exec m w = (.ok a, w₁) ∧ exec (f a) w₁ = (.error e, w') := by
  rw [exec_bind] at h
  split at h
  · exact .inr ⟨_, _, ‹_›, h⟩
  · cases h
    exact .inl ‹_›

theorem pure_failed {a : α} {e : BudgetError}
    (h : exec (pure a : BudgetM σ α) w = (.error e, w')) : False := by
  cases h

/-- A call does not fail; what a service reports is a value. -/
theorem lift_failed {m : StateM σ α} {e : BudgetError}
    (h : exec (liftM m : BudgetM σ α) w = (.error e, w')) : False := by
  cases h

/-- After a part that does not fail, it is the rest that fails. -/
theorem call_failed {m : StateM σ α} {f : α → BudgetM σ β} {e : BudgetError}
    (h : exec (liftM m >>= f) w = (.error e, w')) :
    ∃ a w₁, m.run w = (a, w₁) ∧ exec (f a) w₁ = (.error e, w') := by
  rcases bind_failed h with hcall | ⟨a, w₁, hcall, hrest⟩
  · exact (lift_failed hcall).elim
  · exact ⟨a, w₁, lift_ran hcall, hrest⟩

/-- Before a part that does not fail, it is the first one that fails. -/
theorem failed_of_bind_pure {m : BudgetM σ α} {f : α → β} {e : BudgetError}
    (h : exec (m >>= fun a => pure (f a)) w = (.error e, w')) : exec m w = (.error e, w') := by
  rcases bind_failed h with hfirst | ⟨a, w₁, -, hlast⟩
  · exact hfirst
  · exact (pure_failed hlast).elim

/-! ## What a computation leaves as it is -/

/-- A computation leaves a view of the services' state as it is, whether it fails or not. -/
def Keeps (view : σ → γ) (m : BudgetM σ α) : Prop := ∀ w, view (exec m w).2 = view w

/-- A call leaves a view of the services' state as it is. -/
def KeepsCall (view : σ → γ) (m : StateM σ α) : Prop := ∀ w, view (m.run w).2 = view w

variable {view : σ → γ}

namespace KeepsCall

theorem ran {m : StateM σ α} {a : α} (h : KeepsCall view m) (hm : m.run w = (a, w')) :
    view w' = view w := by
  have hkept := h w
  rwa [hm] at hkept

theorem pure (a : α) : KeepsCall view (pure a : StateM σ α) := fun _ => rfl

theorem bind {m : StateM σ α} {f : α → StateM σ β} (hm : KeepsCall view m)
    (hf : ∀ a, KeepsCall view (f a)) : KeepsCall view (m >>= f) :=
  fun w => (hf _ _).trans (hm w)

end KeepsCall

namespace Keeps

theorem ran {m : BudgetM σ α} {out : Except BudgetError α} (h : Keeps view m)
    (hm : exec m w = (out, w')) : view w' = view w := by
  have hkept := h w
  rwa [hm] at hkept

theorem pure (a : α) : Keeps view (pure a : BudgetM σ α) := fun _ => rfl

theorem throw (e : BudgetError) : Keeps view (throw e : BudgetM σ α) := fun _ => rfl

theorem lift {m : StateM σ α} (h : KeepsCall view m) : Keeps view (liftM m : BudgetM σ α) := h

theorem bind {m : BudgetM σ α} {f : α → BudgetM σ β} (hm : Keeps view m)
    (hf : ∀ a, Keeps view (f a)) : Keeps view (m >>= f) := by
  intro w
  have hfirst := hm w
  rw [exec_bind]
  split
  · rename_i a w₁ heq
    rw [heq] at hfirst
    exact (hf a w₁).trans hfirst
  · rename_i e w₁ heq
    rwa [heq] at hfirst

theorem foldlM {f : β → α → BudgetM σ β} (hf : ∀ b a, Keeps view (f b a)) (b : β) (l : List α) :
    Keeps view (l.foldlM f b) := by
  induction l generalizing b with
  | nil => exact .pure b
  | cons a rest ih =>
    rw [List.foldlM_cons]
    exact .bind (hf b a) ih

end Keeps

end BudgetM
end ContextBudget
