import ContextBudget.Proofs.Run.Views

/-!
# The sink of a run

What is emitted is all that the sink hears of, as long as no other service touches it.

- `Hears`: a view of the services' state that shows what was emitted, and nothing else.
- `Emitted.heard`: an event that is emitted comes last in what is seen.
-/

namespace ContextBudget

open BudgetM

variable {σ : Type}

/-- A view of the services' state that shows the events which the sink was given: each event comes
last when it is emitted, and no other service changes what is seen. -/
structure Pipeline.Hears (p : Pipeline σ) (seen : σ → List Event) : Prop where
  counter : p.tokenizers.Leaves seen
  store : ∀ handle, KeepsCall seen (p.keeper.store handle)
  prune : ∀ request, KeepsCall seen (p.redactor.prune request)
  summarize : ∀ summarize, p.summarizer = some summarize →
    ∀ text most, KeepsCall seen (summarize text most)
  now : KeepsCall seen p.now
  emit : ∀ e w, seen ((p.emit e).run w).2 = seen w ++ [e]

namespace Pipeline

variable {p : Pipeline σ} {seen : σ → List Event}

theorem Emitted.heard {e : Event} {w w' : σ} (h : p.Emitted e w w') (hears : p.Hears seen) :
    seen w' = seen w ++ [e] := by
  obtain ⟨w₁, hnow, hemit⟩ := h
  have hclock := hears.now w
  have hlast := hears.emit e w₁
  rw [hnow] at hclock
  rw [hemit] at hlast
  rw [hlast, hclock]

/-! ## A pipeline that only counts -/

/-- A pipeline whose other services all fail, and whose state is what was emitted. It counts
letters. -/
def lettersOnly (catalog : Catalog) : Pipeline (List Event) where
  settings := .standard
  counters := [("letters", fun text => return .answer text.length)]
  keeper := ⟨fun _ => return .failure (.unavailable ""), fun _ => return .failure (.unavailable "")⟩
  redactor := ⟨fun _ => return .never, fun request => return .error (.recordUnknown request.id)⟩
  summarizer := none
  catalog := catalog
  emit e := modify (· ++ [e])
  now := return ⟨0, 0⟩

theorem lettersOnly_hears (catalog : Catalog) : (lettersOnly catalog).Hears id where
  counter c hc text w := by
    obtain rfl := List.mem_singleton.mp hc
    rfl
  store _ _ := rfl
  prune _ _ := rfl
  summarize _ h := nomatch h
  now _ := rfl
  emit _ _ := rfl

/-- A greeting, with nothing reserved for the answer. -/
def greeting : RunRequest := ⟨"s", "small", [.of .user "hello"], none, none, some 0⟩

/-- Two models of one family. -/
def twoModels : Catalog := ⟨[⟨"small", "letters", 4⟩, ⟨"large", "letters", 100⟩]⟩

end Pipeline
end ContextBudget
