import ContextBudget.Masking.Pass
import ContextBudget.Proofs.Rewriting
import ContextBudget.Proofs.Tokens.Exact
import Mathlib.Data.List.Induction

/-!
# What a masking pass does

- `maskOne_cases`: all that a pass can do to a message, and when.
- `maskEach_exact`: a pass keeps the tally of the conversation exact.
- `Asks`: what the handle store is asked in a pass, and answers.
- `maskEach_rewrites`: a pass replaces the messages whose handles were stored, and no other ones.
- `maskEach_failed`: a pass fails only in the count of a placeholder.
-/

namespace ContextBudget
namespace Masking

open BudgetM

variable {σ : Type} {k : Masking σ} {family : String} {done done' : Masked} {m : Message}
  {index : Nat} {w w' : σ}

/-- The handle behind a message that is masked at a time. -/
def handleFor (k : Masking σ) (m : Message) (time : Moment) : Handle :=
  .of m.content (m.callId.getD "tool") k.config.previewChars time

/-- The message that is put in place of a masked one of so many tokens. -/
def standIn (m : Message) (handle : Handle) (tokens : Nat) : Message :=
  m.withContent (handle.placeholder tokens)

/-- What comes of a message in a pass. -/
inductive MaskedOne (k : Masking σ) (family : String) (done : Masked) (m : Message) (index : Nat)
    (w : σ) : Masked → σ → Prop where
  | left (spared : applies k.config m (done.tally.tokensAt index) = false) :
    MaskedOne k family done m index w done w
  | late (time : Moment) (w₁ : σ) (reply : Call String) (w' : σ)
    (due : applies k.config m (done.tally.tokensAt index) = true)
    (clock : k.now.run w = (time, w₁))
    (asked : (k.keeper.store (k.handleFor m time)).run w₁ = (reply, w'))
    (unanswered : reply.within k.config.storeLimit = none) :
    MaskedOne k family done m index w
      { done with warnings := done.warnings ++
        [notStored index ("store timed out after " ++ k.config.storeLimit.text)] } w'
  | refused (time : Moment) (w₁ : σ) (reply : Call String) (e : ServiceError) (w' : σ)
    (due : applies k.config m (done.tally.tokensAt index) = true)
    (clock : k.now.run w = (time, w₁))
    (asked : (k.keeper.store (k.handleFor m time)).run w₁ = (reply, w'))
    (refusal : reply.within k.config.storeLimit = some (.error e)) :
    MaskedOne k family done m index w
      { done with warnings := done.warnings ++ [notStored index e.message] } w'
  | stored (time : Moment) (w₁ : σ) (reply : Call String) (id : String) (w₂ : σ) (entry : Entry)
    (w' : σ) (due : applies k.config m (done.tally.tokensAt index) = true)
    (clock : k.now.run w = (time, w₁))
    (asked : (k.keeper.store (k.handleFor m time)).run w₁ = (reply, w₂))
    (answer : reply.within k.config.storeLimit = some (.ok id))
    (counted : exec (k.tokenizers.countMessage family
      (standIn m { k.handleFor m time with id } (done.tally.tokensAt index))) w₂ =
        (.ok entry, w')) :
    MaskedOne k family done m index w
      { done with
        messages := done.messages.set index
          (standIn m { k.handleFor m time with id } (done.tally.tokensAt index))
        tally := done.tally.replace index entry
        handles := done.handles ++ [{ k.handleFor m time with id }] } w'

theorem maskOne_cases (h : exec (k.maskOne family done m index) w = (.ok done', w')) :
    MaskedOne k family done m index w done' w' := by
  simp only [maskOne] at h
  split at h
  · rename_i spared
    obtain ⟨rfl, rfl⟩ := pure_ran h
    exact .left (by simpa using spared)
  · rename_i due
    have due : applies k.config m (done.tally.tokensAt index) = true := by simpa using due
    obtain ⟨time, w₁, hclock, h₁⟩ := bind_ran h
    obtain ⟨reply, w₂, hasked, h₂⟩ := bind_ran h₁
    have hclock := lift_ran hclock
    have hasked := lift_ran hasked
    split at h₂
    · obtain ⟨rfl, rfl⟩ := pure_ran h₂
      exact .late time w₁ reply _ due hclock hasked ‹_›
    · obtain ⟨rfl, rfl⟩ := pure_ran h₂
      exact .refused time w₁ reply _ _ due hclock hasked ‹_›
    · obtain ⟨entry, w₃, hcounted, h₃⟩ := bind_ran h₂
      obtain ⟨rfl, rfl⟩ := pure_ran h₃
      exact .stored time w₁ reply _ w₂ entry _ due hclock hasked ‹_› hcounted

/-- A pass over some messages of a conversation, with their places. -/
def maskEach (k : Masking σ) (family : String) (done : Masked) (items : List (Message × Nat)) :
    BudgetM σ Masked :=
  items.foldlM (fun done (m, i) => k.maskOne family done m i) done

theorem mask_eq (k : Masking σ) (family : String) (messages : Conversation) (tally : Tally) :
    k.mask family messages tally =
      k.maskEach family ⟨messages, tally, [], []⟩ messages.zipIdx := rfl

/-- A pass keeps a tally exact, if the tokens of the conversation stay below the number of words
wherever the pass comes to. -/
theorem maskEach_exact {count : String → String → Nat} (hcounters : k.tokenizers.CountsBy count)
    {items : List (Message × Nat)} (hexact : done.tally.Exact count family done.messages)
    (hsmall : ∀ items' done₁ w₁, items' <+: items →
      exec (k.maskEach family done items') w = (.ok done₁, w₁) →
      weight count family done₁.messages < Word.size)
    (h : exec (k.maskEach family done items) w = (.ok done', w')) :
    done'.tally.Exact count family done'.messages := by
  induction items generalizing done w with
  | nil =>
    obtain ⟨rfl, -⟩ := pure_ran h
    exact hexact
  | cons item rest ih =>
    rw [maskEach, List.foldlM_cons] at h
    obtain ⟨next, w₁, hone, hrest⟩ := bind_ran h
    have hprefix : ∀ items' done₁ w₂, items' <+: rest →
        exec (k.maskEach family next items') w₁ = (.ok done₁, w₂) →
        weight count family done₁.messages < Word.size := by
      intro items' done₁ w₂ hitems hrun
      refine hsmall (item :: items') done₁ w₂ (List.cons_prefix_cons.mpr ⟨rfl, hitems⟩) ?_
      rw [maskEach, List.foldlM_cons, exec_bind, hone]
      exact hrun
    refine ih ?_ hprefix hrest
    have hnext := hprefix [] next w₁ (List.nil_prefix) rfl
    cases maskOne_cases hone with
    | left => exact hexact
    | late => exact hexact
    | refused => exact hexact
    | stored time _ _ id _ entry _ due clock asked answer counted =>
      obtain rfl := Tokenizers.countMessage_ran hcounters counted
      exact hexact.set hnext

/-! ## What a pass asks and replaces -/

/-- In a pass over a conversation, the store is asked to keep the handle of a message that counts so
many tokens, and answers; then the services are in the last state given. -/
inductive Asks (k : Masking σ) (family : String) (messages : Conversation) (tally : Tally) (w : σ)
    (index : Nat) (m : Message) : Nat → Handle → Call String → σ → Prop where
  | intro {items : List (Message × Nat)} {done : Masked} {w₁ : σ} {time : Moment} {w₂ : σ}
    {reply : Call String} {w₃ : σ} (part : items ++ [(m, index)] <+: messages.zipIdx)
    (ran : exec (k.maskEach family ⟨messages, tally, [], []⟩ items) w = (.ok done, w₁))
    (due : applies k.config m (done.tally.tokensAt index) = true)
    (clock : k.now.run w₁ = (time, w₂))
    (asked : (k.keeper.store (k.handleFor m time)).run w₂ = (reply, w₃)) :
    Asks k family messages tally w index m (done.tally.tokensAt index) (k.handleFor m time) reply
      w₃

/-- In a pass over a conversation, the placeholder of a handle takes the place of a message: the
store answered in time with the handle's id. -/
inductive Masks (k : Masking σ) (family : String) (messages : Conversation) (tally : Tally)
    (w : σ) : Replacement → Prop where
  | intro {index : Nat} {m : Message} {tokens : Nat} {handle : Handle} {reply : Call String}
    {w' : σ} {id : String} (asks : k.Asks family messages tally w index m tokens handle reply w')
    (answer : reply.within k.config.storeLimit = some (.ok id)) :
    Masks k family messages tally w (.masked index m { handle with id } tokens)

variable {messages : Conversation} {tally : Tally}

/-- Only the results of tools are asked about. -/
theorem Asks.tool {tokens : Nat} {handle : Handle} {reply : Call String}
    (h : k.Asks family messages tally w index m tokens handle reply w') : m.role = .tool := by
  obtain ⟨-, -, due, -, -⟩ := h
  simp only [applies, Bool.and_eq_true, beq_iff_eq] at due
  exact due.1.1

/-- The item that follows a part of a conversation is the message at the part's end. -/
theorem getElem?_of_prefix {items : List (Message × Nat)}
    (part : items ++ [(m, index)] <+: messages.zipIdx) :
    index = items.length ∧ messages[index]? = some m := by
  obtain ⟨rest, hrest⟩ := part
  have hitem : messages.zipIdx[items.length]? = some (m, index) := by
    rw [← hrest, List.append_assoc, List.getElem?_append_right (Nat.le_refl _), Nat.sub_self]
    rfl
  obtain ⟨a, ha, heq⟩ := Option.map_eq_some_iff.mp (List.getElem?_zipIdx .. ▸ hitem)
  obtain ⟨rfl, rfl⟩ := Prod.mk.inj heq
  exact ⟨Nat.zero_add _, by rwa [Nat.zero_add]⟩

/-- A pass replaces the messages whose handles were stored, and no other ones. -/
theorem maskEach_rewrites {items : List (Message × Nat)} (part : items <+: messages.zipIdx)
    (h : exec (k.maskEach family ⟨messages, tally, [], []⟩ items) w = (.ok done, w')) :
    ∃ rs, Rewrites messages rs done.messages ∧ done.handles = rs.filterMap (·.handle?) ∧
      (rs = [] → done.tally = tally) ∧
      ∀ x ∈ rs, x.index < items.length ∧ k.Masks family messages tally w x := by
  induction items using List.reverseRecOn generalizing done w' with
  | nil =>
    obtain ⟨rfl, -⟩ := pure_ran h
    exact ⟨[], .nil, rfl, fun _ => rfl, by simp⟩
  | append_singleton items item ih =>
    obtain ⟨m, index⟩ := item
    obtain ⟨hindex, hm⟩ := getElem?_of_prefix part
    rw [maskEach, List.foldlM_append] at h
    obtain ⟨before, w₁, hbefore, hlast⟩ := bind_ran h
    obtain ⟨next, w₂, hone, hnext⟩ := bind_ran hlast
    obtain ⟨rfl, rfl⟩ := pure_ran hnext
    obtain ⟨rs, hrewrites, hhandles, hidle, hmasks⟩ :=
      ih ((List.prefix_append _ _).trans part) hbefore
    have hlater : ∀ x ∈ rs, x.index < (items ++ [(m, index)]).length ∧
        k.Masks family messages tally w x := fun x hx =>
      ⟨by rw [List.length_append]; exact Nat.lt_add_right _ (hmasks x hx).1, (hmasks x hx).2⟩
    cases maskOne_cases hone with
    | left => exact ⟨rs, hrewrites, hhandles, hidle, hlater⟩
    | late => exact ⟨rs, hrewrites, hhandles, hidle, hlater⟩
    | refused => exact ⟨rs, hrewrites, hhandles, hidle, hlater⟩
    | stored time _ reply id _ entry _ due clock asked answer counted =>
      -- The pass has not come to this place before, so what it replaces is the message given.
      have hfound : before.messages[index]? = some m := by
        rw [hrewrites.getElem?_of_not_mem fun x hx =>
          Nat.ne_of_lt (hindex ▸ (hmasks x hx).1), hm]
      let last : Replacement :=
        .masked index m { k.handleFor m time with id } (before.tally.tokensAt index)
      refine ⟨rs ++ [last], hrewrites.snoc last hfound, ?_, by simp, fun x hx => ?_⟩
      · rw [List.filterMap_append, hhandles]
        rfl
      · rcases List.mem_append.mp hx with hx | hx
        · exact hlater x hx
        · obtain rfl := List.mem_singleton.mp hx
          exact ⟨by simp [last, Replacement.index, hindex],
            .intro (.intro part hbefore due clock asked) answer⟩

/-! ## Why a pass fails -/

/-- Masking a message fails only in the count of its placeholder. -/
theorem maskOne_failed {e : BudgetError}
    (h : exec (k.maskOne family done m index) w = (.error e, w')) :
    ∃ time w₁ reply w₂ id, applies k.config m (done.tally.tokensAt index) = true ∧
      k.now.run w = (time, w₁) ∧ (k.keeper.store (k.handleFor m time)).run w₁ = (reply, w₂) ∧
      reply.within k.config.storeLimit = some (.ok id) ∧
      exec (k.tokenizers.counts family
        [({ k.handleFor m time with id }).placeholder (done.tally.tokensAt index)]) w₂ =
          (.error e, w') := by
  simp only [maskOne] at h
  split at h
  · exact (pure_failed h).elim
  · rename_i due
    obtain ⟨time, w₁, hclock, h₁⟩ := call_failed h
    obtain ⟨reply, w₂, hasked, h₂⟩ := call_failed h₁
    split at h₂
    · exact (pure_failed h₂).elim
    · exact (pure_failed h₂).elim
    · rename_i id answer
      have hcount := Tokenizers.countMessage_failed (failed_of_bind_pure h₂)
      exact ⟨time, w₁, reply, w₂, id, by simpa using due, hclock, hasked, answer, hcount⟩

/-- A pass fails only in the count of a placeholder. -/
theorem maskEach_failed {e : BudgetError} {items : List (Message × Nat)}
    (part : items <+: messages.zipIdx)
    (h : exec (k.maskEach family ⟨messages, tally, [], []⟩ items) w = (.error e, w')) :
    ∃ index m tokens handle reply w₁ id,
      k.Asks family messages tally w index m tokens handle reply w₁ ∧
      reply.within k.config.storeLimit = some (.ok id) ∧
      exec (k.tokenizers.counts family [({ handle with id }).placeholder tokens]) w₁ =
        (.error e, w') := by
  induction items using List.reverseRecOn with
  | nil => exact (pure_failed h).elim
  | append_singleton items item ih =>
    obtain ⟨m, index⟩ := item
    rw [maskEach, List.foldlM_append] at h
    rcases bind_failed h with hbefore | ⟨done, w₁, hran, hlast⟩
    · exact ih ((List.prefix_append _ _).trans part) hbefore
    · obtain ⟨time, w₂, reply, w₃, id, due, hclock, hasked, answer, hcount⟩ :=
        maskOne_failed (failed_of_bind_pure hlast)
      exact ⟨index, m, _, _, reply, w₃, id, .intro part hran due hclock hasked, answer, hcount⟩

end Masking
end ContextBudget
