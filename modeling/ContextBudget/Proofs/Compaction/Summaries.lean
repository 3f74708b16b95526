import ContextBudget.Proofs.Compaction.Splice

/-!
# Summaries of a conversation that grows

A conversation that is compacted again and again holds one summary at most. An earlier one is the
first message that is not the system's, so it gives way as soon as any message does.

- `LeadsOnly`: only the first message that is not the system's may be a summary.
- `LeadsOnly.said`, `LeadsOnly.compacts`: new messages and compactions keep it so.
- `grows_singleSummary`: what holds of the summaries of a conversation however it has grown.
-/

namespace ContextBudget
namespace Compaction

open BudgetM

variable {σ : Type} {tokenizers : Tokenizers σ} {summarize : Summarizer σ}
  {config : CompactionConfig} {family : String} {start messages : Conversation} {tally : Tally}
  {m : Message} {c : Compacted} {w w' : σ}

/-- A conversation comes from another one by new messages at its end, none of which is a summary,
and by compactions with whatever services and settings. One that fails changes nothing. -/
inductive Grows (start : Conversation) : Conversation → Prop where
  | start : Grows start start
  | said {messages : Conversation} {m : Message} (before : Grows start messages)
    (plain : m.isSummary = false) : Grows start (messages ++ [m])
  | compacted {messages : Conversation} {σ : Type} {tokenizers : Tokenizers σ}
    {summarize : Summarizer σ} {config : CompactionConfig} {family : String} {tally : Tally}
    {w : σ} {c : Compacted} {w' : σ} (before : Grows start messages)
    (ran : exec (compact tokenizers summarize config family messages tally) w = (.ok c, w')) :
    Grows start c.messages

/-- Of the messages that are not the system's, only the first may be a summary. -/
def LeadsOnly (messages : Conversation) : Prop :=
  ∀ m ∈ (messages.filter (!·.isSystem)).tail, m.isSummary = false

theorem isSystem_of_isSummary (h : m.isSummary = true) : m.isSystem = false := by
  obtain ⟨hrole, -⟩ := (Bool.and_eq_true _ _).mp h
  simp [Message.isSystem, eq_of_beq hrole]

theorem isSummary_summaryMessage (config : CompactionConfig) (first : Message) (n : Nat)
    (text : String) : (summaryMessage config first n text).isSummary = true := by
  have hopens : (summaryMessage config first n text).opensAsSummary = true := by
    simp [summaryMessage, Message.opensAsSummary, Message.of, Text.opensWith, String.toList_append]
  simpa [Message.isSummary, summaryMessage, Message.of] using hopens

/-! ## What a summary that leads means -/

/-- Summaries are among the messages that are not the system's. -/
theorem countP_isSummary (messages : Conversation) :
    messages.countP (·.isSummary) = (messages.filter (!·.isSystem)).countP (·.isSummary) := by
  rw [List.countP_filter]
  refine List.countP_congr fun m _ => ⟨fun h => ?_, fun h => ((Bool.and_eq_true _ _).mp h).1⟩
  simp [h, isSystem_of_isSummary h]

theorem LeadsOnly.countP_le_one (h : LeadsOnly messages) :
    messages.countP (·.isSummary) ≤ 1 := by
  rw [countP_isSummary]
  unfold LeadsOnly at h
  cases hspoken : messages.filter (!·.isSystem) with
  | nil => exact Nat.zero_le 1
  | cons first rest =>
    rw [hspoken, List.tail_cons] at h
    have hrest : rest.countP (·.isSummary) = 0 :=
      List.countP_eq_zero.mpr fun m hm => by simp [h m hm]
    rw [List.countP_cons, hrest, Nat.zero_add]
    split <;> decide

/-- What stands before a summary is the system's. -/
theorem LeadsOnly.isSystem_before {before after : Conversation} {summary : Message}
    (h : LeadsOnly (before ++ summary :: after)) (hsummary : summary.isSummary = true) :
    ∀ m ∈ before, m.isSystem = true := by
  intro m hm
  by_contra hspoken
  have hfirst : m ∈ before.filter (!·.isSystem) := List.mem_filter.mpr ⟨hm, by simpa using hspoken⟩
  unfold LeadsOnly at h
  rw [List.filter_append, List.filter_cons_of_pos (by simp [isSystem_of_isSummary hsummary]),
    List.tail_append_of_ne_nil (List.ne_nil_of_mem hfirst)] at h
  have hplain := h summary (List.mem_append_right _ List.mem_cons_self)
  rw [hsummary] at hplain
  cases hplain

/-! ## What keeps it so -/

theorem leadsOnly_of_plain (h : ∀ m ∈ messages, m.isSummary = false) : LeadsOnly messages :=
  fun m hm => h m (List.mem_filter.mp (List.mem_of_mem_tail hm)).1

theorem LeadsOnly.said (h : LeadsOnly messages) (plain : m.isSummary = false) :
    LeadsOnly (messages ++ [m]) := by
  intro m' hm'
  rw [List.filter_append, List.tail_append] at hm'
  split at hm'
  · have hlast := (List.mem_filter.mp (List.mem_of_mem_tail hm')).1
    exact List.mem_singleton.mp hlast ▸ plain
  · rcases List.mem_append.mp hm' with hearlier | hlast
    · exact h m' hearlier
    · exact List.mem_singleton.mp (List.mem_filter.mp hlast).1 ▸ plain

/-- If any message gives way, no message that stays is a summary. -/
theorem LeadsOnly.recent (h : LeadsOnly messages) (hgone : gone config messages ≠ []) :
    ∀ m ∈ (Compaction.recent config messages).filter (!·.isSystem), m.isSummary = false := by
  intro m hm
  refine h m ?_
  have hall : early config messages ++ Compaction.recent config messages = messages :=
    List.take_append_drop _ _
  rw [← hall, List.filter_append]
  exact List.tail_append_of_ne_nil hgone ▸ List.mem_append_right _ hm

/-- After a summary has been put in, the messages that are not the system's are the summary and
those of the tail. -/
theorem filter_splice {first : Message} {place : Nat} {rest : List (Message × Nat)}
    (some_left : condensed config messages = (first, place) :: rest) {summary : Message}
    (hsummary : summary.isSummary = true) :
    (splice messages (givesWay config messages) place summary).filter (!·.isSystem) =
      summary :: (Compaction.recent config messages).filter (!·.isSystem) := by
  have hnone : ∀ l : Conversation, (∀ m ∈ l, m.isSystem = true) → l.filter (!·.isSystem) = [] :=
    fun l hl => List.filter_eq_nil_iff.mpr fun m hm => by simp [hl m hm]
  rw [splice_early some_left, List.filter_append, hnone _ (List.all_eq_true.mp List.all_takeWhile),
    List.nil_append, List.filter_cons_of_pos (by simp [isSystem_of_isSummary hsummary]),
    List.filter_append, hnone _ fun m hm => (List.mem_filter.mp hm).2, List.nil_append]

/-- A compaction keeps it so, and one that reduces leaves a summary. -/
theorem LeadsOnly.compacts (h : LeadsOnly messages)
    (ran : exec (compact tokenizers summarize config family messages tally) w = (.ok c, w')) :
    LeadsOnly c.messages ∧ (c.reduced = true → c.messages.countP (·.isSummary) = 1) := by
  cases compact_cases ran with
  | nothing => exact ⟨h, nofun⟩
  | useless => exact ⟨h, nofun⟩
  | summed first place rest _ _ text summary _ _ some_left _ _ composed =>
    have hsummary : summary.isSummary = true := composed ▸ isSummary_summaryMessage _ _ _ _
    have hgone : gone config messages ≠ [] := by simp [gone_eq, some_left]
    have hspoken := filter_splice some_left hsummary
    constructor
    · intro m hm
      rw [hspoken, List.tail_cons] at hm
      exact h.recent hgone m hm
    · intro _
      rw [countP_isSummary, hspoken, List.countP_cons_of_pos hsummary,
        List.countP_eq_zero.mpr fun m hm => by simp [h.recent hgone m hm]]

theorem Grows.leadsOnly (h : Grows start messages) (hstart : ∀ m ∈ start, m.isSummary = false) :
    LeadsOnly messages := by
  induction h with
  | start => exact leadsOnly_of_plain hstart
  | said _ plain ih => exact ih.said plain
  | compacted _ ran ih => exact (ih.compacts ran).1

/-- A conversation that began without a summary holds one at most, however it has grown. Before it
stand messages of the system only, and after a compaction that reduces it there is one. -/
theorem grows_singleSummary (hstart : ∀ m ∈ start, m.isSummary = false)
    (h : Grows start messages) :
    messages.countP (·.isSummary) ≤ 1 ∧
      (∀ before summary after, messages = before ++ summary :: after →
        summary.isSummary = true → ∀ m ∈ before, m.isSystem = true) ∧
      ∀ {σ : Type} (tokenizers : Tokenizers σ) (summarize : Summarizer σ)
        (config : CompactionConfig) (family : String) (tally : Tally) (w w' : σ) (c : Compacted),
        exec (compact tokenizers summarize config family messages tally) w = (.ok c, w') →
        c.reduced = true → c.messages.countP (·.isSummary) = 1 := by
  have hleads := h.leadsOnly hstart
  refine ⟨hleads.countP_le_one, ?_, fun _ _ _ _ _ _ _ _ ran => (hleads.compacts ran).2⟩
  rintro before summary after rfl hsummary
  exact hleads.isSystem_before hsummary

/-- The first exchange has given way to a summary, which gives way in its turn. -/
theorem grows_singleSummary_twoExchanges :
    let config := { CompactionConfig.standard with preserve := 1 }
    let summarize : Summarizer Unit := fun _ _ => return .answer "they met"
    (∀ m ∈ twoExchanges, m.isSummary = false) ∧
      ∃ messages, Grows twoExchanges messages ∧ messages.countP (·.isSummary) ≤ 1 ∧
        ∃ c w', exec (compact .ofLetters summarize config "letters"
            (messages ++ [.of .user "hello again"]) .empty) () = (.ok c, w') ∧
          c.reduced = true ∧ c.messages.countP (·.isSummary) = 1 := by
  intro config summarize
  have hstart : ∀ m ∈ twoExchanges, m.isSummary = false := by decide +kernel
  have hagain : ((exec (compact .ofLetters summarize config "letters" twoExchanges .empty)
      ()).1.toOption.any fun c =>
        (exec (compact .ofLetters summarize config "letters"
          (c.messages ++ [.of .user "hello again"]) .empty) ()).1.toOption.any
            (·.reduced)) = true := by
    decide +kernel
  obtain ⟨c, hc, hnext⟩ := (Option.any_eq_true ..).mp hagain
  obtain ⟨c', hc', hreduced⟩ := (Option.any_eq_true ..).mp hnext
  obtain ⟨w', hran⟩ := ran_of_toOption hc
  obtain ⟨w'', hran'⟩ := ran_of_toOption hc'
  have hgrown : Grows twoExchanges c.messages := .compacted .start hran
  have hplain : (Message.of .user "hello again").isSummary = false := by decide +kernel
  obtain ⟨hone, -⟩ := grows_singleSummary hstart hgrown
  obtain ⟨-, -, hlast⟩ := grows_singleSummary hstart (hgrown.said hplain)
  exact ⟨hstart, c.messages, hgrown, hone, c', w'', hran', hreduced,
    hlast _ _ _ _ _ _ _ _ hran' hreduced⟩

end Compaction
end ContextBudget
