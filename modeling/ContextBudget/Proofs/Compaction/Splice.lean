import ContextBudget.Proofs.Compaction

/-!
# The conversation after a compaction

- `Compacts.spliced`: one summary stands where the first message was that is gone, and all others
  stay, with their counts.
- `exists_compact`: a compaction gives a conversation unless the count of its summary fails.
- `compact_splices`: what conversation it gives, by what the summarizer replies.
-/

namespace ContextBudget
namespace Compaction

open BudgetM
open Tokenizers (letters)

variable {σ : Type} {tokenizers : Tokenizers σ} {summarize : Summarizer σ}
  {config : CompactionConfig} {count : String → String → Nat} {family : String}
  {messages : Conversation} {tally : Tally} {c : Compacted} {w w' : σ}

/-- The messages before the tail that are not the system's. -/
def gone (config : CompactionConfig) (messages : Conversation) : Conversation :=
  (early config messages).filter (!·.isSystem)

/-- A summary of a text names how many messages it stands for, and has the position of the first
of them. -/
structure SumsUp (config : CompactionConfig) (first : Message) (n : Nat) (text : String)
    (summary : Message) : Prop where
  role : summary.role = .user
  index : summary.index = first.index
  content : summary.content = "[Context summary of " ++ Nat.repr n ++ " earlier messages]\n" ++
    Text.excerpt (Text.trimmed text) config.summaryChars

/-- A compaction has put a summary in the place of the messages that are gone, with the counts that
belong to the conversation. -/
structure Spliced (config : CompactionConfig) (count : String → String → Nat) (family : String)
    (messages : Conversation) (summary : Message) (c : Compacted) : Prop where
  made : c.summary = some summary
  /-- The summary follows those of the system's messages that stood before all that are gone. -/
  placed : c.messages = (early config messages).takeWhile (·.isSystem) ++ summary ::
    (((early config messages).dropWhile (·.isSystem)).filter (·.isSystem) ++
      recent config messages)
  kept : c.preserved = (early config messages).filter (·.isSystem) ++ recent config messages
  /-- What is kept is the conversation without the summary. -/
  apart : ∃ before after, c.messages = before ++ summary :: after ∧ c.preserved = before ++ after
  length : c.messages.length + (gone config messages).length = messages.length + 1
  tally : c.tally = .ofEntries (entriesOf count family c.messages)
  warnings : c.warnings = []

theorem sumsUp_summaryMessage (config : CompactionConfig) (first : Message) (n : Nat)
    (text : String) : SumsUp config first n text (summaryMessage config first n text) where
  role := rfl
  index := rfl
  content := by
    have hopening : summaryOpening ++ " " = "[Context summary of " := by decide
    rw [← hopening]
    rfl

/-- Each message gives way, or is the system's, or is in the tail. -/
theorem length_preserved (config : CompactionConfig) (messages : Conversation) :
    (preserved config messages).length + (gone config messages).length = messages.length := by
  have hsplit := (List.filter_append_perm (·.isSystem) (early config messages)).length_eq
  have hall := congrArg List.length
    (List.take_append_drop (tailStart messages config.preserve) messages)
  rw [List.length_append] at hsplit hall
  rw [preserved_eq, List.length_append, gone]
  change (early config messages).length + (recent config messages).length = _ at hall
  omega

theorem gone_eq (config : CompactionConfig) (messages : Conversation) :
    gone config messages = (condensed config messages).map (·.1) := (map_condensed _ _).symm

theorem Compacts.spliced (hcounters : tokenizers.CountsBy count)
    (hentries : tally.entries = entriesOf count family messages) {first : Message} {start : Nat}
    {rest : List (Message × Nat)} (some_left : condensed config messages = (first, start) :: rest)
    {summary : Message} {entry : Entry}
    (counted : exec (tokenizers.countMessage family summary) w = (.ok entry, w')) :
    Spliced config count family messages summary
      { messages := splice messages (givesWay config messages) start summary
        preserved := preserved config messages
        summary := some summary
        tally := .ofEntries (splice tally.entries (givesWay config messages) start entry)
        tokensBefore := tally.total
        warnings := [] } := by
  obtain ⟨before, after, hsplice, hstays, -⟩ := splice_eq some_left summary
  obtain rfl := Tokenizers.countMessage_ran hcounters counted
  refine ⟨rfl, splice_early some_left summary, preserved_eq config messages,
    ⟨before, after, hsplice, hstays.symm⟩, ?_, ?_, rfl⟩
  · have hlength := length_preserved config messages
    rw [← hstays, List.length_append] at hlength
    simp only [hsplice, List.length_append, List.length_cons]
    omega
  · rw [hentries]
    exact congrArg Tally.ofEntries (splice_map (fun m : Message =>
      (⟨count family m.content, m.category⟩ : Entry)) messages _ _ summary)

/-! ## Whole compactions -/

/-- In a compaction, the count of the summary fails. -/
inductive CountFails (tokenizers : Tokenizers σ) (summarize : Summarizer σ)
    (config : CompactionConfig) (family : String) (messages : Conversation) (w : σ)
    (e : BudgetError) : Prop where
  | intro {first : Message} {rest : Conversation} {reply : Call String} {w₁ : σ} {text : String}
    {w' : σ} (some_left : gone config messages = first :: rest)
    (asked : (summarize (render (gone config messages)) config.summaryChars).run w = (reply, w₁))
    (answered : usable config.limit (reply.within config.limit) = .ok text)
    (failed : exec (tokenizers.counts family
      [(summaryMessage config first (gone config messages).length text).content]) w₁ =
        (.error e, w')) : CountFails tokenizers summarize config family messages w e

theorem exists_compact
    (h : ∀ e, ¬ CountFails tokenizers summarize config family messages w e) :
    ∃ c w', exec (compact tokenizers summarize config family messages tally) w = (.ok c, w') := by
  cases hrun : exec (compact tokenizers summarize config family messages tally) w with
  | mk out w' =>
    cases out with
    | ok c => exact ⟨c, w', rfl⟩
    | error e =>
      obtain ⟨first, place, rest, reply, w₁, text, some_left, asked, answered, failed⟩ :=
        compact_failed hrun
      rw [← gone_eq] at asked
      rw [← List.length_map (·.1), ← gone_eq] at failed
      have hgone : gone config messages = first :: rest.map (·.1) := by
        rw [gone_eq, some_left, List.map_cons]
      exact (h e (.intro hgone asked answered failed)).elim

theorem usable_of_text {limit : Span} {text : String} (h : Text.isBlankText text = false) :
    usable limit (some (.ok text)) = .ok text := by
  rw [usable, h]
  rfl

/-- If the count of the summary does not fail, a compaction gives a conversation. If nothing is to
go, it is the one given, and the summarizer is not asked. Else the summarizer is asked once about
all that is to go. If no text comes of it in time, or a blank one, the conversation and its counts
are those given, with one warning. Else one summary of the text, with the position of the first
message that is gone, stands where that was, and all other messages stay. -/
theorem compact_splices (hcounters : tokenizers.CountsBy count)
    (hentries : tally.entries = entriesOf count family messages)
    (hcounts : ∀ e, ¬ CountFails tokenizers summarize config family messages w e) :
    ∃ c w', exec (compact tokenizers summarize config family messages tally) w = (.ok c, w') ∧
      (gone config messages = [] → c = unchanged messages tally [] ∧ w' = w) ∧
      ∀ first rest, gone config messages = first :: rest → ∃ reply w₁,
        (summarize (render (gone config messages)) config.summaryChars).run w = (reply, w₁) ∧
        ((∀ text, reply.within config.limit = some (.ok text) → Text.isBlankText text = true) →
          w' = w₁ ∧ ∃ warning, c = unchanged messages tally [warning] ∧
            usable config.limit (reply.within config.limit) = .error warning) ∧
        ∀ text, reply.within config.limit = some (.ok text) → Text.isBlankText text = false →
          ∃ summary entry, SumsUp config first (gone config messages).length text summary ∧
            exec (tokenizers.countMessage family summary) w₁ = (.ok entry, w') ∧
            Spliced config count family messages summary c := by
  obtain ⟨c, w', hrun⟩ := exists_compact hcounts
  refine ⟨c, w', hrun, ?_⟩
  cases compact_cases hrun with
  | nothing none_left =>
    have hnone : gone config messages = [] := by rw [gone_eq, none_left, List.map_nil]
    refine ⟨fun _ => ⟨rfl, rfl⟩, fun first rest hsome => ?_⟩
    rw [hnone] at hsome
    cases hsome
  | useless reply _ warning some_left asked refused =>
    rw [← gone_eq] at asked
    refine ⟨fun hnone => ?_, fun first rest _ => ⟨reply, w', asked, fun _ =>
      ⟨rfl, warning, rfl, refused⟩, fun text htext hblank => ?_⟩⟩
    · rw [gone_eq] at hnone
      exact (some_left (List.map_eq_nil_iff.mp hnone)).elim
    · rw [htext, usable_of_text hblank] at refused
      cases refused
  | summed first start rest reply w₁ text summary entry _ some_left asked answered composed
      counted =>
    rw [← gone_eq] at asked
    obtain ⟨htext, hblank⟩ := usable_eq_ok answered
    have hfirst : gone config messages = first :: rest.map (·.1) := by
      rw [gone_eq, some_left, List.map_cons]
    refine ⟨fun hnone => ?_, fun first' rest' hsome => ⟨reply, w₁, asked, fun hall => ?_,
      fun text' htext' _ => ⟨summary, entry, ?_, counted, ?_⟩⟩⟩
    · rw [hfirst] at hnone
      cases hnone
    · cases (hall text htext).symm.trans hblank
    · obtain ⟨rfl, -⟩ := List.cons.inj (hfirst.symm.trans hsome)
      obtain rfl : text = text' := by simpa using htext.symm.trans htext'
      rw [composed, gone_eq, List.length_map]
      exact sumsUp_summaryMessage _ _ _ _
    · exact Compacts.spliced hcounters hentries some_left counted

/-- Two exchanges with instructions of the system between them. -/
def twoExchanges : Conversation := Message.inOrder [.of .system "be kind", .of .user "hello",
  .of .system "today is monday", .of .assistant "hi there", .of .user "bye"]

/-- The first exchange gives way to a summary. The instruction in its midst stays. -/
theorem compact_splices_twoExchanges :
    let config := { CompactionConfig.standard with preserve := 1 }
    let tally := Tally.ofEntries (entriesOf letters "letters" twoExchanges)
    let summarize : Summarizer Unit := fun _ _ => return .answer "they met"
    (∀ e, ¬ CountFails .ofLetters summarize config "letters" twoExchanges () e) ∧
      ∃ c w', exec (compact .ofLetters summarize config "letters" twoExchanges tally) () =
        (.ok c, w') ∧
      c.messages.map (fun m => (m.role, m.index)) =
        [(.system, 0), (.user, 1), (.system, 2), (.user, 4)] ∧
      c.tally = .ofEntries (entriesOf letters "letters" c.messages) := by
  intro config tally summarize
  have hcounts : ∀ e, ¬ CountFails .ofLetters summarize config "letters" twoExchanges () e := by
    rintro e ⟨-, -, -, failed⟩
    obtain ⟨ns, w', hran⟩ := Tokenizers.exists_counts_ofLetters _ _
    exact nomatch hran.symm.trans failed
  have hentries : tally.entries = entriesOf letters "letters" twoExchanges := rfl
  obtain ⟨c, w', hran, -, hsome⟩ :=
    compact_splices Tokenizers.ofLetters_countsBy hentries hcounts
  have hgone : gone config twoExchanges =
      [⟨.user, "hello", 1, none⟩, ⟨.assistant, "hi there", 3, none⟩] := by decide +kernel
  obtain ⟨reply, w₁, asked, -, htext⟩ := hsome _ _ hgone
  obtain ⟨rfl, -⟩ := Prod.mk.inj asked
  obtain ⟨summary, entry, hsums, -, hspliced⟩ := htext "they met" rfl (by decide +kernel)
  refine ⟨hcounts, c, w', hran, ?_, hspliced.tally⟩
  have hearly : early config twoExchanges = twoExchanges.take 4 := by decide +kernel
  have hrecent : recent config twoExchanges = [⟨.user, "bye", 4, none⟩] := by decide +kernel
  rw [hspliced.placed, hearly, hrecent, List.map_append, List.map_cons, hsums.role, hsums.index]
  decide +kernel

end Compaction
end ContextBudget
