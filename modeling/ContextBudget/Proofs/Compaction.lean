import ContextBudget.Compaction
import ContextBudget.Proofs.Tokens.Exact
import Mathlib.Data.List.Basic

/-!
# What a compaction does

- `compact_cases`: all that can come of a compaction, and when; `compact_failed`: it fails only in
  the count of its summary.
- `splice_map`: a conversation and its counts are spliced alike.
- `compact_exact`: a compaction keeps the tally of the conversation exact.
- `condensed_eq`, `preserved_eq`: before the tail the messages give way that are not the system's.
- `splice_early`, `splice_eq`: the summary stands where the first message was that gives way to it,
  among the messages that do not.
- `filter_isSystem_preserved`, `sum_preserved`: no message of the system gives way, and each other
  one either gives way or stays.
-/

namespace ContextBudget
namespace Compaction

open BudgetM

variable {σ : Type} {tokenizers : Tokenizers σ} {summarize : Summarizer σ}
  {config : CompactionConfig} {family : String} {messages : Conversation} {tally : Tally}
  {c : Compacted} {w w' : σ}

/-- The messages that give way to the summary, with their places. -/
def condensed (config : CompactionConfig) (messages : Conversation) : List (Message × Nat) :=
  middle messages (tailStart messages config.preserve)

/-- Whether the message at a place gives way to the summary. -/
def givesWay (config : CompactionConfig) (messages : Conversation) : Nat → Bool :=
  inMiddle messages (tailStart messages config.preserve)

/-- The messages that do not give way. -/
def preserved (config : CompactionConfig) (messages : Conversation) : Conversation :=
  (messages.zipIdx.filter fun p => !givesWay config messages p.2).map (·.1)

/-- What comes of a compaction. -/
inductive Compacts (tokenizers : Tokenizers σ) (summarize : Summarizer σ)
    (config : CompactionConfig) (family : String) (messages : Conversation) (tally : Tally)
    (w : σ) : Compacted → σ → Prop where
  | nothing (none_left : condensed config messages = []) :
    Compacts tokenizers summarize config family messages tally w (unchanged messages tally []) w
  | useless (reply : Call String) (w' : σ) (warning : Warning)
    (some_left : condensed config messages ≠ [])
    (asked : (summarize (render ((condensed config messages).map (·.1)))
      config.summaryChars).run w = (reply, w'))
    (refused : usable config.limit (reply.within config.limit) = .error warning) :
    Compacts tokenizers summarize config family messages tally w
      (unchanged messages tally [warning]) w'
  | summed (first : Message) (start : Nat) (rest : List (Message × Nat)) (reply : Call String)
    (w₁ : σ) (text : String) (summary : Message) (entry : Entry) (w' : σ)
    (some_left : condensed config messages = (first, start) :: rest)
    (asked : (summarize (render ((condensed config messages).map (·.1)))
      config.summaryChars).run w = (reply, w₁))
    (answered : usable config.limit (reply.within config.limit) = .ok text)
    (composed : summary = summaryMessage config first (condensed config messages).length text)
    (counted : exec (tokenizers.countMessage family summary) w₁ = (.ok entry, w')) :
    Compacts tokenizers summarize config family messages tally w
      { messages := splice messages (givesWay config messages) start summary
        preserved := preserved config messages
        summary := some summary
        tally := .ofEntries (splice tally.entries (givesWay config messages) start entry)
        tokensBefore := tally.total
        warnings := [] } w'

theorem compact_cases
    (h : exec (compact tokenizers summarize config family messages tally) w = (.ok c, w')) :
    Compacts tokenizers summarize config family messages tally w c w' := by
  simp only [compact] at h
  split at h
  · obtain ⟨rfl, rfl⟩ := pure_ran h
    exact .nothing ‹_›
  · rename_i first start rest some_left
    change condensed config messages = _ at some_left
    obtain ⟨reply, w₁, hasked, h₁⟩ := bind_ran h
    have hasked := lift_ran hasked
    split at h₁
    · obtain ⟨rfl, rfl⟩ := pure_ran h₁
      exact .useless reply _ _ (by rw [some_left]; exact List.cons_ne_nil _ _) hasked ‹_›
    · obtain ⟨entry, w₂, hcounted, h₂⟩ := bind_ran h₁
      obtain ⟨rfl, rfl⟩ := pure_ran h₂
      exact .summed first start rest reply w₁ _ _ entry _ some_left hasked ‹_› rfl hcounted

/-- A text that can be used came in time, and is not blank. -/
theorem usable_eq_ok {limit : Span} {reply : Option (Except ServiceError String)} {text : String}
    (h : usable limit reply = .ok text) :
    reply = some (.ok text) ∧ Text.isBlankText text = false := by
  unfold usable at h
  split at h
  · cases h
  · cases h
  · split at h
    · cases h
    · cases h
      exact ⟨rfl, Bool.eq_false_iff.mpr ‹_›⟩

/-- A compaction fails only in the count of its summary. -/
theorem compact_failed {e : BudgetError}
    (h : exec (compact tokenizers summarize config family messages tally) w = (.error e, w')) :
    ∃ first place rest reply w₁ text, condensed config messages = (first, place) :: rest ∧
      (summarize (render ((condensed config messages).map (·.1))) config.summaryChars).run w =
        (reply, w₁) ∧
      usable config.limit (reply.within config.limit) = .ok text ∧
      exec (tokenizers.counts family
        [(summaryMessage config first (condensed config messages).length text).content]) w₁ =
          (.error e, w') := by
  simp only [compact] at h
  split at h
  · exact (pure_failed h).elim
  · rename_i first place rest some_left
    obtain ⟨reply, w₁, hasked, h₁⟩ := call_failed h
    split at h₁
    · exact (pure_failed h₁).elim
    · rename_i text answered
      exact ⟨first, place, rest, reply, w₁, text, some_left, hasked, answered,
        Tokenizers.countMessage_failed (failed_of_bind_pure h₁)⟩

/-- A conversation and its counts are spliced alike. -/
theorem splice_map {α β : Type} (f : α → β) (items : List α) (gone : Nat → Bool) (first : Nat)
    (item : α) :
    splice (items.map f) gone first (f item) = (splice items gone first item).map f := by
  simp only [splice, List.zipIdx_map, List.flatMap_map, List.map_flatMap]
  refine List.flatMap_congr fun p _ => ?_
  obtain ⟨a, i⟩ := p
  simp only [Prod.map_apply, id_eq, List.map_append]
  congr 1
  · split <;> rfl
  · split <;> rfl

/-- A compaction keeps a tally exact, if the tokens of the conversation that it gives stay below the
number of words. -/
theorem compact_exact {count : String → String → Nat} (hcounters : tokenizers.CountsBy count)
    (hexact : tally.Exact count family messages)
    (h : exec (compact tokenizers summarize config family messages tally) w = (.ok c, w'))
    (hsmall : weight count family c.messages < Word.size) :
    c.tally.Exact count family c.messages := by
  cases compact_cases h with
  | nothing => exact hexact
  | useless => exact hexact
  | summed first start rest _ _ text summary entry _ _ _ _ _ counted =>
    obtain rfl := Tokenizers.countMessage_ran hcounters counted
    rw [hexact.entries, entriesOf, splice_map fun m : Message =>
      (⟨count family m.content, m.category⟩ : Entry)]
    exact .ofEntries hsmall

/-! ## What gives way, and what stays -/

/-- The messages before the tail. -/
def early (config : CompactionConfig) (messages : Conversation) : Conversation :=
  messages.take (tailStart messages config.preserve)

/-- The messages of the tail. -/
def recent (config : CompactionConfig) (messages : Conversation) : Conversation :=
  messages.drop (tailStart messages config.preserve)

theorem zipIdx_early_recent (config : CompactionConfig) (messages : Conversation) :
    messages.zipIdx = (early config messages).zipIdx ++
      (recent config messages).zipIdx (early config messages).length := by
  conv_lhs => rw [← List.take_append_drop (tailStart messages config.preserve) messages]
  rw [List.zipIdx_append, Nat.zero_add]
  rfl

/-- Before the tail, the system's messages stay. -/
theorem stays_early {q : Message × Nat} (hq : q ∈ (early config messages).zipIdx) :
    (!givesWay config messages q.2) = q.1.isSystem := by
  have hm := List.mem_zipIdx_iff_getElem?.mp hq
  rw [early, List.getElem?_take] at hm
  split at hm
  · rename_i hlt
    simp [givesWay, inMiddle, hm, hlt]
  · cases hm

/-- In the tail, all messages stay. -/
theorem stays_recent {q : Message × Nat}
    (hq : q ∈ (recent config messages).zipIdx (early config messages).length) :
    (!givesWay config messages q.2) = true := by
  obtain ⟨hle, hm⟩ := List.mem_zipIdx_iff_le_and_getElem?_sub.mp hq
  have hlt := (List.getElem?_eq_some_iff.mp hm).1
  rw [early, List.length_take] at hle
  rw [recent, List.length_drop] at hlt
  have hlate : ¬ q.2 < tailStart messages config.preserve := by omega
  simp [givesWay, inMiddle, hlate]

theorem condensed_eq (config : CompactionConfig) (messages : Conversation) :
    condensed config messages = (early config messages).zipIdx.filter (!·.1.isSystem) := by
  have hearly : ∀ q ∈ (early config messages).zipIdx,
      givesWay config messages q.2 = !q.1.isSystem := fun q hq => by
    rw [← stays_early hq, Bool.not_not]
  have hrecent : ((recent config messages).zipIdx (early config messages).length).filter
      (fun q => givesWay config messages q.2) = [] :=
    List.filter_eq_nil_iff.mpr fun q hq => by simpa using stays_recent hq
  change messages.zipIdx.filter (fun q => givesWay config messages q.2) = _
  rw [zipIdx_early_recent config messages, List.filter_append, hrecent, List.append_nil,
    List.filter_congr hearly]

theorem map_condensed (config : CompactionConfig) (messages : Conversation) :
    (condensed config messages).map (·.1) = (early config messages).filter (!·.isSystem) := by
  conv_rhs => rw [← List.zipIdx_map_fst 0 (early config messages), List.filter_map]
  rw [condensed_eq]
  rfl

theorem preserved_eq (config : CompactionConfig) (messages : Conversation) :
    preserved config messages =
      (early config messages).filter (·.isSystem) ++ recent config messages := by
  have hrecent : ((recent config messages).zipIdx (early config messages).length).filter
      (fun q => !givesWay config messages q.2) = _ :=
    List.filter_eq_self.mpr fun q hq => stays_recent hq
  rw [preserved, zipIdx_early_recent config messages, List.filter_append, hrecent,
    List.filter_congr fun q hq => stays_early hq, List.map_append, List.zipIdx_map_fst]
  conv_rhs => rw [← List.zipIdx_map_fst 0 (early config messages), List.filter_map]
  rfl

theorem takeWhile_append_filter {α : Type} (p : α → Bool) (l : List α) :
    l.takeWhile p ++ (l.dropWhile p).filter p = l.filter p := by
  conv_rhs => rw [← List.takeWhile_append_dropWhile (p := p) (l := l), List.filter_append]
  rw [List.filter_eq_self.mpr (List.all_eq_true.mp List.all_takeWhile)]

/-- Where nothing is put in, a splice keeps what is not gone. -/
theorem flatMap_of_ne {α : Type} {gone : Nat → Bool} {start : Nat} {item : α}
    {l : List (α × Nat)} (h : ∀ q ∈ l, q.2 ≠ start) :
    (l.flatMap fun q => (if q.2 = start then [item] else []) ++
      (if gone q.2 then [] else [q.1])) = (l.filter fun q => !gone q.2).map (·.1) := by
  induction l with
  | nil => rfl
  | cons q l ih =>
    obtain ⟨hq, hl⟩ := List.forall_mem_cons.mp h
    rw [List.flatMap_cons, ih hl, if_neg hq, List.nil_append]
    cases hgone : gone q.2 <;> simp [hgone]

/-- The first message that gives way is the first one that is not the system's. -/
theorem early_split {first : Message} {start : Nat} {rest : List (Message × Nat)}
    (h : condensed config messages = (first, start) :: rest) :
    ∃ l l', (early config messages).zipIdx = l ++ (first, start) :: l' ∧
      (early config messages).takeWhile (·.isSystem) = l.map (·.1) ∧
      (early config messages).dropWhile (·.isSystem) = first :: l'.map (·.1) ∧
      first.isSystem = false := by
  rw [condensed_eq] at h
  obtain ⟨l, l', hsplit, hbefore, hfirst, -⟩ := List.filter_eq_cons_iff.mp h
  have hfirst : first.isSystem = false := by simpa using hfirst
  have hsystem : ∀ m ∈ l.map (·.1), m.isSystem = true := by
    intro m hm
    obtain ⟨q, hq, rfl⟩ := List.mem_map.mp hm
    simpa using hbefore q hq
  have hmessages : early config messages = l.map (·.1) ++ first :: l'.map (·.1) := by
    rw [← List.zipIdx_map_fst 0 (early config messages), hsplit, List.map_append, List.map_cons]
  refine ⟨l, l', hsplit, ?_, ?_, hfirst⟩
  · rw [hmessages, List.takeWhile_append_of_pos hsystem,
      List.takeWhile_cons_of_neg (by simp [hfirst]), List.append_nil]
  · rw [hmessages, List.dropWhile_append_of_pos hsystem,
      List.dropWhile_cons_of_neg (by simp [hfirst])]

/-- The summary follows the system's messages that all others follow, and after it stand the
system's other messages before the tail, and the tail. -/
theorem splice_early {first : Message} {start : Nat} {rest : List (Message × Nat)}
    (h : condensed config messages = (first, start) :: rest) (item : Message) :
    splice messages (givesWay config messages) start item =
      (early config messages).takeWhile (·.isSystem) ++ item ::
        (((early config messages).dropWhile (·.isSystem)).filter (·.isSystem) ++
          recent config messages) := by
  obtain ⟨l, l', hsplit, htake, hdrop, hfirst⟩ := early_split h
  have hall := zipIdx_early_recent config messages
  rw [hsplit, List.append_assoc, List.cons_append] at hall
  -- The places are all different, so the summary is put in only once.
  have hplaces := congrArg (List.map (·.2)) hall
  rw [List.zipIdx_map_snd, List.map_append, List.map_cons] at hplaces
  obtain ⟨-, hright, hdisjoint⟩ := List.nodup_append.mp (hplaces ▸ List.nodup_range')
  have hbefore : ∀ q ∈ l, q.2 ≠ start := fun q hq =>
    hdisjoint _ (List.mem_map_of_mem hq) _ List.mem_cons_self
  have hafter : ∀ q ∈ l' ++ (recent config messages).zipIdx (early config messages).length,
      q.2 ≠ start := fun q hq heq =>
    (List.nodup_cons.mp hright).1 (heq ▸ List.mem_map_of_mem (f := (·.2)) hq)
  have hgone : givesWay config messages start = true := by
    have hstays := stays_early (q := (first, start)) (hsplit ▸ List.mem_append_cons_self)
    simpa [hfirst] using hstays
  have hstay : l.filter (fun q => !givesWay config messages q.2) = l := by
    refine List.filter_eq_self.mpr fun q hq => ?_
    rw [stays_early (hsplit ▸ List.mem_append_left _ hq)]
    exact List.all_eq_true.mp List.all_takeWhile q.1 (htake ▸ List.mem_map_of_mem hq)
  have hkept := preserved_eq config messages
  rw [preserved, hall, List.filter_append, hstay, List.filter_cons_of_neg (by simp [hgone]),
    List.map_append, ← takeWhile_append_filter (·.isSystem) (early config messages),
    htake, List.append_assoc] at hkept
  rw [splice, hall, List.flatMap_append, List.flatMap_cons, flatMap_of_ne hbefore,
    flatMap_of_ne hafter, if_pos rfl, if_pos hgone, hstay, List.append_cancel_left hkept, htake]
  rfl

/-- The summary stands where the first message was that gives way to it, among the messages that
stay. -/
theorem splice_eq {first : Message} {start : Nat} {rest : List (Message × Nat)}
    (h : condensed config messages = (first, start) :: rest) (item : Message) :
    ∃ before after,
      splice messages (givesWay config messages) start item = before ++ item :: after ∧
      before ++ after = preserved config messages ∧
      (before ++ first :: after).Sublist messages := by
  obtain ⟨l, l', -, -, hdrop, hfirst⟩ := early_split h
  refine ⟨_, _, splice_early h item, ?_, ?_⟩
  · rw [← List.append_assoc, takeWhile_append_filter, preserved_eq]
  · have hearly : (first :: ((early config messages).dropWhile (·.isSystem)).filter
        (·.isSystem)).Sublist ((early config messages).dropWhile (·.isSystem)) := by
      rw [hdrop, List.filter_cons_of_neg (by simp [hfirst])]
      exact List.filter_sublist.cons_cons first
    have hall : ((early config messages).takeWhile (·.isSystem) ++
        ((early config messages).dropWhile (·.isSystem) ++ recent config messages)) = messages := by
      rw [← List.append_assoc, List.takeWhile_append_dropWhile, early, recent,
        List.take_append_drop]
    conv_rhs => rw [← hall]
    exact (hearly.append (List.Sublist.refl _)).append_left _

/-- No message of the system gives way. -/
theorem filter_isSystem_preserved (config : CompactionConfig) (messages : Conversation) :
    (preserved config messages).filter (·.isSystem) = messages.filter (·.isSystem) := by
  rw [preserved_eq, List.filter_append, List.filter_filter]
  simp only [Bool.and_self]
  rw [← List.filter_append, early, recent, List.take_append_drop]

/-- Each message either gives way or stays. -/
theorem sum_preserved (config : CompactionConfig) (messages : Conversation) (f : Message → Nat) :
    ((preserved config messages).map f).sum +
      ((condensed config messages).map fun q => f q.1).sum = (messages.map f).sum := by
  have hsplit := (List.filter_append_perm (fun q : Message × Nat =>
    givesWay config messages q.2) messages.zipIdx).map fun q => f q.1
  have hsum := hsplit.sum_nat
  rw [List.map_append, List.sum_append, Nat.add_comm] at hsum
  calc ((preserved config messages).map f).sum +
        ((condensed config messages).map fun q => f q.1).sum
      = (messages.zipIdx.map fun q => f q.1).sum := by
          rw [← hsum, preserved, List.map_map]
          rfl
    _ = ((messages.zipIdx.map (·.1)).map f).sum := by rw [List.map_map]; rfl
    _ = (messages.map f).sum := by rw [List.zipIdx_map_fst]

end Compaction
end ContextBudget
