import ContextBudget.Proofs.Run.History

/-!
# The integrity of a conversation

However a run makes its conversation fit, it keeps the messages of the system as they are and all
messages at their places, but for those that give way to a summary.

- `Survives`: what may become of a message that stays.
- `History.survives`: by the time that a run comes to a phase, each message is at its place.
- `Condenses.splits`: a summary is put in once, and the messages around it are those that stay.
- `run_keepsPlaces`: what a run that goes through keeps of its conversation.
-/

namespace ContextBudget
namespace Pipeline

open BudgetM

variable {σ : Type} {p : Pipeline σ} {start r : Run} {phase : Phase} {w w' : σ}

/-- What may become of the message at a place: it keeps all but its content, and that is its own,
the placeholder of a handle if it is the result of a tool, or what the redactor answered for the
message if it is not the system's. -/
structure Survives (p : Pipeline σ) (start : Run) (w : σ) (handles : List Handle) (place : Nat)
    (m m' : Message) : Prop where
  role : m'.role = m.role
  index : m'.index = m.index
  callId : m'.callId = m.callId
  content : m'.content = m.content ∨
    (m.role = .tool ∧ ∃ handle ∈ handles, ∃ tokens, m'.content = handle.placeholder tokens) ∨
    (m.role ≠ .system ∧ ∃ reply response, PruneCall p start w place m reply ∧
      reply.within p.patience = some response ∧ response.gaveBack = false ∧
      m'.content = response.text)

/-- By the time that a run comes to a phase, each message is at its place. -/
theorem History.survives {kept : Conversation} {rs : List Replacement}
    (h : History p start w phase r kept rs) (hnone : start.handles = [])
    (hstart : Unsummed start.events) {place : Nat} {m : Message}
    (hm : start.messages[place]? = some m) :
    ∃ m', kept[place]? = some m' ∧ Survives p start w r.handles place m m' := by
  obtain ⟨m', hm', hcases⟩ := h.rewrites.slot hm
  refine ⟨m', hm', ?_⟩
  rcases hcases with rfl | ⟨x, hx, hplace, hrole, rfl⟩
  · exact ⟨rfl, rfl, rfl, .inl rfl⟩
  · refine ⟨rfl, rfl, rfl, .inr ?_⟩
    have hmade := h.made x hx
    cases hmade with
    | @masked _ _ tokens handle _ id tool =>
      refine .inl ⟨hrole.symm.trans tool, { handle with id }, ?_, tokens, rfl⟩
      rw [h.handles, hnone, List.nil_append]
      exact List.mem_filterMap.mpr ⟨_, hx, rfl⟩
    | @redacted _ asked reply response spared call answered accepted =>
      obtain rfl : _ = place := hplace
      obtain rfl := Option.some.inj ((call.original hstart).symm.trans hm)
      exact .inr ⟨spared, reply, response, call, answered, accepted, rfl⟩

/-- No message of the system is replaced. -/
theorem Replaces.isSystem {x : Replacement} (h : Replaces p start w x) :
    x.old.isSystem = false := by
  cases h with
  | @masked _ m _ _ _ _ tool => simp [Replacement.old, Message.isSystem, tool]
  | redacted spared => simp [Replacement.old, Message.isSystem, spared]

/-- A summary is put in at one place, with the position of a message that gives way to it. The
messages around it are those that stay, in their order, and the system's are among them. -/
theorem Condenses.splits {messages : Conversation} (h : Condenses p r w messages) :
    ∃ before first count text after,
      messages = before ++
        Compaction.summaryMessage p.settings.compaction.config first count text :: after ∧
      (before ++ first :: after).Sublist r.messages ∧
      messages.filter (·.isSystem) = r.messages.filter (·.isSystem) := by
  obtain ⟨@⟨_, _, _, text, first, place, rest, -, -, some_left, -, -⟩⟩ := h
  obtain ⟨before, after, hsplice, hstays, hsublist⟩ := Compaction.splice_eq some_left
    (Compaction.summaryMessage p.settings.compaction.config first
      (Compaction.condensed p.settings.compaction.config r.messages).length text)
  refine ⟨before, first, _, text, after, hsplice, hsublist, ?_⟩
  rw [hsplice, List.filter_append, List.filter_cons_of_neg Bool.false_ne_true, ← List.filter_append,
    hstays, Compaction.filter_isSystem_preserved]

/-- A run that goes through keeps each message at its place, with its role, position and call, and
its content unless that was masked or redacted. It drops messages only for a summary, of which it
puts in at most one, and that only in a compaction that reduced. The system's messages stay as they
are, and positions that increase do so in the end. -/
theorem run_keepsPlaces (p : Pipeline σ) {request : RunRequest} {model : Model}
    (hmodel : p.resolve request = .ok model) {result : RunResult}
    (hrun : exec (p.run request) w = (.ok result, w')) :
    let start := Run.begin request model (request.reserved.getD p.settings.reserved)
    ∃ kept : Conversation, kept.length = request.messages.length ∧
      (∀ place m, request.messages[place]? = some m →
        ∃ m', kept[place]? = some m' ∧ Survives p start w result.handles place m m') ∧
      ((result.messages = kept ∧ Unsummed result.events) ∨
        ∃ before first count text after,
          result.messages = before ++
            Compaction.summaryMessage p.settings.compaction.config first count text :: after ∧
          (before ++ first :: after).Sublist kept ∧
          ∃ e ∈ result.events, e.stage = .compact ∧ e.outcome = .reduced) ∧
      result.messages.filter (·.isSystem) = request.messages.filter (·.isSystem) ∧
      (request.messages.Pairwise (·.index < ·.index) →
        result.messages.Pairwise (·.index < ·.index)) := by
  intro start
  obtain ⟨r, w₁, e, hreach, hstage, rfl⟩ := run_reaches hmodel hrun
  have hstart : Unsummed start.events := by simp [Unsummed, start, Run.begin]
  obtain ⟨kept, rs, hhistory⟩ := reaches_history hstart hreach
  have hsystem : kept.filter (·.isSystem) = request.messages.filter (·.isSystem) :=
    hhistory.rewrites.filter_eq (fun _ _ => rfl) fun x hx => (hhistory.made x hx).isSystem
  have hindex : kept.map (·.index) = request.messages.map (·.index) :=
    hhistory.rewrites.map_eq fun _ _ => rfl
  have hsorted : ∀ messages : Conversation,
      (messages.map (·.index)).Sublist (kept.map (·.index)) →
      request.messages.Pairwise (·.index < ·.index) → messages.Pairwise (·.index < ·.index) := by
    intro messages hsublist hrequest
    rw [hindex] at hsublist
    exact List.pairwise_map.mp ((List.pairwise_map.mpr hrequest).sublist hsublist)
  refine ⟨kept, hhistory.rewrites.length_eq, fun place m hm =>
    hhistory.survives rfl hstart hm, ?_⟩
  rcases hhistory.summed with
    ⟨hmessages, hunsummed⟩ | ⟨-, r₀, w₀, e₀, -, rfl, -, hcondenses, hevents, hcompact, hreduced⟩
  · refine ⟨.inl ⟨hmessages, hunsummed.append fun e' he' => ?_⟩, ?_, hsorted _ ?_⟩
    · obtain rfl := List.mem_singleton.mp he'
      rw [hstage]
      exact nofun
    · exact (congrArg _ hmessages).trans hsystem
    · exact hmessages ▸ List.Sublist.refl _
  · obtain ⟨before, first, count, text, after, hsplit, hsublist, hfilter⟩ := hcondenses.splits
    refine ⟨.inr ⟨before, first, count, text, after, hsplit, hsublist, e₀, ?_, hcompact, hreduced⟩,
      hfilter.trans hsystem, hsorted _ ?_⟩
    · exact List.mem_append_left _ (hevents ▸ List.mem_append_right _ (List.mem_singleton.mpr rfl))
    · -- The summary has the position of the first message that gives way to it.
      have hpositions : r.messages.map (·.index) = (before ++ first :: after).map (·.index) := by
        rw [hsplit, List.map_append, List.map_append]
        rfl
      exact (hpositions ▸ hsublist.map _ : (r.messages.map (·.index)).Sublist _)

/-! ## A pipeline whose services all answer -/

/-- An answer of a redactor that leaves one letter. -/
def cutShort : PruneResponse :=
  ⟨"cut", "-", [], ⟨1, 1, 0, .ofRatio 0 1, none, false, false, 0⟩, [], false⟩

/-- A pipeline whose services all answer at once. It counts letters, at most fifty of a text, and
masks and redacts small messages, too. -/
def obliging (catalog : Catalog) : Pipeline Unit where
  settings := { Settings.standard with
    masking := { MaskingConfig.standard with threshold := 2 }
    redaction := ⟨true, { RedactionConfig.standard with minTokens := 7 }⟩
    compaction := ⟨true, { CompactionConfig.standard with preserve := 1 }⟩ }
  counters := [("letters", fun text => return .answer (Nat.min text.length 50))]
  keeper := ⟨fun _ => return .answer "kept", fun _ => return .answer none⟩
  redactor := ⟨fun _ => return .done .zero cutShort, fun _ => return .ok ""⟩
  summarizer := some fun _ _ => return .answer "done"
  catalog := catalog
  emit _ := return ()
  now := return ⟨0, 0⟩

/-- One model that almost nothing fits. -/
def narrow : Catalog := ⟨[⟨"small", "letters", 4⟩]⟩

/-- A conversation that is masked, redacted and compacted. -/
def chores : RunRequest where
  session := "s"
  model := "small"
  messages := Message.inOrder [.of .system "be brief", .of .user "list it",
    .toolResult "c" "one two", .of .user "thanks"]
  limit := none
  family := none
  reserved := some 0

/-- The system's message of the chores stays, and the positions increase. -/
theorem run_keepsPlaces_chores :
    (obliging narrow).resolve chores = .ok ⟨"small", "letters", 4⟩ ∧
      ∃ result w', exec ((obliging narrow).run chores) () = (.ok result, w') ∧
        result.messages.filter (·.isSystem) = [⟨.system, "be brief", 0, none⟩] ∧
        result.messages.Pairwise (·.index < ·.index) := by
  have hmodel : (obliging narrow).resolve chores = .ok ⟨"small", "letters", 4⟩ := rfl
  have hok : (exec ((obliging narrow).run chores) ()).1.toOption.isSome = true := by
    decide +kernel
  obtain ⟨result, w', hran⟩ := ran_of_isSome hok
  obtain ⟨kept, -, -, -, hsystem, hsorted⟩ := run_keepsPlaces (obliging narrow) hmodel hran
  exact ⟨hmodel, result, w', hran, hsystem, hsorted (by decide)⟩

end Pipeline
end ContextBudget
