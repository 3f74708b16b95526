import ContextBudget.Proofs.Compaction
import ContextBudget.Proofs.Masking.Pass
import ContextBudget.Proofs.Run.Phases
import ContextBudget.Proofs.Run.Redaction

/-!
# What a run does to its conversation

A run asks its services and replaces messages stage by stage, over at most two passes, before it
may put a summary in place of some of them. Here is what each stage does, and what has been done
wherever a run comes to.

- `maskStage_reworks`, `redactStage_reworks`, `compact_condenses`: what a stage replaces, and the
  event that tells of it.
- `StoreCall`, `PruneCall`, `SummaryCall`: what a run asks its services.
- `reaches_history`: the replacements that lead to a phase are those of the stages before it, and
  only the last stage puts in a summary.
- `PruneCall.original`: the redactor is asked for messages only as the run was given them.
-/

namespace ContextBudget
namespace Pipeline

open BudgetM

variable {σ : Type} {p : Pipeline σ} {start r r' : Run} {phase : Phase} {signal : Signal}
  {w w' : σ}

/-! ## What a stage does -/

/-- A stage is told of by an event: the tokens when it began, and those that it left. -/
structure TellsOf (e : Event) (stage : Stage) (r r' : Run) : Prop where
  stage : e.stage = stage
  before : e.tokensBefore = r.tokens
  after : e.tokensAfter = r'.tokens
  events : r'.events = r.events ++ [e]

theorem record_tells {r₁ : Run} {stage : Stage} {outcome : Outcome} {detail : Json}
    {warnings : List Warning}
    (h : (p.record r₁ stage r.tokens outcome detail warnings).run w = (r', w'))
    (hevents : r₁.events = r.events) :
    ∃ e, TellsOf e stage r r' ∧ e.outcome = outcome ∧
      r' = { r₁ with events := r.events ++ [e] } := by
  cases h
  exact ⟨_, ⟨rfl, rfl, rfl, by rw [hevents]⟩, rfl, by rw [hevents]⟩

/-- From one run to another, a stage has made some replacements, each as `makes` says. -/
structure Reworks (makes : Replacement → Prop) (stage : Stage) (r r' : Run) (e : Event)
    (rs : List Replacement) : Prop where
  rewrites : Rewrites r.messages rs r'.messages
  made : ∀ x ∈ rs, makes x
  handles : r'.handles = r.handles ++ rs.filterMap (·.handle?)
  pruneIds : r'.pruneIds = r.pruneIds ++ rs.filterMap (·.pruneId?)
  attempted : r.attempted ⊆ r'.attempted
  tried : ∀ x ∈ rs, x.handle? = none → x.index ∈ r'.attempted
  model : r'.model = r.model
  idle : rs = [] → r'.tally = r.tally
  told : TellsOf e stage r r'
  outcome : e.outcome = .reduced ↔ rs ≠ []

theorem outcome_reduced_iff {reduced : Bool} {warnings : List Warning} :
    Outcome.of reduced warnings = .reduced ↔ reduced = true := by
  cases reduced with
  | true => exact ⟨fun _ => rfl, fun _ => rfl⟩
  | false => cases warnings <;> exact ⟨nofun, nofun⟩

theorem maskStage_reworks {move : Option Fallback}
    (h : exec (p.maskStage r) w = (.ok (move, r'), w')) :
    ∃ e rs, Reworks (p.masking.Masks r.model.family r.messages r.tally w) .sanitize r r' e rs := by
  obtain ⟨masked, w₁, detail, hmask, -, hrecord⟩ := maskStage_ran h
  rw [Masking.mask_eq] at hmask
  obtain ⟨rs, hrewrites, hhandles, hidle, hmasks⟩ := Masking.maskEach_rewrites List.prefix_rfl hmask
  obtain ⟨e, htold, houtcome, rfl⟩ := record_tells hrecord rfl
  -- Each replacement of a masking has a handle, and none has the id of a prune.
  have hkind : ∀ x ∈ rs, x.pruneId? = none ∧ x.handle? ≠ none := fun x hx => by
    obtain ⟨-, hx⟩ := hmasks x hx
    cases hx
    exact ⟨rfl, nofun⟩
  refine ⟨e, rs, hrewrites, fun x hx => (hmasks x hx).2, by rw [← hhandles], ?_,
    List.Subset.refl _, fun x hx hnone => absurd hnone (hkind x hx).2, rfl, hidle, htold, ?_⟩
  · rw [List.filterMap_eq_nil_iff.mpr fun x hx => (hkind x hx).1, List.append_nil]
    rfl
  · rw [houtcome, outcome_reduced_iff, hhandles, Bool.not_eq_true', List.isEmpty_eq_false_iff]
    refine not_congr ⟨fun hnone => List.eq_nil_iff_forall_not_mem.mpr fun x hx => ?_, ?_⟩
    · exact (hkind x hx).2 (List.filterMap_eq_nil_iff.mp hnone x hx)
    · rintro rfl
      rfl

theorem redactStage_reworks (h : exec (p.redactStage r) w = (.ok r', w')) :
    ∃ e rs, Reworks (p.Redacts r w) .redact r r' e rs := by
  obtain ⟨done, w₁, r₁, heach, hrecord, rfl⟩ := redactStage_ran h
  obtain ⟨rs, hat⟩ := redactEach_rewrites List.prefix_rfl heach
  obtain ⟨e, htold, houtcome, rfl⟩ := record_tells hrecord (redactEach_ran heach).2
  have hkind : ∀ x ∈ rs, x.handle? = none := fun x hx => by
    cases hat.redacts x hx
    rfl
  refine ⟨e, rs, hat.rewrites, hat.redacts, ?_, ?_, hat.attempted, fun x hx _ => hat.tried x hx,
    (redactEach_ran heach).1.model, hat.idle,
    ⟨htold.stage, htold.before, htold.after, htold.events⟩, ?_⟩
  · rw [List.filterMap_eq_nil_iff.mpr hkind, List.append_nil]
    exact hat.handles
  · rw [← hat.pruneIds, ← hat.ids]
  · rw [houtcome]
    split
    · rename_i hnone
      refine ⟨nofun, fun hrs => ?_⟩
      obtain ⟨x, hx⟩ := List.exists_mem_of_ne_nil rs hrs
      have hplace := hat.within x hx
      rw [List.isEmpty_iff.mp hnone] at hplace
      cases hplace
    · rw [outcome_reduced_iff, hat.reduced, Bool.not_eq_true', List.isEmpty_eq_false_iff]
      exact not_congr List.map_eq_nil_iff

/-- In a compaction, there is a summary for the messages that are to give way to it, the first of
which is at a place: the summarizer answered in time, and with more than blanks. -/
inductive Summarizes (p : Pipeline σ) (r : Run) (w : σ) : Nat → Message → σ → Prop where
  | intro {summarize : Summarizer σ} {reply : Call String} {w₁ : σ} {text : String}
    {first : Message} {place : Nat} {rest : List (Message × Nat)}
    (given : p.summarizer = some summarize) (due : p.skipReason? r = none)
    (some_left :
      Compaction.condensed p.settings.compaction.config r.messages = (first, place) :: rest)
    (asked : (summarize (Compaction.render
      ((Compaction.condensed p.settings.compaction.config r.messages).map (·.1)))
      p.settings.compaction.config.summaryChars).run w = (reply, w₁))
    (answered : Compaction.usable p.settings.compaction.config.limit
      (reply.within p.settings.compaction.config.limit) = .ok text) :
    Summarizes p r w place (Compaction.summaryMessage p.settings.compaction.config first
      (Compaction.condensed p.settings.compaction.config r.messages).length text) w₁

/-- In a compaction, a summary takes the place of messages. -/
inductive Condenses (p : Pipeline σ) (r : Run) (w : σ) : Conversation → Prop where
  | intro {place : Nat} {summary : Message} {w₁ : σ}
    (summarizes : p.Summarizes r w place summary w₁) :
    Condenses p r w (Compaction.splice r.messages
      (Compaction.givesWay p.settings.compaction.config r.messages) place summary)

/-- A compaction leaves the conversation or puts a summary in it, and its event tells which. -/
theorem compact_condenses (h : exec (p.compact r) w = (.ok (signal, r'), w')) :
    ∃ e, TellsOf e .compact r r' ∧ r'.handles = r.handles ∧ r'.pruneIds = r.pruneIds ∧
      r'.attempted = r.attempted ∧ r'.model = r.model ∧
      ((r'.messages = r.messages ∧ r'.tally = r.tally ∧ e.outcome ≠ .reduced) ∨
        (Condenses p r w r'.messages ∧ e.outcome = .reduced)) := by
  obtain ⟨-, hcompact⟩ := compact_ran h
  rcases hcompact with ⟨detail, hrecord⟩ | ⟨summarize, c, w₁, detail, hsummarize, hdue,
    hcompacted, hrecord⟩
  · obtain ⟨e, htold, houtcome, rfl⟩ := record_tells hrecord rfl
    exact ⟨e, htold, rfl, rfl, rfl, rfl, .inl ⟨rfl, rfl, by rw [houtcome]; nofun⟩⟩
  · obtain ⟨e, htold, houtcome, rfl⟩ := record_tells hrecord rfl
    refine ⟨e, htold, rfl, rfl, rfl, rfl, ?_⟩
    cases Compaction.compact_cases hcompacted with
    | nothing => exact .inl ⟨rfl, rfl, by rw [houtcome]; nofun⟩
    | useless => exact .inl ⟨rfl, rfl, by rw [houtcome]; nofun⟩
    | summed first place rest reply _ text _ _ _ some_left asked answered composed =>
      subst composed
      exact .inr ⟨.intro (.intro hsummarize hdue some_left asked answered), houtcome⟩

/-! ## What a run asks its services -/

/-- In a run, the store is asked to keep the handle of the message at a place, and answers. -/
inductive StoreCall (p : Pipeline σ) (start : Run) (w : σ) (index : Nat) (m : Message)
    (handle : Handle) (reply : Call String) : Prop where
  | intro {r : Run} {w₁ : σ} {tokens : Nat} {w₂ : σ} (reached : Reaches p start w .sanitize r w₁)
    (asks : p.masking.Asks r.model.family r.messages r.tally w₁ index m tokens handle reply w₂)

/-- In a run, the redactor is asked for the message at a place, and answers. -/
inductive PruneCall (p : Pipeline σ) (start : Run) (w : σ) (index : Nat) (m : Message)
    (reply : Pending PruneResponse) : Prop where
  | intro {r : Run} {w₁ w₂ : σ} (reached : Reaches p start w .redact r w₁)
    (asks : p.Prunes r w₁ index m reply w₂)

/-- In a run, the summarizer is asked for a summary of the messages that are to give way to it, and
answers. -/
inductive SummaryCall (p : Pipeline σ) (start : Run) (w : σ) (reply : Call String) : Prop where
  | intro {r : Run} {w₁ : σ} {summarize : Summarizer σ} {w₂ : σ}
    (reached : Reaches p start w .compact r w₁) (given : p.summarizer = some summarize)
    (due : p.skipReason? r = none)
    (some_left : Compaction.condensed p.settings.compaction.config r.messages ≠ [])
    (asked : (summarize (Compaction.render
      ((Compaction.condensed p.settings.compaction.config r.messages).map (·.1)))
      p.settings.compaction.config.summaryChars).run w₁ = (reply, w₂))

/-- In a run, a message is replaced. -/
inductive Replaces (p : Pipeline σ) (start : Run) (w : σ) : Replacement → Prop where
  | masked {index : Nat} {m : Message} {tokens : Nat} {handle : Handle} {reply : Call String}
    {id : String} (tool : m.role = .tool) (call : StoreCall p start w index m handle reply)
    (answer : reply.within p.settings.masking.storeLimit = some (.ok id)) :
    Replaces p start w (.masked index m { handle with id } tokens)
  | redacted {index : Nat} {m : Message} {reply : Pending PruneResponse}
    {response : PruneResponse} (spared : m.role ≠ .system)
    (call : PruneCall p start w index m reply)
    (answered : reply.within p.patience = some response) (accepted : response.gaveBack = false) :
    Replaces p start w (.redacted index m response)

theorem Replaces.of_masks {x : Replacement} (reached : Reaches p start w .sanitize r w')
    (h : p.masking.Masks r.model.family r.messages r.tally w' x) : Replaces p start w x := by
  cases h with
  | intro asks answer => exact .masked asks.tool (.intro reached asks) answer

theorem Replaces.of_redacts {x : Replacement} (reached : Reaches p start w .redact r w')
    (h : p.Redacts r w' x) : Replaces p start w x := by
  cases h with
  | intro asks answered useful =>
    exact .redacted asks.spared (.intro reached asks) answered (Bool.or_eq_false_iff.mp useful).1

/-! ## What a run has done by the time it comes to a phase -/

/-- From one run to another nothing was done but to count or to move to a larger model, if that. -/
structure SameWork (r r' : Run) : Prop where
  messages : r'.messages = r.messages
  handles : r'.handles = r.handles
  pruneIds : r'.pruneIds = r.pruneIds
  attempted : r'.attempted = r.attempted
  events : ∃ es, r'.events = r.events ++ es ∧ ∀ e ∈ es, e.stage = .account ∨ e.stage = .fallback

theorem SameWork.refl (r : Run) : SameWork r r :=
  ⟨rfl, rfl, rfl, rfl, [], (List.append_nil _).symm, by simp⟩

theorem fallBack_sameWork {m : Fallback} (h : (p.fallBack r m).run w = (r', w')) :
    SameWork r r' := by
  unfold fallBack at h
  split at h
  · cases h
    exact .refl r
  · obtain ⟨e, ⟨hstage, -⟩, rfl, -⟩ := record_ran h
    exact ⟨rfl, rfl, rfl, rfl, [e], rfl, by simpa using .inr hstage⟩

theorem account_sameWork (h : exec (p.account r) w = (.ok (signal, r'), w')) : SameWork r r' := by
  obtain ⟨tally, w₁, detail, -, -, hrecord⟩ := account_ran h
  obtain ⟨e, ⟨hstage, -⟩, rfl, -⟩ := record_ran hrecord
  exact ⟨rfl, rfl, rfl, rfl, [e], rfl, by simpa using .inl hstage⟩

theorem afterMasking_sameWork {move : Option Fallback}
    (h : (p.afterMasking r move).run w = ((signal, r'), w')) : SameWork r r' := by
  cases afterMasking_cases h with
  | goesOn => exact .refl r
  | putOff => exact ⟨rfl, rfl, rfl, rfl, [], (List.append_nil _).symm, by simp⟩
  | moved _ _ _ _ _ _ fell => exact fallBack_sameWork fell

theorem afterRedaction_sameWork (h : (p.afterRedaction r).run w = ((signal, r'), w')) :
    SameWork r r' := by
  cases afterRedaction_cases h with
  | goesOn => exact .refl r
  | moved _ _ _ _ _ _ _ fell => exact fallBack_sameWork fell

/-- No compaction has put in a summary. -/
def Unsummed (events : List Event) : Prop := ∀ e ∈ events, e.stage = .compact → e.outcome ≠ .reduced

theorem Unsummed.append {events es : List Event} (h : Unsummed events) (hes : Unsummed es) :
    Unsummed (events ++ es) := fun e he => (List.mem_append.mp he).elim (h e) (hes e)

theorem SameWork.unsummed (h : SameWork r r') (hunsummed : Unsummed r.events) :
    Unsummed r'.events := by
  obtain ⟨es, hevents, hes⟩ := h.events
  rw [hevents]
  refine hunsummed.append fun e he hcompact => ?_
  rcases hes e he with hstage | hstage <;> cases hstage.symm.trans hcompact

/-- What a run has done by the time it comes to a phase: replacements that lead to the conversation
`kept`, and at the end perhaps a summary in it. -/
structure History (p : Pipeline σ) (start : Run) (w : σ) (phase : Phase) (r : Run)
    (kept : Conversation) (rs : List Replacement) : Prop where
  rewrites : Rewrites start.messages rs kept
  made : ∀ x ∈ rs, Replaces p start w x
  handles : r.handles = start.handles ++ rs.filterMap (·.handle?)
  pruneIds : r.pruneIds = start.pruneIds ++ rs.filterMap (·.pruneId?)
  tried : ∀ x ∈ rs, x.handle? = none → x.index ∈ r.attempted
  summed : (r.messages = kept ∧ Unsummed r.events) ∨ (phase = .done ∧ ∃ r₀ w₀ e,
    Reaches p start w .compact r₀ w₀ ∧ r₀.messages = kept ∧ Unsummed r₀.events ∧
      Condenses p r₀ w₀ r.messages ∧ r.events = r₀.events ++ [e] ∧ e.stage = .compact ∧
      e.outcome = .reduced)

namespace History

variable {phase' : Phase} {kept : Conversation} {rs rs' : List Replacement}

/-- Before the end, no summary has been put in. -/
theorem running (h : History p start w phase r kept rs) (more : phase ≠ .done) :
    r.messages = kept ∧ Unsummed r.events :=
  h.summed.resolve_right fun hdone => more hdone.1

theorem of_sameWork (h : History p start w phase r kept rs) (more : phase ≠ .done)
    (hsame : SameWork r r') : History p start w phase' r' kept rs := by
  obtain ⟨hkept, hunsummed⟩ := h.running more
  exact ⟨h.rewrites, h.made, hsame.handles ▸ h.handles, hsame.pruneIds ▸ h.pruneIds,
    hsame.attempted ▸ h.tried, .inl ⟨hsame.messages.trans hkept, hsame.unsummed hunsummed⟩⟩

theorem reworks {makes : Replacement → Prop} {stage : Stage} {e : Event}
    (h : History p start w phase r kept rs) (more : phase ≠ .done) (hstage : stage ≠ .compact)
    (hmakes : ∀ x, makes x → Replaces p start w x) (hreworks : Reworks makes stage r r' e rs') :
    History p start w phase' r' r'.messages (rs ++ rs') := by
  obtain ⟨hkept, hunsummed⟩ := h.running more
  refine ⟨h.rewrites.trans (hkept ▸ hreworks.rewrites), fun x hx => ?_, ?_, ?_,
    fun x hx hnone => ?_, .inl ⟨rfl, ?_⟩⟩
  · exact (List.mem_append.mp hx).elim (h.made x) fun hx => hmakes x (hreworks.made x hx)
  · rw [hreworks.handles, h.handles, List.filterMap_append, List.append_assoc]
  · rw [hreworks.pruneIds, h.pruneIds, List.filterMap_append, List.append_assoc]
  · exact (List.mem_append.mp hx).elim (fun hx => hreworks.attempted (h.tried x hx hnone))
      fun hx => hreworks.tried x hx hnone
  · rw [hreworks.told.events]
    refine hunsummed.append fun e' he' hcompact => ?_
    obtain rfl := List.mem_singleton.mp he'
    exact absurd (hreworks.told.stage.symm.trans hcompact) hstage

end History

/-- Wherever a run comes to, what was done is what the stages before did. -/
theorem reaches_history (hstart : Unsummed start.events) (hreach : Reaches p start w phase r w') :
    ∃ kept rs, History p start w phase r kept rs := by
  induction hreach with
  | start =>
    exact ⟨start.messages, [], .nil, by simp, (List.append_nil _).symm, (List.append_nil _).symm,
      by simp, .inl ⟨rfl, hstart⟩⟩
  | @step phase r w₁ signal r' w₂ before more ran ih =>
    obtain ⟨kept, rs, h⟩ := ih
    cases phase with
    | start =>
      obtain ⟨heq, -⟩ := pure_ran ran
      cases heq
      exact ⟨kept, rs, h.of_sameWork more (.refl r)⟩
    | account =>
      exact ⟨kept, rs, h.of_sameWork more (account_sameWork ran)⟩
    | sanitize =>
      change exec (p.sanitize r) w₁ = _ at ran
      rw [sanitize_eq] at ran
      obtain ⟨⟨move, r₁⟩, w₀, hmask, hafter⟩ := bind_ran ran
      obtain ⟨e, rs', hreworks⟩ := maskStage_reworks hmask
      have hmasked : History p start w .sanitize r₁ r₁.messages (rs ++ rs') :=
        h.reworks more (by decide) (fun _ => .of_masks before) hreworks
      exact ⟨_, _, hmasked.of_sameWork more (afterMasking_sameWork (lift_ran hafter))⟩
    | redact =>
      change exec (p.redact r) w₁ = _ at ran
      rw [redact_eq] at ran
      obtain ⟨r₁, w₀, hredact, hafter⟩ := bind_ran ran
      obtain ⟨e, rs', hreworks⟩ := redactStage_reworks hredact
      have hredacted : History p start w .redact r₁ r₁.messages (rs ++ rs') :=
        h.reworks more (by decide) (fun _ => .of_redacts before) hreworks
      exact ⟨_, _, hredacted.of_sameWork more (afterRedaction_sameWork (lift_ran hafter))⟩
    | compact =>
      obtain ⟨e, htold, hhandles, hids, hattempted, -, hcompact⟩ := compact_condenses ran
      obtain ⟨hkept, hunsummed⟩ := h.running more
      refine ⟨kept, rs, h.rewrites, h.made, hhandles ▸ h.handles, hids ▸ h.pruneIds,
        hattempted ▸ h.tried, ?_⟩
      rcases hcompact with ⟨hsame, -, houtcome⟩ | ⟨hcondenses, houtcome⟩
      · refine .inl ⟨hsame.trans hkept, htold.events ▸ hunsummed.append fun e' he' _ => ?_⟩
        exact List.mem_singleton.mp he' ▸ houtcome
      · exact .inr ⟨rfl, r, w₁, e, before, hkept, hunsummed, hcondenses, htold.events, htold.stage,
          houtcome⟩
    | done => exact absurd rfl more

/-! ## What the redactor is asked for -/

/-- The redactor is asked for messages only as the run was given them: what it left of a message, or
what masked one, is not given to it again. -/
theorem PruneCall.original {index : Nat} {m : Message} {reply : Pending PruneResponse}
    (h : PruneCall p start w index m reply) (hstart : Unsummed start.events) :
    start.messages[index]? = some m := by
  obtain ⟨reached, asks⟩ := h
  obtain ⟨hm, hcandidate⟩ := asks.candidate
  obtain ⟨kept, rs, hhistory⟩ := reaches_history hstart reached
  obtain ⟨rfl, -⟩ := hhistory.running (by decide)
  have hlt : index < start.messages.length := by
    rw [← hhistory.rewrites.length_eq]
    exact (List.getElem?_eq_some_iff.mp hm).1
  obtain ⟨m', hm', hcases⟩ := hhistory.rewrites.slot (List.getElem?_eq_getElem hlt)
  obtain rfl := Option.some.inj (hm.symm.trans hm')
  rcases hcases with rfl | ⟨x, hx, hplace, -, rfl⟩
  · exact List.getElem?_eq_getElem hlt
  · exfalso
    cases x with
    | masked _ _ handle tokens =>
      simp [Run.isCandidate, Replacement.content, Replacement.isMasked_placeholder] at hcandidate
    | redacted place old response =>
      have htried := hhistory.tried _ hx rfl
      rw [hplace] at htried
      simp [Run.isCandidate, htried] at hcandidate

end Pipeline
end ContextBudget
