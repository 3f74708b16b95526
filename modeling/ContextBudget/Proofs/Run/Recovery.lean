import ContextBudget.Proofs.Json.Settle
import ContextBudget.Proofs.Prune.Ledger
import ContextBudget.Proofs.Run.History

/-!
# Recovering what a run redacted

A run that redacts with a pruner of its own tells of each message that it reduced the place and the
id of its prune. Under that id the pruner has a record of the message as the run was given it.

- `PrunesBy`: the redactor is a pruner whose memory no other service touches.
- `redactEach_made`: the records that are made in a redaction.
- `Ledger`, `reaches_ledger`: the records that have been made wherever a run comes to, and the
  events that tell of them.
- `run_recovers`: each message that a run redacted can be recovered.
-/

namespace ContextBudget

open BudgetM

/-! ## What the event of a redaction says -/

/-- A whole number that is not negative. -/
def Json.nat? : Json → Option Nat
  | int n => n.toNat?
  | _ => none

/-- The places of the messages that a redaction reduced, as its event tells them. -/
def Event.places (e : Event) : List Nat :=
  ((e.detail.field? "messages").bind (Json.list? Json.nat?)).getD []

/-- The ids of the prunes of these messages, as the event tells them. -/
def Event.pruneIds (e : Event) : List String :=
  ((e.detail.field? "prune_ids").bind (Json.list? Json.text?)).getD []

namespace Pipeline

variable {σ : Type} {p : Pipeline σ} {pruner : Pruner σ} {memory : σ → PrunerState}
  {remember : σ → PrunerState → σ} {start r r' : Run} {phase : Phase} {signal : Signal}
  {first : Nat} {made : List PruneRecord} {w₀ w w' : σ}

/-- The event of a redaction tells the places and the ids that the redaction has. -/
theorem read_redactDetail {e : Event} {done : Redacted} (h : e.detail = p.redactDetail r done)
    (hnone : p.places r = [] → done.reduced = [] ∧ done.pruneIds = []) :
    e.places = done.reduced ∧ e.pruneIds = done.pruneIds := by
  rw [Event.places, Event.pruneIds, h, redactDetail]
  split
  · rename_i hempty
    obtain ⟨hreduced, hids⟩ := hnone (List.isEmpty_iff.mp hempty)
    rw [hreduced, hids]
    exact ⟨rfl, rfl⟩
  · have hplace : ∀ n : Nat, Json.nat? (.ofNat n) = some n := fun _ => rfl
    have hid : ∀ s : String, Json.text? (.str s) = some s := fun _ => rfl
    change (Json.list? Json.nat? (.arr (done.reduced.map .ofNat))).getD [] = _ ∧
      (Json.list? Json.text? (.arr (done.pruneIds.map .str))).getD [] = _
    rw [Json.list?_map fun i _ => hplace i, Json.list?_map fun id _ => hid id]
    exact ⟨rfl, rfl⟩

/-- A redaction adds the ids of its prunes, and its event tells them with their places. -/
theorem redactStage_tells (h : exec (p.redactStage r) w = (.ok r', w')) :
    ∃ done w₁ e,
      exec (p.redactEach (Run.goal r.messages) p.patience ⟨r, [], [], []⟩ (p.places r)) w =
        (.ok done, w₁) ∧
      e.stage = .redact ∧ e.places = done.reduced ∧ e.pruneIds = done.pruneIds ∧
      r'.events = r.events ++ [e] ∧ r'.pruneIds = r.pruneIds ++ done.pruneIds ∧
      p.Emitted e w₁ w' := by
  obtain ⟨done, w₁, r₁, heach, hrecord, rfl⟩ := redactStage_ran h
  obtain ⟨rs, hat⟩ := redactEach_rewrites List.prefix_rfl heach
  have hidle : p.places r = [] → done = ⟨r, [], [], []⟩ := fun hnone => by
    rw [hnone] at heach
    exact (pure_ran heach).1
  obtain ⟨e, ⟨hstage, -, -, hdetail⟩, rfl, hemitted⟩ := record_ran hrecord
  obtain ⟨hplaces, hids⟩ := read_redactDetail hdetail fun hnone => by
    rw [hidle hnone]
    exact ⟨rfl, rfl⟩
  refine ⟨done, w₁, e, heach, hstage, hplaces, hids, ?_, ?_, hemitted⟩
  · rw [(redactEach_ran heach).2]
  · rw [← hat.ids]

/-! ## A pruner of the pipeline's own -/

/-- The redactor of a pipeline is a pruner, and no other service touches its memory. -/
structure PrunesBy (p : Pipeline σ) (pruner : Pruner σ) (memory : σ → PrunerState)
    (remember : σ → PrunerState → σ) : Prop where
  redactor : p.redactor = pruner.redactor memory remember
  remembers : ∀ w s, memory (remember w s) = s
  counter : p.tokenizers.Leaves memory
  store : ∀ handle, KeepsCall memory (p.keeper.store handle)
  summarize : ∀ summarize, p.summarizer = some summarize →
    ∀ text most, KeepsCall memory (summarize text most)
  now : KeepsCall memory p.now
  emit : ∀ e, KeepsCall memory (p.emit e)

namespace PrunesBy

/-- A pruner answers at once, and has one more record then. -/
theorem asked (hlocal : p.PrunesBy pruner memory remember)
    (enough : pruner.config.maxRecords ≤ idCount) (hmade : pruner.Made first (memory w) made)
    {request : PruneRequest} {reply : Pending PruneResponse}
    (h : (p.redactor.prune request).run w = (reply, w')) :
    ∃ response record, reply = .done .zero response ∧ record.id = response.id ∧
      record.whole = .ofText request.text ∧ pruner.Made first (memory w') (made ++ [record]) := by
  rw [hlocal.redactor] at h
  rcases hran : PrunerM.exec (pruner.prune request) (memory w) w with ⟨⟨response, s⟩, w₁⟩
  change (Pending.done .zero (PrunerM.exec (pruner.prune request) (memory w) w).1.1,
    remember (PrunerM.exec (pruner.prune request) (memory w) w).2
      (PrunerM.exec (pruner.prune request) (memory w) w).1.2) = (reply, w') at h
  rw [hran] at h
  cases h
  obtain ⟨record, hid, hwhole, hmade'⟩ := hmade.prune enough hran
  exact ⟨response, record, rfl, hid, hwhole, by rwa [hlocal.remembers]⟩

theorem recovered (hlocal : p.PrunesBy pruner memory remember) (id : String) (w : σ) :
    ((p.redactor.recover (.all id)).run w).1 = pruner.recovered id (memory w) w [] := by
  rw [hlocal.redactor]
  rfl

theorem quiet (hlocal : p.PrunesBy pruner memory remember) : p.Quiet memory :=
  ⟨hlocal.counter, hlocal.store, hlocal.now, hlocal.emit⟩

end PrunesBy

/-! ## Stages that do not redact -/

/-- From one run to another nothing was redacted. -/
structure Unredacted (memory : σ → PrunerState) (r : Run) (w : σ) (r' : Run) (w' : σ) : Prop where
  memory : memory w' = memory w
  pruneIds : r'.pruneIds = r.pruneIds
  events : ∃ es, r'.events = r.events ++ es ∧ ∀ e ∈ es, e.stage ≠ .redact

theorem SameWork.unredacted (h : SameWork r r') (hmemory : memory w' = memory w) :
    Unredacted memory r w r' w' := by
  obtain ⟨es, hevents, hes⟩ := h.events
  refine ⟨hmemory, h.pruneIds, es, hevents, fun e he hredact => ?_⟩
  rcases hes e he with hstage | hstage <;> cases hstage.symm.trans hredact

theorem Unredacted.trans {r'' : Run} {w'' : σ} (h : Unredacted memory r w r' w')
    (h' : Unredacted memory r' w' r'' w'') : Unredacted memory r w r'' w'' := by
  obtain ⟨es, hevents, hes⟩ := h.events
  obtain ⟨es', hevents', hes'⟩ := h'.events
  refine ⟨h'.memory.trans h.memory, h'.pruneIds.trans h.pruneIds, es ++ es', ?_, fun e he => ?_⟩
  · rw [hevents', hevents, List.append_assoc]
  · exact (List.mem_append.mp he).elim (hes e) (hes' e)

theorem account_unredacted (hlocal : p.PrunesBy pruner memory remember)
    (h : exec (p.account r) w = (.ok (signal, r'), w')) : Unredacted memory r w r' w' :=
  (account_sameWork h).unredacted ((account_keeps hlocal.quiet r).ran h)

theorem sanitize_unredacted (hlocal : p.PrunesBy pruner memory remember)
    (h : exec (p.sanitize r) w = (.ok (signal, r'), w')) : Unredacted memory r w r' w' := by
  rw [sanitize_eq] at h
  obtain ⟨⟨move, r₁⟩, w₁, hmask, hafter⟩ := bind_ran h
  have hafter := lift_ran hafter
  have hmasked : Unredacted memory r w r₁ w₁ := by
    have hmemory := (maskStage_keeps hlocal.quiet r).ran hmask
    obtain ⟨masked, w₂, detail, -, -, hrecord⟩ := maskStage_ran hmask
    obtain ⟨e, ⟨hstage, -⟩, rfl, -⟩ := record_ran hrecord
    exact ⟨hmemory, rfl, [e], rfl, by simp [hstage]⟩
  exact hmasked.trans ((afterMasking_sameWork hafter).unredacted
    ((afterMasking_keeps hlocal.quiet r₁ move).ran hafter))

theorem afterRedaction_unredacted (hlocal : p.PrunesBy pruner memory remember)
    (h : (p.afterRedaction r).run w = ((signal, r'), w')) : Unredacted memory r w r' w' :=
  (afterRedaction_sameWork h).unredacted ((afterRedaction_keeps hlocal.quiet r).ran h)

theorem compact_unredacted (hlocal : p.PrunesBy pruner memory remember)
    (h : exec (p.compact r) w = (.ok (signal, r'), w')) : Unredacted memory r w r' w' := by
  obtain ⟨e, htold, -, hids, -⟩ := compact_condenses h
  exact ⟨(compact_keeps hlocal.quiet hlocal.summarize r).ran h, hids, [e], htold.events,
    by simp [htold.stage]⟩

/-! ## Records -/

/-- Under an id, there is a record of the message at a place. -/
def Recorded (messages : Conversation) (made : List PruneRecord) (place : Nat) (id : String) :
    Prop :=
  ∃ record ∈ made, ∃ m, record.id = id ∧ messages[place]? = some m ∧
    record.whole = .ofText m.content

theorem Recorded.mono {messages : Conversation} {made made' : List PruneRecord} {place : Nat}
    {id : String} (h : Recorded messages made place id) (hsub : made ⊆ made') :
    Recorded messages made' place id := by
  obtain ⟨record, hrecord, hfor⟩ := h
  exact ⟨record, hsub hrecord, hfor⟩

/-- A redaction leaves a record for each message that it reduces, as the run was given it. -/
theorem redactEach_made (hlocal : p.PrunesBy pruner memory remember)
    (enough : pruner.config.maxRecords ≤ idCount) (hstart : Unsummed start.events)
    (reached : Reaches p start w₀ .redact r w) (hmade : pruner.Made first (memory w) made)
    {places : List Nat} {done : Redacted} (part : places <+: p.places r)
    (h : exec (p.redactEach (Run.goal r.messages) p.patience ⟨r, [], [], []⟩ places) w =
      (.ok done, w')) :
    ∃ new, pruner.Made first (memory w') (made ++ new) ∧
      done.pruneIds.Sublist (new.map (·.id)) ∧
      List.Forall₂ (Recorded start.messages new) done.reduced done.pruneIds := by
  induction places using List.reverseRecOn generalizing done w' with
  | nil =>
    obtain ⟨rfl, rfl⟩ := pure_ran h
    exact ⟨[], by rwa [List.append_nil], .slnil, .nil⟩
  | append_singleton places index ih =>
    rw [redactEach_concat] at h
    obtain ⟨before, w₁, hbefore, hone⟩ := bind_ran h
    obtain ⟨new, hnew, hids, hrecorded⟩ := ih ((List.prefix_append _ _).trans part) hbefore
    split at hone
    · obtain ⟨rfl, rfl⟩ := pure_ran hone
      exact ⟨new, hnew, hids, hrecorded⟩
    · rename_i hexceeded
      -- Each message that is given to the pruner makes one more record, reduced or not.
      have hlast : ∀ {m : Message} {reply : Pending PruneResponse} {w₂ : σ},
          (p.redactor.prune (p.question (Run.goal r.messages) m)).run w₁ = (reply, w₂) →
          ∃ response record, reply = .done .zero response ∧ record.id = response.id ∧
            record.whole = .ofText m.content ∧
            pruner.Made first (memory w₂) (made ++ (new ++ [record])) ∧
            before.pruneIds.Sublist ((new ++ [record]).map (·.id)) ∧
            List.Forall₂ (Recorded start.messages (new ++ [record])) before.reduced
              before.pruneIds := by
        intro m reply w₂ hasked
        obtain ⟨response, record, hreply, hid, hwhole, hmore⟩ := hlocal.asked enough hnew hasked
        refine ⟨response, record, hreply, hid, hwhole, List.append_assoc .. ▸ hmore, ?_, ?_⟩
        · rw [List.map_append]
          exact hids.trans (List.sublist_append_left _ _)
        · exact hrecorded.imp fun _ _ hr => hr.mono (List.subset_append_left _ _)
      cases redactOne_cases hone with
      | absent => exact ⟨new, hnew, hids, hrecorded⟩
      | late m reply _ found asked =>
        obtain ⟨-, record, -, -, -, hmore, hids, hrecorded⟩ := hlast asked
        exact ⟨new ++ [record], hmore, hids, hrecorded⟩
      | same m reply response _ found asked =>
        obtain ⟨-, record, -, -, -, hmore, hids, hrecorded⟩ := hlast asked
        exact ⟨new ++ [record], hmore, hids, hrecorded⟩
      | replaced m reply response w₂ entry _ found asked answered useful counted =>
        obtain ⟨response', record, rfl, hid, hwhole, hmore, -, hrecorded⟩ := hlast asked
        obtain rfl : response' = response := Option.some.inj
          ((Pending.within_done (Nat.zero_le _) _).symm.trans answered)
        have horiginal : start.messages[index]? = some m :=
          PruneCall.original (.intro reached
            (.intro part hbefore (Bool.eq_false_iff.mpr hexceeded) found asked)) hstart
        refine ⟨new ++ [record], ?_, ?_, ?_⟩
        · rw [(Tokenizers.countMessage_keeps hlocal.counter _ _).ran counted]
          exact hmore
        · rw [List.map_append]
          exact hids.append (hid ▸ List.Sublist.refl _)
        · exact List.rel_append hrecorded (.cons ⟨record, by simp, m, hid, horiginal, hwhole⟩ .nil)

/-- The records that have been made by the time a run comes to a phase, and what the events of its
redactions tell of them. -/
structure Ledger (pruner : Pruner σ) (memory : σ → PrunerState) (start : Run) (first : Nat)
    (r : Run) (w : σ) (made : List PruneRecord) : Prop where
  makes : pruner.Made first (memory w) made
  ids : r.pruneIds.Sublist (made.map (·.id))
  told : r.pruneIds = (r.events.filter (·.stage == .redact)).flatMap Event.pruneIds
  recorded : ∀ e ∈ r.events, e.stage = .redact →
    List.Forall₂ (Recorded start.messages made) e.places e.pruneIds

theorem Ledger.of_unredacted (h : Ledger pruner memory start first r w made)
    (hsame : Unredacted memory r w r' w') : Ledger pruner memory start first r' w' made := by
  obtain ⟨es, hevents, hes⟩ := hsame.events
  refine ⟨hsame.memory ▸ h.makes, hsame.pruneIds ▸ h.ids, ?_, fun e he hstage => ?_⟩
  · have hnone : es.filter (·.stage == .redact) = [] :=
      List.filter_eq_nil_iff.mpr fun e he => by simpa using hes e he
    rw [hsame.pruneIds, h.told, hevents, List.filter_append, hnone, List.append_nil]
  · rw [hevents] at he
    exact (List.mem_append.mp he).elim (fun he => h.recorded e he hstage)
      fun he => absurd hstage (hes e he)

theorem Ledger.redacted (h : Ledger pruner memory start first r w made)
    (hlocal : p.PrunesBy pruner memory remember) (enough : pruner.config.maxRecords ≤ idCount)
    (hstart : Unsummed start.events) (reached : Reaches p start w₀ .redact r w)
    (hran : exec (p.redactStage r) w = (.ok r', w')) :
    ∃ made', Ledger pruner memory start first r' w' made' := by
  obtain ⟨done, w₁, e, heach, hstage, hplaces, hids, hevents, hpruneIds, hemitted⟩ :=
    redactStage_tells hran
  obtain ⟨new, hnew, hsub, hrecorded⟩ :=
    redactEach_made hlocal enough hstart reached h.makes List.prefix_rfl heach
  refine ⟨made ++ new, hemitted.keeps hlocal.quiet ▸ hnew, ?_, ?_, fun e' he' hstage' => ?_⟩
  · rw [hpruneIds, List.map_append]
    exact h.ids.append hsub
  · rw [hpruneIds, h.told, hevents, List.filter_append, List.flatMap_append]
    simp [hstage, hids]
  · rw [hevents] at he'
    rcases List.mem_append.mp he' with he' | he'
    · exact (h.recorded e' he' hstage').imp fun _ _ hr => hr.mono (List.subset_append_left _ _)
    · obtain rfl := List.mem_singleton.mp he'
      rw [hplaces, hids]
      exact hrecorded.imp fun _ _ hr => hr.mono (List.subset_append_right _ _)

/-- Wherever a run comes to, its events tell of records that have been made. -/
theorem reaches_ledger (hlocal : p.PrunesBy pruner memory remember)
    (enough : pruner.config.maxRecords ≤ idCount) (hevents : start.events = [])
    (hids : start.pruneIds = [])
    (hempty : (memory w₀).records = .empty pruner.config.maxRecords)
    (hreach : Reaches p start w₀ phase r w) :
    ∃ made, Ledger pruner memory start (memory w₀).next r w made := by
  have hstart : Unsummed start.events := by simp [Unsummed, hevents]
  induction hreach with
  | start =>
    exact ⟨[], .empty hempty, by simp [hids], by simp [hids, hevents], by simp [hevents]⟩
  | @step phase r w₁ signal r' w₂ before more ran ih =>
    obtain ⟨made, h⟩ := ih
    cases phase with
    | start =>
      obtain ⟨heq, rfl⟩ := pure_ran ran
      cases heq
      exact ⟨made, h⟩
    | account => exact ⟨made, h.of_unredacted (account_unredacted hlocal ran)⟩
    | sanitize => exact ⟨made, h.of_unredacted (sanitize_unredacted hlocal ran)⟩
    | redact =>
      change exec (p.redact r) w₁ = _ at ran
      rw [redact_eq] at ran
      obtain ⟨r₁, w₃, hredact, hafter⟩ := bind_ran ran
      obtain ⟨made', h'⟩ := h.redacted hlocal enough hstart before hredact
      exact ⟨made', h'.of_unredacted (afterRedaction_unredacted hlocal (lift_ran hafter))⟩
    | compact => exact ⟨made, h.of_unredacted (compact_unredacted hlocal ran)⟩
    | done => exact absurd rfl more

/-! ## Whole runs -/

/-- What a run redacted with a pruner of its own can be recovered as the run was given it, by the id
that the event tells with the place, until the record expires. The pruner's store began without
records and has room for those of the run. The ids that the run gives are those of its events, each
of them once. -/
theorem run_recovers (p : Pipeline σ) (hlocal : p.PrunesBy pruner memory remember)
    {request : RunRequest} {model : Model} (hmodel : p.resolve request = .ok model)
    (hempty : (memory w).records = .empty pruner.config.maxRecords)
    (hword : pruner.config.maxRecords < Word.size) {result : RunResult}
    (h : exec (p.run request) w = (.ok result, w'))
    (room : Pruner.prunesBetween (memory w) (memory w') ≤ pruner.config.maxRecords) :
    result.pruneIds = (result.events.filter (·.stage == .redact)).flatMap Event.pruneIds ∧
      result.pruneIds.Nodup ∧
      (∀ record ∈ (memory w').records.records, record.life = pruner.config.recordLife ∧
        ∃ v, record.createdAt = (pruner.clock.now.run v).1) ∧
      ∀ e ∈ result.events, e.stage = .redact → e.places.length = e.pruneIds.length ∧
        ∀ (k place : Nat) (id : String), e.places[k]? = some place → e.pruneIds[k]? = some id →
          ∃ m : Message, request.messages[place]? = some m ∧
            ∀ w'', (memory w'').records = (memory w').records →
              (∀ record, (memory w'').records.find? id = some record →
                record.isExpired (pruner.clock.now.run w'').1 = false) →
              ((p.redactor.recover (.all id)).run w'').1 = .ok m.content := by
  have enough : pruner.config.maxRecords ≤ idCount :=
    Nat.le_of_lt (Nat.lt_of_lt_of_le hword (by decide))
  obtain ⟨r, w₁, r', hreach, hfinish, rfl⟩ := run_finishes hmodel h
  obtain ⟨made, hledger⟩ := reaches_ledger hlocal enough rfl rfl hempty hreach
  obtain ⟨last, ⟨hlast, -⟩, rfl, hemitted⟩ := record_ran hfinish
  have hverdict : Unredacted memory r w₁ { r with events := r.events ++ [last] } w' :=
    ⟨hemitted.keeps hlocal.quiet, rfl, [last], rfl, by simp [hlast]⟩
  have hledger := hledger.of_unredacted hverdict
  have hroom : made.length ≤ pruner.config.maxRecords := by
    have hnext := hledger.makes.next
    unfold Pruner.prunesBetween at room
    omega
  have hheld := hledger.makes.held hroom
  refine ⟨hledger.told, ?_, fun record hrecord => hledger.makes.lives record (hheld ▸ hrecord),
    fun e he hstage => ?_⟩
  · exact (hledger.makes.ids ▸ nodup_pruneIds _ (by omega)).sublist hledger.ids
  · have hrecorded := hledger.recorded e he hstage
    refine ⟨hrecorded.length_eq, fun k place id hplace hid => ?_⟩
    obtain ⟨hk, rfl⟩ := List.getElem?_eq_some_iff.mp hplace
    obtain ⟨hk', rfl⟩ := List.getElem?_eq_some_iff.mp hid
    obtain ⟨record, hrecord, m, hrid, hm, hwhole⟩ := hrecorded.get hk hk'
    refine ⟨m, hm, fun w'' hsame alive => ?_⟩
    have hrid : record.id = e.pruneIds[k] := hrid
    have hfound : (memory w'').records.find? e.pruneIds[k] = some record :=
      hrid ▸ hledger.makes.found hroom enough hsame hrecord
    rw [hlocal.recovered]
    exact Pruner.recovered_all hfound hwhole (alive record hfound)

/-- A pruner whose clocks never move, in a world that is nothing but its memory. -/
def ownPruner : Pruner PrunerState := ⟨.standard, none, ⟨pure ⟨0, 0⟩, pure .zero⟩⟩

/-- All lines of a text may go, and nothing tells where they were. -/
def bare : PruneOptions :=
  { PruneOptions.standard with maxRatio := 1, minKeep := 0, markers := false }

/-- A pipeline that counts letters, and prunes each text. -/
def selfPruning : Pipeline PrunerState where
  settings := { Settings.standard with
    redaction := ⟨true, { RedactionConfig.standard with options := bare, minTokens := 1 }⟩ }
  counters := [("letters", fun text => return .answer text.length)]
  keeper := ⟨fun _ => return .failure (.unavailable ""), fun _ => return .failure (.unavailable "")⟩
  redactor := ownPruner.redactor id fun _ s => s
  summarizer := none
  catalog := ⟨[⟨"small", "letters", 4⟩]⟩
  emit _ := return ()
  now := return ⟨0, 0⟩

theorem selfPruning_prunesBy : selfPruning.PrunesBy ownPruner id fun _ s => s where
  redactor := rfl
  remembers _ _ := rfl
  counter c hc text w := by
    obtain rfl := List.mem_singleton.mp hc
    rfl
  store _ _ := rfl
  summarize _ h := nomatch h
  now _ := rfl
  emit _ _ := rfl

/-- A message with a blank line in it. -/
def spaced : RunRequest := ⟨"s", "small", [.of .user "aa\n\nbb"], none, none, some 0⟩

/-- What the pruner is asked for the message. -/
def spacedQuestion : PruneRequest := ⟨"aa\n\nbb", "aa\n\nbb", .auto, bare⟩

/-- What it answers, and what it remembers then: the second of three lines goes. -/
def spacedAnswer (s : PrunerState) : PruneResponse × PrunerState :=
  let id := pruneId s.next
  let whole := Lines.ofText spacedQuestion.text
  let mask := [false, true, false]
  (Pruner.pruned id spacedQuestion
      ⟨mask, spacedQuestion.kind.resolve whole.lines, false, false⟩ [] 0,
    { s with
      next := s.next + 1
      records := s.records.insert ⟨id, whole, Selection.kept mask,
        Selection.cuts id whole.lines mask, ⟨0, 0⟩, ownPruner.config.recordLife⟩ ⟨0, 0⟩ })

theorem ownPruner_spaced (s w : PrunerState) :
    PrunerM.exec (ownPruner.prune spacedQuestion) s w = (spacedAnswer s, w) := by
  have hmask : Pruner.maskOf ownPruner.config spacedQuestion.options
      (Selection.scores (Lines.ofText spacedQuestion.text).lines
        (classify (spacedQuestion.kind.resolve (Lines.ofText spacedQuestion.text).lines)
          (Lines.ofText spacedQuestion.text).lines) (termsOf spacedQuestion.goal) none)
      (Selection.quota spacedQuestion.options (Lines.ofText spacedQuestion.text).lines.length) =
        [false, true, false] := by
    rw [Pruner.maskOf, Selection.mask_eq_map]
    decide +kernel
  rw [Pruner.prune_still (show ownPruner.clock.elapsed = pure .zero from rfl) (by decide) rfl
    (by decide +kernel) (Nat.zero_le _) (by decide +kernel) hmask (by decide +kernel)]
  rfl

/-- The same redactor, with its answer for the message known. -/
def knowing : Redactor PrunerState := { selfPruning.redactor with
  prune := fun request s =>
    if request = spacedQuestion then (.done .zero (spacedAnswer s).1, (spacedAnswer s).2)
    else selfPruning.redactor.prune request s }

theorem selfPruning_knowing : selfPruning = { selfPruning with redactor := knowing } := by
  have hprune : selfPruning.redactor.prune = knowing.prune := by
    funext request s
    change (Pending.done .zero (PrunerM.exec (ownPruner.prune request) s s).1.1,
      (PrunerM.exec (ownPruner.prune request) s s).1.2) = if request = spacedQuestion then _ else _
    split
    · rename_i hrequest
      rw [hrequest, ownPruner_spaced]
    · rfl
  exact congrArg (fun prune => { selfPruning with
    redactor := { selfPruning.redactor with prune } }) hprune

/-- The blank line goes, and the message can be recovered with it. -/
theorem run_recovers_spaced :
    ∃ result w', exec (selfPruning.run spaced) (.fresh .standard 0) = (.ok result, w') ∧
      ∃ e ∈ result.events, e.places = [0] ∧ ∃ id, e.pruneIds = [id] ∧
        ((selfPruning.redactor.recover (.all id)).run w').1 = .ok "aa\n\nbb" := by
  have hmodel : selfPruning.resolve spaced = .ok ⟨"small", "letters", 4⟩ := rfl
  have hrun : ((exec (selfPruning.run spaced) (.fresh .standard 0)).1.toOption.any fun result =>
      ∃ e ∈ result.events, e.stage = .redact ∧ e.places = [0]) = true ∧
      (exec (selfPruning.run spaced) (.fresh .standard 0)).2.next = 1 := by
    rw [selfPruning_knowing]
    decide +kernel
  obtain ⟨hreduced, hnext⟩ := hrun
  obtain ⟨result, w', hran, e, he, hstage, hplaces⟩ := ran_of_any hreduced
  rw [hran] at hnext
  have hroom : Pruner.prunesBetween (.fresh .standard 0) w' ≤ ownPruner.config.maxRecords := by
    rw [Pruner.prunesBetween, hnext]
    decide
  obtain ⟨-, -, hlives, hrecovers⟩ := run_recovers selfPruning selfPruning_prunesBy hmodel rfl
    (by decide) hran hroom
  obtain ⟨hlength, hall⟩ := hrecovers e he hstage
  obtain ⟨id, hid⟩ := List.length_eq_one_iff.mp (hlength.symm.trans (congrArg List.length hplaces))
  obtain ⟨m, hm, hwhole⟩ := hall 0 0 id (by rw [hplaces]; rfl) (by rw [hid]; rfl)
  obtain rfl := Option.some.inj hm
  refine ⟨result, w', hran, e, he, hplaces, id, hid, hwhole w' rfl fun record hrecord => ?_⟩
  -- The clock never moves, so the record is as young as when it was made.
  obtain ⟨hlife, _, hcreated⟩ := hlives record (List.mem_of_find?_eq_some hrecord)
  have hcreated : record.createdAt = ⟨0, 0⟩ := hcreated
  have hnow : (ownPruner.clock.now.run w').1 = ⟨0, 0⟩ := rfl
  rw [PruneRecord.isExpired, hcreated, hlife, hnow]
  decide +kernel

end Pipeline
end ContextBudget
