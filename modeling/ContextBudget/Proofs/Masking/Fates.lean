import ContextBudget.Proofs.Masking.Pass

/-!
# What becomes of each message in a pass

A pass goes over a conversation whose counts it changes as it goes. Still the fate of a message
depends on the message, its own count, and what the store answers when it is asked.

- `Meets`: what may become of a message, and when.
- `Passes`: a conversation meets its fates one message after another.
- `mask_fates`: all that a pass gives follows from the fates of the messages.
- `mask_of_spared`: a pass that applies to no message does nothing.
- `pass_masks`: a pass masks just the output that is due and that the store keeps.
- `pass_idempotent`: where the store keeps all, a second pass does nothing.
-/

namespace ContextBudget
namespace Masking

open BudgetM
open Tokenizers (letters)

/-- What becomes of a message in a pass. -/
inductive Fate where
  /-- The pass does not apply to it. -/
  | spared
  /-- Its output could not be stored, so it stays. -/
  | unstored (detail : String)
  /-- The placeholder of a handle takes its place. -/
  | masked (handle : Handle)

namespace Fate

/-- What stands at the place of a message of so many tokens afterwards. -/
def message (m : Message) (tokens : Nat) : Fate → Message
  | masked handle => standIn m handle tokens
  | _ => m

/-- The handle that was made. -/
def handle? : Fate → Option Handle
  | masked handle => some handle
  | _ => none

/-- The warning about the message at an index. -/
def warning? (index : Nat) : Fate → Option Warning
  | unstored detail => some (notStored index detail)
  | _ => none

end Fate

variable {σ : Type} {k : Masking σ} {count : String → String → Nat} {family : String}
  {done done' : Masked} {m : Message} {index tokens : Nat} {messages before rest : Conversation}
  {tally : Tally} {fate : Fate} {fates : List Fate} {w w' : σ}

/-- A pass is to mask a message of so many tokens: it is output of a tool that is not masked yet
and counts more tokens than the threshold. -/
def Due (k : Masking σ) (m : Message) (tokens : Nat) : Prop :=
  m.role = .tool ∧ m.isMasked = false ∧ k.config.threshold < tokens

theorem applies_iff : applies k.config m tokens = true ↔ k.Due m tokens := by
  simp [applies, Due, and_assoc]

theorem applies_eq_false_iff : applies k.config m tokens = false ↔ ¬ k.Due m tokens := by
  rw [← applies_iff, Bool.not_eq_true]

/-- A message of so many tokens meets its fate. If it is due, the store is asked to keep its output,
and the placeholder takes its place if the store answers in time with an id. -/
inductive Meets (k : Masking σ) (family : String) (m : Message) (tokens : Nat) (w : σ) :
    Fate → σ → Prop where
  | spared (spared : ¬ k.Due m tokens) : Meets k family m tokens w .spared w
  | late {time : Moment} {w₁ : σ} {reply : Call String} {w' : σ} (due : k.Due m tokens)
    (clock : k.now.run w = (time, w₁))
    (asked : (k.keeper.store (k.handleFor m time)).run w₁ = (reply, w'))
    (unanswered : reply.within k.config.storeLimit = none) :
    Meets k family m tokens w (.unstored ("store timed out after " ++ k.config.storeLimit.text)) w'
  | refused {time : Moment} {w₁ : σ} {reply : Call String} {e : ServiceError} {w' : σ}
    (due : k.Due m tokens) (clock : k.now.run w = (time, w₁))
    (asked : (k.keeper.store (k.handleFor m time)).run w₁ = (reply, w'))
    (refusal : reply.within k.config.storeLimit = some (.error e)) :
    Meets k family m tokens w (.unstored e.message) w'
  | masked {time : Moment} {w₁ : σ} {reply : Call String} {id : String} {w₂ : σ} {entry : Entry}
    {w' : σ} (due : k.Due m tokens) (clock : k.now.run w = (time, w₁))
    (asked : (k.keeper.store (k.handleFor m time)).run w₁ = (reply, w₂))
    (answer : reply.within k.config.storeLimit = some (.ok id))
    (counted : exec (k.tokenizers.countMessage family
      (standIn m { k.handleFor m time with id } tokens)) w₂ = (.ok entry, w')) :
    Meets k family m tokens w (.masked { k.handleFor m time with id }) w'

/-- The messages of a conversation meet their fates one after another, each with its own count, and
the services go on from one to the next. -/
inductive Passes (k : Masking σ) (count : String → String → Nat) (family : String) :
    Conversation → σ → List Fate → σ → Prop where
  | nil {w : σ} : Passes k count family [] w [] w
  | cons {m : Message} {rest : Conversation} {fate : Fate} {fates : List Fate} {w w₁ w' : σ}
    (first : k.Meets family m (count family m.content) w fate w₁)
    (later : Passes k count family rest w₁ fates w') :
    Passes k count family (m :: rest) w (fate :: fates) w'

/-- A conversation after its messages have met their fates. -/
def settle (count : String → String → Nat) (family : String) (messages : Conversation)
    (fates : List Fate) : Conversation :=
  List.zipWith (fun m fate => fate.message m (count family m.content)) messages fates

/-- The warnings about messages from an index on, in order. -/
def warningsFrom (start : Nat) (fates : List Fate) : List Warning :=
  (fates.zipIdx start).filterMap fun p => p.1.warning? p.2

@[simp] theorem settle_cons : settle count family (m :: rest) (fate :: fates) =
    fate.message m (count family m.content) :: settle count family rest fates := rfl

theorem warningsFrom_cons (start : Nat) : warningsFrom start (fate :: fates) =
    (fate.warning? start).toList ++ warningsFrom (start + 1) fates := by
  rw [warningsFrom, List.zipIdx_cons, List.filterMap_cons]
  cases fate.warning? start <;> rfl

theorem handles_cons : (fate :: fates).filterMap Fate.handle? =
    fate.handle?.toList ++ fates.filterMap Fate.handle? := by
  rw [List.filterMap_cons]
  cases fate.handle? <;> rfl

theorem Passes.length_eq (h : Passes k count family messages w fates w') :
    fates.length = messages.length := by
  induction h with
  | nil => rfl
  | cons _ _ ih => rw [List.length_cons, List.length_cons, ih]

/-! ## A pass by its fates -/

/-- A pass that comes to a message settles its fate, and what it gives follows from that. -/
theorem maskOne_meets (hcounters : k.tokenizers.CountsBy count)
    (hfound : done.messages[index]? = some m)
    (hentries : done.tally.entries = entriesOf count family done.messages)
    (h : exec (k.maskOne family done m index) w = (.ok done', w')) :
    ∃ fate, k.Meets family m (count family m.content) w fate w' ∧
      done'.messages = done.messages.set index (fate.message m (count family m.content)) ∧
      done'.handles = done.handles ++ fate.handle?.toList ∧
      done'.warnings = done.warnings ++ (fate.warning? index).toList ∧
      done'.tally.entries = entriesOf count family done'.messages ∧
      (weight count family done'.messages < Word.size → done.tally.AddsUp →
        done'.tally.AddsUp) := by
  have hkept : done.messages = done.messages.set index m := by
    obtain ⟨hlt, rfl⟩ := List.getElem?_eq_some_iff.mp hfound
    exact (List.set_getElem_self hlt).symm
  rw [← Tally.tokensAt_eq hentries hfound]
  cases maskOne_cases h with
  | left spared =>
    exact ⟨.spared, .spared (applies_eq_false_iff.mp spared), hkept, (List.append_nil _).symm,
      (List.append_nil _).symm, hentries, fun _ hsums => hsums⟩
  | late time w₁ reply _ due clock asked unanswered =>
    exact ⟨_, .late (applies_iff.mp due) clock asked unanswered, hkept, (List.append_nil _).symm,
      rfl, hentries, fun _ hsums => hsums⟩
  | refused time w₁ reply e _ due clock asked refusal =>
    exact ⟨_, .refused (applies_iff.mp due) clock asked refusal, hkept, (List.append_nil _).symm,
      rfl, hentries, fun _ hsums => hsums⟩
  | stored time w₁ reply id w₂ entry _ due clock asked answer counted =>
    obtain rfl := Tokenizers.countMessage_ran hcounters counted
    refine ⟨_, .masked (applies_iff.mp due) clock asked answer counted, rfl, rfl,
      (List.append_nil _).symm, Tally.entries_replace hentries, fun hsmall hsums => ?_⟩
    exact ((⟨hentries, hsums⟩ : done.tally.Exact count family done.messages).set hsmall).totals

/-- What a pass that has come past some messages gives in the end, by the fates of the others. -/
structure Settles (count : String → String → Nat) (family : String) (before : Conversation)
    (done : Masked) (rest : Conversation) (fates : List Fate) (done' : Masked) : Prop where
  messages : done'.messages = before ++ settle count family rest fates
  handles : done'.handles = done.handles ++ fates.filterMap Fate.handle?
  warnings : done'.warnings = done.warnings ++ warningsFrom before.length fates
  entries : done'.tally.entries = entriesOf count family done'.messages
  /-- The sums are exact as long as those of each conversation in between are words. -/
  totals : (∀ j, weight count family
      (before ++ (settle count family rest fates).take j ++ rest.drop j) < Word.size) →
    done.tally.AddsUp → done'.tally.AddsUp

theorem maskEach_fates (hcounters : k.tokenizers.CountsBy count)
    (hmessages : done.messages = before ++ rest)
    (hentries : done.tally.entries = entriesOf count family done.messages)
    (h : exec (k.maskEach family done (rest.zipIdx before.length)) w = (.ok done', w')) :
    ∃ fates, Passes k count family rest w fates w' ∧
      Settles count family before done rest fates done' := by
  induction rest generalizing before done w with
  | nil =>
    obtain ⟨rfl, rfl⟩ := pure_ran h
    exact ⟨[], .nil, hmessages, (List.append_nil _).symm, (List.append_nil _).symm, hentries,
      fun _ hsums => hsums⟩
  | cons m rest ih =>
    rw [maskEach, List.zipIdx_cons, List.foldlM_cons] at h
    obtain ⟨next, w₁, hone, hrest⟩ := bind_ran h
    have hfound : done.messages[before.length]? = some m := by
      rw [hmessages, List.getElem?_append_right (Nat.le_refl _), Nat.sub_self]
      rfl
    obtain ⟨fate, hmeets, hnext, hhandles, hwarnings, hexact, hsums⟩ :=
      maskOne_meets hcounters hfound hentries hone
    have hsplit : next.messages =
        (before ++ [fate.message m (count family m.content)]) ++ rest := by
      rw [hnext, hmessages, List.set_append_right _ _ (Nat.le_refl _), Nat.sub_self,
        List.set_cons_zero, List.append_assoc]
      rfl
    have hlength : before.length + 1 =
        (before ++ [fate.message m (count family m.content)]).length := by simp
    rw [hlength] at hrest
    obtain ⟨fates, hpasses, hsettles⟩ := ih hsplit hexact hrest
    refine ⟨fate :: fates, .cons hmeets hpasses, ?_, ?_, ?_, hsettles.entries,
      fun hsmall hsums₀ => ?_⟩
    · rw [hsettles.messages, settle_cons, List.append_assoc]
      rfl
    · rw [hsettles.handles, hhandles, handles_cons, List.append_assoc]
    · rw [hsettles.warnings, hwarnings, warningsFrom_cons, ← hlength, List.append_assoc]
    · refine hsettles.totals (fun j => ?_) (hsums ?_ hsums₀)
      · simpa using hsmall (j + 1)
      · simpa [hsplit] using hsmall 1

theorem mask_fates (hcounters : k.tokenizers.CountsBy count)
    (hentries : tally.entries = entriesOf count family messages)
    (h : exec (k.mask family messages tally) w = (.ok done, w')) :
    ∃ fates, Passes k count family messages w fates w' ∧
      Settles count family [] ⟨messages, tally, [], []⟩ messages fates done :=
  maskEach_fates hcounters (List.nil_append _).symm hentries h

theorem pass_ran {model : Model} {budget : Budget} {catalog : Option Catalog}
    {move : Option Fallback}
    (h : exec (k.pass model messages tally budget catalog) w = (.ok (done, move), w')) :
    exec (k.mask model.family messages tally) w = (.ok done, w') := by
  obtain ⟨masked, w₁, hmask, h₁⟩ := bind_ran h
  obtain ⟨heq, rfl⟩ := pure_ran h₁
  obtain ⟨rfl, -⟩ := Prod.mk.inj heq
  exact hmask

theorem exists_pass_of_mask {model : Model} (budget : Budget) (catalog : Option Catalog)
    (h : exec (k.mask model.family messages tally) w = (.ok done, w')) :
    ∃ move, exec (k.pass model messages tally budget catalog) w = (.ok (done, move), w') := by
  rw [pass, exec_bind, h]
  exact ⟨_, rfl⟩

/-! ## The fate of one message -/

/-- What the store answers in time when it is asked to keep the output of a message. -/
def answer (k : Masking σ) (m : Message) (w : σ) : Option (Except ServiceError String) :=
  let (time, w₁) := k.now.run w
  ((k.keeper.store (k.handleFor m time)).run w₁).1.within k.config.storeLimit

theorem answer_eq {time : Moment} {w₁ : σ} {reply : Call String}
    (clock : k.now.run w = (time, w₁))
    (asked : (k.keeper.store (k.handleFor m time)).run w₁ = (reply, w')) :
    k.answer m w = reply.within k.config.storeLimit := by
  rw [answer, clock]
  dsimp only
  rw [asked]

theorem isMasked_standIn (m : Message) (handle : Handle) (tokens : Nat) :
    (standIn m handle tokens).isMasked = true := Replacement.isMasked_placeholder m handle tokens

/-- What a message of so many tokens becomes where a pass comes to it. It is another one just if it
is due and the store keeps its output in time: then a placeholder names the id that the store gave,
and the handle holds the old content. A due message whose output is not kept is warned of. -/
structure Becomes (k : Masking σ) (m : Message) (tokens : Nat) (w : σ) (fate : Fate)
    (m' : Message) : Prop where
  role : m'.role = m.role
  index : m'.index = m.index
  callId : m'.callId = m.callId
  replaced : m' ≠ m ↔ k.Due m tokens ∧ ∃ id, k.answer m w = some (.ok id)
  masked : m' ≠ m → ∃ handle, fate = .masked handle ∧ m'.content = handle.placeholder tokens ∧
    handle.content = m.content ∧ k.answer m w = some (.ok handle.id)
  kept : m' = m → fate.handle? = none
  warned : (∃ detail, fate = .unstored detail) ↔
    k.Due m tokens ∧ ∀ id, k.answer m w ≠ some (.ok id)

theorem Becomes.of_unstored (due : k.Due m tokens)
    (hnone : ∀ id, k.answer m w ≠ some (.ok id)) (detail : String) :
    k.Becomes m tokens w (.unstored detail) m :=
  ⟨rfl, rfl, rfl, ⟨fun hne => (hne rfl).elim, fun ⟨_, id, hid⟩ => (hnone id hid).elim⟩,
    fun hne => (hne rfl).elim, fun _ => rfl, ⟨fun _ => ⟨due, hnone⟩, fun _ => ⟨detail, rfl⟩⟩⟩

theorem Meets.becomes (h : k.Meets family m tokens w fate w') :
    k.Becomes m tokens w fate (fate.message m tokens) := by
  cases h with
  | spared spared =>
    exact ⟨rfl, rfl, rfl, ⟨fun hne => (hne rfl).elim, fun ⟨due, _⟩ => (spared due).elim⟩,
      fun hne => (hne rfl).elim, fun _ => rfl, ⟨nofun, fun ⟨due, _⟩ => (spared due).elim⟩⟩
  | late due clock asked unanswered =>
    have hanswer := (answer_eq clock asked).trans unanswered
    exact .of_unstored due (fun _ hid => nomatch hanswer ▸ hid) _
  | refused due clock asked refusal =>
    have hanswer := (answer_eq clock asked).trans refusal
    exact .of_unstored due (fun _ hid => nomatch hanswer ▸ hid) _
  | @masked time _ _ id _ _ _ due clock asked answer counted =>
    have hanswer := (answer_eq clock asked).trans answer
    -- What is masked was no placeholder before, and is one now.
    have hne : standIn m { k.handleFor m time with id } tokens ≠ m := fun heq =>
      Bool.noConfusion (due.2.1.symm.trans (heq ▸ isMasked_standIn m _ tokens))
    exact ⟨rfl, rfl, rfl, ⟨fun _ => ⟨due, id, hanswer⟩, fun _ => hne⟩,
      fun _ => ⟨_, rfl, rfl, rfl, hanswer⟩, fun heq => (hne heq).elim,
      ⟨nofun, fun ⟨_, hnone⟩ => (hnone id hanswer).elim⟩⟩

/-- A pass comes to each message after those before it. -/
theorem Passes.reaches (h : Passes k count family messages w fates w')
    (hm : messages[index]? = some m) :
    ∃ fate w₁ w₂, fates[index]? = some fate ∧
      Passes k count family (messages.take index) w (fates.take index) w₁ ∧
      k.Meets family m (count family m.content) w₁ fate w₂ := by
  induction h generalizing index with
  | nil => cases hm
  | @cons m₀ rest fate fates w w₁ w' first later ih =>
    cases index with
    | zero =>
      obtain rfl := Option.some.inj hm
      exact ⟨fate, w, w₁, rfl, .nil, first⟩
    | succ index =>
      obtain ⟨fate', w₂, w₃, hfate, hpasses, hmeets⟩ := ih hm
      exact ⟨fate', w₂, w₃, hfate, .cons first hpasses, hmeets⟩

theorem getElem?_settle (hm : messages[index]? = some m) (hfate : fates[index]? = some fate) :
    (settle count family messages fates)[index]? =
      some (fate.message m (count family m.content)) := by
  rw [settle, List.getElem?_zipWith, hm, hfate]

/-- Where another message stands after a pass, it is the placeholder of a handle of the pass, and
the handle holds the old content. -/
theorem Passes.exists_handle (h : Passes k count family messages w fates w')
    (hm : messages[index]? = some m) {m' : Message}
    (hm' : (settle count family messages fates)[index]? = some m') (hne : m' ≠ m) :
    ∃ handle ∈ fates.filterMap Fate.handle?,
      m'.content = handle.placeholder (count family m.content) ∧ handle.content = m.content := by
  obtain ⟨fate, w₁, w₂, hfate, -, hmeets⟩ := h.reaches hm
  obtain rfl := Option.some.inj (hm'.symm.trans (getElem?_settle hm hfate))
  obtain ⟨handle, rfl, hcontent, hstored, -⟩ := hmeets.becomes.masked hne
  exact ⟨handle, List.mem_filterMap.mpr ⟨_, List.mem_of_getElem? hfate, rfl⟩, hcontent, hstored⟩

/-! ## Whole passes -/

/-- In a pass, the count of a placeholder fails: that of the handle of an output that the store
keeps. -/
inductive CountFails (k : Masking σ) (family : String) (messages : Conversation) (tally : Tally)
    (w : σ) (e : BudgetError) : Prop where
  | intro {index : Nat} {m : Message} {tokens : Nat} {handle : Handle} {reply : Call String}
    {w₁ : σ} {id : String} {w' : σ}
    (asks : k.Asks family messages tally w index m tokens handle reply w₁)
    (answer : reply.within k.config.storeLimit = some (.ok id))
    (failed : exec (k.tokenizers.counts family [({ handle with id }).placeholder tokens]) w₁ =
      (.error e, w')) : CountFails k family messages tally w e

/-- A pass gives something if no count fails. -/
theorem exists_mask (h : ∀ e, ¬ k.CountFails family messages tally w e) :
    ∃ done w', exec (k.mask family messages tally) w = (.ok done, w') := by
  cases hrun : exec (k.mask family messages tally) w with
  | mk out w' =>
    cases out with
    | ok done => exact ⟨done, w', rfl⟩
    | error e =>
      obtain ⟨_, _, _, _, _, _, _, asks, answer, failed⟩ := maskEach_failed List.prefix_rfl hrun
      exact (h e (.intro asks answer failed)).elim

/-- If no count fails, a pass over a conversation with its exact counts gives one of the same
length. A message of it is another one just if it was output of a tool, not masked, of more tokens
than the threshold, and the store kept it in time; then a placeholder has its content, and its role,
position and call are the old ones. The handles are those of the messages that were masked, in
order, and the warnings those about outputs that could not be stored. The counts are those of the
new conversation, and their sums are exact if those of each conversation in between are words. -/
theorem pass_masks (k : Masking σ) (hcounters : k.tokenizers.CountsBy count) (model : Model)
    (hexact : tally.Exact count model.family messages) (budget : Budget)
    (catalog : Option Catalog) (w : σ)
    (hcounts : ∀ e, ¬ k.CountFails model.family messages tally w e) :
    ∃ masked move w' fates,
      exec (k.pass model messages tally budget catalog) w = (.ok (masked, move), w') ∧
      Passes k count model.family messages w fates w' ∧
      masked.messages.length = messages.length ∧
      (∀ i m, messages[i]? = some m → ∃ m' fate w₁ w₂,
        masked.messages[i]? = some m' ∧ fates[i]? = some fate ∧
        Passes k count model.family (messages.take i) w (fates.take i) w₁ ∧
        k.Meets model.family m (count model.family m.content) w₁ fate w₂ ∧
        k.Becomes m (count model.family m.content) w₁ fate m') ∧
      masked.handles = fates.filterMap Fate.handle? ∧
      masked.warnings = warningsFrom 0 fates ∧
      masked.tally.entries = entriesOf count model.family masked.messages ∧
      ((∀ j, weight count model.family (masked.messages.take j ++ messages.drop j) < Word.size) →
        masked.tally.Exact count model.family masked.messages) := by
  obtain ⟨masked, w', hmask⟩ := exists_mask hcounts
  obtain ⟨fates, hpasses, hsettles⟩ := mask_fates hcounters hexact.entries hmask
  obtain ⟨move, hpass⟩ := exists_pass_of_mask budget catalog hmask
  have hmessages : masked.messages = settle count model.family messages fates :=
    hsettles.messages
  refine ⟨masked, move, w', fates, hpass, hpasses, ?_, fun i m hm => ?_, hsettles.handles,
    hsettles.warnings, hsettles.entries, fun hsmall => ⟨hsettles.entries, ?_⟩⟩
  · rw [hmessages, settle, List.length_zipWith, hpasses.length_eq, Nat.min_self]
  · obtain ⟨fate, w₁, w₂, hfate, hbefore, hmeets⟩ := hpasses.reaches hm
    exact ⟨_, fate, w₁, w₂, hmessages ▸ getElem?_settle hm hfate, hfate, hbefore, hmeets,
      hmeets.becomes⟩
  · exact hsettles.totals (hmessages ▸ hsmall) hexact.totals

/-- A pass that counts letters. -/
def keeping {σ : Type} (keeper : HandleKeeper σ) : Masking σ where
  tokenizers := .ofLetters
  keeper
  now := return ⟨0, 0⟩
  config := { MaskingConfig.standard with threshold := 3 }

/-- A keeper that gives such replies and keeps nothing. -/
def answering (reply : Handle → Call String) : HandleKeeper Unit :=
  ⟨fun handle => return reply handle, fun _ => return .answer none⟩

theorem keeping_not_countFails (keeper : HandleKeeper σ) (messages : Conversation)
    (tally : Tally) (w : σ) (e : BudgetError) :
    ¬ (keeping keeper).CountFails "letters" messages tally w e := by
  rintro ⟨-, -, failed⟩
  obtain ⟨ns, w', hcounts⟩ := Tokenizers.exists_counts_ofLetters _ _
  exact nomatch hcounts.symm.trans failed

/-- Output of two tools. -/
def twoOutputs : Conversation :=
  [.of .user "run both", .toolResult "a" "all is well", .toolResult "b" "disk full"]

/-- The store is full when it comes to the second output, so only the first one is masked. -/
theorem pass_masks_twoOutputs :
    let k := keeping (answering fun handle =>
      if handle.content = "disk full" then .failure (.storage "full") else .answer "kept")
    let tally := Tally.ofEntries (entriesOf letters "letters" twoOutputs)
    tally.Exact letters "letters" twoOutputs ∧
      (∀ e, ¬ k.CountFails "letters" twoOutputs tally () e) ∧
      ∃ masked move w',
        exec (k.pass ⟨"small", "letters", 100⟩ twoOutputs tally (.new 100 0) none) () =
          (.ok (masked, move), w') ∧
        masked.messages.length = 3 ∧
        (∃ m', masked.messages[1]? = some m' ∧ m' ≠ .toolResult "a" "all is well") ∧
        masked.messages[2]? = some (.toolResult "b" "disk full") ∧
        masked.tally.Exact letters "letters" masked.messages := by
  intro k tally
  have hexact : tally.Exact letters "letters" twoOutputs := .ofEntries (by decide +kernel)
  have hcounts := keeping_not_countFails (answering fun handle =>
    if handle.content = "disk full" then .failure (.storage "full") else .answer "kept")
    twoOutputs tally ()
  obtain ⟨masked, move, w', fates, hpass, -, hlength, hplaces, -, -, -, htally⟩ :=
    pass_masks k Tokenizers.ofLetters_countsBy ⟨"small", "letters", 100⟩ hexact (.new 100 0) none ()
      hcounts
  refine ⟨hexact, hcounts, masked, move, w', hpass, hlength, ?_, ?_, htally fun j => ?_⟩
  · obtain ⟨m', fate, w₁, w₂, hm', -, -, -, hbecomes⟩ := hplaces 1 _ rfl
    exact ⟨m', hm', hbecomes.replaced.mpr
      ⟨⟨rfl, by decide +kernel, by decide +kernel⟩, "kept", rfl⟩⟩
  · obtain ⟨m', fate, w₁, w₂, hm', -, -, -, hbecomes⟩ := hplaces 2 _ rfl
    rw [hm']
    refine congrArg some (not_not.mp fun hne => ?_)
    obtain ⟨-, id, hid⟩ := hbecomes.replaced.mp hne
    cases hid
  · refine Nat.lt_of_le_of_lt
      (weight_le_length_mul fun text => Nat.min_le_right text.length 50) ?_
    have hshort : (masked.messages.take j ++ twoOutputs.drop j).length ≤ 6 := by
      rw [List.length_append, List.length_take, List.length_drop, hlength]
      change min j 3 + (3 - j) ≤ 6
      omega
    exact Nat.lt_of_le_of_lt (Nat.mul_le_mul_right 50 hshort) (by decide)

/-! ## A second pass -/

/-- A pass that applies to no message does nothing. -/
theorem mask_of_spared
    (h : ∀ i m, messages[i]? = some m → ¬ k.Due m (tally.tokensAt i)) (w : σ) :
    exec (k.mask family messages tally) w = (.ok ⟨messages, tally, [], []⟩, w) := by
  have hitems : ∀ items : List (Message × Nat), (∀ p ∈ items, ¬ k.Due p.1 (tally.tokensAt p.2)) →
      exec (k.maskEach family ⟨messages, tally, [], []⟩ items) w =
        (.ok ⟨messages, tally, [], []⟩, w) := by
    intro items hspared
    induction items with
    | nil => rfl
    | cons p items ih =>
      obtain ⟨hp, hrest⟩ := List.forall_mem_cons.mp hspared
      have hone : exec (k.maskOne family ⟨messages, tally, [], []⟩ p.1 p.2) w =
          (.ok ⟨messages, tally, [], []⟩, w) := by
        rw [maskOne, if_pos (by rw [applies_eq_false_iff.mpr hp]; rfl)]
        rfl
      rw [maskEach, List.foldlM_cons, exec_bind, hone]
      exact ih hrest
  exact hitems _ fun p hp => h p.2 p.1 (List.mem_zipIdx_iff_getElem?.mp hp)

/-- A store that never fails keeps each handle in time. -/
def NeverFails (k : Masking σ) : Prop :=
  ∀ handle w, ∃ id, ((k.keeper.store handle).run w).1.within k.config.storeLimit = some (.ok id)

/-- Where the store never fails, no message is due after it has met its fate. -/
theorem Meets.not_due (hkeeps : k.NeverFails)
    (h : k.Meets family m (count family m.content) w fate w') {m' : Message}
    (hm' : m' = fate.message m (count family m.content)) :
    ¬ k.Due m' (count family m'.content) := by
  subst hm'
  cases h with
  | spared spared => exact spared
  | @late time w₁ _ _ due clock asked unanswered =>
    obtain ⟨id, hid⟩ := hkeeps (k.handleFor m time) w₁
    rw [asked, unanswered] at hid
    cases hid
  | @refused time w₁ _ _ _ due clock asked refusal =>
    obtain ⟨id, hid⟩ := hkeeps (k.handleFor m time) w₁
    rw [asked, refusal] at hid
    cases hid
  | masked due clock asked answer counted =>
    rintro ⟨-, hmasked, -⟩
    rw [Fate.message, isMasked_standIn] at hmasked
    cases hmasked

/-- Where the store never fails, a pass over what a pass gave, with the counts of that, does
nothing: it masks no message, makes no handle, warns of nothing and asks no service, whatever the
placeholders count. -/
theorem pass_idempotent (k : Masking σ) (hcounters : k.tokenizers.CountsBy count)
    (hkeeps : k.NeverFails) {model : Model}
    (hexact : tally.entries = entriesOf count model.family messages) {budget : Budget}
    {catalog : Option Catalog} {masked : Masked} {move : Option Fallback}
    (hpass : exec (k.pass model messages tally budget catalog) w = (.ok (masked, move), w'))
    {recount : Tally} (hrecount : recount.entries = entriesOf count model.family masked.messages)
    (budget' : Budget) (catalog' : Option Catalog) (v : σ) :
    ∃ move', exec (k.pass model masked.messages recount budget' catalog') v =
      (.ok (⟨masked.messages, recount, [], []⟩, move'), v) := by
  obtain ⟨fates, hpasses, hsettles⟩ := mask_fates hcounters hexact (pass_ran hpass)
  have hmessages : masked.messages = settle count model.family messages fates :=
    hsettles.messages
  refine exists_pass_of_mask budget' catalog' (mask_of_spared (fun i m' hm' => ?_) v)
  have hlt : i < messages.length := by
    have hshort := (List.getElem?_eq_some_iff.mp hm').1
    rw [hmessages, settle, List.length_zipWith] at hshort
    exact Nat.lt_of_lt_of_le hshort (Nat.min_le_left _ _)
  obtain ⟨fate, w₁, w₂, hfate, -, hmeets⟩ :=
    hpasses.reaches (List.getElem?_eq_getElem hlt)
  rw [Tally.tokensAt_eq hrecount hm']
  refine hmeets.not_due hkeeps (Option.some.inj ?_)
  rw [← hm', hmessages, getElem?_settle (List.getElem?_eq_getElem hlt) hfate]

/-- The placeholders of both outputs count more than the threshold, and stay as they are. -/
theorem pass_idempotent_twoOutputs :
    let k := keeping (answering fun _ => .answer "kept")
    let tally := Tally.ofEntries (entriesOf letters "letters" twoOutputs)
    k.NeverFails ∧ ∃ masked move w',
      exec (k.pass ⟨"small", "letters", 100⟩ twoOutputs tally (.new 100 0) none) () =
        (.ok (masked, move), w') ∧
      masked.handles.length = 2 ∧ k.config.threshold < masked.tally.tokensAt 1 ∧
      ∀ recount : Tally, recount.entries = entriesOf letters "letters" masked.messages →
        ∃ move', exec (k.pass ⟨"small", "letters", 100⟩ masked.messages recount (.new 100 0) none)
          () = (.ok (⟨masked.messages, recount, [], []⟩, move'), ()) := by
  intro k tally
  have hkeeps : k.NeverFails := fun _ _ => ⟨"kept", rfl⟩
  obtain ⟨⟨masked, move⟩, w', hpass, htwo, hlong⟩ := ran_of_any
    (P := fun out => out.1.handles.length = 2 ∧ k.config.threshold < out.1.tally.tokensAt 1)
    (by decide +kernel : ((exec (k.pass ⟨"small", "letters", 100⟩ twoOutputs tally (.new 100 0)
      none) ()).1.toOption.any _) = true)
  exact ⟨hkeeps, masked, move, w', hpass, htwo, hlong, fun recount hrecount =>
    pass_idempotent k Tokenizers.ofLetters_countsBy hkeeps rfl hpass hrecount (.new 100 0) none ()⟩

end Masking
end ContextBudget
