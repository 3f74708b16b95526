import ContextBudget.Proofs.Json.Records
import ContextBudget.Proofs.Time.Texts
import ContextBudget.Telemetry.Envelope

/-!
# Records on the wire

What is sent as a JSON value is read as it was sent: events, prune requests, prune responses and
requests for lines. An event leaves out an empty list of warnings and a null payload, which are
what its reader puts in their place.

- `Event.ofJson?_toJson`: an event is read from its settled JSON value.
- `wire_roundTrips`: so is each of the records, and the payload of an envelope is its event.
-/

namespace ContextBudget

open Json

namespace Json

theorem field?_append (name : String) (fields more : List (String × Json)) :
    (obj (fields ++ more)).field? name =
      ((obj more).field? name).or ((obj fields).field? name) := by
  simp only [field?, List.reverse_append, List.find?_append]
  cases more.reverse.find? (·.1 == name) <;> rfl

/-- A field that is left out stands for nothing. -/
theorem field?_omitted {name other : String} {omitted : Bool} {v : Json} :
    (obj (if omitted then [] else [(other, v)])).field? name =
      if other = name ∧ omitted = false then some v else none := by
  cases omitted <;> simp [field?]

theorem isNull_iff {v : Json} : v.isNull = true ↔ v = .null := by
  cases v <;> simp [isNull]

end Json

/-! ## Events -/

theorem Stage.choice?_text (s : Stage) : choice? Event.stages (.str s.text) = some s := by
  cases s <;> rfl

theorem Outcome.choice?_text (o : Outcome) : choice? Event.outcomes (.str o.text) = some o := by
  cases o <;> rfl

/-- An event that can be sent: its counts are words, its time is outside leap seconds and has a year
of four digits, and its payload has the fields of its objects in order. -/
structure Event.Typed (e : Event) : Prop where
  plain : e.time.Plain
  year : e.time.FourDigitYear
  tokensBefore : e.tokensBefore < Word.size
  tokensAfter : e.tokensAfter < Word.size
  limit : e.limit < Word.size
  reserved : e.reserved < Word.size
  detail : e.detail.settle = e.detail

/-- The fields that an event always has. -/
def Event.always (e : Event) : List (String × Json) :=
  [("stage", .str e.stage.text), ("session_id", .str e.session),
    ("timestamp", .str e.time.text), ("tokens_before", .ofNat e.tokensBefore),
    ("tokens_after", .ofNat e.tokensAfter), ("outcome", .str e.outcome.text),
    ("model", .str e.model), ("limit", .ofNat e.limit), ("reserved", .ofNat e.reserved)]

theorem Event.field?_toJson (e : Event) (name : String) : e.toJson.field? name =
    ((if "detail" = name ∧ e.detail.isNull = false then some e.detail else none).or
      ((if "warnings" = name ∧ e.warnings.isEmpty = false then
          some (arr (e.warnings.map Warning.toJson)) else none).or
        ((obj e.always).field? name))) := by
  rw [toJson, field?_append, field?_append, field?_omitted, field?_omitted, always]

/-- A record of an event's settled JSON value has the fields of the event. -/
theorem Event.exists_record (names : List String) (e : Event) :
    ∃ r, Record.ofJson? names e.toJson.settle = some r ∧
      (∀ name ∈ names, r.get? name = (e.toJson.field? name).map settle) ∧
      ∀ name ∈ names, "warnings" ≠ name → "detail" ≠ name →
        r.get? name = ((obj e.always).field? name).map settle := by
  obtain ⟨r, hr, -, hget⟩ := Record.exists_record names _
  refine ⟨r, hr, hget, fun name hname hwarnings hdetail => ?_⟩
  have hfield := hget name hname
  change r.get? name = (e.toJson.field? name).map settle at hfield
  rw [hfield, field?_toJson, if_neg fun h => hdetail h.1, if_neg fun h => hwarnings h.1,
    Option.none_or, Option.none_or]

theorem Event.ofJson?_toJson {e : Event} (h : e.Typed) : ofJson? e.toJson.settle = some e := by
  unfold ofJson?
  obtain ⟨r, hr, hget, halways⟩ := Event.exists_record _ e
  rw [hr]
  have hstage : r.required "stage" (choice? stages) = some e.stage :=
    Record.required_eq (halways _ (by simp) (by simp) (by simp)) rfl (Stage.choice?_text e.stage)
  have hsession : r.required "session_id" text? = some e.session :=
    Record.required_eq (halways _ (by simp) (by simp) (by simp)) rfl rfl
  have htime : (r.required "timestamp" fun t => t.text?.bind Moment.read?) = some e.time :=
    Record.required_eq (halways _ (by simp) (by simp) (by simp)) rfl (by
      rw [settle_str, text?_str, Option.bind_some, Moment.read?_text h.plain h.year])
  have hbefore : r.required "tokens_before" word? = some e.tokensBefore :=
    Record.required_word (halways _ (by simp) (by simp) (by simp)) rfl h.tokensBefore
  have hafter : r.required "tokens_after" word? = some e.tokensAfter :=
    Record.required_word (halways _ (by simp) (by simp) (by simp)) rfl h.tokensAfter
  have houtcome : r.required "outcome" (choice? outcomes) = some e.outcome :=
    Record.required_eq (halways _ (by simp) (by simp) (by simp)) rfl
      (Outcome.choice?_text e.outcome)
  have hmodel : r.required "model" text? = some e.model :=
    Record.required_eq (halways _ (by simp) (by simp) (by simp)) rfl rfl
  have hlimit : r.required "limit" word? = some e.limit :=
    Record.required_word (halways _ (by simp) (by simp) (by simp)) rfl h.limit
  have hreserved : r.required "reserved" word? = some e.reserved :=
    Record.required_word (halways _ (by simp) (by simp) (by simp)) rfl h.reserved
  -- what is left out is what the reader puts in its place
  have hwarnings : r.withDefault "warnings" [] (list? Warning.ofJson?) = some e.warnings := by
    have hlist : list? Warning.ofJson? (arr (e.warnings.map Warning.toJson)).settle =
        some e.warnings := list?_settle fun w _ => Warning.ofJson?_toJson w
    rw [Record.withDefault, hget _ (by simp), field?_toJson]
    cases hempty : e.warnings.isEmpty with
    | true => simp [always, field?, List.isEmpty_iff.mp hempty]
    | false => simp [hlist]
  have hdetail : (r.withDefault "detail" .null fun d => some d.settle) = some e.detail := by
    rw [Record.withDefault, hget _ (by simp), field?_toJson]
    cases hnull : e.detail.isNull with
    | true => simp [always, field?, isNull_iff.mp hnull]
    | false => simp [h.detail]
  simp [hstage, hsession, htime, hbefore, hafter, houtcome, hmodel, hlimit, hreserved, hwarnings,
    hdetail]

/-! ## Prune requests -/

theorem PruneRequest.ofJson?_toJson {request : PruneRequest} (h : request.options.Typed) :
    ofJson? request.toJson.settle = some request := by
  unfold ofJson? toJson
  obtain ⟨r, hr, -, hget⟩ := Record.exists_record _ _
  rw [hr]
  simp [Record.withDefault, Record.required, hget, field?, PruneOptions.ofJson?_toJson h,
    SourceKind.ofJson?_text]

/-! ## Envelopes -/

/-- An envelope carries an event: its payload is read as the event, and it has the type and the
session of the event. -/
structure Envelope.Carries (envelope : Envelope) (e : Event) : Prop where
  payload : Event.ofJson? envelope.payload.settle = some e
  kind : envelope.kind = e.kind
  session : envelope.session = e.session

theorem Envelope.ofEvent_carries {e : Event} (h : e.Typed) : (ofEvent e).Carries e :=
  ⟨Event.ofJson?_toJson h, rfl, rfl⟩

/-- Events, requests, responses and envelopes are read as they were sent. -/
theorem wire_roundTrips (e : Event) (request : PruneRequest) (response : PruneResponse)
    (lines : RecoverRequest) (he : e.Typed) (hrequest : request.options.Typed)
    (hresponse : response.Typed) (hlines : ∀ range ∈ lines.ranges, range.Typed) :
    Event.ofJson? e.toJson.settle = some e ∧
      PruneRequest.ofJson? request.toJson.settle = some request ∧
      PruneResponse.ofJson? response.toJson.settle = some response ∧
      RecoverRequest.ofJson? lines.toJson.settle = some lines ∧
      (Envelope.ofEvent e).Carries e :=
  ⟨Event.ofJson?_toJson he, PruneRequest.ofJson?_toJson hrequest,
    PruneResponse.ofJson?_toJson hresponse, RecoverRequest.ofJson?_toJson hlines,
    Envelope.ofEvent_carries he⟩

/-- An event without warnings and without a payload. -/
def plainEvent : Event :=
  ⟨.sanitize, "s1", ⟨1700000000, 250000000⟩, 900, 400, .reduced, "m", 1000, 50, [], .null⟩

/-- The response of a prune that took nothing away. -/
def idleResponse : PruneResponse :=
  ⟨"p1", "a\n", [], ⟨1, 1, 0, 0, some .log, false, false, 3⟩, [⟨"budget", "late"⟩], false⟩

theorem wire_roundTrips_plainEvent : plainEvent.Typed ∧ idleResponse.Typed ∧
    Event.ofJson? plainEvent.toJson.settle = some plainEvent ∧
    PruneResponse.ofJson? idleResponse.toJson.settle = some idleResponse ∧
    (Envelope.ofEvent plainEvent).Carries plainEvent := by
  have hplain : plainEvent.time.Plain := by
    rw [Moment.Plain]
    decide
  have hyear : plainEvent.time.FourDigitYear := ⟨by decide, by decide⟩
  have hevent : plainEvent.Typed :=
    ⟨hplain, hyear, by decide, by decide, by decide, by decide, rfl⟩
  have hresponse : idleResponse.Typed :=
    ⟨fun c hc => absurd hc List.not_mem_nil,
      ⟨by decide, by decide, by decide, Selection.rounded_zero, Selection.finite_zero, by decide⟩⟩
  have hoptions : PruneOptions.Typed ⟨0, 5, 2000, false, true, false⟩ :=
    ⟨Selection.rounded_zero, Selection.finite_zero, by decide, by decide⟩
  have hrange : ∀ range ∈ [LineRange.mk 2 4], range.Typed := by
    intro range hrange
    rw [List.mem_singleton.mp hrange]
    exact ⟨by decide, by decide⟩
  obtain ⟨h1, -, h3, -, h5⟩ := wire_roundTrips plainEvent ⟨"a", "", .auto, _⟩ idleResponse
    ⟨"p1", _, true⟩ hevent hoptions hresponse hrange
  exact ⟨hevent, hresponse, h1, h3, h5⟩

end ContextBudget
