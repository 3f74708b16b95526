import ContextBudget.Proofs.Json.Records
import ContextBudget.Proofs.Prune.Ledger

/-!
# The surface of the pruning service

What a caller of the service can rely on, whatever the body that it sends.

- `requestOf_meant`: what a body means, told apart by how far it can be read.
- `id_requestOf`: the id of the response is that of the body, as far as it has one.
- `answer_surface`: the members of a response, the body behind each error code, and what an answer
  does to the records.
-/

namespace ContextBudget

namespace Rpc

/-- The code of the error in a response. -/
def Response.code? (r : Response) : Option Int :=
  match r.result with
  | .ok _ => none
  | .error e => some e.code

namespace Response

variable {r : Response}

theorem field?_version : r.toJson.field? "jsonrpc" = some (.str version) := by
  cases hr : r.result <;> simp [toJson, hr, Json.field?]

theorem field?_id : r.toJson.field? "id" = some r.id := by
  cases hr : r.result <;> simp [toJson, hr, Json.field?]

theorem field?_result : r.toJson.field? "result" = r.result.toOption := by
  cases hr : r.result <;> simp [toJson, hr, Json.field?, Except.toOption]

theorem field?_error : r.toJson.field? "error" =
    match r.result with
    | .ok _ => none
    | .error e => some e.toJson := by
  cases hr : r.result <;> simp [toJson, hr, Json.field?]

theorem field?_code :
    (r.toJson.field? "error").bind (·.field? "code") = r.code?.map Json.int := by
  rw [field?_error, code?]
  cases r.result with
  | ok _ => rfl
  | error e => simp [Error.toJson, Json.field?]

end Response

/-- The request of the right version that a body is. -/
def request? (body : String) : Option Request :=
  (Json.read? body).bind fun v =>
    (Request.ofJson? v.settle).filter fun r => decide (r.version = version)

theorem exists_read {body : String} {r : Request} (h : request? body = some r) :
    ∃ v, Json.read? body = some v := by
  obtain ⟨v, hread, -⟩ := Option.bind_eq_some_iff.mp h
  exact ⟨v, hread⟩

theorem request?_eq_none {body : String} {v : Json} (hread : Json.read? body = some v) :
    request? body = none ↔ ∀ r, Request.ofJson? v.settle = some r → r.version ≠ "2.0" := by
  rw [request?, hread, Option.bind_some, Option.filter_eq_none_iff]
  exact forall₂_congr fun r _ => by rw [decide_eq_true_iff, version]

/-- A request is read from its text as it was sent, its id and its parameters settled. -/
theorem request?_write {r : Request} (hfits : Json.Fits 127 r.toJson)
    (hversion : r.version = version) :
    request? r.toJson.write = some { r with id := r.id.settle, params := r.params.settle } := by
  rw [request?, Json.read?_write hfits, Option.bind_some, Request.ofJson?_toJson]
  simp [hversion]

/-- The id of a request that is read from an object is that of the object. -/
theorem Request.id_of_obj {fields : List (String × Json)} {r : Request}
    (h : Request.ofJson? (Json.obj fields).settle = some r) :
    r.id = (((Json.obj fields).field? "id").map Json.settle).getD .null := by
  obtain ⟨record, hrecord, -, hget⟩ :=
    Record.exists_record ["jsonrpc", "id", "method", "params"] fields
  have hid := hget "id" (by simp)
  rw [Request.ofJson?, hrecord] at h
  simp only [Option.bind_eq_bind, Option.bind_some, Option.bind_eq_some_iff] at h
  obtain ⟨_, -, id, hdecoded, _, -, _, -, hr⟩ := h
  obtain rfl := Option.some.inj hr
  rw [Record.withDefault, hid] at hdecoded
  cases hfield : (Json.obj fields).field? "id" with
  | none =>
    rw [hfield] at hdecoded
    cases hdecoded
    rfl
  | some v =>
    rw [hfield] at hdecoded
    cases hdecoded
    rfl

end Rpc

namespace PruneService

variable {σ : Type} {s : PruneService σ} {defaults : PruneOptions} {body : String}

/-- A body asks for a prune. -/
def Prunes (defaults : PruneOptions) (body : String) (request : PruneRequest) : Prop :=
  ∃ r, Rpc.request? body = some r ∧ r.method = "prune_text" ∧
    pruneParams? defaults r.params = some request

/-- A body asks for lines as they were before a prune. -/
def Recovers (body : String) (request : RecoverRequest) : Prop :=
  ∃ r, Rpc.request? body = some r ∧ (r.method = "recover_text" ∨ r.method = "recover_range") ∧
    RecoverRequest.ofJson? r.params = some request

/-- A body asks for something with parameters that cannot be read. -/
def IllAsked (defaults : PruneOptions) (body : String) : Prop :=
  ∃ r, Rpc.request? body = some r ∧
    ((r.method = "prune_text" ∧ pruneParams? defaults r.params = none) ∨
      ((r.method = "recover_text" ∨ r.method = "recover_range") ∧
        RecoverRequest.ofJson? r.params = none))

/-- The methods of the service. -/
def methods : List String := ["prune_text", "recover_text", "recover_range", "health"]

/-! ## What a body means -/

/-- What a body means, by how far it can be read. -/
inductive Meant (defaults : PruneOptions) (body : String) : Except Rpc.Error Command → Prop where
  | unread (hread : Json.read? body = none) : Meant defaults body (.error parseError)
  | noRequest {e : Rpc.Error} (read : (Json.read? body).isSome) (none : Rpc.request? body = none)
    (coded : e.code = -32600) : Meant defaults body (.error e)
  | noMethod {r : Rpc.Request} (asked : Rpc.request? body = some r) (unknown : r.method ∉ methods) :
    Meant defaults body (.error (unknownMethod r.method))
  | noParams (ill : IllAsked defaults body) : Meant defaults body (.error invalidParams)
  | prune {request : PruneRequest} (asked : Prunes defaults body request) :
    Meant defaults body (.ok (.prune request))
  | recover {request : RecoverRequest} (asked : Recovers body request) :
    Meant defaults body (.ok (.recover request))
  | health {r : Rpc.Request} (asked : Rpc.request? body = some r) (method : r.method = "health") :
    Meant defaults body (.ok .health)

theorem meant_command {r : Rpc.Request} (asked : Rpc.request? body = some r) :
    Meant defaults body (command defaults r.method r.params) := by
  unfold command
  split
  · rename_i hmethod
    cases hparams : pruneParams? defaults r.params with
    | some request => exact .prune ⟨r, asked, hmethod, hparams⟩
    | none => exact .noParams ⟨r, asked, .inl ⟨hmethod, hparams⟩⟩
  · rename_i hprune
    split
    · rename_i hmethod
      cases hparams : RecoverRequest.ofJson? r.params with
      | some request => exact .recover ⟨r, asked, hmethod, hparams⟩
      | none => exact .noParams ⟨r, asked, .inr ⟨hmethod, hparams⟩⟩
    · rename_i hrecover
      split
      · exact .health asked ‹_›
      · rename_i hhealth
        refine .noMethod asked fun hmem => ?_
        simp only [methods, List.mem_cons, List.not_mem_nil, or_false] at hmem
        tauto

theorem requestOf_meant (defaults : PruneOptions) (body : String) :
    Meant defaults body (requestOf defaults body).2 := by
  unfold requestOf
  cases hread : Json.read? body with
  | none => exact .unread hread
  | some v =>
    cases hdecoded : Rpc.Request.ofJson? v.settle with
    | none =>
      simp only [hdecoded]
      refine .noRequest (by rw [hread]; rfl) ?_ rfl
      rw [Rpc.request?, hread, Option.bind_some, hdecoded]
      rfl
    | some r =>
      simp only [hdecoded]
      by_cases hversion : r.version = Rpc.version
      · rw [if_pos hversion]
        refine meant_command ?_
        rw [Rpc.request?, hread, Option.bind_some, hdecoded]
        simp [Option.filter, hversion]
      · rw [if_neg hversion]
        refine .noRequest (by rw [hread]; rfl) ?_ rfl
        rw [Rpc.request?, hread, Option.bind_some, hdecoded]
        simp [Option.filter, hversion]

/-- The response to an object bears its id. -/
theorem id_requestOf {fields : List (String × Json)}
    (hread : Json.read? body = some (.obj fields)) : (requestOf defaults body).1 =
      (((Json.obj fields).field? "id").map Json.settle).getD .null := by
  simp only [requestOf, hread, Json.field?_settle]
  cases hdecoded : Rpc.Request.ofJson? (Json.obj fields).settle with
  | none => rfl
  | some r =>
    simp only
    split
    · exact Rpc.Request.id_of_obj hdecoded
    · rfl

theorem requestOf_asked {r : Rpc.Request} (asked : Rpc.request? body = some r) :
    requestOf defaults body = (r.id, command defaults r.method r.params) := by
  obtain ⟨v, hread, hfilter⟩ := Option.bind_eq_some_iff.mp asked
  obtain ⟨hdecoded, hversion⟩ := Option.filter_eq_some_iff.mp hfilter
  simp only [requestOf, hread, hdecoded]
  exact if_pos (of_decide_eq_true hversion)

/-- Both methods that recover mean the same. -/
theorem command_recover_range (defaults : PruneOptions) (params : Json) :
    command defaults "recover_range" params = command defaults "recover_text" params := by
  simp [command]

/-! ## Carrying a command out -/

open PrunerM

variable {memory memory' : PrunerState} {w w' : σ} {response : Rpc.Response}
  {out : Except Rpc.Error Json}

theorem answer_ran (h : exec (s.answer body) memory w = ((response, memory'), w')) :
    response.id = (requestOf s.defaults body).1 ∧
      match (requestOf s.defaults body).2 with
      | .error e => response.result = .error e ∧ memory' = memory
      | .ok command => exec (s.perform command) memory w = ((response.result, memory'), w') := by
  unfold answer at h
  generalize requestOf s.defaults body = asked at h ⊢
  obtain ⟨id, e | command⟩ := asked
  · obtain ⟨rfl, rfl⟩ := pure_ran h
    exact ⟨rfl, rfl, rfl⟩
  · obtain ⟨out, memory₁, w₁, hperform, h₁⟩ := bind_ran h
    cases h₁
    exact ⟨rfl, hperform⟩

theorem perform_recover_ran {request : RecoverRequest}
    (h : exec (s.perform (.recover request)) memory w = ((out, memory'), w')) :
    memory' = memory ∧
      out = match memory.records.get request.id (s.pruner.clock.now.run w).1 with
        | .ok record => .ok (.obj [("text", .str (record.recover request))])
        | .error e => .error (recoverError e) := by
  obtain ⟨text, memory₁, w₁, hrecover, h₁⟩ := bind_ran h
  obtain ⟨now, memory₂, w₂, hnow, h₂⟩ := bind_ran hrecover
  obtain ⟨rfl, rfl⟩ := lift_ran hnow
  obtain ⟨known, memory₃, w₃, hget, h₃⟩ := bind_ran h₂
  obtain ⟨rfl, rfl⟩ := get_ran hget
  obtain ⟨rfl, rfl⟩ := pure_ran h₃
  cases hfound : memory₁.records.get request.id (s.pruner.clock.now.run w).1 with
  | ok record =>
    rw [hfound] at h₁
    obtain ⟨rfl, rfl⟩ := pure_ran h₁
    exact ⟨rfl, rfl⟩
  | error e =>
    rw [hfound] at h₁
    obtain ⟨rfl, rfl⟩ := pure_ran h₁
    exact ⟨rfl, rfl⟩

theorem perform_health_ran (h : exec (s.perform .health) memory w = ((out, memory'), w')) :
    memory' = memory ∧ ∃ result, out = .ok result := by
  obtain ⟨report, memory₁, w₁, hhealth, h₁⟩ := bind_ran h
  obtain ⟨now, memory₂, w₂, hnow, h₂⟩ := bind_ran hhealth
  obtain ⟨-, rfl⟩ := lift_ran hnow
  obtain ⟨known, memory₃, w₃, hget, h₃⟩ := bind_ran h₂
  obtain ⟨rfl, rfl⟩ := get_ran hget
  obtain ⟨rfl, rfl⟩ := pure_ran h₃
  obtain ⟨rfl, rfl⟩ := pure_ran h₁
  exact ⟨rfl, _, rfl⟩

theorem perform_prune_ran {request : PruneRequest}
    (h : exec (s.perform (.prune request)) memory w = ((out, memory'), w')) :
    ∃ (r : PruneResponse) (record : PruneRecord) (v : σ), out = .ok r.toJson ∧
      Pruner.Outcome s.pruner request (pruneId memory.next) (s.pruner.clock.now.run v).1 r record ∧
      memory'.records = memory.records.insert record (s.pruner.clock.now.run v).1 := by
  obtain ⟨r, memory₁, w₁, hprune, h₁⟩ := bind_ran h
  obtain ⟨record, v, hout, -, hrecords⟩ := Pruner.prune_ran hprune
  obtain ⟨rfl, rfl⟩ := pure_ran h₁
  exact ⟨r, record, v, rfl, hout, hrecords⟩

/-! ## The surface -/

/-- A record was added to a store: it is there now, and all others were there before. Where there
was room, none of them went. -/
structure Adds (records records' : RecordStore) (record : PruneRecord) : Prop where
  found : records'.find? record.id = some record
  others : ∀ other ∈ records'.records, other ∈ records.records ∨ other = record
  room : records.size < records.capacity → records'.records = records.records ++ [record]

theorem adds_insert {records : RecordStore} {record : PruneRecord} (now : Moment)
    (fresh : records.find? record.id = none) :
    Adds records (records.insert record now) record where
  found := RecordStore.find?_insert fresh
  others _ := RecordStore.mem_insert
  room hroom := RecordStore.insert_of_room now hroom fresh

/-- The code of the response to what a body means, where the records are these. -/
def codeOf (records : RecordStore) (now : Moment) : Except Rpc.Error Command → Option Int
  | .error e => some e.code
  | .ok (.recover request) =>
    match records.get request.id now with
    | .ok _ => none
    | .error e => some (recoverError e).code
  | .ok _ => none

theorem answer_code (h : exec (s.answer body) memory w = ((response, memory'), w')) :
    response.code? =
      codeOf memory.records (s.pruner.clock.now.run w).1 (requestOf s.defaults body).2 := by
  obtain ⟨-, hran⟩ := answer_ran h
  revert hran
  generalize (requestOf s.defaults body).2 = meaning
  intro hran
  rw [Rpc.Response.code?]
  match meaning with
  | .error e => rw [hran.1, codeOf]
  | .ok (.prune request) =>
    obtain ⟨r, record, v, hout, -⟩ := perform_prune_ran hran
    rw [hout, codeOf]
    nofun
  | .ok .health =>
    obtain ⟨-, result, hout⟩ := perform_health_ran hran
    rw [hout, codeOf]
    nofun
  | .ok (.recover request) =>
    obtain ⟨-, hout⟩ := perform_recover_ran hran
    rw [hout, codeOf]
    cases memory.records.get request.id (s.pruner.clock.now.run w).1 <;> rfl

theorem codeOf_recover {request : RecoverRequest} {records : RecordStore} {now : Moment} :
    codeOf records now (.ok (.recover request)) =
      match records.find? request.id with
      | none => some recordUnknownCode
      | some record => if record.isExpired now then some recordExpiredCode else none := by
  rw [codeOf, RecordStore.get]
  cases records.find? request.id with
  | none => rfl
  | some record =>
    simp only
    cases record.isExpired now <;> rfl

theorem Meant.codes_iff {meaning : Except Rpc.Error Command} (h : Meant defaults body meaning)
    (records : RecordStore) (now : Moment) :
    let code := codeOf records now meaning
    (code = some (-32700) ↔ Json.read? body = none) ∧
      (code = some (-32600) ↔ (Json.read? body).isSome ∧ Rpc.request? body = none) ∧
      (code = some (-32601) ↔ ∃ r, Rpc.request? body = some r ∧ r.method ∉ methods) ∧
      (code = some (-32602) ↔ IllAsked defaults body) ∧
      (code = some (-32004) ↔
        ∃ request, Recovers body request ∧ records.find? request.id = none) ∧
      (code = some (-32010) ↔ ∃ request record, Recovers body request ∧
        records.find? request.id = some record ∧ record.isExpired now = true) := by
  intro code
  cases h with
  | unread hread =>
    have hnone : Rpc.request? body = none := by rw [Rpc.request?, hread]; rfl
    simp [code, codeOf, parseError, hread, hnone, IllAsked, Recovers]
  | noRequest hread hnone hcoded =>
    have hsome := Option.isSome_iff_ne_none.mp hread
    simp [code, codeOf, hcoded, hread, hsome, hnone, IllAsked, Recovers]
  | @noMethod r hasked hunknown =>
    obtain ⟨v, hread⟩ := Rpc.exists_read hasked
    have hothers := hunknown
    simp only [methods, List.mem_cons, List.not_mem_nil, or_false, not_or] at hothers
    simp [code, codeOf, unknownMethod, hread, hasked, hunknown, hothers, IllAsked, Recovers]
  | noParams hill =>
    obtain ⟨r, hasked, hparams⟩ := hill
    obtain ⟨v, hread⟩ := Rpc.exists_read hasked
    rcases hparams with ⟨hmethod, hparams⟩ | ⟨hmethod | hmethod, hparams⟩ <;>
      simp [code, codeOf, invalidParams, hread, hasked, hmethod, hparams, methods, IllAsked,
        Recovers]
  | @prune request hasked =>
    obtain ⟨r, hasked, hmethod, hparams⟩ := hasked
    obtain ⟨v, hread⟩ := Rpc.exists_read hasked
    simp [code, codeOf, hread, hasked, hmethod, hparams, methods, IllAsked, Recovers]
  | @recover request hasked =>
    obtain ⟨r, hasked, hmethod, hparams⟩ := hasked
    obtain ⟨v, hread⟩ := Rpc.exists_read hasked
    have hcode : code = _ := codeOf_recover
    rw [hcode]
    rcases hmethod with hmethod | hmethod
    all_goals
      rcases hfound : records.find? request.id with - | record
    all_goals
      simp [hread, hasked, hmethod, hparams, hfound, methods, IllAsked, Recovers, recordUnknownCode,
        recordExpiredCode]
  | @health r hasked hmethod =>
    obtain ⟨v, hread⟩ := Rpc.exists_read hasked
    simp [code, codeOf, hread, hasked, hmethod, methods, IllAsked, Recovers]

/-- The codes of the errors that the service answers with. -/
def codes : List Int := [-32700, -32600, -32601, -32602, recordUnknownCode, recordExpiredCode]

/-- What a caller can rely on about the response to a body. -/
structure Answered (s : PruneService σ) (body : String) (memory : PrunerState) (w : σ)
    (response : Rpc.Response) (memory' : PrunerState) : Prop where
  version : response.toJson.field? "jsonrpc" = some (.str "2.0")
  one : (response.toJson.field? "result").isSome = !(response.toJson.field? "error").isSome
  code : (response.toJson.field? "error").bind (·.field? "code") = response.code?.map Json.int
  noId : Json.read? body = none → response.toJson.field? "id" = some .null
  sameId : ∀ fields, Json.read? body = some (.obj fields) → response.toJson.field? "id" =
    some ((((Json.obj fields).field? "id").map Json.settle).getD .null)
  unread : response.code? = some (-32700) ↔ Json.read? body = none
  noRequest : response.code? = some (-32600) ↔ ∃ v, Json.read? body = some v ∧
    ∀ r, Rpc.Request.ofJson? v.settle = some r → r.version ≠ "2.0"
  noMethod : response.code? = some (-32601) ↔
    ∃ r, Rpc.request? body = some r ∧ r.method ∉ methods
  noParams : response.code? = some (-32602) ↔ IllAsked s.defaults body
  unknown : response.code? = some (-32004) ↔
    ∃ request, Recovers body request ∧ memory.records.find? request.id = none
  expired : response.code? = some (-32010) ↔ ∃ request record, Recovers body request ∧
    memory.records.find? request.id = some record ∧
    record.isExpired (s.pruner.clock.now.run w).1 = true
  otherwise : ∀ code, response.code? = some code → code ∈ codes
  kept : (∀ request, ¬ Prunes s.defaults body request) → memory' = memory
  added : ∀ request, Prunes s.defaults body request → ∃ (record : PruneRecord) (now : Moment),
    record.whole = .ofText request.text ∧
    (response.toJson.field? "result").bind (·.field? "prune_id") = some (.str record.id) ∧
    memory'.records = memory.records.insert record now ∧
    (memory.records.find? record.id = none → Adds memory.records memory'.records record)

theorem codes_of_meant {meaning : Except Rpc.Error Command} (h : Meant defaults body meaning)
    (records : RecordStore) (now : Moment) {code : Int}
    (hcode : codeOf records now meaning = some code) : code ∈ codes := by
  cases h with
  | noRequest _ _ hcoded =>
    rw [codeOf, hcoded, Option.some.injEq] at hcode
    simp [← hcode, codes]
  | @recover request =>
    rw [codeOf_recover] at hcode
    cases hfound : records.find? request.id with
    | none => simp_all [codes]
    | some record =>
      cases hexpired : record.isExpired now <;> simp_all [codes]
  | prune => cases hcode
  | health => cases hcode
  | unread | noMethod | noParams =>
    cases hcode
    simp [codes, parseError, unknownMethod, invalidParams]

theorem requestOf_prune {request : PruneRequest} (asked : Prunes defaults body request) :
    (requestOf defaults body).2 = .ok (.prune request) := by
  obtain ⟨r, hasked, hmethod, hparams⟩ := asked
  rw [requestOf_asked hasked, hmethod]
  simp [command, hparams]

/-- Only a prune changes the records. -/
theorem answer_kept (h : exec (s.answer body) memory w = ((response, memory'), w'))
    (hnone : ∀ request, ¬ Prunes s.defaults body request) : memory' = memory := by
  obtain ⟨-, hran⟩ := answer_ran h
  have hmeant := requestOf_meant s.defaults body
  generalize (requestOf s.defaults body).2 = meaning at hran hmeant
  cases hmeant with
  | prune asked => exact absurd asked (hnone _)
  | recover => exact (perform_recover_ran hran).1
  | health => exact (perform_health_ran hran).1
  | _ => exact hran.2

theorem answer_answered (h : exec (s.answer body) memory w = ((response, memory'), w')) :
    Answered s body memory w response memory' := by
  obtain ⟨hid, hran⟩ := answer_ran h
  have hmeant := requestOf_meant s.defaults body
  obtain ⟨hunread, hnoRequest, hnoMethod, hnoParams, hunknown, hexpired⟩ :=
    hmeant.codes_iff memory.records (s.pruner.clock.now.run w).1
  rw [← answer_code h] at hunread hnoRequest hnoMethod hnoParams hunknown hexpired
  refine ⟨Rpc.Response.field?_version, ?_, Rpc.Response.field?_code, fun hread => ?_,
    fun fields hread => ?_, hunread, ?_, hnoMethod, hnoParams, hunknown, hexpired,
    fun code hcode => ?_, fun hnone => ?_, fun request hprunes => ?_⟩
  · rw [Rpc.Response.field?_result, Rpc.Response.field?_error]
    cases response.result <;> rfl
  · rw [Rpc.Response.field?_id, hid, requestOf, hread]
  · rw [Rpc.Response.field?_id, hid, id_requestOf hread]
  · rw [hnoRequest]
    cases hread : Json.read? body with
    | none => simp
    | some v => simp [Rpc.request?_eq_none hread]
  · exact codes_of_meant hmeant _ _ (answer_code h ▸ hcode)
  · exact answer_kept h hnone
  · rw [requestOf_prune hprunes] at hran
    obtain ⟨r, record, v, hout, houtcome, hrecords⟩ := perform_prune_ran hran
    obtain ⟨hid', hrecord, hwhole, -⟩ := houtcome.record
    refine ⟨record, (s.pruner.clock.now.run v).1, hwhole, ?_, hrecords, fun fresh => ?_⟩
    · rw [Rpc.Response.field?_result, hout, hrecord, ← hid']
      simp [Except.toOption, PruneResponse.toJson, Json.field?]
    · rw [hrecords]
      exact adds_insert _ fresh

/-- Every response is of version 2.0 and has a result or one of the errors, each for the bodies
that it stands for. Only a prune changes the records. Both methods that recover answer alike. -/
theorem answer_surface (s : PruneService σ) :
    (∀ body memory w, Answered s body memory w (exec (s.answer body) memory w).1.1
      (exec (s.answer body) memory w).1.2) ∧
    ∀ body body' r, Rpc.request? body = some r → r.method = "recover_text" →
      Rpc.request? body' = some { r with method := "recover_range" } →
      s.answer body' = s.answer body := by
  refine ⟨fun body memory w => answer_answered rfl, fun body body' r hasked hmethod hasked' => ?_⟩
  unfold answer
  rw [requestOf_asked hasked, requestOf_asked hasked', hmethod, command_recover_range]

/-- A request for all lines of one record. -/
def asking (method : String) : Rpc.Request :=
  ⟨Rpc.version, .int 1, method, .obj [("prune_id", .str "pr_1")]⟩

theorem request?_asking (method : String) :
    Rpc.request? (asking method).toJson.write = some (asking method) := by
  have hparams : Json.Fits 126 (asking method).params :=
    Json.fits_obj.mpr ⟨Json.fits_str _, trivial⟩
  rw [Rpc.request?_write (Rpc.Request.fits (Json.fits_ofNat (by decide)) hparams) rfl]
  rfl

theorem answer_surface_asking :
    let service : PruneService Unit := ⟨Pruner.asleep, .standard, .zero⟩
    Rpc.request? (asking "recover_text").toJson.write = some (asking "recover_text") ∧
    service.answer (asking "recover_range").toJson.write =
      service.answer (asking "recover_text").toJson.write :=
  ⟨request?_asking _, (answer_surface ⟨Pruner.asleep, .standard, .zero⟩).2 _ _ _
    (request?_asking "recover_text") rfl (request?_asking "recover_range")⟩

end PruneService
end ContextBudget
