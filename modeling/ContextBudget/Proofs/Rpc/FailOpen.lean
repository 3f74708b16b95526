import ContextBudget.Proofs.Prune.Store
import ContextBudget.Proofs.Rpc.Remote
import ContextBudget.Proofs.Run.Services

/-!
# A client of any server

Whatever a server replies, a client either takes the response in the reply or gives the text back as
it was and records it here. What is recorded here is recovered here, and all else by one request.

- `resultOf_eq_ok_iff`, `resultOf_eq_remote_iff`: which replies carry a result and which an error.
- `prune_prunes`, `recover_recovers`: what comes of a prune and of a recovery.
- `went_induction`: what each task keeps of a client, all tasks keep.
- `sole_went`: no other record comes under the id of a record.
- `remote_failsOpen`: what comes of prunes and recoveries after any tasks, and later on.
-/

namespace ContextBudget

open Json

namespace Record

variable {α : Type} {r : Record} {name : String} {decode : Json → Option α} {v : Json} {a : α}

theorem nullable_eq_none_iff : nullable decode v = some none ↔ v = .null := by
  cases v <;> simp [nullable]

theorem nullable_eq_some_iff :
    nullable decode v = some (some a) ↔ v ≠ .null ∧ decode v = some a := by
  cases v <;> simp [nullable]

/-- A member that may be left out has no value: it is not there, or null. -/
def Absent (r : Record) (name : String) : Prop := r.get? name = none ∨ r.get? name = some .null

theorem withDefault_eq_none_iff :
    r.withDefault name none (nullable decode) = some none ↔ r.Absent name := by
  rw [withDefault, Absent]
  cases r.get? name with
  | none => simp
  | some v => simp [nullable_eq_none_iff]

theorem withDefault_eq_some_iff :
    r.withDefault name none (nullable decode) = some (some a) ↔
      ∃ v, r.get? name = some v ∧ v ≠ .null ∧ decode v = some a := by
  rw [withDefault]
  cases r.get? name with
  | none => simp
  | some v => simp [nullable_eq_some_iff]

theorem exists_withDefault (h : ∀ v, ∃ a, decode v = some a) :
    ∃ member, r.withDefault name none (nullable decode) = some member := by
  rw [withDefault]
  cases r.get? name with
  | none => exact ⟨none, rfl⟩
  | some v =>
    obtain ⟨a, ha⟩ := h v
    by_cases hnull : v = .null
    · exact ⟨none, nullable_eq_none_iff.mpr hnull⟩
    · exact ⟨some a, nullable_eq_some_iff.mpr ⟨hnull, ha⟩⟩

theorem required_eq_some_iff :
    r.required name decode = some a ↔ ∃ v, r.get? name = some v ∧ decode v = some a := by
  rw [required, Option.bind_eq_some_iff]

end Record

/-! ## Replies -/

namespace Rpc

variable {v w : Json} {e : Error}

/-- A reply has a version and an id; a result and an error may be left out. These are its
members. -/
structure IsReply (v : Json) (r : Record) : Prop where
  members : Record.ofJson? ["jsonrpc", "id", "result", "error"] v = some r
  version : ∃ version, r.get? "jsonrpc" = some (.str version)
  id : ∃ id, r.get? "id" = some id

theorem text?_eq_some_iff {s : String} : v.text? = some s ↔ v = .str s := by
  cases v <;> simp [text?]

theorem ofJson?_eq_some_iff {reply : Reply} : Reply.ofJson? v = some reply ↔
    ∃ r, IsReply v r ∧
      r.withDefault "result" none (Record.nullable fun v => some v.settle) = some reply.result ∧
      r.withDefault "error" none (Record.nullable Error.ofJson?) = some reply.error := by
  simp only [Reply.ofJson?, Option.bind_eq_bind, Option.bind_eq_some_iff,
    Record.required_eq_some_iff, text?_eq_some_iff, Option.pure_def, Option.some.injEq]
  constructor
  · rintro ⟨r, hr, version, ⟨-, hversion, rfl⟩, -, ⟨id, hid, -⟩, result, hresult, error, herror, rfl⟩
    exact ⟨r, ⟨hr, ⟨version, hversion⟩, ⟨id, hid⟩⟩, hresult, herror⟩
  · rintro ⟨r, ⟨hr, ⟨version, hversion⟩, ⟨id, hid⟩⟩, hresult, herror⟩
    exact ⟨r, hr, version, ⟨_, hversion, rfl⟩, id, ⟨id, hid, rfl⟩, _, hresult, _, herror, rfl⟩

/-- A reply of success whose error is absent or null delivers what its result is decoded as. -/
inductive Delivers {α : Type} (decode : Json → Option α) : Exchange → α → Prop where
  | result {status : Nat} {body : String} {v result : Json} {r : Record} {a : α}
    (success : 200 ≤ status ∧ status < 300) (read : Json.read? body = some v)
    (reply : IsReply v r) (noError : r.Absent "error") (member : r.get? "result" = some result)
    (present : result ≠ .null) (decoded : decode result.settle = some a) :
    Delivers decode (.reply status body) a

/-- A reply of success that carries an error. -/
inductive Refuses : Exchange → Error → Prop where
  | error {status : Nat} {body : String} {v error : Json} {r : Record} {e : Error}
    (success : 200 ≤ status ∧ status < 300) (read : Json.read? body = some v)
    (reply : IsReply v r) (member : r.get? "error" = some error) (present : error ≠ .null)
    (decoded : Error.ofJson? error = some e) : Refuses (.reply status body) e

end Rpc

namespace Exchange

variable {α : Type} {decode : Json → Option α} {exchange : Exchange} {body : String} {a : α}

theorem body_eq_ok_iff : exchange.body = .ok body ↔
    ∃ status, exchange = .reply status body ∧ 200 ≤ status ∧ status < 300 := by
  cases exchange with
  | reply status text =>
    rw [Exchange.body]
    split
    · rename_i hsuccess
      constructor
      · rintro ⟨⟩
        exact ⟨status, rfl, hsuccess⟩
      · rintro ⟨_, ⟨⟩, -⟩
        rfl
    · rename_i hfailed
      constructor
      · exact nofun
      · rintro ⟨_, ⟨⟩, hsuccess⟩
        exact absurd hsuccess hfailed
  | _ => exact ⟨nofun, fun ⟨_, h, _⟩ => nomatch h⟩

/-- A value is decoded from an exchange exactly when it is decoded from the text of a successful
reply. -/
theorem decoded_eq_ok_iff : exchange.decoded decode = .ok a ↔ ∃ status body v,
    exchange = .reply status body ∧ (200 ≤ status ∧ status < 300) ∧ Json.read? body = some v ∧
      decode v = some a := by
  have hbody : exchange.decoded decode = .ok a ↔
      ∃ body, exchange.body = .ok body ∧ (Json.read? body).bind decode = some a := by
    rw [decoded]
    cases exchange.body with
    | error e => simp [bind, Except.bind]
    | ok body =>
      simp only [bind, Except.bind, Except.ok.injEq, exists_eq_left']
      cases (Json.read? body).bind decode with
      | none => simp [throw, throwThe, MonadExceptOf.throw]
      | some value => simp [pure, Except.pure]
  simp only [hbody, body_eq_ok_iff, Option.bind_eq_some_iff]
  constructor
  · rintro ⟨body, ⟨status, hreply, hsuccess⟩, v, hread, hdecode⟩
    exact ⟨status, body, v, hreply, hsuccess, hread, hdecode⟩
  · rintro ⟨status, body, v, hreply, hsuccess, hread, hdecode⟩
    exact ⟨body, ⟨status, hreply, hsuccess⟩, v, hread, hdecode⟩

end Exchange

namespace RemotePruner

open Rpc

variable {α : Type} {decode : Json → Option α} {exchange : Exchange}

/-- A call has a result exactly when the reply delivers it. -/
theorem resultOf_eq_ok_iff {a : α} :
    resultOf decode exchange = .ok a ↔ Delivers decode exchange a := by
  constructor
  · intro h
    -- Of the four shapes of a reply, only one without an error and with a result has one.
    unfold resultOf at h
    split at h
    · cases h
    · cases h
    · cases h
    · rename_i w hreply
      obtain ⟨status, body, v, rfl, hsuccess, hread, hv⟩ := Exchange.decoded_eq_ok_iff.mp hreply
      obtain ⟨r, hr, hresult, herror⟩ := Rpc.ofJson?_eq_some_iff.mp hv
      obtain ⟨result, hmember, hpresent, hw⟩ := Record.withDefault_eq_some_iff.mp hresult
      cases hw
      split at h
      · cases h
        exact .result hsuccess hread hr (Record.withDefault_eq_none_iff.mp herror) hmember hpresent
          ‹_›
      · cases h
  · intro h
    cases h with
    | @result status body v result r _ hsuccess hread hr hnone hmember hpresent hdecoded =>
      have hv : Reply.ofJson? v = some ⟨some result.settle, none⟩ :=
        Rpc.ofJson?_eq_some_iff.mpr ⟨r, hr,
          Record.withDefault_eq_some_iff.mpr ⟨result, hmember, hpresent, rfl⟩,
          Record.withDefault_eq_none_iff.mpr hnone⟩
      rw [resultOf, Exchange.decoded_eq_ok_iff.mpr ⟨status, body, v, rfl, hsuccess, hread, hv⟩]
      simp only [hdecoded]

theorem not_delivers {failure : CallFailure} (h : resultOf decode exchange = .error failure)
    (a : α) : ¬ Delivers decode exchange a := by
  intro hdelivers
  rw [resultOf_eq_ok_iff.mpr hdelivers] at h
  cases h

/-- A call fails with an error of the service exactly when the reply carries it. -/
theorem resultOf_eq_remote_iff {e : Rpc.Error} :
    resultOf decode exchange = .error (.remote e) ↔ Refuses exchange e := by
  constructor
  · intro h
    unfold resultOf at h
    split at h
    · cases h
    · rename_i hreply
      cases h
      obtain ⟨status, body, v, rfl, hsuccess, hread, hv⟩ := Exchange.decoded_eq_ok_iff.mp hreply
      obtain ⟨r, hr, -, herror⟩ := Rpc.ofJson?_eq_some_iff.mp hv
      obtain ⟨error, hmember, hpresent, hdecoded⟩ := Record.withDefault_eq_some_iff.mp herror
      exact .error hsuccess hread hr hmember hpresent hdecoded
    · cases h
    · split at h <;> cases h
  · intro h
    cases h with
    | @error status body v error r _ hsuccess hread hr hmember hpresent hdecoded =>
      obtain ⟨result, hresult⟩ : ∃ result, r.withDefault "result" none
          (Record.nullable fun v => some v.settle) = some result :=
        Record.exists_withDefault fun v => ⟨v.settle, rfl⟩
      have hv : Reply.ofJson? v = some ⟨result, some e⟩ :=
        Rpc.ofJson?_eq_some_iff.mpr ⟨r, hr, hresult,
          Record.withDefault_eq_some_iff.mpr ⟨error, hmember, hpresent, hdecoded⟩⟩
      rw [resultOf, Exchange.decoded_eq_ok_iff.mpr ⟨status, body, v, rfl, hsuccess, hread, hv⟩]

/-! ## Prunes -/

variable {σ : Type} {c : RemotePruner σ} {sent : σ → List HttpRequest}
  {state state' : RemoteState} {x x' : σ}

/-- The world writes down each request that a client sends, and in time something comes of it. The
clock writes nothing down. -/
structure Carries (c : RemotePruner σ) (sent : σ → List HttpRequest) : Prop where
  ends : ∀ request x, ∃ after exchange, ((c.send request).run x).1 = .done after exchange
  noted : ∀ request x, sent ((c.send request).run x).2 = sent x ++ [request]
  clock : ∀ x, sent (c.fallback.clock.now.run x).2 = sent x

/-- The request that calls a method. Parameters can always be written. -/
def asking (method : String) (params : Json) (state : RemoteState) : HttpRequest :=
  ⟨none, Rpc.Request.toJson ⟨Rpc.version, .ofNat state.next, method, params⟩⟩

/-- The client after it has made a call. -/
def called (state : RemoteState) : RemoteState := { state with next := Word.add state.next 1 }

/-- A call sends one request, and its result is what something makes of what came of it. -/
theorem call_ran (hcarries : Carries c sent) (method : String) (params : Json)
    (decode : Json → Option α) (state : RemoteState) (x : σ) :
    ∃ after exchange x', (c.send (asking method params state)).run x =
        (.done after exchange, x') ∧ sent x' = sent x ++ [asking method params state] ∧
      RemoteM.exec (c.call method params decode) state x =
        ((.done after (resultOf decode exchange), called state), x') := by
  have hnoted := hcarries.noted (asking method params state) x
  obtain ⟨after, exchange, hends⟩ := hcarries.ends (asking method params state) x
  rcases hsend : (c.send (asking method params state)).run x with ⟨reply, x'⟩
  rw [hsend] at hnoted hends
  obtain rfl : reply = .done after exchange := hends
  have hcall : RemoteM.exec (c.call method params decode) state x =
      let out := (c.send (asking method params state)).run x
      ((out.1.map (resultOf decode), called state), out.2) := rfl
  rw [hsend] at hcall
  exact ⟨after, exchange, x', rfl, hnoted, hcall⟩

/-- The text came back as it was, with one warning. -/
structure GivesBack (text : String) (response : PruneResponse) : Prop where
  unchanged : response.text = text
  uncut : response.cuts = []
  gaveBack : response.gaveBack = true
  warned : ∃ message, response.warnings = [⟨"redactor_unreachable", message⟩]

/-- A text was recorded here under an id, the next one that is given out here, at a time that the
clock told. -/
structure Records (c : RemotePruner σ) (text id : String) (state state' : RemoteState)
    (record : PruneRecord) : Prop where
  id_eq : id = pruneId state.records.next
  next : state'.records.next = state.records.next + 1
  own : record.id = id
  whole : record.whole = .ofText text
  life : record.life = c.fallback.config.recordLife
  created : ∃ v, record.createdAt = (c.fallback.clock.now.run v).1
  inserted : state'.records.records = state.records.records.insert record record.createdAt

/-- What comes of a prune: the response that the reply delivers, or the text as it was, recorded
here, if it delivers none. -/
inductive Prunes (c : RemotePruner σ) (request : PruneRequest) (state : RemoteState) (x : σ) :
    (Pending PruneResponse × RemoteState) × σ → Prop where
  | delivered {after : Span} {exchange : Exchange} {response : PruneResponse} {x' : σ}
    (reply : (c.send (asking "prune_text" request.toJson state)).run x =
      (.done after exchange, x'))
    (delivers : Delivers PruneResponse.ofJson? exchange response) :
    Prunes c request state x ((.done after response, called state), x')
  | failedOpen {after : Span} {exchange : Exchange} {response : PruneResponse}
    {state' : RemoteState} {record : PruneRecord} {x₁ x' : σ}
    (reply : (c.send (asking "prune_text" request.toJson state)).run x =
      (.done after exchange, x₁))
    (undelivered : ∀ response, ¬ Delivers PruneResponse.ofJson? exchange response)
    (gives : GivesBack request.text response)
    (records : Records c request.text response.id state state' record) :
    Prunes c request state x ((.done after response, state'), x')

theorem prune_prunes (hcarries : Carries c sent) (request : PruneRequest) (state : RemoteState)
    (x : σ) : Prunes c request state x (RemoteM.exec (c.prune request) state x) := by
  obtain ⟨after, exchange, x₁, hsend, -, hcall⟩ :=
    call_ran hcarries "prune_text" request.toJson PruneResponse.ofJson? state x
  rw [prune, RemoteM.exec_bind hcall]
  cases hresult : resultOf PruneResponse.ofJson? exchange with
  | ok response => exact .delivered hsend (resultOf_eq_ok_iff.mp hresult)
  | error failure =>
    rcases hpass : PrunerM.exec (c.fallback.passThrough request.text
      ⟨"redactor_unreachable", failure.message⟩) state.records x₁ with ⟨⟨response, records⟩, x'⟩
    have hgive : RemoteM.exec (c.passThrough request.text failure) (called state) x₁ =
        ((response, { called state with records }), x') := by
      rw [passThrough, exec_locally]
      simp only [called, hpass]
    obtain ⟨millis, v, rfl, hnext, hrecords⟩ := Pruner.passThrough_ran hpass
    have hrecord : Records c request.text (pruneId state.records.next) state
        { called state with records } _ :=
      ⟨rfl, hnext, rfl, rfl, rfl, ⟨v, rfl⟩, hrecords⟩
    simp only [RemoteM.exec_bind hgive]
    exact .failedOpen hsend (not_delivers hresult) ⟨rfl, rfl, rfl, _, rfl⟩ hrecord

/-! ## Recoveries -/

/-- What a recovery makes of what came of its request. -/
inductive Recovered (request : RecoverRequest) (exchange : Exchange) :
    Except BudgetError String → Prop where
  | text {text : String} (delivers : Delivers textOf? exchange text) :
    Recovered request exchange (.ok text)
  | unknown {e : Rpc.Error} (refuses : Refuses exchange e)
    (code : e.code = PruneService.recordUnknownCode) :
    Recovered request exchange (.error (.recordUnknown request.id))
  | expired {e : Rpc.Error} (refuses : Refuses exchange e)
    (code : e.code = PruneService.recordExpiredCode) :
    Recovered request exchange (.error (.recordExpired request.id))
  | refused {e : Rpc.Error} (refuses : Refuses exchange e)
    (unknown : e.code ≠ PruneService.recordUnknownCode)
    (expired : e.code ≠ PruneService.recordExpiredCode) :
    Recovered request exchange (.error (.serviceFailed (.malformed e.message)))
  | failed {e : ServiceError} (undelivered : ∀ text, ¬ Delivers textOf? exchange text)
    (unrefused : ∀ e, ¬ Refuses exchange e) :
    Recovered request exchange (.error (.serviceFailed e))

theorem recovered_resultOf (request : RecoverRequest) (exchange : Exchange) :
    Recovered request exchange
      ((resultOf textOf? exchange).mapError (recoverFailure request.id)) := by
  cases hresult : resultOf textOf? exchange with
  | ok text => exact .text (resultOf_eq_ok_iff.mp hresult)
  | error failure =>
    cases failure with
    | service e =>
      refine .failed (not_delivers hresult) fun e hrefuses => ?_
      rw [resultOf_eq_remote_iff.mpr hrefuses] at hresult
      cases hresult
    | remote e =>
      have hrefuses := resultOf_eq_remote_iff.mp hresult
      simp only [Except.mapError, recoverFailure]
      split
      · exact .unknown hrefuses ‹_›
      · split
        · exact .expired hrefuses ‹_›
        · exact .refused hrefuses ‹_› ‹_›

/-- What comes of a recovery: what is recorded here is recovered here until it expires, and for all
else one request is sent. -/
inductive Recovers (c : RemotePruner σ) (sent : σ → List HttpRequest) (request : RecoverRequest)
    (state : RemoteState) (x : σ) :
    (Pending (Except BudgetError String) × RemoteState) × σ → Prop where
  | here {record : PruneRecord} {x' : σ}
    (found : state.records.records.find? request.id = some record)
    (lives : ¬ record.Ended (c.fallback.clock.now.run x).1) (silent : sent x' = sent x) :
    Recovers c sent request state x ((.done .zero (.ok (record.recover request)), state), x')
  | expired {record : PruneRecord} {x' : σ}
    (found : state.records.records.find? request.id = some record)
    (ended : record.Ended (c.fallback.clock.now.run x).1) (silent : sent x' = sent x) :
    Recovers c sent request state x ((.done .zero (.error (.recordExpired request.id)), state), x')
  | asked {after : Span} {exchange : Exchange} {answer : Except BudgetError String} {x₁ x' : σ}
    (unknown : state.records.records.find? request.id = none)
    (reply : (c.send (asking "recover_text" request.toJson state)).run x₁ =
      (.done after exchange, x'))
    (once : sent x' = sent x ++ [asking "recover_text" request.toJson state])
    (answered : Recovered request exchange answer) :
    Recovers c sent request state x ((.done after answer, called state), x')

theorem recover_recovers (hcarries : Carries c sent) (request : RecoverRequest)
    (state : RemoteState) (x : σ) :
    Recovers c sent request state x (RemoteM.exec (c.recover request) state x) := by
  have hsilent := hcarries.clock x
  rcases hnow : c.fallback.clock.now.run x with ⟨now, x₁⟩
  rw [hnow] at hsilent
  have hhere : RemoteM.exec (locally (c.fallback.recover request)) state x =
      (((state.records.records.get request.id now).map fun r => r.recover request, state), x₁) := by
    rw [exec_locally, Pruner.exec_recover, hnow]
  rw [recover, RemoteM.exec_bind hhere]
  cases hfound : state.records.records.find? request.id with
  | none =>
    have hget : state.records.records.get request.id now = .error (.recordUnknown request.id) := by
      simp [RecordStore.get, hfound]
    obtain ⟨after, exchange, x', hsend, honce, hcall⟩ :=
      call_ran hcarries "recover_text" request.toJson textOf? state x₁
    simp only [hget, Except.map]
    rw [RemoteM.exec_bind hcall]
    exact .asked hfound hsend (hsilent ▸ honce) (recovered_resultOf request exchange)
  | some record =>
    cases hended : record.isExpired now with
    | true =>
      have hget : state.records.records.get request.id now =
          .error (.recordExpired request.id) := by
        simp [RecordStore.get, hfound, hended]
      simp only [hget, Except.map]
      exact .expired hfound (by rw [hnow]; exact PruneRecord.isExpired_iff.mp hended) hsilent
    | false =>
      have hget : state.records.records.get request.id now = .ok record := by
        simp [RecordStore.get, hfound, hended]
      have hlives : ¬ record.Ended now := by
        rw [← PruneRecord.isExpired_iff, hended]
        exact Bool.false_ne_true
      simp only [hget, Except.map]
      exact .here hfound (by rw [hnow]; exact hlives) hsilent

/-! ## Later on -/

variable {first : Nat} {record : PruneRecord} {text id : String}

/-- The client and the world after tasks, one after the other. -/
def went (c : RemotePruner σ) (tasks : List PruneTask) (state : RemoteState) (x : σ) :
    RemoteState × σ :=
  let out := RemoteM.exec (tasks.mapM c.handle) state x
  (out.1.2, out.2)

theorem went_cons (c : RemotePruner σ) (task : PruneTask) (tasks : List PruneTask)
    (state : RemoteState) (x : σ) :
    c.went (task :: tasks) state x =
      let out := RemoteM.exec (c.handle task) state x
      c.went tasks out.1.2 out.2 := by
  rw [went, List.mapM_cons]
  rfl

/-- A task leaves the records as they are, or with one of a text that came back as it was. -/
inductive Leaves (c : RemotePruner σ) (state state' : RemoteState) : Prop where
  | same (records : state'.records = state.records)
  | recorded {text id : String} {record : PruneRecord}
    (records : Records c text id state state' record)

theorem handle_leaves (hcarries : Carries c sent) (task : PruneTask) (state : RemoteState)
    (x : σ) : Leaves c state (RemoteM.exec (c.handle task) state x).1.2 := by
  cases task with
  | prune request =>
    have hprunes := prune_prunes hcarries request state x
    rcases hrun : RemoteM.exec (c.prune request) state x with ⟨⟨reply, state'⟩, x'⟩
    rw [hrun] at hprunes
    rw [handle, RemoteM.exec_bind hrun]
    cases hprunes with
    | delivered => exact .same rfl
    | failedOpen hreply hundelivered hgives hrecords => exact .recorded hrecords
  | recover request =>
    have hrecovers := recover_recovers hcarries request state x
    rcases hrun : RemoteM.exec (c.recover request) state x with ⟨⟨reply, state'⟩, x'⟩
    rw [hrun] at hrecovers
    rw [handle, RemoteM.exec_bind hrun]
    cases hrecovers <;> exact .same rfl

/-- What each task keeps of the client, all tasks keep. -/
theorem went_induction {P : RemoteState → Prop} (hcarries : Carries c sent)
    (hstep : ∀ state state', Leaves c state state' → P state → P state') (tasks : List PruneTask)
    (h : P state) : P (c.went tasks state x).1 := by
  induction tasks generalizing state x with
  | nil => exact h
  | cons task tasks ih =>
    rw [went_cons]
    exact ih (hstep _ _ (handle_leaves hcarries task state x) h)

theorem counts_went (hcarries : Carries c sent) (tasks : List PruneTask)
    (h : state.records.Counts first) : (c.went tasks state x).1.records.Counts first := by
  refine went_induction (P := fun s => s.records.Counts first) hcarries
    (fun state state' hleaves hcounts => ?_) tasks h
  cases hleaves with
  | same hsame => exact hsame ▸ hcounts
  | recorded hrecords =>
    exact hcounts.insert (hrecords.own.trans hrecords.id_eq) hrecords.next hrecords.inserted

/-- Until all ids have been given out, there is no other record under the id of a record. -/
def Sole (first : Nat) (record : PruneRecord) (s : PrunerState) : Prop :=
  s.next ≤ first + idCount → Issued "pr_" first s.next record.id ∧
    ∀ other ∈ s.records.records, other.id = record.id → other = record

theorem sole_of_records (hcounts : state.records.Counts first)
    (h : Records c text id state state' record) : Sole first record state'.records := by
  intro hids
  have hid := h.own.trans h.id_eq
  rw [h.next] at hids
  rw [hid, h.next]
  refine ⟨.last hcounts.first_le, fun other hmem hother => ?_⟩
  rw [h.inserted] at hmem
  rcases RecordStore.mem_insert hmem with hmem | rfl
  · exact absurd hother ((hcounts.issued other hmem).ne hids)
  · rfl

theorem sole_went (hcarries : Carries c sent) (tasks : List PruneTask)
    (h : Sole first record state.records) : Sole first record (c.went tasks state x).1.records := by
  refine went_induction (P := fun s => Sole first record s.records) hcarries
    (fun state state' hleaves hsole => ?_) tasks h
  cases hleaves with
  | same hsame => exact hsame ▸ hsole
  | @recorded text id new hrecords =>
    intro hids
    rw [hrecords.next] at hids
    obtain ⟨hissued, hall⟩ := hsole (Nat.le_of_succ_le hids)
    rw [hrecords.next]
    refine ⟨hissued.succ, fun other hmem hother => ?_⟩
    rw [hrecords.inserted] at hmem
    rcases RecordStore.mem_insert hmem with hmem | rfl
    · exact hall other hmem hother
    · exact absurd (hother.symm.trans (hrecords.own.trans hrecords.id_eq)) (hissued.ne hids)

/-- What is recovered of a text under an id: while its record is held and lives, the text, without a
request. No other record comes to be held under the id. -/
structure Keeps (c : RemotePruner σ) (sent : σ → List HttpRequest) (text id : String)
    (record : PruneRecord) (state : RemoteState) (x : σ) : Prop where
  sole : ∀ other, state.records.records.find? id = some other → other = record
  recovered : state.records.records.find? id = some record →
    ¬ record.Ended (c.fallback.clock.now.run x).1 →
      ∃ x', RemoteM.exec (c.recover ⟨id, [], false⟩) state x = ((.done .zero (.ok text), state), x') ∧
        sent x' = sent x

theorem recover_held {held : PruneRecord} (hcarries : Carries c sent)
    (hwhole : held.whole = .ofText text)
    (hfound : state.records.records.find? id = some held)
    (hlives : ¬ held.Ended (c.fallback.clock.now.run x).1) :
    ∃ x', RemoteM.exec (c.recover ⟨id, [], false⟩) state x = ((.done .zero (.ok text), state), x') ∧
      sent x' = sent x := by
  have hrecovers := recover_recovers hcarries ⟨id, [], false⟩ state x
  generalize RemoteM.exec (c.recover ⟨id, [], false⟩) state x = out at hrecovers ⊢
  cases hrecovers with
  | @here record x' hrecord _ hsilent =>
    cases hfound.symm.trans hrecord
    have hwell : held.whole.WellFormed := hwhole ▸ Lines.wellFormed_ofText text
    have htext : held.recover ⟨id, [], false⟩ = text := by
      rw [PruneRecord.recover_nil, PruneRecord.recover_whole _ hwell, hwhole, Lines.text_ofText]
    exact ⟨x', by rw [htext], hsilent⟩
  | expired hrecord hended =>
    cases hfound.symm.trans hrecord
    exact absurd hended hlives
  | asked hunknown => exact nomatch hfound.symm.trans hunknown

/-- What comes of the tasks of a client: of each prune and each recovery, and of the texts that came
back as they were, whatever tasks come later. -/
structure FailsOpen (c : RemotePruner σ) (sent : σ → List HttpRequest) (first : Nat)
    (state : RemoteState) (x : σ) : Prop where
  prunes : ∀ request, Prunes c request state x (RemoteM.exec (c.prune request) state x)
  recovers : ∀ request,
    Recovers c sent request state x (RemoteM.exec (c.recover request) state x)
  held : ∀ {text id : String} {state' : RemoteState} {record : PruneRecord},
    Records c text id state state' record → state.records.next < first + idCount →
      state'.records.records.find? id = some record
  keeps : ∀ {text id : String} {state' : RemoteState} {record : PruneRecord} {x' : σ}
    (later : List PruneTask), Records c text id state state' record →
      (c.went later state' x').1.records.next ≤ first + idCount →
        Keeps c sent text id record (c.went later state' x').1 (c.went later state' x').2

/-- Whatever comes of the requests of a client, after all tasks: a prune gives the response that the
reply delivers, or the text as it was, which is recorded here. While the record is held and lives,
the text is recovered without a request; for what is not recorded here, each recovery sends one. -/
theorem remote_failsOpen (hcarries : Carries c sent) (first calls : Nat) (before : List PruneTask)
    (x : σ) :
    FailsOpen c sent first
      (c.went before ⟨calls, .fresh c.fallback.config first⟩ x).1
      (c.went before ⟨calls, .fresh c.fallback.config first⟩ x).2 := by
  have hnew : (PrunerState.fresh c.fallback.config first).Counts first :=
    ⟨Nat.le_refl _, fun _ h => nomatch h⟩
  have hcounts : (c.went before ⟨calls, .fresh c.fallback.config first⟩ x).1.records.Counts first :=
    counts_went hcarries before hnew
  refine ⟨fun request => prune_prunes hcarries request _ _,
    fun request => recover_recovers hcarries request _ _, fun hrecords hids => ?_,
    fun {text id state' record x'} later hrecords hids => ?_⟩
  · rw [hrecords.inserted, ← hrecords.own]
    exact RecordStore.find?_insert
      (hrecords.own.trans hrecords.id_eq ▸ hcounts.fresh hids)
  · have hsole := (sole_went (x := x') hcarries later (sole_of_records hcounts hrecords) hids).2
    refine ⟨fun other hfound => ?_, recover_held hcarries hrecords.whole⟩
    have hother : other.id = id := by simpa using List.find?_some hfound
    exact hsole other (List.mem_of_find?_eq_some hfound) (hother.trans hrecords.own.symm)

/-- A client that no server answers, by whose clock no time passes. -/
def unanswered : RemotePruner (List HttpRequest) where
  send request := fun noted => (.done .zero (.failed "connection refused"), noted ++ [request])
  fallback := ⟨.standard, none, ⟨pure ⟨0, 0⟩, pure .zero⟩⟩

theorem remote_failsOpen_unanswered :
    Carries unanswered (fun noted => noted) ∧ ∃ after response state x,
      RemoteM.exec (unanswered.prune Pruner.twoBlanks) ⟨1, .fresh .standard 0⟩ [] =
        ((.done after response, state), x) ∧
      GivesBack Pruner.twoBlanks.text response ∧
      ∃ x', RemoteM.exec (unanswered.recover ⟨response.id, [], false⟩) state x =
        ((.done .zero (.ok Pruner.twoBlanks.text), state), x') ∧ x' = x := by
  have hcarries : Carries unanswered (fun noted => noted) :=
    ⟨fun _ _ => ⟨_, _, rfl⟩, fun _ _ => rfl, fun _ => rfl⟩
  refine ⟨hcarries, ?_⟩
  have hopen := remote_failsOpen hcarries 0 1 [] []
  have hprunes : Prunes unanswered Pruner.twoBlanks ⟨1, .fresh .standard 0⟩ []
    (RemoteM.exec (unanswered.prune Pruner.twoBlanks) ⟨1, .fresh .standard 0⟩ []) :=
    hopen.prunes Pruner.twoBlanks
  rcases hrun : RemoteM.exec (unanswered.prune Pruner.twoBlanks) ⟨1, .fresh .standard 0⟩ [] with
    ⟨⟨reply, state⟩, x⟩
  rw [hrun] at hprunes
  cases hprunes with
  | delivered hreply hdelivers =>
    cases hreply
    cases hdelivers
  | @failedOpen after _ response _ record _ _ _ _ hgives hrecords =>
    refine ⟨after, response, state, x, rfl, hgives, ?_⟩
    have hids : state.records.next ≤ 0 + idCount := by
      rw [hrecords.next]
      decide +kernel
    have hlives : ¬ record.Ended (unanswered.fallback.clock.now.run x).1 := by
      obtain ⟨v, hcreated⟩ := hrecords.created
      have hstill : ∀ x, (unanswered.fallback.clock.now.run x).1 = ⟨0, 0⟩ := fun _ => rfl
      rw [← PruneRecord.isExpired_iff, PruneRecord.isExpired, hcreated, hrecords.life, hstill,
        hstill]
      decide +kernel
    exact (hopen.keeps [] hrecords hids).recovered (hopen.held hrecords (by decide +kernel)) hlives

end RemotePruner
end ContextBudget
