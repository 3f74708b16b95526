import ContextBudget.Proofs.Prune.Typed
import ContextBudget.Proofs.Rpc.Surface
import ContextBudget.Rpc.Client

/-!
# Pruning at a service

A client of the pruning service does what a pruner here would do. What goes between them has numbers
that are read back from their texts; strings always are.

- `answer_sent`: the service carries a request out as it was sent.
- `resultOf_result`, `resultOf_error`: the client reads the result or the error that was sent.
- `prune_reached`, `recover_reached`: a prune or a recovery is that of the pruner behind the
  service.
- `answers_as_here`: so is every sequence of them.
-/

namespace ContextBudget

open Json Selection

/-! ## Lists of computations -/

namespace PrunerM

variable {σ : Type} {memory : PrunerState} {w : σ}

/-- What holds of all that may come of each item holds of all that comes of a list of them. -/
theorem forall_mapM {α β : Type} {f : α → PrunerM σ β} {P : β → Prop} {l : List α}
    (h : ∀ a ∈ l, ∀ memory w, P (exec (f a) memory w).1.1) :
    ∀ b ∈ (exec (l.mapM f) memory w).1.1, P b := by
  induction l generalizing memory w with
  | nil => exact fun b hb => absurd hb List.not_mem_nil
  | cons a l ih =>
    rcases hall : exec ((a :: l).mapM f) memory w with ⟨⟨bs, memory'⟩, w'⟩
    rw [List.mapM_cons] at hall
    obtain ⟨b, memory₁, w₁, hfirst, h₁⟩ := bind_ran hall
    obtain ⟨rest, memory₂, w₂, hrest, h₂⟩ := bind_ran h₁
    cases h₂
    have hb := h a List.mem_cons_self memory w
    have hbs := @ih memory₁ w₁ fun a' ha' => h a' (List.mem_cons_of_mem a ha')
    rw [hfirst] at hb
    rw [hrest] at hbs
    exact List.forall_mem_cons.mpr ⟨hb, hbs⟩

end PrunerM

/-! ## Recoveries -/

namespace Pruner

open PrunerM

variable {σ : Type} {p : Pruner σ} {s s' : PrunerState} {w w' : σ}

/-- A recovery reads the records at the time that the clock tells. -/
theorem exec_recover (request : RecoverRequest) :
    exec (p.recover request) s w =
      ((((s.records.get request.id (p.clock.now.run w).1).map fun r => r.recover request), s),
        (p.clock.now.run w).2) := rfl

/-- A recovery fails only for the record that it asks for. -/
theorem recover_error {request : RecoverRequest} {e : BudgetError}
    (h : exec (p.recover request) s w = ((.error e, s'), w')) :
    e = .recordUnknown request.id ∨ e = .recordExpired request.id := by
  rw [exec_recover, RecordStore.get] at h
  split at h
  · cases h
    exact .inl rfl
  · split at h
    · cases h
      exact .inr rfl
    · cases h

end Pruner

/-! ## The service -/

namespace PruneService

open PrunerM

variable {σ : Type} {s : PruneService σ} {memory memory' : PrunerState} {w w' : σ}
  {asked : Rpc.Request}

/-- A request that is read as it was sent is carried out, and its response bears its id. -/
theorem answer_sent {command : Command} {out : Except Rpc.Error Json}
    (hfits : Fits 127 asked.toJson) (hversion : asked.version = Rpc.version)
    (hcommand : PruneService.command s.defaults asked.method asked.params.settle = .ok command)
    (hperform : exec (s.perform command) memory w = ((out, memory'), w')) :
    exec (s.answer asked.toJson.write) memory w = ((⟨asked.id.settle, out⟩, memory'), w') := by
  unfold answer
  rw [requestOf_asked (Rpc.request?_write hfits hversion)]
  simp only [hcommand]
  exact exec_bind hperform

theorem command_prune {request : PruneRequest} (h : request.options.Typed)
    (defaults : PruneOptions) :
    command defaults "prune_text" request.toJson.settle = .ok (.prune request) := by
  simp [command, pruneParams?_toJson h]

theorem command_recover {request : RecoverRequest} (h : ∀ r ∈ request.ranges, r.Typed)
    (defaults : PruneOptions) :
    command defaults "recover_text" request.toJson.settle = .ok (.recover request) := by
  simp [command, RecoverRequest.ofJson?_toJson h]

/-- What is sent for what a recovery gives. -/
inductive Carried : Except BudgetError String → Except Rpc.Error Json → Prop where
  | text (text : String) : Carried (.ok text) (.ok (.obj [("text", .str text)]))
  | error (e : BudgetError) : Carried (.error e) (.error (recoverError e))

theorem exec_perform_recover {request : RecoverRequest} {out : Except BudgetError String}
    (h : exec (s.pruner.recover request) memory w = ((out, memory'), w')) :
    ∃ result, exec (s.perform (.recover request)) memory w = ((result, memory'), w') ∧
      Carried out result := by
  cases out with
  | ok text => exact ⟨_, exec_bind h, .text text⟩
  | error e => exact ⟨_, exec_bind h, .error e⟩

theorem coded_recoverError (e : BudgetError) : (recoverError e).Coded := by
  have hcode : (recoverError e).code = recordUnknownCode ∨
      (recoverError e).code = recordExpiredCode ∨ (recoverError e).code = -32603 := by
    cases e <;> simp [recoverError]
  rw [Rpc.Error.Coded]
  rcases hcode with hcode | hcode | hcode <;> rw [hcode] <;> decide

end PruneService

/-! ## The client -/

namespace RemoteM

variable {σ α β : Type} {state state' : RemoteState} {x x' : σ}

/-- What a computation gives, and the states of the client and of the world after it. -/
def exec (m : RemoteM σ α) (state : RemoteState) (x : σ) : (α × RemoteState) × σ :=
  (m.run state).run x

theorem exec_bind {m : RemoteM σ α} {f : α → RemoteM σ β} {a : α}
    (h : exec m state x = ((a, state'), x')) : exec (m >>= f) state x = exec (f a) state' x' := by
  change exec (f (exec m state x).1.1) (exec m state x).1.2 (exec m state x).2 = _
  rw [h]

theorem exec_lift {m : StateM σ α} {a : α} (h : m.run x = (a, x')) :
    exec (liftM m) state x = ((a, state), x') := by
  change (((m.run x).1, state), (m.run x).2) = _
  rw [h]

end RemoteM

namespace RemotePruner

section Replies

variable {α : Type} {decode : Json → Option α} {id : Json}

theorem decoded_write {response : Rpc.Response} {reply : Rpc.Reply}
    (hfits : Fits 127 response.toJson) (hreply : Rpc.Reply.ofJson? response.toJson = some reply) :
    (Exchange.reply 200 response.toJson.write).decoded Rpc.Reply.ofJson? = .ok reply := by
  have hread : (Json.read? response.toJson.write).bind Rpc.Reply.ofJson? = some reply := by
    rw [Json.read?_write hfits, Option.bind_some, hreply]
  have hbody : (Exchange.reply 200 response.toJson.write).body = .ok response.toJson.write := rfl
  simp only [Exchange.decoded, hbody, bind, Except.bind, hread]
  rfl

/-- The result in a reply is what its decoder makes of it. -/
theorem resultOf_result {a : α} {v : Json} (hfits : Fits 127 (Rpc.Response.toJson ⟨id, .ok v⟩))
    (hobject : ∃ fields, v = obj fields) (hdecode : decode v.settle = some a) :
    resultOf decode (.reply 200 (Rpc.Response.toJson ⟨id, .ok v⟩).write) = .ok a := by
  obtain ⟨fields, rfl⟩ := hobject
  simp only [resultOf, decoded_write hfits (Rpc.Reply.ofJson?_result id fields), hdecode]

/-- The error in a reply is the one that the service sent. -/
theorem resultOf_error {e : Rpc.Error}
    (hfits : Fits 127 (Rpc.Response.toJson ⟨id, .error e⟩)) (hcoded : e.Coded) :
    resultOf decode (.reply 200 (Rpc.Response.toJson ⟨id, .error e⟩).write) =
      .error (.remote e) := by
  simp only [resultOf, decoded_write hfits (Rpc.Reply.ofJson?_error id hcoded)]

end Replies

open PruneService

variable {σ : Type} {s : PruneService σ} {c : RemotePruner (PrunerState × σ)}
  {now : StateM σ Moment} {state : RemoteState} {memory memory' : PrunerState} {w w' : σ}

/-- A look at a clock beside a service leaves what the service remembers as it is. -/
def beside (now : StateM σ Moment) : StateM (PrunerState × σ) Moment := fun x =>
  let (moment, w) := now.run x.2
  (moment, (x.1, w))

/-- A client reaches a service: each request is answered, and both go over unchanged. The clock of
the client stands beside the service. -/
structure Reaches (c : RemotePruner (PrunerState × σ)) (s : PruneService σ)
    (now : StateM σ Moment) : Prop where
  answered : ∀ request memory w, ∃ after, (c.send request).run (memory, w) =
    let out := PrunerM.exec (s.answer request.body.write) memory w
    (.done after (.reply 200 out.1.1.toJson.write), (out.1.2, out.2))
  clock : c.fallback.clock.now = beside now

/-- A call gets the result in the response of the service to its request. -/
theorem call_reached {α : Type} (decode : Json → Option α) {method : String} {params : Json}
    {response : Rpc.Response} (hreaches : Reaches c s now)
    (hanswer : PrunerM.exec (s.answer
      (Rpc.Request.toJson ⟨Rpc.version, .ofNat state.next, method, params⟩).write) memory w =
        ((response, memory'), w')) :
    ∃ after, RemoteM.exec (c.call method params decode) state (memory, w) =
      ((.done after (resultOf decode (.reply 200 response.toJson.write)),
        { state with next := Word.add state.next 1 }), (memory', w')) := by
  obtain ⟨after, hsend⟩ := hreaches.answered
    ⟨none, Rpc.Request.toJson ⟨Rpc.version, .ofNat state.next, method, params⟩⟩ memory w
  refine ⟨after, ?_⟩
  rw [hanswer] at hsend
  unfold call
  refine (RemoteM.exec_bind rfl).trans ((RemoteM.exec_bind rfl).trans ?_)
  exact RemoteM.exec_bind (RemoteM.exec_lift hsend)

/-- A prune is that of the pruner behind the service. -/
theorem prune_reached {request : PruneRequest} {response : PruneResponse}
    (hreaches : Reaches c s now) (htyped : request.options.Typed)
    (hratio : ReadsBack request.options.maxRatio)
    (hlines : (Lines.ofText request.text).lines.length < Word.size)
    (hnext : state.next < Word.size) (hreads : ReadsBack response.stats.prunedRatio)
    (hprune : PrunerM.exec (s.pruner.prune request) memory w = ((response, memory'), w')) :
    ∃ after, RemoteM.exec (c.prune request) state (memory, w) =
      ((.done after response, { state with next := Word.add state.next 1 }), (memory', w')) := by
  have hid : Fits 126 (ofNat state.next) := fits_ofNat hnext
  have hresponse := Pruner.prune_typed htyped hlines hprune
  have hperform : PrunerM.exec (s.perform (.prune request)) memory w =
      ((.ok response.toJson, memory'), w') := PrunerM.exec_bind hprune
  have hanswer : PrunerM.exec (s.answer (Rpc.Request.toJson
      ⟨Rpc.version, ofNat state.next, "prune_text", request.toJson⟩).write) memory w =
        ((⟨ofNat state.next, .ok response.toJson⟩, memory'), w') :=
    answer_sent (Rpc.Request.fits hid (PruneRequest.fits htyped hratio 124)) rfl
      (command_prune htyped s.defaults) hperform
  have hfits : Fits 127 (Rpc.Response.toJson ⟨ofNat state.next, .ok response.toJson⟩) :=
    Rpc.Response.fits hid (fun v hv => by
      cases hv
      exact PruneResponse.fits hresponse hreads 123) nofun
  obtain ⟨after, hcall⟩ := call_reached PruneResponse.ofJson? hreaches hanswer
  rw [resultOf_result hfits ⟨_, rfl⟩ (PruneResponse.ofJson?_toJson hresponse)] at hcall
  exact ⟨after, RemoteM.exec_bind hcall⟩

theorem exec_locally {τ α : Type} (m : PrunerM τ α) (x : τ) :
    RemoteM.exec (locally m) state x =
      let out := PrunerM.exec m state.records x
      ((out.1.1, { state with records := out.1.2 }), out.2) := rfl

/-- A client that has recorded nothing knows no text to recover. -/
theorem recover_locally {request : RecoverRequest} (hreaches : Reaches c s now)
    (hnone : state.records.records.records = []) :
    RemoteM.exec (locally (c.fallback.recover request)) state (memory, w) =
      ((.error (.recordUnknown request.id), state), (memory, (now.run w).2)) := by
  have hunknown : ∀ moment, state.records.records.get request.id moment =
      .error (.recordUnknown request.id) := fun moment => by
    rw [RecordStore.get, RecordStore.find?, hnone]
    rfl
  rw [exec_locally, Pruner.exec_recover, hunknown, hreaches.clock]
  rfl

/-- A recovery is that of the pruner behind the service, if the client has recorded nothing. -/
theorem recover_reached {request : RecoverRequest} {out : Except BudgetError String}
    (hreaches : Reaches c s now)
    (htyped : ∀ r ∈ request.ranges, r.Typed) (hnext : state.next < Word.size)
    (hnone : state.records.records.records = [])
    (hrecover : PrunerM.exec (s.pruner.recover request) memory (now.run w).2 =
      ((out, memory'), w')) :
    ∃ after, RemoteM.exec (c.recover request) state (memory, w) =
      ((.done after out, { state with next := Word.add state.next 1 }), (memory', w')) := by
  have hid : Fits 126 (ofNat state.next) := fits_ofNat hnext
  obtain ⟨result, hperform, hcarried⟩ := exec_perform_recover hrecover
  have hanswer : PrunerM.exec (s.answer (Rpc.Request.toJson
      ⟨Rpc.version, ofNat state.next, "recover_text", request.toJson⟩).write) memory (now.run w).2 =
        ((⟨ofNat state.next, result⟩, memory'), w') :=
    answer_sent (Rpc.Request.fits hid (RecoverRequest.fits htyped 123)) rfl
      (command_recover htyped s.defaults) hperform
  obtain ⟨after, hcall⟩ := call_reached textOf? hreaches hanswer
  have hresult : (resultOf textOf? (.reply 200
      (Rpc.Response.toJson ⟨ofNat state.next, result⟩).write)).mapError
        (recoverFailure request.id) = out := by
    cases hcarried with
    | text text =>
      have hfits : Fits 127 (Rpc.Response.toJson
          ⟨ofNat state.next, .ok (obj [("text", str text)])⟩) :=
        Rpc.Response.fits hid (fun v hv => by
          cases hv
          exact fits_obj.mpr ⟨fits_str _, fitFields_nil⟩) nofun
      have hdecode : textOf? (obj [("text", str text)]).settle = some text := rfl
      rw [resultOf_result hfits ⟨_, rfl⟩ hdecode]
      rfl
    | error e =>
      have hfits : Fits 127 (Rpc.Response.toJson ⟨ofNat state.next, .error (recoverError e)⟩) :=
        Rpc.Response.fits hid nofun fun e' he' => by
          cases he'
          exact coded_recoverError e
      rw [resultOf_error hfits (coded_recoverError e)]
      rcases Pruner.recover_error hrecover with rfl | rfl <;> rfl
  refine ⟨after, (RemoteM.exec_bind (recover_locally hreaches hnone)).trans
    ((RemoteM.exec_bind hcall).trans ?_)⟩
  rw [← hresult]
  rfl

end RemotePruner

/-! ## Tasks -/

/-- A task for a pruner. -/
inductive PruneTask where
  | prune (request : PruneRequest)
  | recover (request : RecoverRequest)

/-- What comes of a task. -/
inductive PruneAnswer where
  | pruned (response : PruneResponse)
  | recovered (text : Except BudgetError String)

/-- A task whose numbers are of the types that they are sent as, and whose ratio is read back from
its text. -/
inductive PruneTask.Sendable : PruneTask → Prop where
  | prune {request : PruneRequest} (options : request.options.Typed)
    (ratio : ReadsBack request.options.maxRatio)
    (lines : (Lines.ofText request.text).lines.length < Word.size) : Sendable (.prune request)
  | recover {request : RecoverRequest} (ranges : ∀ r ∈ request.ranges, r.Typed) :
    Sendable (.recover request)

/-- An answer whose ratio is read back from its text. -/
inductive PruneAnswer.Sendable : PruneAnswer → Prop where
  | pruned {response : PruneResponse} (ratio : ReadsBack response.stats.prunedRatio) :
    Sendable (.pruned response)
  | recovered (text : Except BudgetError String) : Sendable (.recovered text)

/-- An answer is one to the task: a recovery fails only for the record that it asked for, which is
unknown or has expired. -/
inductive PruneAnswer.Meets : PruneTask → PruneAnswer → Prop where
  | pruned (request : PruneRequest) (response : PruneResponse) :
    Meets (.prune request) (.pruned response)
  | text (request : RecoverRequest) (text : String) :
    Meets (.recover request) (.recovered (.ok text))
  | unknown (request : RecoverRequest) :
    Meets (.recover request) (.recovered (.error (.recordUnknown request.id)))
  | expired (request : RecoverRequest) :
    Meets (.recover request) (.recovered (.error (.recordExpired request.id)))

namespace Pruner

variable {σ : Type}

/-- Carries a task out here. Before a recovery the client looks at its own clock, since it may have
recorded the text itself. -/
def handle (p : Pruner σ) (now : StateM σ Moment) : PruneTask → PrunerM σ PruneAnswer
  | .prune request => return .pruned (← p.prune request)
  | .recover request => do
    let _ ← now
    return .recovered (← p.recover request)

end Pruner

namespace RemotePruner

variable {σ : Type}

/-- Carries a task out at the service. -/
def handle (c : RemotePruner σ) : PruneTask → RemoteM σ (Pending PruneAnswer)
  | .prune request => return (← c.prune request).map .pruned
  | .recover request => return (← c.recover request).map .recovered

open PruneService

variable {s : PruneService σ} {c : RemotePruner (PrunerState × σ)} {now : StateM σ Moment}
  {state : RemoteState} {memory memory' : PrunerState} {w w' : σ}

theorem handle_reached {task : PruneTask} {answer : PruneAnswer} (hreaches : Reaches c s now)
    (htask : task.Sendable) (hnext : state.next < Word.size)
    (hnone : state.records.records.records = []) (hanswer : answer.Sendable)
    (h : PrunerM.exec (s.pruner.handle now task) memory w = ((answer, memory'), w')) :
    answer.Meets task ∧ ∃ after, RemoteM.exec (c.handle task) state (memory, w) =
      ((.done after answer, { state with next := Word.add state.next 1 }), (memory', w')) := by
  cases htask with
  | @prune request htyped hratio hlines =>
    obtain ⟨response, memory₁, w₁, hprune, h₁⟩ := PrunerM.bind_ran h
    cases h₁
    cases hanswer with | pruned hreads =>
    obtain ⟨after, hremote⟩ :=
      prune_reached hreaches htyped hratio hlines hnext hreads hprune
    exact ⟨.pruned _ _, after, RemoteM.exec_bind hremote⟩
  | @recover request htyped =>
    obtain ⟨moment, memory₁, w₁, hlook, h₁⟩ := PrunerM.bind_ran h
    obtain ⟨out, memory₂, w₂, hrecover, h₂⟩ := PrunerM.bind_ran h₁
    cases hlook
    cases h₂
    obtain ⟨after, hremote⟩ := recover_reached hreaches htyped hnext hnone hrecover
    refine ⟨?_, after, RemoteM.exec_bind hremote⟩
    cases out with
    | ok text => exact .text request text
    | error e =>
      rcases Pruner.recover_error hrecover with rfl | rfl
      · exact .unknown request
      · exact .expired request

/-! ## Two tasks -/

/-- A client that a service answers at once, by whose clock no time passes. -/
def client (s : PruneService σ) (now : StateM σ Moment) : RemotePruner (PrunerState × σ) where
  send request := fun x =>
    let out := PrunerM.exec (s.answer request.body.write) x.1 x.2
    (.done .zero (.reply 200 out.1.1.toJson.write), (out.1.2, out.2))
  fallback := ⟨.standard, none, ⟨beside now, pure .zero⟩⟩

theorem reaches_client (s : PruneService σ) (now : StateM σ Moment) :
    Reaches (client s now) s now where
  answered _ _ _ := ⟨.zero, rfl⟩
  clock := rfl

theorem sendable_twoBlanks : (PruneTask.prune Pruner.twoBlanks).Sendable := by
  have hone : (1 : Double).Rounded := Binary.rounded_ofNat (by decide) 1
  have hfinite : (1 : Double).isFinite = true := by decide +kernel
  have hreads : ReadsBack (1 : Double) := by decide +kernel
  exact .prune ⟨hone, hfinite, by decide +kernel, by decide +kernel⟩ hreads (by decide +kernel)

/-- Half of the lines go, and the text of one half is read back. -/
theorem sendable_answer_twoBlanks (memory : PrunerState) (v : Unit) : (PrunerM.exec
    (Pruner.asleep.handle (pure ⟨0, 0⟩) (.prune Pruner.twoBlanks)) memory v).1.1.Sendable := by
  have hallowed : Pruner.refusal? Pruner.asleep.config Pruner.twoBlanks
      (Lines.ofText Pruner.twoBlanks.text).lines.length = none := by
    decide +kernel
  have hquota : quota Pruner.twoBlanks.options (Lines.ofText Pruner.twoBlanks.text).lines.length =
      4 := by
    decide +kernel
  have hsound : fault? Pruner.twoBlanks.options [false, true, true, false] = none := by
    decide +kernel
  have hcount : (Lines.ofText Pruner.twoBlanks.text).lines.length = 4 := by decide +kernel
  have hratio : ratio 2 4 = .ofRatio 1 2 := by decide +kernel
  have hstill : Pruner.asleep.clock.elapsed = pure .zero := rfl
  rcases hprune : PrunerM.exec (Pruner.asleep.prune Pruner.twoBlanks) memory v with
    ⟨⟨response, memory'⟩, v'⟩
  have hhandle : PrunerM.exec (Pruner.asleep.handle (pure ⟨0, 0⟩) (.prune Pruner.twoBlanks)) memory
      v = ((.pruned response, memory'), v') := PrunerM.exec_bind hprune
  rw [Pruner.prune_still hstill (by decide) rfl hallowed (Nat.zero_le _) (by simp [hquota])
    (by rw [show Pruner.asleep.config = .standard from rfl, hquota, Pruner.maskOf_twoBlanks])
    hsound] at hprune
  cases hprune
  rw [hhandle]
  refine .pruned ?_
  change ReadsBack (ratio 2 (Lines.ofText Pruner.twoBlanks.text).lines.length)
  rw [hcount, hratio]
  exact readsBack_half

/-- A prune, and a recovery of its text. -/
def twoTasks : List PruneTask := [.prune Pruner.twoBlanks, .recover ⟨pruneId 0, [], false⟩]

theorem mem_twoTasks {task : PruneTask} (h : task ∈ twoTasks) :
    task = .prune Pruner.twoBlanks ∨ task = .recover ⟨pruneId 0, [], false⟩ :=
  (List.mem_cons.mp h).imp_right List.mem_singleton.mp

theorem sendable_twoTasks : ∀ task ∈ twoTasks, task.Sendable := by
  intro task htask
  rcases mem_twoTasks htask with rfl | rfl
  · exact sendable_twoBlanks
  · exact .recover fun r hr => absurd hr List.not_mem_nil

/-- A service on a pruner whose clocks never move. -/
def asleep : PruneService Unit := ⟨Pruner.asleep, .standard, .zero⟩

theorem sendable_answers_twoTasks (memory : PrunerState) (v : Unit) : ∀ answer ∈
    (PrunerM.exec (twoTasks.mapM (asleep.pruner.handle (pure ⟨0, 0⟩))) memory v).1.1,
      answer.Sendable := by
  refine PrunerM.forall_mapM fun task htask memory v => ?_
  rcases mem_twoTasks htask with rfl | rfl
  · rw [show asleep.pruner = Pruner.asleep from rfl]
    exact sendable_answer_twoBlanks memory v
  · exact .recovered _

/-! ## All tasks -/

/-- What a client replies to tasks is what a pruner answers to them here, and the pruner remembers
the same in the same world. The client has recorded nothing. -/
structure AsHere (tasks : List PruneTask) (records : PrunerState)
    (here : (List PruneAnswer × PrunerState) × σ)
    (there : (List (Pending PruneAnswer) × RemoteState) × (PrunerState × σ)) : Prop where
  replies : List.Forall₂ (fun reply answer => ∃ after, reply = .done after answer)
    there.1.1 here.1.1
  meets : List.Forall₂ (fun task answer => answer.Meets task) tasks here.1.1
  records : there.1.2.records = records
  world : there.2 = (here.1.2, here.2)

/-- Whatever tasks a client is given, it replies what the pruner behind the service answers to them,
whatever the defaults of the service are. -/
theorem answers_as_here (hreaches : Reaches c s now) {tasks : List PruneTask}
    (htasks : ∀ task ∈ tasks, task.Sendable) (hnext : state.next < Word.size)
    (hnone : state.records.records.records = [])
    (hanswers : ∀ answer ∈ (PrunerM.exec (tasks.mapM (s.pruner.handle now)) memory w).1.1,
      answer.Sendable) :
    AsHere tasks state.records (PrunerM.exec (tasks.mapM (s.pruner.handle now)) memory w)
      (RemoteM.exec (tasks.mapM c.handle) state (memory, w)) := by
  induction tasks generalizing state memory w with
  | nil => exact ⟨.nil, .nil, rfl, rfl⟩
  | cons task tasks ih =>
    rcases hhere : PrunerM.exec ((task :: tasks).mapM (s.pruner.handle now)) memory w with
      ⟨⟨answers, memory'⟩, w'⟩
    rw [hhere] at hanswers
    rw [List.mapM_cons] at hhere
    obtain ⟨answer, memory₁, w₁, hfirst, h₁⟩ := PrunerM.bind_ran hhere
    obtain ⟨rest, memory₂, w₂, hrest, h₂⟩ := PrunerM.bind_ran h₁
    cases h₂
    obtain ⟨hmeets, after, hremote⟩ := handle_reached hreaches
      (htasks task List.mem_cons_self) hnext hnone (hanswers answer List.mem_cons_self) hfirst
    have hrun := @ih { state with next := Word.add state.next 1 } memory₁ w₁
      (fun t ht => htasks t (List.mem_cons_of_mem _ ht)) (Word.add_lt _ _) hnone
    rw [hrest] at hrun
    obtain ⟨hreplies, hmeet, hrecords, hworld⟩ :=
      hrun fun a ha => hanswers a (List.mem_cons_of_mem _ ha)
    rw [List.mapM_cons, RemoteM.exec_bind hremote, RemoteM.exec_bind rfl]
    exact ⟨.cons ⟨after, rfl⟩ hreplies, .cons hmeets hmeet, hrecords, hworld⟩

theorem answers_as_here_twoTasks : AsHere twoTasks (.fresh .standard 0)
    (PrunerM.exec (twoTasks.mapM (asleep.pruner.handle (pure ⟨0, 0⟩))) (.fresh .standard 0) ())
    (RemoteM.exec (twoTasks.mapM (client asleep (pure ⟨0, 0⟩)).handle) ⟨1, .fresh .standard 0⟩
      (.fresh .standard 0, ())) := by
  have hnext : (RemoteState.mk 1 (.fresh .standard 0)).next < Word.size := by decide
  have hnone : (RemoteState.mk 1 (.fresh .standard 0)).records.records.records = [] := rfl
  exact answers_as_here (reaches_client asleep (pure ⟨0, 0⟩)) sendable_twoTasks hnext hnone
    (sendable_answers_twoTasks (.fresh .standard 0) ())

end RemotePruner
end ContextBudget
