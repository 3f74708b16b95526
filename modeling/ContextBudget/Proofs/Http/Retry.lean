import ContextBudget.Http.Exchange
import ContextBudget.Http.Retry
import ContextBudget.Proofs.Text.Occurrences

/-!
# Retries and what a server writes

Whether a failure may pass is told from its text, which quotes the reply. So a server that quotes
`HTTP 400` in the reply to a request that failed for another reason gets no further request.

- `isTransient_ofStatus`: when a failure of a status may pass.
- `retrySteps_congr`: what a caller does depends only on which of its calls may be tried again.
- `retries_alike_iff`: which bodies make no difference.
-/

namespace ContextBudget

/-! ## One failure -/

/-- The statuses of HTTP have three digits. -/
def IsStatus (status : Nat) : Prop := 100 ≤ status ∧ status < 1000

/-- The statuses of requests that would fail again. -/
def lastingStatuses : List Nat := [400, 404, 422]

/-- How the text of a failure begins that a status means. -/
def statusMark (status : Nat) : List Char := "HTTP ".toList ++ Nat.toDigits 10 status

/-- Among the characters of a body that a failure quotes is the mark of a lasting one. -/
def QuotesMark (body : String) : Prop :=
  ∃ status ∈ lastingStatuses, statusMark status <:+: body.toList.take 200

theorem length_toDigits_of_isStatus {status : Nat} (h : IsStatus status) :
    (Nat.toDigits 10 status).length = 3 := by
  have hmost : (Nat.toDigits 10 status).length ≤ 3 :=
    (Nat.length_toDigits_le_iff (by decide) (by decide)).mpr h.2
  have hleast : ¬ (Nat.toDigits 10 status).length ≤ 2 := fun hle =>
    absurd ((Nat.length_toDigits_le_iff (by decide) (by decide)).mp hle) (Nat.not_lt.mpr h.1)
  omega

theorem toDigits_inj {a b : Nat} (h : Nat.toDigits 10 a = Nat.toDigits 10 b) : a = b := by
  have hread : Nat.ofDigitChars 10 (Nat.toDigits 10 a) 0 =
      Nat.ofDigitChars 10 (Nat.toDigits 10 b) 0 := by rw [h]
  rwa [Nat.ofDigitChars_toDigits (by decide) (by decide),
    Nat.ofDigitChars_toDigits (by decide) (by decide)] at hread

/-- In the text of a failure the mark of a status opens it, or occurs in the quoted body. -/
theorem statusMark_infix_iff {status lasting : Nat} (hstatus : IsStatus status)
    (hlasting : IsStatus lasting) (body : String) :
    statusMark lasting <:+:
        ("HTTP " ++ Nat.repr status ++ ": " ++ Text.excerpt body 200).toList ↔
      status = lasting ∨ statusMark lasting <:+: body.toList.take 200 := by
  have hlen := length_toDigits_of_isStatus hstatus
  have hlen' := length_toDigits_of_isStatus hlasting
  have hplain : ∀ n, ∀ c ∈ Nat.toDigits 10 n, c.isDigit := fun n c hc =>
    Nat.isDigit_of_mem_toDigits (by decide) (by decide) hc
  have hopen : statusMark lasting <+: "HTTP ".toList ++
      (Nat.toDigits 10 status ++ (": ".toList ++ (Text.excerpt body 200).toList)) ↔
        status = lasting := by
    rw [statusMark, List.prefix_append_right_inj]
    constructor
    · intro h
      have hsame := List.prefix_of_prefix_length_le h (List.prefix_append _ _) (by omega)
      exact (toDigits_inj (hsame.eq_of_length (by omega))).symm
    · rintro rfl
      exact List.prefix_append _ _
  have hrest : statusMark lasting <:+: "TTP ".toList ++
      (Nat.toDigits 10 status ++ (": ".toList ++ (Text.excerpt body 200).toList)) ↔
        statusMark lasting <:+: body.toList.take 200 := by
    have hH : 'H' ∉ Nat.toDigits 10 status := fun hmem => absurd (hplain _ _ hmem) (by decide)
    have hellipsis : '…' ∉ statusMark lasting := by
      rw [statusMark, List.mem_append, not_or]
      exact ⟨by decide, fun hmem => absurd (hplain _ _ hmem) (by decide)⟩
    rw [← Text.infix_excerpt (by simp [statusMark]) hellipsis]
    change ('H' :: _) <:+: _ ↔ ('H' :: _) <:+: _
    rw [Text.infix_append_of_not_mem (by decide), Text.infix_append_of_not_mem hH,
      Text.infix_append_of_not_mem (by decide)]
  rw [String.toList_append, String.toList_append, String.toList_append, Nat.toList_repr,
    List.append_assoc, List.append_assoc]
  change _ <:+: 'H' :: ("TTP ".toList ++ _) ↔ _
  rw [List.infix_cons_iff, hrest]
  exact or_congr_left hopen

theorem isStatus_of_lasting {status : Nat} (h : status ∈ lastingStatuses) : IsStatus status := by
  simp only [lastingStatuses, List.mem_cons, List.not_mem_nil, or_false] at h
  rw [IsStatus]
  omega

/-- A failure without a kind of its own may pass unless its status or the body tells otherwise. -/
theorem isTransient_transport {status : Nat} (hstatus : IsStatus status) (body : String) :
    (ServiceError.transport ("HTTP " ++ Nat.repr status ++ ": " ++
        Text.excerpt body 200)).isTransient = true ↔
      status ∉ lastingStatuses ∧ ¬ QuotesMark body := by
  have hmarks : ["HTTP 400", "HTTP 404", "HTTP 422"].map String.toList =
      lastingStatuses.map statusMark := by decide
  have hall : ∀ detail : List Char,
      (["HTTP 400", "HTTP 404", "HTTP 422"].all fun s => !Text.occursIn s.toList detail) = true ↔
        ∀ lasting ∈ lastingStatuses, ¬ statusMark lasting <:+: detail := by
    intro detail
    have hmapped : (["HTTP 400", "HTTP 404", "HTTP 422"].all fun s =>
        !Text.occursIn s.toList detail) =
          (lastingStatuses.map statusMark).all fun mark => !Text.occursIn mark detail := by
      rw [← hmarks, List.all_map]
      rfl
    simp [hmapped, ← Text.occursIn_iff]
  rw [ServiceError.isTransient, hall, QuotesMark]
  constructor
  · intro h
    refine ⟨fun hmem => ?_, fun ⟨lasting, hmem, hquoted⟩ => ?_⟩
    · exact h status hmem ((statusMark_infix_iff hstatus hstatus body).mpr (.inl rfl))
    · exact h lasting hmem
        ((statusMark_infix_iff hstatus (isStatus_of_lasting hmem) body).mpr (.inr hquoted))
  · rintro ⟨hlasting, hplain⟩ lasting hmem hmark
    rcases (statusMark_infix_iff hstatus (isStatus_of_lasting hmem) body).mp hmark with rfl | hquoted
    · exact hlasting hmem
    · exact hplain ⟨lasting, hmem, hquoted⟩

/-- The statuses whose failures do not pass, whatever the reply says. -/
def finalStatuses : List Nat := 401 :: 403 :: lastingStatuses

/-- When a failure of a status may pass. -/
theorem isTransient_ofStatus {status : Nat} (hstatus : IsStatus status) (body : String) :
    (ServiceError.ofStatus status body).isTransient = true ↔
      status = 429 ∨ status ∉ finalStatuses ∧ ¬ QuotesMark body := by
  rw [ServiceError.ofStatus]
  split
  · rename_i hdenied
    rcases hdenied with rfl | rfl <;> simp [ServiceError.isTransient, finalStatuses]
  · rename_i hdenied
    split
    · rename_i hthrottled
      simp [ServiceError.isTransient, hthrottled]
    · rename_i hthrottled
      rw [isTransient_transport hstatus, finalStatuses, List.mem_cons, List.mem_cons]
      tauto

/-- The status tells whether its failure may pass, or both bodies quote a mark, or neither does. -/
def Alike (status : Nat) (first second : String) : Prop :=
  status = 429 ∨ status ∈ finalStatuses ∨ (QuotesMark first ↔ QuotesMark second)

theorem isTransient_eq_iff {status : Nat} (hstatus : IsStatus status) (first second : String) :
    (ServiceError.ofStatus status first).isTransient =
      (ServiceError.ofStatus status second).isTransient ↔ Alike status first second := by
  rw [Bool.eq_iff_iff, isTransient_ofStatus hstatus, isTransient_ofStatus hstatus, Alike]
  tauto

/-! ## A run of calls -/

/-- Whether a call failed and is worth another one. -/
def Pending.mayPass {α : Type} : Call α → Bool
  | .done _ (.error e) => e.isTransient
  | _ => false

/-- A step of a caller. -/
inductive RetryStep where
  | call
  | pause (span : Span)
  deriving DecidableEq

section Steps

variable {α : Type} {config : RetryConfig} {first second script : Nat → Call α} {left : Nat}
  {steps : List RetryStep}

/-- A service that gives to the calls, one after the other, the results of a script. The steps of
the caller are written down. -/
def scripted (script : Nat → Call α) : StateM (List RetryStep) (Call α) :=
  fun steps => (script (steps.count .call), steps ++ [.call])

/-- A pause that is written down. -/
def pausing (span : Span) : StateM (List RetryStep) Unit :=
  fun steps => ((), steps ++ [.pause span])

theorem run_scripted_bind {β : Type} (f : Call α → StateM (List RetryStep) β) :
    (scripted script >>= f).run steps =
      (f (script (steps.count .call))).run (steps ++ [.call]) := rfl

/-- The steps of a caller that retries, where the calls have the results of a script. -/
def retrySteps (config : RetryConfig) (script : Nat → Call α) : List RetryStep :=
  ((withRetries config pausing (scripted script)).run []).2

/-- One round of a caller with retries left: another one follows if the failure may pass. -/
theorem steps_retrying (attempt : Nat) :
    ((retrying config pausing (scripted script) attempt (left + 1)).run steps).2 =
      if (script (steps.count .call)).mayPass then
        match config.delay? attempt with
        | none => steps ++ [.call]
        | some delay => ((retrying config pausing (scripted script) (attempt + 1) left).run
            (steps ++ [.call] ++ [.pause delay])).2
      else steps ++ [.call] := by
  rw [retrying, run_scripted_bind]
  cases script (steps.count .call) with
  | never => rfl
  | done after result =>
    cases result with
    | ok value => rfl
    | error e =>
      cases hpass : e.isTransient with
      | false =>
        simp only [Pending.mayPass, hpass]
        rfl
      | true =>
        simp only [Pending.mayPass, hpass]
        cases config.delay? attempt <;> rfl

/-- What a caller does next depends only on which of its calls may be tried again. -/
theorem retrying_steps_congr (halike : ∀ i, (first i).mayPass = (second i).mayPass)
    (attempt : Nat) :
    ((retrying config pausing (scripted first) attempt left).run steps).2 =
      ((retrying config pausing (scripted second) attempt left).run steps).2 := by
  induction left generalizing attempt steps with
  | zero => rfl
  | succ left ih =>
    rw [steps_retrying, steps_retrying, halike]
    cases config.delay? attempt with
    | none => rfl
    | some delay => simp only [ih]

theorem retrySteps_congr (halike : ∀ i, (first i).mayPass = (second i).mayPass) :
    retrySteps config first = retrySteps config second :=
  retrying_steps_congr halike 0

end Steps

/-! ## Servers -/

/-- The results of the calls that ask a server, which gives to each after some time the exchange of
a script. What the body of a successful reply holds is read. -/
def resultsOf {α : Type} (read : String → Except ServiceError α)
    (server : Nat → Span × Exchange) : Nat → Call α :=
  fun i => .done (server i).1 ((server i).2.body.bind read)

/-- Exchanges that are the same, or replies of one status with the bodies of errors. -/
inductive SameStatus : Exchange → Exchange → Prop where
  | same (exchange : Exchange) : SameStatus exchange exchange
  | error {status : Nat} (hstatus : IsStatus status) (failed : ¬ (200 ≤ status ∧ status < 300))
    (first second : String) : SameStatus (.reply status first) (.reply status second)

/-- Exchanges that are the same, or replies of one status with bodies of errors that do not tell
their failures apart. -/
inductive Indifferent : Exchange → Exchange → Prop where
  | same (exchange : Exchange) : Indifferent exchange exchange
  | error {status : Nat} (hstatus : IsStatus status) (failed : ¬ (200 ≤ status ∧ status < 300))
    {first second : String} (alike : Alike status first second) :
    Indifferent (.reply status first) (.reply status second)

theorem Indifferent.mayPass_eq {α : Type} {read : String → Except ServiceError α}
    {first second : Nat → Span × Exchange} {i : Nat}
    (h : Indifferent (first i).2 (second i).2) :
    (resultsOf read first i).mayPass = (resultsOf read second i).mayPass := by
  rw [resultsOf, resultsOf]
  generalize (first i).2 = x at h
  generalize (second i).2 = y at h
  cases h with
  | same => cases x.body.bind read <;> rfl
  | @error status hstatus failed b₁ b₂ alike =>
    rw [Exchange.body, Exchange.body, if_neg failed, if_neg failed]
    exact (isTransient_eq_iff hstatus b₁ b₂).mpr alike

/-- Two failures of one status are of one kind unless a mark is quoted in one of them only and the
status leaves it open. A caller makes the same calls and pauses with two servers whose errors are
never told apart so. -/
theorem retries_alike_iff {status : Nat} (hstatus : IsStatus status) (first second : String) :
    ((ServiceError.ofStatus status first).isTransient =
        (ServiceError.ofStatus status second).isTransient ↔ Alike status first second) ∧
    ∀ {α : Type} (config : RetryConfig) (read : String → Except ServiceError α)
      (server other : Nat → Span × Exchange), (∀ i, Indifferent (server i).2 (other i).2) →
        retrySteps config (resultsOf read server) = retrySteps config (resultsOf read other) :=
  ⟨isTransient_eq_iff hstatus first second,
    fun _ _ _ _ halike => retrySteps_congr fun i => (halike i).mayPass_eq⟩

/-- A server that fails all requests with one reply. -/
def failing (status : Nat) (body : String) : Nat → Span × Exchange :=
  fun _ => (.zero, .reply status body)

/-- Settings that allow one retry. -/
def onceAgain : RetryConfig := { RetryConfig.standard with retries := 1 }

theorem retries_alike_iff_busy :
    IsStatus 503 ∧ (∀ i, Indifferent (failing 503 "busy" i).2 (failing 503 "down" i).2) ∧
      (ServiceError.ofStatus 503 "busy").isTransient =
        (ServiceError.ofStatus 503 "down").isTransient ∧
      retrySteps onceAgain (resultsOf Except.ok (failing 503 "busy")) =
        retrySteps onceAgain (resultsOf Except.ok (failing 503 "down")) := by
  have hplain : ∀ body ∈ ["busy", "down"], ¬ QuotesMark body := by
    intro body hbody ⟨status, hstatus, hmark⟩
    rw [← Text.occursIn_iff] at hmark
    revert body status
    decide
  have halike : Alike 503 "busy" "down" :=
    .inr (.inr (iff_of_false (hplain _ (by decide)) (hplain _ (by decide))))
  have hstatus : IsStatus 503 := by rw [IsStatus]; decide
  have hservers : ∀ i, Indifferent (failing 503 "busy" i).2 (failing 503 "down" i).2 := fun _ =>
    .error hstatus (by decide) halike
  obtain ⟨hkind, hsteps⟩ := retries_alike_iff hstatus "busy" "down"
  exact ⟨hstatus, hservers, hkind.mpr halike, hsteps onceAgain Except.ok _ _ hservers⟩

/-- A status alone does not decide: with the same statuses a caller makes two calls of one server
and one call of another server, which quotes a mark. -/
theorem not_decidedByStatus_quoted :
    (∀ i, SameStatus (failing 503 "busy" i).2 (failing 503 "upstream said HTTP 400" i).2) ∧
      (ServiceError.ofStatus 503 "busy").isTransient = true ∧
      (ServiceError.ofStatus 503 "upstream said HTTP 400").isTransient = false ∧
      (retrySteps onceAgain (resultsOf Except.ok (failing 503 "busy"))).count .call = 2 ∧
      (retrySteps onceAgain
        (resultsOf Except.ok (failing 503 "upstream said HTTP 400"))).count .call = 1 := by
  refine ⟨fun _ => .error ?_ (by decide) _ _, ?_⟩
  · rw [IsStatus]
    decide
  · decide +kernel

end ContextBudget
