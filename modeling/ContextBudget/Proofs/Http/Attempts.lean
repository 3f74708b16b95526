import ContextBudget.Http.Chat
import ContextBudget.Proofs.Http.Retry
import Mathlib.Data.ENat.Lattice

/-!
# The calls of a caller that retries

A caller that retries goes on until a call succeeds, a call fails for good, or the retries are used
up, whichever comes first, and pauses between two calls for the delay that the attempt before sets.

- `finalPlace`, `Rounds.of_min`: how many retries a script asks for.
- `run_retrying`: what a caller does with the retries that are left.
- `withRetries_attempts`: the calls, the pauses and the result of a caller.
- `chat_attempts`: a chat client sends one request as often.
-/

namespace ContextBudget

/-- How long a call takes that ends. -/
def Pending.time {α : Type} : Pending α → Span
  | .done after _ => after
  | .never => .zero

/-- The delay before a retry, where there is such a span. -/
def RetryConfig.delay (c : RetryConfig) (attempt : Nat) : Span := (c.delay? attempt).getD .zero

section Rounds

variable {α : Type} {config : RetryConfig} {script : Nat → Call α} {attempt n left most : Nat}
  {steps : List RetryStep}

/-! ## Scripts -/

/-- The least place in a script of a call that is not worth another one; there is none if all
are. -/
noncomputable def finalPlace (script : Nat → Call α) : ℕ∞ :=
  ⨅ i : {i : Nat // (script i).mayPass = false}, (i.val : ℕ∞)

theorem le_finalPlace_iff : (n : ℕ∞) ≤ finalPlace script ↔ ∀ i < n, (script i).mayPass = true := by
  rw [finalPlace, le_iInf_iff]
  constructor
  · intro h i hi
    by_contra hfinal
    have hle := h ⟨i, Bool.eq_false_iff.mpr hfinal⟩
    exact absurd (Nat.cast_le.mp hle) (Nat.not_le.mpr hi)
  · intro h i
    refine Nat.cast_le.mpr (Nat.not_lt.mp fun hi => ?_)
    exact Bool.false_ne_true (i.property.symm.trans (h i.val hi))

/-- From an attempt on, so many of `left` retries follow: each call before the last one may be tried
again, and the last one may not, unless no retries are left. -/
structure Rounds (script : Nat → Call α) (attempt left n : Nat) : Prop where
  allowed : n ≤ left
  again : ∀ i < n, (script (attempt + i)).mayPass = true
  final : n < left → (script (attempt + n)).mayPass = false

theorem Rounds.of_min (h : (n : ℕ∞) = min (finalPlace script) most) : Rounds script 0 most n where
  allowed := Nat.cast_le.mp (h.trans_le (min_le_right _ _))
  again i hi := by
    rw [Nat.zero_add]
    exact le_finalPlace_iff.mp (h.trans_le (min_le_left _ _)) i hi
  final hless := by
    rw [Nat.zero_add]
    by_contra hpass
    have hagain : ∀ i < n + 1, (script i).mayPass = true := by
      intro i hi
      rcases Nat.lt_succ_iff_lt_or_eq.mp hi with hi | rfl
      · exact le_finalPlace_iff.mp (h.trans_le (min_le_left _ _)) i hi
      · exact Bool.not_eq_false _ ▸ hpass
    have hmore : ((n + 1 : Nat) : ℕ∞) ≤ n :=
      (le_min (le_finalPlace_iff.mpr hagain) (Nat.cast_le.mpr hless)).trans_eq h.symm
    exact absurd (Nat.cast_le.mp hmore) (Nat.not_succ_le_self n)

/-- After a round, one retry fewer is left. -/
theorem Rounds.rest (h : Rounds script attempt (left + 1) (n + 1)) :
    Rounds script (attempt + 1) left n where
  allowed := Nat.le_of_succ_le_succ h.allowed
  again i hi := by
    rw [Nat.add_right_comm]
    exact h.again (i + 1) (Nat.succ_lt_succ hi)
  final hless := by
    rw [Nat.add_right_comm]
    exact h.final (Nat.succ_lt_succ hless)

/-! ## Rounds -/

/-- What a caller does in some rounds from an attempt on: a call, and then a pause and a call for
each retry. -/
def trail (config : RetryConfig) (attempt n : Nat) : List RetryStep :=
  .call :: (List.range n).flatMap fun i => [.pause (config.delay (attempt + i)), .call]

/-- The time that the calls before the last one and the pauses take. -/
def waited (config : RetryConfig) (script : Nat → Call α) (attempt n : Nat) : Span :=
  ⟨((List.range n).map fun i =>
    ((script (attempt + i)).time + config.delay (attempt + i)).nanos).sum⟩

theorem trail_succ : trail config attempt (n + 1) =
    [.call, .pause (config.delay attempt)] ++ trail config (attempt + 1) n := by
  rw [trail, List.range_succ_eq_map, List.flatMap_cons, List.flatMap_map, trail]
  simp only [Nat.add_zero, Nat.add_right_comm attempt 1, Nat.add_assoc]
  rfl

theorem waited_succ : waited config script attempt (n + 1) =
    (script attempt).time + config.delay attempt + waited config script (attempt + 1) n := by
  rw [waited, List.range_succ_eq_map, List.map_cons, List.map_map, List.sum_cons, waited]
  simp only [Function.comp_def, Nat.add_zero, Nat.succ_eq_add_one, Nat.add_right_comm attempt 1,
    ← Nat.add_assoc]
  rfl

theorem later_zero (result : Call α) : result.later .zero = result := by
  cases result with
  | never => rfl
  | done after value => exact congrArg (Pending.done · value) (congrArg Span.mk (Nat.zero_add _))

theorem later_later (result : Call α) (a b : Span) :
    (result.later b).later a = result.later (a + b) := by
  cases result with
  | never => rfl
  | done after value =>
    exact congrArg (Pending.done · value) (congrArg Span.mk (Nat.add_assoc _ _ _).symm)

/-- A call that is not worth another one is the last. -/
theorem run_retrying_final (h : (script (steps.count .call)).mayPass = false) :
    (retrying config pausing (scripted script) attempt left).run steps =
      (some (script (steps.count .call)), steps ++ [.call]) := by
  cases left with
  | zero => rfl
  | succ left =>
    rw [retrying, run_scripted_bind]
    cases hcall : script (steps.count .call) with
    | never => rfl
    | done after result =>
      cases result with
      | ok value => rfl
      | error e =>
        rw [hcall] at h
        have hlasting : e.isTransient = false := h
        simp only [hlasting]
        rfl

/-- After a call that may be tried again, there are a pause and the next round. -/
theorem run_retrying_again (h : (script (steps.count .call)).mayPass = true)
    (hspan : (config.delay? attempt).isSome) :
    (retrying config pausing (scripted script) attempt (left + 1)).run steps =
      let next := (retrying config pausing (scripted script) (attempt + 1) left).run
        (steps ++ [.call, .pause (config.delay attempt)])
      (next.1.map (·.later ((script (steps.count .call)).time + config.delay attempt)),
        next.2) := by
  obtain ⟨delay, hdelay⟩ := Option.isSome_iff_exists.mp hspan
  rw [RetryConfig.delay, hdelay, Option.getD_some, retrying, run_scripted_bind]
  cases hcall : script (steps.count .call) with
  | never =>
    rw [hcall] at h
    cases h
  | done after result =>
    cases result with
    | ok value =>
      rw [hcall] at h
      cases h
    | error e =>
      rw [hcall] at h
      have hpasses : e.isTransient = true := h
      simp only [hpasses, hdelay]
      rw [List.append_cons steps .call [.pause delay]]
      rfl

/-- What a caller does with the retries that are left. -/
theorem run_retrying (hrounds : Rounds script attempt left n)
    (hspans : ∀ i < n, (config.delay? (attempt + i)).isSome)
    (hcalls : steps.count .call = attempt) :
    (retrying config pausing (scripted script) attempt left).run steps =
      (some ((script (attempt + n)).later (waited config script attempt n)),
        steps ++ trail config attempt n) := by
  induction n generalizing attempt left steps with
  | zero =>
    have hlast : (retrying config pausing (scripted script) attempt left).run steps =
        (some (script (steps.count .call)), steps ++ [.call]) := by
      cases left with
      | zero => rfl
      | succ left => exact run_retrying_final (hcalls ▸ hrounds.final (Nat.succ_pos left))
    rw [hlast, hcalls]
    exact congrArg (fun result => (some result, _)) (later_zero _).symm
  | succ n ih =>
    have hleft : 0 < left := Nat.lt_of_lt_of_le (Nat.succ_pos n) hrounds.allowed
    obtain ⟨left, rfl⟩ := Nat.exists_eq_succ_of_ne_zero (Nat.ne_of_gt hleft)
    have hagain : (script (steps.count .call)).mayPass = true :=
      hcalls ▸ hrounds.again 0 (Nat.succ_pos n)
    have hcount : (steps ++ [RetryStep.call, .pause (config.delay attempt)]).count .call =
        attempt + 1 := by
      simp [hcalls]
    have hlater : ∀ i < n, (config.delay? (attempt + 1 + i)).isSome := fun i hi => by
      rw [Nat.add_right_comm]
      exact hspans (i + 1) (Nat.succ_lt_succ hi)
    have hnext := ih hrounds.rest hlater hcount
    have hspan : (config.delay? attempt).isSome := hspans 0 (Nat.succ_pos n)
    rw [run_retrying_again hagain hspan, hnext, hcalls, trail_succ, waited_succ,
      Nat.add_right_comm]
    simp only [Option.map_some, later_later, List.append_assoc]
    rfl

/-! ## Runs -/

/-- The span of a pause. -/
def RetryStep.span? : RetryStep → Option Span
  | .call => none
  | .pause span => some span

/-- What a caller does that retries so often: its calls, the pauses between them, and the result of
the last call, which is late by the time that all of this took. -/
structure Attempts (config : RetryConfig) (script : Nat → Call α) (n : Nat)
    (result : Option (Call α)) (steps : List RetryStep) : Prop where
  calls : steps.count .call = n + 1
  pauses : (steps.filterMap RetryStep.span?).map some = (List.range n).map config.delay?
  between : steps = trail config 0 n
  last : result = some ((script n).later (waited config script 0 n))

theorem count_call_trail : (trail config attempt n).count .call = n + 1 := by
  induction n generalizing attempt with
  | zero => rfl
  | succ n ih =>
    rw [trail_succ, List.count_append, ih]
    exact Nat.add_comm 1 (n + 1)

theorem pauses_trail (hspans : ∀ i < n, (config.delay? (attempt + i)).isSome) :
    ((trail config attempt n).filterMap RetryStep.span?).map some =
      (List.range n).map fun i => config.delay? (attempt + i) := by
  have hpauses : (trail config attempt n).filterMap RetryStep.span? =
      (List.range n).map fun i => config.delay (attempt + i) := by
    induction n generalizing attempt with
    | zero => rfl
    | succ n ih =>
      have hlater : ∀ i < n, (config.delay? (attempt + 1 + i)).isSome := fun i hi => by
        rw [Nat.add_right_comm]
        exact hspans (i + 1) (Nat.succ_lt_succ hi)
      rw [trail_succ, List.filterMap_append, ih hlater, List.range_succ_eq_map, List.map_cons,
        List.map_map]
      simp only [Function.comp_def, Nat.succ_eq_add_one, Nat.add_right_comm attempt 1,
        ← Nat.add_assoc]
      rfl
  rw [hpauses, List.map_map]
  refine List.map_congr_left fun i hi => ?_
  obtain ⟨delay, hdelay⟩ := Option.isSome_iff_exists.mp (hspans i (List.mem_range.mp hi))
  simp [RetryConfig.delay, hdelay]

/-- A caller retries as often as calls come before the first final one and retries are allowed. -/
theorem Attempts.of_min (h : (n : ℕ∞) = min (finalPlace script) config.retries)
    (hspans : ∀ i < n, (config.delay? i).isSome) :
    Attempts config script n ((withRetries config pausing (scripted script)).run []).1
      ((withRetries config pausing (scripted script)).run []).2 := by
  have hdelays : ∀ i < n, (config.delay? (0 + i)).isSome := fun i hi => by
    rw [Nat.zero_add]
    exact hspans i hi
  have hnone : ([] : List RetryStep).count .call = 0 := rfl
  have hran := run_retrying (Rounds.of_min h) hdelays hnone
  have hpauses := pauses_trail hdelays
  simp only [Nat.zero_add] at hpauses
  rw [Nat.zero_add, List.nil_append] at hran
  rw [withRetries, hran]
  exact ⟨count_call_trail, hpauses, rfl, rfl⟩

/-- There are only so many retries as are allowed. -/
theorem exists_retries (config : RetryConfig) (script : Nat → Call α) :
    ∃ n : Nat, (n : ℕ∞) = min (finalPlace script) config.retries :=
  ENat.ne_top_iff_exists.mp
    (ne_top_of_le_ne_top (ENat.natCast_ne_top config.retries) (min_le_right _ _))

/-- Whatever the results of the calls are, a caller goes on until one of them is final or no more
retries are allowed. It pauses for the delays of the attempts, one after the other, and gives the
result of its last call. -/
theorem withRetries_attempts (config : RetryConfig) (script : Nat → Call α)
    (hspans : ∀ i : Nat, (i : ℕ∞) < min (finalPlace script) config.retries →
      (config.delay? i).isSome) :
    ∃ n : Nat, (n : ℕ∞) = min (finalPlace script) config.retries ∧
      Attempts config script n ((withRetries config pausing (scripted script)).run []).1
        ((withRetries config pausing (scripted script)).run []).2 := by
  obtain ⟨n, hn⟩ := exists_retries config script
  exact ⟨n, hn, .of_min hn fun i hi => hspans i (hn ▸ Nat.cast_lt.mpr hi)⟩

end Rounds

/-- A service that is overloaded, then overloaded again, and then sends nonsense. -/
def faltering : Nat → Call Unit
  | 0 => .failure (.throttled "slow down")
  | 1 => .done (.millis 20) (.error (.throttled "slow down"))
  | _ => .failure (.malformed "nonsense")

/-- Settings that allow three retries. -/
def threeTimes : RetryConfig := { RetryConfig.standard with retries := 3 }

/-- Two of three retries are made, and the nonsense is given back. -/
theorem withRetries_attempts_faltering :
    (∀ i : Nat, (i : ℕ∞) < min (finalPlace faltering) threeTimes.retries →
      (threeTimes.delay? i).isSome) ∧
    ((2 : Nat) : ℕ∞) = min (finalPlace faltering) threeTimes.retries ∧
    (withRetries threeTimes pausing (scripted faltering)).run [] =
      (some (.done (.millis 1295) (.error (.malformed "nonsense"))),
        [.call, .pause (.millis 375), .call, .pause (.millis 900), .call]) := by
  have hspans : ∀ i : Nat, (i : ℕ∞) < min (finalPlace faltering) threeTimes.retries →
      (threeTimes.delay? i).isSome := by
    intro i hi
    have hallowed : i < 3 := Nat.cast_lt.mp (hi.trans_le (min_le_right _ _))
    have hall : ∀ i < 3, (threeTimes.delay? i).isSome := by decide +kernel
    exact hall i hallowed
  obtain ⟨n, hn, hattempts⟩ := withRetries_attempts threeTimes faltering hspans
  have hsteps : ((withRetries threeTimes pausing (scripted faltering)).run []).2 =
      [.call, .pause (.millis 375), .call, .pause (.millis 900), .call] := by decide +kernel
  obtain rfl : n = 2 := by
    have hcalls := hattempts.calls
    rw [hsteps] at hcalls
    exact (Nat.succ.inj hcalls).symm
  have hwaited : waited threeTimes faltering 0 2 = .millis 1295 := by decide +kernel
  have hresult := hattempts.last
  rw [hwaited] at hresult
  exact ⟨hspans, hn, Prod.ext hresult hsteps⟩

/-! ## Chats -/

/-- A server whose replies come from a script. The requests are written down. -/
def replying (server : Nat → Pending Exchange) : Transport (List RetryStep) :=
  fun _ steps => (server (steps.count .call), steps ++ [.call])

/-- A chat client sends its request as often as a caller calls that gets the answers that the
replies of the server hold. -/
theorem ChatClient.chat_attempts (c : ChatClient) (server : Nat → Pending Exchange)
    (request : ChatRequest)
    (hspans : ∀ i < c.retry.retries, (c.retry.delay? i).isSome) :
    ∃ n : Nat, (n : ℕ∞) = min (finalPlace fun i => (server i).map answerOf) c.retry.retries ∧
      Attempts c.retry (fun i => (server i).map answerOf) n
        ((c.chat (replying server) pausing request).run []).1
        ((c.chat (replying server) pausing request).run []).2 := by
  obtain ⟨n, hn⟩ := exists_retries c.retry fun i => (server i).map answerOf
  have hallowed : n ≤ c.retry.retries := Nat.cast_le.mp (hn.trans_le (min_le_right _ _))
  exact ⟨n, hn, .of_min hn fun i hi => hspans i (Nat.lt_of_lt_of_le hi hallowed)⟩

end ContextBudget
