import ContextBudget.Proofs.Telemetry.Alike
import ContextBudget.Proofs.Telemetry.Conservation

/-!
# One session without the others

What is published to other sessions and done to other subscribers can be left out of a history: a
subscriber is told the same.

- `observations`: all that a subscriber is told along a history.
- `Alike.apply`, `apply_unseen`: what concerns a subscriber is seen alike in hubs that look alike to
  it, and the rest is not seen.
- `observations_filter`: a history and what of it concerns the subscriber tell it the same.
- `sessions_apart`: so does a hub of its own.
-/

namespace ContextBudget
namespace Hub

variable {h h' : Hub} {id id' : String} {s : Subscriber}

/-! ## Histories -/

/-- What an operation tells the subscriber that it is on. -/
inductive Told where
  | received (r : Received)
  | reconnected (connection : Option Subscription)
  | disconnected (ended : Bool)
  | switched (known : Bool)
  | replied (reply : Option Envelope)
  | unsubscribed (known : Bool)
  | nothing
  deriving Repr

/-- What an operation tells the subscriber that it is on. -/
def told (h : Hub) : Op → Told
  | .receive id generation => .received (h.receive id generation).1
  | .reconnect id => .reconnected (h.reconnect id).1
  | .disconnect id generation => .disconnected (h.disconnect id generation).1
  | .switchSession id session => .switched (h.switchSession id session).1
  | .control id text time => .replied (h.control id text time).1
  | .unsubscribe id => .unsubscribed (h.unsubscribe id).1
  | _ => .nothing

/-- All that a subscriber is told along a history. -/
def observations (h : Hub) (id : String) : List Op → List Told
  | [] => []
  | op :: rest =>
    (if op.subject? = some id then [h.told op] else []) ++ (h.apply op).observations id rest

/-- Whether an operation concerns a subscriber of a session: one on another subscriber does not, nor
does a publication to another session. -/
def Op.concerns (id session : String) : Op → Bool
  | .subscribe _ => false
  | .publish e => e.session == session
  | op => op.subject?.all (· == id)

theorem Op.concerns_of_subject? {op : Op} {session : String} (hop : op.subject? = some id') :
    op.concerns id session = (id' == id) := by
  cases op <;> cases hop <;> rfl

/-- Whether a subscriber watches one session all along a history, as long as it is there. -/
def watches (h : Hub) (id session : String) : List Op → Bool
  | [] => (h.sessionOf id).all (· == session)
  | op :: rest => (h.sessionOf id).all (· == session) && (h.apply op).watches id session rest

variable {first first' : Nat} {session : String}

theorem session_of_watches {ops : List Op} (hwatch : h.watches id session ops = true)
    (hs : h.find? id = some s) : s.session = session := by
  have hnow : (h.sessionOf id).all (· == session) = true := by
    cases ops with
    | nil => exact hwatch
    | cons op rest => exact ((Bool.and_eq_true _ _).mp hwatch).1
  simpa [sessionOf, hs] using hnow

/-- An operation on a subscriber tells it the same in hubs that look alike to it. -/
theorem Alike.told {op : Op} (halike : Alike id h h') (hop : op.subject? = some id) :
    h'.told op = h.told op ∧ Alike id (h.apply op) (h'.apply op) := by
  cases op with
  | receive id generation =>
    cases hop
    obtain ⟨hsame, hafter⟩ := halike.receive generation
    exact ⟨congrArg Told.received hsame, hafter⟩
  | release id generation =>
    cases hop
    exact ⟨rfl, halike.updateChannel fun _ => ⟨rfl, rfl⟩⟩
  | disconnect id generation =>
    cases hop
    obtain ⟨hsame, hafter⟩ := halike.disconnect generation
    exact ⟨congrArg Told.disconnected hsame, hafter⟩
  | reconnect id =>
    cases hop
    obtain ⟨hsame, hafter⟩ := halike.reconnect
    exact ⟨congrArg Told.reconnected hsame, hafter⟩
  | switchSession id session =>
    cases hop
    obtain ⟨hsame, hafter⟩ := halike.switchSession session
    exact ⟨congrArg Told.switched hsame, hafter⟩
  | control id text time =>
    cases hop
    obtain ⟨hsame, hafter⟩ := halike.control text time
    exact ⟨congrArg Told.replied hsame, hafter⟩
  | unsubscribe id =>
    cases hop
    obtain ⟨hsame, hafter⟩ := halike.unsubscribe
    exact ⟨congrArg Told.unsubscribed hsame, hafter⟩
  | _ => cases hop

/-- An operation that concerns a subscriber is seen alike in hubs that look alike to it. -/
theorem Alike.apply {op : Op} (halike : Alike id h h') (hsound : Sound first h)
    (hsound' : Sound first' h') (hop : op.concerns id session = true) :
    Alike id (h.apply op) (h'.apply op) := by
  cases hsubject : op.subject? with
  | some id' =>
    obtain rfl : id' = id := by simpa [Op.concerns_of_subject? hsubject] using hop
    exact (halike.told hsubject).2
  | none =>
    cases op with
    | publish e => exact halike.publish hsound hsound' e
    | reap idle => exact halike.reap hsound hsound' idle
    | wait span =>
      have hpassed := congrArg (fun p => (p.1, p.2 + span)) halike.setting
      exact ⟨halike.found, halike.channels, hpassed⟩
    | subscribe => cases hop
    | _ => cases hsubject

/-- An operation that does not concern a subscriber is not seen by it. -/
theorem apply_unseen {op : Op} (hsound : Sound first h) (hissued : Issued "sub_" first h.next id)
    (hids : op.isSubscribe = true → h.next < first + idCount)
    (hwatch : ∀ s, h.find? id = some s → s.session = session)
    (hop : op.concerns id session = false) : Alike id h (h.apply op) := by
  cases hsubject : op.subject? with
  | some id' =>
    have hid : id' ≠ id := by simpa [Op.concerns_of_subject? hsubject] using hop
    exact apply_alike hsubject hid.symm
  | none =>
    cases op with
    | subscribe session => exact subscribe_alike (hissued.ne (hids rfl)) session
    | publish e =>
      refine publish_unseen hsound fun s hs heq => ?_
      rw [Op.concerns, ← heq, hwatch s hs, beq_self_eq_true] at hop
      cases hop
    | reap => cases hop
    | wait => cases hop
    | _ => cases hsubject

/-- Along a history, a subscriber is told the same if all that does not concern it is left out. -/
theorem observations_filter {ops : List Op} (hready : Ready first h ops)
    (hready' : Ready first' h' (ops.filter (Op.concerns id session)))
    (hissued : Issued "sub_" first h.next id) (halike : Alike id h h')
    (hwatch : h.watches id session ops = true) :
    h'.observations id (ops.filter (Op.concerns id session)) = h.observations id ops := by
  induction ops generalizing h h' with
  | nil => rfl
  | cons op rest ih =>
    have hwatchNow := fun s => session_of_watches (s := s) hwatch
    have hwatchLater := ((Bool.and_eq_true _ _).mp hwatch).2
    have hissuedLater : Issued "sub_" first (h.apply op).next id := issued_apply hissued
    cases hop : op.concerns id session with
    | true =>
      rw [List.filter_cons_of_pos hop] at hready' ⊢
      have hlater := halike.apply hready.sound hready'.sound hop
      rw [observations, observations, ih hready.step hready'.step hissuedLater hlater hwatchLater]
      split
      · rename_i hsubject
        rw [(halike.told hsubject).1]
      · rfl
    | false =>
      have hother : op.subject? ≠ some id := fun hsubject => by
        simp [Op.concerns_of_subject? hsubject] at hop
      rw [List.filter_cons_of_neg (by simp [hop])] at hready' ⊢
      have hunseen := apply_unseen hready.sound hissued hready.lt_of_isSubscribe hwatchNow hop
      rw [observations, if_neg hother, List.nil_append]
      exact ih hready.step hready' hissuedLater (hunseen.symm.trans halike) hwatchLater

/-! ## Two hubs -/

theorem next_run (h : Hub) (ops : List Op) :
    (h.run ops).next = h.next + ops.countP Op.isSubscribe := by
  induction ops generalizing h with
  | nil => rfl
  | cons op rest ih =>
    rw [run_cons, ih, next_apply, List.countP_cons]
    omega

theorem countP_filter_concerns (ops : List Op) :
    (ops.filter (Op.concerns id session)).countP Op.isSubscribe = 0 := by
  refine List.countP_eq_zero.mpr fun op hop => ?_
  have hconcerns := (List.mem_filter.mp hop).2
  cases op with
  | subscribe => cases hconcerns
  | _ => exact Bool.false_ne_true

/-- What is left out of a history takes no time. -/
theorem setting_run_filter (hsetting : h'.setting = h.setting) (ops : List Op) :
    (h'.run (ops.filter (Op.concerns id session))).setting = (h.run ops).setting := by
  induction ops generalizing h h' with
  | nil => exact hsetting
  | cons op rest ih =>
    have happly : (h.apply op).setting = (h.setting.1, op.timeAfter h.setting.2) :=
      setting_apply h op
    cases hop : op.concerns id session with
    | true =>
      rw [List.filter_cons_of_pos hop, run_cons, run_cons]
      refine ih ?_
      rw [happly, ← hsetting]
      exact setting_apply h' op
    | false =>
      rw [List.filter_cons_of_neg (by simp [hop]), run_cons]
      refine ih ?_
      rw [happly, hsetting]
      cases op with
      | wait => cases hop
      | _ => rfl

/-- A new subscriber has one channel, which is empty. -/
theorem channel?_subscribed (hsound : Sound first h) (hnext : h.next < first + idCount)
    (session : String) (generation : Nat) :
    (h.subscribe session).2.channel? (subscriberId h.next) generation =
      [⟨subscriberId h.next, 0, [], true⟩].find? fun c =>
        c.subscriber == subscriberId h.next && c.generation == generation := by
  have hnone : h.channel? (subscriberId h.next) generation = none :=
    List.find?_eq_none.mpr fun c hc => by
      have hne := (hsound.channels c hc).ne hnext
      simp [subscriberId, hne]
  simp only [channel?, subscribe, List.find?_append] at hnone ⊢
  rw [hnone, Option.none_or]

/-- A new subscriber finds the same in hubs that give it the same id. -/
theorem alike_subscribe (hsound : Sound first h) (hnext : h.next < first + idCount)
    (hsound' : Sound first' h') (hnext' : h'.next < first' + idCount) (hsame : h'.next = h.next)
    (hsetting : h'.setting = h.setting) (session : String) :
    Alike (subscriberId h.next) (h.subscribe session).2 (h'.subscribe session).2 := by
  refine ⟨?_, fun generation => ?_, hsetting⟩
  · have hfound := (subscribed hsound' hnext' session).1
    rw [hsame] at hfound
    rw [hfound, (subscribed hsound hnext session).1]
  · have hfound := channel?_subscribed hsound' hnext' session generation
    rw [hsame] at hfound
    rw [hfound, channel?_subscribed hsound hnext]

/-- A subscriber that watches one session all along is told the same in a hub of its own, which is
only asked what concerns it: publications to other sessions and operations on other subscribers make
no difference. The hub of its own gives out the same id. -/
theorem sessions_apart (config : HubConfig) (next : Nat) {before after : List Op} {session : String}
    {sub : Subscription} {h : Hub}
    (hids : (before ++ .subscribe session :: after).countP Op.isSubscribe ≤ idCount)
    (hsub : ((Hub.empty config next).run before).subscribe session = (sub, h))
    (hwatch : h.watches sub.id session after = true) :
    ∃ alone, ((Hub.empty config (next + before.countP Op.isSubscribe)).run
        (before.filter (Op.concerns sub.id session))).subscribe session = (sub, alone) ∧
      alone.observations sub.id (after.filter (Op.concerns sub.id session)) =
        h.observations sub.id after := by
  obtain ⟨rfl, rfl⟩ : sub = (((Hub.empty config next).run before).subscribe session).1 ∧
      h = (((Hub.empty config next).run before).subscribe session).2 := by simp [hsub]
  have hready := (Ready.empty config next hids).run
  generalize hwhole : (Hub.empty config next).run before = whole at hready hwatch ⊢
  have hnext : whole.next = next + before.countP Op.isSubscribe := by
    rw [← hwhole, next_run]
    rfl
  -- The hub of its own gives out one id, the one that the subscriber has.
  have hone : (before.filter (Op.concerns (whole.subscribe session).1.id session) ++
      .subscribe session :: after.filter (Op.concerns (whole.subscribe session).1.id
        session)).countP Op.isSubscribe ≤ idCount := by
    rw [List.countP_append, List.countP_cons, countP_filter_concerns, countP_filter_concerns]
    exact Nat.pow_pos (by decide)
  have hready' := (Ready.empty config (next + before.countP Op.isSubscribe) hone).run
  have hsetting := @setting_run_filter (Hub.empty config next)
    (Hub.empty config (next + before.countP Op.isSubscribe)) (whole.subscribe session).1.id session
    rfl before
  rw [hwhole] at hsetting
  generalize hown : (Hub.empty config (next + before.countP Op.isSubscribe)).run
    (before.filter (Op.concerns (whole.subscribe session).1.id session)) = own at hready' hsetting ⊢
  have hsame : own.next = whole.next := by
    rw [hnext, ← hown, next_run, countP_filter_concerns]
    rfl
  have halike := alike_subscribe hready.sound (hready.lt_of_isSubscribe rfl) hready'.sound
    (hready'.lt_of_isSubscribe rfl) hsame hsetting session
  refine ⟨(own.subscribe session).2, ?_, ?_⟩
  · rw [subscribe, subscribe, hsame]
  · exact observations_filter hready.step hready'.step (.last hready.started) halike hwatch

/-- An observer of session `b` came first. It reads, leaves, comes back, switches and is forgotten
between what the observer of session `a` does. -/
def mixed : List Op :=
  [.publish (numbered "a" 1), .publish (numbered "b" 2), .receive (subscriberId 1) 0,
    .receive (subscriberId 0) 0, .disconnect (subscriberId 1) 0, .disconnect (subscriberId 0) 0,
    .publish (numbered "b" 3), .publish (numbered "a" 4), .publish (numbered "a" 5),
    .switchSession (subscriberId 0) "a", .subscribe "b", .publish (numbered "a" 6),
    .reconnect (subscriberId 1), .receive (subscriberId 1) 1, .unsubscribe (subscriberId 0),
    .receive (subscriberId 1) 1]

theorem sessions_apart_mixed :
    (Op.subscribe "b" :: .subscribe "a" :: mixed).countP Op.isSubscribe ≤ idCount ∧
      ∃ h, ((Hub.empty ⟨1, 1⟩ 0).run [.subscribe "b"]).subscribe "a" =
          (⟨subscriberId 1, "a", 0, 0⟩, h) ∧
        h.watches (subscriberId 1) "a" mixed = true ∧
        ∃ alone, ((Hub.empty ⟨1, 1⟩ 1).run []).subscribe "a" =
            (⟨subscriberId 1, "a", 0, 0⟩, alone) ∧
          alone.observations (subscriberId 1) (mixed.filter (Op.concerns (subscriberId 1) "a")) =
            h.observations (subscriberId 1) mixed := by
  have hids : (Op.subscribe "b" :: .subscribe "a" :: mixed).countP Op.isSubscribe ≤ idCount := by
    decide +kernel
  have hwatch : (((Hub.empty ⟨1, 1⟩ 0).run [.subscribe "b"]).subscribe "a").2.watches
      (subscriberId 1) "a" mixed = true := by
    decide +kernel
  exact ⟨hids, _, rfl, hwatch,
    @sessions_apart ⟨1, 1⟩ 0 [.subscribe "b"] mixed "a" _ _ hids rfl hwatch⟩

end Hub
end ContextBudget
