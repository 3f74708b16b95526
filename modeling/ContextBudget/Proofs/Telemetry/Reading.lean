import ContextBudget.Proofs.Telemetry.Orderly
import ContextBudget.Proofs.Telemetry.Replay

/-!
# Reading

Every read of a connection first moves what waits into its channel. So nothing is stranded in a
backlog while its observer reads, and an observer whose connection was replaced cannot take it.

- `Attached`: every subscriber has a channel of its generation; `run_attached`: it has one after
  every history.
- `waiting_of_pending`: a read that has to wait leaves nothing behind it.
- `Replaced`: a connection that is not, or no longer, that of its subscriber; `Replaced.run`: it
  stays so.
- `readAll_replaced`: what can be read of such a connection is what its channel holds.
- `reads_drain`: after every history, an observer reads all that is there without waiting.
-/

namespace ContextBudget
namespace Hub

variable {first : Nat} {h h' : Hub} {id : String} {generation : Nat}

/-! ## Channels of subscribers -/

/-- Every subscriber has a channel of its generation. -/
def Attached (h : Hub) : Prop :=
  ∀ s ∈ h.subscribers, (s.id, s.generation) ∈ h.channels.map key

namespace Attached

theorem channel? {s : Subscriber} (ha : Attached h) (hs : s ∈ h.subscribers) :
    ∃ c, h.channel? s.id s.generation = some c := by
  obtain ⟨c, hc, hkey⟩ := List.mem_map.mp (ha s hs)
  cases hfound : h.channel? s.id s.generation with
  | some d => exact ⟨d, rfl⟩
  | none =>
    refine absurd ?_ (List.find?_eq_none.mp hfound c hc)
    simpa [key] using hkey

theorem of_sameSeats (ha : Attached h) (hsame : SameSeats h h') : Attached h' := by
  intro t ht
  have hseat : seat t ∈ h.subscribers.map seat := hsame.subscribers ▸ List.mem_map_of_mem ht
  obtain ⟨s, hs, heq⟩ := List.mem_map.mp hseat
  rw [hsame.channels, ← show s.id = t.id from congrArg (·.1) heq,
    ← show s.generation = t.generation from congrArg (·.2.2) heq]
  exact ha s hs

theorem subscribe (ha : Attached h) (session : String) : Attached (h.subscribe session).2 := by
  intro s hs
  simp only [Hub.subscribe, List.map_append] at hs ⊢
  rcases List.mem_append.mp hs with hs | hs
  · exact List.mem_append_left _ (ha s hs)
  · rw [List.mem_singleton.mp hs]
    exact List.mem_append_right _ (by simp [key])

theorem rejoin (ha : Attached h) (s : Subscriber) : Attached (h.rejoin s) := by
  intro t ht
  obtain ⟨u, hu, rfl⟩ := List.mem_map.mp ht
  simp only [Hub.rejoin, List.map_append]
  split
  · rename_i hid
    exact List.mem_append_right _ (by simp [key, hid])
  · exact List.mem_append_left _ (ha u hu)

theorem switchSession (ha : Attached h) (id session : String) :
    Attached (h.switchSession id session).2 := by
  intro t ht
  obtain ⟨s, hs, rfl⟩ := List.mem_map.mp ht
  have hkept := ha s hs
  split <;> exact hkept

end Attached

theorem apply_attached (ha : Attached h) (op : Op) : Attached (h.apply op) := by
  have hcases := seated_cases h op
  generalize h.apply op = h' at hcases
  cases hcases with
  | same _ _ sames => exact ha.of_sameSeats sames
  | joined session => exact ha.subscribe session
  | rejoined s => exact (ha.rejoin s).of_sameSeats .flush
  | switched _ id session => exact ha.switchSession id session
  | left => exact fun s hs => ha s (List.mem_filter.mp hs).1

theorem run_attached (ha : Attached h) (ops : List Op) : Attached (h.run ops) := by
  induction ops generalizing h with
  | nil => exact ha
  | cons op rest ih => exact ih (apply_attached ha op)

/-! ## Reads that wait -/

/-- A read waits only where the channel is empty and more can come into it. -/
theorem take_eq_pending (hread : h.take id generation = (.pending, h')) :
    h' = h ∧ h.isOpen id generation = true ∧
      ∃ c, h.channel? id generation = some c ∧ c.queue = [] := by
  unfold take at hread
  cases hc : h.channel? id generation with
  | none => simp [hc] at hread
  | some c =>
    cases hq : c.queue with
    | nil =>
      simp only [hc, hq, Prod.mk.injEq] at hread
      obtain ⟨hpending, rfl⟩ := hread
      exact ⟨rfl, by simpa using hpending, c, rfl, hq⟩
    | cons e rest => simp [hc, hq] at hread

/-- Where a read has to wait, nothing waits in the backlog. -/
theorem waiting_of_pending (hread : h.receive id generation = (.pending, h')) :
    h'.waiting id = [] := by
  rw [receive] at hread
  obtain ⟨rfl, hopen, c, hc, hempty⟩ := take_eq_pending hread
  obtain ⟨t, ht, connected, hgeneration⟩ := isOpen_eq_true.mp hopen
  rw [waiting_eq ht]
  have hcases := refill_cases h id generation
  generalize h.refill id generation = h' at hcases hc ht
  cases hcases with
  | same old => exact absurd hgeneration (old t ht)
  | flushed s known current =>
    obtain rfl := id_of_find? known
    subst current
    exact waiting_flush known ht connected hc hempty

/-! ## Replaced connections -/

/-- A connection is not, or no longer, that of its subscriber: a later one took its place, or the
subscriber is gone. -/
def Replaced (h : Hub) (id : String) (generation : Nat) : Prop :=
  ∀ s, h.find? id = some s → generation < s.generation

namespace Replaced

theorem refill (hr : h.Replaced id generation) : h.refill id generation = h := by
  have hcases := refill_cases h id generation
  generalize h.refill id generation = h' at hcases
  cases hcases with
  | same => rfl
  | flushed s known current => exact absurd current (Nat.ne_of_gt (hr s known))

theorem isOpen (hr : h.Replaced id generation) : h.isOpen id generation = false := by
  rw [← Bool.not_eq_true, isOpen_eq_true]
  rintro ⟨s, hs, -, hgeneration⟩
  exact absurd hgeneration (Nat.ne_of_gt (hr s hs))

/-- No operation makes a connection that was replaced the current one again. -/
theorem apply (hr : h.Replaced id generation) (hissued : Issued "sub_" first h.next id)
    (hsound : Sound first h) {op : Op} (hids : op.isSubscribe = true → h.next < first + idCount) :
    (h.apply op).Replaced id generation := by
  intro t ht
  rcases found_before hsound ht with ⟨s, hs, hgeneration⟩ | ⟨hop, hnew, -⟩
  · have hlater := hr s hs
    omega
  · exact absurd hnew (hissued.ne (hids hop))

theorem run {ops : List Op} (hr : h.Replaced id generation)
    (hissued : Issued "sub_" first h.next id) (hready : Ready first h ops) :
    (h.run ops).Replaced id generation := by
  induction ops generalizing h with
  | nil => exact hr
  | cons op rest ih =>
    have hkept := hr.apply hissued hready.sound hready.lt_of_isSubscribe
    exact ih hkept (issued_apply hissued) hready.step

end Replaced

/-- Coming back replaces all connections of a subscriber. -/
theorem reconnect_replaced {s : Subscriber} (hsound : Sound first h) (hs : h.find? id = some s)
    (hle : generation ≤ s.generation) : (h.apply (.reconnect id)).Replaced id generation := by
  intro t ht
  have hback : h.bringsBack id (.reconnect id) = true := by simp [bringsBack, reconnect, hs]
  rcases found_before hsound ht with ⟨u, hu, hgeneration⟩ | ⟨hop, -⟩
  · obtain rfl : s = u := Option.some.inj (hs.symm.trans hu)
    rw [hgeneration, hback]
    exact Nat.lt_succ_of_le hle
  · cases hop

/-- An observer whose connection was replaced reads what its channel holds, and then finds it
closed. What waits for the subscriber is left to the connection that took its place. -/
theorem readAll_replaced (hr : h.Replaced id generation) (most : Nat) :
    (h.readAll (·.receive id generation) most).1 = ((h.queueOf id generation).take most,
        if most ≤ (h.queueOf id generation).length then none else some .closed) ∧
      (h.readAll (·.receive id generation) most).2.subscribers = h.subscribers := by
  induction most generalizing h with
  | zero => simp [readAll]
  | succ most ih =>
    rw [readAll, receive, hr.refill, take]
    cases hc : h.channel? id generation with
    | none => simp [queueOf, hc]
    | some c =>
      rw [queueOf_eq hc]
      cases hq : c.queue with
      | nil => simp [hq, hr.isOpen]
      | cons e rest =>
        have hkept : (h.updateChannel id generation fun c => { c with queue := rest }).Replaced id
            generation := hr
        have hnext := channel?_updateChannel_self (f := fun c => { c with queue := rest }) hc
          fun _ => ⟨rfl, rfl⟩
        obtain ⟨hread, hsubscribers⟩ := ih hkept
        rw [queueOf_eq hnext] at hread
        simp only [hq, hread, hsubscribers, List.take_succ_cons, List.length_cons,
          Nat.add_le_add_iff_right, true_and]
        rfl

/-! ## Every history -/

/-- After every history, a subscriber has a channel. The observer of a live connection reads all
that its channel and its backlog hold without waiting, and a read that has to wait leaves no
backlog. A connection that its subscriber came back from stays replaced; what its channel holds can
be read, but nothing of the backlog. -/
theorem reads_drain (config : HubConfig) (next : Nat) (ops : List Op) :
    let h := (Hub.empty config next).run ops
    (∀ s ∈ h.subscribers, ∃ c, h.channel? s.id s.generation = some c) ∧
    (∀ s c, Live h s c →
      (h.readAll (·.receive s.id s.generation) (c.queue.length + s.backlog.length)).1 =
        (c.queue ++ s.backlog, none)) ∧
    (∀ id generation h', h.receive id generation = (.pending, h') → h'.waiting id = []) ∧
    (∀ id generation, h.Replaced id generation → ∀ most,
      (h.readAll (·.receive id generation) most).2.subscribers = h.subscribers ∧
        ((h.queueOf id generation).length < most →
          (h.readAll (·.receive id generation) most).1 =
            (h.queueOf id generation, some .closed))) ∧
    ∀ before id after s, ops = before ++ .reconnect id :: after →
      ops.countP Op.isSubscribe ≤ idCount →
      ((Hub.empty config next).run before).find? id = some s →
      ∀ generation ≤ s.generation, h.Replaced id generation := by
  intro h
  have hattached : Attached h := run_attached (fun _ hs => absurd hs List.not_mem_nil) ops
  refine ⟨fun s hs => hattached.channel? hs, fun s c hlive => ?_,
    fun _ _ _ hread => waiting_of_pending hread, fun id generation hr most => ?_,
    fun before id after s hops hids hs generation hle => ?_⟩
  · have hall := readAll_live_take hlive (c.queue ++ s.backlog).length
    rw [if_pos (Nat.le_refl _), List.take_length] at hall
    rwa [← List.length_append]
  · obtain ⟨hread, hsubscribers⟩ := readAll_replaced hr most
    refine ⟨hsubscribers, fun hmost => ?_⟩
    rw [hread, List.take_of_length_le (Nat.le_of_lt hmost), if_neg (Nat.not_le_of_lt hmost)]
  · subst hops
    have hready : Ready next ((Hub.empty config next).run before) (.reconnect id :: after) :=
      (Ready.empty config next hids).run
    have hissued := hready.sound.subscribers s (mem_of_find? hs)
    rw [id_of_find? hs] at hissued
    have hreplaced := reconnect_replaced hready.sound hs hle
    have hstays := hreplaced.run (issued_apply hissued) hready.step
    rwa [← run_cons, run, run, ← List.foldl_append] at hstays

/-- An observer comes back before it has read any of three envelopes; its channels take one each. -/
def unreadReturn : List Op :=
  [.subscribe "a", .publish (numbered "a" 1), .publish (numbered "a" 2), .publish (numbered "a" 3),
    .reconnect (subscriberId 0)]

/-- The first one can be read of the connection that was replaced, the others of the new one. -/
theorem reads_drain_unreadReturn :
    unreadReturn.countP Op.isSubscribe ≤ idCount ∧
      let h := (Hub.empty ⟨2, 1⟩ 0).run unreadReturn
      (h.readAll (·.receive (subscriberId 0) 1) 2).1 = ([numbered "a" 2, numbered "a" 3], none) ∧
        (h.readAll (·.receive (subscriberId 0) 0) 2).1 = ([numbered "a" 1], some .closed) ∧
        (h.readAll (·.receive (subscriberId 0) 0) 2).2.waiting (subscriberId 0) =
          [numbered "a" 3] := by
  have hids : unreadReturn.countP Op.isSubscribe ≤ idCount := by decide +kernel
  have hlive : Live ((Hub.empty ⟨2, 1⟩ 0).run unreadReturn)
      ⟨subscriberId 0, "a", true, [numbered "a" 3], none, 1⟩
      ⟨subscriberId 0, 1, [numbered "a" 2], true⟩ := ⟨rfl, rfl, rfl, rfl⟩
  obtain ⟨-, hdrains, -, hreads, hreplaced⟩ := reads_drain ⟨2, 1⟩ 0 unreadReturn
  have hold := hreplaced (unreadReturn.take 4) (subscriberId 0) [] _ rfl hids rfl 0 (Nat.le_refl 0)
  obtain ⟨hsubscribers, hread⟩ := hreads _ _ hold 2
  refine ⟨hids, hdrains _ _ hlive, hread (Nat.lt_succ_self 1), ?_⟩
  rw [waiting, find?, hsubscribers]
  rfl

end Hub
end ContextBudget
