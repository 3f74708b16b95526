import ContextBudget.Proofs.Telemetry.History

/-!
# Isolation of sessions

A subscriber is meant to receive the envelopes of the session that it watches and no others. All
that waits in its backlog belongs to that session, for a switch drops the backlog. A switch does
not drop what is unread in the channel, though: it is received after the switch all the same.

- `Isolated`: everything in the buffers of a subscriber belongs to the session that it watches.
- `apply_isolated`: each operation keeps this, but for a switch that leaves something unread.
- `isolates_iff_clean`: the reads of a history are isolated exactly if no switch to another session
  leaves anything unread in the channel (`CleanRun`).
-/

namespace ContextBudget
namespace Hub

variable {first : Nat} {h : Hub} {id : String} {e : Envelope}

/-! ## Buffers of one session -/

/-- Whatever waits for a subscriber belongs to the session that it watches. -/
structure Isolated (h : Hub) : Prop where
  backlog : ∀ id s, h.find? id = some s → ∀ e ∈ s.backlog, e.session = s.session
  queue : ∀ id s c, h.find? id = some s → h.channel? id s.generation = some c →
    ∀ e ∈ c.queue, e.session = s.session

namespace Isolated

theorem empty (config : HubConfig) (next : Nat) : Isolated (Hub.empty config next) where
  backlog _ _ h := nomatch h
  queue _ _ _ h := nomatch h

/-- Counters do not wait. -/
theorem count (hi : Isolated h) (counters : HubCounters) : Isolated { h with counters } :=
  ⟨hi.backlog, hi.queue⟩

theorem update (hi : Isolated h) {f : Subscriber → Subscriber} (hid : ∀ t, (f t).id = t.id)
    (hbacklog : ∀ s, h.find? id = some s → ∀ e ∈ (f s).backlog, e.session = (f s).session)
    (hqueue : ∀ s c, h.find? id = some s → h.channel? id (f s).generation = some c →
      ∀ e ∈ c.queue, e.session = (f s).session) :
    Isolated (h.update id f) := by
  have hread : ∀ {id' t}, (h.update id f).find? id' = some t →
      (∃ s, id' = id ∧ h.find? id = some s ∧ t = f s) ∨ h.find? id' = some t := by
    intro id' t ht
    rw [find?_update hid] at ht
    split at ht
    · rename_i he
      subst he
      obtain ⟨s, hs, rfl⟩ := Option.map_eq_some_iff.mp ht
      exact .inl ⟨s, rfl, hs, rfl⟩
    · exact .inr ht
  refine ⟨fun id' t ht => ?_, fun id' t c ht hc => ?_⟩
  · rcases hread ht with ⟨s, rfl, hs, rfl⟩ | ht
    · exact hbacklog s hs
    · exact hi.backlog id' t ht
  · rcases hread ht with ⟨s, rfl, hs, rfl⟩ | ht
    · exact hqueue s c hs hc
    · exact hi.queue id' t c ht hc

/-- A change that leaves a subscriber on its seat is about its backlog alone. -/
theorem update_backlog (hi : Isolated h) {f : Subscriber → Subscriber}
    (hseat : ∀ t, seat (f t) = seat t)
    (hbacklog : ∀ s, h.find? id = some s → ∀ e ∈ (f s).backlog, e.session = s.session) :
    Isolated (h.update id f) := by
  have hsession : ∀ t, (f t).session = t.session := fun t => congrArg (·.2.1) (hseat t)
  have hgeneration : ∀ t, (f t).generation = t.generation := fun t => congrArg (·.2.2) (hseat t)
  refine hi.update (fun t => congrArg (·.1) (hseat t)) (fun s hs => ?_) fun s c hs hc => ?_
  · rw [hsession]
    exact hbacklog s hs
  · rw [hsession]
    exact hi.queue id s c hs (hgeneration s ▸ hc)

theorem updateChannel (hi : Isolated h) {generation : Nat} {f : Channel → Channel}
    (hkey : ∀ d, (f d).subscriber = d.subscriber ∧ (f d).generation = d.generation)
    (hqueue : ∀ s c, h.find? id = some s → s.generation = generation →
      h.channel? id generation = some c → ∀ e ∈ (f c).queue, e.session = s.session) :
    Isolated (h.updateChannel id generation f) := by
  refine ⟨hi.backlog, fun id' s c hs hc => ?_⟩
  rw [channel?_updateChannel hkey] at hc
  split at hc
  · rename_i he
    obtain ⟨rfl, rfl⟩ := he
    obtain ⟨d, hd, rfl⟩ := Option.map_eq_some_iff.mp hc
    exact hqueue s d hs rfl hd
  · exact hi.queue id' s c hs hc

theorem unplug (hi : Isolated h) : Isolated (h.update id h.unplug) :=
  hi.update_backlog (fun _ => rfl) fun s hs => hi.backlog id s hs

/-- Envelopes of the right session may be added to a channel. -/
theorem append (hi : Isolated h) {generation : Nat} {sent : List Envelope}
    (hsent : ∀ s, h.find? id = some s → ∀ e ∈ sent, e.session = s.session) :
    Isolated (h.updateChannel id generation fun c => { c with queue := c.queue ++ sent }) := by
  refine hi.updateChannel (fun _ => ⟨rfl, rfl⟩) fun s c hs hgen hc e he => ?_
  rcases List.mem_append.mp he with he | he
  · exact hi.queue id s c hs (hgen ▸ hc) e he
  · exact hsent s hs e he

theorem push (hi : Isolated h) {s : Subscriber} (hs : h.find? s.id = some s)
    {sent rest : List Envelope} (hsent : sent ⊆ s.backlog) (hrest : rest ⊆ s.backlog) :
    Isolated (h.push s sent rest) := by
  have hown : ∀ t, h.find? s.id = some t → ∀ e ∈ s.backlog, e.session = t.session := by
    intro t ht
    obtain rfl : s = t := Option.some.inj (hs.symm.trans ht)
    exact hi.backlog s.id s hs
  refine Isolated.count (Isolated.update_backlog (f := fun t => { t with backlog := rest })
    (hi.append fun t ht e he => ?_) (fun _ => rfl) fun t ht e he => ?_) _
  · exact hown t ht e (hsent he)
  · exact hown t ht e (hrest he)

theorem enqueue (hi : Isolated h) (hown : ∀ s, h.find? id = some s → e.session = s.session) :
    Isolated (h.enqueue id e) := by
  have hcases := enqueue_cases h id e
  generalize h.enqueue id e = h' at hcases
  cases hcases with
  | unknown => exact hi
  | evicted => exact hi.count _
  | queued s =>
    refine Isolated.count (hi.update_backlog (f := fun t => { t with
      backlog := t.backlog.drop (s.backlog.length + 1 - h.config.backlog) ++ [e] })
      (fun _ => rfl) fun t ht d hd => ?_) _
    rcases List.mem_append.mp hd with hd | hd
    · exact hi.backlog id t ht d (List.mem_of_mem_drop hd)
    · rw [List.mem_singleton.mp hd]
      exact hown t ht

theorem flush (hi : Isolated h) : Isolated (h.flush id).2 := by
  cases hs : h.find? id with
  | none =>
    rw [Hub.flush, hs]
    exact hi
  | some s =>
    obtain rfl := id_of_find? hs
    have hcases := flush_cases hs
    generalize h.flush s.id = r at hcases
    cases hcases with
    | idle => exact hi
    | gone => exact hi.unplug
    | full => exact hi
    | moved => exact hi.push hs (List.take_subset _ _) (List.drop_subset _ _)

theorem deliver (hi : Isolated h) (hown : ∀ s, h.find? id = some s → e.session = s.session) :
    Isolated (h.deliver id e).2 := by
  have hcases := deliver_cases h id e
  generalize h.deliver id e = r at hcases
  cases hcases with
  | unknown => exact hi
  | sent s known =>
    refine Isolated.count (hi.append fun t ht d hd => ?_) _
    rw [id_of_find? known] at ht
    rw [List.mem_singleton.mp hd]
    exact hown t ht
  | full => exact hi.enqueue hown
  | gone =>
    refine hi.unplug.enqueue fun t ht => ?_
    obtain ⟨s', hs', hsession, -⟩ := SameSeats.unplug.find? ht
    exact (hown s' hs').trans hsession
  | behind => exact (hi.enqueue hown).flush

theorem deliverAll (hi : Isolated h) {ids : List String}
    (hown : ∀ id ∈ ids, ∀ s, h.find? id = some s → e.session = s.session) :
    Isolated (h.deliverAll e ids).2 := by
  induction ids generalizing h with
  | nil => exact hi
  | cons id rest ih =>
    refine ih (hi.deliver (hown id List.mem_cons_self)) fun id' hid' t ht => ?_
    obtain ⟨s, hs, hsession, -⟩ := (SameSeats.deliver e).find? ht
    exact (hown id' (List.mem_cons_of_mem _ hid') s hs).trans hsession

theorem publish (hi : Isolated h) (hsound : Sound first h) (e : Envelope) :
    Isolated (h.publish e).2 := by
  refine (hi.count _).deliverAll fun id hid s hs => ?_
  obtain ⟨t, ht, rfl⟩ := List.mem_map.mp hid
  obtain ⟨ht, hsession⟩ := List.mem_filter.mp ht
  obtain rfl : t = s := Option.some.inj ((hsound.find? ht).symm.trans hs)
  exact (eq_of_beq hsession).symm

theorem take (hi : Isolated h) (generation : Nat) : Isolated (h.take id generation).2 := by
  have hcases := take_cases h id generation
  generalize h.take id generation = r at hcases
  cases hcases with
  | nothing => exact hi
  | first c e rest channel queue =>
    refine hi.updateChannel (fun _ => ⟨rfl, rfl⟩) fun s d hs hgen _ e' he' => ?_
    exact hi.queue id s c hs (hgen ▸ channel) e' (by rw [queue]; exact List.mem_cons_of_mem e he')

theorem refill (hi : Isolated h) (generation : Nat) : Isolated (h.refill id generation) := by
  have hcases := refill_cases h id generation
  generalize h.refill id generation = h' at hcases
  cases hcases with
  | same => exact hi
  | flushed => exact hi.flush

theorem disconnect (hi : Isolated h) (generation : Nat) :
    Isolated (h.disconnect id generation).2 := by
  have hcases := disconnect_cases h id generation
  generalize h.disconnect id generation = r at hcases
  cases hcases with
  | same => exact hi
  | ended => exact hi.unplug

theorem release (hi : Isolated h) (generation : Nat) : Isolated (h.release id generation) :=
  hi.updateChannel (fun _ => ⟨rfl, rfl⟩) fun _ _ _ _ _ _ he => nomatch he

/-- Who stays in a sound hub is found as before. -/
theorem filter (hi : Isolated h) (hsound : Sound first h) (p : Subscriber → Bool) :
    Isolated { h with subscribers := h.subscribers.filter p } := by
  have hfind : ∀ {id s}, Hub.find? { h with subscribers := h.subscribers.filter p } id = some s →
      h.find? id = some s := by
    intro id s hs
    rw [← id_of_find? hs]
    exact hsound.find? (List.mem_filter.mp (mem_of_find? hs)).1
  exact ⟨fun id s hs => hi.backlog id s (hfind hs), fun id s c hs => hi.queue id s c (hfind hs)⟩

/-- A new channel is empty, so what is found there was there before. -/
theorem channel?_append {generation : Nat} {c d : Channel} {hub : Hub}
    (hchannels : hub.channels = h.channels ++ [c]) (hd : hub.channel? id generation = some d)
    (he : e ∈ d.queue) (hempty : c.queue = []) : h.channel? id generation = some d := by
  rw [channel?, hchannels, List.find?_append] at hd
  cases hf : h.channel? id generation with
  | some d' => rwa [show h.channels.find? _ = some d' from hf] at hd
  | none =>
    rw [show h.channels.find? _ = none from hf, Option.none_or] at hd
    rw [List.mem_singleton.mp (List.mem_of_find?_eq_some hd), hempty] at he
    cases he

theorem subscribe (hi : Isolated h) (hsound : Sound first h) (hnext : h.next < first + idCount)
    (session : String) : Isolated (h.subscribe session).2 := by
  have hfind : ∀ {id s}, (h.subscribe session).2.find? id = some s →
      h.find? id = some s ∨ s.backlog = [] ∧ id = subscriberId h.next := by
    intro id s hs
    simp only [Hub.find?, Hub.subscribe, List.find?_append] at hs ⊢
    cases hf : h.subscribers.find? (·.id == id) with
    | some t => exact .inl (by simpa [hf] using hs)
    | none =>
      rw [hf, Option.none_or] at hs
      have hid : s.id = id := by simpa using List.find?_some hs
      have hnew := List.mem_singleton.mp (List.mem_of_find?_eq_some hs)
      exact .inr ⟨by rw [hnew], by rw [← hid, hnew]⟩
  refine ⟨fun id s hs e he => ?_, fun id s c hs hc e he => ?_⟩
  · rcases hfind hs with hs | ⟨hnone, -⟩
    · exact hi.backlog id s hs e he
    · rw [hnone] at he
      cases he
  · have hold := channel?_append rfl hc he rfl
    rcases hfind hs with hs | ⟨-, rfl⟩
    · exact hi.queue id s c hs hold e he
    · have hkey := List.find?_some hold
      simp only [Bool.and_eq_true, beq_iff_eq] at hkey
      exact absurd hkey.1 ((hsound.channels c (List.mem_of_find?_eq_some hold)).ne hnext)

theorem reconnect (hi : Isolated h) (hsound : Sound first h) (id : String) :
    Isolated (h.reconnect id).2 := by
  unfold Hub.reconnect
  cases hs : h.find? id with
  | none => exact hi
  | some s =>
    have hgone : h.channel? id (s.generation + 1) = none :=
      hsound.channel?_eq_none hs (Nat.lt_succ_self _)
    have hrejoin : Isolated (h.update id fun t => { t with
        connected := true, idleSince := none, generation := s.generation + 1 }) := by
      refine hi.update (fun _ => rfl) (fun t ht => hi.backlog id t ht) fun t c ht hc => ?_
      rw [show h.channel? id (s.generation + 1) = some c from hc] at hgone
      cases hgone
    refine Isolated.flush ⟨hrejoin.backlog, fun id' t c ht hc e he => ?_⟩
    exact hrejoin.queue id' t c ht (channel?_append rfl hc he rfl) e he

end Isolated

/-! ## Switches -/

/-- What the channel of a subscriber's connection holds. -/
def unread (h : Hub) (id : String) : List Envelope :=
  match h.find? id with
  | none => []
  | some s => match h.channel? id s.generation with
    | none => []
    | some c => c.queue

/-- Switching a subscriber to a session leaves nothing of another one unread. -/
def CleanSwitch (h : Hub) (id session : String) : Prop :=
  h.sessionOf id = some session ∨ h.unread id = []

/-- An operation leaves nothing unread where it switches to another session. -/
def CleanOp (h : Hub) : Op → Prop
  | .switchSession id session => h.CleanSwitch id session
  | .control id text _ =>
    ∀ session, Control.read? text = some (.switchSession session) → h.CleanSwitch id session
  | _ => True

/-- All operations of a history are clean where they happen. -/
def CleanRun (h : Hub) : List Op → Prop
  | [] => True
  | op :: rest => h.CleanOp op ∧ (h.apply op).CleanRun rest

theorem unread_eq {s : Subscriber} {c : Channel} (hs : h.find? id = some s)
    (hc : h.channel? id s.generation = some c) : h.unread id = c.queue := by
  simp only [unread, hs, hc]

theorem Isolated.switchSession (hi : Isolated h) {session : String}
    (hclean : h.CleanSwitch id session) : Isolated (h.switchSession id session).2 := by
  refine hi.update (fun _ => rfl) (fun _ _ _ he => nomatch he) fun s c hs hc e he => ?_
  rcases hclean with hsame | hread
  · have : s.session = session := by simpa [sessionOf, hs] using hsame
    exact (hi.queue id s c hs hc e he).trans this
  · rw [unread_eq hs hc] at hread
    rw [hread] at he
    cases he

/-- Clean operations keep the buffers of every subscriber to its session. -/
theorem apply_isolated (hi : Isolated h) (hsound : Sound first h) {op : Op}
    (hids : op.isSubscribe = true → h.next < first + idCount) (hclean : h.CleanOp op) :
    Isolated (h.apply op) := by
  cases op with
  | subscribe session => exact hi.subscribe hsound (hids rfl) session
  | publish e => exact hi.publish hsound e
  | receive id generation => exact (hi.refill generation).take generation
  | release id generation => exact hi.release generation
  | disconnect id generation => exact hi.disconnect generation
  | reconnect id => exact hi.reconnect hsound id
  | switchSession id session => exact hi.switchSession hclean
  | control id text time =>
    simp only [apply, control]
    cases hm : Control.read? text with
    | none => exact hi.count _
    | some message =>
      cases message with
      | switchSession session => exact hi.switchSession (hclean session hm)
      | ping => exact hi
  | unsubscribe id => exact hi.filter hsound _
  | reap idle => exact hi.filter hsound _
  | wait span => exact ⟨hi.backlog, hi.queue⟩

/-! ## Reads -/

/-- Whoever reads its connection receives envelopes of the session that it watches alone. -/
def Isolates (h : Hub) : Prop :=
  ∀ id s e h', h.find? id = some s → h.receive id s.generation = (.envelope e, h') →
    e.session = s.session

theorem take_eq_envelope {generation : Nat} {h' : Hub}
    (ht : h.take id generation = (.envelope e, h')) :
    ∃ c, h.channel? id generation = some c ∧ e ∈ c.queue := by
  have hcases := take_cases h id generation
  rw [ht] at hcases
  cases hcases with
  | nothing _ ending => exact absurd rfl (ending e)
  | first c _ rest channel queue => exact ⟨c, channel, by rw [queue]; exact List.mem_cons_self⟩

theorem Isolated.isolates (hi : Isolated h) : h.Isolates := by
  intro id s e h' hs hr
  obtain ⟨c, hc, he⟩ := take_eq_envelope hr
  have hsame : SameSeats h (h.refill id s.generation) := .refill s.generation
  have hmap := hsame.map_find? id
  rw [hs, Option.map_some, Option.map_eq_some_iff] at hmap
  obtain ⟨t, ht, hseat⟩ := hmap
  have hgeneration : t.generation = s.generation := congrArg (·.2.2) hseat
  have hsession : t.session = s.session := congrArg (·.2.1) hseat
  exact ((hi.refill s.generation).queue id t c ht (hgeneration ▸ hc) e he).trans hsession

/-- After a switch that left something unread, the next read gives it. -/
theorem CleanSwitch.of_isolates (hi : Isolated h) {session : String}
    (hreads : (h.switchSession id session).2.Isolates) : h.CleanSwitch id session := by
  cases hs : h.find? id with
  | none => exact .inr (by simp only [unread, hs])
  | some s =>
    cases hc : h.channel? id s.generation with
    | none => exact .inr (by simp only [unread, hs, hc])
    | some c =>
      cases hq : c.queue with
      | nil => exact .inr (by rw [unread_eq hs hc, hq])
      | cons e rest =>
        have hswitched : (h.switchSession id session).2.find? id =
            some { s with session, backlog := [] } := by
          rw [switchSession, find?_update (f := fun t => { t with session, backlog := [] })
            fun _ => rfl, if_pos rfl, hs]
          rfl
        have hread : (h.switchSession id session).2.receive id s.generation =
            (.envelope e, ((h.switchSession id session).2.updateChannel id s.generation
              fun d => { d with queue := rest })) := by
          rw [receive, refill, hswitched]
          simp only [if_true, flush, hswitched, flushFrom]
          rw [take, show (h.switchSession id session).2.channel? id s.generation = some c from hc]
          simp only [hq]
        have hnew : e.session = session := hreads id _ e _ hswitched hread
        have hold := hi.queue id s c hs hc e (by rw [hq]; exact List.mem_cons_self)
        exact .inl (by rw [sessionOf, hs, Option.map_some, ← hold, hnew])

theorem CleanOp.of_isolates (hi : Isolated h) {op : Op} (hreads : (h.apply op).Isolates) :
    h.CleanOp op := by
  cases op with
  | switchSession id session => exact CleanSwitch.of_isolates hi hreads
  | control id text time =>
    intro session hm
    simp only [apply, control, hm] at hreads
    exact CleanSwitch.of_isolates hi hreads
  | _ => trivial

/-- From a hub whose buffers are isolated, the reads along a history are isolated exactly if the
history is clean. -/
theorem isolates_along {ops : List Op} (hready : Ready first h ops) (hi : Isolated h) :
    (∀ before, before <+: ops → (h.run before).Isolates) ↔ h.CleanRun ops := by
  induction ops generalizing h with
  | nil =>
    simp only [List.prefix_nil, forall_eq, run_nil, CleanRun, iff_true]
    exact hi.isolates
  | cons op rest ih =>
    have hids := hready.lt_of_isSubscribe
    constructor
    · intro hreads
      have hclean : h.CleanOp op := .of_isolates hi (hreads [op] (by simp))
      refine ⟨hclean, (ih hready.step (apply_isolated hi hready.sound hids hclean)).mp ?_⟩
      exact fun before hb => hreads (op :: before) (List.cons_prefix_cons.mpr ⟨rfl, hb⟩)
    · rintro ⟨hclean, hrest⟩ before hb
      cases before with
      | nil => exact hi.isolates
      | cons op' before =>
        obtain ⟨rfl, hbefore⟩ := List.cons_prefix_cons.mp hb
        have hnext := apply_isolated hi hready.sound hids hclean
        exact (ih hready.step hnext).mpr hrest before hbefore

/-- In a history that does not run out of ids, all reads are isolated exactly if no switch to
another session leaves anything unread. -/
theorem isolates_iff_clean (config : HubConfig) (next : Nat) (ops : List Op)
    (hids : ops.countP Op.isSubscribe ≤ idCount) :
    (∀ before, before <+: ops → ((Hub.empty config next).run before).Isolates) ↔
      (Hub.empty config next).CleanRun ops :=
  isolates_along (.empty config next hids) (.empty config next)

/-- An observer of one session leaves an envelope unread and is pointed at another session. -/
def unreadSwitch : List Op :=
  [.subscribe "a", .publish ⟨"k", "a", ⟨0, 0⟩, .null⟩, .switchSession (subscriberId 0) "b"]

theorem isolates_iff_clean_unreadSwitch :
    unreadSwitch.countP Op.isSubscribe ≤ idCount ∧
    ((∀ before, before <+: unreadSwitch → ((Hub.empty .standard 0).run before).Isolates) ↔
      (Hub.empty .standard 0).CleanRun unreadSwitch) := by
  have hids : unreadSwitch.countP Op.isSubscribe ≤ idCount := by decide +kernel
  exact ⟨hids, isolates_iff_clean .standard 0 unreadSwitch hids⟩

/-- Not every history is isolated: what was unread before a switch is received after it. -/
theorem not_isolates_unreadSwitch :
    ¬ ((Hub.empty .standard 0).run unreadSwitch).Isolates := by
  intro hreads
  have hnew := hreads (subscriberId 0) ⟨subscriberId 0, "b", true, [], none, 0⟩
    ⟨"k", "a", ⟨0, 0⟩, .null⟩
    (((Hub.empty .standard 0).run unreadSwitch).receive (subscriberId 0) 0).2 rfl rfl
  exact absurd hnew (by decide)

end Hub
end ContextBudget
