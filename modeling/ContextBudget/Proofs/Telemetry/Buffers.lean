import ContextBudget.Telemetry.Hub
import Mathlib.Data.List.Nodup

/-!
# Buffers of a hub

What the operations on the channel and the backlog of one subscriber do.

- `find?_update`, `channel?_updateChannel`: a changed hub is read like a table.
- `flush_cases`, `enqueue_cases`, `deliver_cases`, `refill_cases`, `take_cases`,
  `disconnect_cases`: all that an operation can do, and when.
- `SameSeats`: whatever is moved, the same subscribers watch the same sessions.
-/

namespace ContextBudget
namespace Hub

variable {h : Hub} {id : String} {s : Subscriber} {c : Channel} {e : Envelope}

/-! ## Reading a changed hub -/

theorem id_of_find? (hs : h.find? id = some s) : s.id = id := by
  simpa using List.find?_some hs

theorem mem_of_find? (hs : h.find? id = some s) : s ∈ h.subscribers := List.mem_of_find?_eq_some hs

theorem find?_of_mem (nodup : (h.subscribers.map (·.id)).Nodup) (hs : s ∈ h.subscribers) :
    h.find? s.id = some s := by
  cases hf : h.find? s.id with
  | none => exact absurd (List.find?_eq_none.mp hf s hs) (by simp)
  | some t =>
    rw [List.inj_on_of_nodup_map nodup (mem_of_find? hf) hs (id_of_find? hf)]

theorem find?_update {f : Subscriber → Subscriber} (hf : ∀ t, (f t).id = t.id) (id' : String) :
    (h.update id f).find? id' = if id' = id then (h.find? id').map f else h.find? id' := by
  have hid : ∀ t : Subscriber, (if t.id = id then f t else t).id = t.id := by
    intro t
    split
    · exact hf t
    · rfl
  have hmap : (h.update id f).find? id' =
      (h.find? id').map fun t => if t.id = id then f t else t := by
    simp only [find?, update, List.find?_map, Function.comp_def, hid]
  rw [hmap]
  cases hs : h.find? id' with
  | none => simp
  | some t =>
    have := id_of_find? hs
    by_cases he : id' = id <;> simp [he, this]

theorem channel?_updateChannel {f : Channel → Channel}
    (hf : ∀ d, (f d).subscriber = d.subscriber ∧ (f d).generation = d.generation)
    (generation : Nat) (id' : String) (generation' : Nat) :
    (h.updateChannel id generation f).channel? id' generation' =
      if id' = id ∧ generation' = generation then (h.channel? id' generation').map f
      else h.channel? id' generation' := by
  have hkey : ∀ d : Channel, (if d.subscriber = id ∧ d.generation = generation then f d
      else d).subscriber = d.subscriber ∧ (if d.subscriber = id ∧ d.generation = generation then f d
      else d).generation = d.generation := by
    intro d
    split
    · exact hf d
    · exact ⟨rfl, rfl⟩
  have hmap : (h.updateChannel id generation f).channel? id' generation' =
      (h.channel? id' generation').map fun d =>
        if d.subscriber = id ∧ d.generation = generation then f d else d := by
    simp only [channel?, updateChannel, List.find?_map, Function.comp_def, hkey]
  rw [hmap]
  cases hd : h.channel? id' generation' with
  | none => simp
  | some d =>
    have : d.subscriber = id' ∧ d.generation = generation' := by
      simpa using List.find?_some hd
    by_cases he : id' = id ∧ generation' = generation <;> simp [he, this]

theorem channel?_updateChannel_self {generation : Nat} {f : Channel → Channel}
    (hc : h.channel? id generation = some c)
    (hf : ∀ d, (f d).subscriber = d.subscriber ∧ (f d).generation = d.generation) :
    (h.updateChannel id generation f).channel? id generation = some (f c) := by
  rw [channel?_updateChannel hf, if_pos ⟨rfl, rfl⟩, hc, Option.map_some]

theorem offer_eq_accepted : h.offer s = .accepted ↔
    ∃ c, h.channel? s.id s.generation = some c ∧ c.held = true ∧ c.queue.length < h.room := by
  unfold offer
  cases h.channel? s.id s.generation with
  | none => simp
  | some c =>
    cases hc : c.held <;> simp [hc]

theorem offer_eq_full : h.offer s = .full ↔
    ∃ c, h.channel? s.id s.generation = some c ∧ c.held = true ∧ h.room ≤ c.queue.length := by
  unfold offer
  cases h.channel? s.id s.generation with
  | none => simp
  | some c =>
    cases hc : c.held <;> simp [hc]

theorem isOpen_eq_true {generation : Nat} : h.isOpen id generation = true ↔
    ∃ s, h.find? id = some s ∧ s.connected = true ∧ s.generation = generation := by
  unfold isOpen
  cases h.find? id <;> simp

/-! ## Flushing -/

/-- The hub after envelopes were sent to a subscriber's channel, `rest` being left to wait. -/
def push (h : Hub) (s : Subscriber) (sent rest : List Envelope) : Hub :=
  { (h.updateChannel s.id s.generation fun c => { c with queue := c.queue ++ sent }).update s.id
      fun t => { t with backlog := rest } with
    counters := { h.counters with delivered := h.counters.delivered + sent.length } }

theorem push_push (h : Hub) (s : Subscriber) (sent sent' rest rest' : List Envelope) :
    (h.push s sent rest).push { s with backlog := rest } sent' rest' =
      h.push s (sent ++ sent') rest' := by
  simp only [push, update, updateChannel, List.map_map, Function.comp_def, List.length_append,
    Hub.mk.injEq, true_and]
  refine ⟨List.map_congr_left fun t _ => ?_, List.map_congr_left fun d _ => ?_, ?_⟩
  · by_cases ht : t.id = s.id <;> simp [ht]
  · by_cases hd : d.subscriber = s.id ∧ d.generation = s.generation <;> simp [hd]
  · simp [Nat.add_assoc]

theorem find?_push (hs : h.find? s.id = some s) (sent rest : List Envelope) :
    (h.push s sent rest).find? s.id = some { s with backlog := rest } := by
  change ((h.updateChannel s.id s.generation _).update s.id _).find? s.id = _
  rw [find?_update (f := fun t => { t with backlog := rest }) fun _ => rfl, if_pos rfl]
  change (h.find? s.id).map _ = _
  rw [hs]
  rfl

theorem channel?_push (hc : h.channel? s.id s.generation = some c) (sent rest : List Envelope) :
    (h.push s sent rest).channel? s.id s.generation = some { c with queue := c.queue ++ sent } :=
  channel?_updateChannel_self (f := fun c => { c with queue := c.queue ++ sent }) hc
    fun _ => ⟨rfl, rfl⟩

/-- Flushing into a channel that is held moves as many envelopes as it has room for. -/
theorem flushFrom_eq {l : List Envelope} {n : Nat} (hs : h.find? s.id = some s)
    (connected : s.connected = true) (hc : h.channel? s.id s.generation = some c)
    (held : c.held = true) (hn : n = min (h.room - c.queue.length) l.length) :
    h.flushFrom s.id l = (n, if n = 0 then h else h.push s (l.take n) (l.drop n)) := by
  induction l generalizing h s c n with
  | nil =>
    obtain rfl : n = 0 := by simpa using hn
    rfl
  | cons e rest ih =>
    rw [flushFrom]
    simp only [hs, connected, Bool.not_true, Bool.false_eq_true, if_false]
    rw [List.length_cons] at hn
    by_cases hroom : c.queue.length < h.room
    · have haccepted := offer_eq_accepted.mpr ⟨c, hc, held, hroom⟩
      have hpush : (h.send s e).update s.id (fun t => { t with backlog := rest }) =
          h.push s [e] rest := rfl
      have hrest := ih (h := h.push s [e] rest) (s := { s with backlog := rest }) (n := n - 1)
        (find?_push hs [e] rest) connected (channel?_push hc [e] rest) held
        (by simp only [List.length_append, List.length_singleton]; change _ = min (h.room - _) _; omega)
      simp only [haccepted, hpush]
      rw [show s.id = { s with backlog := rest }.id from rfl, hrest]
      obtain ⟨m, rfl⟩ : ∃ m, n = m + 1 := ⟨n - 1, by omega⟩
      rw [Nat.add_sub_cancel, if_neg (Nat.succ_ne_zero m)]
      by_cases hm : m = 0
      · simp [hm]
      · simp only [hm, if_false, push_push]
        rfl
    · have hfull := offer_eq_full.mpr ⟨c, hc, held, Nat.le_of_not_lt hroom⟩
      obtain rfl : n = 0 := by omega
      simp only [hfull, if_true]

/-- What flushing does to the buffers of a known subscriber. -/
inductive Flushed (h : Hub) (s : Subscriber) : Nat × Hub → Prop where
  | idle (nothing : s.backlog = [] ∨ s.connected = false) : Flushed h s (0, h)
  | gone (waiting : s.backlog ≠ []) (connected : s.connected = true)
    (refused : h.offer s = .gone) : Flushed h s (0, h.update s.id h.unplug)
  | full (waiting : s.backlog ≠ []) (connected : s.connected = true)
    (refused : h.offer s = .full) : Flushed h s (0, h)
  | moved (c : Channel) (n : Nat) (connected : s.connected = true)
    (channel : h.channel? s.id s.generation = some c) (held : c.held = true)
    (count : n = min (h.room - c.queue.length) s.backlog.length) (some_move : 0 < n) :
    Flushed h s (n, h.push s (s.backlog.take n) (s.backlog.drop n))

theorem flush_cases (hs : h.find? s.id = some s) : Flushed h s (h.flush s.id) := by
  rw [flush, hs]
  simp only
  cases hb : s.backlog with
  | nil => exact .idle (.inl hb)
  | cons e rest =>
    have hne : s.backlog ≠ [] := by rw [hb]; exact List.cons_ne_nil e rest
    cases hconn : s.connected with
    | false =>
      rw [flushFrom]
      simp only [hs, hconn, Bool.not_false, if_true]
      exact .idle (.inr hconn)
    | true =>
      cases ho : h.offer s with
      | full =>
        rw [flushFrom]
        simp only [hs, hconn, ho, Bool.not_true, Bool.false_eq_true, if_false]
        exact .full hne hconn ho
      | gone =>
        rw [flushFrom]
        simp only [hs, hconn, ho, Bool.not_true, Bool.false_eq_true, if_false]
        exact .gone hne hconn ho
      | accepted =>
        obtain ⟨c, hc, held, hroom⟩ := offer_eq_accepted.mp ho
        have hpos : 0 < min (h.room - c.queue.length) s.backlog.length := by
          rw [hb, List.length_cons]
          omega
        rw [← hb, flushFrom_eq hs hconn hc held rfl, if_neg (by omega)]
        exact .moved c _ hconn hc held rfl hpos

/-! ## The other operations -/

/-- What comes of an envelope that has to wait. -/
inductive Enqueued (h : Hub) (id : String) (e : Envelope) : Hub → Prop where
  | unknown (absent : h.find? id = none) : Enqueued h id e h
  | evicted (s : Subscriber) (known : h.find? id = some s) (nothing : h.config.backlog = 0) :
    Enqueued h id e { h with counters := { h.counters with evicted := h.counters.evicted + 1 } }
  | queued (s : Subscriber) (known : h.find? id = some s) (some_wait : h.config.backlog ≠ 0) :
    Enqueued h id e { h.update id (fun t => { t with
        backlog := t.backlog.drop (s.backlog.length + 1 - h.config.backlog) ++ [e] }) with
      counters := { h.counters with
        queued := h.counters.queued + 1
        evicted := h.counters.evicted + (s.backlog.length + 1 - h.config.backlog) } }

theorem enqueue_cases (h : Hub) (id : String) (e : Envelope) :
    Enqueued h id e (h.enqueue id e) := by
  unfold enqueue
  cases hs : h.find? id with
  | none => exact .unknown hs
  | some s =>
    simp only
    split
    · exact .evicted s hs ‹_›
    · exact .queued s hs ‹_›

/-- What comes of an envelope that is given to a subscriber. -/
inductive Delivered (h : Hub) (id : String) (e : Envelope) : Bool × Hub → Prop where
  | unknown (absent : h.find? id = none) : Delivered h id e (false, h)
  | sent (s : Subscriber) (known : h.find? id = some s) (first : s.backlog = [])
    (connected : s.connected = true) (accepted : h.offer s = .accepted) :
    Delivered h id e (true, h.send s e)
  | full (s : Subscriber) (known : h.find? id = some s) (first : s.backlog = [])
    (connected : s.connected = true) (refused : h.offer s = .full) :
    Delivered h id e (false, h.enqueue id e)
  | gone (s : Subscriber) (known : h.find? id = some s) (first : s.backlog = [])
    (connected : s.connected = true) (refused : h.offer s = .gone) :
    Delivered h id e (false, (h.update id h.unplug).enqueue id e)
  | behind (s : Subscriber) (known : h.find? id = some s)
    (waits : s.backlog ≠ [] ∨ s.connected = false) :
    Delivered h id e (decide (0 < ((h.enqueue id e).flush id).1), ((h.enqueue id e).flush id).2)

theorem deliver_cases (h : Hub) (id : String) (e : Envelope) :
    Delivered h id e (h.deliver id e) := by
  unfold deliver
  cases hs : h.find? id with
  | none => exact .unknown hs
  | some s =>
    simp only
    split
    · rename_i hfirst
      simp only [Bool.and_eq_true, List.isEmpty_iff] at hfirst
      obtain ⟨hfirst, hconn⟩ := hfirst
      cases ho : h.offer s with
      | accepted => exact .sent s hs hfirst hconn ho
      | full => exact .full s hs hfirst hconn ho
      | gone => exact .gone s hs hfirst hconn ho
    · rename_i hwaits
      refine .behind s hs ?_
      simpa only [Bool.and_eq_true, List.isEmpty_iff, not_and_or, Bool.not_eq_true] using hwaits

/-- What is moved before a read. -/
inductive Refilled (h : Hub) (id : String) (generation : Nat) : Hub → Prop where
  | same (old : ∀ s, h.find? id = some s → s.generation ≠ generation) :
    Refilled h id generation h
  | flushed (s : Subscriber) (known : h.find? id = some s) (current : s.generation = generation) :
    Refilled h id generation (h.flush id).2

theorem refill_cases (h : Hub) (id : String) (generation : Nat) :
    Refilled h id generation (h.refill id generation) := by
  unfold refill
  cases hs : h.find? id with
  | none => exact .same (by simp [hs])
  | some s =>
    simp only
    split
    · exact .flushed s hs ‹_›
    · refine .same fun t ht => ?_
      obtain rfl : s = t := Option.some.inj (hs.symm.trans ht)
      assumption

/-- What a read takes out of a channel. -/
inductive Taken (h : Hub) (id : String) (generation : Nat) : Received × Hub → Prop where
  | nothing (r : Received) (ending : ∀ e, r ≠ .envelope e)
    (empty : ∀ c, h.channel? id generation = some c → c.queue = []) : Taken h id generation (r, h)
  | first (c : Channel) (e : Envelope) (rest : List Envelope)
    (channel : h.channel? id generation = some c) (queue : c.queue = e :: rest) :
    Taken h id generation (.envelope e,
      h.updateChannel id generation fun c => { c with queue := rest })

theorem take_cases (h : Hub) (id : String) (generation : Nat) :
    Taken h id generation (h.take id generation) := by
  unfold take
  cases hc : h.channel? id generation with
  | none => exact .nothing _ (by simp) (by simp [hc])
  | some c =>
    simp only
    cases hq : c.queue with
    | nil =>
      refine .nothing _ (fun e => ?_) fun d hd => ?_
      · split <;> simp
      · rw [hc] at hd
        cases hd
        exact hq
    | cons e rest => exact .first c e rest hc hq

/-- What comes of a connection that is ended. -/
inductive Disconnected (h : Hub) (id : String) (generation : Nat) : Bool × Hub → Prop where
  | same (old : ∀ s, h.find? id = some s → s.generation ≠ generation) :
    Disconnected h id generation (false, h)
  | ended (s : Subscriber) (known : h.find? id = some s) (current : s.generation = generation) :
    Disconnected h id generation (true, h.update id h.unplug)

theorem disconnect_cases (h : Hub) (id : String) (generation : Nat) :
    Disconnected h id generation (h.disconnect id generation) := by
  unfold disconnect
  cases hs : h.find? id with
  | none => exact .same (by simp [hs])
  | some s =>
    simp only
    split
    · exact .ended s hs ‹_›
    · refine .same fun t ht => ?_
      obtain rfl : s = t := Option.some.inj (hs.symm.trans ht)
      assumption

/-! ## Seats -/

/-- Who a subscriber is: its id, the session it watches and its connection. -/
def seat (s : Subscriber) : String × String × Nat := (s.id, s.session, s.generation)

/-- The subscriber and the connection that a channel belongs to. -/
def key (c : Channel) : String × Nat := (c.subscriber, c.generation)

/-- Two hubs have the same subscribers and channels, whatever waits in them. -/
structure SameSeats (h h' : Hub) : Prop where
  subscribers : h'.subscribers.map seat = h.subscribers.map seat
  channels : h'.channels.map key = h.channels.map key
  config : h'.config = h.config
  next : h'.next = h.next

namespace SameSeats

variable {h' h'' : Hub}

theorem refl (h : Hub) : SameSeats h h := ⟨rfl, rfl, rfl, rfl⟩

theorem trans (h₁ : SameSeats h h') (h₂ : SameSeats h' h'') : SameSeats h h'' :=
  ⟨h₂.subscribers.trans h₁.subscribers, h₂.channels.trans h₁.channels,
    h₂.config.trans h₁.config, h₂.next.trans h₁.next⟩

theorem symm (hsame : SameSeats h h') : SameSeats h' h :=
  ⟨hsame.subscribers.symm, hsame.channels.symm, hsame.config.symm, hsame.next.symm⟩

theorem update {f : Subscriber → Subscriber} (hf : ∀ t, seat (f t) = seat t) :
    SameSeats h (h.update id f) where
  subscribers := by
    simp only [Hub.update, List.map_map]
    refine List.map_congr_left fun t _ => ?_
    simp only [Function.comp_apply]
    split
    · exact hf t
    · rfl
  channels := rfl
  config := rfl
  next := rfl

theorem updateChannel {generation : Nat} {f : Channel → Channel} (hf : ∀ d, key (f d) = key d) :
    SameSeats h (h.updateChannel id generation f) where
  subscribers := rfl
  channels := by
    simp only [Hub.updateChannel, List.map_map]
    refine List.map_congr_left fun d _ => ?_
    simp only [Function.comp_apply]
    split
    · exact hf d
    · rfl
  config := rfl
  next := rfl

/-- Counters are no part of a seat. -/
theorem count (hsame : SameSeats h h') (counters : HubCounters) :
    SameSeats h { h' with counters } :=
  ⟨hsame.subscribers, hsame.channels, hsame.config, hsame.next⟩

theorem push (s : Subscriber) (sent rest : List Envelope) : SameSeats h (h.push s sent rest) :=
  ((updateChannel (f := fun c => { c with queue := c.queue ++ sent }) fun _ => rfl).trans
    (update (f := fun t => { t with backlog := rest }) fun _ => rfl)).count _

theorem send (s : Subscriber) (e : Envelope) : SameSeats h (h.send s e) :=
  (updateChannel (f := fun c => { c with queue := c.queue ++ [e] }) fun _ => rfl).count _

theorem unplug : SameSeats h (h.update id h.unplug) := update fun _ => rfl

theorem enqueue (e : Envelope) : SameSeats h (h.enqueue id e) := by
  have hcases := enqueue_cases h id e
  generalize h.enqueue id e = h' at hcases
  cases hcases with
  | unknown => exact refl h
  | evicted => exact (refl h).count _
  | queued s =>
    exact (update (f := fun t => { t with
      backlog := t.backlog.drop (s.backlog.length + 1 - h.config.backlog) ++ [e] })
      fun _ => rfl).count _

theorem flush : SameSeats h (h.flush id).2 := by
  cases hs : h.find? id with
  | none =>
    rw [Hub.flush, hs]
    exact refl h
  | some s =>
    obtain rfl := id_of_find? hs
    have hcases := flush_cases hs
    generalize h.flush s.id = r at hcases
    cases hcases with
    | idle => exact refl h
    | gone => exact unplug
    | full => exact refl h
    | moved => exact push s _ _

theorem deliver (e : Envelope) : SameSeats h (h.deliver id e).2 := by
  have hcases := deliver_cases h id e
  generalize h.deliver id e = r at hcases
  cases hcases with
  | unknown => exact refl h
  | sent s => exact send s e
  | full => exact enqueue e
  | gone => exact unplug.trans (enqueue e)
  | behind => exact (enqueue e).trans flush

theorem deliverAll (e : Envelope) (ids : List String) : SameSeats h (h.deliverAll e ids).2 := by
  induction ids generalizing h with
  | nil => exact refl h
  | cons id rest ih => exact (deliver e).trans ih

theorem publish (e : Envelope) : SameSeats h (h.publish e).2 :=
  ((refl h).count { h.counters with published := h.counters.published + 1 }).trans
    (deliverAll e _)

theorem take (generation : Nat) : SameSeats h (h.take id generation).2 := by
  have hcases := take_cases h id generation
  generalize h.take id generation = r at hcases
  cases hcases with
  | nothing => exact refl h
  | first => exact updateChannel fun _ => rfl

theorem refill (generation : Nat) : SameSeats h (h.refill id generation) := by
  have hcases := refill_cases h id generation
  generalize h.refill id generation = h' at hcases
  cases hcases with
  | same => exact refl h
  | flushed => exact flush

theorem receive (generation : Nat) : SameSeats h (h.receive id generation).2 :=
  (refill generation).trans (take generation)

theorem disconnect (generation : Nat) : SameSeats h (h.disconnect id generation).2 := by
  have hcases := disconnect_cases h id generation
  generalize h.disconnect id generation = r at hcases
  cases hcases with
  | same => exact refl h
  | ended => exact unplug

theorem release (generation : Nat) : SameSeats h (h.release id generation) :=
  updateChannel fun _ => rfl

/-- The subscriber of an id sits on the same seat. -/
theorem map_find? (hsame : SameSeats h h') (id : String) :
    (h'.find? id).map seat = (h.find? id).map seat := by
  have hfind : ∀ g : Hub, (g.find? id).map seat = (g.subscribers.map seat).find? (·.1 == id) := by
    intro g
    rw [List.find?_map]
    rfl
  rw [hfind, hfind, hsame.subscribers]

/-- The subscriber of an id still sits there. -/
theorem find?_of (hsame : SameSeats h h') {s : Subscriber} (hs : h.find? id = some s) :
    ∃ t, h'.find? id = some t ∧ t.session = s.session ∧ t.generation = s.generation := by
  have hmap := hsame.map_find? id
  rw [hs, Option.map_some, Option.map_eq_some_iff] at hmap
  obtain ⟨t, ht, hseat⟩ := hmap
  exact ⟨t, ht, congrArg (·.2.1) hseat, congrArg (·.2.2) hseat⟩

theorem find? (hsame : SameSeats h h') {t : Subscriber} (ht : h'.find? id = some t) :
    ∃ s, h.find? id = some s ∧ s.session = t.session ∧ s.generation = t.generation := by
  have hmap := hsame.map_find? id
  rw [ht, Option.map_some, eq_comm, Option.map_eq_some_iff] at hmap
  obtain ⟨s, hs, hseat⟩ := hmap
  cases t
  cases s
  cases hseat
  exact ⟨_, hs, rfl, rfl⟩

end SameSeats
end Hub
end ContextBudget
