import ContextBudget.Proofs.Telemetry.Buffers
import ContextBudget.Proofs.Text.Digits

/-!
# Histories of a hub

A history is a list of operations on a hub, by any number of observers and producers in any order.
The ids that a hub gives out count up, so they are distinct in a history that subscribes no more
often than there are ids (`idCount`).

- `Sound`: subscribers have ids of their own, which were given out before, and no channel is of a
  later generation than its subscriber.
- `apply_sound`, `run_sound`: every operation keeps a hub sound, and so does a history.
-/

namespace ContextBudget
namespace Hub

/-- An operation on a hub. -/
inductive Op where
  | subscribe (session : String)
  | publish (e : Envelope)
  /-- An observer reads the next envelope of a connection. -/
  | receive (id : String) (generation : Nat)
  /-- An observer drops its end of a channel. -/
  | release (id : String) (generation : Nat)
  | disconnect (id : String) (generation : Nat)
  | reconnect (id : String)
  | switchSession (id session : String)
  | control (id text : String) (time : Moment)
  | unsubscribe (id : String)
  | reap (idle : Span)
  /-- Time passes. -/
  | wait (span : Span)
  deriving Repr

/-- Whether an operation gives out an id. -/
def Op.isSubscribe : Op → Bool
  | subscribe _ => true
  | _ => false

/-- The hub after an operation. -/
def apply (h : Hub) : Op → Hub
  | .subscribe session => (h.subscribe session).2
  | .publish e => (h.publish e).2
  | .receive id generation => (h.receive id generation).2
  | .release id generation => h.release id generation
  | .disconnect id generation => (h.disconnect id generation).2
  | .reconnect id => (h.reconnect id).2
  | .switchSession id session => (h.switchSession id session).2
  | .control id text time => (h.control id text time).2
  | .unsubscribe id => (h.unsubscribe id).2
  | .reap idle => (h.reap idle).2
  | .wait span => { h with time := h.time + span }

/-- The hub after a history. -/
def run (h : Hub) (ops : List Op) : Hub := ops.foldl apply h

@[simp] theorem run_nil (h : Hub) : h.run [] = h := rfl

@[simp] theorem run_cons (h : Hub) (op : Op) (ops : List Op) :
    h.run (op :: ops) = (h.apply op).run ops := rfl

/-! ## Sound hubs -/

/-- The ids of a hub are distinct and were given out before, and no channel is of a later
generation than its subscriber. -/
structure Sound (first : Nat) (h : Hub) : Prop where
  nodup : (h.subscribers.map (·.id)).Nodup
  subscribers : ∀ s ∈ h.subscribers, Issued "sub_" first h.next s.id
  channels : ∀ c ∈ h.channels, Issued "sub_" first h.next c.subscriber
  generations : ∀ c ∈ h.channels, ∀ s ∈ h.subscribers, s.id = c.subscriber →
    c.generation ≤ s.generation

namespace Sound

variable {first : Nat} {h h' : Hub} {id : String} {s : Subscriber}

theorem find? (hsound : Sound first h) (hs : s ∈ h.subscribers) : h.find? s.id = some s :=
  find?_of_mem hsound.nodup hs

/-- There is no channel of a generation that is still to come. -/
theorem channel?_eq_none (hsound : Sound first h) (hs : h.find? id = some s) {generation : Nat}
    (hlater : s.generation < generation) : h.channel? id generation = none := by
  refine List.find?_eq_none.mpr fun c hc hkey => ?_
  simp only [Bool.and_eq_true, beq_iff_eq] at hkey
  have := hsound.generations c hc s (mem_of_find? hs) (by rw [id_of_find? hs, hkey.1])
  omega

theorem empty (config : HubConfig) (next : Nat) : Sound next (Hub.empty config next) where
  nodup := .nil
  subscribers _ h := nomatch h
  channels _ h := nomatch h
  generations _ h := nomatch h

theorem of_sameSeats (hsound : Sound first h) (hsame : SameSeats h h') : Sound first h' := by
  have hmem : ∀ s' ∈ h'.subscribers, ∃ s ∈ h.subscribers, seat s = seat s' := by
    intro s' hs'
    have := hsame.subscribers ▸ List.mem_map_of_mem (f := seat) hs'
    simpa using this
  have hchannel : ∀ c' ∈ h'.channels, ∃ c ∈ h.channels, key c = key c' := by
    intro c' hc'
    have := hsame.channels ▸ List.mem_map_of_mem (f := key) hc'
    simpa using this
  refine ⟨?_, fun s' hs' => ?_, fun c' hc' => ?_, fun c' hc' s' hs' hid => ?_⟩
  · have hids : ∀ g : Hub, g.subscribers.map (·.id) = (g.subscribers.map seat).map (·.1) := by
      intro g
      rw [List.map_map]
      rfl
    rw [hids, hsame.subscribers, ← hids]
    exact hsound.nodup
  · obtain ⟨s, hs, hseat⟩ := hmem s' hs'
    rw [hsame.next, ← show s.id = s'.id from congrArg (·.1) hseat]
    exact hsound.subscribers s hs
  · obtain ⟨c, hc, hkey⟩ := hchannel c' hc'
    rw [hsame.next, ← show c.subscriber = c'.subscriber from congrArg (·.1) hkey]
    exact hsound.channels c hc
  · obtain ⟨s, hs, hseat⟩ := hmem s' hs'
    obtain ⟨c, hc, hkey⟩ := hchannel c' hc'
    rw [← show s.generation = s'.generation from congrArg (·.2.2) hseat,
      ← show c.generation = c'.generation from congrArg (·.2) hkey]
    refine hsound.generations c hc s hs ?_
    rw [show s.id = s'.id from congrArg (·.1) hseat,
      show c.subscriber = c'.subscriber from congrArg (·.1) hkey, hid]

/-- Subscribers may go, and may go to other sessions. -/
theorem filter (hsound : Sound first h) (p : Subscriber → Bool) :
    Sound first { h with subscribers := h.subscribers.filter p } where
  nodup := (List.filter_sublist.map _).nodup hsound.nodup
  subscribers s hs := hsound.subscribers s (List.mem_filter.mp hs).1
  channels := hsound.channels
  generations c hc s hs := hsound.generations c hc s (List.mem_filter.mp hs).1

theorem update (hsound : Sound first h) {f : Subscriber → Subscriber}
    (hf : ∀ t ∈ h.subscribers, t.id = id → (f t).id = t.id ∧ t.generation ≤ (f t).generation) :
    Sound first (h.update id f) := by
  have hkept : ∀ t ∈ h.subscribers, (if t.id = id then f t else t).id = t.id ∧
      t.generation ≤ (if t.id = id then f t else t).generation := by
    intro t ht
    split
    · exact hf t ht ‹_›
    · exact ⟨rfl, Nat.le_refl _⟩
  have hmem : ∀ t' ∈ (h.update id f).subscribers, ∃ t ∈ h.subscribers, t'.id = t.id ∧
      t.generation ≤ t'.generation := by
    intro t' ht'
    obtain ⟨t, ht, rfl⟩ := List.mem_map.mp ht'
    exact ⟨t, ht, hkept t ht⟩
  refine ⟨?_, fun t' ht' => ?_, hsound.channels, fun c hc t' ht' hid => ?_⟩
  · have hids : (h.update id f).subscribers.map (·.id) = h.subscribers.map (·.id) := by
      rw [Hub.update, List.map_map]
      exact List.map_congr_left fun t ht => (hkept t ht).1
    rw [hids]
    exact hsound.nodup
  · obtain ⟨t, ht, hid, -⟩ := hmem t' ht'
    exact hid ▸ hsound.subscribers t ht
  · obtain ⟨t, ht, hid', hgen⟩ := hmem t' ht'
    exact Nat.le_trans (hsound.generations c hc t ht (hid' ▸ hid)) hgen

theorem subscribe (hsound : Sound first h) (hnext : h.next < first + idCount) (hfirst : first ≤ h.next)
    (session : String) : Sound first (h.subscribe session).2 := by
  have hnew : ∀ {id : String}, Issued "sub_" first h.next id → id ≠ subscriberId h.next :=
    fun hid => hid.ne hnext
  have hlast : Issued "sub_" first (h.next + 1) (subscriberId h.next) := .last hfirst
  simp only [Hub.subscribe]
  refine ⟨?_, fun s hs => ?_, fun c hc => ?_, fun c hc s hs hid => ?_⟩
  · simp only [List.map_append, List.map_cons, List.map_nil]
    refine List.nodup_append.mpr ⟨hsound.nodup, List.nodup_singleton _, fun a ha b hb => ?_⟩
    obtain ⟨s, hs, rfl⟩ := List.mem_map.mp ha
    rw [List.mem_singleton.mp hb]
    exact hnew (hsound.subscribers s hs)
  · rcases List.mem_append.mp hs with hs | hs
    · exact (hsound.subscribers s hs).succ
    · rw [List.mem_singleton.mp hs]
      exact hlast
  · rcases List.mem_append.mp hc with hc | hc
    · exact (hsound.channels c hc).succ
    · rw [List.mem_singleton.mp hc]
      exact hlast
  · rcases List.mem_append.mp hc with hc | hc
    · rcases List.mem_append.mp hs with hs | hs
      · exact hsound.generations c hc s hs hid
      · rw [List.mem_singleton.mp hs] at hid
        exact absurd hid.symm (hnew (hsound.channels c hc))
    · rw [List.mem_singleton.mp hc]
      exact Nat.zero_le _

/-- The hub in which a subscriber was given a new channel, before what waits is moved into it. -/
theorem rejoin (hsound : Sound first h) (hs : h.find? id = some s) :
    Sound first { h.update id (fun t => { t with
        connected := true, idleSince := none, generation := s.generation + 1 }) with
      channels := h.channels ++ [⟨id, s.generation + 1, [], true⟩] } := by
  have hgen : ∀ t ∈ h.subscribers, t.id = id → t = s := by
    intro t ht hid
    have := hsound.find? ht
    rw [hid, hs] at this
    exact (Option.some.inj this).symm
  have hup : Sound first (h.update id fun t => { t with
      connected := true, idleSince := none, generation := s.generation + 1 }) :=
    hsound.update fun t ht hid => ⟨rfl, by rw [hgen t ht hid]; exact Nat.le_succ _⟩
  refine ⟨hup.nodup, hup.subscribers, fun c hc => ?_, fun c hc t' ht' hid => ?_⟩
  · rcases List.mem_append.mp hc with hc | hc
    · exact hup.channels c hc
    · rw [List.mem_singleton.mp hc]
      exact id_of_find? hs ▸ hsound.subscribers s (mem_of_find? hs)
  · rcases List.mem_append.mp hc with hc | hc
    · exact hup.generations c hc t' ht' hid
    · rw [List.mem_singleton.mp hc] at hid ⊢
      obtain ⟨t, ht, rfl⟩ := List.mem_map.mp ht'
      split at hid
      · rename_i heq
        simp [heq]
      · rename_i hne
        exact absurd hid hne

theorem reconnect (hsound : Sound first h) (id : String) : Sound first (h.reconnect id).2 := by
  unfold Hub.reconnect
  cases hs : h.find? id with
  | none => exact hsound
  | some s => exact (hsound.rejoin hs).of_sameSeats .flush

theorem switchSession (hsound : Sound first h) (id session : String) :
    Sound first (h.switchSession id session).2 :=
  hsound.update fun _ _ _ => ⟨rfl, Nat.le_refl _⟩

theorem control (hsound : Sound first h) (id text : String) (time : Moment) :
    Sound first (h.control id text time).2 := by
  unfold Hub.control
  cases Control.read? text with
  | none => exact hsound.of_sameSeats ((SameSeats.refl h).count _)
  | some message =>
    cases message with
    | switchSession session => exact hsound.switchSession id session
    | ping => exact hsound

end Sound

/-! ## Histories -/

variable {first : Nat} {h : Hub}

theorem next_apply (h : Hub) (op : Op) :
    (h.apply op).next = h.next + if op.isSubscribe then 1 else 0 := by
  cases op with
  | subscribe session => rfl
  | publish e => exact (SameSeats.publish e).next
  | receive id generation => exact (SameSeats.receive generation).next
  | release id generation => exact (SameSeats.release generation).next
  | disconnect id generation => exact (SameSeats.disconnect generation).next
  | reconnect id =>
    simp only [apply, reconnect]
    cases h.find? id with
    | none => rfl
    | some s => exact SameSeats.flush.next
  | switchSession id session => rfl
  | control id text time =>
    simp only [apply, control]
    cases Control.read? text with
    | none => rfl
    | some message => cases message <;> rfl
  | unsubscribe id => rfl
  | reap idle => rfl
  | wait span => rfl

theorem issued_apply {id : String} {op : Op} (hissued : Issued "sub_" first h.next id) :
    Issued "sub_" first (h.apply op).next id := by
  rw [next_apply]
  split
  · exact hissued.succ
  · exact hissued

theorem apply_sound (hsound : Sound first h) (hfirst : first ≤ h.next) (op : Op)
    (hids : op.isSubscribe = true → h.next < first + idCount) : Sound first (h.apply op) := by
  cases op with
  | subscribe session => exact hsound.subscribe (hids rfl) hfirst session
  | publish e => exact hsound.of_sameSeats (.publish e)
  | receive id generation => exact hsound.of_sameSeats (.receive generation)
  | release id generation => exact hsound.of_sameSeats (.release generation)
  | disconnect id generation => exact hsound.of_sameSeats (.disconnect generation)
  | reconnect id => exact hsound.reconnect id
  | switchSession id session => exact hsound.switchSession id session
  | control id text time => exact hsound.control id text time
  | unsubscribe id => exact hsound.filter _
  | reap idle => exact hsound.filter _
  | wait span => exact ⟨hsound.nodup, hsound.subscribers, hsound.channels, hsound.generations⟩

/-- A sound hub that has an id for each subscription of a history. -/
structure Ready (first : Nat) (h : Hub) (ops : List Op) : Prop where
  sound : Sound first h
  started : first ≤ h.next
  enough : h.next + ops.countP Op.isSubscribe ≤ first + idCount

theorem Ready.empty (config : HubConfig) (next : Nat) {ops : List Op}
    (hids : ops.countP Op.isSubscribe ≤ idCount) : Ready next (Hub.empty config next) ops :=
  ⟨.empty config next, Nat.le_refl _, Nat.add_le_add_left hids _⟩

theorem Ready.lt_of_isSubscribe {op : Op} {ops : List Op} (hready : Ready first h (op :: ops))
    (hop : op.isSubscribe = true) : h.next < first + idCount := by
  have henough := hready.enough
  rw [List.countP_cons, if_pos hop] at henough
  omega

theorem Ready.step {op : Op} {ops : List Op} (hready : Ready first h (op :: ops)) :
    Ready first (h.apply op) ops := by
  have hfirst := hready.started
  have henough := hready.enough
  rw [List.countP_cons] at henough
  refine ⟨apply_sound hready.sound hfirst op hready.lt_of_isSubscribe, ?_, ?_⟩
  · rw [next_apply]
    omega
  · rw [next_apply]
    omega

theorem Ready.run {before after : List Op} (hready : Ready first h (before ++ after)) :
    Ready first (h.run before) after := by
  induction before generalizing h with
  | nil => exact hready
  | cons op rest ih => exact ih hready.step

theorem run_sound {ops : List Op} (hready : Ready first h ops) : Sound first (h.run ops) := by
  induction ops generalizing h with
  | nil => exact hready.sound
  | cons op rest ih => exact ih hready.step

end Hub
end ContextBudget
