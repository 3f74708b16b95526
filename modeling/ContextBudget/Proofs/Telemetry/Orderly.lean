import ContextBudget.Proofs.Telemetry.Alike
import ContextBudget.Proofs.Telemetry.Conservation

/-!
# Orderly hubs

What a hub records of a subscriber and of its connections agrees, whatever was done to the hub.

- `Subscriber.Orderly`: a subscriber is connected exactly if no time of loss is recorded, and what
  waits for it is within the bounds of its backlog and of its session.
- `apply_orderly`, `run_orderly`: every operation keeps the subscribers orderly.
- `seated_cases`: what an operation can do to subscribers and channels, but for what waits in them.
- `CountsReturns`: the generation of a subscriber is the number of its returns.
- `run_wellKept`: all of it, after every history.
-/

namespace ContextBudget

/-- A subscriber is connected exactly if no time of loss is recorded, and its backlog holds no more
than there is place for, all of the session that it watches. -/
structure Subscriber.Orderly (capacity : Nat) (s : Subscriber) : Prop where
  connection : s.connected = true ↔ s.idleSince = none
  bounded : s.backlog.length ≤ capacity
  own : ∀ e ∈ s.backlog, e.session = s.session

namespace Hub

variable {first : Nat} {h h' : Hub} {id : String} {s : Subscriber} {e : Envelope}

/-! ## Orderly subscribers -/

theorem unplug_orderly {capacity : Nat} (ho : s.Orderly capacity) :
    (h.unplug s).Orderly capacity where
  connection := by cases hidle : s.idleSince <;> simp [Hub.unplug, hidle]
  bounded := ho.bounded
  own := ho.own

/-- All subscribers of a hub are orderly. -/
def Orderly (h : Hub) : Prop := ∀ id s, h.find? id = some s → s.Orderly h.config.backlog

namespace Orderly

theorem empty (config : HubConfig) (next : Nat) : Orderly (Hub.empty config next) :=
  fun _ _ hs => nomatch hs

/-- Channels, counters and time are no part of a subscriber. -/
theorem of_subscribers (ho : Orderly h) (hsame : h'.subscribers = h.subscribers)
    (hconfig : h'.config = h.config) : Orderly h' := by
  intro id s hs
  rw [hconfig]
  exact ho id s (by rwa [find?, hsame] at hs)

theorem update (ho : Orderly h) {f : Subscriber → Subscriber} (hid : ∀ t, (f t).id = t.id)
    (hf : ∀ s, h.find? id = some s → (f s).Orderly h.config.backlog) :
    Orderly (h.update id f) := by
  intro id' t ht
  rw [find?_update hid] at ht
  split at ht
  · rename_i he
    subst he
    obtain ⟨s, hs, rfl⟩ := Option.map_eq_some_iff.mp ht
    exact hf s hs
  · exact ho id' t ht

theorem unplug (ho : Orderly h) : Orderly (h.update id h.unplug) :=
  ho.update (fun _ => rfl) fun s hs => unplug_orderly (ho id s hs)

theorem push (ho : Orderly h) (hs : h.find? s.id = some s) (sent : List Envelope) (n : Nat) :
    Orderly (h.push s sent (s.backlog.drop n)) := by
  have hkept : Orderly (h.update s.id fun t => { t with backlog := s.backlog.drop n }) := by
    refine ho.update (fun _ => rfl) fun t ht => ?_
    obtain rfl : s = t := Option.some.inj (hs.symm.trans ht)
    have hold := ho s.id s hs
    refine ⟨hold.connection, ?_, fun e he => hold.own e (List.mem_of_mem_drop he)⟩
    exact Nat.le_trans (List.drop_sublist n _).length_le hold.bounded
  exact hkept.of_subscribers rfl rfl

theorem enqueue (ho : Orderly h) (hown : ∀ s, h.find? id = some s → e.session = s.session) :
    Orderly (h.enqueue id e) := by
  have hcases := enqueue_cases h id e
  generalize h.enqueue id e = h' at hcases
  cases hcases with
  | unknown => exact ho
  | evicted => exact ho.of_subscribers rfl rfl
  | queued s known some_wait =>
    have hkept : Orderly (h.update id fun t => { t with
        backlog := t.backlog.drop (s.backlog.length + 1 - h.config.backlog) ++ [e] }) := by
      refine ho.update (fun _ => rfl) fun t ht => ?_
      obtain rfl : s = t := Option.some.inj (known.symm.trans ht)
      have hold := ho id s known
      refine ⟨hold.connection, ?_, fun d hd => ?_⟩
      · simp only [List.length_append, List.length_drop, List.length_singleton]
        omega
      · rcases List.mem_append.mp hd with hd | hd
        · exact hold.own d (List.mem_of_mem_drop hd)
        · rw [List.mem_singleton.mp hd]
          exact hown s known
    exact hkept.of_subscribers rfl rfl

theorem flush (ho : Orderly h) : Orderly (h.flush id).2 := by
  cases hs : h.find? id with
  | none =>
    rw [Hub.flush, hs]
    exact ho
  | some s =>
    obtain rfl := id_of_find? hs
    have hcases := flush_cases hs
    generalize h.flush s.id = r at hcases
    cases hcases with
    | idle => exact ho
    | gone => exact ho.unplug
    | full => exact ho
    | moved c n => exact ho.push hs _ n

theorem deliver (ho : Orderly h) (hown : ∀ s, h.find? id = some s → e.session = s.session) :
    Orderly (h.deliver id e).2 := by
  have hcases := deliver_cases h id e
  generalize h.deliver id e = r at hcases
  cases hcases with
  | unknown => exact ho
  | sent => exact ho.of_subscribers rfl rfl
  | full => exact ho.enqueue hown
  | gone =>
    refine ho.unplug.enqueue fun t ht => ?_
    obtain ⟨s, hs, hsession, -⟩ := SameSeats.unplug.find? ht
    exact (hown s hs).trans hsession
  | behind => exact (ho.enqueue hown).flush

theorem deliverAll (ho : Orderly h) {ids : List String}
    (hown : ∀ id ∈ ids, ∀ s, h.find? id = some s → e.session = s.session) :
    Orderly (h.deliverAll e ids).2 := by
  induction ids generalizing h with
  | nil => exact ho
  | cons id rest ih =>
    refine ih (ho.deliver (hown id List.mem_cons_self)) fun id' hid' t ht => ?_
    obtain ⟨s, hs, hsession, -⟩ := (SameSeats.deliver e).find? ht
    exact (hown id' (List.mem_cons_of_mem _ hid') s hs).trans hsession

theorem publish (ho : Orderly h) (hsound : Sound first h) (e : Envelope) :
    Orderly (h.publish e).2 := by
  have hcounted : Orderly h.countPublished := ho.of_subscribers rfl rfl
  refine hcounted.deliverAll fun id hid s hs => ?_
  obtain ⟨t, ht, hsession⟩ := (mem_audience hsound e.session).mp hid
  obtain rfl : t = s := Option.some.inj (ht.symm.trans hs)
  exact hsession.symm

theorem refill (ho : Orderly h) (generation : Nat) : Orderly (h.refill id generation) := by
  have hcases := refill_cases h id generation
  generalize h.refill id generation = h' at hcases
  cases hcases with
  | same => exact ho
  | flushed => exact ho.flush

theorem take (ho : Orderly h) (generation : Nat) : Orderly (h.take id generation).2 := by
  have hcases := take_cases h id generation
  generalize h.take id generation = r at hcases
  cases hcases with
  | nothing => exact ho
  | first => exact ho.of_subscribers rfl rfl

theorem disconnect (ho : Orderly h) (generation : Nat) :
    Orderly (h.disconnect id generation).2 := by
  have hcases := disconnect_cases h id generation
  generalize h.disconnect id generation = r at hcases
  cases hcases with
  | same => exact ho
  | ended => exact ho.unplug

theorem rejoin (ho : Orderly h) (s : Subscriber) : Orderly (h.rejoin s) := by
  have hback : Orderly (h.update s.id fun t => { t with
      connected := true, idleSince := none, generation := s.generation + 1 }) := by
    refine ho.update (fun _ => rfl) fun t ht => ?_
    exact ⟨by simp, (ho s.id t ht).bounded, (ho s.id t ht).own⟩
  exact hback.of_subscribers rfl rfl

theorem reconnect (ho : Orderly h) (id : String) : Orderly (h.reconnect id).2 := by
  cases hs : h.find? id with
  | none =>
    rw [Hub.reconnect, hs]
    exact ho
  | some s =>
    obtain rfl := id_of_find? hs
    rw [reconnect_eq hs]
    exact (ho.rejoin s).flush

theorem subscribe (ho : Orderly h) (session : String) : Orderly (h.subscribe session).2 := by
  intro id s hs
  simp only [find?, Hub.subscribe, List.find?_append] at hs
  rcases Option.or_eq_some_iff.mp hs with hold | ⟨-, hnew⟩
  · exact ho id s hold
  · rw [List.mem_singleton.mp (List.mem_of_find?_eq_some hnew)]
    exact ⟨by simp, Nat.zero_le _, fun _ he => absurd he List.not_mem_nil⟩

theorem switchSession (ho : Orderly h) (id session : String) :
    Orderly (h.switchSession id session).2 :=
  ho.update (fun _ => rfl) fun s hs =>
    ⟨(ho id s hs).connection, Nat.zero_le _, fun _ he => absurd he List.not_mem_nil⟩

theorem filter (ho : Orderly h) (hsound : Sound first h) (p : Subscriber → Bool) :
    Orderly { h with subscribers := h.subscribers.filter p } :=
  fun id s hs => ho id s (find?_filter hsound hs)

end Orderly

/-- Every operation keeps the subscribers of a sound hub orderly. -/
theorem apply_orderly (ho : Orderly h) (hsound : Sound first h) (op : Op) :
    Orderly (h.apply op) := by
  cases op with
  | subscribe session => exact ho.subscribe session
  | publish e => exact ho.publish hsound e
  | receive id generation => exact (ho.refill generation).take generation
  | release id generation => exact ho.of_subscribers rfl rfl
  | disconnect id generation => exact ho.disconnect generation
  | reconnect id => exact ho.reconnect id
  | switchSession id session => exact ho.switchSession id session
  | control id text time =>
    simp only [apply, control]
    cases Control.read? text with
    | none => exact ho.of_subscribers rfl rfl
    | some message =>
      cases message with
      | switchSession session => exact ho.switchSession id session
      | ping => exact ho
  | unsubscribe id => exact ho.filter hsound _
  | reap idle => exact ho.filter hsound _
  | wait span => exact ho.of_subscribers rfl rfl

theorem run_orderly {ops : List Op} (hready : Ready first h ops) (ho : Orderly h) :
    Orderly (h.run ops) := by
  induction ops generalizing h with
  | nil => exact ho
  | cons op rest ih => exact ih hready.step (apply_orderly ho hready.sound op)

/-! ## Seats -/

/-- Whether an operation brings a subscriber back. -/
def bringsBack (h : Hub) (id : String) : Op → Bool
  | .reconnect id' => id' == id && (h.reconnect id').1.isSome
  | _ => false

/-- How often a history brings a subscriber back. -/
def returns (h : Hub) (id : String) : List Op → Nat
  | [] => 0
  | op :: rest => (h.bringsBack id op).toNat + (h.apply op).returns id rest

/-- What an operation does to subscribers and channels, but for what waits in them. -/
inductive Seated (h : Hub) : Op → Hub → Prop where
  | same (op : Op) (h' : Hub) (sames : SameSeats h h') (nobody : ∀ id, h.bringsBack id op = false) :
    Seated h op h'
  | joined (session : String) : Seated h (.subscribe session) (h.subscribe session).2
  | rejoined (s : Subscriber) (known : h.find? s.id = some s) :
    Seated h (.reconnect s.id) ((h.rejoin s).flush s.id).2
  | switched (op : Op) (id session : String) (nobody : ∀ id, h.bringsBack id op = false) :
    Seated h op (h.switchSession id session).2
  | left (op : Op) (stays : Subscriber → Bool) (nobody : ∀ id, h.bringsBack id op = false) :
    Seated h op { h with subscribers := h.subscribers.filter stays }

theorem seated_cases (h : Hub) (op : Op) : Seated h op (h.apply op) := by
  cases op with
  | subscribe session => exact .joined session
  | publish e => exact .same _ _ (.publish e) fun _ => rfl
  | receive id generation => exact .same _ _ (.receive generation) fun _ => rfl
  | release id generation => exact .same _ _ (.release generation) fun _ => rfl
  | disconnect id generation => exact .same _ _ (.disconnect generation) fun _ => rfl
  | reconnect id =>
    cases hs : h.find? id with
    | none =>
      have hunknown : h.reconnect id = (none, h) := by rw [reconnect, hs]
      rw [apply, hunknown]
      exact .same _ _ (.refl h) fun id' => by simp [bringsBack, hunknown]
    | some s =>
      obtain rfl := id_of_find? hs
      rw [apply, reconnect_eq hs]
      exact .rejoined s hs
  | switchSession id session => exact .switched _ id session fun _ => rfl
  | control id text time =>
    simp only [apply, control]
    cases Control.read? text with
    | none => exact .same _ _ ((SameSeats.refl h).count _) fun _ => rfl
    | some message =>
      cases message with
      | switchSession session => exact .switched _ id session fun _ => rfl
      | ping => exact .same _ _ (.refl h) fun _ => rfl
  | unsubscribe id => exact .left _ _ fun _ => rfl
  | reap idle => exact .left _ _ fun _ => rfl
  | wait span => exact .same _ _ ⟨rfl, rfl, rfl, rfl⟩ fun _ => rfl

/-- An operation adds no channel that is there already. -/
theorem apply_keys (hsound : Sound first h) {op : Op}
    (hids : op.isSubscribe = true → h.next < first + idCount) (hkeys : (h.channels.map key).Nodup) :
    ((h.apply op).channels.map key).Nodup := by
  have hadd : ∀ c : Channel, (∀ d ∈ h.channels, key d ≠ key c) →
      ((h.channels ++ [c]).map key).Nodup := by
    intro c hc
    rw [List.map_append, List.map_singleton]
    refine List.nodup_append.mpr ⟨hkeys, List.nodup_singleton _, fun k hk k' hk' => ?_⟩
    obtain ⟨d, hd, rfl⟩ := List.mem_map.mp hk
    rw [List.mem_singleton.mp hk']
    exact hc d hd
  have hcases := seated_cases h op
  generalize h.apply op = h' at hcases
  cases hcases with
  | same _ _ sames => rw [sames.channels]; exact hkeys
  | joined session =>
    refine hadd _ fun d hd heq => (hsound.channels d hd).ne (hids rfl) ?_
    exact congrArg (·.1) heq
  | rejoined s known =>
    have hflushed : SameSeats (h.rejoin s) ((h.rejoin s).flush s.id).2 := .flush
    rw [hflushed.channels]
    refine hadd _ fun d hd heq => ?_
    have hgeneration : d.generation = s.generation + 1 := congrArg (·.2) heq
    have := hsound.generations d hd s (mem_of_find? known) (congrArg (·.1) heq).symm
    omega
  | switched => exact hkeys
  | left => exact hkeys

theorem run_keys {ops : List Op} (hready : Ready first h ops) (hkeys : (h.channels.map key).Nodup) :
    ((h.run ops).channels.map key).Nodup := by
  induction ops generalizing h with
  | nil => exact hkeys
  | cons op rest ih =>
    exact ih hready.step (apply_keys hready.sound hready.lt_of_isSubscribe hkeys)

/-- A channel into which more can come is of a later generation than all others of its
subscriber. -/
theorem latest_of_isOpen (hsound : Sound first h) (hkeys : (h.channels.map key).Nodup)
    {c d : Channel} (hc : c ∈ h.channels) (hd : d ∈ h.channels)
    (hopen : h.isOpen c.subscriber c.generation = true) (hsame : d.subscriber = c.subscriber)
    (hother : d ≠ c) : d.generation < c.generation := by
  obtain ⟨s, hs, -, hgeneration⟩ := isOpen_eq_true.mp hopen
  have hle := hsound.generations d hd s (mem_of_find? hs) ((id_of_find? hs).trans hsame.symm)
  refine Nat.lt_of_le_of_ne (hgeneration ▸ hle) fun heq => hother ?_
  exact List.inj_on_of_nodup_map hkeys hd hc (Prod.ext hsame heq)

/-! ## Generations -/

/-- The generation of a subscriber is the number of its returns, and an id that was not given out
has none. -/
structure CountsReturns (first : Nat) (h : Hub) (returned : String → Nat) : Prop where
  generation : ∀ id s, h.find? id = some s → s.generation = returned id
  issued : ∀ id, returned id ≠ 0 → Issued "sub_" first h.next id

theorem CountsReturns.empty (config : HubConfig) (next : Nat) :
    CountsReturns next (Hub.empty config next) fun _ => 0 where
  generation _ _ hs := nomatch hs
  issued _ hsome := absurd rfl hsome

/-- Only a known subscriber is brought back. -/
theorem exists_of_bringsBack {op : Op} (hback : h.bringsBack id op = true) :
    ∃ s, h.find? id = some s := by
  cases op with
  | reconnect id' =>
    simp only [bringsBack, Bool.and_eq_true, beq_iff_eq] at hback
    obtain ⟨rfl, hsome⟩ := hback
    cases hs : h.find? id' with
    | none => simp [reconnect, hs] at hsome
    | some s => exact ⟨s, rfl⟩
  | _ => cases hback

/-- Whoever is found after an operation has just subscribed, under a new id, or was found before
it, with the generation before. -/
theorem found_before (hsound : Sound first h) {op : Op} {t : Subscriber}
    (ht : (h.apply op).find? id = some t) :
    (∃ s, h.find? id = some s ∧ t.generation = s.generation + (h.bringsBack id op).toNat) ∨
      op.isSubscribe = true ∧ id = subscriberId h.next ∧ t.generation = 0 := by
  have hcases := seated_cases h op
  generalize h.apply op = h' at hcases ht
  cases hcases with
  | same _ _ sames nobody =>
    obtain ⟨s, hs, -, hgeneration⟩ := sames.find? ht
    exact .inl ⟨s, hs, by simp [nobody id, hgeneration]⟩
  | joined session =>
    simp only [find?, subscribe, List.find?_append] at ht
    rcases Option.or_eq_some_iff.mp ht with hold | ⟨-, hnew⟩
    · exact .inl ⟨t, hold, rfl⟩
    · have hid : t.id = id := by simpa using List.find?_some hnew
      obtain rfl := List.mem_singleton.mp (List.mem_of_find?_eq_some hnew)
      exact .inr ⟨rfl, hid.symm, rfl⟩
  | rejoined s known =>
    by_cases hid : id = s.id
    · subst hid
      have hflushed : SameSeats (h.rejoin s) ((h.rejoin s).flush s.id).2 := .flush
      obtain ⟨u, hu, -, hgeneration⟩ := hflushed.find? ht
      rw [find?_rejoin known] at hu
      obtain rfl := Option.some.inj hu
      have hback : h.bringsBack s.id (.reconnect s.id) = true := by
        simp [bringsBack, reconnect, known]
      exact .inl ⟨s, known, by rw [hback, ← hgeneration]; rfl⟩
    · have htouches : OnlyTouches s.id h ((h.rejoin s).flush s.id).2 :=
        (OnlyTouches.rejoin s).trans .flush
      rw [(htouches id hid).1] at ht
      have hback : h.bringsBack id (.reconnect s.id) = false := by
        simp [bringsBack, Ne.symm hid]
      exact .inl ⟨t, ht, by rw [hback]; rfl⟩
  | switched _ id' session nobody =>
    rw [switchSession, find?_update (f := fun t => { t with session, backlog := [] })
      fun _ => rfl] at ht
    split at ht
    · obtain ⟨s, hs, rfl⟩ := Option.map_eq_some_iff.mp ht
      exact .inl ⟨s, hs, by simp [nobody id]⟩
    · exact .inl ⟨t, ht, by simp [nobody id]⟩
  | left _ stays nobody => exact .inl ⟨t, find?_filter hsound ht, by simp [nobody id]⟩

/-- An operation counts a return of a subscriber where it makes its generation one later. -/
theorem CountsReturns.apply {returned : String → Nat} (hreturns : CountsReturns first h returned)
    (hsound : Sound first h) {op : Op}
    (hids : op.isSubscribe = true → h.next < first + idCount) :
    CountsReturns first (h.apply op) fun id => returned id + (h.bringsBack id op).toNat where
  generation id t ht := by
    rcases found_before hsound ht with ⟨s, hs, hgeneration⟩ | ⟨hop, rfl, hzero⟩
    · rw [hgeneration, hreturns.generation id s hs]
    · -- A new id was not given out before, so nobody came back under it.
      have hnew : ¬ Issued "sub_" first h.next (subscriberId h.next) :=
        fun hissued => hissued.ne (hids hop) rfl
      have hnone : returned (subscriberId h.next) = 0 :=
        Decidable.byContradiction fun hsome => hnew (hreturns.issued _ hsome)
      have hback : h.bringsBack (subscriberId h.next) op = false := by
        cases op with
        | subscribe session => rfl
        | _ => cases hop
      rw [hzero, hnone, hback]
      rfl
  issued id hsome := by
    refine issued_apply ?_
    cases hback : h.bringsBack id op with
    | true =>
      obtain ⟨s, hs⟩ := exists_of_bringsBack hback
      exact id_of_find? hs ▸ hsound.subscribers s (mem_of_find? hs)
    | false => exact hreturns.issued id (by simpa [hback] using hsome)

theorem CountsReturns.run {returned : String → Nat} {ops : List Op}
    (hreturns : CountsReturns first h returned) (hready : Ready first h ops) :
    CountsReturns first (h.run ops) fun id => returned id + h.returns id ops := by
  induction ops generalizing h returned with
  | nil => exact hreturns
  | cons op rest ih =>
    have hnext := ih (hreturns.apply hready.sound hready.lt_of_isSubscribe) hready.step
    simpa only [run_cons, returns, Nat.add_assoc] using hnext

/-! ## Every history -/

theorem config_run (h : Hub) (ops : List Op) : (h.run ops).config = h.config := by
  induction ops generalizing h with
  | nil => rfl
  | cons op rest ih => exact (ih (h.apply op)).trans (congrArg (·.1) (setting_apply h op))

/-- After every history that does not run out of ids, a subscriber is connected exactly if no time
of loss is recorded, what waits for it is within bounds and of its session, its generation is the
number of its returns, and of its channels only the latest may be open. The connection of an
earlier generation ends nothing, a message that cannot be read is only counted, and nobody who is
connected is forgotten for being idle. -/
theorem run_wellKept (config : HubConfig) (next : Nat) (ops : List Op)
    (hids : ops.countP Op.isSubscribe ≤ idCount) :
    let h := (Hub.empty config next).run ops
    (∀ s ∈ h.subscribers, s.Orderly config.backlog ∧
      s.generation = (Hub.empty config next).returns s.id ops) ∧
    (∀ c ∈ h.channels, h.isOpen c.subscriber c.generation = true →
      ∀ d ∈ h.channels, d.subscriber = c.subscriber → d ≠ c → d.generation < c.generation) ∧
    (∀ s ∈ h.subscribers, ∀ generation < s.generation,
      h.disconnect s.id generation = (false, h)) ∧
    (∀ id text time, Control.read? text = none → h.control id text time =
      (none, { h with counters := { h.counters with malformed := h.counters.malformed + 1 } })) ∧
    ∀ idle, ∀ s ∈ h.subscribers, s.connected = true → s ∈ (h.reap idle).2.subscribers := by
  intro h
  have hready : Ready next (Hub.empty config next) ops := .empty config next hids
  have hsound : Sound next h := run_sound hready
  have horderly : Orderly h := run_orderly hready (.empty config next)
  have hconfig : h.config = config := config_run _ ops
  have hreturns := (CountsReturns.empty config next).run hready
  refine ⟨fun s hs => ?_, fun c hc hopen d hd hsame hother => ?_, fun s hs generation hlt => ?_,
    fun id text time hnone => ?_, fun idle s hs hconnected => ?_⟩
  · have hfound := hsound.find? hs
    refine ⟨hconfig ▸ horderly s.id s hfound, ?_⟩
    rw [hreturns.generation s.id s hfound, Nat.zero_add]
  · exact latest_of_isOpen hsound (run_keys hready .nil) hc hd hopen hsame hother
  · rw [disconnect, hsound.find? hs]
    simp only [if_neg (Nat.ne_of_gt hlt)]
  · rw [control, hnone]
  · have hidle := (horderly s.id s (hsound.find? hs)).connection.mp hconnected
    exact List.mem_filter.mpr ⟨hs, by simp [hidle]⟩

/-- An observer that came back once: its first connection ends nothing any more, a message that
cannot be read from it is counted, and it is not forgotten. -/
theorem run_wellKept_comeAndGo :
    (Op.subscribe "a" :: comeAndGo).countP Op.isSubscribe ≤ idCount ∧
      let h := (Hub.empty ⟨1, 1⟩ 0).run (.subscribe "a" :: comeAndGo)
      ∃ s ∈ h.subscribers, s.Orderly 1 ∧
        s.generation = (Hub.empty ⟨1, 1⟩ 0).returns s.id (.subscribe "a" :: comeAndGo) ∧
        s.generation = 1 ∧ h.disconnect s.id 0 = (false, h) ∧
        (h.control s.id "ping" ⟨0, 0⟩).2.counters.malformed = 1 ∧
        s ∈ (h.reap .zero).2.subscribers := by
  have hids : (Op.subscribe "a" :: comeAndGo).countP Op.isSubscribe ≤ idCount := by decide +kernel
  have hunread : Control.read? "ping" = none := by decide +kernel
  obtain ⟨hsubscribers, -, hdisconnect, hcontrol, hreap⟩ := run_wellKept ⟨1, 1⟩ 0 _ hids
  have hfound : ((Hub.empty ⟨1, 1⟩ 0).run (.subscribe "a" :: comeAndGo)).find? (subscriberId 0) =
      some ⟨subscriberId 0, "a", true, [numbered "a" 6], none, 1⟩ := rfl
  have hmem := mem_of_find? hfound
  obtain ⟨horderly, hgeneration⟩ := hsubscribers _ hmem
  refine ⟨hids, _, hmem, horderly, hgeneration, rfl, hdisconnect _ hmem 0 Nat.one_pos, ?_,
    hreap .zero _ hmem rfl⟩
  rw [hcontrol _ _ _ hunread]
  rfl

end Hub
end ContextBudget
