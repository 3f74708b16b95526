import ContextBudget.Proofs.Telemetry.Flow

/-!
# Conservation of envelopes

Whatever is published to the session of a subscriber is sent to it once, waits for it, or is
evicted, however often it comes and goes.

- `ByConnection`: what is sent to a subscriber is sent to one connection after another.
- `load_publish`: publishing adds one to the load of a hub for each subscriber of the session; all
  other operations that forget nothing keep the load.
- `hub_conserves`: what is published to a subscriber since it subscribed, and what is published in
  a whole history.
-/

namespace ContextBudget
namespace Hub

variable {first : Nat} {h h' : Hub} {id : String} {s : Subscriber} {e : Envelope}

/-! ## Connections -/

/-- What is sent goes to the connections of the time. -/
def SentNow (h : Hub) (moved : List Move) : Prop :=
  ∀ id g e, Move.sent id g e ∈ moved → ∃ s, h.find? id = some s ∧ s.generation = g

namespace SentNow

variable {moved moved' : List Move}

theorem of_sameSeats (hnow : SentNow h moved) (hsame : SameSeats h h') : SentNow h' moved := by
  intro id g e hm
  obtain ⟨s, hs, rfl⟩ := hnow id g e hm
  obtain ⟨t, ht, -, hgeneration⟩ := hsame.find?_of hs
  exact ⟨t, ht, hgeneration⟩

theorem append (hnow : SentNow h moved) (hnow' : SentNow h moved') : SentNow h (moved ++ moved') :=
  fun id g e hm => (List.mem_append.mp hm).elim (hnow id g e) (hnow' id g e)

theorem of_unsent (hnone : ∀ m ∈ moved, m.isSent = false) : SentNow h moved := by
  intro id g e hm
  have := hnone _ hm
  cases this

theorem idle (h : Hub) : SentNow h [] := of_unsent fun _ hm => (List.not_mem_nil hm).elim

theorem enqueue (h : Hub) (id : String) (e : Envelope) : SentNow h (h.enqueueMoves id e) := by
  refine of_unsent fun m hm => ?_
  unfold enqueueMoves at hm
  split at hm
  · cases hm
  · obtain ⟨e, -, rfl⟩ := List.mem_map.mp hm
    rfl

theorem flush (h : Hub) (id : String) : SentNow h (h.flushMoves id) := by
  intro id' g e hm
  unfold flushMoves at hm
  cases hs : h.find? id with
  | none =>
    rw [hs] at hm
    cases hm
  | some s =>
    rw [hs] at hm
    obtain ⟨e', -, heq⟩ := List.mem_map.mp hm
    cases heq
    exact ⟨s, hs, rfl⟩

theorem deliver (h : Hub) (id : String) (e : Envelope) : SentNow h (h.deliverMoves id e) := by
  unfold deliverMoves
  cases hs : h.find? id with
  | none => exact idle _
  | some s =>
    simp only
    split
    · split
      · intro id' g e' hm
        cases List.mem_singleton.mp hm
        exact ⟨s, hs, rfl⟩
      · exact enqueue h id e
      · exact enqueue h id e
    · have hback : SameSeats (h.enqueue id e) h := (SameSeats.enqueue e).symm
      exact (enqueue h id e).append ((flush (h.enqueue id e) id).of_sameSeats hback)

theorem deliverAll (h : Hub) (e : Envelope) (ids : List String) :
    SentNow h (h.deliverAllMoves e ids) := by
  induction ids generalizing h with
  | nil => exact idle _
  | cons id rest ih =>
    exact (deliver h id e).append ((ih _).of_sameSeats (SameSeats.deliver e).symm)

end SentNow

theorem apply_sentNow (h : Hub) (op : Op) : SentNow (h.apply op) (h.moves op) := by
  cases op with
  | publish e => exact (SentNow.deliverAll h.countPublished e _).of_sameSeats (.deliverAll e _)
  | receive id generation =>
    have hrefill : SentNow h (h.refillMoves id generation) := by
      unfold refillMoves
      cases h.find? id with
      | none => exact .idle _
      | some s =>
        simp only
        split
        · exact .flush h id
        · exact .idle _
    have htake : SentNow h ((h.refill id generation).takeMoves id generation) := by
      refine .of_unsent fun m hm => ?_
      unfold takeMoves at hm
      split at hm
      · cases List.mem_singleton.mp hm
        rfl
      · cases hm
    exact (hrefill.append htake).of_sameSeats (.receive generation)
  | reconnect id =>
    cases hs : h.find? id with
    | none =>
      simp only [moves, hs]
      exact .idle _
    | some s =>
      obtain rfl := id_of_find? hs
      have hmoves : h.moves (.reconnect s.id) = (h.rejoin s).flushMoves s.id := by
        simp only [moves, hs]
      rw [hmoves]
      change SentNow (h.reconnect s.id).2 _
      rw [reconnect_eq hs]
      exact (SentNow.flush (h.rejoin s) s.id).of_sameSeats .flush
  | release id generation =>
    refine .of_unsent fun m hm => ?_
    obtain ⟨e, -, rfl⟩ := List.mem_map.mp hm
    rfl
  | _ => exact .idle _

/-- What was sent to a subscriber over its connections, one connection after another. -/
def sentOver (id : String) (latest : Nat) (log : List Move) : List Envelope :=
  (List.range (latest + 1)).flatMap fun g => sentVia id g log

/-- Up to the latest connection, what was sent to a subscriber was sent to one connection after
another. -/
structure ByConnection (id : String) (latest : Nat) (log : List Move) : Prop where
  none_later : ∀ g, latest < g → sentVia id g log = []
  in_turn : sentOver id latest log = sentTo id log

namespace ByConnection

variable {latest latest' : Nat} {log moved : List Move}

theorem nil (id : String) (latest : Nat) : ByConnection id latest [] where
  none_later _ _ := rfl
  in_turn := List.flatMap_eq_nil_iff.mpr fun _ _ => rfl

/-- Later connections were sent nothing. -/
theorem mono (h : ByConnection id latest log) (hle : latest ≤ latest') :
    ByConnection id latest' log where
  none_later g hg := h.none_later g (Nat.lt_of_le_of_lt hle hg)
  in_turn := by
    rw [← h.in_turn]
    induction hle with
    | refl => rfl
    | step hle ih =>
      rw [← ih, sentOver, List.range_succ, List.flatMap_append, List.flatMap_singleton,
        h.none_later _ (Nat.lt_succ_of_le hle), List.append_nil]
      rfl

/-- More is sent to the latest connection alone. -/
theorem append (h : ByConnection id latest log)
    (hmoved : ∀ g e, Move.sent id g e ∈ moved → g = latest) :
    ByConnection id latest (log ++ moved) := by
  have hother : ∀ g, g ≠ latest → sentVia id g moved = [] := by
    intro g hg
    refine List.filterMap_eq_nil_iff.mpr fun m hm => ?_
    cases m with
    | sent id' g' e =>
      refine if_neg fun hkey => hg ?_
      obtain ⟨rfl, rfl⟩ := hkey
      exact hmoved _ e hm
    | _ => rfl
  have hsame : sentVia id latest moved = sentTo id moved := by
    refine List.filterMap_congr fun m hm => ?_
    cases m with
    | sent id' g' e =>
      by_cases hid : id' = id
      · subst hid
        simp [hmoved g' e hm]
      · simp [hid]
    | _ => rfl
  refine ⟨fun g hg => ?_, ?_⟩
  · rw [sentVia_append, h.none_later g hg, hother g (Nat.ne_of_gt hg), List.append_nil]
  · have hbefore : ∀ log', (∀ g < latest, sentVia id g log' = sentVia id g log) →
        sentOver id latest log' = (List.range latest).flatMap (fun g => sentVia id g log) ++
          sentVia id latest log' := by
      intro log' hlog'
      rw [sentOver, List.range_succ, List.flatMap_append, List.flatMap_singleton]
      congr 1
      exact List.flatMap_congr fun g hg => hlog' g (List.mem_range.mp hg)
    have hlog := hbefore log fun _ _ => rfl
    rw [hbefore (log ++ moved) fun g hg => by
        rw [sentVia_append, hother g (Nat.ne_of_lt hg), List.append_nil],
      sentVia_append, ← List.append_assoc, ← hlog, h.in_turn, hsame, sentTo_append]

end ByConnection

/-- A history sends to one connection of a subscriber after another. -/
theorem run_byConnection {ops : List Op} {past : List Move} (hready : Ready first h ops)
    (hs : h.find? id = some s) (hstays : h.stays id ops = true)
    (hpast : ByConnection id s.generation past) :
    ∃ t, (h.run ops).find? id = some t ∧ ByConnection id t.generation (past ++ h.log ops) := by
  induction ops generalizing h s past with
  | nil => exact ⟨s, hs, by rwa [log, List.append_nil]⟩
  | cons op rest ih =>
    simp only [stays, Bool.and_eq_true] at hstays
    obtain ⟨t, ht, -, hgeneration⟩ := apply_seat hready.sound hs hstays.1
    have hmoved : ∀ g e, Move.sent id g e ∈ h.moves op → g = t.generation := by
      intro g e hm
      obtain ⟨u, hu, rfl⟩ := apply_sentNow h op id g e hm
      rw [Option.some.inj (hu.symm.trans ht)]
    have hnext := ih hready.step ht hstays.2 ((hpast.mono hgeneration).append hmoved)
    rwa [List.append_assoc] at hnext

/-! ## The load of a hub -/

/-- How many envelopes wait in the backlogs of all subscribers. -/
def waitingCount (h : Hub) : Nat := (h.subscribers.map (·.backlog.length)).sum

/-- All that the hub has sent or evicted, and all that waits. -/
def load (h : Hub) : Nat := h.counters.delivered + h.counters.evicted + h.waitingCount

/-- How many subscribers an operation publishes to. -/
def heard (h : Hub) : Op → Nat
  | .publish e => (h.audience e.session).length
  | _ => 0

/-- How often a history publishes something to someone. -/
def pairs (h : Hub) : List Op → Nat
  | [] => 0
  | op :: rest => h.heard op + (h.apply op).pairs rest

/-- Whether an operation may drop what waits: it forgets subscribers, or what waits for them. -/
def Op.forgets : Op → Bool
  | .switchSession _ _ => true
  | .control _ text _ =>
    match Control.read? text with
    | some (.switchSession _) => true
    | _ => false
  | .unsubscribe _ => true
  | .reap _ => true
  | _ => false

theorem nodup_of_sameSeats (hnodup : (h.subscribers.map (·.id)).Nodup) (hsame : SameSeats h h') :
    (h'.subscribers.map (·.id)).Nodup := by
  have hids : ∀ g : Hub, g.subscribers.map (·.id) = (g.subscribers.map seat).map (·.1) := by
    intro g
    rw [List.map_map]
    rfl
  rw [hids, hsame.subscribers, ← hids]
  exact hnodup

/-- Where one backlog changes, the number of waiting envelopes changes with it. -/
theorem waitingCount_update (hnodup : (h.subscribers.map (·.id)).Nodup) (hs : h.find? id = some s)
    (f : Subscriber → Subscriber) :
    (h.update id f).waitingCount + s.backlog.length = h.waitingCount + (f s).backlog.length := by
  obtain ⟨hid, before, after, hsplit, hbefore⟩ := List.find?_eq_some_iff_append.mp hs
  have hid : s.id = id := by simpa using hid
  have hsame : ∀ l : List Subscriber, (∀ t ∈ l, t.id ≠ id) →
      l.map (fun t => if t.id = id then f t else t) = l := by
    intro l hl
    exact (List.map_congr_left fun t ht => if_neg (hl t ht)).trans (List.map_id' l)
  have hafter : ∀ t ∈ after, t.id ≠ id := by
    rw [hsplit, List.map_append, List.map_cons] at hnodup
    have hfirst := (List.nodup_cons.mp (List.nodup_append.mp hnodup).2.1).1
    intro t ht he
    exact hfirst (hid ▸ he ▸ List.mem_map_of_mem ht)
  simp only [waitingCount, update, hsplit, List.map_append, List.map_cons, List.sum_append,
    List.sum_cons, if_pos hid, hsame before fun t ht => by simpa using hbefore t ht,
    hsame after hafter]
  omega

/-- A change that leaves backlogs alone leaves the number of waiting envelopes. -/
theorem waitingCount_update_same {f : Subscriber → Subscriber}
    (hf : ∀ t, (f t).backlog = t.backlog) :
    (h.update id f).waitingCount = h.waitingCount := by
  simp only [waitingCount, update, List.map_map]
  congr 1
  refine List.map_congr_left fun t _ => ?_
  simp only [Function.comp_apply]
  split
  · rw [hf]
  · rfl

theorem load_unplug (h : Hub) (id : String) : (h.update id h.unplug).load = h.load :=
  congrArg (h.counters.delivered + h.counters.evicted + ·) (waitingCount_update_same fun _ => rfl)

theorem load_enqueue (hnodup : (h.subscribers.map (·.id)).Nodup) (hs : h.find? id = some s)
    (e : Envelope) : (h.enqueue id e).load = h.load + 1 := by
  have hcases := enqueue_cases h id e
  generalize h.enqueue id e = h' at hcases
  cases hcases with
  | unknown absent => rw [hs] at absent; cases absent
  | evicted t known nothing =>
    simp only [load, waitingCount]
    omega
  | queued t known some_wait =>
    obtain rfl : s = t := Option.some.inj (hs.symm.trans known)
    have hwaiting := waitingCount_update hnodup hs fun t => { t with
      backlog := t.backlog.drop (s.backlog.length + 1 - h.config.backlog) ++ [e] }
    simp only [List.length_append, List.length_drop, List.length_singleton] at hwaiting
    simp only [load]
    change h.counters.delivered + (h.counters.evicted + _) + (h.update id _).waitingCount = _
    omega

theorem load_flush (hnodup : (h.subscribers.map (·.id)).Nodup) : (h.flush id).2.load = h.load := by
  cases hs : h.find? id with
  | none => rw [flush, hs]
  | some s =>
    obtain rfl := id_of_find? hs
    have hcases := flush_cases hs
    generalize h.flush s.id = r at hcases
    cases hcases with
    | idle => rfl
    | gone => exact load_unplug h s.id
    | full => rfl
    | moved c n connected channel held count =>
      have hwaiting := waitingCount_update hnodup hs fun t => { t with backlog := s.backlog.drop n }
      simp only [List.length_drop] at hwaiting
      have hlength : (s.backlog.take n).length = n := by
        rw [List.length_take]
        omega
      simp only [load, push, hlength]
      change h.counters.delivered + n + h.counters.evicted + (h.update s.id _).waitingCount = _
      omega

theorem load_refill (hnodup : (h.subscribers.map (·.id)).Nodup) (generation : Nat) :
    (h.refill id generation).load = h.load := by
  have hcases := refill_cases h id generation
  generalize h.refill id generation = h' at hcases
  cases hcases with
  | same => rfl
  | flushed => exact load_flush hnodup

theorem load_take (h : Hub) (id : String) (generation : Nat) :
    (h.take id generation).2.load = h.load := by
  have hcases := take_cases h id generation
  generalize h.take id generation = r at hcases
  cases hcases <;> rfl

theorem load_disconnect (h : Hub) (id : String) (generation : Nat) :
    (h.disconnect id generation).2.load = h.load := by
  have hcases := disconnect_cases h id generation
  generalize h.disconnect id generation = r at hcases
  cases hcases with
  | same => rfl
  | ended => exact load_unplug h id

theorem load_reconnect (hsound : Sound first h) (id : String) :
    (h.reconnect id).2.load = h.load := by
  cases hs : h.find? id with
  | none => rw [reconnect, hs]
  | some s =>
    obtain rfl := id_of_find? hs
    have hrejoined : ((h.rejoin s).subscribers.map (·.id)).Nodup := (hsound.rejoin hs).nodup
    rw [reconnect_eq hs, load_flush hrejoined]
    exact congrArg (h.counters.delivered + h.counters.evicted + ·)
      (waitingCount_update_same fun _ => rfl)

theorem load_deliver (hnodup : (h.subscribers.map (·.id)).Nodup) (hs : h.find? id = some s)
    (e : Envelope) : (h.deliver id e).2.load = h.load + 1 := by
  have hcases := deliver_cases h id e
  generalize h.deliver id e = r at hcases
  cases hcases with
  | unknown absent => rw [hs] at absent; cases absent
  | sent t =>
    change h.counters.delivered + 1 + h.counters.evicted + h.waitingCount = h.load + 1
    simp only [load]
    omega
  | full => exact load_enqueue hnodup hs e
  | gone =>
    rw [load_enqueue (nodup_of_sameSeats hnodup .unplug)
      (find?_update_self (f := h.unplug) hs fun _ => rfl) e, load_unplug]
  | behind =>
    rw [load_flush (nodup_of_sameSeats hnodup (.enqueue e)), load_enqueue hnodup hs e]

theorem load_deliverAll (hnodup : (h.subscribers.map (·.id)).Nodup) {ids : List String}
    (hknown : ∀ id ∈ ids, ∃ s, h.find? id = some s) (e : Envelope) :
    (h.deliverAll e ids).2.load = h.load + ids.length := by
  induction ids generalizing h with
  | nil => rfl
  | cons id rest ih =>
    obtain ⟨s, hs⟩ := hknown id List.mem_cons_self
    have hsame : SameSeats h (h.deliver id e).2 := .deliver e
    have hrest := ih (nodup_of_sameSeats hnodup hsame) fun id' hid' =>
      have ⟨t, ht⟩ := hknown id' (List.mem_cons_of_mem id hid')
      have ⟨u, hu, _⟩ := hsame.find?_of ht
      ⟨u, hu⟩
    rw [load_deliver hnodup hs e] at hrest
    rw [List.length_cons]
    change ((h.deliver id e).2.deliverAll e rest).2.load = _
    omega

/-- Publishing adds one to the load for each subscriber of the session. -/
theorem load_publish (hsound : Sound first h) (e : Envelope) :
    (h.publish e).2.load = h.load + (h.audience e.session).length := by
  refine load_deliverAll (h := h.countPublished) hsound.nodup (fun id hid => ?_) e
  obtain ⟨s, hs, -⟩ := (mem_audience hsound e.session).mp hid
  exact ⟨s, hs⟩

/-- An operation that forgets nothing adds to the load what it publishes to someone. -/
theorem load_apply (hsound : Sound first h) {op : Op} (hkept : op.forgets = false) :
    (h.apply op).load = h.load + h.heard op := by
  cases op with
  | publish e => exact load_publish hsound e
  | subscribe session =>
    simp only [apply, subscribe, load, waitingCount, heard, List.map_append, List.sum_append]
    rfl
  | receive id generation =>
    change ((h.refill id generation).take id generation).2.load = _
    rw [load_take, load_refill hsound.nodup]
    rfl
  | release id generation => rfl
  | disconnect id generation => exact load_disconnect h id generation
  | reconnect id => exact load_reconnect hsound id
  | control id text time =>
    simp only [Op.forgets] at hkept
    simp only [apply, control]
    cases hm : Control.read? text with
    | none => rfl
    | some message =>
      cases message with
      | switchSession session => simp [hm] at hkept
      | ping => rfl
  | wait span => rfl
  | switchSession id session => cases hkept
  | unsubscribe id => cases hkept
  | reap idle => cases hkept

theorem load_run {ops : List Op} (hready : Ready first h ops)
    (hkept : ∀ op ∈ ops, op.forgets = false) : (h.run ops).load = h.load + h.pairs ops := by
  induction ops generalizing h with
  | nil => rfl
  | cons op rest ih =>
    have hnext := ih hready.step fun op' hop' => hkept op' (List.mem_cons_of_mem op hop')
    rw [load_apply hready.sound (hkept op List.mem_cons_self)] at hnext
    rw [run_cons, hnext, pairs, Nat.add_assoc]

/-! ## Conservation -/

/-- A subscriber is found where it has just subscribed, with empty buffers. -/
theorem subscribed (hsound : Sound first h) (hnext : h.next < first + idCount) (session : String) :
    (h.subscribe session).2.find? (subscriberId h.next) =
        some ⟨subscriberId h.next, session, true, [], none, 0⟩ ∧
      ∀ g, (h.subscribe session).2.queueOf (subscriberId h.next) g = [] := by
  have hnew : h.subscribers.find? (·.id == subscriberId h.next) = none :=
    List.find?_eq_none.mpr fun s hs => by
      simpa [subscriberId] using (hsound.subscribers s hs).ne hnext
  have hunheard : ∀ g, h.channel? (subscriberId h.next) g = none := fun g =>
    List.find?_eq_none.mpr fun c hc => by
      have := (hsound.channels c hc).ne hnext
      simp [subscriberId, this]
  refine ⟨?_, fun g => ?_⟩
  · simp only [find?, subscribe, List.find?_append, hnew, Option.none_or]
    simp
  · rw [Flow.queueOf_append (h := h) rfl rfl, queueOf, hunheard]

/-- From empty buffers on, a history conserves what is published to a subscriber that stays. -/
theorem new_conserves {ops : List Op} (hready : Ready first h ops) (hs : h.find? id = some s)
    (hbacklog : s.backlog = []) (hqueues : ∀ g, h.queueOf id g = [])
    (hstays : h.stays id ops = true) :
    ∃ t, (h.run ops).find? id = some t ∧ t.session = s.session ∧
      Buffered (publishedTo s.session ops) (sentOver id t.generation (h.log ops)) t.backlog
        (evictedFrom id (h.log ops)) ∧
      ∀ g, Buffered (sentVia id g (h.log ops)) (receivedVia id g (h.log ops))
        ((h.run ops).queueOf id g) (lostVia id g (h.log ops)) := by
  obtain ⟨hflow, t, ht, hsession⟩ := run_flow hready hs hstays
  obtain ⟨u, hu, hturn⟩ := run_byConnection hready hs hstays (.nil _ _)
  obtain rfl : t = u := Option.some.inj (ht.symm.trans hu)
  rw [List.nil_append] at hturn
  refine ⟨t, ht, hsession, ?_, fun g => ?_⟩
  · have hlaw := hflow.backlog
    rwa [waiting_eq hs, waiting_eq ht, hbacklog, ← hturn.in_turn] at hlaw
  · have hlaw := hflow.channel g
    rwa [hqueues g] at hlaw

/-- All that is published to a session since a subscriber subscribed to it is sent to one of its
connections after another, waits for it, or is evicted; and in a history that forgets nothing, all
pairs of a published envelope and one to whom it is published are counted. -/
theorem hub_conserves (config : HubConfig) (next : Nat) :
    (∀ (before after : List Op) (session : String) (sub : Subscription) (h : Hub),
      (before ++ .subscribe session :: after).countP Op.isSubscribe ≤ idCount →
      ((Hub.empty config next).run before).subscribe session = (sub, h) →
      h.stays sub.id after = true →
      ∃ s, (h.run after).find? sub.id = some s ∧ s.session = session ∧
        Buffered (publishedTo session after) (sentOver sub.id s.generation (h.log after)) s.backlog
          (evictedFrom sub.id (h.log after)) ∧
        ((publishedTo session after).Nodup →
          (sentOver sub.id s.generation (h.log after)).Nodup) ∧
        ∀ g, Buffered (sentVia sub.id g (h.log after)) (receivedVia sub.id g (h.log after))
          ((h.run after).queueOf sub.id g) (lostVia sub.id g (h.log after))) ∧
    ∀ ops : List Op, ops.countP Op.isSubscribe ≤ idCount → (∀ op ∈ ops, op.forgets = false) →
      let h := (Hub.empty config next).run ops
      h.counters.delivered + h.counters.evicted + h.waitingCount =
        (Hub.empty config next).pairs ops := by
  refine ⟨fun before after session sub h hids hsub hstays => ?_, fun ops hids hkept => ?_⟩
  · obtain ⟨rfl, rfl⟩ : sub = (((Hub.empty config next).run before).subscribe session).1 ∧
        h = (((Hub.empty config next).run before).subscribe session).2 := by simp [hsub]
    have hready := (Ready.empty config next hids).run
    obtain ⟨hfound, hqueues⟩ := subscribed hready.sound (hready.lt_of_isSubscribe rfl) session
    obtain ⟨t, ht, hsession, hbacklog, hchannel⟩ :=
      new_conserves hready.step hfound rfl hqueues hstays
    refine ⟨t, ht, hsession, hbacklog, fun hdistinct => ?_, hchannel⟩
    exact (List.nodup_append.mp (List.nodup_append.mp (hbacklog.nodup hdistinct)).1).1
  · have hload := load_run (.empty config next hids) hkept
    simpa [load, Hub.empty, waitingCount] using hload

/-- An envelope of a session, told from others by a number. -/
def numbered (session : String) (n : Int) : Envelope := ⟨"k", session, ⟨n, 0⟩, .null⟩

/-- An observer leaves, misses more than its backlog holds, and comes back. -/
def comeAndGo : List Op :=
  [.publish (numbered "a" 1), .receive (subscriberId 0) 0, .disconnect (subscriberId 0) 0,
    .publish (numbered "a" 2), .publish (numbered "b" 3), .publish (numbered "a" 4),
    .reconnect (subscriberId 0), .publish (numbered "a" 5), .publish (numbered "a" 6)]

/-- An observer of a session in a hub with the smallest buffers. -/
def smallest : Hub := ((Hub.empty ⟨1, 1⟩ 0).subscribe "a").2

theorem hub_conserves_comeAndGo :
    smallest.stays (subscriberId 0) comeAndGo = true ∧
      (∃ s, (smallest.run comeAndGo).find? (subscriberId 0) = some s ∧
        Buffered (publishedTo "a" comeAndGo)
          (sentOver (subscriberId 0) s.generation (smallest.log comeAndGo)) s.backlog
          (evictedFrom (subscriberId 0) (smallest.log comeAndGo))) ∧
      (∀ op ∈ Op.subscribe "a" :: comeAndGo, op.forgets = false) ∧
      let h := (Hub.empty ⟨1, 1⟩ 0).run (.subscribe "a" :: comeAndGo)
      h.counters.delivered + h.counters.evicted + h.waitingCount =
        (Hub.empty ⟨1, 1⟩ 0).pairs (.subscribe "a" :: comeAndGo) := by
  have hids : (Op.subscribe "a" :: comeAndGo).countP Op.isSubscribe ≤ idCount := by decide +kernel
  have hkept : ∀ op ∈ Op.subscribe "a" :: comeAndGo, op.forgets = false := by decide +kernel
  have hstays : smallest.stays (subscriberId 0) comeAndGo = true := by decide +kernel
  obtain ⟨hone, hall⟩ := hub_conserves ⟨1, 1⟩ 0
  obtain ⟨s, hs, -, hlaw, -⟩ := hone [] comeAndGo "a" _ _ hids rfl hstays
  exact ⟨hstays, ⟨s, hs, hlaw⟩, hkept, hall _ hids hkept⟩

/-- The first envelope and the last before the return were sent; two found no place. -/
example :
    (sentOver (subscriberId 0) 1 (smallest.log comeAndGo)).map (·.time.seconds) = [1, 4] ∧
      ((smallest.run comeAndGo).waiting (subscriberId 0)).map (·.time.seconds) = [6] ∧
      (evictedFrom (subscriberId 0) (smallest.log comeAndGo)).map (·.time.seconds) = [2, 5] := by
  decide +kernel

end Hub
end ContextBudget
