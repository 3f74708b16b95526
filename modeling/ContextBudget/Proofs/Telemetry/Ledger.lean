import ContextBudget.Proofs.Telemetry.History

/-!
# The ledger of a hub

What the operations of a history move: into channels, out of full backlogs, to observers, and away
with dropped channels.

- `Hub.log`: all that a history moves, in order.
- `OnlyTouches`, `AllAbout`: what is done to one subscriber is neither seen by the others nor
  about them.
- `apply_counted`, `run_counted`: the hub counts what it sends and what it evicts.
-/

namespace ContextBudget

namespace Hub

/-! ## Moves -/

/-- One envelope on its way. -/
inductive Move where
  /-- It came into the channel of a connection. -/
  | sent (id : String) (generation : Nat) (e : Envelope)
  /-- There was no place for it in the backlog any more. -/
  | evicted (id : String) (e : Envelope)
  /-- The observer of a connection received it. -/
  | received (id : String) (generation : Nat) (e : Envelope)
  /-- It was unread when the observer dropped its end of the channel. -/
  | lost (id : String) (generation : Nat) (e : Envelope)
  deriving Repr

namespace Move

/-- The subscriber that a move is about. -/
def subscriber : Move → String
  | sent id _ _ => id
  | evicted id _ => id
  | received id _ _ => id
  | lost id _ _ => id

/-- Whether an envelope came into a channel. -/
def isSent : Move → Bool
  | sent _ _ _ => true
  | _ => false

/-- Whether an envelope was evicted. -/
def isEvicted : Move → Bool
  | evicted _ _ => true
  | _ => false

end Move

/-- What came into the channels of a subscriber. -/
def sentTo (id : String) (log : List Move) : List Envelope :=
  log.filterMap fun
    | .sent id' _ e => if id' = id then some e else none
    | _ => none

/-- What was evicted from the backlog of a subscriber. -/
def evictedFrom (id : String) (log : List Move) : List Envelope :=
  log.filterMap fun
    | .evicted id' e => if id' = id then some e else none
    | _ => none

/-- What came into the channel of a connection. -/
def sentVia (id : String) (generation : Nat) (log : List Move) : List Envelope :=
  log.filterMap fun
    | .sent id' g e => if id' = id ∧ g = generation then some e else none
    | _ => none

/-- What the observer of a connection received. -/
def receivedVia (id : String) (generation : Nat) (log : List Move) : List Envelope :=
  log.filterMap fun
    | .received id' g e => if id' = id ∧ g = generation then some e else none
    | _ => none

/-- What was dropped unread with the channel of a connection. -/
def lostVia (id : String) (generation : Nat) (log : List Move) : List Envelope :=
  log.filterMap fun
    | .lost id' g e => if id' = id ∧ g = generation then some e else none
    | _ => none

@[simp] theorem sentTo_append (id : String) (log log' : List Move) :
    sentTo id (log ++ log') = sentTo id log ++ sentTo id log' := List.filterMap_append

@[simp] theorem evictedFrom_append (id : String) (log log' : List Move) :
    evictedFrom id (log ++ log') = evictedFrom id log ++ evictedFrom id log' :=
  List.filterMap_append

@[simp] theorem sentVia_append (id : String) (generation : Nat) (log log' : List Move) :
    sentVia id generation (log ++ log') = sentVia id generation log ++ sentVia id generation log' :=
  List.filterMap_append

@[simp] theorem receivedVia_append (id : String) (generation : Nat) (log log' : List Move) :
    receivedVia id generation (log ++ log') =
      receivedVia id generation log ++ receivedVia id generation log' := List.filterMap_append

@[simp] theorem lostVia_append (id : String) (generation : Nat) (log log' : List Move) :
    lostVia id generation (log ++ log') = lostVia id generation log ++ lostVia id generation log' :=
  List.filterMap_append

/-- What waits in the backlog of a subscriber. -/
def waiting (h : Hub) (id : String) : List Envelope :=
  match h.find? id with
  | none => []
  | some s => s.backlog

/-- What the channel of a connection holds. -/
def queueOf (h : Hub) (id : String) (generation : Nat) : List Envelope :=
  match h.channel? id generation with
  | none => []
  | some c => c.queue

/-- What leaves a backlog, oldest first, when one more envelope has to wait. -/
def overflow (h : Hub) (s : Subscriber) (e : Envelope) : List Envelope :=
  if h.config.backlog = 0 then [e] else s.backlog.take (s.backlog.length + 1 - h.config.backlog)

/-- What is moved when an envelope has to wait. -/
def enqueueMoves (h : Hub) (id : String) (e : Envelope) : List Move :=
  match h.find? id with
  | none => []
  | some s => (h.overflow s e).map (.evicted id)

/-- What is moved when a backlog is flushed. -/
def flushMoves (h : Hub) (id : String) : List Move :=
  match h.find? id with
  | none => []
  | some s => (s.backlog.take (h.flush id).1).map (.sent id s.generation)

/-- What is moved when an envelope is given to a subscriber. -/
def deliverMoves (h : Hub) (id : String) (e : Envelope) : List Move :=
  match h.find? id with
  | none => []
  | some s =>
    if s.backlog.isEmpty && s.connected then
      match h.offer s with
      | .accepted => [.sent id s.generation e]
      | .full => h.enqueueMoves id e
      | .gone => h.enqueueMoves id e
    else h.enqueueMoves id e ++ (h.enqueue id e).flushMoves id

/-- What is moved when an envelope is given to one subscriber after another. -/
def deliverAllMoves (h : Hub) (e : Envelope) : List String → List Move
  | [] => []
  | id :: rest => h.deliverMoves id e ++ (h.deliver id e).2.deliverAllMoves e rest

/-- The subscribers of a session. -/
def audience (h : Hub) (session : String) : List String :=
  (h.subscribers.filter (·.session == session)).map (·.id)

/-- What is moved into a channel before it is read. -/
def refillMoves (h : Hub) (id : String) (generation : Nat) : List Move :=
  match h.find? id with
  | some s => if s.generation = generation then h.flushMoves id else []
  | none => []

/-- What is moved when a channel is read as it is. -/
def takeMoves (h : Hub) (id : String) (generation : Nat) : List Move :=
  match (h.take id generation).1 with
  | .envelope e => [.received id generation e]
  | _ => []

/-- The hub in which a subscriber has a new channel, before what waits is moved into it. -/
def rejoin (h : Hub) (s : Subscriber) : Hub :=
  { h.update s.id (fun t => { t with
      connected := true, idleSince := none, generation := s.generation + 1 }) with
    channels := h.channels ++ [⟨s.id, s.generation + 1, [], true⟩] }

/-- The hub that has counted one more envelope as published. -/
def countPublished (h : Hub) : Hub :=
  { h with counters := { h.counters with published := h.counters.published + 1 } }

/-- What is moved by an operation. -/
def moves (h : Hub) : Op → List Move
  | .publish e => h.countPublished.deliverAllMoves e (h.audience e.session)
  | .receive id generation =>
    h.refillMoves id generation ++ (h.refill id generation).takeMoves id generation
  | .release id generation => (h.queueOf id generation).map (.lost id generation)
  | .reconnect id =>
    match h.find? id with
    | none => []
    | some s => (h.rejoin s).flushMoves id
  | _ => []

/-- All that a history moves. -/
def log (h : Hub) : List Op → List Move
  | [] => []
  | op :: rest => h.moves op ++ (h.apply op).log rest

/-! ## Who hears of a session -/

/-- A subscriber is in the audience of the session that it watches. -/
theorem mem_audience {h : Hub} {id : String} {first : Nat} (hsound : Sound first h)
    (session : String) :
    id ∈ h.audience session ↔ ∃ s, h.find? id = some s ∧ s.session = session := by
  simp only [audience, List.mem_map, List.mem_filter, beq_iff_eq]
  constructor
  · rintro ⟨s, ⟨hs, hsession⟩, rfl⟩
    exact ⟨s, hsound.find? hs, hsession⟩
  · rintro ⟨s, hs, hsession⟩
    exact ⟨s, ⟨mem_of_find? hs, hsession⟩, id_of_find? hs⟩

theorem nodup_audience {h : Hub} {first : Nat} (hsound : Sound first h) (session : String) :
    (h.audience session).Nodup :=
  (List.filter_sublist.map _).nodup hsound.nodup

/-! ## What an operation does to other subscribers -/

/-- Whoever is not the subscriber `id` finds itself and its channels as they were. -/
def OnlyTouches (id : String) (h h' : Hub) : Prop :=
  ∀ id', id' ≠ id → h'.find? id' = h.find? id' ∧ ∀ g, h'.channel? id' g = h.channel? id' g

namespace OnlyTouches

variable {h h' h'' : Hub} {id : String}

theorem refl (h : Hub) : OnlyTouches id h h := fun _ _ => ⟨rfl, fun _ => rfl⟩

theorem trans (h₁ : OnlyTouches id h h') (h₂ : OnlyTouches id h' h'') : OnlyTouches id h h'' :=
  fun id' hid => ⟨((h₂ id' hid).1).trans (h₁ id' hid).1,
    fun g => ((h₂ id' hid).2 g).trans ((h₁ id' hid).2 g)⟩

theorem update {f : Subscriber → Subscriber} (hf : ∀ t, (f t).id = t.id) :
    OnlyTouches id h (h.update id f) := by
  intro id' hid
  refine ⟨?_, fun _ => rfl⟩
  rw [find?_update hf, if_neg hid]

theorem updateChannel {generation : Nat} {f : Channel → Channel}
    (hf : ∀ d, (f d).subscriber = d.subscriber ∧ (f d).generation = d.generation) :
    OnlyTouches id h (h.updateChannel id generation f) := by
  intro id' hid
  refine ⟨rfl, fun g => ?_⟩
  rw [channel?_updateChannel hf, if_neg fun he => hid he.1]

/-- Counters belong to no subscriber. -/
theorem count (h₁ : OnlyTouches id h h') (counters : HubCounters) :
    OnlyTouches id h { h' with counters } := h₁

theorem send {s : Subscriber} (e : Envelope) : OnlyTouches s.id h (h.send s e) :=
  (updateChannel (f := fun c => { c with queue := c.queue ++ [e] }) fun _ => ⟨rfl, rfl⟩).count _

theorem push {s : Subscriber} (sent rest : List Envelope) :
    OnlyTouches s.id h (h.push s sent rest) :=
  ((updateChannel (f := fun c => { c with queue := c.queue ++ sent }) fun _ => ⟨rfl, rfl⟩).trans
    (update (f := fun t => { t with backlog := rest }) fun _ => rfl)).count _

theorem unplug : OnlyTouches id h (h.update id h.unplug) := update fun _ => rfl

theorem enqueue (e : Envelope) : OnlyTouches id h (h.enqueue id e) := by
  have hcases := enqueue_cases h id e
  generalize h.enqueue id e = h' at hcases
  cases hcases with
  | unknown => exact refl h
  | evicted => exact (refl h).count _
  | queued s =>
    exact (update (f := fun t => { t with
      backlog := t.backlog.drop (s.backlog.length + 1 - h.config.backlog) ++ [e] })
      fun _ => rfl).count _

theorem flush : OnlyTouches id h (h.flush id).2 := by
  cases hs : h.find? id with
  | none =>
    rw [Hub.flush, hs]
    exact refl h
  | some s =>
    obtain rfl := id_of_find? hs
    have hcases := flush_cases hs
    generalize h.flush s.id = r at hcases
    cases hcases with
    | idle => exact refl h
    | gone => exact unplug
    | full => exact refl h
    | moved => exact push _ _

theorem deliver (e : Envelope) : OnlyTouches id h (h.deliver id e).2 := by
  have hcases := deliver_cases h id e
  generalize h.deliver id e = r at hcases
  cases hcases with
  | unknown => exact refl h
  | sent s known =>
    obtain rfl := id_of_find? known
    exact send e
  | full => exact enqueue e
  | gone => exact unplug.trans (enqueue e)
  | behind => exact (enqueue e).trans flush

theorem rejoin (s : Subscriber) : OnlyTouches s.id h (h.rejoin s) := by
  intro id' hid
  have hseated : OnlyTouches s.id h (h.update s.id fun t => { t with
      connected := true, idleSince := none, generation := s.generation + 1 }) := update fun _ => rfl
  have hupdate := hseated id' hid
  refine ⟨hupdate.1, fun g => ?_⟩
  have hnew : (s.id == id' && s.generation + 1 == g) = false := by simp [Ne.symm hid]
  simp only [channel?, Hub.rejoin, List.find?_append, List.find?_singleton, hnew]
  exact Option.or_none

theorem disconnect (generation : Nat) : OnlyTouches id h (h.disconnect id generation).2 := by
  have hcases := disconnect_cases h id generation
  generalize h.disconnect id generation = r at hcases
  cases hcases with
  | same => exact refl h
  | ended => exact unplug

theorem take (generation : Nat) : OnlyTouches id h (h.take id generation).2 := by
  have hcases := take_cases h id generation
  generalize h.take id generation = r at hcases
  cases hcases with
  | nothing => exact refl h
  | first => exact updateChannel fun _ => ⟨rfl, rfl⟩

theorem refill (generation : Nat) : OnlyTouches id h (h.refill id generation) := by
  have hcases := refill_cases h id generation
  generalize h.refill id generation = h' at hcases
  cases hcases with
  | same => exact refl h
  | flushed => exact flush

end OnlyTouches

/-- Moves that are all about one subscriber. -/
def AllAbout (id : String) (log : List Move) : Prop := ∀ m ∈ log, m.subscriber = id

theorem AllAbout.append {id : String} {log log' : List Move} (h : AllAbout id log)
    (h' : AllAbout id log') : AllAbout id (log ++ log') :=
  fun m hm => (List.mem_append.mp hm).elim (h m) (h' m)

theorem AllAbout.map {α : Type} {id : String} (f : α → Move) (hf : ∀ a, (f a).subscriber = id)
    (l : List α) : AllAbout id (l.map f) := by
  intro m hm
  obtain ⟨a, -, rfl⟩ := List.mem_map.mp hm
  exact hf a

theorem AllAbout.nil (id : String) : AllAbout id [] := fun _ hm => nomatch hm

theorem AllAbout.singleton {id : String} {m : Move} (hm : m.subscriber = id) : AllAbout id [m] :=
  fun _ hm' => List.mem_singleton.mp hm' ▸ hm

/-- What is read of one subscriber off moves about another is nothing. -/
theorem AllAbout.filterMap_eq_nil {id id' : String} {log : List Move} (habout : AllAbout id' log)
    (hid : id ≠ id') {f : Move → Option Envelope} (hf : ∀ m : Move, m.subscriber ≠ id → f m = none) :
    log.filterMap f = [] :=
  List.filterMap_eq_nil_iff.mpr fun m hm => hf m (habout m hm ▸ hid.symm)

variable {h h' h'' : Hub} {id : String} {s : Subscriber} {e : Envelope}

theorem enqueueMoves_about (h : Hub) (id : String) (e : Envelope) :
    AllAbout id (h.enqueueMoves id e) := by
  unfold enqueueMoves
  split
  · exact .nil id
  · exact .map (.evicted id) (fun _ => rfl) _

theorem flushMoves_about (h : Hub) (id : String) : AllAbout id (h.flushMoves id) := by
  unfold flushMoves
  split
  · exact .nil id
  · exact .map (.sent id _) (fun _ => rfl) _

theorem deliverMoves_about (h : Hub) (id : String) (e : Envelope) :
    AllAbout id (h.deliverMoves id e) := by
  unfold deliverMoves
  split
  · exact .nil id
  · split
    · split
      · exact .singleton rfl
      · exact enqueueMoves_about h id e
      · exact enqueueMoves_about h id e
    · exact (enqueueMoves_about h id e).append (flushMoves_about _ id)

theorem refillMoves_about (h : Hub) (id : String) (generation : Nat) :
    AllAbout id (h.refillMoves id generation) := by
  unfold refillMoves
  split
  · split
    · exact flushMoves_about h id
    · exact .nil id
  · exact .nil id

theorem takeMoves_about (h : Hub) (id : String) (generation : Nat) :
    AllAbout id (h.takeMoves id generation) := by
  unfold takeMoves
  split
  · exact .singleton rfl
  · exact .nil id

/-! ## Subscribers after an operation -/

theorem find?_update_self {f : Subscriber → Subscriber} (hs : h.find? id = some s)
    (hf : ∀ t, (f t).id = t.id) : (h.update id f).find? id = some (f s) := by
  rw [find?_update hf, if_pos rfl, hs, Option.map_some]

/-- A connection makes no difference to what has to wait. -/
theorem enqueueMoves_unplug (h : Hub) (id : String) (e : Envelope) :
    (h.update id h.unplug).enqueueMoves id e = h.enqueueMoves id e := by
  rw [enqueueMoves, enqueueMoves, find?_update (f := h.unplug) fun _ => rfl, if_pos rfl]
  cases h.find? id <;> rfl

theorem find?_rejoin (hs : h.find? s.id = some s) : (h.rejoin s).find? s.id =
    some { s with connected := true, idleSince := none, generation := s.generation + 1 } :=
  find?_update_self (f := fun t => { t with
    connected := true, idleSince := none, generation := s.generation + 1 }) hs fun _ => rfl

theorem reconnect_eq (hs : h.find? s.id = some s) :
    (h.reconnect s.id).2 = ((h.rejoin s).flush s.id).2 := by
  rw [reconnect, hs]
  rfl

/-! ## Counters -/

/-- What was sent and what was evicted has been counted. -/
structure Counted (h h' : Hub) (moved : List Move) : Prop where
  delivered : h'.counters.delivered = h.counters.delivered + moved.countP Move.isSent
  evicted : h'.counters.evicted = h.counters.evicted + moved.countP Move.isEvicted

theorem countP_map_of_all {f : Envelope → Move} {p : Move → Bool} (hp : ∀ e, p (f e) = true)
    (l : List Envelope) : (l.map f).countP p = l.length := by
  rw [List.countP_map]
  exact List.countP_eq_length.mpr fun e _ => hp e

theorem countP_map_of_none {f : Envelope → Move} {p : Move → Bool} (hp : ∀ e, p (f e) = false)
    (l : List Envelope) : (l.map f).countP p = 0 := by
  rw [List.countP_map]
  exact List.countP_eq_zero.mpr fun e _ => by simp [hp e]

namespace Counted

variable {moved moved' : List Move}

theorem trans (h₁ : Counted h h' moved) (h₂ : Counted h' h'' moved') :
    Counted h h'' (moved ++ moved') where
  delivered := by
    have := h₁.delivered
    have := h₂.delivered
    rw [List.countP_append]
    omega
  evicted := by
    have := h₁.evicted
    have := h₂.evicted
    rw [List.countP_append]
    omega

theorem idle (hcounters : h'.counters = h.counters) : Counted h h' [] :=
  ⟨by rw [hcounters]; rfl, by rw [hcounters]; rfl⟩

theorem enqueue (h : Hub) (id : String) (e : Envelope) :
    Counted h (h.enqueue id e) (h.enqueueMoves id e) := by
  have hcases := enqueue_cases h id e
  generalize h.enqueue id e = h' at hcases
  cases hcases with
  | unknown absent =>
    rw [enqueueMoves, absent]
    exact .idle rfl
  | evicted s known nothing =>
    rw [enqueueMoves, known]
    simp only [overflow, if_pos nothing]
    exact ⟨rfl, rfl⟩
  | queued s known some_wait =>
    rw [enqueueMoves, known]
    simp only [overflow, if_neg some_wait]
    refine ⟨?_, ?_⟩
    · rw [countP_map_of_none fun _ => rfl]
      rfl
    · rw [countP_map_of_all fun _ => rfl, List.length_take, Nat.min_eq_left (by omega)]

theorem flush (h : Hub) (id : String) : Counted h (h.flush id).2 (h.flushMoves id) := by
  cases hs : h.find? id with
  | none =>
    rw [flushMoves, hs, Hub.flush, hs]
    exact .idle rfl
  | some s =>
    obtain rfl := id_of_find? hs
    have hmoves : h.flushMoves s.id =
        (s.backlog.take (h.flush s.id).1).map (.sent s.id s.generation) := by rw [flushMoves, hs]
    rw [hmoves]
    have hcases := flush_cases hs
    generalize h.flush s.id = r at hcases
    cases hcases with
    | idle => exact .idle rfl
    | gone => exact .idle rfl
    | full => exact .idle rfl
    | moved c n =>
      refine ⟨?_, ?_⟩
      · rw [countP_map_of_all fun _ => rfl]
        rfl
      · rw [countP_map_of_none fun _ => rfl]
        rfl

theorem deliver (h : Hub) (id : String) (e : Envelope) :
    Counted h (h.deliver id e).2 (h.deliverMoves id e) := by
  have hcases := deliver_cases h id e
  generalize h.deliver id e = r at hcases
  rw [deliverMoves]
  cases hcases with
  | unknown absent =>
    rw [absent]
    exact .idle rfl
  | sent s known first connected accepted =>
    simp only [known, first, connected, accepted, List.isEmpty_nil, Bool.and_self, if_true]
    exact ⟨rfl, rfl⟩
  | full s known first connected refused =>
    simp only [known, first, connected, refused, List.isEmpty_nil, Bool.and_self, if_true]
    exact .enqueue h id e
  | gone s known first connected refused =>
    simp only [known, first, connected, refused, List.isEmpty_nil, Bool.and_self, if_true]
    rw [← enqueueMoves_unplug]
    have hunplug : Counted h (h.update id h.unplug) [] := .idle rfl
    exact hunplug.trans (.enqueue _ id e)
  | behind s known waits =>
    have hwaits : (s.backlog.isEmpty && s.connected) = false := by
      rcases waits with hw | hw <;> simp [hw]
    simp only [known, hwaits, Bool.false_eq_true, if_false]
    exact (enqueue h id e).trans (.flush _ id)

theorem deliverAll (h : Hub) (e : Envelope) (ids : List String) :
    Counted h (h.deliverAll e ids).2 (h.deliverAllMoves e ids) := by
  induction ids generalizing h with
  | nil => exact .idle rfl
  | cons id rest ih => exact (deliver h id e).trans (ih _)

theorem refill (h : Hub) (id : String) (generation : Nat) :
    Counted h (h.refill id generation) (h.refillMoves id generation) := by
  unfold Hub.refill refillMoves
  cases h.find? id with
  | none => exact .idle rfl
  | some s =>
    simp only
    split
    · exact flush h id
    · exact .idle rfl

theorem take (h : Hub) (id : String) (generation : Nat) :
    Counted h (h.take id generation).2 (h.takeMoves id generation) := by
  have hcases := take_cases h id generation
  rw [takeMoves]
  generalize h.take id generation = r at hcases
  cases hcases with
  | nothing r ending =>
    cases r with
    | envelope e => exact absurd rfl (ending e)
    | pending => exact .idle rfl
    | closed => exact .idle rfl
  | first => exact ⟨rfl, rfl⟩

end Counted

/-- The hub counts what an operation sends and evicts. -/
theorem apply_counted (h : Hub) (op : Op) : Counted h (h.apply op) (h.moves op) := by
  cases op with
  | publish e =>
    have hcounted : Counted h h.countPublished [] := ⟨rfl, rfl⟩
    exact hcounted.trans (.deliverAll _ e _)
  | receive id generation => exact (Counted.refill h id generation).trans (.take _ id generation)
  | release id generation =>
    refine ⟨?_, ?_⟩
    · rw [moves, countP_map_of_none fun _ => rfl]
      rfl
    · rw [moves, countP_map_of_none fun _ => rfl]
      rfl
  | disconnect id generation =>
    have hcases := disconnect_cases h id generation
    change Counted h (h.disconnect id generation).2 []
    generalize h.disconnect id generation = r at hcases
    cases hcases <;> exact .idle rfl
  | reconnect id =>
    cases hs : h.find? id with
    | none =>
      simp only [moves, apply, reconnect, hs]
      exact .idle rfl
    | some s =>
      obtain rfl := id_of_find? hs
      have hmoves : h.moves (.reconnect s.id) = (h.rejoin s).flushMoves s.id := by
        simp only [moves, hs]
      rw [hmoves]
      change Counted h (h.reconnect s.id).2 _
      rw [reconnect_eq hs]
      have hrejoin : Counted h (h.rejoin s) [] := .idle rfl
      exact hrejoin.trans (.flush _ s.id)
  | control id text time =>
    simp only [moves, apply, control]
    cases Control.read? text with
    | none => exact ⟨rfl, rfl⟩
    | some message => cases message <;> exact .idle rfl
  | subscribe session => exact .idle rfl
  | switchSession id session => exact .idle rfl
  | unsubscribe id => exact .idle rfl
  | reap idle => exact .idle rfl
  | wait span => exact .idle rfl

/-- The hub counts what a history sends and evicts. -/
theorem run_counted (h : Hub) (ops : List Op) : Counted h (h.run ops) (h.log ops) := by
  induction ops generalizing h with
  | nil => exact .idle rfl
  | cons op rest ih => exact (apply_counted h op).trans (ih _)

end Hub
end ContextBudget
