import ContextBudget.Proofs.Telemetry.Ledger
import Mathlib.Data.List.Basic

/-!
# The flow of envelopes

A backlog and a channel obey one law, that of a bounded buffer: what came in has gone on in order,
waits in order, or is lost.

- `Buffered`: the law of a buffer; `Buffered.trans` joins what happens to it one after another.
- `Flow`: the law for the backlog and for the channels of one subscriber.
- `kept_cases`: what an operation can be to a subscriber that it leaves on its session.
- `apply_flow`, `run_flow`: every operation that leaves a subscriber on its session obeys the law,
  and so does a history.
-/

namespace ContextBudget

/-! ## Buffers -/

/-- What came into a buffer went on in order, still waits in order, or is lost. -/
structure Buffered {α : Type} (came went waits lost : List α) : Prop where
  order : (went ++ waits).Sublist came
  once : came.Perm (went ++ waits ++ lost)

namespace Buffered

variable {α : Type} {came went waits lost more went' waits' lost' : List α}

theorem idle (waits : List α) : Buffered waits [] waits [] :=
  ⟨List.Sublist.refl _, by simp⟩

/-- The first ones are lost to make room. -/
theorem cut (h : came = lost ++ waits) : Buffered came [] waits lost where
  order := h ▸ List.sublist_append_right lost waits
  once := h ▸ List.perm_append_comm

/-- What waits is the start of what comes next. -/
theorem trans (h : Buffered came went waits lost)
    (h' : Buffered (waits ++ more) went' waits' lost') :
    Buffered (came ++ more) (went ++ went') waits' (lost ++ lost') where
  order := by
    have hnext : (went ++ (went' ++ waits')).Sublist (went ++ (waits ++ more)) :=
      h'.order.append_left went
    rw [List.append_assoc]
    refine hnext.trans ?_
    rw [← List.append_assoc]
    exact h.order.append_right more
  once := by
    have hnext : (went ++ waits ++ lost ++ more).Perm (went ++ (waits ++ more) ++ lost) := by
      rw [List.append_assoc _ lost, List.append_assoc, List.append_assoc, List.append_assoc]
      exact ((List.perm_append_comm.append_left waits).append_left went)
    refine (h.once.append_right more).trans (hnext.trans ?_)
    refine ((h'.once.append_left went).append_right lost).trans ?_
    simp only [List.append_assoc]
    exact ((List.perm_append_comm.append_left waits').append_left went').append_left went

/-- What one buffer sends on goes through another. -/
theorem through (h : Buffered came went waits lost) (h' : Buffered went went' waits' lost') :
    Buffered came went' (waits' ++ waits) (lost' ++ lost) where
  order := by
    rw [← List.append_assoc]
    exact (h'.order.append_right waits).trans h.order
  once := by
    refine h.once.trans (((h'.once.append_right waits).append_right lost).trans ?_)
    simp only [List.append_assoc]
    refine (List.Perm.append_left waits' ?_).append_left went'
    rw [← List.append_assoc, ← List.append_assoc]
    exact List.perm_append_comm.append_right lost

/-- If what comes is distinct, nothing goes on twice. -/
theorem nodup (h : Buffered came went waits lost) (hcame : came.Nodup) :
    (went ++ waits ++ lost).Nodup := h.once.nodup_iff.mp hcame

end Buffered

namespace Hub

variable {h h' h'' : Hub} {id : String} {s : Subscriber} {e : Envelope}

/-! ## The law of one subscriber -/

theorem waiting_count (h : Hub) (counters : HubCounters) (id : String) :
    waiting { h with counters } id = h.waiting id := rfl

theorem waiting_eq (hs : h.find? id = some s) : h.waiting id = s.backlog := by rw [waiting, hs]

theorem queueOf_eq {generation : Nat} {c : Channel} (hc : h.channel? id generation = some c) :
    h.queueOf id generation = c.queue := by rw [queueOf, hc]

/-- From one hub to another, `came` came in for a subscriber, and moves tell of its backlog and of
each of its channels what the law of a buffer asks. -/
structure Flow (h h' : Hub) (id : String) (came : List Envelope) (moved : List Move) : Prop where
  backlog : Buffered (h.waiting id ++ came) (sentTo id moved) (h'.waiting id) (evictedFrom id moved)
  channel : ∀ g, Buffered (h.queueOf id g ++ sentVia id g moved) (receivedVia id g moved)
    (h'.queueOf id g) (lostVia id g moved)

namespace Flow

variable {came came' : List Envelope} {moved moved' : List Move}

theorem trans (h₁ : Flow h h' id came moved) (h₂ : Flow h' h'' id came' moved') :
    Flow h h'' id (came ++ came') (moved ++ moved') where
  backlog := by
    have hboth := h₁.backlog.trans h₂.backlog
    rwa [List.append_assoc, ← sentTo_append, ← evictedFrom_append] at hboth
  channel g := by
    have hboth := (h₁.channel g).trans (h₂.channel g)
    rwa [List.append_assoc, ← sentVia_append, ← receivedVia_append, ← lostVia_append] at hboth

/-- Nothing came, nothing moved. -/
theorem idle (hwaiting : h'.waiting id = h.waiting id)
    (hqueue : ∀ g, h'.queueOf id g = h.queueOf id g) : Flow h h' id [] [] where
  backlog := by
    rw [hwaiting, List.append_nil]
    exact .idle _
  channel g := by
    rw [hqueue, show sentVia id g [] = [] from rfl, List.append_nil]
    exact .idle _

/-- Moves about another subscriber are none for this one. -/
theorem of_onlyTouches {id' : String} (htouches : OnlyTouches id' h h')
    (habout : AllAbout id' moved)
    (hid : id ≠ id') : Flow h h' id [] moved := by
  have hnone : ∀ f : Move → Option Envelope, (∀ m, m.subscriber ≠ id → f m = none) →
      moved.filterMap f = [] := fun _ hf => habout.filterMap_eq_nil hid hf
  have hwaiting : h'.waiting id = h.waiting id := by rw [waiting, waiting, (htouches id hid).1]
  have hqueue : ∀ g, h'.queueOf id g = h.queueOf id g := by
    intro g
    rw [queueOf, queueOf, (htouches id hid).2 g]
  have hidle := Flow.idle hwaiting hqueue
  refine ⟨?_, fun g => ?_⟩
  · have hsent : sentTo id moved = [] := hnone _ fun m hm => by
      cases m <;> simp_all [Move.subscriber]
    have hevicted : evictedFrom id moved = [] := hnone _ fun m hm => by
      cases m <;> simp_all [Move.subscriber]
    rw [hsent, hevicted]
    exact hidle.backlog
  · have hsent : sentVia id g moved = [] := hnone _ fun m hm => by
      cases m <;> simp_all [Move.subscriber]
    have hreceived : receivedVia id g moved = [] := hnone _ fun m hm => by
      cases m <;> simp_all [Move.subscriber]
    have hlost : lostVia id g moved = [] := hnone _ fun m hm => by
      cases m <;> simp_all [Move.subscriber]
    rw [hsent, hreceived, hlost]
    exact hidle.channel g

theorem enqueue (hs : h.find? id = some s) (e : Envelope) :
    Flow h (h.enqueue id e) id [e] (h.enqueueMoves id e) := by
  have hmoves : h.enqueueMoves id e = (h.overflow s e).map (.evicted id) := by
    rw [enqueueMoves, hs]
  have hcases := enqueue_cases h id e
  generalize h.enqueue id e = h' at hcases
  refine ⟨?_, fun g => ?_⟩
  · have hsent : sentTo id (h.enqueueMoves id e) = [] := by simp [hmoves, sentTo]
    have hevicted : evictedFrom id (h.enqueueMoves id e) = h.overflow s e := by
      simp [hmoves, evictedFrom]
    rw [hsent, hevicted, waiting_eq hs]
    cases hcases with
    | unknown absent => rw [hs] at absent; cases absent
    | evicted t known nothing =>
      rw [overflow, if_pos nothing, waiting_count, waiting_eq hs]
      exact ⟨List.sublist_append_left _ _, .refl _⟩
    | queued t known some_wait =>
      obtain rfl : s = t := Option.some.inj (hs.symm.trans known)
      rw [overflow, if_neg some_wait, waiting_count, waiting_eq (find?_update_self (f := fun t =>
        { t with backlog := t.backlog.drop (s.backlog.length + 1 - h.config.backlog) ++ [e] }) hs
        fun _ => rfl)]
      refine Buffered.cut ?_
      rw [← List.append_assoc, List.take_append_drop]
  · have hsent : sentVia id g (h.enqueueMoves id e) = [] := by simp [hmoves, sentVia]
    have hreceived : receivedVia id g (h.enqueueMoves id e) = [] := by simp [hmoves, receivedVia]
    have hlost : lostVia id g (h.enqueueMoves id e) = [] := by simp [hmoves, lostVia]
    have hqueue : h'.queueOf id g = h.queueOf id g := by cases hcases <;> rfl
    rw [hsent, hreceived, hlost, hqueue, List.append_nil]
    exact .idle _

theorem unplug : Flow h (h.update id h.unplug) id [] [] := by
  refine .idle ?_ fun _ => rfl
  cases hs : h.find? id with
  | none => rw [waiting, waiting, find?_update (f := h.unplug) fun _ => rfl, if_pos rfl, hs]; rfl
  | some s =>
    rw [waiting_eq hs, waiting_eq (find?_update_self (f := h.unplug) hs fun _ => rfl)]
    rfl

/-- Envelopes that are put at the end of a channel. -/
theorem append {c : Channel} (hc : h.channel? s.id s.generation = some c) (sent : List Envelope)
    (g : Nat) :
    Buffered (h.queueOf s.id g ++ sentVia s.id g (sent.map (.sent s.id s.generation)))
      (receivedVia s.id g (sent.map (.sent s.id s.generation)))
      ((h.updateChannel s.id s.generation fun c =>
        { c with queue := c.queue ++ sent }).queueOf s.id g)
      (lostVia s.id g (sent.map (.sent s.id s.generation))) := by
  have hreceived : receivedVia s.id g (sent.map (.sent s.id s.generation)) = [] := by
    simp [receivedVia]
  have hlost : lostVia s.id g (sent.map (.sent s.id s.generation)) = [] := by simp [lostVia]
  have hchannel := @channel?_updateChannel h s.id (fun c => { c with queue := c.queue ++ sent })
    (fun _ => ⟨rfl, rfl⟩) s.generation s.id g
  rw [hreceived, hlost]
  by_cases hg : g = s.generation
  · subst hg
    rw [if_pos ⟨rfl, rfl⟩, hc, Option.map_some] at hchannel
    have hsent : sentVia s.id s.generation (sent.map (.sent s.id s.generation)) = sent := by
      simp [sentVia]
    rw [hsent, queueOf_eq hc, queueOf_eq hchannel]
    exact .idle _
  · rw [if_neg fun he => hg he.2] at hchannel
    have hsent : sentVia s.id g (sent.map (.sent s.id s.generation)) = [] := by
      simp [sentVia, Ne.symm hg]
    rw [hsent, queueOf, queueOf, hchannel, List.append_nil]
    exact .idle _

/-- Envelopes at the start of a backlog that are moved to the end of the channel. -/
theorem push {c : Channel} (hs : h.find? s.id = some s)
    (hc : h.channel? s.id s.generation = some c) (sent rest : List Envelope)
    (hbacklog : s.backlog = sent ++ rest) :
    Flow h (h.push s sent rest) s.id [] (sent.map (.sent s.id s.generation)) := by
  refine ⟨?_, append hc sent⟩
  have hsent : sentTo s.id (sent.map (.sent s.id s.generation)) = sent := by simp [sentTo]
  have hevicted : evictedFrom s.id (sent.map (.sent s.id s.generation)) = [] := by
    simp [evictedFrom]
  rw [hsent, hevicted, waiting_eq hs, waiting_eq (find?_push hs sent rest), hbacklog,
    List.append_nil]
  exact ⟨List.Sublist.refl _, by simp⟩

/-- An envelope for which nothing waits goes into the channel at once. -/
theorem send {c : Channel} (hs : h.find? s.id = some s)
    (hc : h.channel? s.id s.generation = some c) (hfirst : s.backlog = []) (e : Envelope) :
    Flow h (h.send s e) s.id [e] [.sent s.id s.generation e] := by
  refine ⟨?_, append hc [e]⟩
  have hwaiting : (h.send s e).waiting s.id = [] := (waiting_eq (h := h) hs).trans hfirst
  rw [hwaiting, waiting_eq hs, hfirst]
  exact ⟨by simp [sentTo], by simp [sentTo, evictedFrom]⟩

theorem flush (h : Hub) (id : String) : Flow h (h.flush id).2 id [] (h.flushMoves id) := by
  cases hs : h.find? id with
  | none =>
    rw [flushMoves, hs, Hub.flush, hs]
    exact .idle rfl fun _ => rfl
  | some s =>
    obtain rfl := id_of_find? hs
    have hmoves : h.flushMoves s.id =
        (s.backlog.take (h.flush s.id).1).map (.sent s.id s.generation) := by rw [flushMoves, hs]
    rw [hmoves]
    have hcases := flush_cases hs
    generalize h.flush s.id = r at hcases
    cases hcases with
    | idle => exact .idle rfl fun _ => rfl
    | gone => exact unplug
    | full => exact .idle rfl fun _ => rfl
    | moved c n connected channel =>
      exact .push hs channel _ _ (List.take_append_drop n s.backlog).symm

theorem deliver (hs : h.find? id = some s) (e : Envelope) :
    Flow h (h.deliver id e).2 id [e] (h.deliverMoves id e) := by
  have hcases := deliver_cases h id e
  generalize h.deliver id e = r at hcases
  rw [deliverMoves, hs]
  cases hcases with
  | unknown absent => rw [hs] at absent; cases absent
  | sent t known first connected accepted =>
    obtain rfl : s = t := Option.some.inj (hs.symm.trans known)
    obtain rfl := id_of_find? hs
    obtain ⟨c, hc, -, -⟩ := offer_eq_accepted.mp accepted
    simp only [first, connected, accepted, List.isEmpty_nil, Bool.and_self, if_true]
    exact .send hs hc first e
  | full t known first connected refused =>
    obtain rfl : s = t := Option.some.inj (hs.symm.trans known)
    simp only [first, connected, refused, List.isEmpty_nil, Bool.and_self, if_true]
    exact .enqueue hs e
  | gone t known first connected refused =>
    obtain rfl : s = t := Option.some.inj (hs.symm.trans known)
    simp only [first, connected, refused, List.isEmpty_nil, Bool.and_self, if_true]
    rw [← enqueueMoves_unplug]
    exact unplug.trans (.enqueue (find?_update_self (f := h.unplug) hs fun _ => rfl) e)
  | behind t known waits =>
    obtain rfl : s = t := Option.some.inj (hs.symm.trans known)
    have hwaits : (s.backlog.isEmpty && s.connected) = false := by
      rcases waits with hw | hw <;> simp [hw]
    simp only [hwaits, Bool.false_eq_true, if_false]
    exact (enqueue hs e).trans (.flush _ id)

/-- An envelope that is given to one subscriber after another comes once to each of them. -/
theorem deliverAll {ids : List String} (hnodup : ids.Nodup) (hs : h.find? id = some s)
    (e : Envelope) :
    Flow h (h.deliverAll e ids).2 id (if id ∈ ids then [e] else []) (h.deliverAllMoves e ids) := by
  induction ids generalizing h s with
  | nil => exact .idle rfl fun _ => rfl
  | cons id' rest ih =>
    obtain ⟨hfirst, hrest⟩ := List.nodup_cons.mp hnodup
    obtain ⟨t, ht⟩ : ∃ t, (h.deliver id' e).2.find? id = some t := by
      have hsame : SameSeats h (h.deliver id' e).2 := .deliver e
      obtain ⟨t, ht, -⟩ := hsame.find?_of hs
      exact ⟨t, ht⟩
    have hlater := ih hrest ht
    by_cases hid : id = id'
    · subst hid
      rw [if_neg hfirst] at hlater
      rw [if_pos List.mem_cons_self]
      exact (deliver hs e).trans hlater
    · have hmem : id ∈ id' :: rest ↔ id ∈ rest := by simp [hid]
      simp only [hmem]
      exact (of_onlyTouches (.deliver e) (deliverMoves_about h id' e) hid).trans hlater

theorem publish {first : Nat} (hsound : Sound first h) (hs : h.find? id = some s) (e : Envelope) :
    Flow h (h.apply (.publish e)) id (if e.session = s.session then [e] else [])
      (h.moves (.publish e)) := by
  have hmem : id ∈ h.audience e.session ↔ e.session = s.session := by
    rw [mem_audience hsound]
    simp [hs, eq_comm]
  have hcounted : Flow h h.countPublished id [] [] := .idle rfl fun _ => rfl
  have hflow := deliverAll (h := h.countPublished) (nodup_audience hsound e.session) hs e
  simp only [hmem] at hflow
  exact hcounted.trans hflow

theorem refill (h : Hub) (id : String) (generation : Nat) :
    Flow h (h.refill id generation) id [] (h.refillMoves id generation) := by
  unfold Hub.refill refillMoves
  cases h.find? id with
  | none => exact .idle rfl fun _ => rfl
  | some s =>
    simp only
    split
    · exact flush h id
    · exact .idle rfl fun _ => rfl

theorem take (h : Hub) (id : String) (generation : Nat) :
    Flow h (h.take id generation).2 id [] (h.takeMoves id generation) := by
  have hcases := take_cases h id generation
  rw [takeMoves]
  generalize h.take id generation = r at hcases
  cases hcases with
  | nothing r ending =>
    cases r with
    | envelope e => exact absurd rfl (ending e)
    | pending => exact .idle rfl fun _ => rfl
    | closed => exact .idle rfl fun _ => rfl
  | first c e rest channel queue =>
    refine ⟨(idle rfl fun _ => rfl).backlog, fun g => ?_⟩
    have hchannel := @channel?_updateChannel h id (fun c => { c with queue := rest })
      (fun _ => ⟨rfl, rfl⟩) generation id g
    have hlost : lostVia id g [.received id generation e] = [] := rfl
    have hsent : sentVia id g [.received id generation e] = [] := rfl
    rw [hlost, hsent, List.append_nil]
    by_cases hg : g = generation
    · subst hg
      rw [if_pos ⟨rfl, rfl⟩, channel, Option.map_some] at hchannel
      rw [queueOf_eq channel, queueOf_eq hchannel, queue]
      exact ⟨by simp [receivedVia], by simp [receivedVia]⟩
    · rw [if_neg fun he => hg he.2] at hchannel
      have hreceived : receivedVia id g [.received id generation e] = [] := by
        simp [receivedVia, Ne.symm hg]
      rw [hreceived, queueOf, queueOf, hchannel]
      exact .idle _

theorem release (h : Hub) (id : String) (generation : Nat) :
    Flow h (h.release id generation) id [] ((h.queueOf id generation).map (.lost id generation)) := by
  refine ⟨?_, fun g => ?_⟩
  · have hsent : sentTo id ((h.queueOf id generation).map (.lost id generation)) = [] := by
      simp [sentTo]
    have hevicted : evictedFrom id ((h.queueOf id generation).map (.lost id generation)) = [] := by
      simp [evictedFrom]
    rw [hsent, hevicted, List.append_nil]
    exact .idle _
  · have hsent : sentVia id g ((h.queueOf id generation).map (.lost id generation)) = [] := by
      simp [sentVia]
    have hreceived :
        receivedVia id g ((h.queueOf id generation).map (.lost id generation)) = [] := by
      simp [receivedVia]
    have hchannel := @channel?_updateChannel h id
      (fun c => { c with held := false, queue := [] }) (fun _ => ⟨rfl, rfl⟩) generation id g
    rw [hsent, hreceived, List.append_nil, Hub.release]
    by_cases hg : g = generation
    · subst hg
      have hlost : lostVia id g ((h.queueOf id g).map (.lost id g)) = h.queueOf id g := by
        simp [lostVia]
      rw [if_pos ⟨rfl, rfl⟩] at hchannel
      have hempty : (h.updateChannel id g fun c => { c with held := false, queue := [] }).queueOf
          id g = [] := by
        rw [queueOf, hchannel]
        cases h.channel? id g <;> rfl
      rw [hlost, hempty]
      exact .cut (List.append_nil _).symm
    · rw [if_neg fun he => hg he.2] at hchannel
      have hlost : lostVia id g ((h.queueOf id generation).map (.lost id generation)) = [] := by
        simp [lostVia, Ne.symm hg]
      rw [hlost, queueOf, queueOf, hchannel]
      exact .idle _

/-- A new channel holds nothing. -/
theorem queueOf_append {h h' : Hub} {c : Channel} (hchannels : h'.channels = h.channels ++ [c])
    (hempty : c.queue = []) (id : String) (g : Nat) : h'.queueOf id g = h.queueOf id g := by
  simp only [queueOf, channel?, hchannels, List.find?_append]
  cases hold : h.channels.find? fun c => c.subscriber == id && c.generation == g with
  | some d => rfl
  | none =>
    rw [Option.none_or, List.find?_singleton]
    split <;> simp_all

theorem rejoin (hs : h.find? s.id = some s) : Flow h (h.rejoin s) s.id [] [] :=
  .idle (by rw [waiting_eq hs, waiting_eq (find?_rejoin hs)]) (queueOf_append rfl rfl s.id)

theorem disconnect (h : Hub) (id : String) (generation : Nat) :
    Flow h (h.disconnect id generation).2 id [] [] := by
  have hcases := disconnect_cases h id generation
  generalize h.disconnect id generation = r at hcases
  cases hcases with
  | same => exact .idle rfl fun _ => rfl
  | ended => exact unplug

end Flow

/-! ## Histories of one subscriber -/

/-- Whether an operation points a subscriber at a session. -/
def Op.switches (id : String) : Op → Bool
  | .switchSession id' _ => id' == id
  | .control id' text _ =>
    match Control.read? text with
    | some (.switchSession _) => id' == id
    | _ => false
  | _ => false

/-- Whether an operation leaves a subscriber its session and its place in the hub. -/
def keeps (h : Hub) (id : String) (op : Op) : Bool :=
  !op.switches id && ((h.apply op).find? id).isSome

/-- Whether a subscriber stays on its session, and in the hub, all along a history. -/
def stays (h : Hub) (id : String) : List Op → Bool
  | [] => true
  | op :: rest => h.keeps id op && (h.apply op).stays id rest

/-- What an operation publishes to a session. -/
def Op.cameFor (session : String) : Op → List Envelope
  | .publish e => if e.session = session then [e] else []
  | _ => []

/-- What a history publishes to a session. -/
def publishedTo (session : String) (ops : List Op) : List Envelope :=
  ops.flatMap (·.cameFor session)

/-- Who is found in a hub of which some subscribers stay was found there before. -/
theorem find?_filter {first : Nat} (hsound : Sound first h) {p : Subscriber → Bool} {t : Subscriber}
    (ht : Hub.find? { h with subscribers := h.subscribers.filter p } id = some t) :
    h.find? id = some t := by
  rw [← id_of_find? ht]
  exact hsound.find? (List.mem_filter.mp (mem_of_find? ht)).1

/-- What an operation is to a subscriber that it leaves its session. Those that may move something
for it are listed; all others are `quiet`. -/
inductive Kept (h : Hub) (id : String) (s : Subscriber) : Op → Prop where
  | publish (e : Envelope) : Kept h id s (.publish e)
  | receive (id' : String) (generation : Nat) : Kept h id s (.receive id' generation)
  | release (id' : String) (generation : Nat) : Kept h id s (.release id' generation)
  | disconnect (id' : String) (generation : Nat) : Kept h id s (.disconnect id' generation)
  | reconnect (id' : String) : Kept h id s (.reconnect id')
  | quiet (op : Op) (found : (h.apply op).find? id = some s)
    (queues : ∀ g, (h.apply op).queueOf id g = h.queueOf id g)
    (channels : ∀ g c, h.channel? id g = some c → (h.apply op).channel? id g = some c)
    (nothing : h.moves op = []) (nobody : ∀ session, op.cameFor session = []) : Kept h id s op

/-- An operation that leaves a subscriber and all channels as they are is quiet. -/
theorem Kept.of_channels {op : Op} (found : (h.apply op).find? id = some s)
    (hchannels : (h.apply op).channels = h.channels) (nothing : h.moves op = [])
    (nobody : ∀ session, op.cameFor session = []) : Kept h id s op := by
  have hsame : ∀ g, (h.apply op).channel? id g = h.channel? id g := fun g => by
    rw [channel?, channel?, hchannels]
  refine .quiet op found (fun g => ?_) (fun g c hc => ?_) nothing nobody
  · rw [queueOf, queueOf, hsame]
  · rw [hsame, hc]

theorem kept_cases {first : Nat} (hsound : Sound first h) (hs : h.find? id = some s) {op : Op}
    (hkeeps : h.keeps id op = true) : Kept h id s op := by
  simp only [keeps, Bool.and_eq_true, Bool.not_eq_true', Option.isSome_iff_exists] at hkeeps
  obtain ⟨hstays, t, ht⟩ := hkeeps
  have hswitch : ∀ {id' session : String}, id ≠ id' →
      (h.switchSession id' session).2.find? id = some s := by
    intro id' session hid
    rw [switchSession, find?_update (f := fun t => { t with session, backlog := [] })
      (fun _ => rfl), if_neg hid]
    exact hs
  cases op with
  | publish e => exact .publish e
  | receive id' generation => exact .receive id' generation
  | release id' generation => exact .release id' generation
  | disconnect id' generation => exact .disconnect id' generation
  | reconnect id' => exact .reconnect id'
  | subscribe session =>
    refine .quiet _ ?_ (Flow.queueOf_append rfl rfl id) (fun g c hc => ?_) rfl fun _ => rfl
    · simp only [apply, find?, subscribe, List.find?_append] at hs ⊢
      rw [hs, Option.some_or]
    · simp only [apply, channel?, subscribe, List.find?_append] at hc ⊢
      rw [hc, Option.some_or]
  | switchSession id' session =>
    have hid : id ≠ id' := by
      rintro rfl
      simp [Op.switches] at hstays
    exact .of_channels (hswitch hid) rfl rfl fun _ => rfl
  | control id' text time =>
    cases hm : Control.read? text with
    | none =>
      refine .of_channels ?_ ?_ rfl fun _ => rfl
      all_goals simp only [apply, Hub.control, hm]
      exact hs
    | some message =>
      cases message with
      | switchSession session =>
        have hid : id ≠ id' := by
          rintro rfl
          simp [Op.switches, hm] at hstays
        refine .of_channels ?_ ?_ rfl fun _ => rfl
        all_goals simp only [apply, Hub.control, hm]
        · exact hswitch hid
        · rfl
      | ping =>
        refine .of_channels ?_ ?_ rfl fun _ => rfl
        all_goals simp only [apply, Hub.control, hm]
        exact hs
  | unsubscribe id' =>
    obtain rfl : s = t := Option.some.inj (hs.symm.trans (find?_filter hsound ht))
    exact .of_channels ht rfl rfl fun _ => rfl
  | reap idle =>
    obtain rfl : s = t := Option.some.inj (hs.symm.trans (find?_filter hsound ht))
    exact .of_channels ht rfl rfl fun _ => rfl
  | wait span => exact .of_channels hs rfl rfl fun _ => rfl

/-- An operation that leaves a subscriber its session obeys the law of its buffers. -/
theorem apply_flow {first : Nat} (hsound : Sound first h) (hs : h.find? id = some s) {op : Op}
    (hkeeps : h.keeps id op = true) :
    Flow h (h.apply op) id (op.cameFor s.session) (h.moves op) := by
  -- Where the operation is about another subscriber, this one sees none of it.
  cases kept_cases hsound hs hkeeps with
  | publish e => exact .publish hsound hs e
  | receive id' generation =>
    by_cases hid : id = id'
    · subst hid
      exact (Flow.refill h id generation).trans (.take _ id generation)
    · exact .of_onlyTouches ((OnlyTouches.refill generation).trans (.take generation))
        ((refillMoves_about h id' generation).append (takeMoves_about _ id' generation)) hid
  | release id' generation =>
    by_cases hid : id = id'
    · subst hid
      exact .release h id generation
    · exact .of_onlyTouches (.updateChannel fun _ => ⟨rfl, rfl⟩)
        (.map (.lost id' generation) (fun _ => rfl) _) hid
  | disconnect id' generation =>
    by_cases hid : id = id'
    · subst hid
      exact .disconnect h id generation
    · exact .of_onlyTouches (.disconnect generation) (.nil id') hid
  | reconnect id' =>
    cases ht : h.find? id' with
    | none =>
      simp only [moves, apply, Hub.reconnect, ht]
      exact .idle rfl fun _ => rfl
    | some t =>
      obtain rfl := id_of_find? ht
      have hmoves : h.moves (.reconnect t.id) = (h.rejoin t).flushMoves t.id := by
        simp only [moves, ht]
      rw [hmoves]
      change Flow h (h.reconnect t.id).2 id [] _
      rw [reconnect_eq ht]
      by_cases hid : id = t.id
      · subst hid
        exact (Flow.rejoin ht).trans (.flush (h.rejoin t) t.id)
      · exact .of_onlyTouches ((OnlyTouches.rejoin t).trans .flush)
          (flushMoves_about (h.rejoin t) t.id) hid
  | quiet _ found queues _ nothing nobody =>
    rw [nothing, nobody]
    exact .idle (by rw [waiting_eq hs, waiting_eq found]) queues

/-- An operation that leaves a subscriber its session leaves it on its connection or gives it a
later one. -/
theorem apply_seat {first : Nat} (hsound : Sound first h) (hs : h.find? id = some s) {op : Op}
    (hkeeps : h.keeps id op = true) :
    ∃ t, (h.apply op).find? id = some t ∧ t.session = s.session ∧ s.generation ≤ t.generation := by
  have hsame : ∀ {h'}, SameSeats h h' →
      ∃ t, h'.find? id = some t ∧ t.session = s.session ∧ s.generation ≤ t.generation := by
    intro h' hseats
    obtain ⟨t, ht, hsession, hgeneration⟩ := hseats.find?_of hs
    exact ⟨t, ht, hsession, Nat.le_of_eq hgeneration.symm⟩
  cases kept_cases hsound hs hkeeps with
  | publish e => exact hsame (.publish e)
  | receive id' generation => exact hsame (.receive generation)
  | release id' generation => exact hsame (.release generation)
  | disconnect id' generation => exact hsame (.disconnect generation)
  | reconnect id' =>
    change ∃ t, (h.reconnect id').2.find? id = some t ∧ _
    cases ht : h.find? id' with
    | none =>
      simp only [Hub.reconnect, ht]
      exact hsame (.refl h)
    | some t =>
      obtain rfl := id_of_find? ht
      rw [reconnect_eq ht]
      by_cases hid : id = t.id
      · subst hid
        obtain rfl : s = t := Option.some.inj (hs.symm.trans ht)
        have hsame : SameSeats (h.rejoin s) ((h.rejoin s).flush s.id).2 := .flush
        obtain ⟨t', ht', hsession, hgeneration⟩ := hsame.find?_of (find?_rejoin ht)
        exact ⟨t', ht', hsession, by rw [hgeneration]; exact Nat.le_succ _⟩
      · exact ⟨s, by rw [(((OnlyTouches.rejoin t).trans .flush) id hid).1, hs], rfl, Nat.le_refl _⟩
  | quiet _ found => exact ⟨s, found, rfl, Nat.le_refl _⟩

/-- A subscriber that stays on its session all along a history is found at its end, and the history
obeys the law of its buffers. -/
theorem run_flow {first : Nat} {ops : List Op} (hready : Ready first h ops)
    (hs : h.find? id = some s) (hstays : h.stays id ops = true) :
    Flow h (h.run ops) id (publishedTo s.session ops) (h.log ops) ∧
      ∃ t, (h.run ops).find? id = some t ∧ t.session = s.session := by
  induction ops generalizing h s with
  | nil => exact ⟨.idle rfl fun _ => rfl, s, hs, rfl⟩
  | cons op rest ih =>
    simp only [stays, Bool.and_eq_true] at hstays
    obtain ⟨t, ht, hsession, -⟩ := apply_seat hready.sound hs hstays.1
    obtain ⟨hflow, u, hu, husession⟩ := ih hready.step ht hstays.2
    rw [hsession] at hflow
    exact ⟨(apply_flow hready.sound hs hstays.1).trans hflow, u, hu, husession.trans hsession⟩

end Hub
end ContextBudget
