import ContextBudget.Proofs.Telemetry.Orderly

/-!
# Places

What a publication does to one subscriber is told by its backlog and by the places that are left in
its channel.

- `places`: how many more envelopes the channel of a subscriber takes.
- `Dealt`: what comes to a subscriber is queued behind what waits; the first of all that are evicted
  while there are more than the backlog holds, the next ones are sent while there are places, the
  others wait.
- `deliver_dealt`, `publish_dealt`: so it is when an envelope is given to one subscriber, and when
  it is published.
- `publish_fst`: a publication is told as sent to those whose channel had a place.
-/

namespace ContextBudget
namespace Hub

variable {first : Nat} {h h' : Hub} {id : String} {s t : Subscriber} {c : Channel} {e : Envelope}

/-! ## Places in a channel -/

/-- How many more envelopes the channel of a subscriber takes: none if it is not connected, or if
its observer has dropped the channel. -/
def places (h : Hub) (s : Subscriber) : Nat :=
  if s.connected then
    match h.channel? s.id s.generation with
    | none => 0
    | some c => if c.held then h.room - c.queue.length else 0
  else 0

theorem places_eq (connected : s.connected = true) (hc : h.channel? s.id s.generation = some c)
    (held : c.held = true) : h.places s = h.room - c.queue.length := by
  simp only [places, connected, hc, held, if_true]

theorem places_eq_zero (connected : s.connected = false) : h.places s = 0 := by
  simp [places, connected]

theorem places_pos_iff : 0 < h.places s ↔ s.connected = true ∧ h.offer s = .accepted := by
  rw [offer_eq_accepted, places]
  cases s.connected with
  | false => simp
  | true =>
    cases h.channel? s.id s.generation with
    | none => simp
    | some c =>
      cases hc : c.held with
      | false => simp [hc]
      | true =>
        simp only [hc, if_true, Option.some.injEq, exists_eq_left', true_and]
        exact Nat.sub_pos_iff_lt

theorem places_of_refused (refused : h.offer s ≠ .accepted) : h.places s = 0 :=
  Nat.eq_zero_of_not_pos fun hpos => refused (places_pos_iff.mp hpos).2

/-- The places for a subscriber depend on its connection and its channel alone. -/
theorem places_congr (hid : t.id = s.id) (hconnected : t.connected = s.connected)
    (hgeneration : t.generation = s.generation)
    (hchannel : h'.channel? s.id s.generation = h.channel? s.id s.generation)
    (hconfig : h'.config = h.config) : h'.places t = h.places s := by
  rw [places, places, hconnected, hid, hgeneration, hchannel, room, room, hconfig]

theorem Alike.places (halike : Alike id h h') (hid : s.id = id) : h'.places s = h.places s := by
  subst hid
  exact places_congr rfl rfl rfl (halike.channels _) halike.config

/-! ## Envelopes that have to wait -/

/-- How many of those that wait have no place in the backlog when one more has to wait. -/
def excess (h : Hub) (s : Subscriber) : Nat := s.backlog.length + 1 - h.config.backlog

theorem overflow_eq (hbound : s.backlog.length ≤ h.config.backlog) (e : Envelope) :
    h.overflow s e = (s.backlog ++ [e]).take (h.excess s) := by
  unfold overflow excess
  split
  · rename_i hnothing
    obtain hempty : s.backlog = [] := List.eq_nil_of_length_eq_zero (by omega)
    simp [hempty, hnothing]
  · rw [List.take_append_of_le_length (by omega)]

theorem find?_enqueue (hs : h.find? s.id = some s)
    (hbound : s.backlog.length ≤ h.config.backlog) (e : Envelope) :
    (h.enqueue s.id e).find? s.id =
      some { s with backlog := (s.backlog ++ [e]).drop (h.excess s) } := by
  have hcases := enqueue_cases h s.id e
  generalize h.enqueue s.id e = h' at hcases
  unfold excess
  cases hcases with
  | unknown absent => rw [hs] at absent; cases absent
  | evicted t known nothing =>
    change h.find? s.id = _
    obtain hempty : s.backlog = [] := List.eq_nil_of_length_eq_zero (by omega)
    rw [hs, List.drop_eq_nil_of_le (by simp [hempty, nothing])]
    cases s
    simp_all
  | queued t known some_wait =>
    obtain rfl : s = t := Option.some.inj (hs.symm.trans known)
    rw [List.drop_append_of_le_length (by omega)]
    exact find?_update_self (f := fun t => { t with
      backlog := t.backlog.drop (s.backlog.length + 1 - h.config.backlog) ++ [e] }) hs fun _ => rfl

theorem evictedFrom_enqueueMoves (hs : h.find? s.id = some s) (e : Envelope) :
    evictedFrom s.id (h.enqueueMoves s.id e) = h.overflow s e := by
  rw [enqueueMoves, hs]
  simp [evictedFrom]

theorem sentTo_enqueueMoves (h : Hub) (id : String) (e : Envelope) :
    sentTo id (h.enqueueMoves id e) = [] := by
  rw [enqueueMoves]
  cases h.find? id <;> simp [sentTo]

/-- Waiting takes no place in a channel. -/
theorem places_enqueue (h : Hub) (id : String) (e : Envelope) (hid : t.id = s.id)
    (hconnected : t.connected = s.connected) (hgeneration : t.generation = s.generation) :
    (h.enqueue id e).places t = h.places s := by
  have hcases := enqueue_cases h id e
  generalize h.enqueue id e = h' at hcases
  cases hcases <;> exact places_congr hid hconnected hgeneration rfl rfl

/-! ## Envelopes that are sent -/

/-- As many of the first ones are moved into the channel as have places there. -/
theorem flush_dealt (hs : h.find? s.id = some s) :
    (h.flush s.id).1 = (s.backlog.take (h.places s)).length ∧
      sentTo s.id (h.flushMoves s.id) = s.backlog.take (h.places s) ∧
      ∃ t, (h.flush s.id).2.find? s.id = some t ∧ t.backlog = s.backlog.drop (h.places s) ∧
        (h.flush s.id).2.places t = h.places s - (s.backlog.take (h.places s)).length := by
  have hmoves : sentTo s.id (h.flushMoves s.id) = s.backlog.take (h.flush s.id).1 := by
    rw [flushMoves, hs]
    simp only [sentTo, List.filterMap_map, Function.comp_def, if_true, List.filterMap_some]
  rw [hmoves]
  have hcases := flush_cases hs
  generalize h.flush s.id = r at hcases
  cases hcases with
  | idle nothing =>
    rcases nothing with hempty | hgone
    · exact ⟨by simp [hempty], by simp [hempty], s, hs, by simp [hempty], by simp [hempty]⟩
    · rw [places_eq_zero hgone]
      exact ⟨rfl, rfl, s, hs, rfl, places_eq_zero hgone⟩
  | gone _ _ refused =>
    rw [places_of_refused (by simp [refused])]
    exact ⟨rfl, rfl, _, find?_update_self (f := h.unplug) hs fun _ => rfl, rfl,
      places_eq_zero rfl⟩
  | full _ _ refused =>
    have hnone : h.places s = 0 := places_of_refused (by simp [refused])
    rw [hnone]
    exact ⟨rfl, rfl, s, hs, rfl, hnone⟩
  | moved c n connected channel held count =>
    have hplaces := places_eq connected channel held
    obtain rfl : n = min (h.places s) s.backlog.length := hplaces ▸ count
    have htake : s.backlog.take (min (h.places s) s.backlog.length) =
        s.backlog.take (h.places s) := by rw [← List.take_eq_take_min]
    have hafter := places_eq (h := h.push s (s.backlog.take (h.places s))
        (s.backlog.drop (min (h.places s) s.backlog.length)))
      (s := { s with backlog := s.backlog.drop (min (h.places s) s.backlog.length) })
      connected (channel?_push channel _ _) held
    rw [htake]
    refine ⟨by rw [List.length_take], rfl, _, find?_push hs _ _, ?_, ?_⟩
    · exact List.drop_eq_drop_min.symm
    · rw [hafter, hplaces, List.length_append]
      change h.room - _ = _
      omega

/-- Flushing evicts nothing. -/
theorem evictedFrom_flushMoves (h : Hub) (id : String) :
    evictedFrom id (h.flushMoves id) = [] := by
  rw [flushMoves]
  cases h.find? id with
  | none => rfl
  | some s => simp only [evictedFrom, List.filterMap_map, Function.comp_def, List.filterMap_none]

/-! ## One subscriber -/

/-- How many are evicted when one more envelope comes: none if it goes into the channel at once. -/
def lostCount (h : Hub) (s : Subscriber) : Nat :=
  if s.backlog = [] ∧ 0 < h.places s then 0 else h.excess s

/-- An envelope comes behind those that wait for a subscriber. Of all of these the first ones are
evicted, the next ones are sent, as many as have places, and the others wait. -/
structure Dealt (h h' : Hub) (s : Subscriber) (e : Envelope) (moved : List Move) : Prop where
  evicted : evictedFrom s.id moved = (s.backlog ++ [e]).take (h.lostCount s)
  sent : sentTo s.id moved = ((s.backlog ++ [e]).drop (h.lostCount s)).take (h.places s)
  left : ∃ t, h'.find? s.id = some t ∧
    t.backlog = ((s.backlog ++ [e]).drop (h.lostCount s)).drop (h.places s) ∧
    h'.places t = h.places s - (sentTo s.id moved).length

namespace Dealt

variable {moved : List Move}

/-- Of a hub, it matters what waits for the subscriber, how much may wait, and how many places its
channel has. -/
theorem congr {h₁ : Hub} {s₁ : Subscriber} (hd : Dealt h₁ h' s₁ e moved) (hid : s₁.id = s.id)
    (hbacklog : s₁.backlog = s.backlog) (hconfig : h₁.config = h.config)
    (hplaces : h₁.places s₁ = h.places s) : Dealt h h' s e moved := by
  have hlost : h₁.lostCount s₁ = h.lostCount s := by
    rw [lostCount, lostCount, excess, excess, hbacklog, hconfig, hplaces]
  obtain ⟨hevicted, hsent, hleft⟩ := hd
  rw [hid, hbacklog, hlost] at hevicted hsent hleft
  rw [hplaces] at hsent hleft
  exact ⟨hevicted, hsent, hleft⟩

/-- An envelope has to wait where nothing can be sent. -/
theorem of_enqueue (hs : h.find? s.id = some s) (hbound : s.backlog.length ≤ h.config.backlog)
    (hnone : h.places s = 0) (e : Envelope) :
    Dealt h (h.enqueue s.id e) s e (h.enqueueMoves s.id e) := by
  have hlost : h.lostCount s = h.excess s := if_neg (by simp [hnone])
  refine ⟨?_, ?_, _, find?_enqueue hs hbound e, ?_, ?_⟩
  · rw [evictedFrom_enqueueMoves hs, overflow_eq hbound, hlost]
  · rw [sentTo_enqueueMoves, hnone, List.take_zero]
  · rw [hlost, hnone, List.drop_zero]
  · refine (places_enqueue (s := s) h s.id e rfl rfl rfl).trans ?_
    rw [hnone, Nat.zero_sub]

/-- An envelope for which nothing waits goes into a place of the channel. -/
theorem of_send (hs : h.find? s.id = some s) (hfirst : s.backlog = []) (hpos : 0 < h.places s)
    (e : Envelope) : Dealt h (h.send s e) s e [.sent s.id s.generation e] := by
  have hlost : h.lostCount s = 0 := if_pos ⟨hfirst, hpos⟩
  have hsent : sentTo s.id [.sent s.id s.generation e] = [e] := by simp [sentTo]
  rw [places_pos_iff] at hpos
  obtain ⟨connected, accepted⟩ := hpos
  obtain ⟨c, hc, held, hroom⟩ := offer_eq_accepted.mp accepted
  have hplaces := places_eq connected hc held
  have hone : [e].length ≤ h.places s := by
    rw [List.length_singleton]
    omega
  have hchannel : (h.send s e).channel? s.id s.generation =
      some { c with queue := c.queue ++ [e] } :=
    channel?_updateChannel_self (f := fun c => { c with queue := c.queue ++ [e] }) hc
      fun _ => ⟨rfl, rfl⟩
  refine ⟨by rw [hlost]; rfl, ?_, s, hs, ?_, ?_⟩
  · rw [hsent, hlost, hfirst, List.nil_append, List.drop_zero, List.take_of_length_le hone]
  · rw [hlost, hfirst, List.nil_append, List.drop_zero, List.drop_eq_nil_of_le hone]
  · rw [places_eq connected hchannel held, hplaces, hsent, List.length_append]
    change h.room - _ = _
    omega

/-- An envelope has to wait behind others, and then as many as have places are sent. -/
theorem of_flush (hs : h.find? s.id = some s) (hbound : s.backlog.length ≤ h.config.backlog)
    (hwaits : ¬ (s.backlog = [] ∧ 0 < h.places s)) (e : Envelope) :
    Dealt h ((h.enqueue s.id e).flush s.id).2 s e
        (h.enqueueMoves s.id e ++ (h.enqueue s.id e).flushMoves s.id) ∧
      (0 < ((h.enqueue s.id e).flush s.id).1 ↔ 0 < h.places s) := by
  have hlost : h.lostCount s = h.excess s := if_neg hwaits
  have hqueued := find?_enqueue hs hbound e
  have hplaces : (h.enqueue s.id e).places
      { s with backlog := (s.backlog ++ [e]).drop (h.excess s) } = h.places s :=
    places_enqueue h s.id e rfl rfl rfl
  obtain ⟨hcount, hsent, t, ht, hbacklog, hleft⟩ :=
    flush_dealt (s := { s with backlog := (s.backlog ++ [e]).drop (h.excess s) }) hqueued
  rw [hplaces] at hcount hsent hbacklog hleft
  have hmoved : sentTo s.id (h.enqueueMoves s.id e ++ (h.enqueue s.id e).flushMoves s.id) =
      ((s.backlog ++ [e]).drop (h.excess s)).take (h.places s) := by
    rw [sentTo_append, sentTo_enqueueMoves, List.nil_append]
    exact hsent
  refine ⟨⟨?_, by rw [hlost, hmoved], t, ht, by rw [hlost, hbacklog], ?_⟩, ?_⟩
  · rw [evictedFrom_append, evictedFrom_enqueueMoves hs, overflow_eq hbound,
      evictedFrom_flushMoves, hlost, List.append_nil]
  · rw [hmoved]
    exact hleft
  · rw [hcount, List.length_take, List.length_drop, List.length_append, List.length_singleton,
      excess]
    -- Where there is a place, something waits already, so the backlog holds at least one.
    have hsome : 0 < h.places s → 0 < s.backlog.length := fun hpos =>
      List.length_pos_iff.mpr fun hempty => hwaits ⟨hempty, hpos⟩
    omega

end Dealt

/-- What is done with an envelope that is given to a subscriber, and whether something is sent. -/
theorem deliver_dealt (hs : h.find? s.id = some s)
    (hbound : s.backlog.length ≤ h.config.backlog) (e : Envelope) :
    Dealt h (h.deliver s.id e).2 s e (h.deliverMoves s.id e) ∧
      (h.deliver s.id e).1 = decide (0 < h.places s) := by
  have hcases := deliver_cases h s.id e
  generalize h.deliver s.id e = r at hcases
  rw [deliverMoves, hs]
  cases hcases with
  | unknown absent => rw [hs] at absent; cases absent
  | sent t known first connected accepted =>
    obtain rfl : s = t := Option.some.inj (hs.symm.trans known)
    have hpos : 0 < h.places s := places_pos_iff.mpr ⟨connected, accepted⟩
    simp only [first, connected, accepted, List.isEmpty_nil, Bool.and_self, if_true]
    exact ⟨.of_send hs first hpos e, by simp [hpos]⟩
  | full t known first connected refused =>
    obtain rfl : s = t := Option.some.inj (hs.symm.trans known)
    have hnone : h.places s = 0 := places_of_refused (by simp [refused])
    simp only [first, connected, refused, List.isEmpty_nil, Bool.and_self, if_true]
    exact ⟨.of_enqueue hs hbound hnone e, by simp [hnone]⟩
  | gone t known first connected refused =>
    obtain rfl : s = t := Option.some.inj (hs.symm.trans known)
    have hnone : h.places s = 0 := places_of_refused (by simp [refused])
    have hunplugged : (h.update s.id h.unplug).places (h.unplug s) = 0 := places_eq_zero rfl
    have hknown : (h.update s.id h.unplug).find? s.id = some (h.unplug s) :=
      find?_update_self (f := h.unplug) hs fun _ => rfl
    simp only [first, connected, refused, List.isEmpty_nil, Bool.and_self, if_true]
    rw [← enqueueMoves_unplug]
    have hdealt := Dealt.of_enqueue (s := h.unplug s) hknown hbound hunplugged e
    exact ⟨hdealt.congr rfl rfl rfl (hunplugged.trans hnone.symm), by simp [hnone]⟩
  | behind t known waits =>
    obtain rfl : s = t := Option.some.inj (hs.symm.trans known)
    have hwaits : (s.backlog.isEmpty && s.connected) = false := by
      rcases waits with hw | hw <;> simp [hw]
    have hnot : ¬ (s.backlog = [] ∧ 0 < h.places s) := by
      rintro ⟨hempty, hpos⟩
      rcases waits with hsome | hgone
      · exact hsome hempty
      · rw [places_eq_zero hgone] at hpos
        exact Nat.lt_irrefl 0 hpos
    simp only [hwaits, Bool.false_eq_true, if_false]
    obtain ⟨hdealt, htold⟩ := Dealt.of_flush hs hbound hnot e
    exact ⟨hdealt, by simp only [htold]⟩

/-! ## All subscribers of a session -/

theorem Alike.enqueueMoves (halike : Alike id h h') (e : Envelope) :
    h'.enqueueMoves id e = h.enqueueMoves id e := by
  unfold Hub.enqueueMoves overflow
  rw [halike.found, halike.config]

theorem Alike.flushMoves (halike : Alike id h h') : h'.flushMoves id = h.flushMoves id := by
  unfold Hub.flushMoves
  rw [halike.found, halike.flush.1]

/-- What is moved for a subscriber does not depend on what it does not see. -/
theorem Alike.deliverMoves (halike : Alike id h h') (e : Envelope) :
    h'.deliverMoves id e = h.deliverMoves id e := by
  unfold Hub.deliverMoves
  rw [halike.found]
  cases hs : h.find? id with
  | none => rfl
  | some s =>
    simp only [halike.offer (id_of_find? hs), halike.enqueueMoves, (halike.enqueue e).flushMoves]

/-- Of an envelope that is given to several subscribers, one of them is moved what is moved when it
is given to it alone. -/
theorem deliverAllMoves_read {ids : List String} (hnodup : ids.Nodup) (e : Envelope)
    {f : Move → Option Envelope} (hf : ∀ m : Move, m.subscriber ≠ id → f m = none) :
    (h.deliverAllMoves e ids).filterMap f =
      if id ∈ ids then (h.deliverMoves id e).filterMap f else [] := by
  induction ids generalizing h with
  | nil => rfl
  | cons id' rest ih =>
    obtain ⟨hfirst, hrest⟩ := List.nodup_cons.mp hnodup
    rw [deliverAllMoves, List.filterMap_append, ih hrest]
    by_cases hid : id = id'
    · subst hid
      rw [if_neg hfirst, if_pos List.mem_cons_self, List.append_nil]
    · have hunseen : Alike id h (h.deliver id' e).2 :=
        .of_onlyTouches (.deliver e) (setting_deliver h id' e) hid
      have hmem : id ∈ id' :: rest ↔ id ∈ rest := by simp [hid]
      rw [(deliverMoves_about h id' e).filterMap_eq_nil hid hf, List.nil_append,
        hunseen.deliverMoves]
      simp only [hmem]

/-- An envelope is told as sent to each of those to whom something would be sent if it were given
to them alone. -/
theorem deliverAll_fst {ids : List String} (hnodup : ids.Nodup) (e : Envelope) :
    (h.deliverAll e ids).1 = ids.countP fun id => (h.deliver id e).1 := by
  induction ids generalizing h with
  | nil => rfl
  | cons id rest ih =>
    obtain ⟨hfirst, hrest⟩ := List.nodup_cons.mp hnodup
    have hsame : rest.countP (fun id' => ((h.deliver id e).2.deliver id' e).1) =
        rest.countP fun id' => (h.deliver id' e).1 := by
      refine List.countP_congr fun id' hid' => ?_
      have hne : id' ≠ id := fun heq => hfirst (heq ▸ hid')
      have hunseen : Alike id' h (h.deliver id e).2 :=
        .of_onlyTouches (.deliver e) (setting_deliver h id e) hne
      rw [(hunseen.deliver e).1]
    rw [List.countP_cons, ← hsame, ← ih hrest]
    change (if (h.deliver id e).1 then ((h.deliver id e).2.deliverAll e rest).1 + 1
      else ((h.deliver id e).2.deliverAll e rest).1) = _
    cases (h.deliver id e).1 <;> rfl

/-- Of a publication, a subscriber of the session is moved what is moved when the envelope is given
to it alone, and another one is moved nothing. -/
theorem publishMoves_read (hsound : Sound first h) (hs : h.find? id = some s) (e : Envelope)
    {f : Move → Option Envelope} (hf : ∀ m : Move, m.subscriber ≠ id → f m = none) :
    (h.moves (.publish e)).filterMap f =
      if s.session = e.session then (h.deliverMoves id e).filterMap f else [] := by
  have hmem : id ∈ h.audience e.session ↔ s.session = e.session := by
    rw [mem_audience hsound]
    simp [hs]
  have hcounted : Alike id h h.countPublished := (Alike.refl h).count _ _
  rw [moves, deliverAllMoves_read (nodup_audience hsound _) e hf, hcounted.deliverMoves]
  simp only [hmem]

theorem evictedFrom_publish (hsound : Sound first h) (hs : h.find? id = some s) (e : Envelope) :
    evictedFrom id (h.moves (.publish e)) =
      if s.session = e.session then evictedFrom id (h.deliverMoves id e) else [] :=
  publishMoves_read hsound hs e fun m hm => by cases m <;> simp_all [Move.subscriber]

theorem sentTo_publish (hsound : Sound first h) (hs : h.find? id = some s) (e : Envelope) :
    sentTo id (h.moves (.publish e)) =
      if s.session = e.session then sentTo id (h.deliverMoves id e) else [] :=
  publishMoves_read hsound hs e fun m hm => by cases m <;> simp_all [Move.subscriber]

/-- What is done with an envelope that is published to a session, for one of its subscribers. -/
theorem publish_dealt (hsound : Sound first h) (hs : h.find? s.id = some s)
    (hbound : s.backlog.length ≤ h.config.backlog) (hsession : s.session = e.session) :
    Dealt h (h.publish e).2 s e (h.moves (.publish e)) := by
  have hevictions := evictedFrom_publish hsound hs e
  have hsendings := sentTo_publish hsound hs e
  rw [if_pos hsession] at hevictions hsendings
  have hseen : Alike s.id _ (h.apply (.publish e)) := publish_sees hsound e
  rw [if_pos ((mem_audience hsound _).mpr ⟨s, hs, hsession⟩)] at hseen
  have hgiven : Alike s.id (h.deliver s.id e).2 (h.apply (.publish e)) :=
    (((Alike.refl h).count _ _).deliver e).2.trans hseen
  obtain ⟨hevicted, hsent, t, ht, hbacklog, hplaces⟩ := (deliver_dealt hs hbound e).1
  refine ⟨hevictions.trans hevicted, hsendings.trans hsent, t, hgiven.found.trans ht, hbacklog, ?_⟩
  rw [hsendings]
  exact (hgiven.places (id_of_find? ht)).trans hplaces

/-- A publication is told as sent to those subscribers of the session whose channel had a place. -/
theorem publish_fst (hsound : Sound first h) (ho : Orderly h) (e : Envelope) :
    (h.publish e).1 = h.subscribers.countP fun s =>
      s.session == e.session && decide (0 < h.places s) := by
  have hgiven : (h.publish e).1 =
      (h.audience e.session).countP fun id => (h.countPublished.deliver id e).1 :=
    deliverAll_fst (nodup_audience hsound _) e
  rw [hgiven, audience, List.countP_map, List.countP_filter]
  refine List.countP_congr fun s hs => ?_
  have hfound := hsound.find? hs
  have hcounted : Alike s.id h h.countPublished := (Alike.refl h).count _ _
  have htold := (deliver_dealt hfound (ho s.id s hfound).bounded e).2
  rw [Function.comp_apply, (hcounted.deliver e).1, htold, Bool.and_comm]

end Hub
end ContextBudget
