import ContextBudget.Proofs.Telemetry.Flow

/-!
# What one subscriber sees of a hub

Two hubs look alike to a subscriber if it and its channels are the same in both. Its own operations
then give the same, and what is done to others goes unseen.

- `setting_apply`: the sizes of a hub stay, and time passes only when a history waits.
- `Alike`: two hubs look the same to a subscriber; the operations of the subscriber agree on them.
- `apply_onlyTouches`, `apply_alike`: an operation on another subscriber is not seen.
- `publish_sees`: of a publication, a subscriber sees what is given to it.
-/

namespace ContextBudget
namespace Hub

variable {h h' h'' : Hub} {id id' : String} {s : Subscriber} {e : Envelope}

/-! ## Sizes and time -/

/-- What all subscribers of a hub share: its sizes and the time. -/
def setting (h : Hub) : HubConfig × Span := (h.config, h.time)

theorem setting_enqueue (h : Hub) (id : String) (e : Envelope) :
    (h.enqueue id e).setting = h.setting := by
  have hcases := enqueue_cases h id e
  generalize h.enqueue id e = h' at hcases
  cases hcases <;> rfl

theorem setting_flush (h : Hub) (id : String) : (h.flush id).2.setting = h.setting := by
  cases hs : h.find? id with
  | none =>
    rw [flush, hs]
  | some s =>
    obtain rfl := id_of_find? hs
    have hcases := flush_cases hs
    generalize h.flush s.id = r at hcases
    cases hcases <;> rfl

theorem setting_deliver (h : Hub) (id : String) (e : Envelope) :
    (h.deliver id e).2.setting = h.setting := by
  have hcases := deliver_cases h id e
  generalize h.deliver id e = r at hcases
  cases hcases with
  | unknown => rfl
  | sent => rfl
  | full => exact setting_enqueue h id e
  | gone => exact setting_enqueue (h.update id h.unplug) id e
  | behind => exact (setting_flush _ id).trans (setting_enqueue h id e)

theorem setting_deliverAll (h : Hub) (e : Envelope) (ids : List String) :
    (h.deliverAll e ids).2.setting = h.setting := by
  induction ids generalizing h with
  | nil => rfl
  | cons id rest ih => exact (ih (h.deliver id e).2).trans (setting_deliver h id e)

theorem setting_refill (h : Hub) (id : String) (generation : Nat) :
    (h.refill id generation).setting = h.setting := by
  have hcases := refill_cases h id generation
  generalize h.refill id generation = h' at hcases
  cases hcases with
  | same => rfl
  | flushed => exact setting_flush h id

theorem setting_take (h : Hub) (id : String) (generation : Nat) :
    (h.take id generation).2.setting = h.setting := by
  have hcases := take_cases h id generation
  generalize h.take id generation = r at hcases
  cases hcases <;> rfl

theorem setting_disconnect (h : Hub) (id : String) (generation : Nat) :
    (h.disconnect id generation).2.setting = h.setting := by
  have hcases := disconnect_cases h id generation
  generalize h.disconnect id generation = r at hcases
  cases hcases <;> rfl

theorem setting_reconnect (h : Hub) (id : String) :
    (h.reconnect id).2.setting = h.setting := by
  cases hs : h.find? id with
  | none => rw [reconnect, hs]
  | some s =>
    obtain rfl := id_of_find? hs
    rw [reconnect_eq hs]
    exact setting_flush (h.rejoin s) s.id

theorem setting_control (h : Hub) (id text : String) (time : Moment) :
    (h.control id text time).2.setting = h.setting := by
  unfold control
  cases Control.read? text with
  | none => rfl
  | some message => cases message <;> rfl

/-- The time after an operation. -/
def Op.timeAfter (time : Span) : Op → Span
  | .wait span => time + span
  | _ => time

/-- Only time passes by itself; no operation changes the sizes of a hub. -/
theorem setting_apply (h : Hub) (op : Op) :
    (h.apply op).setting = (h.config, op.timeAfter h.time) := by
  cases op with
  | publish e => exact setting_deliverAll h.countPublished e _
  | receive id generation =>
    exact (setting_take _ id generation).trans (setting_refill h id generation)
  | disconnect id generation => exact setting_disconnect h id generation
  | reconnect id => exact setting_reconnect h id
  | control id text time => exact setting_control h id text time
  | _ => rfl

/-! ## Hubs that look alike -/

/-- Two hubs look alike to a subscriber: it and its channels are found in both, as are the sizes
and the time. -/
structure Alike (id : String) (h h' : Hub) : Prop where
  found : h'.find? id = h.find? id
  channels : ∀ g, h'.channel? id g = h.channel? id g
  setting : h'.setting = h.setting

namespace Alike

theorem refl (h : Hub) : Alike id h h := ⟨rfl, fun _ => rfl, rfl⟩

theorem symm (halike : Alike id h h') : Alike id h' h :=
  ⟨halike.found.symm, fun g => (halike.channels g).symm, halike.setting.symm⟩

theorem trans (h₁ : Alike id h h') (h₂ : Alike id h' h'') : Alike id h h'' :=
  ⟨h₂.found.trans h₁.found, fun g => (h₂.channels g).trans (h₁.channels g),
    h₂.setting.trans h₁.setting⟩

theorem config (halike : Alike id h h') : h'.config = h.config := congrArg (·.1) halike.setting

theorem time (halike : Alike id h h') : h'.time = h.time := congrArg (·.2) halike.setting

/-- What only touches another subscriber is not seen. -/
theorem of_onlyTouches (htouches : OnlyTouches id' h h') (hsetting : h'.setting = h.setting)
    (hid : id ≠ id') : Alike id h h' :=
  ⟨(htouches id hid).1, (htouches id hid).2, hsetting⟩

/-- Counters are not seen. -/
theorem count (halike : Alike id h h') (counters counters' : HubCounters) :
    Alike id { h with counters } { h' with counters := counters' } :=
  ⟨halike.found, halike.channels, halike.setting⟩

theorem update {f : Subscriber → Subscriber} (halike : Alike id h h') (hf : ∀ t, (f t).id = t.id) :
    Alike id (h.update id f) (h'.update id f) where
  found := by rw [find?_update hf, find?_update hf, halike.found]
  channels := halike.channels
  setting := halike.setting

theorem updateChannel {g : Nat} {f : Channel → Channel} (halike : Alike id h h')
    (hf : ∀ d, (f d).subscriber = d.subscriber ∧ (f d).generation = d.generation) :
    Alike id (h.updateChannel id g f) (h'.updateChannel id g f) where
  found := halike.found
  channels g' := by
    rw [channel?_updateChannel hf, channel?_updateChannel hf, halike.channels]
  setting := halike.setting

theorem unplug (halike : Alike id h h') :
    Alike id (h.update id h.unplug) (h'.update id h'.unplug) := by
  have hunplug : h'.unplug = h.unplug := by
    funext s
    rw [Hub.unplug, Hub.unplug, halike.time]
  rw [hunplug]
  exact halike.update fun _ => rfl

theorem offer (halike : Alike id h h') (hs : s.id = id) : h'.offer s = h.offer s := by
  subst hs
  unfold Hub.offer room
  rw [halike.channels, halike.config]

theorem send (halike : Alike id h h') (hs : s.id = id) (e : Envelope) :
    Alike id (h.send s e) (h'.send s e) := by
  subst hs
  exact (halike.updateChannel (f := fun c => { c with queue := c.queue ++ [e] })
    fun _ => ⟨rfl, rfl⟩).count _ _

theorem enqueue (halike : Alike id h h') (e : Envelope) :
    Alike id (h.enqueue id e) (h'.enqueue id e) := by
  have hcapacity : h'.config.backlog = h.config.backlog := by rw [halike.config]
  unfold Hub.enqueue
  rw [halike.found, hcapacity]
  cases h.find? id with
  | none => exact halike
  | some s =>
    simp only
    split
    · exact halike.count _ _
    · exact (halike.update (f := fun t => { t with
        backlog := t.backlog.drop (s.backlog.length + 1 - h.config.backlog) ++ [e] })
        fun _ => rfl).count _ _

/-- An operation of a subscriber gives the same in both hubs, and leaves them alike. -/
def Agrees {α : Type} (id : String) (r r' : α × Hub) : Prop := r'.1 = r.1 ∧ Alike id r.2 r'.2

theorem flushFrom (halike : Alike id h h') (l : List Envelope) :
    Agrees id (h.flushFrom id l) (h'.flushFrom id l) := by
  induction l generalizing h h' with
  | nil => exact ⟨rfl, halike⟩
  | cons e rest ih =>
    unfold Hub.flushFrom
    rw [halike.found]
    cases hs : h.find? id with
    | none => exact ⟨rfl, halike⟩
    | some s =>
      have hid := id_of_find? hs
      simp only
      split
      · exact ⟨rfl, halike⟩
      · rw [halike.offer hid]
        cases h.offer s with
        | full => exact ⟨rfl, halike⟩
        | gone => exact ⟨rfl, halike.unplug⟩
        | accepted =>
          obtain ⟨hcount, hrest⟩ := ih ((halike.send hid e).update
            (f := fun s => { s with backlog := rest }) fun _ => rfl)
          exact ⟨congrArg (· + 1) hcount, hrest⟩

theorem flush (halike : Alike id h h') : Agrees id (h.flush id) (h'.flush id) := by
  unfold Hub.flush
  rw [halike.found]
  cases h.find? id with
  | none => exact ⟨rfl, halike⟩
  | some s => exact halike.flushFrom s.backlog

theorem deliver (halike : Alike id h h') (e : Envelope) :
    Agrees id (h.deliver id e) (h'.deliver id e) := by
  unfold Hub.deliver
  rw [halike.found]
  cases hs : h.find? id with
  | none => exact ⟨rfl, halike⟩
  | some s =>
    have hid := id_of_find? hs
    simp only
    split
    · rw [halike.offer hid]
      cases h.offer s with
      | accepted => exact ⟨rfl, halike.send hid e⟩
      | full => exact ⟨rfl, halike.enqueue e⟩
      | gone => exact ⟨rfl, halike.unplug.enqueue e⟩
    · obtain ⟨hcount, hrest⟩ := (halike.enqueue e).flush
      exact ⟨by rw [hcount], hrest⟩

theorem take (halike : Alike id h h') (generation : Nat) :
    Agrees id (h.take id generation) (h'.take id generation) := by
  unfold Hub.take isOpen
  rw [halike.channels, halike.found]
  cases h.channel? id generation with
  | none => exact ⟨rfl, halike⟩
  | some c =>
    simp only
    cases c.queue with
    | nil => exact ⟨rfl, halike⟩
    | cons e rest => exact ⟨rfl, halike.updateChannel fun _ => ⟨rfl, rfl⟩⟩

theorem refill (halike : Alike id h h') (generation : Nat) :
    Alike id (h.refill id generation) (h'.refill id generation) := by
  unfold Hub.refill
  rw [halike.found]
  cases h.find? id with
  | none => exact halike
  | some s =>
    simp only
    split
    · exact halike.flush.2
    · exact halike

theorem receive (halike : Alike id h h') (generation : Nat) :
    Agrees id (h.receive id generation) (h'.receive id generation) :=
  (halike.refill generation).take generation

theorem disconnect (halike : Alike id h h') (generation : Nat) :
    Agrees id (h.disconnect id generation) (h'.disconnect id generation) := by
  unfold Hub.disconnect
  rw [halike.found]
  cases h.find? id with
  | none => exact ⟨rfl, halike⟩
  | some s =>
    simp only
    split
    · exact ⟨rfl, halike.unplug⟩
    · exact ⟨rfl, halike⟩

theorem rejoin (halike : Alike id h h') (hs : s.id = id) :
    Alike id (h.rejoin s) (h'.rejoin s) := by
  subst hs
  have hseated := halike.update (f := fun t => { t with
    connected := true, idleSince := none, generation := s.generation + 1 }) fun _ => rfl
  refine ⟨hseated.found, fun g => ?_, hseated.setting⟩
  have hold : h'.channels.find? (fun c => c.subscriber == s.id && c.generation == g) =
    h.channels.find? fun c => c.subscriber == s.id && c.generation == g := halike.channels g
  simp only [channel?, Hub.rejoin, List.find?_append, hold]

theorem reconnect (halike : Alike id h h') :
    Agrees id (h.reconnect id) (h'.reconnect id) := by
  cases hs : h.find? id with
  | none =>
    simp only [Hub.reconnect, hs, halike.found]
    exact ⟨rfl, halike⟩
  | some s =>
    obtain rfl := id_of_find? hs
    have hs' : h'.find? s.id = some s := halike.found.trans hs
    refine ⟨?_, ?_⟩
    · simp only [Hub.reconnect, hs, hs']
    · rw [reconnect_eq hs, reconnect_eq hs']
      exact (halike.rejoin rfl).flush.2

theorem switchSession (halike : Alike id h h') (session : String) :
    Agrees id (h.switchSession id session) (h'.switchSession id session) :=
  ⟨by rw [Hub.switchSession, Hub.switchSession, halike.found],
    halike.update (f := fun s => { s with session, backlog := [] }) fun _ => rfl⟩

theorem control (halike : Alike id h h') (text : String) (time : Moment) :
    Agrees id (h.control id text time) (h'.control id text time) := by
  unfold Hub.control
  cases Control.read? text with
  | none => exact ⟨rfl, halike.count _ _⟩
  | some message =>
    cases message with
    | switchSession session =>
      obtain ⟨hknown, hswitched⟩ := halike.switchSession session
      exact ⟨by simp only [hknown], hswitched⟩
    | ping => exact ⟨by simp only [sessionOf, halike.found], halike⟩

theorem unsubscribe (halike : Alike id h h') :
    Agrees id (h.unsubscribe id) (h'.unsubscribe id) := by
  have hnone : ∀ g : Hub, (g.unsubscribe id).2.find? id = none := fun g =>
    List.find?_eq_none.mpr fun s hs => by simpa using (List.mem_filter.mp hs).2
  refine ⟨by rw [Hub.unsubscribe, Hub.unsubscribe, halike.found], ?_, halike.channels,
    halike.setting⟩
  rw [hnone, hnone]

end Alike

/-! ## Operations on others -/

/-- The subscriber that an operation is on, if it is on one. -/
def Op.subject? : Op → Option String
  | .receive id _ => some id
  | .release id _ => some id
  | .disconnect id _ => some id
  | .reconnect id => some id
  | .switchSession id _ => some id
  | .control id _ _ => some id
  | .unsubscribe id => some id
  | _ => none

/-- An operation on one subscriber only touches this one. -/
theorem apply_onlyTouches {op : Op} (hop : op.subject? = some id') :
    OnlyTouches id' h (h.apply op) := by
  cases op with
  | receive id generation =>
    cases hop
    exact (OnlyTouches.refill generation).trans (.take generation)
  | release id generation =>
    cases hop
    exact .updateChannel fun _ => ⟨rfl, rfl⟩
  | disconnect id generation =>
    cases hop
    exact .disconnect generation
  | reconnect id =>
    cases hop
    cases hs : h.find? id' with
    | none =>
      simp only [apply, reconnect, hs]
      exact .refl h
    | some s =>
      obtain rfl := id_of_find? hs
      change OnlyTouches s.id h (h.reconnect s.id).2
      rw [reconnect_eq hs]
      exact (OnlyTouches.rejoin s).trans .flush
  | switchSession id session =>
    cases hop
    exact .update fun _ => rfl
  | control id text time =>
    cases hop
    simp only [apply, control]
    cases Control.read? text with
    | none => exact (OnlyTouches.refl h).count _
    | some message =>
      cases message with
      | switchSession session => exact .update fun _ => rfl
      | ping => exact .refl h
  | unsubscribe id =>
    cases hop
    refine fun id hid => ⟨?_, fun _ => rfl⟩
    simp only [apply, unsubscribe, find?, List.find?_filter]
    congr 1
    funext s
    by_cases hs : s.id = id <;> simp [hs, hid]
  | _ => cases hop

/-- A subscriber does not see an operation on another one. -/
theorem apply_alike {op : Op} (hop : op.subject? = some id') (hid : id ≠ id') :
    Alike id h (h.apply op) := by
  refine .of_onlyTouches (apply_onlyTouches hop) ?_ hid
  rw [setting_apply]
  cases op with
  | wait => cases hop
  | _ => rfl

/-- A subscriber does not see that another one comes. -/
theorem subscribe_alike (hid : id ≠ subscriberId h.next) (session : String) :
    Alike id h (h.subscribe session).2 := by
  refine ⟨?_, fun g => ?_, rfl⟩
  · simp only [find?, subscribe, List.find?_append, List.find?_singleton, beq_iff_eq]
    rw [if_neg hid.symm, Option.or_none]
  · simp only [channel?, subscribe, List.find?_append, List.find?_singleton, Bool.and_eq_true,
      beq_iff_eq]
    rw [if_neg fun hkey => hid hkey.1.symm, Option.or_none]

/-! ## Publishing -/

/-- Of an envelope that is given to several subscribers, one of them sees what is given to it. -/
theorem deliverAll_alike {ids : List String} (hnodup : ids.Nodup) (e : Envelope) :
    Alike id (if id ∈ ids then (h.deliver id e).2 else h) (h.deliverAll e ids).2 := by
  induction ids generalizing h with
  | nil => exact .refl h
  | cons id' rest ih =>
    obtain ⟨hfirst, hrest⟩ := List.nodup_cons.mp hnodup
    have hlater := ih (h := (h.deliver id' e).2) hrest
    by_cases hid : id = id'
    · subst hid
      rw [if_neg hfirst] at hlater
      rw [if_pos List.mem_cons_self]
      exact hlater
    · have hunseen : Alike id h (h.deliver id' e).2 :=
        .of_onlyTouches (.deliver e) (setting_deliver h id' e) hid
      refine Alike.trans ?_ hlater
      have hmem : id ∈ id' :: rest ↔ id ∈ rest := by simp [hid]
      simp only [hmem]
      split
      · exact (hunseen.deliver e).2
      · exact hunseen

/-- Of what is published, a subscriber of the session sees that it is given to itself. -/
theorem publish_sees {first : Nat} (hsound : Sound first h) (e : Envelope) :
    Alike id (if id ∈ h.audience e.session then (h.countPublished.deliver id e).2 else h)
      (h.apply (.publish e)) := by
  change Alike id _ (h.countPublished.deliverAll e (h.audience e.session)).2
  refine Alike.trans ?_ (deliverAll_alike (nodup_audience hsound e.session) e)
  split
  · exact .refl _
  · exact (Alike.refl h).count _ _

/-- What is published is seen alike in hubs that look alike. -/
theorem Alike.publish {first first' : Nat} (halike : Alike id h h') (hsound : Sound first h)
    (hsound' : Sound first' h') (e : Envelope) :
    Alike id (h.apply (.publish e)) (h'.apply (.publish e)) := by
  have hmem : id ∈ h'.audience e.session ↔ id ∈ h.audience e.session := by
    rw [mem_audience hsound, mem_audience hsound', halike.found]
  refine (publish_sees hsound e).symm.trans (Alike.trans ?_ (publish_sees hsound' e))
  simp only [hmem]
  split
  · exact ((halike.count _ _).deliver e).2
  · exact halike

/-- A subscriber of another session does not see what is published. -/
theorem publish_unseen {first : Nat} (hsound : Sound first h)
    (hother : ∀ s, h.find? id = some s → s.session ≠ e.session) :
    Alike id h (h.apply (.publish e)) := by
  have hunheard : id ∉ h.audience e.session := fun hmem => by
    obtain ⟨s, hs, hsession⟩ := (mem_audience hsound _).mp hmem
    exact hother s hs hsession
  refine Alike.trans ?_ (publish_sees hsound e)
  rw [if_neg hunheard]
  exact .refl h

/-! ## Forgetting the idle -/

/-- Of the subscribers that stay, each is found as before. -/
theorem find?_staying {first : Nat} (hsound : Sound first h) (p : Subscriber → Bool) :
    Hub.find? { h with subscribers := h.subscribers.filter p } id = (h.find? id).filter p := by
  have hold : ∀ t, Hub.find? { h with subscribers := h.subscribers.filter p } id = some t →
      h.find? id = some t := fun t ht => find?_filter hsound ht
  cases hnew : Hub.find? { h with subscribers := h.subscribers.filter p } id with
  | some t =>
    have hp : p t = true := (List.mem_filter.mp (mem_of_find? hnew)).2
    rw [hold t hnew, Option.filter_some, if_pos hp]
  | none =>
    symm
    refine Option.filter_eq_none_iff.mpr fun s hs hp => ?_
    have hstays := (hsound.filter p).find? (List.mem_filter.mpr ⟨mem_of_find? hs, hp⟩)
    rw [id_of_find? hs, hnew] at hstays
    cases hstays

theorem Alike.reap {first first' : Nat} (halike : Alike id h h') (hsound : Sound first h)
    (hsound' : Sound first' h') (idle : Span) : Alike id (h.reap idle).2 (h'.reap idle).2 := by
  refine ⟨?_, halike.channels, halike.setting⟩
  simp only [Hub.reap]
  rw [find?_staying hsound, find?_staying hsound', halike.found, halike.time]

end Hub
end ContextBudget
