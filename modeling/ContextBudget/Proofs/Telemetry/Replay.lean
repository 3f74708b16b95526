import ContextBudget.Proofs.Telemetry.Conservation

/-!
# Replay

What an observer that comes and goes receives over all its connections, and what it can still read
on the last one.

- `readAll_live_take`, `readAll_live`: the observer of a live connection reads its channel and then
  its backlog, to the end.
- `Vacated`: a connection that came to its end, or was replaced, holds nothing.
- `returns_replay`: all that was published is received or can still be read, save what was evicted
  and what was unread in a channel when its observer dropped it.
-/

namespace ContextBudget

/-- Buffers that were used one after another are one buffer, if each was empty before the next. -/
theorem Buffered.inTurn {α : Type} {came went waits lost : Nat → List α} {n : Nat}
    (h : ∀ g, Buffered (came g) (went g) (waits g) (lost g)) (hempty : ∀ g < n, waits g = []) :
    Buffered ((List.range (n + 1)).flatMap came) ((List.range (n + 1)).flatMap went) (waits n)
      ((List.range (n + 1)).flatMap lost) := by
  induction n with
  | zero => simpa using h 0
  | succ n ih =>
    have hbefore := ih fun g hg => hempty g (Nat.lt_succ_of_lt hg)
    rw [hempty n (Nat.lt_succ_self n)] at hbefore
    have hnext : Buffered ([] ++ came (n + 1)) (went (n + 1)) (waits (n + 1)) (lost (n + 1)) :=
      h (n + 1)
    have hboth := hbefore.trans hnext
    simpa only [List.range_succ (n := n + 1), List.flatMap_append, List.flatMap_singleton]
      using hboth

/-- A buffer that may lose some more obeys the law without them exactly if it loses none of them. -/
theorem Buffered.iff_nil {α : Type} {came went waits lost lost' : List α}
    (h : Buffered came went waits (lost ++ lost')) :
    Buffered came went waits lost' ↔ lost = [] := by
  constructor
  · intro h'
    have hall := h.once.length_eq
    have hsome := h'.once.length_eq
    simp only [List.length_append] at hall hsome
    exact List.eq_nil_of_length_eq_zero (by omega)
  · rintro rfl
    exact h

namespace Hub

variable {first : Nat} {h h' : Hub} {id : String} {s : Subscriber} {c : Channel} {e : Envelope}

/-! ## Live connections -/

/-- A subscriber is connected through a channel that its observer holds. -/
structure Live (h : Hub) (s : Subscriber) (c : Channel) : Prop where
  known : h.find? s.id = some s
  connected : s.connected = true
  channel : h.channel? s.id s.generation = some c
  held : c.held = true

/-- Flushing leaves something to wait only where the channel has something to read, or nothing can
be sent. -/
theorem waiting_flush {t : Subscriber} (hs : h.find? s.id = some s)
    (ht : (h.flush s.id).2.find? s.id = some t) (connected : t.connected = true)
    (hc : (h.flush s.id).2.channel? s.id s.generation = some c) (hempty : c.queue = []) :
    t.backlog = [] := by
  have hcases := flush_cases hs
  generalize h.flush s.id = r at hcases ht hc
  cases hcases with
  | idle nothing =>
    obtain rfl : s = t := Option.some.inj (hs.symm.trans ht)
    exact nothing.resolve_right (by simp [connected])
  | gone _ _ _ =>
    rw [find?_update_self (f := h.unplug) hs fun _ => rfl] at ht
    obtain rfl := Option.some.inj ht
    cases connected
  | full _ _ refused =>
    obtain ⟨d, hd, -, hfull⟩ := offer_eq_full.mp refused
    obtain rfl : c = d := Option.some.inj (hc.symm.trans hd)
    have hroom : 1 ≤ h.room := Nat.le_max_right _ _
    rw [hempty, List.length_nil] at hfull
    omega
  | moved d n _ channel _ count some_move =>
    rw [channel?_push channel] at hc
    obtain rfl := Option.some.inj hc
    have htake := (List.append_eq_nil_iff.mp hempty).2
    rw [List.take_eq_nil_iff] at htake
    rcases htake with rfl | hnone
    · omega
    · rw [hnone, List.length_nil] at count
      omega

/-- Flushing moves the start of the backlog to the end of the channel. -/
theorem flush_live (hlive : Live h s c) : ∃ sent rest, s.backlog = sent ++ rest ∧
    Live (h.flush s.id).2 { s with backlog := rest } { c with queue := c.queue ++ sent } := by
  have hcases := flush_cases hlive.known
  generalize h.flush s.id = r at hcases
  cases hcases with
  | idle => exact ⟨[], s.backlog, rfl, by simpa using hlive⟩
  | gone _ _ refused =>
    simp only [offer, hlive.channel, hlive.held, Bool.not_true, Bool.false_eq_true, if_false]
      at refused
    split at refused <;> cases refused
  | full => exact ⟨[], s.backlog, rfl, by simpa using hlive⟩
  | moved d n connected =>
    exact ⟨s.backlog.take n, s.backlog.drop n, (List.take_append_drop n _).symm,
      find?_push hlive.known _ _, connected, channel?_push hlive.channel _ _, hlive.held⟩

/-- Before the current channel is read, the backlog is flushed into it. -/
theorem receive_eq (hs : h.find? s.id = some s) :
    h.receive s.id s.generation = (h.flush s.id).2.take s.id s.generation := by
  rw [receive, refill, hs]
  simp only [if_true]

theorem receive_live_nil (hlive : Live h s c) (hall : c.queue ++ s.backlog = []) :
    (h.receive s.id s.generation).1 = .pending := by
  obtain ⟨sent, rest, hbacklog, hflushed⟩ := flush_live hlive
  rw [hbacklog, ← List.append_assoc] at hall
  obtain ⟨hqueue, rfl⟩ := List.append_eq_nil_iff.mp hall
  rw [receive_eq hlive.known, take, hflushed.channel]
  simp [hqueue, isOpen, hflushed.known, hlive.connected]

theorem receive_live_cons {rest : List Envelope} (hlive : Live h s c)
    (hall : c.queue ++ s.backlog = e :: rest) :
    (h.receive s.id s.generation).1 = .envelope e ∧
      ∃ s' c', Live (h.receive s.id s.generation).2 s' c' ∧ s'.id = s.id ∧
        s'.generation = s.generation ∧ c'.queue ++ s'.backlog = rest := by
  obtain ⟨sent, left, hbacklog, hflushed⟩ := flush_live hlive
  rw [hbacklog, ← List.append_assoc] at hall
  rw [receive_eq hlive.known]
  cases hqueue : c.queue ++ sent with
  | nil =>
    have hnone : left = [] :=
      waiting_flush hlive.known hflushed.known hflushed.connected hflushed.channel hqueue
    rw [hqueue, hnone] at hall
    cases hall
  | cons e' queue =>
    rw [hqueue, List.cons_append] at hall
    obtain ⟨rfl, rfl⟩ := List.cons.inj hall
    have htake : (h.flush s.id).2.take s.id s.generation = (.envelope e',
        (h.flush s.id).2.updateChannel s.id s.generation fun c => { c with queue }) := by
      rw [take, hflushed.channel]
      simp only [hqueue]
    rw [htake]
    have hchannel := channel?_updateChannel_self (f := fun c => { c with queue }) hflushed.channel
      fun _ => ⟨rfl, rfl⟩
    exact ⟨rfl, { s with backlog := left }, { c with queue },
      ⟨hflushed.known, hflushed.connected, hchannel, hflushed.held⟩, rfl, rfl, rfl⟩

/-- The observer of a live connection reads what its channel and its backlog hold, in this order,
and waits only when it has read all of it. -/
theorem readAll_live_take (hlive : Live h s c) (most : Nat) :
    (h.readAll (·.receive s.id s.generation) most).1 = ((c.queue ++ s.backlog).take most,
      if most ≤ (c.queue ++ s.backlog).length then none else some .pending) := by
  induction most generalizing h s c with
  | zero => simp [readAll]
  | succ most ih =>
    rw [readAll]
    cases hall : c.queue ++ s.backlog with
    | nil =>
      have hread := receive_live_nil hlive hall
      generalize h.receive s.id s.generation = r at hread
      obtain ⟨r, h'⟩ := r
      obtain rfl : r = .pending := hread
      simp
    | cons e rest =>
      obtain ⟨hread, s', c', hlive', hid, hgeneration, hrest⟩ := receive_live_cons hlive hall
      have hlater := ih hlive'
      rw [hid, hgeneration, hrest] at hlater
      generalize h.receive s.id s.generation = r at hread hlater
      obtain ⟨r, h'⟩ := r
      obtain rfl : r = .envelope e := hread
      simp only at hlater
      simp only [hlater, List.take_succ_cons, List.length_cons, Nat.add_le_add_iff_right]

theorem readAll_live {most : Nat} (hlive : Live h s c)
    (hmost : (c.queue ++ s.backlog).length < most) :
    (h.readAll (·.receive s.id s.generation) most).1 = (c.queue ++ s.backlog, some .pending) := by
  rw [readAll_live_take hlive, List.take_of_length_le (Nat.le_of_lt hmost),
    if_neg (Nat.not_le_of_lt hmost)]

/-! ## Connections that ended -/

/-- Nothing is left in the channels before the one of a generation, nor in that one once its
observer has dropped it. -/
structure Vacated (h : Hub) (id : String) (generation : Nat) : Prop where
  earlier : ∀ g < generation, h.queueOf id g = []
  dropped : ∀ c, h.channel? id generation = some c → c.held = false → c.queue = []

namespace Vacated

theorem of_onlyTouches {id' : String} {generation : Nat} (hv : Vacated h id generation)
    (htouches : OnlyTouches id' h h') (hid : id ≠ id') : Vacated h' id generation where
  earlier g hg := by rw [queueOf, (htouches id hid).2]; exact hv.earlier g hg
  dropped c hc := hv.dropped c (((htouches id hid).2 generation).symm.trans hc)

/-- Channels do not depend on who is connected, nor on what waits. -/
theorem of_channels {generation : Nat} (hv : Vacated h id generation)
    (hsame : h'.channels = h.channels) : Vacated h' id generation where
  earlier g hg := by rw [queueOf, channel?, hsame]; exact hv.earlier g hg
  dropped c hc := hv.dropped c (by rwa [channel?, hsame] at hc)

theorem updateChannel {generation g : Nat} {f : Channel → Channel} (hv : Vacated h id generation)
    (hf : ∀ d, (f d).subscriber = d.subscriber ∧ (f d).generation = d.generation)
    (hempty : ∀ c, h.channel? id g = some c → c.queue = [] → (f c).queue = [])
    (hheld : ∀ c, h.channel? id g = some c → (f c).held = false →
      c.held = false ∨ (f c).queue = []) :
    Vacated (h.updateChannel id g f) id generation := by
  have hchannel := @channel?_updateChannel h id f hf g id
  refine ⟨fun g' hg' => ?_, fun c hc hdropped => ?_⟩
  · have hbefore := hv.earlier g' hg'
    rw [queueOf] at hbefore
    rw [queueOf, hchannel]
    by_cases hg : g' = g
    · subst hg
      rw [if_pos ⟨rfl, rfl⟩]
      cases hd : h.channel? id g' with
      | none => rfl
      | some d =>
        rw [hd] at hbefore
        exact hempty d hd hbefore
    · rwa [if_neg fun he => hg he.2]
  · rw [hchannel] at hc
    by_cases hg : generation = g
    · subst hg
      rw [if_pos ⟨rfl, rfl⟩] at hc
      obtain ⟨d, hd, rfl⟩ := Option.map_eq_some_iff.mp hc
      rcases hheld d hd hdropped with hd' | hd'
      · exact hempty d hd (hv.dropped d hd hd')
      · exact hd'
    · rw [if_neg fun he => hg he.2] at hc
      exact hv.dropped c hc hdropped

/-- What is sent goes to a channel that is held. -/
theorem append (hv : Vacated h s.id s.generation)
    (hc : h.channel? s.id s.generation = some c) (hheld : c.held = true) (sent : List Envelope) :
    Vacated (h.updateChannel s.id s.generation fun c => { c with queue := c.queue ++ sent })
      s.id s.generation := by
  have hchannel := @channel?_updateChannel h s.id (fun c => { c with queue := c.queue ++ sent })
    (fun _ => ⟨rfl, rfl⟩) s.generation s.id
  refine ⟨fun g hg => ?_, fun d hd hdropped => ?_⟩
  · rw [queueOf, hchannel, if_neg fun he => Nat.ne_of_lt hg he.2]
    exact hv.earlier g hg
  · rw [hchannel, if_pos ⟨rfl, rfl⟩, hc, Option.map_some] at hd
    cases hd
    exact absurd (hheld.symm.trans hdropped) (by decide)

theorem enqueue {generation : Nat} (hv : Vacated h id generation) (id' : String) (e : Envelope) :
    Vacated (h.enqueue id' e) id generation := by
  refine hv.of_channels ?_
  have hcases := enqueue_cases h id' e
  generalize h.enqueue id' e = h' at hcases
  cases hcases <;> rfl

theorem flush (hs : h.find? s.id = some s) (hv : Vacated h s.id s.generation) :
    Vacated (h.flush s.id).2 s.id s.generation := by
  have hcases := flush_cases hs
  generalize h.flush s.id = r at hcases
  cases hcases with
  | idle => exact hv
  | gone => exact hv.of_channels rfl
  | full => exact hv
  | moved c n connected channel held =>
    exact (hv.append channel held (s.backlog.take n)).of_channels rfl

theorem deliver (hs : h.find? s.id = some s) (hv : Vacated h s.id s.generation) (e : Envelope) :
    Vacated (h.deliver s.id e).2 s.id s.generation := by
  have hcases := deliver_cases h s.id e
  generalize h.deliver s.id e = r at hcases
  cases hcases with
  | unknown => exact hv
  | sent t known first connected accepted =>
    obtain rfl : s = t := Option.some.inj (hs.symm.trans known)
    obtain ⟨c, hc, hheld, -⟩ := offer_eq_accepted.mp accepted
    exact (hv.append hc hheld [e]).of_channels rfl
  | full => exact hv.enqueue s.id e
  | gone =>
    have hunplugged : Vacated (h.update s.id h.unplug) s.id s.generation := hv.of_channels rfl
    exact hunplugged.enqueue s.id e
  | behind =>
    have hsame : SameSeats h (h.enqueue s.id e) := .enqueue e
    obtain ⟨t, ht, -, hgeneration⟩ := hsame.find?_of hs
    have hnext := hv.enqueue s.id e
    obtain hid := id_of_find? ht
    rw [← hid, ← hgeneration] at hnext ⊢
    exact hnext.flush (hid ▸ ht)

theorem deliverAll {ids : List String} (hs : h.find? s.id = some s)
    (hv : Vacated h s.id s.generation) (e : Envelope) :
    Vacated (h.deliverAll e ids).2 s.id s.generation := by
  induction ids generalizing h s with
  | nil => exact hv
  | cons id rest ih =>
    have hnext : Vacated (h.deliver id e).2 s.id s.generation := by
      by_cases hid : s.id = id
      · subst hid
        exact hv.deliver hs e
      · exact hv.of_onlyTouches (.deliver e) hid
    have hsame : SameSeats h (h.deliver id e).2 := .deliver e
    obtain ⟨t, ht, -, hgeneration⟩ := hsame.find?_of hs
    have hid := id_of_find? ht
    rw [← hid, ← hgeneration] at hnext ⊢
    exact ih (hid ▸ ht) hnext

theorem refill {generation : Nat} (hs : h.find? s.id = some s) (hv : Vacated h s.id s.generation) :
    Vacated (h.refill s.id generation) s.id s.generation := by
  have hcases := refill_cases h s.id generation
  generalize h.refill s.id generation = h' at hcases
  cases hcases with
  | same => exact hv
  | flushed => exact hv.flush hs

theorem take {generation : Nat} (hv : Vacated h id generation) (g : Nat) :
    Vacated (h.take id g).2 id generation := by
  have hcases := take_cases h id g
  generalize h.take id g = r at hcases
  cases hcases with
  | nothing => exact hv
  | first c e rest channel queue =>
    refine hv.updateChannel (fun _ => ⟨rfl, rfl⟩) (fun d hd hnil => ?_) fun d hd => .inl
    obtain rfl : c = d := Option.some.inj (channel.symm.trans hd)
    rw [queue] at hnil
    cases hnil

theorem release {generation : Nat} (hv : Vacated h id generation) (g : Nat) :
    Vacated (h.release id g) id generation :=
  hv.updateChannel (fun _ => ⟨rfl, rfl⟩) (fun _ _ _ => rfl) fun _ _ _ => .inr rfl

end Vacated

/-- Whether the observer of a subscriber's connection has dropped its end of the channel. -/
def left (h : Hub) (id : String) : Bool :=
  match h.find? id with
  | none => true
  | some s =>
    match h.channel? id s.generation with
    | none => true
    | some c => !c.held

/-- Whether an operation lets a subscriber come back only after its connection has ended. -/
def endsFirst (h : Hub) (id : String) : Op → Bool
  | .reconnect id' => id' != id || h.left id
  | _ => true

/-- Whether all along a history a subscriber comes back only after its connection has ended. -/
def comesAndGoes (h : Hub) (id : String) : List Op → Bool
  | [] => true
  | op :: rest => h.endsFirst id op && (h.apply op).comesAndGoes id rest

/-- A new connection starts with an empty channel; the one before it was left with nothing. -/
theorem Vacated.rejoin (hsound : Sound first h) (hs : h.find? s.id = some s)
    (hv : Vacated h s.id s.generation) (hleft : h.left s.id = true) :
    Vacated (h.rejoin s) s.id (s.generation + 1) := by
  have hqueues : ∀ g, (h.rejoin s).queueOf s.id g = h.queueOf s.id g :=
    Flow.queueOf_append rfl rfl s.id
  refine ⟨fun g hg => ?_, fun c hc hdropped => ?_⟩
  · rw [hqueues]
    rcases Nat.lt_succ_iff_lt_or_eq.mp hg with hg | rfl
    · exact hv.earlier g hg
    · rw [queueOf]
      cases hc : h.channel? s.id s.generation with
      | none => rfl
      | some c =>
        simp only [left, hs, hc, Bool.not_eq_true'] at hleft
        exact hv.dropped c hc hleft
  · have hnew := hsound.channel?_eq_none hs (Nat.lt_succ_self s.generation)
    simp only [channel?, Hub.rejoin, List.find?_append] at hc hnew
    rw [hnew, Option.none_or] at hc
    rw [List.mem_singleton.mp (List.mem_of_find?_eq_some hc)]

/-- Where a subscriber comes back, or another one does, nothing unread is left behind. -/
theorem reconnect_vacated (hsound : Sound first h) (hs : h.find? s.id = some s) {id' : String}
    (hleft : id' = s.id → h.left s.id = true) (hv : Vacated h s.id s.generation) :
    ∃ t, (h.reconnect id').2.find? s.id = some t ∧
      Vacated (h.reconnect id').2 s.id t.generation := by
  cases ht : h.find? id' with
  | none =>
    simp only [Hub.reconnect, ht]
    exact ⟨s, hs, hv⟩
  | some t =>
    obtain rfl := id_of_find? ht
    rw [reconnect_eq ht]
    by_cases hid : s.id = t.id
    · obtain rfl : s = t := Option.some.inj (hs.symm.trans (hid ▸ ht))
      have hback := find?_rejoin hs
      have hseats : SameSeats (h.rejoin s) ((h.rejoin s).flush s.id).2 := .flush
      obtain ⟨u, hu, -, hgeneration⟩ := hseats.find?_of hback
      have hflushed : Vacated ((h.rejoin s).flush s.id).2 s.id (s.generation + 1) :=
        Vacated.flush (s := { s with
          connected := true, idleSince := none, generation := s.generation + 1 }) hback
          (hv.rejoin hsound hs (hleft rfl))
      exact ⟨u, hu, hgeneration ▸ hflushed⟩
    · have htouches := (OnlyTouches.rejoin (h := h) t).trans .flush
      exact ⟨s, by rw [(htouches s.id hid).1, hs], hv.of_onlyTouches htouches hid⟩

theorem apply_vacated (hsound : Sound first h) (hs : h.find? id = some s) {op : Op}
    (hkeeps : h.keeps id op = true) (hends : h.endsFirst id op = true)
    (hv : Vacated h id s.generation) :
    ∃ t, (h.apply op).find? id = some t ∧ Vacated (h.apply op) id t.generation := by
  obtain rfl := id_of_find? hs
  have hsame : ∀ {h'}, SameSeats h h' → Vacated h' s.id s.generation →
      ∃ t, h'.find? s.id = some t ∧ Vacated h' s.id t.generation := by
    intro h' hseats hv'
    obtain ⟨t, ht, -, hgeneration⟩ := hseats.find?_of hs
    exact ⟨t, ht, hgeneration ▸ hv'⟩
  cases kept_cases hsound hs hkeeps with
  | publish e =>
    have hcounted : Vacated h.countPublished s.id s.generation := hv.of_channels rfl
    have hknown : h.countPublished.find? s.id = some s := hs
    exact hsame (.publish e) (hcounted.deliverAll hknown e)
  | receive id' generation =>
    refine hsame (.receive generation) ?_
    by_cases hid : s.id = id'
    · subst hid
      exact (hv.refill hs).take generation
    · exact hv.of_onlyTouches ((OnlyTouches.refill generation).trans (.take generation)) hid
  | release id' generation =>
    refine hsame (.release generation) ?_
    by_cases hid : s.id = id'
    · subst hid
      exact hv.release generation
    · exact hv.of_onlyTouches (.updateChannel fun _ => ⟨rfl, rfl⟩) hid
  | disconnect id' generation =>
    refine hsame (.disconnect generation) (hv.of_channels ?_)
    have hcases := disconnect_cases h id' generation
    change (h.disconnect id' generation).2.channels = _
    generalize h.disconnect id' generation = r at hcases
    cases hcases <;> rfl
  | reconnect id' =>
    refine reconnect_vacated hsound hs ?_ hv
    rintro rfl
    simpa [endsFirst] using hends
  | quiet _ found queues channels =>
    refine ⟨s, found, fun g hg => (queues g).trans (hv.earlier g hg), fun c hc hdropped => ?_⟩
    cases hold : h.channel? s.id s.generation with
    | none =>
      have hempty := queues s.generation
      rwa [queueOf_eq hc, queueOf, hold] at hempty
    | some d =>
      obtain rfl : d = c := Option.some.inj ((channels _ d hold).symm.trans hc)
      exact hv.dropped d hold hdropped

/-- A subscriber that comes back only after its connections ended leaves nothing in them. -/
theorem run_vacated {ops : List Op} (hready : Ready first h ops) (hs : h.find? id = some s)
    (hstays : h.stays id ops = true) (hgoes : h.comesAndGoes id ops = true)
    (hv : Vacated h id s.generation) :
    ∃ t, (h.run ops).find? id = some t ∧ Vacated (h.run ops) id t.generation := by
  induction ops generalizing h s with
  | nil => exact ⟨s, hs, hv⟩
  | cons op rest ih =>
    simp only [stays, comesAndGoes, Bool.and_eq_true] at hstays hgoes
    obtain ⟨t, ht, hnext⟩ := apply_vacated hready.sound hs hstays.1 hgoes.1 hv
    exact ih hready.step ht hstays.2 hgoes.2 hnext

/-! ## What an observer receives -/

/-- What a subscriber received over its connections, one connection after another. -/
def receivedOver (id : String) (latest : Nat) (log : List Move) : List Envelope :=
  (List.range (latest + 1)).flatMap fun g => receivedVia id g log

/-- What was unread in the channels of a subscriber when its observer dropped them. -/
def lostOver (id : String) (latest : Nat) (log : List Move) : List Envelope :=
  (List.range (latest + 1)).flatMap fun g => lostVia id g log

/-- From empty buffers on, an observer that stays on its session and comes back only after its
connection ended has received all that was published to it, save what its buffers hold, what was
evicted and what it left unread. -/
theorem new_replays {ops : List Op} {t : Subscriber} (hready : Ready first h ops)
    (hs : h.find? id = some s) (hbacklog : s.backlog = []) (hqueues : ∀ g, h.queueOf id g = [])
    (hstays : h.stays id ops = true) (hgoes : h.comesAndGoes id ops = true)
    (hlive : Live (h.run ops) t c) (hid : t.id = id) :
    t.session = s.session ∧
      Buffered (publishedTo s.session ops) (receivedOver id t.generation (h.log ops))
        (c.queue ++ t.backlog)
        (lostOver id t.generation (h.log ops) ++ evictedFrom id (h.log ops)) := by
  subst hid
  obtain ⟨u, hu, hsession, hlaw, hchannel⟩ := new_conserves hready hs hbacklog hqueues hstays
  obtain rfl : t = u := Option.some.inj (hlive.known.symm.trans hu)
  obtain ⟨u, hu, hvacated⟩ := run_vacated hready hs hstays hgoes
    ⟨fun g _ => hqueues g, fun c hc _ => (queueOf_eq hc).symm.trans (hqueues s.generation)⟩
  obtain rfl : t = u := Option.some.inj (hlive.known.symm.trans hu)
  -- The channels, one after another, are one buffer behind the backlog.
  have hconnections := Buffered.inTurn (n := t.generation) hchannel hvacated.earlier
  rw [queueOf_eq hlive.channel] at hconnections
  exact ⟨hsession, hlaw.through hconnections⟩

/-- What a subscriber received over its connections along a history, followed by what it can still
read, is all that was published to its session, in order, save what was evicted. -/
def Replays (h : Hub) (s : Subscriber) (ops : List Op) : Prop :=
  Buffered (publishedTo s.session ops) (receivedOver s.id s.generation (h.log ops))
    ((h.run ops).readAll (·.receive s.id s.generation)
      ((publishedTo s.session ops).length + 1)).1.1
    (evictedFrom s.id (h.log ops))

/-- An observer that stays on its session and comes back only after its connection ended receives,
or can still read, all that was published since it subscribed, save what was evicted and what it
left unread in the channels that it dropped. -/
theorem returns_replay (config : HubConfig) (next : Nat) (before after : List Op)
    (session : String) {sub : Subscription} {h : Hub} {s : Subscriber} {c : Channel}
    (hids : (before ++ .subscribe session :: after).countP Op.isSubscribe ≤ idCount)
    (hsub : ((Hub.empty config next).run before).subscribe session = (sub, h))
    (hstays : h.stays sub.id after = true) (hgoes : h.comesAndGoes sub.id after = true)
    (hlive : Live (h.run after) s c) (hid : s.id = sub.id) :
    s.session = session ∧
      (∀ most, (publishedTo session after).length < most →
        ∃ readable, ((h.run after).readAll (·.receive s.id s.generation) most).1 =
            (readable, some .pending) ∧
          Buffered (publishedTo session after) (receivedOver s.id s.generation (h.log after))
            readable (lostOver s.id s.generation (h.log after) ++
              evictedFrom s.id (h.log after))) ∧
      (h.Replays s after ↔ lostOver s.id s.generation (h.log after) = []) ∧
      (h.run after).counters.evicted =
        h.counters.evicted + (h.log after).countP Move.isEvicted := by
  obtain ⟨rfl, rfl⟩ : sub = (((Hub.empty config next).run before).subscribe session).1 ∧
      h = (((Hub.empty config next).run before).subscribe session).2 := by simp [hsub]
  have hready := (Ready.empty config next hids).run
  obtain ⟨hfound, hqueues⟩ := subscribed hready.sound (hready.lt_of_isSubscribe rfl) session
  obtain ⟨hsession, hlaw⟩ := new_replays hready.step hfound rfl hqueues hstays hgoes hlive hid
  obtain rfl : s.session = session := hsession
  rw [← show s.id = subscriberId ((Hub.empty config next).run before).next from hid] at hlaw
  have hread : ∀ most, (publishedTo s.session after).length < most →
      (((((Hub.empty config next).run before).subscribe s.session).2.run after).readAll
        (·.receive s.id s.generation) most).1 = (c.queue ++ s.backlog, some .pending) := by
    intro most hmost
    refine readAll_live hlive (Nat.lt_of_le_of_lt ?_ hmost)
    exact ((List.sublist_append_right _ _).trans hlaw.order).length_le
  refine ⟨rfl, fun most hmost => ⟨_, hread most hmost, hlaw⟩, ?_, (run_counted _ after).evicted⟩
  rw [Replays, hread _ (Nat.lt_succ_self _)]
  exact hlaw.iff_nil

/-- An observer reads one envelope, drops its channel with a second one in it, and comes back after
a third. -/
def awayAndBack : List Op :=
  [.publish (numbered "a" 1), .receive (subscriberId 0) 0, .publish (numbered "a" 2),
    .release (subscriberId 0) 0, .publish (numbered "a" 3), .reconnect (subscriberId 0)]

theorem returns_replay_awayAndBack :
    smallest.stays (subscriberId 0) awayAndBack = true ∧
      smallest.comesAndGoes (subscriberId 0) awayAndBack = true ∧
      ∃ s c, Live (smallest.run awayAndBack) s c ∧
        (∀ most, (publishedTo "a" awayAndBack).length < most →
          ∃ readable, ((smallest.run awayAndBack).readAll (·.receive s.id s.generation) most).1 =
              (readable, some .pending) ∧
            Buffered (publishedTo "a" awayAndBack)
              (receivedOver s.id s.generation (smallest.log awayAndBack)) readable
              (lostOver s.id s.generation (smallest.log awayAndBack) ++
                evictedFrom s.id (smallest.log awayAndBack))) := by
  have hids : (Op.subscribe "a" :: awayAndBack).countP Op.isSubscribe ≤ idCount := by
    decide +kernel
  have hstays : smallest.stays (subscriberId 0) awayAndBack = true := by decide +kernel
  have hgoes : smallest.comesAndGoes (subscriberId 0) awayAndBack = true := by decide +kernel
  have hlive : Live (smallest.run awayAndBack) ⟨subscriberId 0, "a", true, [], none, 1⟩
      ⟨subscriberId 0, 1, [numbered "a" 3], true⟩ := ⟨rfl, rfl, rfl, rfl⟩
  obtain ⟨-, hlaw, -⟩ := returns_replay ⟨1, 1⟩ 0 [] awayAndBack "a" hids rfl hstays hgoes hlive rfl
  exact ⟨hstays, hgoes, _, _, hlive, hlaw⟩

/-- An observer drops its channel before it has read what came, and comes back. -/
def unreadDrop : List Op :=
  [.publish (numbered "a" 1), .release (subscriberId 0) 0, .reconnect (subscriberId 0)]

/-- What was unread when its channel was dropped is not replayed. -/
theorem not_replays_unreadDrop :
    smallest.stays (subscriberId 0) unreadDrop = true ∧
      smallest.comesAndGoes (subscriberId 0) unreadDrop = true ∧
      ∃ s c, Live (smallest.run unreadDrop) s c ∧ ¬ smallest.Replays s unreadDrop := by
  refine ⟨by decide +kernel, by decide +kernel, ⟨subscriberId 0, "a", true, [], none, 1⟩,
    ⟨subscriberId 0, 1, [], true⟩, ⟨rfl, rfl, rfl, rfl⟩, fun hreplays => ?_⟩
  have hlength := hreplays.once.length_eq
  revert hlength
  decide +kernel

end Hub
end ContextBudget
