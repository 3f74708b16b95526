import ContextBudget.Proofs.Telemetry.Places

/-!
# Arrivals

A publication tells to how many subscribers something was sent at once. Where others waited before
it, the envelope that was sent need not be the one that was published.

- `arrives`, `arrivals`: whether a published envelope itself comes into a channel, and into how
  many.
- `arrives_iff`, `mem_sentTo_iff`: it does if there are places for all that wait.
- `publish_counts_iff`: the number that is told is that of the arrivals exactly if no channel has
  places for some of what waits but not for all of it.
-/

namespace ContextBudget
namespace Hub

variable {first : Nat} {h : Hub} {s : Subscriber} {e : Envelope}

/-- Whether a published envelope itself comes into the channel of a subscriber. It comes behind all
that wait, so it does if something is sent and nothing is left to wait. -/
def arrives (h : Hub) (e : Envelope) (id : String) : Bool :=
  !(sentTo id (h.moves (.publish e))).isEmpty && ((h.publish e).2.waiting id).isEmpty

/-- Into how many channels a published envelope itself comes. -/
def arrivals (h : Hub) (e : Envelope) : Nat := h.subscribers.countP fun s => h.arrives e s.id

/-- A publication tells into how many channels the envelope came. -/
def CountsArrivals (h : Hub) (e : Envelope) : Prop := (h.publish e).1 = h.arrivals e

/-! ## One subscriber -/

/-- Where there is a place, the last one that came is not evicted. -/
theorem drop_lostCount (hbound : s.backlog.length ≤ h.config.backlog) (hpos : 0 < h.places s)
    (e : Envelope) :
    (s.backlog ++ [e]).drop (h.lostCount s) = s.backlog.drop (h.lostCount s) ++ [e] := by
  refine List.drop_append_of_le_length ?_
  unfold lostCount excess
  split
  · exact Nat.zero_le _
  · rename_i hwaits
    have hsome : 0 < s.backlog.length :=
      List.length_pos_iff.mpr fun hempty => hwaits ⟨hempty, hpos⟩
    omega

/-- Where there is a place, there are places for all exactly if there are as many as may wait. -/
theorem length_drop_lostCount_le (hpos : 0 < h.places s) (e : Envelope) :
    ((s.backlog ++ [e]).drop (h.lostCount s)).length ≤ h.places s ↔
      min (s.backlog.length + 1) h.config.backlog ≤ h.places s := by
  rw [List.length_drop, List.length_append, List.length_singleton]
  unfold lostCount excess
  split
  · rename_i hfirst
    rw [hfirst.1, List.length_nil]
    omega
  · omega

/-- Something is sent to the subscribers of the session whose channel has a place. -/
theorem sentTo_isEmpty (hsound : Sound first h) (ho : Orderly h) (hs : s ∈ h.subscribers)
    (e : Envelope) :
    (!(sentTo s.id (h.moves (.publish e))).isEmpty) =
      (s.session == e.session && decide (0 < h.places s)) := by
  have hfound := hsound.find? hs
  have hbound := (ho s.id s hfound).bounded
  by_cases hsession : s.session = e.session
  · rw [(publish_dealt hsound hfound hbound hsession).sent]
    by_cases hpos : 0 < h.places s
    · simp [drop_lostCount hbound hpos, hsession, hpos, Nat.ne_of_gt hpos]
    · simp [hsession, Nat.eq_zero_of_not_pos hpos]
  · simp [sentTo_publish hsound hfound, hsession]

/-- A published envelope arrives where the channel has places for it and all that wait before it. -/
theorem arrives_iff (hsound : Sound first h) (ho : Orderly h) (hs : s ∈ h.subscribers)
    (e : Envelope) :
    h.arrives e s.id = true ↔ s.session = e.session ∧ 0 < h.places s ∧
      min (s.backlog.length + 1) h.config.backlog ≤ h.places s := by
  have hfound := hsound.find? hs
  have hbound := (ho s.id s hfound).bounded
  rw [arrives, sentTo_isEmpty hsound ho hs]
  simp only [Bool.and_eq_true, beq_iff_eq, decide_eq_true_eq, List.isEmpty_iff, and_assoc]
  refine and_congr_right fun hsession => and_congr_right fun hpos => ?_
  obtain ⟨-, -, t, ht, hbacklog, -⟩ := publish_dealt hsound hfound hbound hsession
  rw [waiting_eq ht, hbacklog, List.drop_eq_nil_iff, length_drop_lostCount_le hpos]

/-- Of an envelope like which none waits, what is sent tells whether it arrives. -/
theorem mem_sentTo_iff (hsound : Sound first h) (ho : Orderly h) (hs : s ∈ h.subscribers)
    (hnew : e ∉ s.backlog) :
    e ∈ sentTo s.id (h.moves (.publish e)) ↔ h.arrives e s.id = true := by
  have hfound := hsound.find? hs
  have hbound := (ho s.id s hfound).bounded
  rw [arrives_iff hsound ho hs]
  by_cases hsession : s.session = e.session
  · by_cases hpos : 0 < h.places s
    · rw [(publish_dealt hsound hfound hbound hsession).sent, ← length_drop_lostCount_le hpos e,
        drop_lostCount hbound hpos]
      simp only [hsession, hpos, true_and]
      constructor
      · intro hmem
        -- The envelope is the last one, so if it is sent there were places for all.
        refine Decidable.byContradiction fun hfew => hnew ?_
        rw [List.length_append, List.length_singleton] at hfew
        rw [List.take_append_of_le_length (by omega)] at hmem
        exact List.mem_of_mem_drop (List.mem_of_mem_take hmem)
      · intro hall
        rw [List.take_of_length_le hall]
        exact List.mem_append_right _ List.mem_cons_self
    · simp [(publish_dealt hsound hfound hbound hsession).sent, Nat.eq_zero_of_not_pos hpos]
  · simp [sentTo_publish hsound hfound, hsession]

/-! ## All subscribers -/

/-- Of two conditions, one stricter than the other, as many meet both as one exactly if all who
meet the one meet the other. -/
theorem countP_eq_countP_iff {α : Type} {l : List α} {p q : α → Bool}
    (hstrict : ∀ a ∈ l, q a = true → p a = true) :
    l.countP p = l.countP q ↔ ∀ a ∈ l, p a = true → q a = true := by
  have hboth : l.countP q = (l.filter p).countP q := by
    rw [List.countP_filter]
    refine List.countP_congr fun a ha => ?_
    simpa using hstrict a ha
  rw [hboth, eq_comm, List.countP_eq_length_filter (p := p), List.countP_eq_length]
  simp only [List.mem_filter, and_imp]

/-- After every history that does not run out of ids, a publication tells to how many subscribers
something is sent; it is never less than the number of those whom the envelope itself reaches, and
it is this number exactly if each channel of the session that has a place has places for all that
wait. -/
theorem publish_counts_iff (config : HubConfig) (next : Nat) (ops : List Op) (e : Envelope)
    (hids : ops.countP Op.isSubscribe ≤ idCount) :
    let h := (Hub.empty config next).run ops
    (h.publish e).1 =
      h.subscribers.countP (fun s => !(sentTo s.id (h.moves (.publish e))).isEmpty) ∧
    h.arrivals e ≤ (h.publish e).1 ∧
    (∀ s ∈ h.subscribers, e ∉ s.backlog →
      (e ∈ sentTo s.id (h.moves (.publish e)) ↔ h.arrives e s.id = true)) ∧
    (h.CountsArrivals e ↔ ∀ s ∈ h.subscribers, s.session = e.session → 0 < h.places s →
      min (s.backlog.length + 1) h.config.backlog ≤ h.places s) := by
  intro h
  have hready : Ready next (Hub.empty config next) ops := .empty config next hids
  have hsound : Sound next h := run_sound hready
  have ho : Orderly h := run_orderly hready (.empty config next)
  have htold : (h.publish e).1 =
      h.subscribers.countP (fun s => !(sentTo s.id (h.moves (.publish e))).isEmpty) := by
    rw [publish_fst hsound ho]
    exact List.countP_congr fun s hs => by rw [sentTo_isEmpty hsound ho hs]
  have hstrict : ∀ s ∈ h.subscribers, h.arrives e s.id = true →
      (!(sentTo s.id (h.moves (.publish e))).isEmpty) = true :=
    fun s _ harrives => (Bool.and_eq_true _ _ ▸ harrives).1
  refine ⟨htold, ?_, fun s hs hnew => mem_sentTo_iff hsound ho hs hnew, ?_⟩
  · rw [htold]
    exact List.countP_mono_left hstrict
  · rw [CountsArrivals, htold, arrivals, countP_eq_countP_iff hstrict]
    refine forall₂_congr fun s hs => ?_
    rw [arrives_iff hsound ho hs, sentTo_isEmpty hsound ho hs]
    simp only [Bool.and_eq_true, beq_iff_eq, decide_eq_true_eq]
    exact ⟨fun hall hsession hpos => (hall ⟨hsession, hpos⟩).2.2,
      fun hall hboth => ⟨hboth.1, hboth.2, hall hboth.1 hboth.2⟩⟩

/-- An observer reads only the first of three envelopes; its channel takes one. -/
def fallenBehind : List Op :=
  [.subscribe "a", .publish (numbered "a" 1), .publish (numbered "a" 2), .publish (numbered "a" 3),
    .receive (subscriberId 0) 0]

/-- Where only one may wait, the older one makes way, and the one that is published is sent. -/
theorem publish_counts_iff_fallenBehind :
    fallenBehind.countP Op.isSubscribe ≤ idCount ∧
      ((Hub.empty ⟨1, 1⟩ 0).run fallenBehind).CountsArrivals (numbered "a" 4) := by
  have hids : fallenBehind.countP Op.isSubscribe ≤ idCount := by decide +kernel
  obtain ⟨-, -, -, hcounts⟩ := publish_counts_iff ⟨1, 1⟩ 0 fallenBehind (numbered "a" 4) hids
  exact ⟨hids, hcounts.mpr (by decide +kernel)⟩

/-- One is told, for an older envelope that was sent; the one that was published has to wait. -/
theorem not_countsArrivals_fallenBehind :
    ¬ ((Hub.empty ⟨3, 1⟩ 0).run fallenBehind).CountsArrivals (numbered "a" 4) := by
  unfold CountsArrivals
  decide +kernel

end Hub
end ContextBudget
