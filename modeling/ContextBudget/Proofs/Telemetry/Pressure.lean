import ContextBudget.Proofs.Telemetry.Places
import ContextBudget.Proofs.Telemetry.Replay

/-!
# Pressure

An envelope that has to wait is put into the backlog before anything of it is sent. So a backlog at
its bound evicts its oldest envelope even where the channel has a place for it.

- `Exhausted`: the buffers of a subscriber hold as much as they can.
- `evicts_iff`: a publication evicts something where the backlog is at its bound and the envelope
  cannot be sent at once.
- `underPressure_iff`: evictions leave the buffers exhausted, and nothing is lost while all that is
  unread fits into them, exactly if no backlog at its bound is behind a channel with a place.
-/

namespace ContextBudget
namespace Hub

variable {first : Nat} {h : Hub} {s : Subscriber} {e : Envelope}

/-- The buffers of a subscriber hold as much as they can: its backlog is at its bound, and nothing
can be sent, since it has no connection, its channel was dropped, or the channel is full. -/
def Exhausted (h : Hub) (id : String) : Prop :=
  ∃ s, h.find? id = some s ∧ h.places s = 0 ∧ s.backlog.length = h.config.backlog

/-- A publication evicts something of a subscriber only where it leaves its buffers exhausted. -/
def EvictsUnderPressure (h : Hub) (e : Envelope) : Prop :=
  ∀ s ∈ h.subscribers, evictedFrom s.id (h.moves (.publish e)) ≠ [] →
    (h.publish e).2.Exhausted s.id

/-- A publication evicts nothing of a connected subscriber while all that it has not read, the
published envelope with it, fits into its channel and its backlog. -/
def KeepsWhatFits (h : Hub) (e : Envelope) : Prop :=
  ∀ s c, Live h s c → c.queue.length + s.backlog.length + 1 ≤ h.room + h.config.backlog →
    evictedFrom s.id (h.moves (.publish e)) = []

/-- No backlog of the session that is at its bound is behind a channel with a place. -/
def BoundsBehindFull (h : Hub) (e : Envelope) : Prop :=
  ∀ s ∈ h.subscribers, s.session = e.session → s.backlog ≠ [] →
    s.backlog.length = h.config.backlog → h.places s = 0

/-- A publication evicts something of a subscriber of the session whose backlog is at its bound,
unless the envelope is sent at once because nothing waits. -/
theorem evicts_iff (hsound : Sound first h) (ho : Orderly h) (hs : s ∈ h.subscribers)
    (e : Envelope) :
    evictedFrom s.id (h.moves (.publish e)) ≠ [] ↔ s.session = e.session ∧
      s.backlog.length = h.config.backlog ∧ ¬ (s.backlog = [] ∧ 0 < h.places s) := by
  have hfound := hsound.find? hs
  have hbound := (ho s.id s hfound).bounded
  by_cases hsession : s.session = e.session
  · rw [(publish_dealt hsound hfound hbound hsession).evicted, Ne, List.take_eq_nil_iff, lostCount,
      excess]
    simp only [List.append_eq_nil_iff, List.cons_ne_nil, and_false, or_false, hsession, true_and]
    split
    · rename_i hfirst
      simp [hfirst]
    · rename_i hwaits
      simp only [hwaits, not_false_eq_true, and_true]
      omega
  · simp [evictedFrom_publish hsound hfound, hsession]

/-- What was evicted leaves the buffers exhausted where nothing could be sent. -/
theorem exhausted_iff (hsound : Sound first h) (ho : Orderly h) (hs : s ∈ h.subscribers)
    (hevicts : evictedFrom s.id (h.moves (.publish e)) ≠ []) :
    (h.publish e).2.Exhausted s.id ↔ h.places s = 0 := by
  have hfound := hsound.find? hs
  obtain ⟨hsession, hfull, hlate⟩ := (evicts_iff hsound ho hs e).mp hevicts
  obtain ⟨-, -, t, ht, hbacklog, hplaces⟩ :=
    publish_dealt hsound hfound (Nat.le_of_eq hfull) hsession
  have hconfig : (h.publish e).2.config = h.config := (SameSeats.publish e).config
  have hlost : h.lostCount s = 1 := by
    rw [lostCount, excess, if_neg hlate]
    omega
  have hleft : t.backlog.length = h.config.backlog - h.places s := by
    rw [hbacklog, List.length_drop, List.length_drop, hlost, List.length_append,
      List.length_singleton]
    omega
  constructor
  · rintro ⟨u, hu, -, hbound⟩
    obtain rfl : t = u := Option.some.inj (ht.symm.trans hu)
    rw [hleft, hconfig] at hbound
    -- Something waited, or nothing could be sent; so what was sent is missing in the backlog.
    refine Nat.eq_zero_of_not_pos fun hpos => hlate ⟨List.eq_nil_of_length_eq_zero ?_, hpos⟩
    omega
  · intro hnone
    refine ⟨t, ht, ?_, ?_⟩
    · rw [hplaces, hnone, Nat.zero_sub]
    · rw [hleft, hconfig, hnone, Nat.sub_zero]

theorem evictsUnderPressure_iff (hsound : Sound first h) (ho : Orderly h) (e : Envelope) :
    h.EvictsUnderPressure e ↔ h.BoundsBehindFull e := by
  constructor
  · intro hpressure s hs hsession hwaits hfull
    have hevicts := (evicts_iff hsound ho hs e).mpr
      ⟨hsession, hfull, fun hfirst => hwaits hfirst.1⟩
    exact (exhausted_iff hsound ho hs hevicts).mp (hpressure s hs hevicts)
  · intro hbehind s hs hevicts
    obtain ⟨hsession, hfull, hlate⟩ := (evicts_iff hsound ho hs e).mp hevicts
    refine (exhausted_iff hsound ho hs hevicts).mpr (Nat.eq_zero_of_not_pos fun hpos => ?_)
    have hnone := hbehind s hs hsession (fun hempty => hlate ⟨hempty, hpos⟩) hfull
    omega

theorem keepsWhatFits_iff (hsound : Sound first h) (ho : Orderly h) (e : Envelope) :
    h.KeepsWhatFits e ↔ h.BoundsBehindFull e := by
  constructor
  · intro hkeeps s hs hsession hwaits hfull
    refine Nat.eq_zero_of_not_pos fun hpos => ?_
    obtain ⟨connected, accepted⟩ := places_pos_iff.mp hpos
    obtain ⟨c, hc, held, hroom⟩ := offer_eq_accepted.mp accepted
    have hevicts := (evicts_iff hsound ho hs e).mpr
      ⟨hsession, hfull, fun hfirst => hwaits hfirst.1⟩
    exact hevicts (hkeeps s c ⟨hsound.find? hs, connected, hc, held⟩ (by omega))
  · intro hbehind s c hlive hfits
    have hs := mem_of_find? hlive.known
    refine Decidable.byContradiction fun hevicts => ?_
    obtain ⟨hsession, hfull, hlate⟩ := (evicts_iff hsound ho hs e).mp hevicts
    have hplaces := places_eq hlive.connected hlive.channel hlive.held
    have hpos : 0 < h.places s := by omega
    have hnone := hbehind s hs hsession (fun hempty => hlate ⟨hempty, hpos⟩) hfull
    omega

/-- After every history that does not run out of ids, a publication evicts something only under
pressure, and keeps what fits, exactly if no backlog of the session that is at its bound is behind a
channel with a place. -/
theorem underPressure_iff (config : HubConfig) (next : Nat) (ops : List Op) (e : Envelope)
    (hids : ops.countP Op.isSubscribe ≤ idCount) :
    let h := (Hub.empty config next).run ops
    (h.EvictsUnderPressure e ↔ h.BoundsBehindFull e) ∧
      (h.KeepsWhatFits e ↔ h.BoundsBehindFull e) := by
  intro h
  have hready : Ready next (Hub.empty config next) ops := .empty config next hids
  have ho : Orderly h := run_orderly hready (.empty config next)
  exact ⟨evictsUnderPressure_iff (run_sound hready) ho e,
    keepsWhatFits_iff (run_sound hready) ho e⟩

/-- An observer that came back and reads nothing: its channel is full, and so is its backlog. -/
theorem underPressure_iff_comeAndGo :
    (Op.subscribe "a" :: comeAndGo).countP Op.isSubscribe ≤ idCount ∧
      let h := (Hub.empty ⟨1, 1⟩ 0).run (.subscribe "a" :: comeAndGo)
      h.EvictsUnderPressure (numbered "a" 7) ∧ h.KeepsWhatFits (numbered "a" 7) ∧
        evictedFrom (subscriberId 0) (h.moves (.publish (numbered "a" 7))) = [numbered "a" 6] := by
  have hids : (Op.subscribe "a" :: comeAndGo).countP Op.isSubscribe ≤ idCount := by decide +kernel
  obtain ⟨hpressure, hkeeps⟩ := underPressure_iff ⟨1, 1⟩ 0 _ (numbered "a" 7) hids
  have hbehind : ((Hub.empty ⟨1, 1⟩ 0).run (.subscribe "a" :: comeAndGo)).BoundsBehindFull
      (numbered "a" 7) := by
    unfold BoundsBehindFull
    decide +kernel
  exact ⟨hids, hpressure.mpr hbehind, hkeeps.mpr hbehind, rfl⟩

/-- An observer reads the first of two envelopes; its channel and its backlog take one each. -/
def placeAgain : List Op :=
  [.subscribe "a", .publish (numbered "a" 1), .publish (numbered "a" 2),
    .receive (subscriberId 0) 0]

/-- The second one is evicted by a third, though the two of them would fit. -/
theorem not_underPressure_placeAgain :
    ¬ ((Hub.empty ⟨1, 1⟩ 0).run placeAgain).EvictsUnderPressure (numbered "a" 3) ∧
      ¬ ((Hub.empty ⟨1, 1⟩ 0).run placeAgain).KeepsWhatFits (numbered "a" 3) := by
  have hevicted : evictedFrom (subscriberId 0)
      (((Hub.empty ⟨1, 1⟩ 0).run placeAgain).moves (.publish (numbered "a" 3))) =
        [numbered "a" 2] := rfl
  have hlive : Live ((Hub.empty ⟨1, 1⟩ 0).run placeAgain)
      ⟨subscriberId 0, "a", true, [numbered "a" 2], none, 0⟩ ⟨subscriberId 0, 0, [], true⟩ :=
    ⟨rfl, rfl, rfl, rfl⟩
  constructor
  · intro hpressure
    obtain ⟨s, hs, -, hfull⟩ := hpressure _ (mem_of_find? hlive.known) (by simp [hevicted])
    have hafter : (((Hub.empty ⟨1, 1⟩ 0).run placeAgain).publish (numbered "a" 3)).2.find?
        (subscriberId 0) = some ⟨subscriberId 0, "a", true, [], none, 0⟩ := rfl
    obtain rfl := Option.some.inj (hafter.symm.trans hs)
    exact absurd hfull (by decide +kernel)
  · intro hkeeps
    have hnone := hkeeps _ _ hlive (by decide +kernel)
    rw [hevicted] at hnone
    cases hnone

end Hub
end ContextBudget
