import ContextBudget.Proofs.Prune.Answer
import ContextBudget.Proofs.Prune.Ranges
import ContextBudget.Proofs.Text.Digits

/-!
# Recovering a text

A prune leaves a record from which the text can be had again until it expires.

- `find?_insert`: a store keeps the record that is put into it, whatever it drops to make room.
- `tiles_pieces`: the lines that stayed and the cuts of a record are intervals that split the text.
- `prune_recover`: what is recovered under the id of an answer.
-/

namespace ContextBudget

namespace RecordStore

theorem purge_sublist (s : RecordStore) (now : Moment) :
    (s.purge now).records.Sublist s.records :=
  List.filter_sublist

theorem dropOldest_sublist (n : Nat) (records : List PruneRecord) :
    (dropOldest n records).Sublist records := by
  induction n generalizing records with
  | zero => exact .refl _
  | succ n ih =>
    rw [dropOldest]
    cases oldest? records with
    | none => exact .refl _
    | some old => exact (ih _).trans List.eraseP_sublist

/-- Putting a record into a store leaves no other record that was not there before. -/
theorem insert_eq_append {s : RecordStore} {r : PruneRecord} (now : Moment)
    (fresh : s.find? r.id = none) :
    ∃ left, left.Sublist s.records ∧ (s.insert r now).records = left ++ [r] := by
  rw [insert, if_neg (by rw [fresh]; simp)]
  split
  · exact ⟨_, (dropOldest_sublist _ _).trans (purge_sublist s now), rfl⟩
  · exact ⟨_, dropOldest_sublist _ _, rfl⟩

/-- A record under a new id is there once it is put into a store. -/
theorem find?_insert {s : RecordStore} {r : PruneRecord} {now : Moment}
    (fresh : s.find? r.id = none) : (s.insert r now).find? r.id = some r := by
  obtain ⟨left, hleft, hrecords⟩ := insert_eq_append now fresh
  have hother : ∀ r' ∈ left, ¬ (r'.id == r.id) = true :=
    fun r' h => List.find?_eq_none.mp fresh r' (hleft.subset h)
  rw [find?, hrecords, List.find?_append, List.find?_eq_none.mpr hother]
  simp

theorem mem_insert {s : RecordStore} {r r' : PruneRecord} {now : Moment}
    (h : r' ∈ (s.insert r now).records) : r' ∈ s.records ∨ r' = r := by
  cases hf : s.find? r.id with
  | some known => exact .inl (by rwa [insert_of_mem (by rw [hf]; rfl)] at h)
  | none =>
    obtain ⟨left, hleft, hrecords⟩ := insert_eq_append now hf
    rw [hrecords] at h
    exact (List.mem_append.mp h).imp (fun h => hleft.subset h) List.mem_singleton.mp

end RecordStore

namespace PruneRecord

open LineRange (Tiles)

/-- The lines that stayed, one by one, and the cuts of a record, in the order of the text. -/
def pieces (r : PruneRecord) : List LineRange :=
  (r.kept.map fun k => ⟨k, k⟩).merge (r.cuts.map fun c => ⟨c.first, c.last⟩)
    fun a b => a.first ≤ b.first

variable {r : PruneRecord} {n : Nat}

theorem mem_pieces {x : LineRange} :
    x ∈ r.pieces ↔ (∃ k ∈ r.kept, ⟨k, k⟩ = x) ∨ ∃ c ∈ r.cuts, ⟨c.first, c.last⟩ = x := by
  simp [pieces, List.mem_merge]

/-- If the cuts take away some lines and the others stayed, the pieces split the text. -/
theorem tiles_pieces (numbers : List Nat)
    (kept : r.kept = (List.range' 1 n).filter fun k => k ∉ numbers)
    (within : numbers ⊆ List.range' 1 n)
    (covers : ∀ k, k ∈ numbers ↔ ∃ c ∈ r.cuts, c.first ≤ k ∧ k ≤ c.last)
    (apart : r.cuts.Pairwise fun a b => a.last + 1 < b.first)
    (filled : ∀ c ∈ r.cuts, c.first ≤ c.last) : Tiles 1 (n + 1) r.pieces := by
  have hkept : ∀ k, k ∈ r.kept ↔ (1 ≤ k ∧ k < n + 1) ∧ k ∉ numbers := by
    intro k
    rw [kept, List.mem_filter, List.mem_range'_1, decide_eq_true_eq, Nat.add_comm 1]
  have hkeptSorted : r.kept.Pairwise (· < ·) := kept ▸ (List.pairwise_lt_range' 1).filter _
  have hfilled : ∀ x ∈ r.pieces, x.first ≤ x.last := by
    intro x hx
    rcases mem_pieces.mp hx with ⟨k, -, rfl⟩ | ⟨c, hc, rfl⟩
    · exact Nat.le_refl k
    · exact filled c hc
  have hsorted : r.pieces.Pairwise fun a b => decide (a.first ≤ b.first) = true := by
    refine List.pairwise_merge ?_ ?_ _ _ ?_ ?_
    · exact fun a b c => by simpa using Nat.le_trans
    · exact fun a b => by simpa using Nat.le_total a.first b.first
    · exact List.pairwise_map.mpr (hkeptSorted.imp fun h => by simpa using Nat.le_of_lt h)
    · exact List.pairwise_map.mpr (apart.imp_of_mem fun {a b} ha hb h => by
        have := filled a ha
        simp only [decide_eq_true_eq]
        omega)
  -- Whether two pieces meet does not depend on their order, and so not on how they were merged.
  have hapart : r.pieces.Pairwise fun a b => a.last < b.first ∨ b.last < a.first := by
    refine ((List.merge_perm_append _).pairwise_iff fun h => h.symm).mpr ?_
    refine List.pairwise_append.mpr ⟨?_, ?_, fun x hx y hy => ?_⟩
    · exact List.pairwise_map.mpr (hkeptSorted.imp fun h => .inl h)
    · exact List.pairwise_map.mpr (apart.imp fun h => .inl (by simp only; omega))
    · obtain ⟨k, hk, rfl⟩ := List.mem_map.mp hx
      obtain ⟨c, hc, rfl⟩ := List.mem_map.mp hy
      have hout := ((hkept k).mp hk).2
      rw [covers] at hout
      by_contra hmeet
      exact hout ⟨c, hc, by simp only at hmeet; omega, by simp only at hmeet; omega⟩
  refine LineRange.tiles_of_covers (by omega) ?_ hfilled fun k => ?_
  · refine (hsorted.and hapart).imp_of_mem fun {a b} ha hb h => ?_
    have := of_decide_eq_true h.1
    have := hfilled b hb
    omega
  · constructor
    · intro hk
      by_cases hgone : k ∈ numbers
      · obtain ⟨c, hc, h1, h2⟩ := (covers k).mp hgone
        exact ⟨_, mem_pieces.mpr (.inr ⟨c, hc, rfl⟩), h1, h2⟩
      · exact ⟨_, mem_pieces.mpr (.inl ⟨k, (hkept k).mpr ⟨hk, hgone⟩, rfl⟩), Nat.le_refl k,
          Nat.le_refl k⟩
    · rintro ⟨x, hx, h1, h2⟩
      rcases mem_pieces.mp hx with ⟨k', hk', rfl⟩ | ⟨c, hc, rfl⟩
      · have := ((hkept k').mp hk').1
        simp only at h1 h2
        omega
      · have := within ((covers k).mpr ⟨c, hc, h1, h2⟩)
        rw [List.mem_range'_1] at this
        omega

end PruneRecord

namespace PrunerState

variable {s s' : PrunerState} {record : PruneRecord} {first : Nat} {now : Moment}

/-- Ids have counted up from `first`, and each record has one that was given out. -/
structure Counts (first : Nat) (s : PrunerState) : Prop where
  first_le : first ≤ s.next
  issued : ∀ record ∈ s.records.records, Issued "pr_" first s.next record.id

/-- No record has the id that is given out next, until all ids have been given out. -/
theorem Counts.fresh (h : s.Counts first) (hids : s.next < first + idCount) :
    s.records.find? (pruneId s.next) = none := by
  refine List.find?_eq_none.mpr fun record hmem hid => ?_
  exact (h.issued record hmem).ne hids (eq_of_beq hid)

theorem Counts.insert (h : s.Counts first) (hid : record.id = pruneId s.next)
    (hnext : s'.next = s.next + 1) (hrecords : s'.records = s.records.insert record now) :
    s'.Counts first := by
  have hfirst := h.first_le
  refine ⟨by omega, fun other hmem => ?_⟩
  rw [hrecords] at hmem
  rw [hnext]
  rcases RecordStore.mem_insert hmem with hmem | rfl
  · exact (h.issued other hmem).succ
  · exact hid ▸ .last hfirst

end PrunerState

namespace Pruner

open PrunerM

open LineRange (Tiles wanted)

variable {σ : Type} {p : Pruner σ} {request : PruneRequest} {s : PrunerState} {w : σ}

/-- Both shapes of an answer leave a record of the whole text whose pieces split it. -/
theorem Outcome.record {id : String} {now : Moment} {r : PruneResponse} {record : PruneRecord}
    (h : Outcome p request id now r record) :
    r.id = id ∧ record.id = id ∧ record.whole = .ofText request.text ∧ record.createdAt = now ∧
      record.life = p.config.recordLife ∧
      Tiles 1 ((Lines.ofText request.text).lines.length + 1) record.pieces := by
  cases h with
  | refused warnings refusal millis =>
    refine ⟨rfl, rfl, rfl, rfl, rfl, ?_⟩
    refine PruneRecord.tiles_pieces [] ?_ (List.nil_subset _) ?_ .nil ?_ <;> simp
  | pruned chosen warnings millis choice sound reranker =>
    refine ⟨rfl, rfl, rfl, rfl, rfl, ?_⟩
    have hlen := choice.length_mask
    refine PruneRecord.tiles_pieces (Selection.gone chosen.mask) ?_ ?_ ?_ ?_ ?_
    · simp only [Selection.kept_eq_filter, hlen]
    · exact hlen ▸ (Selection.gone_sublist chosen.mask).subset
    · exact fun k => Selection.mem_gone_iff id hlen
    · exact Selection.cuts_apart _ _ _
    · exact fun c hc => (Selection.cut_wellFormed hc).2.1

/-! ## New ids -/

/-- The states of a pruner that was new when its ids began to count up from `first`. -/
inductive Reached (p : Pruner σ) (first : Nat) : PrunerState → Prop where
  | new : Reached p first (.fresh p.config first)
  | prune {s : PrunerState} (request : PruneRequest) (w : σ) (h : Reached p first s) :
    Reached p first (exec (p.prune request) s w).1.2
  | passThrough {s : PrunerState} (text : String) (warning : Warning) (w : σ)
    (h : Reached p first s) : Reached p first (exec (p.passThrough text warning) s w).1.2

/-- A text that is passed through comes back as it was, and a record of it is left. -/
theorem passThrough_ran {text : String} {warning : Warning} {r : PruneResponse}
    {s' : PrunerState} {w' : σ}
    (h : exec (p.passThrough text warning) s w = ((r, s'), w')) :
    ∃ millis v, r = unpruned (pruneId s.next) text [warning] millis ∧ s'.next = s.next + 1 ∧
      s'.records = s.records.insert
        ⟨pruneId s.next, .ofText text, List.range' 1 (Lines.ofText text).lines.length, [],
          (p.clock.now.run v).1, p.config.recordLife⟩ (p.clock.now.run v).1 := by
  obtain ⟨id, s₁, w₁, hid, h₁⟩ := bind_ran h
  obtain ⟨rfl, hs₁⟩ := newId_ran hid
  obtain ⟨start, s₂, w₂, hstart, h₂⟩ := bind_ran h₁
  obtain ⟨-, hs₂⟩ := lift_ran hstart
  obtain ⟨u, s₃, w₃, hleave, h₃⟩ := bind_ran h₂
  obtain ⟨v, hnext, hrecords⟩ := leaveRecord_ran hleave
  obtain ⟨millis, s₄, w₄, hmillis, h₄⟩ := bind_ran h₃
  have hs₄ := millisSince_ran hmillis
  obtain ⟨hr, rfl⟩ := pure_ran h₄
  exact ⟨millis, v, hr, by rw [hs₄, hnext, hs₂, hs₁], by rw [hs₄, hrecords, hs₂, hs₁]⟩

theorem Reached.counts {first : Nat} (h : Reached p first s) : s.Counts first := by
  induction h with
  | new => exact ⟨Nat.le_refl _, fun _ h => nomatch h⟩
  | prune request w h ih =>
    rcases hr : exec (p.prune request) _ w with ⟨⟨r, s'⟩, w'⟩
    obtain ⟨record, v, hout, hnext, hrecords⟩ := prune_ran hr
    exact ih.insert hout.record.2.1 hnext hrecords
  | passThrough text warning w h ih =>
    rcases hr : exec (p.passThrough text warning) _ w with ⟨⟨r, s'⟩, w'⟩
    obtain ⟨millis, v, -, hnext, hrecords⟩ := passThrough_ran hr
    exact ih.insert rfl hnext hrecords

theorem Reached.fresh {first : Nat} (h : Reached p first s) (hids : s.next < first + idCount) :
    s.records.find? (pruneId s.next) = none := h.counts.fresh hids

/-! ## Recovering -/

/-- What is recovered from the ranges of a record at some point of the world. -/
def recovered (p : Pruner σ) (id : String) (s : PrunerState) (w : σ) (ranges : List LineRange) :
    Except BudgetError String :=
  (exec (p.recover ⟨id, ranges, false⟩) s w).1.1

theorem recovered_eq {id : String} {record : PruneRecord} {ranges : List LineRange}
    (found : s.records.find? id = some record)
    (alive : record.isExpired (p.clock.now.run w).1 = false) :
    p.recovered id s w ranges = .ok (record.recover ⟨id, ranges, false⟩) := by
  have hget : s.records.get id (p.clock.now.run w).1 = .ok record := by
    simp [RecordStore.get, found, alive]
  change (s.records.get id (p.clock.now.run w).1).map (fun r => r.recover ⟨id, ranges, false⟩) = _
  rw [hget]
  rfl

/-- While a record lives, every way of asking for all lines gives the text back, and other ranges
give the lines they name. -/
structure Recovers (request : PruneRequest) (record : PruneRecord)
    (answer : List LineRange → Except BudgetError String) : Prop where
  all : answer [] = .ok request.text
  whole : answer [⟨1, (Lines.ofText request.text).lines.length⟩] = .ok request.text
  tiles : ∀ ranges, Tiles 1 ((Lines.ofText request.text).lines.length + 1) ranges →
    answer ranges = .ok request.text
  pieces : Tiles 1 ((Lines.ofText request.text).lines.length + 1) record.pieces
  ranges : ∀ ranges, ranges ≠ [] → answer ranges = .ok
    ("\n".intercalate (PruneRecord.linesAt (Lines.ofText request.text).lines
      (wanted (Lines.ofText request.text).lines.length ranges)) ++
    if (Lines.ofText request.text).closed ∧
      (wanted (Lines.ofText request.text).lines.length ranges).getLast? =
        some (Lines.ofText request.text).lines.length then "\n" else "")

/-- After a prune under a new id, its record is found under the id of the answer, and until the
record expires, which was made at a time that the clock told, the text can be recovered under this
id. -/
theorem prune_recover (p : Pruner σ) (request : PruneRequest) (s : PrunerState) (w : σ)
    (fresh : s.records.find? (pruneId s.next) = none) :
    ∃ record v,
      (exec (p.prune request) s w).1.2.records.find? (exec (p.prune request) s w).1.1.id =
        some record ∧
      record.createdAt = (p.clock.now.run v).1 ∧ record.life = p.config.recordLife ∧
      ∀ w', record.isExpired (p.clock.now.run w').1 = false →
        Recovers request record (p.recovered (exec (p.prune request) s w).1.1.id
          (exec (p.prune request) s w).1.2 w') := by
  rcases hr : exec (p.prune request) s w with ⟨⟨r, s'⟩, w₁⟩
  obtain ⟨record, v, hout, -, hrecords⟩ := prune_ran hr
  obtain ⟨hid, hrid, hwhole, hcreated, hlife, hpieces⟩ := hout.record
  have found : s'.records.find? r.id = some record := by
    rw [hrecords, hid, ← hrid]
    exact RecordStore.find?_insert (hrid ▸ fresh)
  have hw : record.whole.WellFormed := hwhole ▸ Lines.wellFormed_ofText request.text
  have htext : record.whole.text = request.text := by rw [hwhole, Lines.text_ofText]
  refine ⟨record, v, found, hcreated, hlife, fun w' alive => ?_⟩
  have hanswer : ∀ ranges, p.recovered r.id s' w' ranges =
      .ok (record.recover ⟨r.id, ranges, false⟩) := fun _ => recovered_eq found alive
  refine ⟨?_, ?_, fun ranges htiles => ?_, hpieces, fun ranges hne => ?_⟩
  · rw [hanswer, PruneRecord.recover_nil, PruneRecord.recover_whole _ hw, htext]
  · rw [hanswer, ← hwhole, PruneRecord.recover_whole _ hw, htext]
  · rw [hanswer, PruneRecord.recover_tiles hw (hwhole ▸ htiles), htext]
  · rw [hanswer, PruneRecord.recover_eq hne, Lines.text_eq_intercalate, hwhole]
    simp only [Bool.and_eq_true, beq_iff_eq]

theorem prune_recover_twoBlanks :
    (PrunerState.fresh .standard 0).records.find? (pruneId (PrunerState.fresh .standard 0).next) =
      none ∧
    ∃ record,
      (exec (asleep.prune twoBlanks) (.fresh .standard 0) ()).1.2.records.find?
        (exec (asleep.prune twoBlanks) (.fresh .standard 0) ()).1.1.id = some record ∧
      record.isExpired (asleep.clock.now.run ()).1 = false ∧
      Recovers twoBlanks record (asleep.recovered
        (exec (asleep.prune twoBlanks) (.fresh .standard 0) ()).1.1.id
        (exec (asleep.prune twoBlanks) (.fresh .standard 0) ()).1.2 ()) := by
  refine ⟨rfl, ?_⟩
  obtain ⟨record, ⟨⟩, hfound, hcreated, hlife, hrecovers⟩ :=
    prune_recover asleep twoBlanks (.fresh .standard 0) () rfl
  have alive : record.isExpired (asleep.clock.now.run ()).1 = false := by
    rw [PruneRecord.isExpired, hcreated, hlife]
    decide +kernel
  exact ⟨record, hfound, alive, hrecovers () alive⟩

end Pruner
end ContextBudget
