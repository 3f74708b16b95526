import ContextBudget.Proofs.Prune.Recovery

/-!
# The records of many prunes

A pruner that began without records, and has room for all that it makes, keeps each of them under an
id of its own.

- `insert_of_room`: where there is room, a new record comes last and no other one goes.
- `nodup_pruneIds`: ids in a row are all different, as long as there are enough of them.
- `Made`, `Made.prune`: the records that a pruner has made since it began, and one more.
- `Made.found`, `recovered_all`: each of them is found by its id, and its text can be had again.
-/

namespace ContextBudget

namespace RecordStore

variable {s : RecordStore} {r : PruneRecord}

/-- Where there is room, a record under a new id comes last and no other one goes. -/
theorem insert_of_room (now : Moment) (room : s.size < s.capacity) (fresh : s.find? r.id = none) :
    (s.insert r now).records = s.records ++ [r] := by
  have hnone : s.size + 1 - s.capacity = 0 := by omega
  rw [insert, if_neg (by simp [fresh]), if_neg (Nat.not_le.mpr room)]
  simp only [hnone, dropOldest]

theorem capacity_insert (s : RecordStore) (r : PruneRecord) (now : Moment) :
    (s.insert r now).capacity = s.capacity := by
  rw [insert]
  split
  · rfl
  · split <;> rfl

/-- A record is found by its id, if no two records share an id. -/
theorem find?_of_mem (hdistinct : (s.records.map (·.id)).Nodup) (hr : r ∈ s.records) :
    s.find? r.id = some r := by
  cases hf : s.find? r.id with
  | none => exact absurd (List.find?_eq_none.mp hf r hr) (by simp)
  | some other =>
    have hid : other.id = r.id := by simpa using List.find?_some hf
    rw [List.inj_on_of_nodup_map hdistinct (List.mem_of_find?_eq_some hf) hr hid]

end RecordStore

/-- Ids in a row are all different, as long as there are enough of them. -/
theorem nodup_pruneIds (first : Nat) {n : Nat} (h : n ≤ idCount) :
    ((List.range' first n).map pruneId).Nodup := by
  refine List.pairwise_map.mpr ((List.pairwise_lt_range' 1).imp_of_mem fun ha hb hlt heq => ?_)
  have hfirst := (List.mem_range'_1.mp ha).1
  have hlast := (List.mem_range'_1.mp hb).2
  exact hexDigits_ne hlt (by rw [← idCount]; omega) ((String.append_right_inj "pr_").mp heq)

namespace Pruner

open PrunerM

variable {σ : Type} {p : Pruner σ} {request : PruneRequest} {first : Nat} {s s' : PrunerState}
  {made : List PruneRecord} {w w' : σ}

/-- How many prunes a pruner has made from one state to a later one. Each takes a number of its
own. -/
def prunesBetween (s s' : PrunerState) : Nat := s'.next - s.next

/-- The records that a pruner has made since its store was empty and its ids began to count up from
`first`. It holds them all as long as there is room. -/
structure Made (p : Pruner σ) (first : Nat) (s : PrunerState) (made : List PruneRecord) : Prop where
  next : s.next = first + made.length
  ids : made.map (·.id) = (List.range' first made.length).map pruneId
  capacity : s.records.capacity = Nat.max p.config.maxRecords 1
  held : made.length ≤ p.config.maxRecords → s.records.records = made
  lives : ∀ record ∈ made, record.life = p.config.recordLife ∧
    ∃ v, record.createdAt = (p.clock.now.run v).1

theorem Made.empty (hempty : s.records = .empty p.config.maxRecords) : Made p s.next s [] :=
  ⟨rfl, rfl, by rw [hempty]; rfl, fun _ => by rw [hempty]; rfl, by simp⟩

/-- A prune makes one more record, of the text that was to be pruned. -/
theorem Made.prune (h : Made p first s made) (enough : p.config.maxRecords ≤ idCount)
    {r : PruneResponse} (hran : exec (p.prune request) s w = ((r, s'), w')) :
    ∃ record, record.id = r.id ∧ record.whole = .ofText request.text ∧
      Made p first s' (made ++ [record]) := by
  obtain ⟨record, v, hout, hnext, hrecords⟩ := prune_ran hran
  obtain ⟨hid, hrid, hwhole, hcreated, hlife, -⟩ := hout.record
  have hids : (made ++ [record]).map (·.id) =
      (List.range' first (made ++ [record]).length).map pruneId := by
    simp [List.range'_concat, h.ids, hrid, h.next]
  refine ⟨record, hrid.trans hid.symm, hwhole, ?_, hids, ?_, fun hroom => ?_,
    fun other hother => ?_⟩
  · rw [hnext, h.next, List.length_append, List.length_singleton, Nat.add_assoc]
  · rw [hrecords, RecordStore.capacity_insert, h.capacity]
  · rw [List.length_append, List.length_singleton] at hroom
    have hheld := h.held (by omega)
    -- The new id differs from those of the records that are held.
    have hdistinct : ((made ++ [record]).map (·.id)).Nodup :=
      hids ▸ nodup_pruneIds first (by rw [List.length_append, List.length_singleton]; omega)
    rw [List.map_append] at hdistinct
    have hfresh : s.records.find? record.id = none := by
      refine List.find?_eq_none.mpr fun other hother heq => ?_
      have hmem : other.id ∈ made.map (·.id) := List.mem_map_of_mem (hheld ▸ hother)
      exact (List.nodup_append.mp hdistinct).2.2 _ hmem record.id (List.mem_singleton.mpr rfl)
        (eq_of_beq heq)
    have hspace : s.records.size < s.records.capacity := by
      rw [h.capacity, RecordStore.size, hheld]
      exact Nat.lt_of_lt_of_le hroom (Nat.le_max_left _ _)
    rw [hrecords, RecordStore.insert_of_room _ hspace hfresh, hheld]
  · rcases List.mem_append.mp hother with hother | hother
    · exact h.lives other hother
    · obtain rfl := List.mem_singleton.mp hother
      exact ⟨hlife, v, hcreated⟩

/-- Each record of a pruner that has had room for all of them is found by its id, as long as the
pruner makes no other one. -/
theorem Made.found (h : Made p first s made) (room : made.length ≤ p.config.maxRecords)
    (enough : p.config.maxRecords ≤ idCount) (hsame : s'.records = s.records)
    {record : PruneRecord} (hrecord : record ∈ made) :
    s'.records.find? record.id = some record := by
  have hheld : s'.records.records = made := hsame ▸ h.held room
  refine RecordStore.find?_of_mem ?_ (hheld ▸ hrecord)
  rw [hheld, h.ids]
  exact nodup_pruneIds first (by omega)

/-- From the record of a text, the text can be had again until the record expires. -/
theorem recovered_all {id text : String} {record : PruneRecord}
    (found : s.records.find? id = some record) (hwhole : record.whole = .ofText text)
    (alive : record.isExpired (p.clock.now.run w).1 = false) :
    p.recovered id s w [] = .ok text := by
  have hw : record.whole.WellFormed := hwhole ▸ Lines.wellFormed_ofText text
  rw [recovered_eq found alive, PruneRecord.recover_nil, PruneRecord.recover_whole _ hw, hwhole,
    Lines.text_ofText]

end Pruner
end ContextBudget
