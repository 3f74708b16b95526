import ContextBudget.Proofs.Prune.Ledger
import ContextBudget.Proofs.Time.Order
import Mathlib.Data.List.Induction

/-!
# A store of records over its life

Records come and go by insertions, look-ups and purges at whatever times. At capacity the records
that have expired go first, and then the oldest one.

- `ended_iff`: when the life of a record has ended, in nanoseconds.
- `not_mem_dropOldest`: no record is kept while one that was made after it is dropped.
- `inserts_insert`, `purges_purge`: what an insertion and a purge do.
- `find?_apply`, `firstHeld_of_find?`: what is found under an id after a step and after a history.
- `run_sound`: distinct ids and the bound, after every history.
- `store_keepsRecords`: what each operation does in a store that any history has led to.
-/

namespace ContextBudget

open RecordStore

namespace PruneRecord

variable {r : PruneRecord} {now : Moment}

/-- The life of a record has ended. One that would end after the calendar does never ends. -/
def Ended (r : PruneRecord) (now : Moment) : Prop :=
  ∃ ending, r.createdAt.after? r.life = some ending ∧ ending.atMost now = true

theorem isExpired_iff : r.isExpired now = true ↔ r.Ended now := by
  rw [isExpired, Ended]
  cases r.createdAt.after? r.life <;> simp

/-- Outside leap seconds, a life has ended when so many nanoseconds have passed. -/
theorem ended_iff (hcreated : r.createdAt.Plain) (hnow : now.Plain) :
    r.Ended now ↔ r.createdAt.sinceEpoch + r.life.nanos < Moment.endOfCalendar ∧
      r.createdAt.sinceEpoch + r.life.nanos ≤ now.sinceEpoch := by
  rw [Ended]
  rcases Moment.after?_cases hcreated r.life with ⟨hnone, hpast⟩ | ⟨ending, hend, hplain, heq, hlt⟩
  · rw [hnone]
    exact ⟨nofun, fun h => by omega⟩
  · rw [hend, ← heq, ← Moment.atMost_iff_sinceEpoch hplain hnow]
    exact ⟨fun ⟨_, he, h⟩ => ⟨hlt, by cases he; exact h⟩, fun h => ⟨ending, rfl, h.2⟩⟩

/-- The record was made before another one. -/
def Older (r other : PruneRecord) : Prop := other.createdAt.atMost r.createdAt = false

end PruneRecord

namespace RecordStore

variable {s : RecordStore} {r a b old : PruneRecord} {records : List PruneRecord} {id : String}
  {now : Moment} {n : Nat}

/-! ## The oldest records -/

/-- Unless there are no records, there is an oldest one. -/
theorem oldest?_cases (records : List PruneRecord) :
    records = [] ∨ ∃ old ∈ records, oldest? records = some old ∧
      ∀ a ∈ records, old.createdAt.atMost a.createdAt = true := by
  induction records with
  | nil => exact .inl rfl
  | cons r rest ih =>
    refine .inr ?_
    rcases ih with rfl | ⟨other, hmem, hother, hleast⟩
    · exact ⟨r, List.mem_cons_self, rfl, by simp [Moment.atMost_refl]⟩
    · rw [oldest?, hother]
      by_cases hfirst : r.createdAt.atMost other.createdAt = true
      · exact ⟨r, List.mem_cons_self, if_pos hfirst, List.forall_mem_cons.mpr
          ⟨Moment.atMost_refl _, fun a ha => Moment.atMost_trans hfirst (hleast a ha)⟩⟩
      · exact ⟨other, List.mem_cons_of_mem r hmem, if_neg hfirst, List.forall_mem_cons.mpr
          ⟨(Moment.atMost_total _ _).resolve_right hfirst, hleast⟩⟩

theorem length_dropOldest (n : Nat) (records : List PruneRecord) :
    (dropOldest n records).length = records.length - n := by
  induction n generalizing records with
  | zero => rfl
  | succ n ih =>
    rw [dropOldest]
    rcases oldest?_cases records with rfl | ⟨old, hmem, hold, -⟩
    · simp [oldest?]
    · rw [hold]
      dsimp only
      rw [ih, List.length_eraseP_of_mem hmem (by simp)]
      omega

/-- Where ids are distinct, only the record itself goes with its id. -/
theorem mem_eraseP_id (hdistinct : (records.map (·.id)).Nodup) (hold : old ∈ records) :
    a ∈ records.eraseP (·.id == old.id) ↔ a ∈ records ∧ a ≠ old := by
  obtain ⟨before, after, rfl⟩ := List.append_of_mem hold
  have hbefore : ∀ b ∈ before, b.id ≠ old.id := fun b hb heq => by
    rw [List.map_append, List.map_cons] at hdistinct
    exact (List.nodup_append.mp hdistinct).2.2 b.id (List.mem_map_of_mem hb) old.id
      List.mem_cons_self heq
  have hafter : ∀ b ∈ after, b.id ≠ old.id := fun b hb heq => by
    rw [List.map_append, List.map_cons] at hdistinct
    exact (List.nodup_cons.mp (List.nodup_append.mp hdistinct).2.1).1
      (heq ▸ List.mem_map_of_mem hb)
  rw [List.eraseP_append_right _ (by simpa using hbefore), List.eraseP_cons_of_pos (by simp),
    List.mem_append, List.mem_append, List.mem_cons]
  constructor
  · rintro (ha | ha)
    · exact ⟨.inl ha, fun heq => hbefore a ha (by rw [heq])⟩
    · exact ⟨.inr (.inr ha), fun heq => hafter a ha (by rw [heq])⟩
  · rintro ⟨ha | ha | ha, hne⟩
    · exact .inl ha
    · exact absurd ha hne
    · exact .inr ha

theorem nodup_of_sublist {left : List PruneRecord} (h : left.Sublist records)
    (hdistinct : (records.map (·.id)).Nodup) : (left.map (·.id)).Nodup :=
  hdistinct.sublist (h.map _)

/-- No record is kept while one that was made after it is dropped. -/
theorem not_mem_dropOldest (hdistinct : (records.map (·.id)).Nodup) (ha : a ∈ records)
    (hdropped : a ∉ dropOldest n records) (holder : b.Older a) : b ∉ dropOldest n records := by
  induction n generalizing records with
  | zero => exact absurd ha hdropped
  | succ n ih =>
    rw [dropOldest] at hdropped ⊢
    rcases oldest?_cases records with rfl | ⟨old, hmem, hold, hleast⟩
    · exact absurd ha List.not_mem_nil
    · rw [hold] at hdropped ⊢
      dsimp only at hdropped ⊢
      have hrest := nodup_of_sublist (List.eraseP_sublist (p := (·.id == old.id))) hdistinct
      by_cases hself : a = old
      · intro hb
        have hbmem := List.eraseP_sublist.subset ((dropOldest_sublist _ _).subset hb)
        rw [PruneRecord.Older, hself, hleast b hbmem] at holder
        cases holder
      · exact ih hrest ((mem_eraseP_id hdistinct hmem).mpr ⟨ha, hself⟩) hdropped

/-- When one record is dropped, it is the only one that goes. -/
theorem eq_of_dropped_one (hdistinct : (records.map (·.id)).Nodup) (ha : a ∈ records)
    (hb : b ∈ records) (hadropped : a ∉ dropOldest 1 records)
    (hbdropped : b ∉ dropOldest 1 records) : a = b := by
  rcases oldest?_cases records with rfl | ⟨old, hmem, hold, -⟩
  · exact absurd ha List.not_mem_nil
  · have hgone : ∀ c ∈ records, c ∉ dropOldest 1 records → c = old := by
      intro c hc hdropped
      rw [dropOldest, hold] at hdropped
      by_contra hne
      exact hdropped ((mem_eraseP_id hdistinct hmem).mpr ⟨hc, hne⟩)
    rw [hgone a ha hadropped, hgone b hb hbdropped]

/-! ## One operation -/

/-- There is a record under an id. -/
def Holds (s : RecordStore) (id : String) : Prop := ∃ r ∈ s.records, r.id = id

theorem holds_iff : s.Holds id ↔ (s.find? id).isSome = true := by
  rw [Holds, find?, List.find?_isSome]
  simp

theorem not_holds_iff : ¬ s.Holds id ↔ s.find? id = none := by
  rw [holds_iff, Option.not_isSome_iff_eq_none]

/-- The ids of the records are distinct, and there are no more of them than the capacity allows. -/
structure Sound (s : RecordStore) : Prop where
  distinct : (s.records.map (·.id)).Nodup
  bounded : s.size ≤ s.capacity
  room : 1 ≤ s.capacity

/-- Those that stay after a purge have not ended. -/
theorem mem_purge : a ∈ (s.purge now).records ↔ a ∈ s.records ∧ ¬ a.Ended now := by
  rw [purge, List.mem_filter, ← PruneRecord.isExpired_iff]
  simp

/-- What a purge does and what number it gives. -/
structure Purges (s : RecordStore) (now : Moment) (s' : RecordStore) (count : Nat) : Prop where
  left : ∀ a, a ∈ s'.records ↔ a ∈ s.records ∧ ¬ a.Ended now
  order : s'.records.Sublist s.records
  count : count = s.records.countP fun a => a.isExpired now

theorem purges_purge (s : RecordStore) (now : Moment) :
    Purges s now (s.purge now) (s.purgeCount now) where
  left _ := mem_purge
  order := purge_sublist s now
  count := by
    have hsplit := List.length_eq_countP_add_countP (fun a => PruneRecord.isExpired a now)
      (l := s.records)
    have hleft : (s.purge now).size = s.records.countP fun a => !a.isExpired now := by
      rw [List.countP_eq_length_filter]
      rfl
    rw [purgeCount, hleft, size, hsplit]
    simp

/-- What an insertion of a record under a new id does. -/
structure Inserts (s : RecordStore) (r : PruneRecord) (now : Moment) (s' : RecordStore) :
    Prop where
  present : s'.find? r.id = some r
  origin : ∀ a ∈ s'.records, a = r ∨ a ∈ s.records
  below : s.size < s.capacity → s'.records = s.records ++ [r]
  expired : s.capacity ≤ s.size → ∀ a ∈ s.records, a.Ended now → a ∉ s'.records
  spared : (∃ a ∈ s.records, a.Ended now) → ∀ a ∈ s.records, ¬ a.Ended now → a ∈ s'.records
  aged : ∀ a ∈ s.records, ∀ b ∈ s.records, ¬ a.Ended now → a ∉ s'.records → b.Older a →
    b ∉ s'.records
  single : ∀ a ∈ s.records, ∀ b ∈ s.records, ¬ a.Ended now → ¬ b.Ended now →
    a ∉ s'.records → b ∉ s'.records → a = b

theorem insert_full (full : s.capacity ≤ s.size) (fresh : s.find? r.id = none) :
    (s.insert r now).records =
      dropOldest ((s.purge now).size + 1 - s.capacity) (s.purge now).records ++ [r] := by
  rw [insert, if_neg (by simp [fresh]), if_pos full]
  rfl

theorem inserts_insert (h : s.Sound) (now : Moment) (fresh : ¬ s.Holds r.id) :
    Inserts s r now (s.insert r now) := by
  have hnone := not_holds_iff.mp fresh
  have hother : ∀ a ∈ s.records, a ≠ r := fun a ha heq => fresh ⟨a, ha, by rw [heq]⟩
  have hpurged := nodup_of_sublist (purge_sublist s now) h.distinct
  rcases Nat.lt_or_ge s.size s.capacity with hroom | hfull
  · have hall := insert_of_room now hroom hnone
    have hkept : ∀ a ∈ s.records, a ∈ (s.insert r now).records := fun a ha => by
      rw [hall]
      exact List.mem_append_left _ ha
    exact {
      present := find?_insert hnone
      origin := fun a ha => (mem_insert ha).symm
      below := fun _ => hall
      expired := fun hfull => absurd hfull (Nat.not_le.mpr hroom)
      spared := fun _ a ha _ => hkept a ha
      aged := fun a ha _ _ _ hdropped => absurd (hkept a ha) hdropped
      single := fun a ha _ _ _ _ hdropped => absurd (hkept a ha) hdropped }
  · have hleft : (s.insert r now).records =
        dropOldest ((s.purge now).size + 1 - s.capacity) (s.purge now).records ++ [r] :=
      insert_full hfull hnone
    have hpurge := purges_purge s now
    have hsize : (s.purge now).size ≤ s.size := (purge_sublist s now).length_le
    have hbounded := h.bounded
    -- What stays of the records that were held; the new one is none of them.
    have hkept : ∀ a ∈ s.records, a ∈ (s.insert r now).records ↔
        a ∈ dropOldest ((s.purge now).size + 1 - s.capacity) (s.purge now).records := by
      intro a ha
      rw [hleft, List.mem_append, List.mem_singleton]
      exact or_iff_left (hother a ha)
    refine ⟨find?_insert hnone, fun a ha => (mem_insert ha).symm,
      fun hroom => absurd hfull (Nat.not_le.mpr hroom), fun _ a ha hended => ?_,
      fun ⟨gone, hgone, hended⟩ a ha halive => ?_, fun a ha b hb halive hdropped holder => ?_,
      fun a ha b hb halive hblive hdropped hbdropped => ?_⟩
    · rw [hkept a ha]
      exact fun hmem => (mem_purge.mp ((dropOldest_sublist _ _).subset hmem)).2 hended
    · have hfewer : (s.purge now).size < s.size := by
        refine Nat.lt_of_le_of_ne hsize fun heq => ?_
        have hsame := (purge_sublist s now).eq_of_length heq
        exact (mem_purge.mp (hsame ▸ hgone)).2 hended
      rw [hkept a ha, show (s.purge now).size + 1 - s.capacity = 0 by omega]
      exact mem_purge.mpr ⟨ha, halive⟩
    · rw [hkept a ha] at hdropped
      rw [hkept b hb]
      exact not_mem_dropOldest hpurged (mem_purge.mpr ⟨ha, halive⟩) hdropped holder
    · rw [hkept a ha] at hdropped
      rw [hkept b hb] at hbdropped
      have ha := mem_purge.mpr ⟨ha, halive⟩
      have hb := mem_purge.mpr ⟨hb, hblive⟩
      have hone : (s.purge now).size + 1 - s.capacity = 0 ∨
          (s.purge now).size + 1 - s.capacity = 1 := by omega
      rcases hone with hzero | hone
      · rw [hzero] at hdropped
        exact absurd ha hdropped
      · rw [hone] at hdropped hbdropped
        exact eq_of_dropped_one hpurged ha hb hdropped hbdropped

/-! ## Histories -/

/-- An operation on a store. -/
inductive Op where
  | insert (r : PruneRecord)
  | get (id : String)
  | purge

/-- The store after an operation; a look-up leaves it as it is. -/
def apply (s : RecordStore) (now : Moment) : Op → RecordStore
  | .insert r => s.insert r now
  | .get _ => s
  | .purge => s.purge now

/-- The store after operations, each at its time. -/
def run (s : RecordStore) (ops : List (Moment × Op)) : RecordStore :=
  ops.foldl (fun s op => s.apply op.1 op.2) s

theorem run_append (s : RecordStore) (before after : List (Moment × Op)) :
    s.run (before ++ after) = (s.run before).run after := by
  rw [run, List.foldl_append]
  rfl

theorem capacity_apply (s : RecordStore) (now : Moment) (op : Op) :
    (s.apply now op).capacity = s.capacity := by
  cases op with
  | insert r => exact capacity_insert s r now
  | get id => rfl
  | purge => rfl

theorem Sound.insert (h : s.Sound) (r : PruneRecord) (now : Moment) : (s.insert r now).Sound := by
  by_cases hheld : s.Holds r.id
  · rw [insert_of_mem (holds_iff.mp hheld)]
    exact h
  · have hnone := not_holds_iff.mp hheld
    have hcapacity := capacity_insert s r now
    refine ⟨?_, ?_, hcapacity ▸ h.room⟩
    · obtain ⟨left, hleft, hrecords⟩ := insert_eq_append now hnone
      rw [hrecords, List.map_append, List.map_singleton]
      refine List.nodup_append.mpr ⟨nodup_of_sublist hleft h.distinct, by simp, ?_⟩
      intro id hid other hother heq
      obtain ⟨a, ha, rfl⟩ := List.mem_map.mp hid
      exact hheld ⟨a, hleft.subset ha, heq.trans (List.mem_singleton.mp hother)⟩
    · rw [hcapacity]
      rcases Nat.lt_or_ge s.size s.capacity with hroom | hfull
      · rw [size, insert_of_room now hroom hnone, List.length_append, List.length_singleton]
        exact hroom
      · have hroom := h.room
        rw [size, insert_full hfull hnone, List.length_append, length_dropOldest,
          List.length_singleton]
        change (s.purge now).size - _ + 1 ≤ _
        omega

theorem Sound.apply (h : s.Sound) (now : Moment) (op : Op) : (s.apply now op).Sound := by
  cases op with
  | insert r => exact h.insert r now
  | get id => exact h
  | purge =>
    exact ⟨nodup_of_sublist (purge_sublist s now) h.distinct,
      Nat.le_trans (purge_sublist s now).length_le h.bounded, h.room⟩

theorem run_sound (h : s.Sound) (ops : List (Moment × Op)) :
    (s.run ops).Sound ∧ (s.run ops).capacity = s.capacity := by
  induction ops generalizing s with
  | nil => exact ⟨h, rfl⟩
  | cons op ops ih =>
    obtain ⟨hsound, hcapacity⟩ := ih (h.apply op.1 op.2)
    exact ⟨hsound, hcapacity.trans (capacity_apply s op.1 op.2)⟩

theorem sound_empty (capacity : Nat) : (empty capacity).Sound :=
  ⟨List.nodup_nil, Nat.zero_le _, Nat.le_max_right _ _⟩

/-- What is found under an id after an operation was found before it, or has just been inserted
where nothing was. -/
theorem find?_apply (h : s.Sound) {op : Op} (hfound : (s.apply now op).find? id = some r) :
    s.find? id = some r ∨ op = .insert r ∧ r.id = id ∧ ¬ s.Holds id := by
  have hid : r.id = id := by simpa using List.find?_some hfound
  have hsub : r ∈ s.records → s.find? id = some r := fun hmem => hid ▸ find?_of_mem h.distinct hmem
  have hmem := List.mem_of_find?_eq_some hfound
  cases op with
  | get _ => exact .inl hfound
  | purge => exact .inl (hsub ((purge_sublist s now).subset hmem))
  | insert new =>
    rcases mem_insert hmem with hmem | rfl
    · exact .inl (hsub hmem)
    · by_cases hheld : s.Holds r.id
      · rw [apply, insert_of_mem (holds_iff.mp hheld)] at hfound
        exact .inl hfound
      · exact .inr ⟨rfl, hid, hid ▸ hheld⟩

/-- The record was inserted where nothing was under its id, and since then there has been a record
under it. -/
def FirstHeld (s : RecordStore) (ops : List (Moment × Op)) (r : PruneRecord) : Prop :=
  ∃ before time after, ops = before ++ (time, .insert r) :: after ∧
    ¬ (s.run before).Holds r.id ∧
      ∀ rest, rest <+: after → (s.run (before ++ (time, .insert r) :: rest)).Holds r.id

/-- What is found under an id was the first to be inserted since there was nothing under it. -/
theorem firstHeld_of_find? (h : s.Sound) (hempty : s.records = []) {ops : List (Moment × Op)}
    (hfound : (s.run ops).find? id = some r) : s.FirstHeld ops r ∧ r.id = id := by
  induction ops using List.reverseRecOn with
  | nil =>
    rw [run, List.foldl_nil, find?, hempty] at hfound
    cases hfound
  | append_singleton ops op ih =>
    have hheld : (s.run (ops ++ [op])).Holds id := holds_iff.mpr (by rw [hfound]; rfl)
    rw [run_append] at hfound
    rcases find?_apply (run_sound h ops).1 hfound with hbefore | ⟨hop, hid, hnone⟩
    · obtain ⟨⟨before, time, after, rfl, hnone, hsince⟩, hid⟩ := ih hbefore
      refine ⟨⟨before, time, after ++ [op], by simp, hnone, fun rest hrest => ?_⟩, hid⟩
      rcases List.prefix_concat_iff.mp hrest with rfl | hrest
      · simpa [hid] using hheld
      · exact hsince rest hrest
    · obtain ⟨time, what⟩ := op
      obtain rfl : what = .insert r := hop
      refine ⟨⟨ops, time, [], rfl, hid ▸ hnone, fun rest hrest => ?_⟩, hid⟩
      rw [List.prefix_nil.mp hrest, hid]
      exact hheld

/-- What a look-up gives after a history. -/
inductive Got (s : RecordStore) (ops : List (Moment × Op)) (id : String) (now : Moment) :
    Except BudgetError PruneRecord → Prop where
  | unknown (h : ¬ (s.run ops).Holds id) : Got s ops id now (.error (.recordUnknown id))
  | expired {r : PruneRecord} (first : s.FirstHeld ops r) (own : r.id = id) (ended : r.Ended now) :
    Got s ops id now (.error (.recordExpired id))
  | found {r : PruneRecord} (first : s.FirstHeld ops r) (own : r.id = id)
    (lives : ¬ r.Ended now) : Got s ops id now (.ok r)

theorem got_get (h : s.Sound) (hempty : s.records = []) (ops : List (Moment × Op)) (id : String)
    (now : Moment) : Got s ops id now ((s.run ops).get id now) := by
  rw [get]
  cases hfound : (s.run ops).find? id with
  | none => exact .unknown (not_holds_iff.mpr hfound)
  | some r =>
    obtain ⟨hfirst, hid⟩ := firstHeld_of_find? h hempty hfound
    dsimp only
    split
    · exact .expired hfirst hid (PruneRecord.isExpired_iff.mp ‹_›)
    · exact .found hfirst hid fun hended => absurd (PruneRecord.isExpired_iff.mpr hended) ‹_›

/-- What a store does that was empty before a history. -/
structure KeepsRecords (capacity : Nat) (ops : List (Moment × Op)) : Prop where
  bounded : ((empty capacity).run ops).size ≤ Nat.max 1 capacity
  known : ∀ r now, ((empty capacity).run ops).Holds r.id →
    ((empty capacity).run ops).insert r now = (empty capacity).run ops
  fresh : ∀ r now, ¬ ((empty capacity).run ops).Holds r.id →
    Inserts ((empty capacity).run ops) r now (((empty capacity).run ops).insert r now)
  got : ∀ id now, Got (empty capacity) ops id now (((empty capacity).run ops).get id now)
  purged : ∀ now, Purges ((empty capacity).run ops) now (((empty capacity).run ops).purge now)
    (((empty capacity).run ops).purgeCount now)
  ends : ∀ (r : PruneRecord) (now : Moment), r.createdAt.Plain → now.Plain →
    (r.Ended now ↔ r.createdAt.sinceEpoch + r.life.nanos < Moment.endOfCalendar ∧
      r.createdAt.sinceEpoch + r.life.nanos ≤ now.sinceEpoch)

/-- Whatever operations came before, at whatever times: a store stays within its capacity, keeps the
first record under an id, makes room at the expense of what has ended and then of the oldest record,
and tells what it holds, what has ended and what it does not know apart. -/
theorem store_keepsRecords (capacity : Nat) (ops : List (Moment × Op)) :
    KeepsRecords capacity ops := by
  obtain ⟨hsound, hcapacity⟩ := run_sound (sound_empty capacity) ops
  refine ⟨?_, fun r now hheld => insert_of_mem (holds_iff.mp hheld),
    fun r now hnone => inserts_insert hsound now hnone,
    got_get (sound_empty capacity) rfl ops, fun now => purges_purge _ now,
    fun _ _ => PruneRecord.ended_iff⟩
  calc ((empty capacity).run ops).size
      ≤ ((empty capacity).run ops).capacity := hsound.bounded
    _ = Nat.max capacity 1 := hcapacity
    _ = Nat.max 1 capacity := Nat.max_comm capacity 1

end RecordStore
end ContextBudget
