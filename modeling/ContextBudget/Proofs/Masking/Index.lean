import ContextBudget.Proofs.Masking.Retention
import Mathlib.Data.List.AList

/-!
# Handles by id, and a queue of their ids

A store can hold its handles in two collections: a map that finds a handle by its id, and a queue
that tells which one goes next. Each call changes both or neither. An id that stayed behind in the
queue, or came into it twice, would later take a handle out that is still due.

- `HandleIndex`: the two collections, and what a call does to them.
- `Sound`: the queue holds the keys of the map, each of them once; `Sound.storeAll`: any calls keep
  it so.
- `firstHeld_of_get?`: the handle of an id is the first one since the id was last absent.
- `Mirrors`: the two collections are those of a `HandleStore`; `Mirrors.storeAll`: and stay so.
- `storeAll_keepsHandles`: what holds after any calls.
-/

namespace ContextBudget

/-- Handles by id, and their ids in the order in which they were stored, at most `capacity` of them
and at least one. -/
structure HandleIndex where
  byId : AList fun _ : String => Handle
  queue : List String
  capacity : Nat

namespace HandleIndex

/-- An index without handles. -/
def empty (capacity : Nat) : HandleIndex := ⟨∅, [], Nat.max capacity 1⟩

/-- How many handles are held. -/
def size (s : HandleIndex) : Nat := s.byId.keys.length

/-- The handle of an id. -/
def get? (s : HandleIndex) (id : String) : Option Handle := s.byId.lookup id

/-- Takes ids off a queue, and their handles out of a map, until one more has room. -/
def evict (capacity : Nat) (byId : AList fun _ : String => Handle) :
    List String → (AList fun _ : String => Handle) × List String
  | [] => (byId, [])
  | oldest :: rest =>
    if capacity ≤ rest.length + 1 then evict capacity (byId.erase oldest) rest
    else (byId, oldest :: rest)

/-- The index with a handle, unless its id is held; the oldest ones make room. -/
def insert (s : HandleIndex) (h : Handle) : HandleIndex :=
  if h.id ∈ s.byId then s
  else
    let (byId, queue) := evict s.capacity s.byId s.queue
    { s with byId := byId.insert h.id h, queue := queue ++ [h.id] }

/-- Stores a handle and tells its id. A handle without id is refused. -/
def store (s : HandleIndex) (h : Handle) : Except ServiceError String × HandleIndex :=
  if h.id = "" then (.error (.storage "empty hash_id"), s) else (.ok h.id, s.insert h)

/-- The index after calls that store handles. -/
def storeAll (s : HandleIndex) (hs : List Handle) : HandleIndex :=
  hs.foldl (fun s h => (s.store h).2) s

variable {s : HandleIndex} {t : HandleStore} {h kept : Handle} {id : String} {capacity : Nat}
  {byId : AList fun _ : String => Handle} {queue : List String}

/-! ## One call -/

theorem queue_evict : (evict capacity byId queue).2 = queue.drop (queue.length + 1 - capacity) := by
  induction queue generalizing byId with
  | nil => rw [evict, List.drop_nil]
  | cons oldest rest ih =>
    rw [evict, List.length_cons]
    split
    · rw [ih, show rest.length + 1 + 1 - capacity = rest.length + 1 - capacity + 1 by omega,
        List.drop_succ_cons]
    · rw [show rest.length + 1 + 1 - capacity = 0 by omega, List.drop_zero]

theorem lookup_evict : (evict capacity byId queue).1.lookup id =
    if id ∈ queue.take (queue.length + 1 - capacity) then none else byId.lookup id := by
  induction queue generalizing byId with
  | nil => simp [evict]
  | cons oldest rest ih =>
    rw [evict, List.length_cons]
    split
    · rw [ih, show rest.length + 1 + 1 - capacity = rest.length + 1 - capacity + 1 by omega,
        List.take_succ_cons]
      by_cases hid : id = oldest
      · subst hid
        simp
      · simp [hid, AList.lookup_erase_ne hid]
    · rw [show rest.length + 1 + 1 - capacity = 0 by omega, List.take_zero]
      simp

theorem insert_of_mem (held : h.id ∈ s.byId) : s.insert h = s := if_pos held

theorem queue_insert (fresh : h.id ∉ s.byId) :
    (s.insert h).queue = s.queue.drop (s.queue.length + 1 - s.capacity) ++ [h.id] := by
  have hkept : (evict s.capacity s.byId s.queue).2 = _ := queue_evict
  rw [insert, if_neg fresh, ← hkept]

theorem get?_insert (fresh : h.id ∉ s.byId) : (s.insert h).get? id =
    if id = h.id then some h
    else if id ∈ s.queue.take (s.queue.length + 1 - s.capacity) then none else s.get? id := by
  rw [insert, if_neg fresh]
  change AList.lookup id (AList.insert h.id h (evict s.capacity s.byId s.queue).1) = _
  by_cases hid : id = h.id
  · rw [if_pos hid, hid, AList.lookup_insert]
  · rw [if_neg hid, AList.lookup_insert_ne hid, lookup_evict]
    rfl

@[simp] theorem capacity_insert (s : HandleIndex) (h : Handle) :
    (s.insert h).capacity = s.capacity := by
  unfold insert
  split <;> rfl

@[simp] theorem capacity_store (s : HandleIndex) (h : Handle) :
    (s.store h).2.capacity = s.capacity := by
  unfold store
  split
  · rfl
  · exact capacity_insert s h

theorem mem_byId_iff : id ∈ s.byId ↔ (s.get? id).isSome := AList.lookup_isSome.symm

theorem not_mem_byId_iff : id ∉ s.byId ↔ s.get? id = none := AList.lookup_eq_none.symm

/-- What holds of every index: the queue has each key of the map once, and nothing else; each key is
the id of its handle; and there are no more of them than the index may hold. -/
structure Sound (s : HandleIndex) : Prop where
  nodup : s.queue.Nodup
  keys : ∀ id, id ∈ s.queue ↔ id ∈ s.byId
  own : ∀ id h, s.get? id = some h → h.id = id
  bounded : s.queue.length ≤ s.capacity
  room : 0 < s.capacity

namespace Sound

theorem empty (capacity : Nat) : (empty capacity).Sound where
  nodup := List.nodup_nil
  keys id := iff_of_false List.not_mem_nil (AList.notMem_empty id)
  own _ _ hget := by cases hget
  bounded := Nat.zero_le _
  room := Nat.lt_of_lt_of_le Nat.one_pos (Nat.le_max_right _ _)

/-- The queue is as long as the map is large. -/
theorem size_eq (hs : s.Sound) : s.size = s.queue.length :=
  ((List.perm_ext_iff_of_nodup hs.nodup s.byId.keys_nodup).mpr hs.keys).length_eq.symm

/-- What was taken off the queue is not in the rest of it. -/
theorem mem_drop_iff (hs : s.Sound) (n : Nat) :
    id ∈ s.queue.drop n ↔ id ∈ s.byId ∧ id ∉ s.queue.take n := by
  have hsplit := List.take_append_drop n s.queue
  have hmem : id ∈ s.queue ↔ id ∈ s.queue.take n ∨ id ∈ s.queue.drop n := by
    rw [← List.mem_append, hsplit]
  have hapart : id ∈ s.queue.take n → id ∉ s.queue.drop n := fun htaken hleft =>
    (List.nodup_append.mp (hsplit.symm ▸ hs.nodup)).2.2 id htaken id hleft rfl
  rw [← hs.keys, hmem]
  tauto

theorem insert (hs : s.Sound) (h : Handle) : (s.insert h).Sound := by
  by_cases fresh : h.id ∈ s.byId
  · rw [insert_of_mem fresh]
    exact hs
  have hqueue := queue_insert fresh
  refine ⟨?_, fun id => ?_, fun id kept hget => ?_, ?_, ?_⟩
  · rw [hqueue]
    refine List.nodup_append.mpr ⟨hs.nodup.sublist (List.drop_sublist _ _), List.nodup_singleton _,
      fun a ha b hb heq => fresh ?_⟩
    rw [← List.mem_singleton.mp hb, ← heq]
    exact (hs.keys a).mp (List.mem_of_mem_drop ha)
  · rw [mem_byId_iff, get?_insert fresh, hqueue, List.mem_append, List.mem_singleton,
      hs.mem_drop_iff, mem_byId_iff]
    by_cases hid : id = h.id
    · simp [hid]
    · by_cases hgone : id ∈ s.queue.take (s.queue.length + 1 - s.capacity) <;> simp [hid, hgone]
  · rw [get?_insert fresh] at hget
    split at hget
    · rename_i hid
      rw [← Option.some.inj hget, hid]
    · split at hget
      · cases hget
      · exact hs.own id kept hget
  · have hroom := hs.room
    rw [hqueue, capacity_insert, List.length_append, List.length_drop, List.length_singleton]
    omega
  · rw [capacity_insert]
    exact hs.room

theorem store (hs : s.Sound) (h : Handle) : (s.store h).2.Sound := by
  unfold HandleIndex.store
  split
  · exact hs
  · exact hs.insert h

theorem storeAll (hs : s.Sound) (calls : List Handle) : (s.storeAll calls).Sound := by
  induction calls generalizing s with
  | nil => exact hs
  | cons h rest ih => exact ih (hs.store h)

end Sound

/-! ## Any calls -/

theorem storeAll_append (s : HandleIndex) (hs hs' : List Handle) :
    s.storeAll (hs ++ hs') = (s.storeAll hs).storeAll hs' := List.foldl_append

@[simp] theorem capacity_storeAll (s : HandleIndex) (calls : List Handle) :
    (s.storeAll calls).capacity = s.capacity := by
  induction calls generalizing s with
  | nil => rfl
  | cons h rest ih => exact (ih _).trans (capacity_store s h)

/-- The handle of an id after a call was its handle before, or was just stored where none was. -/
theorem get?_store (hget : (s.store h).2.get? id = some kept) :
    s.get? id = some kept ∨ kept = h ∧ h.id = id ∧ id ∉ s.byId := by
  unfold store at hget
  split at hget
  · exact .inl hget
  by_cases fresh : h.id ∈ s.byId
  · rw [insert_of_mem fresh] at hget
    exact .inl hget
  rw [get?_insert fresh] at hget
  split at hget
  · rename_i hid
    exact .inr ⟨(Option.some.inj hget).symm, hid.symm, hid ▸ fresh⟩
  · split at hget
    · cases hget
    · exact .inl hget

/-- Among the calls is one that stored the handle where its id was absent, and since then the id has
been held. -/
def FirstHeld (s : HandleIndex) (calls : List Handle) (h : Handle) : Prop :=
  ∃ before after, calls = before ++ h :: after ∧ h.id ∉ (s.storeAll before).byId ∧
    ∀ rest, rest <+: after → h.id ∈ (s.storeAll (before ++ h :: rest)).byId

theorem firstHeld_of_get? (hs : s.Sound) (hnone : s.byId = ∅) {calls : List Handle}
    (hget : (s.storeAll calls).get? id = some h) : s.FirstHeld calls h := by
  induction calls using List.reverseRecOn with
  | nil =>
    rw [storeAll, List.foldl_nil, get?, hnone, AList.lookup_empty] at hget
    cases hget
  | append_singleton calls last ih =>
    obtain rfl : h.id = id := (hs.storeAll _).own _ _ hget
    have hheld : h.id ∈ (s.storeAll (calls ++ [last])).byId :=
      mem_byId_iff.mpr (Option.isSome_of_eq_some hget)
    rw [storeAll_append] at hget
    rcases get?_store hget with hbefore | ⟨rfl, -, fresh⟩
    · obtain ⟨before, after, rfl, fresh, hsince⟩ := ih hbefore
      refine ⟨before, after ++ [last], by simp, fresh, fun rest hrest => ?_⟩
      rcases List.prefix_concat_iff.mp hrest with rfl | hrest
      · simpa using hheld
      · exact hsince rest hrest
    · refine ⟨calls, [], rfl, fresh, fun rest hrest => ?_⟩
      rw [List.prefix_nil.mp hrest]
      exact hheld

/-! ## One collection -/

/-- The map and the queue have the handles of a store, in its order. -/
structure Mirrors (s : HandleIndex) (t : HandleStore) : Prop where
  capacity : s.capacity = t.capacity
  queue : s.queue = t.handles.map (·.id)
  lookup : ∀ id, s.get? id = t.get? id

/-- What a store has left of its handles after the first ones is found where it was. -/
theorem find?_drop {handles : List Handle} (hnodup : (handles.map (·.id)).Nodup) (n : Nat)
    (id : String) : (handles.drop n).find? (·.id == id) =
      if id ∈ (handles.map (·.id)).take n then none else handles.find? (·.id == id) := by
  induction handles generalizing n with
  | nil => simp
  | cons h rest ih =>
    cases n with
    | zero => simp
    | succ n =>
      obtain ⟨hnew, hrest⟩ := List.nodup_cons.mp hnodup
      rw [List.drop_succ_cons, ih hrest, List.map_cons, List.take_succ_cons, List.find?_cons]
      by_cases hid : h.id = id
      · subst hid
        have hgone : h.id ∉ (rest.map (·.id)).take n := fun hmem =>
          hnew (List.mem_of_mem_take hmem)
        have hnone : rest.find? (·.id == h.id) = none := List.find?_eq_none.mpr fun a ha heq =>
          hnew (List.mem_map.mpr ⟨a, ha, eq_of_beq heq⟩)
        simp [hgone, hnone]
      · have hne : (h.id == id) = false := beq_eq_false_iff_ne.mpr hid
        simp [hne, Ne.symm hid]

namespace Mirrors

theorem empty (capacity : Nat) : Mirrors (empty capacity) (.empty capacity) :=
  ⟨rfl, rfl, fun _ => rfl⟩

theorem size_eq (h : Mirrors s t) (hs : s.Sound) : s.size = t.size := by
  rw [hs.size_eq, h.queue, List.length_map, HandleStore.size]

theorem insert (hm : Mirrors s t) (hs : s.Sound) (h : Handle) :
    Mirrors (s.insert h) (t.insert h) := by
  by_cases fresh : h.id ∈ s.byId
  · have hheld : (t.get? h.id).isSome := hm.lookup h.id ▸ mem_byId_iff.mp fresh
    rw [insert_of_mem fresh, HandleStore.insert_of_mem hheld]
    exact hm
  have hfresh : t.get? h.id = none := hm.lookup h.id ▸ not_mem_byId_iff.mp fresh
  have hhandles : (t.insert h).handles = t.handles.drop (t.size + 1 - t.capacity) ++ [h] := by
    rw [HandleStore.insert, if_neg (by simp [hfresh])]
  have hlength : s.queue.length = t.size := by rw [hm.queue, List.length_map, HandleStore.size]
  refine ⟨?_, ?_, fun id => ?_⟩
  · rw [capacity_insert, HandleStore.capacity_insert, hm.capacity]
  · rw [queue_insert fresh, hhandles, List.map_append, List.map_drop, hm.capacity, hlength,
      hm.queue]
    rfl
  · rw [get?_insert fresh, HandleStore.get?, hhandles, List.find?_append,
      find?_drop (hm.queue ▸ hs.nodup), hm.capacity, hlength, ← hm.queue]
    by_cases hid : id = h.id
    · have hstays : id ∉ s.queue.take (t.size + 1 - t.capacity) := fun hmem =>
        fresh (hid ▸ (hs.keys id).mp (List.mem_of_mem_take hmem))
      have hnone : t.handles.find? (·.id == id) = none := hid ▸ hfresh
      rw [if_pos hid, if_neg hstays, hnone, hid, Option.none_or]
      simp
    · have hother : [h].find? (·.id == id) = none := by simp [Ne.symm hid]
      rw [if_neg hid, hother, Option.or_none, hm.lookup]
      rfl

theorem store (hm : Mirrors s t) (hs : s.Sound) (h : Handle) :
    (s.store h).1 = (t.store h).1 ∧ Mirrors (s.store h).2 (t.store h).2 := by
  unfold HandleIndex.store HandleStore.store
  split
  · exact ⟨rfl, hm⟩
  · exact ⟨rfl, hm.insert hs h⟩

theorem storeAll (hm : Mirrors s t) (hs : s.Sound) (calls : List Handle) :
    Mirrors (s.storeAll calls) (t.storeAll calls) := by
  induction calls generalizing s t with
  | nil => exact hm
  | cons h rest ih => exact ih (hm.store hs h).2 (hs.store h)

end Mirrors

/-- What holds after calls that stored handles in an index that was empty: the queue has the keys of
the map once each, a key is the id of its handle, the capacity is kept, an id stands for the handle
that was stored first since it was last absent, and a call without id changes nothing. A store of
one collection would have answered the same. -/
structure KeepsHandles (capacity : Nat) (calls : List Handle) (s : HandleIndex) : Prop where
  nodup : s.queue.Nodup
  keys : ∀ id, id ∈ s.queue ↔ id ∈ s.byId
  own : ∀ id h, s.get? id = some h → h.id = id
  bounded : s.size ≤ Nat.max 1 capacity
  first : ∀ id h, s.get? id = some h → (empty capacity).FirstHeld calls h
  nameless : ∀ h : Handle, h.id = "" → s.store h = (.error (.storage "empty hash_id"), s)
  named : ∀ h : Handle, h.id ≠ "" → (s.store h).1 = .ok h.id ∧ h.id ∈ (s.store h).2.byId
  mirrors : Mirrors s ((HandleStore.empty capacity).storeAll calls)
  answers : ∀ h, (s.store h).1 = (((HandleStore.empty capacity).storeAll calls).store h).1

/-- Whatever handles are stored, the map and the queue agree. -/
theorem storeAll_keepsHandles (capacity : Nat) (calls : List Handle) :
    KeepsHandles capacity calls ((empty capacity).storeAll calls) := by
  have hs := (Sound.empty capacity).storeAll calls
  have hm := (Mirrors.empty capacity).storeAll (Sound.empty capacity) calls
  refine ⟨hs.nodup, hs.keys, hs.own, ?_, fun id h => firstHeld_of_get? (.empty capacity) rfl,
    fun h hid => if_pos hid, fun h hid => ?_, hm, fun h => (hm.store hs h).1⟩
  · calc ((empty capacity).storeAll calls).size
        = ((empty capacity).storeAll calls).queue.length := hs.size_eq
      _ ≤ ((empty capacity).storeAll calls).capacity := hs.bounded
      _ = Nat.max capacity 1 := capacity_storeAll _ _
      _ = Nat.max 1 capacity := Nat.max_comm _ _
  · rw [store, if_neg hid]
    refine ⟨rfl, ?_⟩
    by_cases fresh : h.id ∈ ((empty capacity).storeAll calls).byId
    · rwa [insert_of_mem fresh]
    · rw [mem_byId_iff, get?_insert fresh, if_pos rfl]
      rfl

end HandleIndex
end ContextBudget
