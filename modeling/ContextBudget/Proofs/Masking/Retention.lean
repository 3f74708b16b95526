import ContextBudget.Proofs.Masking.Fates

/-!
# How long handles stay

A bounded store holds the handles that were added last, and adds none whose id it holds. So the
place of a handle in the queue is that of the call that added it, and storing it again does not
renew it.

- `handles_storeAll`: what a store holds after any calls.
- `get?_storeAll`, `get?_storeAll_eq_none`: a handle stays until as many others were added after
  it as the store can hold.
- `Sound.retains`: what a call that stores a handle leads to.
- `not_resolves_renewed`: a handle that was stored again may be gone after one more call.
- `held_passes`: in a pass the store keeps the handles that the pass makes.
- `placeholders_resolve`: so a pass that masks no more messages than the store holds leaves
  placeholders that can be resolved, if the store did not hold their ids before.
-/

namespace ContextBudget

/-- Handles of one id have one content. -/
def Handle.Faithful (hs : List Handle) : Prop :=
  ∀ a ∈ hs, ∀ b ∈ hs, a.id = b.id → a.content = b.content

instance (hs : List Handle) : Decidable (Handle.Faithful hs) :=
  inferInstanceAs (Decidable (∀ a ∈ hs, ∀ b ∈ hs, _))

namespace HandleStore

variable {s : HandleStore} {h kept : Handle} {id : String} {earlier later : List Handle}

/-- A call that stores a handle adds it if it has an id that is not held. -/
def Adds (s : HandleStore) (h : Handle) : Prop := h.id ≠ "" ∧ s.get? h.id = none

instance (s : HandleStore) (h : Handle) : Decidable (s.Adds h) :=
  inferInstanceAs (Decidable (_ ∧ _))

/-- The store after calls that store handles. -/
def storeAll (s : HandleStore) (hs : List Handle) : HandleStore :=
  hs.foldl (fun s h => (s.store h).2) s

/-- The handles that are added in such calls. -/
def added (s : HandleStore) : List Handle → List Handle
  | [] => []
  | h :: rest => if s.Adds h then h :: (s.insert h).added rest else s.added rest

/-- How many handles are younger than that of an id. -/
def younger (s : HandleStore) (id : String) : Nat :=
  (s.handles.reverse.takeWhile (·.id != id)).length

/-- The id of a handle leads to its content. -/
def Resolves (s : HandleStore) (h : Handle) : Prop :=
  ∃ kept, s.get? h.id = some kept ∧ kept.content = h.content

/-- What holds of every store: it holds no id twice, and no more handles than it may. -/
structure Sound (s : HandleStore) : Prop where
  nodup : (s.handles.map (·.id)).Nodup
  bounded : s.size ≤ s.capacity
  room : 0 < s.capacity

@[simp] theorem storeAll_cons (s : HandleStore) (h : Handle) (hs : List Handle) :
    s.storeAll (h :: hs) = (s.store h).2.storeAll hs := rfl

theorem storeAll_append (s : HandleStore) (hs hs' : List Handle) :
    s.storeAll (hs ++ hs') = (s.storeAll hs).storeAll hs' := List.foldl_append

/-! ## One call -/

theorem store_adds (hadds : s.Adds h) : s.store h = (.ok h.id, s.insert h) := if_neg hadds.1

theorem store_idle (hadds : ¬ s.Adds h) : (s.store h).2 = s := by
  unfold store
  split
  · rfl
  · rename_i hid
    exact insert_of_mem (Option.isSome_iff_ne_none.mpr fun hnone => hadds ⟨hid, hnone⟩)

theorem handles_insert (hadds : s.Adds h) :
    (s.insert h).handles = s.handles.drop (s.size + 1 - s.capacity) ++ [h] := by
  rw [insert, if_neg (by simp [hadds.2])]

@[simp] theorem capacity_insert (s : HandleStore) (h : Handle) :
    (s.insert h).capacity = s.capacity := by
  unfold insert
  split <;> rfl

theorem get?_eq_none_iff : s.get? id = none ↔ ∀ a ∈ s.handles, a.id ≠ id := by
  simp [get?]

theorem get?_insert_self (hadds : s.Adds h) : (s.insert h).get? h.id = some h := by
  have hnone : (s.handles.drop (s.size + 1 - s.capacity)).find? (·.id == h.id) = none :=
    List.find?_eq_none.mpr fun a ha => by
      simpa using get?_eq_none_iff.mp hadds.2 a (List.mem_of_mem_drop ha)
  rw [get?, handles_insert hadds, List.find?_append, hnone]
  simp

theorem get?_insert_of_ne (hadds : s.Adds h) (hne : h.id ≠ id) (hnone : s.get? id = none) :
    (s.insert h).get? id = none := by
  refine get?_eq_none_iff.mpr fun a ha => ?_
  rw [handles_insert hadds] at ha
  rcases List.mem_append.mp ha with hold | hnew
  · exact get?_eq_none_iff.mp hnone a (List.mem_of_mem_drop hold)
  · exact List.mem_singleton.mp hnew ▸ hne

theorem younger_insert (hadds : s.Adds h) : (s.insert h).younger h.id = 0 := by
  rw [younger, handles_insert hadds, List.reverse_append]
  simp

theorem Sound.empty (capacity : Nat) : (empty capacity).Sound :=
  ⟨List.nodup_nil, Nat.zero_le _, Nat.lt_of_lt_of_le Nat.one_pos (Nat.le_max_right _ _)⟩

theorem Sound.insert (hs : s.Sound) (hadds : s.Adds h) : (s.insert h).Sound where
  nodup := by
    rw [handles_insert hadds, List.map_append, List.map_drop]
    refine List.nodup_append.mpr ⟨hs.nodup.sublist (List.drop_sublist _ _),
      List.pairwise_singleton _ _, fun x hx y hy heq => ?_⟩
    obtain ⟨a, ha, rfl⟩ := List.mem_map.mp (List.mem_of_mem_drop hx)
    exact get?_eq_none_iff.mp hadds.2 a ha (heq.trans (List.mem_singleton.mp hy))
  bounded := by
    have hroom := hs.room
    rw [size, handles_insert hadds, capacity_insert, List.length_append, List.length_drop, size,
      List.length_singleton]
    omega
  room := by
    rw [capacity_insert]
    exact hs.room

theorem Sound.storeAll (hs : s.Sound) (calls : List Handle) : (s.storeAll calls).Sound := by
  induction calls generalizing s with
  | nil => exact hs
  | cons h rest ih =>
    rw [storeAll_cons]
    by_cases hadds : s.Adds h
    · rw [store_adds hadds]
      exact ih (hs.insert hadds)
    · rw [store_idle hadds]
      exact ih hs

/-! ## Any calls -/

theorem added_sublist (s : HandleStore) (calls : List Handle) : (s.added calls).Sublist calls := by
  induction calls generalizing s with
  | nil => exact List.Sublist.refl _
  | cons h rest ih =>
    rw [added]
    split
    · exact (ih _).cons_cons h
    · exact (ih _).cons h

/-- A store holds the latest of the handles that were added, as many as it may. -/
theorem handles_storeAll (hs : s.Sound) (calls : List Handle) :
    (s.storeAll calls).handles =
      (s.handles ++ s.added calls).drop (s.size + (s.added calls).length - s.capacity) := by
  induction calls generalizing s with
  | nil =>
    have hbounded := hs.bounded
    rw [added, List.append_nil, List.length_nil, Nat.add_zero, Nat.sub_eq_zero_of_le hbounded]
    rfl
  | cons h rest ih =>
    rw [storeAll_cons, added]
    by_cases hadds : s.Adds h
    · have hroom := hs.room
      have hbounded := hs.bounded
      have hsize : (s.insert h).size = s.size - (s.size + 1 - s.capacity) + 1 := by
        rw [size, handles_insert hadds, List.length_append, List.length_drop, size,
          List.length_singleton]
      rw [store_adds hadds, if_pos hadds, ih (hs.insert hadds), handles_insert hadds,
        capacity_insert, hsize, List.append_assoc, List.singleton_append,
        ← List.drop_append_of_le_length (by rw [← size]; omega), List.drop_drop,
        List.length_cons]
      congr 1
      omega
    · rw [store_idle hadds, if_neg hadds, ih hs]

theorem mem_storeAll {a : Handle} (hs : s.Sound) {calls : List Handle}
    (ha : a ∈ (s.storeAll calls).handles) : a ∈ s.handles ++ calls := by
  rw [handles_storeAll hs] at ha
  rcases List.mem_append.mp (List.mem_of_mem_drop ha) with hold | hadded
  · exact List.mem_append_left _ hold
  · exact List.mem_append_right _ ((added_sublist s calls).mem hadded)

/-- A handle that is held stands between those that are older and those that are younger. -/
theorem exists_split (hs : s.Sound) (hget : s.get? id = some kept) :
    kept.id = id ∧ ∃ older newer, s.handles = older ++ kept :: newer ∧
      (∀ a ∈ older, a.id ≠ id) ∧ (∀ a ∈ newer, a.id ≠ id) ∧ s.younger id = newer.length ∧
      s.size = older.length + (newer.length + 1) := by
  obtain ⟨hid, older, newer, hsplit, holder⟩ := List.find?_eq_some_iff_append.mp hget
  obtain rfl : kept.id = id := beq_iff_eq.mp hid
  have hnewer : ∀ a ∈ newer, a.id ≠ kept.id := by
    intro a ha heq
    have hnodup := hs.nodup
    rw [hsplit, List.map_append, List.map_cons] at hnodup
    exact (List.nodup_cons.mp (List.nodup_append.mp hnodup).2.1).1
      (heq ▸ List.mem_map_of_mem ha)
  refine ⟨rfl, older, newer, hsplit, fun a ha => by simpa using holder a ha, hnewer, ?_, ?_⟩
  · rw [younger, hsplit, List.reverse_append, List.reverse_cons, List.append_assoc,
      List.takeWhile_append_of_pos (fun a ha => by simpa using hnewer a (List.mem_reverse.mp ha)),
      List.singleton_append, List.takeWhile_cons_of_neg (by simp), List.append_nil,
      List.length_reverse]
  · rw [size, hsplit, List.length_append, List.length_cons]

/-- A handle stays while those that were added after it are fewer than the store may hold. -/
theorem get?_storeAll (hs : s.Sound) (hget : s.get? id = some kept)
    (hlater : s.younger id + (s.added later).length < s.capacity) :
    (s.storeAll later).get? id = some kept := by
  obtain ⟨rfl, older, newer, hsplit, holder, -, hyounger, hsize⟩ := exists_split hs hget
  rw [get?, handles_storeAll hs, hsplit, List.append_assoc,
    List.drop_append_of_le_length (by omega), List.cons_append]
  refine List.find?_eq_some_iff_append.mpr ⟨beq_self_eq_true _, _, _, rfl, fun a ha => ?_⟩
  simpa using holder a (List.mem_of_mem_drop ha)

/-- It is gone when they are as many, unless it was stored again. -/
theorem get?_storeAll_eq_none (hs : s.Sound) (hget : s.get? id = some kept)
    (hnone : ∀ a ∈ later, a.id ≠ id)
    (hlater : s.capacity ≤ s.younger id + (s.added later).length) :
    (s.storeAll later).get? id = none := by
  obtain ⟨rfl, older, newer, hsplit, -, hnewer, hyounger, hsize⟩ := exists_split hs hget
  have hdrop : s.size + (s.added later).length - s.capacity =
      (older ++ [kept]).length + (newer.length + (s.added later).length - s.capacity) := by
    rw [List.length_append, List.length_singleton]
    omega
  have hall : s.handles ++ s.added later = (older ++ [kept]) ++ (newer ++ s.added later) := by
    rw [hsplit, List.append_cons, List.append_assoc]
  refine get?_eq_none_iff.mpr fun a ha => ?_
  rw [handles_storeAll hs, hdrop, hall, List.drop_length_add_append] at ha
  rcases List.mem_append.mp (List.mem_of_mem_drop ha) with hnew | hadded
  · exact hnewer a hnew
  · exact hnone a ((added_sublist s later).mem hadded)

/-- What is stored is held before or is added. -/
theorem mem_added (hh : h ∈ later) (hid : h.id ≠ "") (hnone : s.get? h.id = none) :
    ∃ a ∈ s.added later, a.id = h.id := by
  induction later generalizing s with
  | nil => cases hh
  | cons first rest ih =>
    rw [added]
    rcases List.mem_cons.mp hh with rfl | hrest
    · rw [if_pos ⟨hid, hnone⟩]
      exact ⟨h, List.mem_cons_self, rfl⟩
    · by_cases hadds : s.Adds first
      · rw [if_pos hadds]
        by_cases hsame : first.id = h.id
        · exact ⟨first, List.mem_cons_self, hsame⟩
        · obtain ⟨a, ha, heq⟩ := ih hrest (get?_insert_of_ne hadds hsame hnone)
          exact ⟨a, List.mem_cons_of_mem _ ha, heq⟩
      · rw [if_neg hadds]
        exact ih hrest hnone

/-- A handle of an id that was not held stays, if no more calls come than the store may hold. -/
theorem exists_get?_storeAll (hs : s.Sound) (hh : h ∈ later) (hid : h.id ≠ "")
    (hnone : s.get? h.id = none) (hfew : later.length ≤ s.capacity) :
    ∃ kept, (s.storeAll later).get? h.id = some kept := by
  obtain ⟨a, ha, heq⟩ := mem_added hh hid hnone
  have hadded := (added_sublist s later).length_le
  refine Option.ne_none_iff_exists'.mp fun hgone => get?_eq_none_iff.mp hgone a ?_ heq
  rw [handles_storeAll hs, List.drop_append_of_le_length (by rw [← size]; omega)]
  exact List.mem_append_right _ ha

/-! ## What the id of a handle leads to -/

theorem id_of_get? (hget : s.get? id = some kept) : kept.id = id := by
  have hfound := List.find?_some hget
  exact beq_iff_eq.mp hfound

theorem mem_of_get? (hget : s.get? id = some kept) : kept ∈ s.handles :=
  List.mem_of_find?_eq_some hget

/-- What a call that stores a handle leads to. -/
structure Retains (s : HandleStore) (h : Handle) : Prop where
  told : (s.store h).1 = .ok h.id
  /-- If its id was not held, a handle stays for any calls that are fewer than the store holds. -/
  stays : s.get? h.id = none → ∀ later, later.length < s.capacity →
    ((s.store h).2.storeAll later).Resolves h
  /-- If its id was held, the call does nothing. -/
  idle : (s.get? h.id).isSome → (s.store h).2 = s
  /-- Then a handle stays for what is left of its time. -/
  lasts : (s.get? h.id).isSome → ∀ later,
    s.younger h.id + (s.added later).length < s.capacity → (s.storeAll later).Resolves h
  /-- After that it is gone, unless it is stored again. -/
  goes : (s.get? h.id).isSome → ∀ later, (∀ a ∈ later, a.id ≠ h.id) →
    s.capacity ≤ s.younger h.id + (s.added later).length → (s.storeAll later).get? h.id = none

theorem Sound.retains (hs : s.Sound) (hid : h.id ≠ "")
    (hsame : ∀ kept, s.get? h.id = some kept → kept.content = h.content) : s.Retains h := by
  refine ⟨by rw [store, if_neg hid], fun hnone later hfew => ?_, fun hheld => ?_,
    fun hheld later htime => ?_, fun hheld later hnone htime => ?_⟩
  · have hadds : s.Adds h := ⟨hid, hnone⟩
    rw [store_adds hadds]
    refine ⟨h, get?_storeAll (hs.insert hadds) (get?_insert_self hadds) ?_, rfl⟩
    rw [younger_insert hadds, Nat.zero_add, capacity_insert]
    exact Nat.lt_of_le_of_lt (added_sublist _ later).length_le hfew
  · exact store_idle fun hadds => Option.isSome_iff_ne_none.mp hheld hadds.2
  · obtain ⟨kept, hget⟩ := Option.isSome_iff_exists.mp hheld
    exact ⟨kept, get?_storeAll hs hget htime, hsame kept hget⟩
  · obtain ⟨kept, hget⟩ := Option.isSome_iff_exists.mp hheld
    exact get?_storeAll_eq_none hs hget hnone htime

/-- A handle that was stored again may be gone after one more call, though the store holds two. -/
theorem not_resolves_renewed :
    ¬ ∀ (capacity : Nat) (earlier : List Handle) (h : Handle) (later : List Handle),
      Handle.Faithful (earlier ++ h :: later) →
      (((empty capacity).storeAll earlier).store h).1 = .ok h.id → later.length < capacity →
      ((((empty capacity).storeAll earlier).store h).2.storeAll later).Resolves h := by
  intro hlaw
  let a := Handle.of "a" "t" 10 ⟨0, 0⟩
  let b := Handle.of "b" "t" 10 ⟨0, 0⟩
  let c := Handle.of "c" "t" 10 ⟨0, 0⟩
  obtain ⟨kept, hget, -⟩ := hlaw 2 [a, b] a [c] (by decide +kernel) (by decide +kernel) (by decide)
  have hgone : ((((empty 2).storeAll [a, b]).store a).2.storeAll [c]).get? a.id = none := by
    decide +kernel
  rw [hgone] at hget
  cases hget

/-! ## The store of a pass -/

theorem store_error {e : ServiceError} (hstore : (s.store h).1 = .error e) : (s.store h).2 = s := by
  unfold store at hstore ⊢
  split
  · rfl
  · rename_i hid
    rw [if_neg hid] at hstore
    cases hstore

theorem store_ok (hstore : (s.store h).1 = .ok id) : id = h.id ∧ h.id ≠ "" := by
  unfold store at hstore
  split at hstore
  · cases hstore
  · rename_i hid
    cases hstore
    exact ⟨rfl, hid⟩

variable {σ : Type}

theorem keeper_store (held : σ → HandleStore) (hold : σ → HandleStore → σ) (h : Handle) (w : σ) :
    ((keeper held hold).store h).run w =
      (.done .zero ((held w).store h).1, hold w ((held w).store h).2) := rfl

theorem keeper_fetch (held : σ → HandleStore) (hold : σ → HandleStore → σ) (id : String) (w : σ) :
    ((keeper held hold).fetch id).run w = (.answer ((held w).get? id), w) := rfl

end HandleStore

namespace Masking

open BudgetM HandleStore
open Tokenizers (letters)

variable {σ : Type} {k : Masking σ} {held : σ → HandleStore} {hold : σ → HandleStore → σ}
  {count : String → String → Nat} {family : String} {m : Message} {tokens : Nat}
  {messages : Conversation} {tally : Tally} {fate : Fate} {fates : List Fate} {w w' : σ}
  {earlier : List Handle}

/-- A pass keeps its handles in a store that nothing else touches. -/
structure KeepsIn (k : Masking σ) (held : σ → HandleStore) (hold : σ → HandleStore → σ) : Prop where
  keeper : k.keeper = HandleStore.keeper held hold
  held_hold : ∀ w s, held (hold w s) = s
  counters : k.tokenizers.Leaves held
  clock : KeepsCall held k.now

/-- The store answers at once. -/
theorem KeepsIn.asked (hk : k.KeepsIn held hold) {handle : Handle} {reply : Call String}
    (h : (k.keeper.store handle).run w = (reply, w')) (limit : Span) :
    reply.within limit = some ((held w).store handle).1 ∧
      held w' = ((held w).store handle).2 := by
  rw [hk.keeper, keeper_store] at h
  obtain ⟨rfl, rfl⟩ := Prod.mk.inj h
  exact ⟨Pending.within_done (Nat.zero_le limit.nanos) _, hk.held_hold _ _⟩

theorem held_meets (hk : k.KeepsIn held hold) (h : k.Meets family m tokens w fate w') :
    held w' = (held w).storeAll fate.handle?.toList ∧
      ∀ handle, fate.handle? = some handle → handle.id ≠ "" := by
  have hclock := hk.clock w
  cases h with
  | spared => exact ⟨rfl, nofun⟩
  | late due clock asked unanswered =>
    rw [(hk.asked asked _).1] at unanswered
    cases unanswered
  | refused due clock asked refusal =>
    obtain ⟨hanswer, hheld⟩ := hk.asked asked k.config.storeLimit
    rw [refusal] at hanswer
    rw [clock] at hclock
    refine ⟨?_, nofun⟩
    rw [hheld, store_error (Option.some.inj hanswer).symm, hclock]
    rfl
  | masked due clock asked answer counted =>
    obtain ⟨hanswer, hheld⟩ := hk.asked asked k.config.storeLimit
    rw [answer] at hanswer
    rw [clock] at hclock
    obtain ⟨rfl, hid⟩ := store_ok (Option.some.inj hanswer).symm
    refine ⟨?_, fun handle hhandle => Option.some.inj hhandle ▸ hid⟩
    rw [(Tokenizers.countMessage_keeps hk.counters family _).ran counted, hheld, hclock]
    rfl

/-- In a pass the store keeps the handles that the pass makes, in the order of the conversation. -/
theorem held_passes (hk : k.KeepsIn held hold) (h : Passes k count family messages w fates w') :
    held w' = (held w).storeAll (fates.filterMap Fate.handle?) ∧
      ∀ handle ∈ fates.filterMap Fate.handle?, handle.id ≠ "" := by
  induction h with
  | nil => exact ⟨rfl, by simp⟩
  | cons first later ih =>
    obtain ⟨hfirst, hid⟩ := held_meets hk first
    rw [handles_cons, storeAll_append, ← hfirst]
    refine ⟨ih.1, fun handle hhandle => ?_⟩
    rcases List.mem_append.mp hhandle with hhandle | hhandle
    · exact hid handle (Option.mem_toList.mp hhandle)
    · exact ih.2 handle hhandle

/-- A handle that was added stays for any calls that are fewer than the store may hold. One that
was stored again stays only for what is left of its time. So after a pass that masks no more
messages than the store may hold, each placeholder leads to the old content, if the store did not
hold its id before; and one whose id was held leads there while the handles that are younger and
those that the pass adds are fewer than the store may hold. -/
theorem placeholders_resolve (hk : k.KeepsIn held hold) (hcounters : k.tokenizers.CountsBy count)
    {capacity : Nat} (hw : held w = (HandleStore.empty capacity).storeAll earlier) :
    (∀ h, h.id ≠ "" → Handle.Faithful (h :: earlier) → (held w).Retains h) ∧
    ∀ (model : Model) (messages : Conversation) (tally : Tally) (budget : Budget)
      (catalog : Option Catalog) (masked : Masked) (move : Option Fallback) (w' : σ),
      tally.entries = entriesOf count model.family messages →
      exec (k.pass model messages tally budget catalog) w = (.ok (masked, move), w') →
      Handle.Faithful (earlier ++ masked.handles) →
      ∀ (i : Nat) (m m' : Message), messages[i]? = some m → masked.messages[i]? = some m' → m' ≠ m →
        ∃ handle ∈ masked.handles, m'.content = handle.placeholder (count model.family m.content) ∧
          ((held w).get? handle.id = none ∧ masked.handles.length ≤ (held w).capacity ∨
            ((held w).get? handle.id).isSome ∧ (held w).younger handle.id +
              ((held w).added masked.handles).length < (held w).capacity →
            ∃ kept, (k.keeper.fetch handle.id).run w' = (.answer (some kept), w') ∧
              kept.content = m.content) := by
  have hs : (held w).Sound := hw ▸ (Sound.empty capacity).storeAll earlier
  refine ⟨fun h hid hused => hs.retains hid fun kept hget => ?_, ?_⟩
  · have hgiven : kept ∈ earlier := mem_storeAll (.empty capacity) (hw ▸ mem_of_get? hget)
    exact hused _ (List.mem_cons_of_mem _ hgiven) _ List.mem_cons_self (id_of_get? hget)
  intro model messages tally budget catalog masked move w' hentries hpass hused i m m' hm hm' hne
  obtain ⟨fates, hpasses, hsettles⟩ := mask_fates hcounters hentries (pass_ran hpass)
  have hhandles : masked.handles = fates.filterMap Fate.handle? := hsettles.handles
  rw [hsettles.messages, List.nil_append] at hm'
  obtain ⟨handle, hmem, hcontent, hstored⟩ := hpasses.exists_handle hm hm' hne
  obtain ⟨hheld, hids⟩ := held_passes hk hpasses
  rw [← hhandles] at hmem hheld hids
  refine ⟨handle, hmem, hcontent, fun htime => ?_⟩
  have hkept : ∃ kept, (held w').get? handle.id = some kept := by
    rw [hheld]
    rcases htime with ⟨hnone, hfew⟩ | ⟨hsome, hfew⟩
    · exact exists_get?_storeAll hs hmem (hids handle hmem) hnone hfew
    · obtain ⟨kept, hget⟩ := Option.isSome_iff_exists.mp hsome
      exact ⟨kept, get?_storeAll hs hget hfew⟩
  obtain ⟨kept, hget⟩ := hkept
  refine ⟨kept, by rw [hk.keeper, keeper_fetch, hget], ?_⟩
  have hgiven : kept ∈ earlier ++ masked.handles := by
    have hkept := mem_of_get? hget
    rw [hheld, hw, ← storeAll_append] at hkept
    exact mem_storeAll (.empty capacity) hkept
  exact (hused _ hgiven _ (List.mem_append_right _ hmem) (id_of_get? hget)).trans hstored

/-- A pass with a store as the whole state of the services. -/
def shelving : Masking HandleStore := keeping (HandleStore.keeper (fun s => s) fun _ s => s)

theorem shelving_keepsIn : shelving.KeepsIn (fun s => s) fun _ s => s where
  keeper := rfl
  held_hold _ _ := rfl
  counters := Tokenizers.ofLetters_leaves _
  clock := .pure _

/-- A store of two handles, which held one, keeps both that a pass makes. -/
theorem placeholders_resolve_twoOutputs :
    let old := Handle.of "old" "t" 10 ⟨0, 0⟩
    let w := (HandleStore.empty 2).storeAll [old]
    let tally := Tally.ofEntries (entriesOf letters "letters" twoOutputs)
    w.Retains old ∧ ∃ masked move w',
      exec (shelving.pass ⟨"small", "letters", 100⟩ twoOutputs tally (.new 100 0) none) w =
        (.ok (masked, move), w') ∧
      ∃ handle ∈ masked.handles, ∃ kept,
        (shelving.keeper.fetch handle.id).run w' = (.answer (some kept), w') ∧
          kept.content = "all is well" := by
  intro old w tally
  obtain ⟨⟨masked, move⟩, w', hpass, hplace, hne, htwo, hused, hnone⟩ := ran_of_any
    (P := fun out => out.1.messages.length = 3 ∧
      out.1.messages[1]? ≠ some (.toolResult "a" "all is well") ∧
      out.1.handles.length ≤ w.capacity ∧ Handle.Faithful ([old] ++ out.1.handles) ∧
      ∀ handle ∈ out.1.handles, w.get? handle.id = none)
    (by decide +kernel : ((exec (shelving.pass ⟨"small", "letters", 100⟩ twoOutputs tally
      (.new 100 0) none) w).1.toOption.any _) = true)
  have hw : w = (HandleStore.empty 2).storeAll [old] := rfl
  obtain ⟨hretains, hresolves⟩ :=
    placeholders_resolve shelving_keepsIn Tokenizers.ofLetters_countsBy hw
  have hm' : masked.messages[1]? = some masked.messages[1] := List.getElem?_eq_getElem _
  obtain ⟨handle, hmem, -, hkept⟩ := hresolves _ _ _ _ _ _ _ _ rfl hpass hused 1 _ _ rfl hm'
    fun heq => hne (hm'.trans (congrArg some heq))
  exact ⟨hretains old (by decide +kernel) (by decide +kernel), masked, move, w', hpass, handle,
    hmem, hkept (.inl ⟨hnone handle hmem, htwo⟩)⟩

end Masking
end ContextBudget
