import ContextBudget.Http.Rerank
import Mathlib.Data.List.Nodup

/-!
# The scores of a rerank reply

A rerank service sends the scores of lines in an order of its own. It may leave lines out, repeat
them, or name lines that there are not. Either each line gets the last score that was sent for it,
or the whole reply is refused; a score never goes to another line.

- `slotsOf`, `set_slotsOf`: the slots after the first results, and after one more.
- `fill_cases`, `filled_cases`: what comes of putting results into slots, and of reading the slots.
- `inOrder_eq_ok_iff`, `Fault`: the scores of an accepted reply, and what a refusal tells.
- `Ordered.perm`: results of distinct lines may come in any order.
- `inOrder_orders`: which replies are accepted, and what is made of them.
- `score_fits`: what a client gives to its caller.
-/

namespace ContextBudget

/-- The result is of one of `count` lines, and its score is finite. -/
structure RankedScore.Usable (r : RankedScore) (count : Nat) : Prop where
  inRange : r.index < count
  finite : r.score.isFinite = true

namespace RerankClient

variable {results other seen : List RankedScore} {r : RankedScore} {count i : Nat} {s : Single}
  {scores scores' : List Single} {detail : String}

/-- The score of the last result of a line. -/
def lastScore? (results : List RankedScore) (i : Nat) : Option Single :=
  (results.filter (·.index == i)).getLast?.map (·.score)

/-- All results can be used, and each of `count` lines has one. -/
structure Complete (results : List RankedScore) (count : Nat) : Prop where
  usable : ∀ r ∈ results, r.Usable count
  covers : ∀ i < count, ∃ r ∈ results, r.index = i

/-- The scores of a complete reply: at each place the last score of that line. -/
structure Ordered (results : List RankedScore) (count : Nat) (scores : List Single) : Prop where
  complete : Complete results count
  length : scores.length = count
  finite : ∀ s ∈ scores, s.isFinite = true
  last : ∀ i (hi : i < scores.length), lastScore? results i = some scores[i]

/-- What a refusal of a reply tells: the first result that cannot be used or, if all can, the first
line that has none. -/
inductive Fault (results : List RankedScore) (count : Nat) : String → Prop where
  | outOfRange (before after : List RankedScore) (r : RankedScore)
      (split : results = before ++ r :: after) (usable : ∀ a ∈ before, a.Usable count)
      (stray : count ≤ r.index) :
      Fault results count ("index " ++ Nat.repr r.index ++ " out of range")
  | notFinite (before after : List RankedScore) (r : RankedScore)
      (split : results = before ++ r :: after) (usable : ∀ a ∈ before, a.Usable count)
      (inRange : r.index < count) (infinite : r.score.isFinite = false) :
      Fault results count ("non-finite score at " ++ Nat.repr r.index)
  | missing (i : Nat) (usable : ∀ r ∈ results, r.Usable count) (inRange : i < count)
      (absent : ∀ r ∈ results, r.index ≠ i) (covers : ∀ j < i, ∃ r ∈ results, r.index = j) :
      Fault results count ("missing score for line " ++ Nat.repr i)

/-! ## The last score of a line -/

theorem lastScore?_concat (seen : List RankedScore) (r : RankedScore) (i : Nat) :
    lastScore? (seen ++ [r]) i = if r.index = i then some r.score else lastScore? seen i := by
  rw [lastScore?, List.filter_append, List.filter_singleton]
  by_cases hi : r.index = i
  · simp [hi]
  · have hother : (r.index == i) = false := beq_eq_false_iff_ne.mpr hi
    rw [hother, if_neg hi, cond_false, List.append_nil, lastScore?]

theorem lastScore?_eq_none_iff : lastScore? results i = none ↔ ∀ r ∈ results, r.index ≠ i := by
  simp [lastScore?]

theorem exists_lastScore?_iff :
    (∃ s, lastScore? results i = some s) ↔ ∃ r ∈ results, r.index = i := by
  have hnone : (∀ r ∈ results, r.index ≠ i) ↔ ¬ ∃ r ∈ results, r.index = i := by simp
  rw [← Option.isSome_iff_exists, ← not_iff_not, Option.not_isSome_iff_eq_none,
    lastScore?_eq_none_iff, hnone]

theorem mem_of_lastScore? (h : lastScore? results i = some s) : ⟨i, s⟩ ∈ results := by
  obtain ⟨r, hr, rfl⟩ := Option.map_eq_some_iff.mp h
  obtain ⟨hmem, hi⟩ := List.mem_filter.mp (List.mem_of_getLast? hr)
  rwa [← eq_of_beq hi]

/-- Where each line has one result at most, that one is the last. -/
theorem lastScore?_eq_some_iff (hdistinct : (results.map (·.index)).Nodup) :
    lastScore? results i = some s ↔ ⟨i, s⟩ ∈ results := by
  refine ⟨mem_of_lastScore?, fun hmem => ?_⟩
  obtain ⟨s', hs'⟩ := exists_lastScore?_iff.mpr ⟨⟨i, s⟩, hmem, rfl⟩
  have heq : (⟨i, s'⟩ : RankedScore) = ⟨i, s⟩ :=
    List.inj_on_of_nodup_map hdistinct (mem_of_lastScore? hs') hmem rfl
  rw [hs', (RankedScore.mk.inj heq).2]

/-! ## Slots -/

/-- The slots of lines after some results. -/
def slotsOf (seen : List RankedScore) (count : Nat) : List (Option Single) :=
  (List.range count).map (lastScore? seen)

@[simp] theorem length_slotsOf : (slotsOf seen count).length = count := by simp [slotsOf]

theorem getElem?_slotsOf :
    (slotsOf seen count)[i]? = if i < count then some (lastScore? seen i) else none := by
  rw [slotsOf, List.getElem?_map]
  split <;> simp [*]

theorem slotsOf_nil : slotsOf [] count = List.replicate count none := by
  rw [slotsOf, show lastScore? [] = fun _ => none from rfl, List.map_const', List.length_range]

/-- One more result changes the slot of its line and no other. -/
theorem set_slotsOf (hr : r.index < count) :
    (slotsOf seen count).set r.index (some r.score) = slotsOf (seen ++ [r]) count := by
  refine List.ext_getElem? fun i => ?_
  rw [List.getElem?_set, length_slotsOf, getElem?_slotsOf, getElem?_slotsOf, lastScore?_concat]
  by_cases hi : r.index = i
  · subst hi
    simp [hr]
  · simp [hi]

/-- Results go into slots until one cannot be used. -/
theorem fill_cases (hseen : ∀ a ∈ seen, a.Usable count) (rest : List RankedScore) :
    (fill (slotsOf seen count) rest = .ok (slotsOf (seen ++ rest) count) ∧
      ∀ a ∈ seen ++ rest, a.Usable count) ∨
    ∃ detail, fill (slotsOf seen count) rest = .error (.malformed detail) ∧
      Fault (seen ++ rest) count detail := by
  -- The result at the head joins those seen, so the slots are always those of `seen`.
  induction rest generalizing seen with
  | nil =>
    rw [List.append_nil]
    exact .inl ⟨rfl, hseen⟩
  | cons r rest ih =>
    rw [fill, length_slotsOf]
    by_cases hstray : count ≤ r.index
    · rw [if_pos hstray]
      exact .inr ⟨_, rfl, .outOfRange seen rest r rfl hseen hstray⟩
    have hindex : r.index < count := Nat.lt_of_not_le hstray
    rw [if_neg hstray]
    by_cases hfinite : r.score.isFinite = true
    · have hnext : ∀ a ∈ seen ++ [r], a.Usable count := by
        rw [List.forall_mem_append, List.forall_mem_singleton]
        exact ⟨hseen, hindex, hfinite⟩
      rw [if_neg (by simp [hfinite]), set_slotsOf hindex, List.append_cons seen r rest]
      exact ih hnext
    · rw [Bool.not_eq_true] at hfinite
      rw [if_pos (by simp [hfinite])]
      exact .inr ⟨_, rfl, .notFinite seen rest r rfl hseen hindex hfinite⟩

/-- Slots are read up to the first empty one. -/
theorem filled_cases (i : Nat) (slots : List (Option Single)) :
    (∃ scores, filled i slots = .ok scores ∧ slots = scores.map some) ∨
    ∃ j, filled i slots = .error (.malformed ("missing score for line " ++ Nat.repr (i + j))) ∧
      slots[j]? = some none ∧ ∀ k < j, ∃ s, slots[k]? = some (some s) := by
  induction slots generalizing i with
  | nil => exact .inl ⟨[], rfl, rfl⟩
  | cons slot slots ih =>
    cases slot with
    | none => exact .inr ⟨0, rfl, rfl, fun k hk => absurd hk (Nat.not_lt_zero k)⟩
    | some s =>
      rw [filled]
      rcases ih (i + 1) with ⟨scores, hread, rfl⟩ | ⟨j, hread, hempty, hfull⟩
      · exact .inl ⟨s :: scores, by rw [hread]; rfl, rfl⟩
      · refine .inr ⟨j + 1, ?_, hempty, fun k hk => ?_⟩
        · rw [hread, Nat.add_right_comm, Nat.add_assoc]
          rfl
        · cases k with
          | zero => exact ⟨s, rfl⟩
          | succ k => exact hfull k (Nat.lt_of_succ_lt_succ hk)

/-! ## Scores in order -/

/-- Scores are in order when they are what the slots hold, none of them empty. -/
theorem ordered_iff_slotsOf (husable : ∀ r ∈ results, r.Usable count) :
    Ordered results count scores ↔ slotsOf results count = scores.map some := by
  constructor
  · intro h
    refine List.ext_getElem? fun i => ?_
    rw [getElem?_slotsOf, List.getElem?_map]
    split
    · rename_i hi
      rw [← h.length] at hi
      rw [h.last i hi, List.getElem?_eq_getElem hi, Option.map_some]
    · rename_i hi
      rw [List.getElem?_eq_none (h.length ▸ Nat.le_of_not_lt hi), Option.map_none]
  · intro h
    have hlength : scores.length = count := by
      rw [← List.length_map (f := some), ← h, length_slotsOf]
    have hlast : ∀ i (hi : i < scores.length), lastScore? results i = some scores[i] := by
      intro i hi
      have hslot : (slotsOf results count)[i]? = some (some scores[i]) := by
        rw [h, List.getElem?_map, List.getElem?_eq_getElem hi, Option.map_some]
      rwa [getElem?_slotsOf, if_pos (hlength ▸ hi), Option.some.injEq] at hslot
    refine ⟨⟨husable, fun i hi => ?_⟩, hlength, fun s hs => ?_, hlast⟩
    · rw [← hlength] at hi
      exact exists_lastScore?_iff.mp ⟨_, hlast i hi⟩
    · obtain ⟨i, hi, rfl⟩ := List.mem_iff_getElem.mp hs
      exact (husable _ (mem_of_lastScore? (hlast i hi))).finite

theorem Ordered.unique (h : Ordered results count scores) (h' : Ordered results count scores') :
    scores = scores' := by
  have hslots := (ordered_iff_slotsOf h.complete.usable).mp h
  have hslots' := (ordered_iff_slotsOf h.complete.usable).mp h'
  exact List.map_injective_iff.mpr (fun _ _ => Option.some.inj) (hslots.symm.trans hslots')

/-- Results of distinct lines may come in any order. -/
theorem Ordered.perm (hperm : results.Perm other) (hdistinct : (results.map (·.index)).Nodup)
    (h : Ordered results count scores) : Ordered other count scores where
  complete := {
    usable := fun r hr => h.complete.usable r (hperm.mem_iff.mpr hr)
    covers := fun i hi => by
      obtain ⟨r, hr, hindex⟩ := h.complete.covers i hi
      exact ⟨r, hperm.mem_iff.mp hr, hindex⟩ }
  length := h.length
  finite := h.finite
  last i hi := by
    have hother : (other.map (·.index)).Nodup := (hperm.map _).nodup hdistinct
    rw [lastScore?_eq_some_iff hother, ← hperm.mem_iff]
    exact mem_of_lastScore? (h.last i hi)

theorem Fault.not_complete (h : Fault results count detail) : ¬ Complete results count := by
  intro hcomplete
  cases h with
  | outOfRange before after r split usable stray =>
    have hr := hcomplete.usable r (split ▸ List.mem_append_right before List.mem_cons_self)
    exact absurd hr.inRange (Nat.not_lt.mpr stray)
  | notFinite before after r split usable inRange infinite =>
    have hr := hcomplete.usable r (split ▸ List.mem_append_right before List.mem_cons_self)
    exact absurd (infinite.symm.trans hr.finite) Bool.false_ne_true
  | missing i usable inRange absent covers =>
    obtain ⟨r, hr, hindex⟩ := hcomplete.covers i inRange
    exact absent r hr hindex

/-- A reply is put in order, or its first fault is told. -/
theorem inOrder_cases (results : List RankedScore) (count : Nat) :
    (∃ scores, inOrder results count = .ok scores ∧ Ordered results count scores) ∨
    ∃ detail, inOrder results count = .error (.malformed detail) ∧ Fault results count detail := by
  have hnone : ∀ a ∈ ([] : List RankedScore), a.Usable count := List.forall_mem_nil _
  have hfill := fill_cases hnone results
  rw [slotsOf_nil, List.nil_append] at hfill
  rw [inOrder]
  rcases hfill with ⟨hslots, husable⟩ | ⟨detail, hrefused, hfault⟩
  · rw [hslots]
    rcases filled_cases 0 (slotsOf results count) with
      ⟨scores, hread, hall⟩ | ⟨j, hread, hempty, hfull⟩
    · exact .inl ⟨scores, hread, (ordered_iff_slotsOf husable).mpr hall⟩
    · rw [Nat.zero_add] at hread
      rw [getElem?_slotsOf] at hempty
      split at hempty
      · rename_i hj
        refine .inr ⟨_, hread, .missing j husable hj
          (lastScore?_eq_none_iff.mp (Option.some.inj hempty)) fun k hk => ?_⟩
        obtain ⟨s, hs⟩ := hfull k hk
        rw [getElem?_slotsOf, if_pos (Nat.lt_trans hk hj)] at hs
        exact exists_lastScore?_iff.mp ⟨s, Option.some.inj hs⟩
      · cases hempty
  · rw [hrefused]
    exact .inr ⟨detail, rfl, hfault⟩

/-- The scores of an accepted reply are those of its lines. -/
theorem inOrder_eq_ok_iff : inOrder results count = .ok scores ↔ Ordered results count scores := by
  rcases inOrder_cases results count with ⟨found, hfound, hordered⟩ | ⟨detail, hrefused, hfault⟩
  · rw [hfound, Except.ok.injEq]
    exact ⟨fun heq => heq ▸ hordered, hordered.unique⟩
  · rw [hrefused]
    exact iff_of_false nofun fun h => hfault.not_complete h.complete

/-- A reply is accepted just when each result is of a line, with a finite score, and each line has
one. The scores are then those that came last for each line. Any other reply is malformed, and the
refusal tells its first fault. In which order results of distinct lines come makes no difference. -/
theorem inOrder_orders (results : List RankedScore) (count : Nat) :
    ((∃ scores, inOrder results count = .ok scores) ↔ Complete results count) ∧
    (∀ scores, inOrder results count = .ok scores ↔ Ordered results count scores) ∧
    (¬ Complete results count →
      ∃ detail, inOrder results count = .error (.malformed detail) ∧ Fault results count detail) ∧
    ((results.map (·.index)).Nodup → ∀ other, results.Perm other →
      ∀ scores, inOrder other count = .ok scores ↔ inOrder results count = .ok scores) := by
  refine ⟨⟨fun ⟨scores, h⟩ => (inOrder_eq_ok_iff.mp h).complete, fun hcomplete => ?_⟩,
    fun scores => inOrder_eq_ok_iff, fun hincomplete => ?_, fun hdistinct other hperm scores => ?_⟩
  · rcases inOrder_cases results count with ⟨scores, hfound, -⟩ | ⟨detail, -, hfault⟩
    · exact ⟨scores, hfound⟩
    · exact absurd hcomplete hfault.not_complete
  · rcases inOrder_cases results count with ⟨scores, -, hordered⟩ | hrefused
    · exact absurd hordered.complete hincomplete
    · exact hrefused
  · rw [inOrder_eq_ok_iff, inOrder_eq_ok_iff]
    have hother : (other.map (·.index)).Nodup := (hperm.map _).nodup hdistinct
    exact ⟨.perm hperm.symm hother, .perm hperm hdistinct⟩

/-- Scores of three lines out of order, the last line scored twice. -/
def restated : List RankedScore :=
  [⟨2, .finite false 9⟩, ⟨1, .finite true 3⟩, ⟨2, .finite false 4⟩, ⟨0, .finite false 7⟩]

/-- The later score of the last line stands. A fourth line would have none, and without the earlier
score the reply may as well be read from its end. -/
theorem inOrder_orders_restated :
    Ordered restated 3 [.finite false 7, .finite true 3, .finite false 4] ∧
    (¬ Complete restated 4 ∧ Fault restated 4 "missing score for line 3") ∧
    (restated.tail.map (·.index)).Nodup ∧
    inOrder restated.tail.reverse 3 = .ok [.finite false 7, .finite true 3, .finite false 4] := by
  have hincomplete : ¬ Complete restated 4 := fun h => by
    obtain ⟨r, hr, hindex⟩ := h.covers 3 (by decide)
    have habsent : ∀ r ∈ restated, r.index ≠ 3 := by decide
    exact habsent r hr hindex
  have hdistinct : (restated.tail.map (·.index)).Nodup := by decide
  obtain ⟨-, hordered, -, -⟩ := inOrder_orders restated 3
  obtain ⟨-, -, hrefused, -⟩ := inOrder_orders restated 4
  obtain ⟨-, -, -, hperm⟩ := inOrder_orders restated.tail 3
  obtain ⟨detail, hdetail, hfault⟩ := hrefused hincomplete
  obtain rfl : "missing score for line 3" = detail :=
    ServiceError.malformed.inj (Except.error.inj hdetail)
  exact ⟨(hordered _).mp rfl, ⟨hincomplete, hfault⟩, hdistinct,
    (hperm hdistinct _ (List.reverse_perm _).symm _).mpr rfl⟩

/-! ## Replies -/

/-- The scores of a reply are those of its results, if it can be read. -/
theorem scoresOf_eq_ok_iff {reply : Exchange} : scoresOf count reply = .ok scores ↔
    ∃ results, reply.decoded scoresOf? = .ok results ∧ Ordered results count scores := by
  rw [scoresOf]
  cases reply.decoded scoresOf? with
  | error e => simp [bind, Except.bind]
  | ok results =>
    simp only [Except.ok.injEq, exists_eq_left', ← inOrder_eq_ok_iff]
    rfl

/-- Whatever a server replies, a client gives its caller one finite score for each line, or
fails. -/
theorem score_fits {σ : Type} (c : RerankClient) (send : Transport σ) (lines : List String)
    (goal : String) (world : σ) {after : Span}
    (h : ((c.score send lines goal).run world).1 = .done after (.ok scores)) :
    scores.length = lines.length ∧ ∀ s ∈ scores, s.isFinite = true := by
  let request : HttpRequest := ⟨some (bearer c.key), c.body lines goal⟩
  have hcall : ((c.score send lines goal).run world).1 =
      ((send request).run world).1.map (scoresOf lines.length) := rfl
  rw [hcall] at h
  cases hreply : ((send request).run world).1 with
  | never =>
    rw [hreply] at h
    cases h
  | done time reply =>
    rw [hreply, Pending.map, Pending.done.injEq] at h
    obtain ⟨results, -, hordered⟩ := scoresOf_eq_ok_iff.mp h.2
    exact ⟨hordered.length, hordered.finite⟩

end RerankClient
end ContextBudget
