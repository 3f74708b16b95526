import ContextBudget.Proofs.Prune.Contract

/-!
# Reading an answer

The text of an answer can be taken apart again into the lines that stayed and the markers that
stand for the others, and the cuts tell which lines those are.

- `prune_still`, `prune_inTime`: a prune that meets the limits and whose clock stands still is
  carried through.
- `prune_layout`: what the text and the cuts of an answer look like.
-/

namespace ContextBudget

open Selection (layout gone cuts MaximalRun)

namespace Lines

theorem oneLine_hexDigits (count n : Nat) : OneLine (hexDigits count n) := by
  have hdigit : ∀ d < 16, Nat.digitChar d ≠ '\n' := by decide
  simp only [OneLine, hexDigits, String.toList_ofList, List.mem_map, not_exists, not_and]
  exact fun i _ => hdigit _ (Nat.mod_lt _ (by decide))

theorem oneLine_pruneId (n : Nat) : OneLine (pruneId n) :=
  oneLine_append.mpr ⟨by decide, oneLine_hexDigits 32 n⟩

end Lines

namespace Pruner

open PrunerM

variable {σ : Type} {p : Pruner σ} {request : PruneRequest} {s : PrunerState} {w : σ}

/-! ## A prune in time -/

section InTime

variable {start : Span} (still : p.clock.elapsed = pure start)
include still

theorem passed_still {deadline : Span} (h : ¬ deadline ≤ start) (looks : Nat) :
    exec (p.passed deadline looks) s w = ((false, s), w) := by
  induction looks with
  | zero => rfl
  | succ looks ih =>
    rw [passed, still]
    exact (congrArg (fun m => exec m s w) (if_neg h)).trans ih

/-- Without a reranker, what is chosen depends on nothing but the request. -/
theorem choose_still {lines : List String} {deadline : Span} (h : ¬ deadline ≤ start)
    (plain : request.options.rerank = false)
    (allowed : refusal? p.config request lines.length = none)
    (enough : request.options.minKeep ≤ lines.length)
    (some_go : Selection.quota request.options lines.length ≠ 0) :
    exec (p.choose request lines deadline) s w = ((([], .ok ⟨maskOf p.config request.options
      (Selection.scores lines (classify (request.kind.resolve lines) lines)
        (termsOf request.goal) none) (Selection.quota request.options lines.length),
      request.kind.resolve lines, false, false⟩), s), w) := by
  have hp : ∀ looks s w, exec (p.passed deadline looks) s w = ((false, s), w) :=
    fun looks s w => passed_still still h looks
  unfold choose
  simp only [allowed]
  refine (exec_bind (hp 1 s w)).trans ?_
  simp only [Bool.false_eq_true, if_false, Nat.not_lt.mpr enough]
  refine (exec_bind (hp 1 s w)).trans ?_
  simp only [Bool.false_eq_true, if_false, some_go, plain]
  refine (exec_bind rfl).trans ((exec_bind (hp _ s w)).trans ?_)
  rfl

/-- A prune that meets the limits is carried through if its clock stands still, and what it leaves
out depends on nothing but the request. -/
theorem prune_still {mask : List Bool} (inTime : 0 < request.options.timeoutMillis)
    (plain : request.options.rerank = false)
    (allowed : refusal? p.config request (Lines.ofText request.text).lines.length = none)
    (enough : request.options.minKeep ≤ (Lines.ofText request.text).lines.length)
    (some_go : Selection.quota request.options (Lines.ofText request.text).lines.length ≠ 0)
    (choice : maskOf p.config request.options
      (Selection.scores (Lines.ofText request.text).lines
        (classify (request.kind.resolve (Lines.ofText request.text).lines)
          (Lines.ofText request.text).lines) (termsOf request.goal) none)
      (Selection.quota request.options (Lines.ofText request.text).lines.length) = mask)
    (sound : Selection.fault? request.options mask = none) :
    exec (p.prune request) s w =
      let id := pruneId s.next
      let whole := Lines.ofText request.text
      let now := (p.clock.now.run w).1
      ((pruned id request ⟨mask, request.kind.resolve whole.lines, false, false⟩ []
          (Nat.min ((start.sub start).nanos / 1000000) Word.last),
        { s with
          next := s.next + 1
          records := s.records.insert ⟨id, whole, Selection.kept mask,
            cuts id whole.lines mask, now, p.config.recordLife⟩ now }), (p.clock.now.run w).2) := by
  have hdeadline : ¬ start + request.options.timeout ≤ start := by
    change ¬ start.nanos + request.options.timeoutMillis * 1000000 ≤ start.nanos
    omega
  have hstart : ∀ (s : PrunerState) (w : σ),
      exec (liftM p.clock.elapsed : PrunerM σ Span) s w = ((start, s), w) := by
    rw [still]
    exact fun s w => rfl
  have hid : exec (newId : PrunerM σ String) s w =
      ((pruneId s.next, { s with next := s.next + 1 }), w) := rfl
  have hmillis : ∀ s w, exec (p.millisSince start) s w =
      ((Nat.min ((start.sub start).nanos / 1000000) Word.last, s), w) := fun s w => by
    rw [millisSince, exec_bind (hstart s w)]
    rfl
  unfold prune
  rw [exec_bind (hstart s w), exec_bind hid,
    exec_bind (choose_still still hdeadline plain allowed enough some_go), choice]
  simp only [sound]
  rw [exec_bind (passed_still still hdeadline 1)]
  simp only [Bool.false_eq_true, if_false]
  rw [exec_bind rfl, exec_bind (hmillis _ _)]
  rfl

/-- A prune that meets the limits does not give the text back if its clock stands still. -/
theorem prune_inTime (inTime : 0 < request.options.timeoutMillis)
    (plain : request.options.rerank = false)
    (allowed : refusal? p.config request (Lines.ofText request.text).lines.length = none)
    (enough : request.options.minKeep ≤ (Lines.ofText request.text).lines.length)
    (some_go : Selection.quota request.options (Lines.ofText request.text).lines.length ≠ 0)
    (sound : Selection.fault? request.options (maskOf p.config request.options
      (Selection.scores (Lines.ofText request.text).lines
        (classify (request.kind.resolve (Lines.ofText request.text).lines)
          (Lines.ofText request.text).lines) (termsOf request.goal) none)
      (Selection.quota request.options (Lines.ofText request.text).lines.length)) = none) :
    (exec (p.prune request) s w).1.1.gaveBack = false := by
  rw [prune_still still inTime plain allowed enough some_go rfl sound]
  rfl

end InTime

/-! ## The parts of an answer -/

/-- The cuts of an answer that leaves lines out are the maximal runs of their numbers, and its text
has one line for each line that stays and one for each marker. -/
structure LaysOut (request : PruneRequest) (r : PruneResponse) (numbers : List Nat) : Prop extends
    LeavesOut request r numbers where
  maximal : ∀ a b, (∃ c ∈ r.cuts, c.first = a ∧ c.last = b) ↔ MaximalRun numbers a b
  apart : r.cuts.Pairwise fun a b => a.last + 1 < b.first
  count : ∀ c ∈ r.cuts, c.first ≤ c.last ∧ c.count = c.last - c.first + 1
  sum : (r.cuts.map (·.count)).sum = r.stats.pruned
  lines : Lines.ofText r.text = ⟨layout request.options numbers r.cuts
    (Lines.ofText request.text).lines, (Lines.ofText request.text).closed⟩
  shorter : request.options.markers = true → (∀ c ∈ r.cuts, 2 ≤ c.count) ∧
    (0 < r.stats.pruned →
      (Lines.ofText r.text).lines.length < (Lines.ofText request.text).lines.length)

theorem laysOut_pruned {config : PrunerConfig} {n : Nat} {chosen : Chosen}
    {warnings : List Warning} {millis : Nat}
    (choice : Choice config request (Lines.ofText request.text).lines chosen) :
    LaysOut request (pruned (pruneId n) request chosen warnings millis) (gone chosen.mask) := by
  have hlen := choice.length_mask
  have hlast : (Lines.ofText request.text).lines.length ∉ gone chosen.mask :=
    fun h => (choice.unprotected h).2.1 rfl
  have hout : LeavesOut request (pruned (pruneId n) request chosen warnings millis)
      (gone chosen.mask) := leavesOut_pruned hlen
  have hlines := hout.text ▸ Lines.ofText_text (Selection.wellFormed_layout
    (Lines.wellFormed_ofText request.text) (Lines.oneLine_pruneId n) hlast)
  refine ⟨hout, fun a b => Selection.exists_cut_iff hlen, Selection.cuts_apart _ _ _,
    fun c hc => ?_, Selection.sum_count_cuts _ hlen, hlines,
    fun hmarkers => ⟨fun c hc => ?_, fun hpos => ?_⟩⟩
  · obtain ⟨-, hle, hcount, -⟩ := Selection.cut_wellFormed hc
    exact ⟨hle, hcount⟩
  · exact Selection.two_le_count hlen (choice.paired hmarkers) hc
  · rw [hlines]
    exact Selection.length_layout_lt hlen (choice.paired hmarkers) hpos

/-- An answer that does not give the text back lays it out without some lines, and the record that
it leaves names the others as those that stayed. -/
theorem prune_layout (p : Pruner σ) (request : PruneRequest) (s : PrunerState) (w : σ)
    (h : (exec (p.prune request) s w).1.1.gaveBack = false) :
    ∃ numbers record now, LaysOut request (exec (p.prune request) s w).1.1 numbers ∧
      (exec (p.prune request) s w).1.2.records = s.records.insert record now ∧
      record.kept = (List.range' 1 (Lines.ofText request.text).lines.length).filter
        fun k => k ∉ numbers := by
  rcases hr : exec (p.prune request) s w with ⟨⟨r, s'⟩, w'⟩
  obtain ⟨record, v, hout, -, hrecords⟩ := prune_ran hr
  rw [hr] at h
  cases hout with
  | refused => cases h
  | pruned chosen warnings millis choice sound reranker =>
    refine ⟨_, _, _, laysOut_pruned choice, hrecords, ?_⟩
    simp only [Selection.kept_eq_filter, choice.length_mask]

/-- A pruner without a reranker whose clocks never move. -/
def asleep : Pruner Unit := ⟨.standard, none, ⟨pure ⟨0, 0⟩, pure .zero⟩⟩

/-- All of a document may go but its first and its last line. -/
def twoBlanks : PruneRequest := ⟨"a\n\n\nb", "", .document, ⟨1, 0, 1000, false, true, false⟩⟩

theorem maskOf_twoBlanks : maskOf .standard twoBlanks.options
    (Selection.scores (Lines.ofText twoBlanks.text).lines
      (classify (twoBlanks.kind.resolve (Lines.ofText twoBlanks.text).lines)
        (Lines.ofText twoBlanks.text).lines) (termsOf twoBlanks.goal) none) 4 =
      [false, true, true, false] := by
  have hcandidates : Selection.candidates PrunerConfig.standard.keepScore
      (Selection.scores (Lines.ofText twoBlanks.text).lines
        (classify (twoBlanks.kind.resolve (Lines.ofText twoBlanks.text).lines)
          (Lines.ofText twoBlanks.text).lines) (termsOf twoBlanks.goal) none) =
      [(Score.blank, 1), (Score.blank, 2)] := by
    decide +kernel
  have hsorted : [(Score.blank, 1), (Score.blank, 2)].Pairwise fun a b => Selection.sooner a b := by
    decide +kernel
  have hlen : (Lines.ofText twoBlanks.text).lines.length = 4 := by decide +kernel
  rw [maskOf, Selection.chosen, hcandidates, List.mergeSort_of_pairwise hsorted, length_scores,
    hlen, Selection.mask_eq_map]
  decide +kernel

theorem prune_layout_twoBlanks :
    (exec (asleep.prune twoBlanks) (.fresh .standard 0) ()).1.1.gaveBack = false ∧
    ∃ numbers record now,
      LaysOut twoBlanks (exec (asleep.prune twoBlanks) (.fresh .standard 0) ()).1.1 numbers ∧
      (exec (asleep.prune twoBlanks) (.fresh .standard 0) ()).1.2.records =
        (PrunerState.fresh .standard 0).records.insert record now ∧
      record.kept = (List.range' 1 (Lines.ofText twoBlanks.text).lines.length).filter
        fun k => k ∉ numbers := by
  have hstill : asleep.clock.elapsed = pure .zero := rfl
  have hallowed : refusal? asleep.config twoBlanks (Lines.ofText twoBlanks.text).lines.length =
      none := by
    decide +kernel
  have hquota : Selection.quota twoBlanks.options (Lines.ofText twoBlanks.text).lines.length =
      4 := by
    decide +kernel
  have hsound : Selection.fault? twoBlanks.options [false, true, true, false] = none := by
    decide +kernel
  have hleft := prune_inTime (s := .fresh .standard 0) (w := ()) hstill (by decide) rfl hallowed
    (Nat.zero_le _) (by simp [hquota])
    (by rw [show asleep.config = .standard from rfl, hquota, maskOf_twoBlanks, hsound])
  exact ⟨hleft, prune_layout asleep twoBlanks _ _ hleft⟩

end Pruner
end ContextBudget
