import ContextBudget.Proofs.Json.Settle
import ContextBudget.Proofs.Json.Texts
import ContextBudget.Proofs.Number.Rounding
import ContextBudget.Rpc.Service

/-!
# Records of the pruner as JSON values

What is sent between a client and the pruning service is read as what was sent, and its text is read
back, as long as its numbers are of the types that they are sent as.

- `Typed`: the numbers of a record are of these types.
- `ofJson?_toJson`: a record is read from its settled JSON value.
- `fits`: a reader reads the JSON value of a record back from its text.
-/

namespace ContextBudget

open Json

/-! ## Plain values -/

namespace Json

@[simp] theorem settle_null : null.settle = null := rfl

@[simp] theorem settle_bool (b : Bool) : (bool b).settle = bool b := rfl

@[simp] theorem settle_ofNat (n : Nat) : (ofNat n).settle = ofNat n := rfl

@[simp] theorem settle_float (x : Double) : (float x).settle = float x := rfl

@[simp] theorem settle_str (s : String) : (str s).settle = str s := rfl

@[simp] theorem bool?_bool (b : Bool) : (bool b).bool? = some b := rfl

@[simp] theorem text?_str (s : String) : (str s).text? = some s := rfl

theorem word?_ofNat {n : Nat} (h : n < Word.size) : (ofNat n).word? = some n := by
  have hword : (0 : Int) ≤ (n : Int) ∧ (n : Int) < Word.size := ⟨Int.natCast_nonneg n, by omega⟩
  rw [word?, ofNat, below?, if_pos hword]
  rfl

theorem ofBinary_of_rounded {x : Double} (hrounded : x.Rounded) (hfinite : x.isFinite = true) :
    ofBinary x = float x := by
  rw [ofBinary, if_pos hfinite, hrounded]

theorem binary?_float {x : Double} (hrounded : x.Rounded) :
    (float x).binary? double = some x := congrArg some hrounded

/-- A list is read from a settled array if its items are. -/
theorem list?_settle {α : Type} {encode : α → Json} {decode : Json → Option α} {l : List α}
    (h : ∀ a ∈ l, decode (encode a).settle = some a) :
    list? decode (arr (l.map encode)).settle = some l := by
  rw [settle, settleItems_map]
  exact list?_map h

theorem fits_obj {levels : Nat} {fields : List (String × Json)} :
    Fits (levels + 1) (obj fields) ↔ FitFields levels fields := by
  rw [Fits, Nat.add_sub_cancel]
  exact and_iff_right (Nat.succ_pos levels)

theorem fitFields_nil {levels : Nat} : FitFields levels [] := trivial

theorem fits_str {levels : Nat} (s : String) : Fits levels (str s) := trivial

theorem fits_bool {levels : Nat} (b : Bool) : Fits levels (bool b) := trivial

theorem fits_float {levels : Nat} {x : Double} (hfinite : x.isFinite = true)
    (hreads : ReadsBack x) : Fits levels (float x) := ⟨hfinite, hreads⟩

theorem fits_ofNat {n levels : Nat} (h : n < Word.size) : Fits levels (ofNat n) := by
  have hword : (Word.size : Int) = (Nat.pow 2 64 : Int) := rfl
  exact ⟨by omega, by omega⟩

/-- An array fits if each of its items does. -/
theorem fits_arr {α : Type} {encode : α → Json} {l : List α} {levels : Nat}
    (h : ∀ a ∈ l, Fits levels (encode a)) : Fits (levels + 1) (arr (l.map encode)) := by
  refine ⟨Nat.succ_pos levels, ?_⟩
  change FitItems levels (l.map encode)
  induction l with
  | nil => trivial
  | cons a l ih =>
    exact ⟨h a List.mem_cons_self, ih fun b hb => h b (List.mem_cons_of_mem a hb)⟩

end Json

/-- A member that may be null is read if it is an object. -/
theorem Record.nullable_settle {α : Type} {decode : Json → Option α} {a : α}
    {fields : List (String × Json)} (h : decode (obj fields).settle = some a) :
    Record.nullable decode (obj fields).settle = some (some a) := by
  rw [settle_obj] at h ⊢
  change (decode (obj (settled fields))).map some = _
  rw [h]
  rfl

section
variable {α : Type} {r : Record} {name : String} {found : Option Json}

/-- A required field is what its decoder makes of the value that was written there. -/
theorem Record.required_eq {v : Json} {decode : Json → Option α} {a : α}
    (hget : r.get? name = found.map settle) (hfound : found = some v)
    (hdecode : decode v.settle = some a) : r.required name decode = some a := by
  rw [required, hget, hfound, Option.map_some, Option.bind_some, hdecode]

theorem Record.required_word {n : Nat} (hget : r.get? name = found.map settle)
    (hfound : found = some (ofNat n)) (h : n < Word.size) : r.required name word? = some n :=
  required_eq hget hfound (word?_ofNat h)

end

/-! ## Requests -/

/-- Options whose numbers are of the types that they are sent as. -/
structure PruneOptions.Typed (o : PruneOptions) : Prop where
  rounded : o.maxRatio.Rounded
  finite : o.maxRatio.isFinite = true
  minKeep : o.minKeep < Word.size
  timeout : o.timeoutMillis < Word.size

theorem PruneOptions.ofJson?_toJson {o : PruneOptions} (h : o.Typed) :
    ofJson? o.toJson.settle = some o := by
  unfold ofJson? toJson
  obtain ⟨r, hr, -, hget⟩ := Record.exists_record _ _
  rw [hr]
  simp [Record.withDefault, hget, field?, ofBinary_of_rounded h.rounded h.finite,
    binary?_float h.rounded, word?_ofNat h.minKeep, word?_ofNat h.timeout]

theorem PruneOptions.fits {o : PruneOptions} (h : o.Typed) (hreads : ReadsBack o.maxRatio)
    (levels : Nat) : Fits (levels + 1) o.toJson := by
  rw [toJson, fits_obj, ofBinary_of_rounded h.rounded h.finite]
  exact ⟨fits_float h.finite hreads, fits_ofNat h.minKeep, fits_ofNat h.timeout, fits_bool _,
    fits_bool _, fits_bool _, fitFields_nil⟩

theorem SourceKind.ofJson?_text (k : SourceKind) : ofJson? (.str k.text) = some k := by
  cases k <;> rfl

/-- The parameters of a prune mean the request that was sent, whatever the defaults are. -/
theorem PruneService.pruneParams?_toJson {request : PruneRequest} (h : request.options.Typed)
    (defaults : PruneOptions) : pruneParams? defaults request.toJson.settle = some request := by
  unfold pruneParams? PruneRequest.toJson
  obtain ⟨r, hr, -, hget⟩ := Record.exists_record _ _
  rw [hr]
  have hoptions : Record.nullable PruneOptions.ofJson? request.options.toJson.settle =
      some (some request.options) :=
    Record.nullable_settle (PruneOptions.ofJson?_toJson h)
  simp [Record.withDefault, Record.required, Record.optional, hget, field?, hoptions,
    SourceKind.ofJson?_text]

theorem PruneRequest.fits {request : PruneRequest} (h : request.options.Typed)
    (hreads : ReadsBack request.options.maxRatio) (levels : Nat) :
    Fits (levels + 2) request.toJson := by
  rw [toJson, fits_obj]
  exact ⟨fits_str _, fits_str _, fits_str _, PruneOptions.fits h hreads levels, fitFields_nil⟩

/-- A range whose ends are words. -/
structure LineRange.Typed (r : LineRange) : Prop where
  first : r.first < Word.size
  last : r.last < Word.size

theorem LineRange.ofJson?_toJson {r : LineRange} (h : r.Typed) :
    ofJson? r.toJson.settle = some r := by
  unfold ofJson? toJson
  obtain ⟨record, hrecord, -, hget⟩ := Record.exists_record _ _
  rw [hrecord]
  have hfirst : record.required "start_line" word? = some r.first :=
    Record.required_word (hget _ (by simp)) rfl h.first
  have hlast : record.required "end_line" word? = some r.last :=
    Record.required_word (hget _ (by simp)) rfl h.last
  simp [hfirst, hlast]

theorem LineRange.fits {r : LineRange} (h : r.Typed) (levels : Nat) :
    Fits (levels + 1) r.toJson := by
  rw [toJson, fits_obj]
  exact ⟨fits_ofNat h.first, fits_ofNat h.last, fitFields_nil⟩

theorem RecoverRequest.ofJson?_toJson {request : RecoverRequest}
    (h : ∀ r ∈ request.ranges, r.Typed) : ofJson? request.toJson.settle = some request := by
  unfold ofJson? toJson
  obtain ⟨r, hr, -, hget⟩ := Record.exists_record _ _
  rw [hr]
  have hranges : list? LineRange.ofJson? (arr (request.ranges.map LineRange.toJson)).settle =
      some request.ranges := list?_settle fun r hr => LineRange.ofJson?_toJson (h r hr)
  simp [Record.withDefault, Record.required, hget, field?, hranges]

theorem RecoverRequest.fits {request : RecoverRequest} (h : ∀ r ∈ request.ranges, r.Typed)
    (levels : Nat) : Fits (levels + 3) request.toJson := by
  rw [toJson, fits_obj]
  exact ⟨fits_str _, fits_arr fun r hr => LineRange.fits (h r hr) levels, fits_bool _,
    fitFields_nil⟩

/-! ## Responses -/

theorem Warning.ofJson?_toJson (w : Warning) : ofJson? w.toJson.settle = some w := by
  unfold ofJson? toJson
  obtain ⟨r, hr, -, hget⟩ := Record.exists_record _ _
  rw [hr]
  simp [Record.required, hget, field?]

theorem Warning.fits (w : Warning) (levels : Nat) : Fits (levels + 1) w.toJson := by
  rw [toJson, fits_obj]
  exact ⟨fits_str _, fits_str _, fitFields_nil⟩

theorem CutReason.ofJson?_text (r : CutReason) : ofJson? (.str r.text) = some r := by
  cases r <;> rfl

/-- A cut whose numbers are words. -/
structure Cut.Typed (c : Cut) : Prop where
  first : c.first < Word.size
  last : c.last < Word.size
  count : c.count < Word.size

theorem Cut.ofJson?_toJson {c : Cut} (h : c.Typed) : ofJson? c.toJson.settle = some c := by
  unfold ofJson? toJson
  obtain ⟨r, hr, -, hget⟩ := Record.exists_record _ _
  rw [hr]
  have hfirst : r.required "start_line" word? = some c.first :=
    Record.required_word (hget _ (by simp)) rfl h.first
  have hlast : r.required "end_line" word? = some c.last :=
    Record.required_word (hget _ (by simp)) rfl h.last
  have hcount : r.required "pruned_count" word? = some c.count :=
    Record.required_word (hget _ (by simp)) rfl h.count
  have hreason : r.required "reason" CutReason.ofJson? = some c.reason :=
    Record.required_eq (hget _ (by simp)) rfl (CutReason.ofJson?_text c.reason)
  have hmarker : r.required "marker" text? = some c.marker :=
    Record.required_eq (hget _ (by simp)) rfl rfl
  simp [hfirst, hlast, hcount, hreason, hmarker]

theorem Cut.fits {c : Cut} (h : c.Typed) (levels : Nat) : Fits (levels + 1) c.toJson := by
  rw [toJson, fits_obj]
  exact ⟨fits_ofNat h.first, fits_ofNat h.last, fits_ofNat h.count, fits_str _, fits_str _,
    fitFields_nil⟩

/-- Counters whose numbers are of the types that they are sent as. -/
structure PruneStats.Typed (s : PruneStats) : Prop where
  total : s.total < Word.size
  kept : s.kept < Word.size
  pruned : s.pruned < Word.size
  rounded : s.prunedRatio.Rounded
  finite : s.prunedRatio.isFinite = true
  elapsed : s.elapsedMillis < Word.size

theorem PruneStats.ofJson?_toJson {s : PruneStats} (h : s.Typed) :
    ofJson? s.toJson.settle = some s := by
  unfold ofJson? toJson
  obtain ⟨r, hr, -, hget⟩ := Record.exists_record _ _
  rw [hr]
  have hkind : Record.nullable SourceKind.ofJson? (ofText? (s.kind.map SourceKind.text)).settle =
      some s.kind := by
    cases s.kind with
    | none => rfl
    | some k => cases k <;> rfl
  have htotal : r.required "original_lines" word? = some s.total :=
    Record.required_word (hget _ (by simp)) rfl h.total
  have hkept : r.required "kept_lines" word? = some s.kept :=
    Record.required_word (hget _ (by simp)) rfl h.kept
  have hpruned : r.required "pruned_lines" word? = some s.pruned :=
    Record.required_word (hget _ (by simp)) rfl h.pruned
  have hratio : r.required "pruned_ratio" (binary? double) = some s.prunedRatio := by
    refine Record.required_eq (hget _ (by simp)) rfl ?_
    rw [ofBinary_of_rounded h.rounded h.finite, settle_float, binary?_float h.rounded]
  have helapsed : r.required "elapsed_ms" word? = some s.elapsedMillis :=
    Record.required_word (hget _ (by simp)) rfl h.elapsed
  simp only [Option.bind_eq_bind, Option.bind_some, htotal, hkept, hpruned, hratio, helapsed]
  simp [Record.required, Record.optional, hget, field?, hkind]

theorem PruneStats.fits {s : PruneStats} (h : s.Typed) (hreads : ReadsBack s.prunedRatio)
    (levels : Nat) : Fits (levels + 1) s.toJson := by
  have hkind : Fits levels (ofText? (s.kind.map SourceKind.text)) := by
    cases s.kind <;> trivial
  rw [toJson, fits_obj, ofBinary_of_rounded h.rounded h.finite]
  exact ⟨fits_ofNat h.total, fits_ofNat h.kept, fits_ofNat h.pruned,
    fits_float h.finite hreads, hkind, fits_bool _, fits_bool _, fits_ofNat h.elapsed,
    fitFields_nil⟩

/-- A response whose numbers are of the types that they are sent as. -/
structure PruneResponse.Typed (r : PruneResponse) : Prop where
  cuts : ∀ c ∈ r.cuts, c.Typed
  stats : r.stats.Typed

theorem PruneResponse.ofJson?_toJson {r : PruneResponse} (h : r.Typed) :
    ofJson? r.toJson.settle = some r := by
  unfold ofJson? toJson
  obtain ⟨record, hrecord, -, hget⟩ := Record.exists_record _ _
  rw [hrecord]
  have hcuts : list? Cut.ofJson? (arr (r.cuts.map Cut.toJson)).settle = some r.cuts :=
    list?_settle fun c hc => Cut.ofJson?_toJson (h.cuts c hc)
  have hwarnings : list? Warning.ofJson? (arr (r.warnings.map Warning.toJson)).settle =
      some r.warnings := list?_settle fun w _ => Warning.ofJson?_toJson w
  have hstats : record.required "stats" PruneStats.ofJson? = some r.stats :=
    Record.required_eq (hget _ (by simp)) rfl (PruneStats.ofJson?_toJson h.stats)
  simp only [Option.bind_eq_bind, Option.bind_some, hstats]
  simp [Record.withDefault, Record.required, hget, field?, hcuts, hwarnings]

theorem PruneResponse.fits {r : PruneResponse} (h : r.Typed)
    (hreads : ReadsBack r.stats.prunedRatio) (levels : Nat) : Fits (levels + 3) r.toJson := by
  rw [toJson, fits_obj]
  exact ⟨fits_str _, fits_str _, fits_arr fun c hc => Cut.fits (h.cuts c hc) levels,
    PruneStats.fits h.stats hreads (levels + 1), fits_arr fun w _ => Warning.fits w levels,
    fits_bool _, fitFields_nil⟩

/-! ## Envelopes -/

namespace Rpc

/-- A request is read as it was sent, its id and its parameters settled. -/
theorem Request.ofJson?_toJson (r : Request) :
    ofJson? r.toJson.settle = some { r with id := r.id.settle, params := r.params.settle } := by
  unfold ofJson? toJson
  obtain ⟨record, hrecord, -, hget⟩ := Record.exists_record _ _
  rw [hrecord]
  simp [Record.required, Record.withDefault, hget, field?]

theorem Request.fits {r : Request} {levels : Nat} (hid : Fits levels r.id)
    (hparams : Fits levels r.params) : Fits (levels + 1) r.toJson := by
  rw [toJson, fits_obj]
  exact ⟨fits_str _, hid, fits_str _, hparams, fitFields_nil⟩

/-- A response with an object for its result is read as this object, settled. -/
theorem Reply.ofJson?_result (id : Json) (fields : List (String × Json)) :
    ofJson? (Response.toJson ⟨id, .ok (obj fields)⟩) = some ⟨some (obj fields).settle, none⟩ :=
  rfl

/-- The codes that an error can bear. -/
def Error.Coded (e : Error) : Prop := -(Nat.pow 2 63 : Int) ≤ e.code ∧ e.code < Nat.pow 2 63

theorem Error.ofJson?_toJson {e : Error} (h : e.Coded) : ofJson? e.toJson = some e := by
  have hcode : (int e.code).signedWord? = some e.code := if_pos h
  change (int e.code).signedWord?.bind (fun code => some ⟨code, e.message⟩) = some e
  rw [hcode, Option.bind_some]

/-- A response with an error is read as this error. -/
theorem Reply.ofJson?_error (id : Json) {e : Error} (h : e.Coded) :
    ofJson? (Response.toJson ⟨id, .error e⟩) = some ⟨none, some e⟩ := by
  have herror : Record.nullable Error.ofJson? e.toJson = some (some e) :=
    congrArg (Option.map some) (Error.ofJson?_toJson h)
  change (Record.nullable Error.ofJson? e.toJson).bind
    (fun error => some (⟨none, error⟩ : Reply)) = _
  rw [herror, Option.bind_some]

theorem Response.fits {id : Json} {levels : Nat} (hid : Fits (levels + 1) id) :
    ∀ {result : Except Error Json}, (∀ v, result = .ok v → Fits (levels + 1) v) →
      (∀ e, result = .error e → e.Coded) → Fits (levels + 2) (Response.toJson ⟨id, result⟩)
  | .ok v, hv, _ => by
    rw [toJson, fits_obj]
    exact ⟨fits_str _, hid, hv v rfl, fitFields_nil⟩
  | .error e, _, he => by
    have herror : Fits (levels + 1) e.toJson := by
      rw [Error.toJson, fits_obj]
      obtain ⟨hlow, hhigh⟩ := he e rfl
      have hsize : (Nat.pow 2 63 : Int) < (Nat.pow 2 64 : Int) := by decide
      exact ⟨⟨hlow, Int.lt_trans hhigh hsize⟩, fits_str _, fitFields_nil⟩
    rw [toJson, fits_obj]
    exact ⟨fits_str _, hid, herror, fitFields_nil⟩

end Rpc
end ContextBudget
