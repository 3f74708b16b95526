import ContextBudget.Failure
import ContextBudget.Prune.Cut
import ContextBudget.Prune.Lines
import ContextBudget.Time.Moment

/-!
# Records of prunes

Every prune leaves a record from which the text can be had again in full until it expires. The
store holds a bounded number of records: at capacity the expired ones go, and then the oldest.

- `RecordStore.insert_of_mem`: a record under a known id changes nothing.
-/

namespace ContextBudget

/-- What is kept of a pruned text. -/
structure PruneRecord where
  id : String
  whole : Lines
  /-- The numbers of the lines that stayed. -/
  kept : List Nat
  cuts : List Cut
  createdAt : Moment
  /-- How long the record lives. -/
  life : Span
  deriving Repr

namespace PruneRecord

/-- Whether the record has expired: its life has ended. A life that ends after the calendar does
never ends. -/
def isExpired (r : PruneRecord) (now : Moment) : Bool :=
  match r.createdAt.after? r.life with
  | some ending => ending.atMost now
  | none => false

/-- The ranges that a request means for a text of `count` lines. -/
def rangesOf (request : RecoverRequest) (count : Nat) : List LineRange :=
  if request.ranges.isEmpty then (if count = 0 then [] else [⟨1, count⟩])
  else request.ranges.filterMap (·.clamp? count)

/-- The lines of a range. -/
def slice (numberLines : Bool) (lines : List String) (range : LineRange) : List String :=
  let count := lines.length
  let wanted := ((lines.zipIdx 1).drop (range.first - 1)).take (range.last + 1 - range.first)
  wanted.map fun (line, number) => Lines.numbered numberLines count number line

/-- The text of the lines that are wanted. The last of them is closed if it is the text's last
line and was closed there. -/
def recover (r : PruneRecord) (request : RecoverRequest) : String :=
  let lines := r.whole.lines
  let count := lines.length
  let ranges := rangesOf request count
  let wanted := ranges.flatMap (slice request.numberLines lines)
  let atEnd := match ranges.getLast? with
    | some range => range.last == count
    | none => false
  Lines.text ⟨wanted, r.whole.closed && atEnd⟩

end PruneRecord

/-- The records of prunes, in the order in which they came. -/
structure RecordStore where
  records : List PruneRecord
  /-- How many records there may be, at least one. -/
  capacity : Nat
  deriving Repr

namespace RecordStore

/-- A store without records. -/
def empty (capacity : Nat) : RecordStore := ⟨[], Nat.max capacity 1⟩

/-- How many records are held. -/
def size (s : RecordStore) : Nat := s.records.length

/-- The record of an id, expired or not. -/
def find? (s : RecordStore) (id : String) : Option PruneRecord := s.records.find? (·.id == id)

/-- The record of an id that has not expired. -/
def get (s : RecordStore) (id : String) (now : Moment) : Except BudgetError PruneRecord :=
  match s.find? id with
  | none => .error (.recordUnknown id)
  | some r => if r.isExpired now then .error (.recordExpired id) else .ok r

/-- The store without its expired records. -/
def purge (s : RecordStore) (now : Moment) : RecordStore :=
  { s with records := s.records.filter fun r => !r.isExpired now }

/-- How many records a purge takes away. -/
def purgeCount (s : RecordStore) (now : Moment) : Nat := s.size - (s.purge now).size

/-- The record that was made first, the earliest in the list if there are several. -/
def oldest? : List PruneRecord → Option PruneRecord
  | [] => none
  | r :: rest =>
    match oldest? rest with
    | none => some r
    | some other => if r.createdAt.atMost other.createdAt then some r else some other

/-- The records without the oldest `n` of them. -/
def dropOldest : Nat → List PruneRecord → List PruneRecord
  | 0, records => records
  | n + 1, records =>
    match oldest? records with
    | none => records
    | some old => dropOldest n (records.eraseP (·.id == old.id))

/-- The store with a record, unless its id is known. -/
def insert (s : RecordStore) (r : PruneRecord) (now : Moment) : RecordStore :=
  if (s.find? r.id).isSome then s
  else
    let s := if s.capacity ≤ s.size then s.purge now else s
    { s with records := dropOldest (s.size + 1 - s.capacity) s.records ++ [r] }

theorem insert_of_mem {s : RecordStore} {r : PruneRecord} {now : Moment}
    (known : (s.find? r.id).isSome) : s.insert r now = s := if_pos known

end RecordStore
end ContextBudget
