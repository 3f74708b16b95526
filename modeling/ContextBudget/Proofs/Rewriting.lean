import ContextBudget.Masking.Handle
import ContextBudget.Prune.Response
import Mathlib.Algebra.Ring.Nat

/-!
# Replaced messages

Masking and redaction put one message in place of another. What they do to a conversation is a list
of replacements, in the order in which they were made.

- `Rewrites`: replacements that lead from one conversation to another.
- `Rewrites.map_eq`, `Rewrites.filter_eq`: what does not depend on the contents stays.
- `Rewrites.slot`: each place holds its message still, or the last one that was put there.
- `Rewrites.sum`: what a sum over the messages loses with the old ones it gains with the new ones.
-/

namespace ContextBudget

/-- A message that was put in place of another one: the placeholder of a handle, or what a redactor
left of the text. -/
inductive Replacement where
  | masked (index : Nat) (old : Message) (handle : Handle) (tokens : Nat)
  | redacted (index : Nat) (old : Message) (response : PruneResponse)

namespace Replacement

/-- The place in the conversation. -/
def index : Replacement → Nat
  | masked index _ _ _ => index
  | redacted index _ _ => index

/-- The message that was replaced. -/
def old : Replacement → Message
  | masked _ old _ _ => old
  | redacted _ old _ => old

/-- The content that took the place of another one. -/
def content : Replacement → String
  | masked _ _ handle tokens => handle.placeholder tokens
  | redacted _ _ response => response.text

/-- The message that was put in place of the old one. -/
def new (x : Replacement) : Message := x.old.withContent x.content

/-- The handle behind a placeholder. -/
def handle? : Replacement → Option Handle
  | masked _ _ handle _ => some handle
  | redacted _ _ _ => none

/-- The id of the prune that gave the text. -/
def pruneId? : Replacement → Option String
  | masked _ _ _ _ => none
  | redacted _ _ response => some response.id

/-- A placeholder masks the message that it is put in. -/
theorem isMasked_placeholder (m : Message) (handle : Handle) (tokens : Nat) :
    (m.withContent (handle.placeholder tokens)).isMasked = true := by
  simp [Message.isMasked, Message.withContent, Handle.placeholder, Text.opensWith]

end Replacement

/-- Replacements that lead from one conversation to another, each of a message that was there. -/
inductive Rewrites (messages : Conversation) : List Replacement → Conversation → Prop where
  | nil : Rewrites messages [] messages
  | snoc {rs : List Replacement} {now : Conversation} (before : Rewrites messages rs now)
    (x : Replacement) (found : now[x.index]? = some x.old) :
    Rewrites messages (rs ++ [x]) (now.set x.index x.new)

/-- An item that is left out may be set to another one. -/
theorem filter_set {α : Type} {keep : α → Bool} {l : List α} {i : Nat} {old new : α}
    (hold : l[i]? = some old) (hleft : keep old = false) (hnew : keep new = false) :
    (l.set i new).filter keep = l.filter keep := by
  induction l generalizing i with
  | nil => rfl
  | cons a l ih =>
    cases i with
    | zero =>
      obtain rfl := Option.some.inj hold
      simp [hleft, hnew]
    | succ i =>
      have hrest := ih (i := i) hold
      simp only [List.set_cons_succ, List.filter_cons, hrest]

namespace Rewrites

variable {messages now later : Conversation} {rs rs' : List Replacement} {i : Nat} {m : Message}

theorem trans (h : Rewrites messages rs now) (h' : Rewrites now rs' later) :
    Rewrites messages (rs ++ rs') later := by
  induction h' with
  | nil => rwa [List.append_nil]
  | snoc _ x found ih => exact List.append_assoc .. ▸ .snoc ih x found

theorem length_eq (h : Rewrites messages rs now) : now.length = messages.length := by
  induction h with
  | nil => rfl
  | snoc _ _ _ ih => rw [List.length_set, ih]

/-- What was not replaced is still there. -/
theorem getElem?_of_not_mem (h : Rewrites messages rs now) (hi : ∀ x ∈ rs, x.index ≠ i) :
    now[i]? = messages[i]? := by
  induction h with
  | nil => rfl
  | snoc _ x _ ih =>
    rw [List.getElem?_set_ne (hi x (by simp)), ih fun y hy => hi y (by simp [hy])]

theorem eq_of_nil (h : Rewrites messages [] now) : now = messages :=
  List.ext_getElem? fun _ => h.getElem?_of_not_mem (by simp)

/-- What does not depend on the contents stays. -/
theorem map_eq {α : Type} {f : Message → α} (h : Rewrites messages rs now)
    (hf : ∀ m content, f (m.withContent content) = f m) : now.map f = messages.map f := by
  induction h with
  | nil => rfl
  | @snoc rs now _ x found ih =>
    have hfound : (now.map f)[x.index]? = some (f x.old) := by rw [List.getElem?_map, found]; rfl
    obtain ⟨hlt, hold⟩ := List.getElem?_eq_some_iff.mp hfound
    rw [List.map_set, Replacement.new, hf, ← hold, List.set_getElem_self, ih]

/-- Messages that a test by their place leaves out may be replaced, and the others stay. -/
theorem filter_eq {keep : Message → Bool} (h : Rewrites messages rs now)
    (hkeep : ∀ m content, keep (m.withContent content) = keep m)
    (hrs : ∀ x ∈ rs, keep x.old = false) : now.filter keep = messages.filter keep := by
  induction h with
  | nil => rfl
  | @snoc rs now _ x found ih =>
    have hold : keep x.old = false := hrs x (by simp)
    have hnew : keep x.new = false := (hkeep x.old x.content).trans hold
    rw [filter_set found hold hnew, ih fun y hy => hrs y (by simp [hy])]

/-- Each place holds its message still, or the last content that was put there. -/
theorem slot (h : Rewrites messages rs now) (hm : messages[i]? = some m) :
    ∃ m', now[i]? = some m' ∧ (m' = m ∨
      ∃ x ∈ rs, x.index = i ∧ x.old.role = m.role ∧ m' = m.withContent x.content) := by
  induction h with
  | nil => exact ⟨m, hm, .inl rfl⟩
  | @snoc rs now _ x found ih =>
    obtain ⟨m', hm', hcases⟩ := ih
    by_cases hx : x.index = i
    · rw [hx, hm'] at found
      obtain rfl := Option.some.inj found
      have hlt : i < now.length := (List.getElem?_eq_some_iff.mp hm').1
      refine ⟨x.new, by rw [hx, List.getElem?_set_self hlt], .inr ⟨x, by simp, hx, ?_⟩⟩
      rcases hcases with hsame | ⟨y, -, -, -, hsame⟩
      · exact ⟨by rw [hsame], by rw [Replacement.new, hsame]⟩
      · exact ⟨by rw [hsame]; rfl, by rw [Replacement.new, hsame]; rfl⟩
    · refine ⟨m', by rw [List.getElem?_set_ne hx, hm'], hcases.imp_right ?_⟩
      rintro ⟨y, hy, hyx⟩
      exact ⟨y, List.mem_append_left _ hy, hyx⟩

end Rewrites

/-- Setting an item of a list of numbers takes the old one off its sum and adds the new one. -/
theorem sum_set {l : List Nat} {i old : Nat} (hold : l[i]? = some old) (new : Nat) :
    (l.set i new).sum + old = l.sum + new := by
  induction l generalizing i with
  | nil => cases hold
  | cons a l ih =>
    cases i with
    | zero =>
      obtain rfl := Option.some.inj hold
      simp only [List.set_cons_zero, List.sum_cons]
      omega
    | succ i =>
      have hrest := ih (i := i) hold
      simp only [List.set_cons_succ, List.sum_cons]
      omega

/-- What a sum over the messages loses with the old ones, it gains with the new ones. -/
theorem Rewrites.sum {messages now : Conversation} {rs : List Replacement}
    (h : Rewrites messages rs now) (f : Message → Nat) :
    (now.map f).sum + (rs.map fun x => f x.old).sum =
      (messages.map f).sum + (rs.map fun x => f x.new).sum := by
  induction h with
  | nil => rfl
  | @snoc rs now _ x found ih =>
    have hfound : (now.map f)[x.index]? = some (f x.old) := by rw [List.getElem?_map, found]; rfl
    have hset := sum_set hfound (f x.new)
    rw [← List.map_set] at hset
    simp only [List.map_append, List.map_cons, List.map_nil, List.sum_append, List.sum_cons,
      List.sum_nil, Nat.add_zero]
    omega

end ContextBudget
