import ContextBudget.Proofs.Compaction
import Mathlib.Data.List.Induction

/-!
# Where the tail of a compaction begins

The tail begins with one of the last exchanges or, if there are not so many of them, with one of
the last messages. The two rules count differently: a single exchange may hold more messages than
the second rule keeps.

- `Begins`: where the tail begins, told by what it holds; `tailStart_begins`: `tailStart` is there.
- `Begins.spoken_of_few`: how many messages it holds that are not the system's, if there are too few
  exchanges.
- `tailStart_le_iff`: a larger number keeps no less if there are so many exchanges, and otherwise
  just when twice that number is as much as a smaller one keeps.
- `not_keepsMore_toolLoop`: so a larger number may keep less.
-/

namespace ContextBudget

/-- The word before the double of a word that is at most half of all. -/
theorem Word.pred_mul_two {n : Nat} (hpos : 0 < n) (hhalf : 2 * n ≤ size) :
    pred (mul 2 n) = 2 * n - 1 := by
  have hlast : last + 1 = size := by decide
  unfold pred mul
  rcases Nat.lt_or_eq_of_le hhalf with hlt | heq
  · rw [Nat.mod_eq_of_lt hlt, show 2 * n + last = (2 * n - 1) + size by omega,
      Nat.add_mod_right, Nat.mod_eq_of_lt (by omega)]
  · rw [heq, Nat.mod_self, Nat.zero_add, Nat.mod_eq_of_lt (by omega)]
    omega

namespace Compaction

variable {messages : Conversation} {i j n p q : Nat} {m : Message}

/-- Whether a message opens an exchange. -/
def opensExchange (m : Message) : Bool := m.role == .user && !m.isSummary

/-- How many exchanges there are. -/
def exchanges (messages : Conversation) : Nat := messages.countP opensExchange

/-- How many messages there are that are not the system's. -/
def spoken (messages : Conversation) : Nat := messages.countP (!·.isSystem)

theorem not_isSystem_of_opensExchange (h : opensExchange m = true) : (!m.isSystem) = true := by
  obtain ⟨hrole, -⟩ := (Bool.and_eq_true _ _).mp h
  simp [Message.isSystem, eq_of_beq hrole]

/-! ## Counting from the end -/

section Latest

variable {α : Type} {f : α → Bool} {l : List α} {a : α}

/-- The `n`-th item from the end that passes a test is followed by `n` others. -/
theorem countP_drop_of_latest
    (h : (l.zipIdx.reverse.filter fun q => f q.1)[n]? = some (a, i)) :
    l[i]? = some a ∧ f a = true ∧ (l.drop i).countP f = n + 1 := by
  induction l using List.reverseRecOn generalizing n with
  | nil => cases h
  | append_singleton l x ih =>
    rw [List.zipIdx_append, List.reverse_append, List.zipIdx_singleton, List.reverse_singleton,
      List.singleton_append, Nat.zero_add] at h
    -- What holds in the list without its last item holds in the list itself.
    have hearlier : ∀ {k}, (l.zipIdx.reverse.filter fun q => f q.1)[k]? = some (a, i) →
        (l ++ [x])[i]? = some a ∧ f a = true ∧
          ((l ++ [x]).drop i).countP f = k + 1 + [x].countP f := fun hk => by
      obtain ⟨hget, hpass, hcount⟩ := ih hk
      have hlt := (List.getElem?_eq_some_iff.mp hget).1
      refine ⟨by rw [List.getElem?_append_left hlt, hget], hpass, ?_⟩
      rw [List.drop_append_of_le_length (Nat.le_of_lt hlt), List.countP_append, hcount]
    cases hx : f x with
    | false =>
      rw [List.filter_cons_of_neg (by simp [hx])] at h
      simpa [hx] using hearlier h
    | true =>
      rw [List.filter_cons_of_pos (by simpa using hx)] at h
      cases n with
      | zero =>
        obtain ⟨rfl, rfl⟩ : x = a ∧ l.length = i := by simpa using h
        exact ⟨List.getElem?_concat_length, hx, by simp [hx]⟩
      | succ n =>
        have hlater := hearlier (k := n) (by simpa using h)
        simpa [hx] using hlater

/-- There is no `n`-th item from the end just if there are at most `n` of them. -/
theorem latest_eq_none_iff :
    (l.zipIdx.reverse.filter fun q => f q.1)[n]? = none ↔ l.countP f ≤ n := by
  have hmap := List.countP_map (p := f) (f := Prod.fst) (l := l.zipIdx)
  rw [List.zipIdx_map_fst] at hmap
  rw [List.getElem?_eq_none_iff, ← List.countP_eq_length_filter, List.countP_reverse, hmap]
  rfl

theorem countP_drop_le (f : α → Bool) (l : List α) (h : i ≤ j) :
    (l.drop j).countP f ≤ (l.drop i).countP f :=
  (List.drop_sublist_drop_left l h).countP_le

/-- An item that passes is counted from its own place on, but not from a later one. -/
theorem countP_drop_lt (hget : l[i]? = some a) (hpass : f a = true) (h : i < j) :
    (l.drop j).countP f < (l.drop i).countP f := by
  obtain ⟨hlt, rfl⟩ := List.getElem?_eq_some_iff.mp hget
  rw [List.drop_eq_getElem_cons hlt, List.countP_cons_of_pos hpass]
  exact Nat.lt_succ_of_le (countP_drop_le f l h)

end Latest

/-! ## The beginning of the tail -/

/-- Where a tail for `p` exchanges begins: behind all messages for none, at an exchange with the
`p` last of them, or else at a message with the `2 * p` last of those that are not the system's, or
before all messages if these are fewer. -/
inductive Begins (messages : Conversation) : Nat → Nat → Prop where
  | behind : Begins messages 0 messages.length
  | exchange {p i : Nat} {m : Message} (found : messages[i]? = some m)
    (opens : opensExchange m = true) (holds : exchanges (messages.drop i) = p) : Begins messages p i
  | message {p i : Nat} {m : Message} (few : exchanges messages < p) (found : messages[i]? = some m)
    (speaks : (!m.isSystem) = true) (holds : spoken (messages.drop i) = 2 * p) :
    Begins messages p i
  | all {p : Nat} (few : exchanges messages < p) (short : spoken messages < 2 * p) :
    Begins messages p 0

theorem tailStart_begins (h : p ≤ exchanges messages ∨ 2 * p ≤ Word.size) :
    Begins messages p (tailStart messages p) := by
  by_cases hzero : p = 0
  · subst hzero
    exact .behind
  have hpos := Nat.pos_of_ne_zero hzero
  rw [tailStart, if_neg hzero]
  dsimp only
  split
  · rename_i q hq
    obtain ⟨hget, hopens, hcount⟩ := countP_drop_of_latest (f := opensExchange) hq
    exact .exchange hget hopens (hcount.trans (Nat.sub_add_cancel hpos))
  · rename_i hnone
    have hfew : exchanges messages < p := by
      have hle : exchanges messages ≤ p - 1 := (latest_eq_none_iff (f := opensExchange)).mp hnone
      omega
    rw [Word.pred_mul_two hpos (h.resolve_left (Nat.not_le.mpr hfew))]
    split
    · rename_i q hq
      obtain ⟨hget, hspeaks, hcount⟩ :=
        countP_drop_of_latest (f := fun m : Message => !m.isSystem) hq
      exact .message hfew hget hspeaks (hcount.trans (by omega))
    · rename_i hless
      have hle : spoken messages ≤ 2 * p - 1 :=
        (latest_eq_none_iff (f := fun m : Message => !m.isSystem)).mp hless
      exact .all hfew (by omega)

theorem Begins.le_length (h : Begins messages p i) : i ≤ messages.length := by
  cases h with
  | behind => exact Nat.le_refl _
  | exchange found => exact Nat.le_of_lt (List.getElem?_eq_some_iff.mp found).1
  | message _ found => exact Nat.le_of_lt (List.getElem?_eq_some_iff.mp found).1
  | all => exact Nat.zero_le _

/-- Where there are so many exchanges, a tail that holds more of them begins no later. -/
theorem Begins.le_of_exchanges (hp : Begins messages p i) (hq : Begins messages q j) (hpq : p ≤ q)
    (hmany : q ≤ exchanges messages) : j ≤ i := by
  have hless : ¬ exchanges messages < p := Nat.not_lt.mpr (Nat.le_trans hpq hmany)
  cases hp with
  | behind => exact hq.le_length
  | message few => exact absurd few hless
  | all few => exact absurd few hless
  | exchange found opens holds =>
    cases hq with
    | behind =>
      have hmore := countP_drop_lt found opens (List.getElem?_eq_some_iff.mp found).1
      change exchanges _ < exchanges _ at hmore
      omega
    | message few => exact absurd few (Nat.not_lt.mpr hmany)
    | all few => exact absurd few (Nat.not_lt.mpr hmany)
    | exchange _ _ holds' =>
      by_contra hlater
      have hmore := countP_drop_lt found opens (Nat.not_le.mp hlater)
      change exchanges _ < exchanges _ at hmore
      omega

theorem exchanges_drop_le (messages : Conversation) (i : Nat) :
    exchanges (messages.drop i) ≤ exchanges messages :=
  countP_drop_le opensExchange messages (Nat.zero_le i)

theorem spoken_drop_le (messages : Conversation) (i : Nat) :
    spoken (messages.drop i) ≤ spoken messages :=
  countP_drop_le (fun m : Message => !m.isSystem) messages (Nat.zero_le i)

/-- Where there are not so many exchanges, a tail holds the last `2 * p` messages that are not the
system's, or all if these are fewer. -/
theorem Begins.spoken_of_few (hp : Begins messages p i) (hfew : exchanges messages < p) :
    spoken (messages.drop i) = min (2 * p) (spoken messages) := by
  have hall := spoken_drop_le messages i
  cases hp with
  | behind => exact absurd hfew (Nat.not_lt_zero _)
  | exchange found opens holds =>
    have hmany := exchanges_drop_le messages i
    omega
  | message few found speaks holds => omega
  | all few short =>
    rw [List.drop_zero]
    omega

/-- Where there are not so many exchanges, a tail for more of them begins no later just if the
messages that it is for are as many as the other tail holds. -/
theorem Begins.le_iff_of_few (hp : Begins messages p i) (hq : Begins messages q j) (hpq : p ≤ q)
    (hfew : exchanges messages < q) : j ≤ i ↔ spoken (messages.drop i) ≤ 2 * q := by
  have hlast := hq.spoken_of_few hfew
  have hall := spoken_drop_le messages i
  cases hq with
  | behind => exact absurd hfew (Nat.not_lt_zero _)
  | exchange found opens holds =>
    have hmany := exchanges_drop_le messages j
    omega
  | all few short => exact ⟨fun _ => by omega, fun _ => Nat.zero_le _⟩
  | message few found speaks holds =>
    refine ⟨fun hle => ?_, fun hholds => Nat.not_lt.mp fun hlt => ?_⟩
    · have hmore := countP_drop_le (!·.isSystem) messages hle
      change spoken _ ≤ spoken _ at hmore
      omega
    -- The message at `i` is one more than those from `j` on.
    have hmore : ∀ {m : Message}, messages[i]? = some m → (!m.isSystem) = true → False :=
      fun found' speaks' => by
        have hlate := countP_drop_lt (f := fun m : Message => !m.isSystem) found' speaks' hlt
        change spoken _ < spoken _ at hlate
        omega
    cases hp with
    | behind =>
      have hin := (List.getElem?_eq_some_iff.mp found).1
      omega
    | exchange found' opens => exact hmore found' (not_isSystem_of_opensExchange opens)
    | message _ found' speaks' => exact hmore found' speaks'
    | all _ short => omega

/-- A tail that begins no later leaves no message out that the other one keeps. -/
theorem preserved_sublist {config config' : CompactionConfig}
    (h : tailStart messages config'.preserve ≤ tailStart messages config.preserve) :
    (preserved config messages).Sublist (preserved config' messages) := by
  obtain ⟨k, hk⟩ := Nat.exists_eq_add_of_le h
  rw [preserved_eq, preserved_eq, early, recent, early, recent, hk, List.take_add,
    List.filter_append, List.append_assoc, ← List.drop_drop]
  refine List.Sublist.append_left ?_ _
  conv_rhs => rw [← List.take_append_drop k (messages.drop (tailStart messages config'.preserve))]
  exact List.filter_sublist.append_right _

/-- Where there are `q` exchanges, a tail for them begins no later than one for fewer. Where there
are not, it is for the last `2 * q` messages that are not the system's, and begins no later just if
the other tail holds at most so many, as it does if it finds too few exchanges itself. A tail that
begins no later keeps whatever the other one keeps. -/
theorem tailStart_le_iff (messages : Conversation) {p q : Nat} (hpq : p ≤ q) :
    (q ≤ exchanges messages → tailStart messages q ≤ tailStart messages p) ∧
      (exchanges messages < q → 2 * q ≤ Word.size →
        spoken (messages.drop (tailStart messages q)) = min (2 * q) (spoken messages) ∧
        (tailStart messages q ≤ tailStart messages p ↔
          spoken (messages.drop (tailStart messages p)) ≤ 2 * q) ∧
        (exchanges messages < p → tailStart messages q ≤ tailStart messages p)) ∧
      ∀ config : CompactionConfig, tailStart messages q ≤ tailStart messages p →
        (preserved { config with preserve := p } messages).Sublist
          (preserved { config with preserve := q } messages) := by
  refine ⟨fun hmany => ?_, fun hfew hhalf => ?_, fun config hle => preserved_sublist hle⟩
  · exact (tailStart_begins (.inl (Nat.le_trans hpq hmany))).le_of_exchanges
      (tailStart_begins (.inl hmany)) hpq hmany
  · have hp : Begins messages p (tailStart messages p) := tailStart_begins (.inr (by omega))
    have hq : Begins messages q (tailStart messages q) := tailStart_begins (.inr hhalf)
    have hiff := hp.le_iff_of_few hq hpq hfew
    refine ⟨hq.spoken_of_few hfew, hiff, fun hfewer => hiff.mpr ?_⟩
    have hlast := hp.spoken_of_few hfewer
    omega

/-- One task, and the calls of tools that it takes. -/
def toolLoop : Conversation := Message.inOrder [.of .user "do the task", .of .assistant "step one",
  .toolResult "c1" "out", .of .assistant "step two", .toolResult "c2" "out"]

/-- The task and what followed it are five messages, as many as a tail for three exchanges keeps. -/
theorem tailStart_le_iff_toolLoop :
    1 ≤ 3 ∧ exchanges toolLoop < 3 ∧ 2 * 3 ≤ Word.size ∧
      tailStart toolLoop 3 ≤ tailStart toolLoop 1 ∧
      (preserved { CompactionConfig.standard with preserve := 1 } toolLoop).Sublist
        (preserved { CompactionConfig.standard with preserve := 3 } toolLoop) := by
  have hfew : exchanges toolLoop < 3 := by decide +kernel
  have hholds : spoken (toolLoop.drop (tailStart toolLoop 1)) ≤ 2 * 3 := by decide +kernel
  obtain ⟨-, hiff, hkeeps⟩ := tailStart_le_iff toolLoop (show 1 ≤ 3 by decide)
  have hle := (hiff hfew (by decide)).2.1.mpr hholds
  exact ⟨by decide, hfew, by decide, hle, hkeeps _ hle⟩

/-- A tail for one exchange keeps the whole task, and a tail for two only its last four messages. -/
theorem not_keepsMore_toolLoop :
    ¬ ∀ (messages : Conversation) (p q : Nat), p ≤ q →
      tailStart messages q ≤ tailStart messages p := by
  intro hlaw
  have hstarts : tailStart toolLoop 1 = 0 ∧ tailStart toolLoop 2 = 1 := by decide +kernel
  have hle := hlaw toolLoop 1 2 (by decide)
  omega

end Compaction
end ContextBudget
