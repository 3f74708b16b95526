import ContextBudget.Json.Reader
import Mathlib.Algebra.Ring.Nat

/-!
# Reading what was written

The text of a value is read back as the value. For strings and whole numbers of 64 bits this holds
of all of them. A number with a fraction has the fewest digits that tell it apart, and the reader
rounds twice, so for such a number it is a matter of its digits (`ReadsBack`).

- `readString_quote`, `readNumber_int`: strings and whole numbers are read back.
- `readNumber_append`: a number ends where its text does.
- `readValue_chars`: in front of what may follow a value, the text of the value is read as it.
- `read?_write`: the text of a value that fits is read back as the value.
-/

namespace ContextBudget
namespace Json

/-! ## Strings -/

theorem hexValue?_digitChar : ∀ n < 16, hexValue? (Nat.digitChar n) = some n := by decide

/-- An escaped character that is no half of a pair is read whatever follows it. -/
theorem readString_unit {a b c d : Char} {n : Nat} (hunit : hexUnit? a b c d = some n)
    (hsmall : n < 0xD800) (seen rest : List Char) :
    readString seen ('\\' :: 'u' :: a :: b :: c :: d :: rest) =
      readString (Char.ofNat n :: seen) rest := by
  rw [readString.eq_def]
  split
  · cases ‹_ = []›
  · cases ‹_ = '"' :: _›
  · rename_i heq
    cases heq
    simp only [hunit]
    rw [if_neg (by omega), if_neg (by omega)]
  · rename_i heq
    cases heq
    simp only [hunit]
    rw [if_neg (by omega)]
  · rename_i hnot heq
    cases heq
    exact (hnot _ _ _ _ _ rfl rfl).elim
  · rename_i hnot heq
    cases heq
    exact (hnot _ _ rfl rfl).elim

/-- A character that needs no escape is read as it is. -/
theorem readString_plain {c : Char} (hquote : c ≠ '"') (hslash : c ≠ '\\') (hlarge : ¬ c.toNat < 32)
    (seen rest : List Char) : readString seen (c :: rest) = readString (c :: seen) rest := by
  rw [readString.eq_def]
  split <;> rename_i heq
  case h_1 => cases heq
  case h_2 => exact (hquote (List.cons.inj heq).1).elim
  case h_6 =>
    obtain ⟨rfl, rfl⟩ := List.cons.inj heq
    exact if_neg (not_or.mpr ⟨hlarge, hslash⟩)
  all_goals exact (hslash (List.cons.inj heq).1).elim

/-- A character of a string literal is read back. -/
theorem readString_escape (seen : List Char) (c : Char) (rest : List Char) :
    readString seen ((escape c).toList ++ rest) = readString (c :: seen) rest := by
  unfold escape
  split
  · subst_vars; simp [readString, escaped?]
  split
  · subst_vars; simp [readString, escaped?]
  split
  · subst_vars; simp [readString, escaped?]
  split
  · subst_vars; simp [readString, escaped?]
  split
  · subst_vars; simp [readString, escaped?]
  split
  · obtain rfl : c = '\x08' := Char.toNat_inj.mp ‹_›
    simp [readString, escaped?]
  split
  · obtain rfl : c = '\x0c' := Char.toNat_inj.mp ‹_›
    simp [readString, escaped?]
  split
  · rename_i hsmall
    have hunit : hexUnit? '0' '0' (Nat.digitChar (c.toNat / 16)) (Nat.digitChar (c.toNat % 16)) =
        some c.toNat := by
      have hzero : hexValue? '0' = some 0 := by decide
      simp only [hexUnit?, hzero, hexValue?_digitChar (c.toNat / 16) (by omega),
        hexValue?_digitChar (c.toNat % 16) (by omega), Option.bind_eq_bind, Option.bind_some,
        Option.pure_def, Option.some.injEq]
      omega
    rw [String.toList_append, String.toList_ofList, String.toList_ofList]
    have hread := readString_unit hunit (by omega) seen rest
    rw [Char.ofNat_toNat] at hread
    exact hread
  · rename_i hquote hslash _ _ _ _ _ hlarge
    rw [String.toList_singleton]
    exact readString_plain hquote hslash hlarge seen rest

theorem readString_chars (seen chars rest : List Char) :
    readString seen (chars.flatMap (fun c => (escape c).toList) ++ '"' :: rest) =
      some (String.ofList (seen.reverse ++ chars), rest) := by
  induction chars generalizing seen with
  | nil => simp [readString]
  | cons c chars ih =>
    rw [List.flatMap_cons, List.append_assoc, readString_escape, ih, List.reverse_cons,
      List.append_assoc]
    rfl

theorem toList_quote (s : String) :
    (quote s).toList = '"' :: s.toList.flatMap (fun c => (escape c).toList) ++ ['"'] := by
  have hfold : ∀ (chars : List Char) (text : String),
      (chars.foldl (fun text c => text ++ escape c) text).toList =
        text.toList ++ chars.flatMap fun c => (escape c).toList := by
    intro chars
    induction chars with
    | nil => simp
    | cons c chars ih =>
      intro text
      rw [List.foldl_cons, ih, String.toList_append, List.append_assoc, List.flatMap_cons]
  rw [quote, String.toList_append, String.toList_append, hfold]
  rfl

/-- A string literal is read back. -/
theorem readString_quote (s : String) (rest : List Char) :
    ∃ tail, (quote s).toList ++ rest = '"' :: tail ∧ readString [] tail = some (s, rest) := by
  refine ⟨s.toList.flatMap (fun c => (escape c).toList) ++ '"' :: rest, ?_, ?_⟩
  · rw [toList_quote, List.append_assoc]
    rfl
  · rw [readString_chars, List.reverse_nil, List.nil_append, String.ofList_toList]

/-! ## Numbers -/

/-- What may follow a number, and no part of it. -/
def Ends (rest : List Char) : Prop := ∀ c ∈ rest.head?, c = ',' ∨ c = ']' ∨ c = '\x7d'

theorem Ends.not_digit {rest : List Char} (h : Ends rest) : rest.takeWhile Char.isDigit = [] := by
  cases rest with
  | nil => rfl
  | cons c rest => rcases h c rfl with rfl | rfl | rfl <;> rfl

theorem takeWhile_ends {cs rest : List Char} (h : Ends rest) :
    (cs ++ rest).takeWhile Char.isDigit = cs.takeWhile Char.isDigit ∧
      (cs ++ rest).dropWhile Char.isDigit = cs.dropWhile Char.isDigit ++ rest := by
  induction cs with
  | nil =>
    refine ⟨h.not_digit, ?_⟩
    rw [List.nil_append, List.dropWhile_nil, List.nil_append]
    cases rest with
    | nil => rfl
    | cons c rest => rcases h c rfl with rfl | rfl | rfl <;> rfl
  | cons c cs ih =>
    by_cases hc : c.isDigit = true
    · simp [hc, ih]
    · simp [hc]

/-- The fraction digits of a number, if it has a point. -/
def readFraction : List Char → Option (Option (List Char) × List Char)
  | '.' :: more =>
    if (more.takeWhile Char.isDigit).isEmpty then none
    else some (some (more.takeWhile Char.isDigit), more.dropWhile Char.isDigit)
  | rest => some (none, rest)

/-- The power of ten of a number, if it names one. -/
def readPower : List Char → Option (Option Int × List Char)
  | 'e' :: more => (readExponent more).map fun (n, rest) => (some n, rest)
  | 'E' :: more => (readExponent more).map fun (n, rest) => (some n, rest)
  | rest => some (none, rest)

/-- What follows the sign of a number. -/
def readUnsigned (negative : Bool) (body : List Char) : Option (Json × List Char) :=
  let whole := body.takeWhile Char.isDigit
  if whole.isEmpty || (whole.head? = some '0' && 1 < whole.length) then none
  else (readFraction (body.dropWhile Char.isDigit)).bind fun (fraction, rest) =>
    (readPower rest).bind fun (exponent, rest) =>
      (number? negative whole fraction exponent).map fun v => (v, rest)

theorem readNumber_eq (cs : List Char) : readNumber cs =
    readUnsigned (decide (cs.head? = some '-'))
      (if cs.head? = some '-' then cs.drop 1 else cs) := by
  simp only [readNumber, readUnsigned]
  generalize (if cs.head? = some '-' then cs.drop 1 else cs) = body
  generalize decide (cs.head? = some '-') = negative
  generalize body.takeWhile Char.isDigit = whole
  generalize body.dropWhile Char.isDigit = rest
  have hpower : ∀ (fraction : Option (List Char)) (rest : List Char),
      (match rest with
        | 'e' :: more => do
          let (exponent, rest) ← (readExponent more).map fun (n, rest) => (some n, rest)
          return (← number? negative whole fraction exponent, rest)
        | 'E' :: more => do
          let (exponent, rest) ← (readExponent more).map fun (n, rest) => (some n, rest)
          return (← number? negative whole fraction exponent, rest)
        | _ => do
          let (exponent, rest) ← some (none, rest)
          return (← number? negative whole fraction exponent, rest)) =
      (readPower rest).bind fun (exponent, rest) =>
        (number? negative whole fraction exponent).map fun v => (v, rest) := by
    intro fraction rest
    unfold readPower
    simp only [Option.map_eq_bind]
    split <;> rfl
  split
  · rfl
  · split
    · rename_i more
      simp only [readFraction]
      split
      · rfl
      · exact hpower _ _
    · rename_i hother
      have hnone : readFraction rest = some (none, rest) := by
        unfold readFraction
        split
        · exact (hother _ rfl).elim
        · rfl
      rw [hnone]
      exact hpower _ _

section Ends

variable {cs rest left : List Char} (hrest : Ends rest)
include hrest

theorem readExponent_append {n : Int} (h : readExponent cs = some (n, left)) :
    readExponent (cs ++ rest) = some (n, left ++ rest) := by
  cases cs with
  | nil => cases h
  | cons c cs =>
    have hbody : (if c = '-' ∨ c = '+' then cs ++ rest else c :: (cs ++ rest)) =
        (if c = '-' ∨ c = '+' then cs else c :: cs) ++ rest := by split <;> rfl
    simp only [readExponent, List.cons_append, List.head?_cons, Option.some.injEq,
      List.drop_succ_cons, List.drop_zero] at h ⊢
    rw [hbody]
    generalize (if c = '-' ∨ c = '+' then cs else c :: cs) = body at h ⊢
    obtain ⟨htake, hdrop⟩ := takeWhile_ends hrest
    rw [htake, hdrop]
    split at h
    · cases h
    · rename_i hdigits
      cases h
      rw [if_neg hdigits]

theorem readFraction_append {fraction : Option (List Char)}
    (h : readFraction cs = some (fraction, left)) :
    readFraction (cs ++ rest) = some (fraction, left ++ rest) := by
  cases cs with
  | nil =>
    cases h
    cases rest with
    | nil => rfl
    | cons c rest => rcases hrest c rfl with rfl | rfl | rfl <;> rfl
  | cons c more =>
    by_cases hpoint : c = '.'
    · subst hpoint
      obtain ⟨htake, hdrop⟩ := @takeWhile_ends more rest hrest
      simp only [readFraction, List.cons_append, htake, hdrop] at h ⊢
      split at h
      · cases h
      · rename_i hdigits
        cases h
        rw [if_neg hdigits]
    · have hnone : ∀ more, readFraction (c :: more) = some (none, c :: more) := fun more => by
        unfold readFraction
        split
        · cases ‹c :: more = _›
          exact absurd rfl hpoint
        · rfl
      rw [hnone] at h
      cases h
      exact hnone _

theorem readPower_append {exponent : Option Int} (h : readPower cs = some (exponent, left)) :
    readPower (cs ++ rest) = some (exponent, left ++ rest) := by
  have hnamed : ∀ more : List Char,
      ((readExponent more).map fun (n, rest) => (some n, rest)) = some (exponent, left) →
      ((readExponent (more ++ rest)).map fun (n, rest) => (some n, rest)) =
        some (exponent, left ++ rest) := by
    intro more h
    obtain ⟨⟨n, left'⟩, hread, heq⟩ := Option.map_eq_some_iff.mp h
    cases heq
    rw [readExponent_append hrest hread, Option.map_some]
  cases cs with
  | nil =>
    cases h
    cases rest with
    | nil => rfl
    | cons c rest => rcases hrest c rfl with rfl | rfl | rfl <;> rfl
  | cons c more =>
    by_cases hsmall : c = 'e'
    · subst hsmall
      exact hnamed more h
    · by_cases hlarge : c = 'E'
      · subst hlarge
        exact hnamed more h
      · have hnone : ∀ more, readPower (c :: more) = some (none, c :: more) := fun more => by
          unfold readPower
          split
          · cases ‹c :: more = _›
            exact absurd rfl hsmall
          · cases ‹c :: more = _›
            exact absurd rfl hlarge
          · rfl
        rw [hnone] at h
        cases h
        exact hnone _

theorem readUnsigned_append {negative : Bool} {v : Json}
    (h : readUnsigned negative cs = some (v, left)) :
    readUnsigned negative (cs ++ rest) = some (v, left ++ rest) := by
  obtain ⟨htake, hdrop⟩ := takeWhile_ends hrest
  simp only [readUnsigned] at h ⊢
  rw [htake, hdrop]
  split at h
  · cases h
  · rename_i hdigits
    obtain ⟨⟨fraction, left₁⟩, hfraction, h₁⟩ := Option.bind_eq_some_iff.mp h
    obtain ⟨⟨exponent, left₂⟩, hpower, h₂⟩ := Option.bind_eq_some_iff.mp h₁
    obtain ⟨v', hnumber, heq⟩ := Option.map_eq_some_iff.mp h₂
    cases heq
    rw [if_neg hdigits, readFraction_append hrest hfraction, Option.bind_some,
      readPower_append hrest hpower, Option.bind_some, hnumber, Option.map_some]

/-- A number ends where its text does. -/
theorem readNumber_append {v : Json} (h : readNumber cs = some (v, left)) :
    readNumber (cs ++ rest) = some (v, left ++ rest) := by
  rw [readNumber_eq] at h ⊢
  cases cs with
  | nil => cases h
  | cons c cs =>
    have hbody : (if c = '-' then cs ++ rest else c :: (cs ++ rest)) =
        (if c = '-' then cs else c :: cs) ++ rest := by split <;> rfl
    simp only [List.cons_append, List.head?_cons, Option.some.injEq, List.drop_succ_cons,
      List.drop_zero] at h ⊢
    rw [hbody]
    exact readUnsigned_append hrest h

end Ends

theorem toNat_digitChar : ∀ d < 10, (Nat.digitChar d).toNat - '0'.toNat = d := by decide

theorem ofWhole_toDigits {n : Nat} (h : n < Nat.pow 2 64) :
    Significand.ofWhole (Nat.toDigits 10 n) = ⟨n, 0⟩ := by
  induction n using Nat.strongRecOn with
  | ind n ih =>
    by_cases hn : n < 10
    · rw [Nat.toDigits_of_lt_base hn]
      simp only [Significand.ofWhole, List.foldl_cons, List.foldl_nil, toNat_digitChar n hn]
      rw [Nat.zero_mul, Nat.zero_add, if_pos ⟨trivial, h⟩]
    · have hdigit := toNat_digitChar (n % 10) (Nat.mod_lt n (by decide))
      have hmany := ih (n / 10) (by omega) (by omega)
      rw [Significand.ofWhole] at hmany
      rw [Nat.toDigits_of_base_le (by decide) (by omega), Significand.ofWhole, List.foldl_append,
        hmany]
      simp only [List.foldl_cons, List.foldl_nil, hdigit]
      rw [show n / 10 * 10 + n % 10 = n by omega, if_pos ⟨trivial, h⟩]

theorem head?_toDigits (n : Nat) (h : (Nat.toDigits 10 n).head? = some '0') : n = 0 := by
  induction n using Nat.strongRecOn with
  | ind n ih =>
    by_cases hn : n < 10
    · rw [Nat.toDigits_of_lt_base hn, List.head?_cons, Option.some.injEq] at h
      rw [← toNat_digitChar n hn, h]
      rfl
    · rw [Nat.toDigits_of_base_le (by decide) (by omega), List.head?_append,
        Option.or_of_isSome (by simp [Nat.toDigits_ne_nil])] at h
      have := ih (n / 10) (by omega) h
      omega

/-- The digits of a whole number are a number without a sign. -/
theorem readUnsigned_toDigits {negative : Bool} {n : Nat} {v : Json}
    (h : number? negative (Nat.toDigits 10 n) none none = some v) :
    readUnsigned negative (Nat.toDigits 10 n) = some (v, []) := by
  have hall : ∀ c ∈ Nat.toDigits 10 n, c.isDigit = true :=
    fun c hc => Nat.isDigit_of_mem_toDigits (by decide) (by decide) hc
  have htake : (Nat.toDigits 10 n).takeWhile Char.isDigit = Nat.toDigits 10 n := by
    simpa using @List.takeWhile_append_of_pos _ Char.isDigit _ [] hall
  have hdrop : (Nat.toDigits 10 n).dropWhile Char.isDigit = [] := by
    simpa using @List.dropWhile_append_of_pos _ Char.isDigit _ [] hall
  rw [readUnsigned, htake, hdrop, if_neg]
  · simp [readFraction, readPower, h]
  · simp only [List.isEmpty_eq_false_iff.mpr Nat.toDigits_ne_nil, Bool.false_or, Bool.and_eq_true,
      decide_eq_true_eq, not_and]
    intro hzero
    rw [head?_toDigits n hzero]
    decide

/-- A whole number of 64 bits is read back. -/
theorem readNumber_int {n : Int} (hlow : -(Nat.pow 2 63 : Int) ≤ n) (hhigh : n < Nat.pow 2 64) :
    readNumber (toString n).toList = some (int n, []) := by
  rw [readNumber_eq]
  cases n with
  | ofNat m =>
    have htext : (toString (Int.ofNat m)).toList = Nat.toDigits 10 m := Nat.toList_repr
    have hsign : (Nat.toDigits 10 m).head? ≠ some '-' := fun hsign => by
      have hdigit := Nat.isDigit_of_mem_toDigits (by decide) (by decide) (List.mem_of_head? hsign)
      cases hdigit
    rw [htext, if_neg hsign, decide_eq_false hsign]
    refine readUnsigned_toDigits ?_
    rw [number?, ofWhole_toDigits (Int.ofNat_lt.mp hhigh), if_pos ⟨rfl, rfl, rfl, rfl⟩]
    rfl
  | negSucc m =>
    have htext : (toString (Int.negSucc m)).toList = '-' :: Nat.toDigits 10 (m + 1) := by
      change ("-" ++ Nat.repr (m + 1)).toList = _
      rw [String.toList_append, Nat.toList_repr]
      rfl
    have hword : Nat.pow 2 63 < Nat.pow 2 64 := by decide
    have hsmall : m + 1 ≤ Nat.pow 2 63 := by
      rw [Int.negSucc_eq] at hlow
      omega
    rw [htext]
    refine readUnsigned_toDigits ?_
    simp [number?, ofWhole_toDigits (Nat.lt_of_le_of_lt hsmall hword), hsmall, Int.negSucc_eq]

/-- The text of a number is read back as the number. -/
def ReadsBack (x : Double) : Prop := readNumber (x.write .json).toList = some (float x, [])

/-- Whether a value is a number. -/
def isNumber (x : Double) : Json → Bool
  | float y => y = x
  | _ => false

theorem readsBack_iff {x : Double} : ((readNumber (x.write .json).toList).any
    fun p => p.1.isNumber x && p.2.isEmpty) = true ↔ ReadsBack x := by
  rw [ReadsBack]
  constructor
  · intro h
    obtain ⟨⟨v, left⟩, hread, hsame⟩ := (Option.any_eq_true _ _).mp h
    obtain ⟨hnumber, hleft⟩ := (Bool.and_eq_true _ _).mp hsame
    obtain rfl := List.isEmpty_iff.mp hleft
    cases v with
    | float y => rw [hread, of_decide_eq_true hnumber]
    | _ => cases hnumber
  · intro h
    rw [h]
    simp [isNumber]

instance (x : Double) : Decidable (ReadsBack x) := decidable_of_iff _ readsBack_iff

theorem leading_half : Binary.leading double (2 ^ 1073) = -1 := by
  have hwhole : 2 ^ 1073 / Nat.pow 2 double.scale = 0 := by decide +kernel
  have hdigits : Decimal.length (2 ^ 1073 * Nat.pow 5 double.scale) = 1074 := by
    -- The text of so long a number is not computed, only its digits.
    rw [Decimal.length, Nat.repr, String.length_ofList]
    decide +kernel
  rw [Binary.leading, hwhole, hdigits]
  rfl

theorem readsBack_half : ReadsBack (.ofRatio 1 2) := by
  have hhalf : (.ofRatio 1 2 : Double) = .finite false (2 ^ 1073) := by decide +kernel
  have hdigits : Binary.shortest double false (2 ^ 1073) = ⟨5, -1⟩ := by
    rw [Binary.shortest, leading_half]
    decide +kernel
  have hne : (2 ^ 1073 : Nat) ≠ 0 := by decide +kernel
  have htext : (.ofRatio 1 2 : Double).write .json = "0.5" := by
    rw [hhalf, Binary.write, if_neg hne, show DecimalStyle.json.tieUp = false from rfl, hdigits]
    decide +kernel
  rw [← readsBack_iff, htext, hhalf]
  decide +kernel

/-! ## Values -/

/-- The characters of a value's text. -/
def chars (v : Json) : List Char := v.pieces.flatMap String.toList

/-- The characters of the items after the first. -/
def itemChars (items : List Json) : List Char := (itemPieces items).flatMap String.toList

/-- The characters of the fields after the first. -/
def fieldChars (fields : List (String × Json)) : List Char :=
  (fieldPieces fields).flatMap String.toList

theorem toList_write (v : Json) : v.write.toList = v.chars := String.toList_join

section Chars

variable {v : Json} {items : List Json} {name : String} {fields : List (String × Json)}

theorem chars_arr : (arr (v :: items)).chars = '[' :: (v.chars ++ (itemChars items ++ [']'])) := by
  simp [chars, itemChars, pieces]

theorem itemChars_cons : itemChars (v :: items) = ',' :: (v.chars ++ itemChars items) := by
  simp [chars, itemChars, itemPieces]

theorem chars_obj : (obj ((name, v) :: fields)).chars =
    '\x7b' :: ((quote name).toList ++ ':' :: (v.chars ++ (fieldChars fields ++ ['\x7d']))) := by
  simp [chars, fieldChars, pieces]

theorem fieldChars_cons : fieldChars ((name, v) :: fields) =
    ',' :: ((quote name).toList ++ ':' :: (v.chars ++ fieldChars fields)) := by
  simp [chars, fieldChars, fieldPieces]

end Chars

mutual

/-- A value that nests at most so many levels deep, with whole numbers of 64 bits, and whose other
numbers have texts that are read as them. -/
def Fits : Nat → Json → Prop
  | _, null => True
  | _, bool _ => True
  | _, int n => -(Nat.pow 2 63 : Int) ≤ n ∧ n < Nat.pow 2 64
  | _, float x => x.isFinite = true ∧ ReadsBack x
  | _, str _ => True
  | levels, arr items => 0 < levels ∧ FitItems (levels - 1) items
  | levels, obj fields => 0 < levels ∧ FitFields (levels - 1) fields

/-- Each item fits. -/
def FitItems : Nat → List Json → Prop
  | _, [] => True
  | levels, v :: rest => Fits levels v ∧ FitItems levels rest

/-- The value of each field fits. -/
def FitFields : Nat → List (String × Json) → Prop
  | _, [] => True
  | levels, (_, v) :: rest => Fits levels v ∧ FitFields levels rest

end

theorem skipSpace_cons {c : Char} {cs : List Char} (h : isSpace c = false) :
    skipSpace (c :: cs) = c :: cs := by
  simp [skipSpace, h]

/-- A number begins with its sign or a digit. -/
theorem exists_head_of_readNumber {cs left : List Char} {v : Json}
    (h : readNumber cs = some (v, left)) :
    ∃ c rest, cs = c :: rest ∧ (c = '-' ∨ c.isDigit = true) := by
  rw [readNumber_eq] at h
  cases cs with
  | nil => cases h
  | cons c rest =>
    refine ⟨c, rest, rfl, ?_⟩
    by_cases hsign : c = '-'
    · exact .inl hsign
    · cases hdigit : c.isDigit with
      | true => exact .inr rfl
      | false => simp [hsign, readUnsigned, hdigit] at h

/-- What begins a number is no blank and begins no other value. -/
theorem not_other_of_number {c : Char} (h : c = '-' ∨ c.isDigit = true) :
    ∀ d ∈ [' ', '\n', '\t', '\r', 'n', 't', 'f', '"', '[', ']', '\x7b'], c ≠ d := by
  rintro d hd rfl
  have hnone : ([' ', '\n', '\t', '\r', 'n', 't', 'f', '"', '[', ']', '\x7b'].all
      fun c => !(c == '-' || c.isDigit)) = true := by decide
  have hc := List.all_eq_true.mp hnone c hd
  rcases h with rfl | hdigit
  · cases hc
  · simp [hdigit] at hc

theorem not_space_of_number {c : Char} (h : c = '-' ∨ c.isDigit = true) : isSpace c = false := by
  have hother := not_other_of_number h
  simp [isSpace, hother]

/-- A number is read as a value. -/
theorem readValue_number {cs left : List Char} {v : Json} (h : readNumber cs = some (v, left))
    (fuel levels : Nat) : readValue (fuel + 1) levels cs = some (v, left) := by
  obtain ⟨c, rest, rfl, hc⟩ := exists_head_of_readNumber h
  have hother := not_other_of_number hc
  rw [readValue, skipSpace_cons (not_space_of_number hc)]
  split
  all_goals first
    | exact h
    | (rename_i heq; exact absurd (List.cons.inj heq).1 (hother _ (by simp)))

/-- The text of a value that fits begins with neither a blank nor the end of an array. -/
theorem exists_head {v : Json} {levels : Nat} (h : Fits levels v) :
    ∃ c rest, v.chars = c :: rest ∧ isSpace c = false ∧ c ≠ ']' := by
  have hnumber : ∀ {text : String} {v : Json}, readNumber text.toList = some (v, []) →
      ∃ c rest, text.toList = c :: rest ∧ isSpace c = false ∧ c ≠ ']' := by
    intro text v hread
    obtain ⟨c, rest, heq, hc⟩ := exists_head_of_readNumber hread
    exact ⟨c, rest, heq, not_space_of_number hc, not_other_of_number hc _ (by simp)⟩
  cases v with
  | null => exact ⟨'n', _, rfl, rfl, by decide⟩
  | bool b =>
    cases b
    · exact ⟨'f', _, rfl, rfl, by decide⟩
    · exact ⟨'t', _, rfl, rfl, by decide⟩
  | int n =>
    have hchars : (int n).chars = (toString n).toList := by simp [chars, pieces]
    exact hchars ▸ hnumber (readNumber_int h.1 h.2)
  | float x =>
    have hchars : (float x).chars = (x.write .json).toList := by simp [chars, pieces, h.1]
    exact hchars ▸ hnumber h.2
  | str s =>
    have hchars : (str s).chars = (quote s).toList := by simp [chars, pieces]
    exact ⟨'"', _, hchars.trans (toList_quote s), rfl, by decide⟩
  | arr items =>
    cases items with
    | nil => exact ⟨'[', _, rfl, rfl, by decide⟩
    | cons v items => exact ⟨'[', _, chars_arr, rfl, by decide⟩
  | obj fields =>
    cases fields with
    | nil => exact ⟨'\x7b', _, rfl, rfl, by decide⟩
    | cons f fields => exact ⟨'\x7b', _, chars_obj, rfl, by decide⟩

mutual

theorem readValue_chars : ∀ (v : Json) (fuel levels : Nat) (rest : List Char), Fits levels v →
    2 * v.chars.length ≤ fuel → Ends rest →
    readValue (fuel + 1) levels (v.chars ++ rest) = some (v, rest)
  | null, _, _, _, _, _, _ => rfl
  | bool true, _, _, _, _, _, _ => rfl
  | bool false, _, _, _, _, _, _ => rfl
  | int n, fuel, levels, rest, hfits, _, hrest => by
    have hchars : (int n).chars = (toString n).toList := by simp [chars, pieces]
    rw [hchars]
    exact readValue_number (readNumber_append hrest (readNumber_int hfits.1 hfits.2)) fuel levels
  | float x, fuel, levels, rest, hfits, _, hrest => by
    have hchars : (float x).chars = (x.write .json).toList := by simp [chars, pieces, hfits.1]
    rw [hchars]
    exact readValue_number (readNumber_append hrest hfits.2) fuel levels
  | str s, fuel, levels, rest, _, _, _ => by
    have hchars : (str s).chars = (quote s).toList := by simp [chars, pieces]
    obtain ⟨tail, htail, hread⟩ := readString_quote s rest
    rw [hchars, htail, readValue, skipSpace_cons rfl]
    simp only [hread, Option.map_some]
  | arr [], fuel, levels, rest, hfits, _, _ => by
    change readValue (fuel + 1) levels ('[' :: ']' :: rest) = _
    rw [readValue, skipSpace_cons rfl]
    simp only [if_neg (Nat.ne_of_gt hfits.1), skipSpace_cons (c := ']') rfl]
  | arr (v :: items), fuel, levels, rest, hfits, hfuel, _ => by
    obtain ⟨hlevels, hfirst, hitems⟩ := hfits
    obtain ⟨c, tail, hhead, hspace, hclose⟩ := exists_head hfirst
    rw [chars_arr] at hfuel
    simp only [List.length_cons, List.length_append, List.length_nil] at hfuel
    obtain ⟨fuel, rfl⟩ : ∃ n, fuel = n + 1 := ⟨fuel - 1, by omega⟩
    have hread := readItems_chars items v fuel (levels - 1) [] rest
      (fun fuel rest => readValue_chars v fuel (levels - 1) rest hfirst) hitems (by omega)
    have htext : (arr (v :: items)).chars ++ rest =
        '[' :: (v.chars ++ (itemChars items ++ ']' :: rest)) := by simp [chars_arr]
    rw [htext, readValue, skipSpace_cons rfl]
    simp only [if_neg (Nat.ne_of_gt hlevels)]
    rw [hhead, List.cons_append, skipSpace_cons hspace]
    rw [hhead, List.cons_append] at hread
    split
    · exact absurd (List.cons.inj ‹c :: _ = _›).1 hclose
    · exact hread
  | obj [], fuel, levels, rest, hfits, _, _ => by
    change readValue (fuel + 1) levels ('\x7b' :: '\x7d' :: rest) = _
    rw [readValue, skipSpace_cons rfl]
    simp only [if_neg (Nat.ne_of_gt hfits.1), skipSpace_cons (c := '\x7d') rfl]
  | obj ((name, v) :: fields), fuel, levels, rest, hfits, hfuel, _ => by
    obtain ⟨hlevels, hfirst, hfields⟩ := hfits
    rw [chars_obj] at hfuel
    simp only [List.length_cons, List.length_append, List.length_nil] at hfuel
    obtain ⟨fuel, rfl⟩ : ∃ n, fuel = n + 1 := ⟨fuel - 1, by omega⟩
    have hread := readFields_chars fields name v fuel (levels - 1) [] rest
      (fun fuel rest => readValue_chars v fuel (levels - 1) rest hfirst) hfields (by omega)
    have htext : (obj ((name, v) :: fields)).chars ++ rest = '\x7b' :: ((quote name).toList ++
        ':' :: (v.chars ++ (fieldChars fields ++ '\x7d' :: rest))) := by simp [chars_obj]
    rw [htext, readValue, skipSpace_cons rfl]
    simp only [if_neg (Nat.ne_of_gt hlevels)]
    rw [toList_quote, List.append_assoc, List.cons_append] at hread ⊢
    rw [skipSpace_cons rfl]
    exact hread

theorem readItems_chars : ∀ (items : List Json) (v : Json) (fuel levels : Nat)
    (seen : List Json) (after : List Char),
    (∀ fuel rest, 2 * v.chars.length ≤ fuel → Ends rest →
      readValue (fuel + 1) levels (v.chars ++ rest) = some (v, rest)) →
    FitItems levels items → 2 * (v.chars.length + (itemChars items).length) + 1 ≤ fuel →
    readItems (fuel + 1) levels seen (v.chars ++ (itemChars items ++ ']' :: after)) =
      some (arr (seen.reverse ++ v :: items), after)
  | [], v, fuel, levels, seen, after, hread, _, hfuel => by
    obtain ⟨fuel, rfl⟩ : ∃ n, fuel = n + 1 := ⟨fuel - 1, by omega⟩
    have hfirst := hread fuel (']' :: after) (by omega) (by rintro c ⟨⟩; simp)
    change readItems (fuel + 1 + 1) levels seen (v.chars ++ ']' :: after) = _
    rw [readItems, hfirst]
    simp only [skipSpace_cons (c := ']') rfl, List.reverse_cons]
  | next :: items, v, fuel, levels, seen, after, hread, hfits, hfuel => by
    rw [itemChars_cons] at hfuel ⊢
    simp only [List.length_cons, List.length_append] at hfuel
    obtain ⟨fuel, rfl⟩ : ∃ n, fuel = n + 1 := ⟨fuel - 1, by omega⟩
    have hrest := readItems_chars items next fuel levels (v :: seen) after
      (fun fuel rest => readValue_chars next fuel levels rest hfits.1) hfits.2 (by omega)
    rw [readItems, hread fuel _ (by omega) (by rintro c ⟨⟩; simp)]
    simp only [List.cons_append, skipSpace_cons (c := ',') rfl, List.append_assoc]
    rw [hrest, List.reverse_cons, List.append_assoc]
    rfl

theorem readFields_chars : ∀ (fields : List (String × Json)) (name : String) (v : Json)
    (fuel levels : Nat) (seen : List (String × Json)) (after : List Char),
    (∀ fuel rest, 2 * v.chars.length ≤ fuel → Ends rest →
      readValue (fuel + 1) levels (v.chars ++ rest) = some (v, rest)) →
    FitFields levels fields → 2 * (v.chars.length + (fieldChars fields).length) + 1 ≤ fuel →
    readFields (fuel + 1) levels seen
        ((quote name).toList ++ ':' :: (v.chars ++ (fieldChars fields ++ '\x7d' :: after))) =
      some (obj (seen.reverse ++ (name, v) :: fields), after)
  | [], name, v, fuel, levels, seen, after, hread, _, hfuel => by
    obtain ⟨fuel, rfl⟩ : ∃ n, fuel = n + 1 := ⟨fuel - 1, by omega⟩
    obtain ⟨tail, htail, hname⟩ :=
      readString_quote name (':' :: (v.chars ++ '\x7d' :: after))
    have hfirst := hread fuel ('\x7d' :: after) (by omega) (by rintro c ⟨⟩; simp)
    change readFields (fuel + 1 + 1) levels seen
      ((quote name).toList ++ ':' :: (v.chars ++ '\x7d' :: after)) = _
    rw [htail, readFields, skipSpace_cons rfl]
    simp only [hname, skipSpace_cons (c := ':') rfl, hfirst, skipSpace_cons (c := '\x7d') rfl,
      List.reverse_cons]
  | (other, next) :: fields, name, v, fuel, levels, seen, after, hread, hfits, hfuel => by
    rw [fieldChars_cons] at hfuel ⊢
    simp only [List.length_cons, List.length_append] at hfuel
    obtain ⟨fuel, rfl⟩ : ∃ n, fuel = n + 1 := ⟨fuel - 1, by omega⟩
    obtain ⟨tail, htail, hname⟩ := readString_quote name (':' :: (v.chars ++ (',' ::
      ((quote other).toList ++ ':' :: (next.chars ++ fieldChars fields)) ++ '\x7d' :: after)))
    have hrest := readFields_chars fields other next fuel levels ((name, v) :: seen) after
      (fun fuel rest => readValue_chars next fuel levels rest hfits.1) hfits.2 (by omega)
    rw [htail, readFields, skipSpace_cons rfl]
    simp only [hname, skipSpace_cons (c := ':') rfl]
    rw [hread fuel _ (by omega) (by rintro c ⟨⟩; simp)]
    simp only [List.cons_append, skipSpace_cons (c := ',') rfl, List.append_assoc]
    rw [hrest, List.reverse_cons, List.append_assoc]
    rfl

end

/-- The text of a value that fits is read back as the value. -/
theorem read?_write {v : Json} (h : Fits 127 v) : read? v.write = some v := by
  have hread := readValue_chars v (2 * v.chars.length + 1) 127 [] h (by omega) nofun
  rw [List.append_nil] at hread
  simp only [read?, toList_write, hread]
  rfl

end Json
end ContextBudget
