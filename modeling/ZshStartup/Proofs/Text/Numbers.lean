import ZshStartup.Text.Blank
import Mathlib.Data.List.DropRight

/-! Numbers in free text. A text is read as a number if and only if it is spelled as one: digits behind at
most one plus sign, among blanks, and with a value that 64 bits can hold.
-/

namespace ZshStartup.Text

-----------------------------------------------------------------------------------------
-- Trimming
-----------------------------------------------------------------------------------------

theorem dropWhile_isBlank_append {blanks text : List Char}
    (blank : ∀ c ∈ blanks, isBlank c = true) (start : ∀ c ∈ text.head?, isBlank c = false)
    : (blanks ++ text).dropWhile isBlank = text := by
  rw [List.dropWhile_append_of_pos blank]
  cases text with
  | nil => rfl
  | cons c rest => simp [start c (by simp)]

/-- Blanks around a text are dropped, and nothing else is. -/
theorem trim_append {before text after : List Char} (leading : ∀ c ∈ before, isBlank c = true)
    (start : ∀ c ∈ text.head?, isBlank c = false)
    (finish : ∀ c ∈ text.getLast?, isBlank c = false) (nonempty : text ≠ [])
    (trailing : ∀ c ∈ after, isBlank c = true)
    : trim (before ++ text ++ after) = text := by
  have starts : ∀ c ∈ (text ++ after).head?, isBlank c = false := by
    rwa [List.head?_append_of_ne_nil text nonempty]
  rw [trim, List.append_assoc, dropWhile_isBlank_append leading starts, List.reverse_append,
    dropWhile_isBlank_append (by simpa using trailing) (by simpa using finish),
    List.reverse_reverse]

theorem exists_eq_append_trim (text : List Char)
    : ∃ before after,
        text = before ++ trim text ++ after
        ∧ (∀ c ∈ before, isBlank c = true)
        ∧ ∀ c ∈ after, isBlank c = true := by
  let rest := text.dropWhile isBlank
  refine ⟨text.takeWhile isBlank, (rest.reverse.takeWhile isBlank).reverse, ?_, ?_, ?_⟩
  · have back : trim text ++ (rest.reverse.takeWhile isBlank).reverse = rest := by
      rw [trim, ← List.reverse_append, List.takeWhile_append_dropWhile, List.reverse_reverse]
    rw [List.append_assoc, back, List.takeWhile_append_dropWhile]
  · exact fun c member => List.mem_takeWhile_imp member
  · exact fun c member => List.mem_takeWhile_imp (List.mem_reverse.mp member)

-----------------------------------------------------------------------------------------
-- Digits
-----------------------------------------------------------------------------------------

/-- Decimal digits, of which there is at least one, and their value. -/
structure Denotes (digits : List Char) (n : Nat) : Prop where
  ne_nil : digits ≠ []
  isDigit : ∀ c ∈ digits, c.isDigit = true
  value : Nat.ofDigitChars 10 digits 0 = n

theorem isBlank_of_isDigit {c : Char} (digit : c.isDigit = true) : isBlank c = false := by
  simp only [Char.isDigit, Bool.and_eq_true, decide_eq_true_eq] at digit
  obtain ⟨low, high⟩ := digit
  have low : 48 ≤ c.toNat := low
  have high : c.toNat ≤ 57 := high
  simp [isBlank]
  omega

theorem digitsToUInt64?_eq_some_iff {digits : List Char} {n : UInt64}
    : digitsToUInt64? digits = some n ↔ Denotes digits n.toNat := by
  have value : digits.foldl (fun n c => 10 * n + (c.toNat - '0'.toNat)) 0
      = Nat.ofDigitChars 10 digits 0 := rfl
  simp only [digitsToUInt64?, value]
  constructor
  · intro read
    split at read
    · cases read
    · next digital =>
        simp only [Bool.or_eq_true, List.isEmpty_iff, Bool.not_eq_true', not_or,
          Bool.not_eq_false, List.all_eq_true] at digital
        split at read
        · next fits =>
            cases read
            exact ⟨digital.1, digital.2, (UInt64.toNat_ofNat_of_lt' fits).symm⟩
        · cases read
  · rintro ⟨nonempty, digital, value⟩
    have some : digits.isEmpty = false := by simpa using nonempty
    have all : digits.all Char.isDigit = true := List.all_eq_true.mpr digital
    have fits : n.toNat < UInt64.size := n.toNat_lt
    simp [value, some, all, fits]

/-- The spelling of a number: a plus sign or none, and digits. -/
inductive Spells : List Char → Nat → Prop
  | bare {digits : List Char} {n : Nat} (denotes : Denotes digits n) : Spells digits n
  | signed {digits : List Char} {n : Nat} (denotes : Denotes digits n) : Spells ('+' :: digits) n

theorem readUInt64?_eq_some_iff {text : List Char} {n : UInt64}
    : readUInt64? text = some n ↔ Spells text n.toNat := by
  unfold readUInt64?
  split
  · next digits =>
      rw [digitsToUInt64?_eq_some_iff]
      refine ⟨.signed, fun spells => ?_⟩
      cases spells with
      | bare denotes => exact absurd (denotes.isDigit '+' (by simp)) (by decide)
      | signed denotes => exact denotes
  · next unsigned =>
      rw [digitsToUInt64?_eq_some_iff]
      refine ⟨.bare, fun spells => ?_⟩
      cases spells with
      | bare denotes => exact denotes
      | signed => exact absurd rfl (unsigned _)

-----------------------------------------------------------------------------------------
-- Numbers among blanks
-----------------------------------------------------------------------------------------

/-- The spelling of a number, with blanks at both ends. -/
inductive SpellsPadded : List Char → Nat → Prop
  | mk {before text after : List Char} {n : Nat} (leading : ∀ c ∈ before, isBlank c = true)
    (spells : Spells text n) (trailing : ∀ c ∈ after, isBlank c = true)
    : SpellsPadded (before ++ text ++ after) n

/-- A spelling is neither empty nor does it start or end with a blank. -/
theorem Spells.trim_append {before text after : List Char} {n : Nat} (spells : Spells text n)
    (leading : ∀ c ∈ before, isBlank c = true) (trailing : ∀ c ∈ after, isBlank c = true)
    : trim (before ++ text ++ after) = text := by
  have visible : ∀ c ∈ text, isBlank c = false := by
    intro c member
    cases spells with
    | bare denotes => exact isBlank_of_isDigit (denotes.isDigit c member)
    | signed denotes =>
        rcases List.mem_cons.mp member with rfl | digit
        · rfl
        · exact isBlank_of_isDigit (denotes.isDigit c digit)
  have nonempty : text ≠ [] := by
    cases spells with
    | bare denotes => exact denotes.ne_nil
    | signed => exact List.cons_ne_nil _ _
  exact Text.trim_append leading (fun c first => visible c (List.mem_of_head? first))
    (fun c last => visible c (List.mem_of_getLast? last)) nonempty trailing

/-- A text is read as the number that it spells, and otherwise not at all. -/
theorem readUInt64?_trim_eq_some_iff {text : List Char} {n : UInt64}
    : readUInt64? (trim text) = some n ↔ SpellsPadded text n.toNat := by
  rw [readUInt64?_eq_some_iff]
  constructor
  · intro spells
    obtain ⟨before, after, same, leading, trailing⟩ := exists_eq_append_trim text
    rw [same]
    exact .mk leading spells trailing
  · rintro ⟨leading, spells, trailing⟩
    rwa [spells.trim_append leading trailing]

end ZshStartup.Text
