import ZshStartup.Json.Printer
import ZshStartup.Json.Reader
import Mathlib.Data.List.Basic
import Mathlib.Tactic.SplitIfs

/-! Reading back the tokens that the printer writes: blanks, numerals and strings. What follows a
token stays unread, whatever it is, so that the statements chain up to whole values.
-/

namespace ZshStartup.Json.Reader

-----------------------------------------------------------------------------------------
-- Blanks
-----------------------------------------------------------------------------------------

@[simp]
theorem skipBlanks_newline (depth : Nat) (rest : List Char)
    : skipBlanks (Printer.newline depth ++ rest) = skipBlanks rest := by
  have blank : ∀ c ∈ Printer.newline depth, isBlank c = true := by
    intro c member
    rcases List.mem_cons.mp member with rfl | member
    · rfl
    · rw [(List.mem_replicate.mp member).2]
      rfl
  exact List.dropWhile_append_of_pos blank

theorem skipBlanks_cons {c : Char} (h : isBlank c = false) (rest : List Char)
    : skipBlanks (c :: rest) = c :: rest := by
  simp [skipBlanks, List.dropWhile, h]

-----------------------------------------------------------------------------------------
-- Numerals
-----------------------------------------------------------------------------------------

/-- A text with which no numeral goes on. -/
def EndsNumeral (rest : List Char) : Prop :=
  ∀ c ∈ rest.head?, c.isDigit = false ∧ c ≠ '.' ∧ c ≠ 'e' ∧ c ≠ 'E'

theorem endsNumeral_nil : EndsNumeral [] := by
  simp [EndsNumeral]

theorem takeWhile_isDigit_append {digits rest : List Char}
    (digit : ∀ c ∈ digits, c.isDigit = true) (ends : EndsNumeral rest)
    : (digits ++ rest).takeWhile Char.isDigit = digits
      ∧ (digits ++ rest).dropWhile Char.isDigit = rest := by
  rw [List.takeWhile_append_of_pos digit, List.dropWhile_append_of_pos digit]
  cases rest with
  | nil => simp
  | cons c rest =>
      have stop := (ends c (by simp)).1
      simp [List.takeWhile, List.dropWhile, stop]

/-- No numeral but that of zero starts with a zero, by induction on the digits from the last one. -/
theorem toDigits_zero_cons (n : Nat) {digits : List Char}
    (h : Nat.toDigits 10 n = '0' :: digits)
    : digits = [] := by
  induction n using Nat.strongRecOn generalizing digits with
  | ind n ih =>
      by_cases small : n < 10
      · rw [Nat.toDigits_of_lt_base small] at h
        exact (List.cons.inj h).2.symm
      · rw [Nat.toDigits_of_base_le (by decide) (by omega)] at h
        cases front : Nat.toDigits 10 (n / 10) with
        | nil => exact absurd front Nat.toDigits_ne_nil
        | cons c cs =>
            rw [front] at h
            obtain ⟨rfl, -⟩ := List.cons.inj h
            have zero : n / 10 = 0 := by
              rw [← Nat.ofDigitChars_ten_toDigits (n := n / 10), front,
                ih (n / 10) (by omega) front]
              rfl
            omega

/-- Nothing is left over of digits whose value fits in 64 bits, by induction on the digits. -/
theorem absorb_of_lt {significand : Nat} {digits : List Char}
    (h : Nat.ofDigitChars 10 digits significand < UInt64.size)
    : Numeral.absorb significand digits = (Nat.ofDigitChars 10 digits significand, []) := by
  induction digits generalizing significand with
  | nil => simp [Numeral.absorb]
  | cons c digits ih =>
      rw [Nat.ofDigitChars_cons] at h ⊢
      have fits : 10 * significand + Numeral.digitValue c < UInt64.size := by
        rw [Nat.ofDigitChars_eq_ofDigitChars_zero] at h
        have grows := Nat.le_mul_of_pos_left (10 * significand + (c.toNat - '0'.toNat))
          (Nat.pow_pos (n := digits.length) (show 0 < 10 by decide))
        simp only [Numeral.digitValue]
        omega
      rw [Numeral.absorb, if_pos fits]
      exact ih h

theorem inRange_decimal (n : UInt64) (rest : List Char)
    : inRange
          { negative := false, whole := Printer.decimal n.toNat, fraction := none,
            exponent := none } rest
      = .ok (.natural n, rest) := by
  have fits : Nat.ofDigitChars 10 (Nat.toDigits 10 n.toNat) 0 < UInt64.size := by
    rw [Nat.ofDigitChars_ten_toDigits]
    exact n.toNat_lt
  have value := absorb_of_lt fits
  rw [Nat.ofDigitChars_ten_toDigits] at value
  simp [inRange, Numeral.unneeded?, Numeral.toNumber, Printer.decimal, value, Json.natural]

/-- The digits of a 64-bit number are read as that number. -/
theorem number_decimal (n : UInt64) {rest : List Char} (ends : EndsNumeral rest)
    : number false (Printer.decimal n.toNat ++ rest) = .ok (.natural n, rest) := by
  have digit : ∀ c ∈ Printer.decimal n.toNat, c.isDigit = true :=
    fun c member => Nat.isDigit_of_mem_toDigits (by decide) (by decide) member
  have whole := inRange_decimal n rest
  cases spelled : Printer.decimal n.toNat with
  | nil => exact absurd spelled Nat.toDigits_ne_nil
  | cons c digits =>
      rw [spelled] at digit whole
      obtain ⟨taken, dropped⟩ := takeWhile_isDigit_append
        (fun d member => digit d (List.mem_cons_of_mem c member)) ends
      have lone : ¬(c = '0' ∧ digits ≠ []) := by
        rintro ⟨rfl, more⟩
        exact more (toDigits_zero_cons n.toNat spelled)
      have noFraction : fraction rest = .ok (none, rest) := by
        cases rest with
        | nil => rfl
        | cons d rest =>
            have other := (ends d (by simp)).2.1
            simp [fraction, other]
      have noExponent : exponent rest = .ok (none, rest) := by
        cases rest with
        | nil => rfl
        | cons d rest =>
            have other := (ends d (by simp)).2.2
            simp [exponent, other]
      rw [List.cons_append, number]
      simp only [digit c (by simp), taken, dropped, lone, noFraction, noExponent, bind, Except.bind,
        Bool.not_true, Bool.false_eq_true, if_false]
      exact whole

-----------------------------------------------------------------------------------------
-- Strings
-----------------------------------------------------------------------------------------

theorem hexDigit?_digitChar
    : ∀ digit < 16, Text.hexDigit? (Nat.digitChar digit) = some digit := by
  decide

/-- A control character comes back from the four digits of its code. -/
theorem hexEscape_control {c : Char} (control : c.toNat < 0x20) (rest : List Char)
    : hexEscape
          ('0' :: '0' :: Nat.digitChar (c.toNat / 16) :: Nat.digitChar (c.toNat % 16) :: rest)
      = .ok (c, rest) := by
  have high := hexDigit?_digitChar (c.toNat / 16) (by omega)
  have low := hexDigit?_digitChar (c.toNat % 16) (by omega)
  have zero : Text.hexDigit? '0' = some 0 := by decide
  have code : c.toNat / 16 * 16 + c.toNat % 16 = c.toNat := by omega
  have long : ∀ a b d e : Char, ¬byteLength (a :: b :: d :: e :: rest) < 4 := by
    intro a b d e
    have := a.utf8Size_pos
    have := b.utf8Size_pos
    have := d.utf8Size_pos
    have := e.utf8Size_pos
    simp only [byteLength, List.foldr_cons]
    omega
  have notLow : ¬(0xDC00 ≤ c.toNat ∧ c.toNat ≤ 0xDFFF) := by omega
  have notHigh : ¬(0xD800 ≤ c.toNat ∧ c.toNat ≤ 0xDBFF) := by omega
  simp [hexEscape, hexQuad, hexQuad?, long, zero, high, low, code, notLow, notHigh, bind,
    Except.bind]

/-- An escape sequence contributes the character that it stands for. -/
theorem characters_escape {text afterEscape cs rest : List Char} {c : Char} {limit : Nat}
    (first : escape text = .ok (c, afterEscape))
    (others : characters limit afterEscape = .ok (cs, rest))
    : characters (limit + 1) ('\\' :: text) = .ok (c :: cs, rest) := by
  simp [characters, first, others, bind, Except.bind]

/-- One more character is read from its escaped form. -/
theorem characters_escaped (c : Char) {limit : Nat} {text cs rest : List Char}
    (h : characters limit text = .ok (cs, rest))
    : characters (limit + 1) (Printer.escaped c ++ text) = .ok (c :: cs, rest) := by
  unfold Printer.escaped
  split_ifs with quote backslash backspace formFeed lineFeed carriageReturn tab control
  · subst quote
    exact characters_escape rfl h
  · subst backslash
    exact characters_escape rfl h
  · subst backspace
    exact characters_escape rfl h
  · subst formFeed
    exact characters_escape rfl h
  · subst lineFeed
    exact characters_escape rfl h
  · subst carriageReturn
    exact characters_escape rfl h
  · subst tab
    exact characters_escape rfl h
  · exact characters_escape (hexEscape_control control text) h
  · simp [characters, control, h, bind, Except.bind]

/-- The text between quotes is read as the characters that it spells, by induction on these. -/
theorem characters_flatMap_escaped (cs : List Char) {limit : Nat} (enough : cs.length < limit)
    (rest : List Char)
    : characters limit (cs.flatMap Printer.escaped ++ '"' :: rest) = .ok (cs, rest) := by
  induction cs generalizing limit with
  | nil =>
      cases limit with
      | zero => exact absurd enough (Nat.not_lt_zero _)
      | succ limit => simp [characters]
  | cons c cs ih =>
      cases limit with
      | zero => exact absurd enough (Nat.not_lt_zero _)
      | succ limit =>
          rw [List.flatMap_cons, List.append_assoc]
          exact characters_escaped c (ih (Nat.lt_of_succ_lt_succ enough))

theorem length_lt_length_string (s : String)
    : s.toList.length < (Printer.string s).length := by
  have atLeastOne : ∀ c, 1 ≤ (Printer.escaped c).length := by
    intro c
    unfold Printer.escaped
    split_ifs <;> simp
  have grows : s.toList.length ≤ (s.toList.flatMap Printer.escaped).length := by
    induction s.toList with
    | nil => simp
    | cons c cs ih =>
        have := atLeastOne c
        simp only [List.flatMap_cons, List.length_append, List.length_cons]
        omega
  simp only [Printer.string, List.length_cons, List.length_append, List.length_nil]
  omega

/-- A printed string is read back after its opening quote. -/
theorem string_tail (s : String) {limit : Nat} (enough : (Printer.string s).length ≤ limit)
    (rest : List Char)
    : string limit (s.toList.flatMap Printer.escaped ++ '"' :: rest) = .ok (s, rest) := by
  have short := length_lt_length_string s
  simp [string, characters_flatMap_escaped s.toList (by omega : s.toList.length < limit), bind,
    Except.bind]

end ZshStartup.Json.Reader
