import ZshStartup.Proofs.Configuration.OlderPlugins
import ZshStartup.Proofs.Json.Scanning
import ZshStartup.Proofs.Text.Numbers
import ZshStartup.Script.Directive

/-! Wait times of version 1. A wait time is a number of seconds if it spells one that 64 bits can hold, as a
number or as text, and anything else means none; the directive of the plugin states it in decimal digits.
-/

namespace ZshStartup

open Json (Fields)

-----------------------------------------------------------------------------------------
-- Numerals
-----------------------------------------------------------------------------------------

namespace Numeral

/-- A numeral that spells an integer: no sign, no fraction, no exponent, and a value that 64 bits can hold. -/
structure SpellsInteger (numeral : Numeral) (n : UInt64) : Prop where
  unsigned : numeral.negative = false
  noFraction : numeral.fraction = none
  noExponent : numeral.exponent = none
  value : Nat.ofDigitChars 10 numeral.whole 0 = n.toNat

/-- If nothing is left over of digits, the significand is their value, by induction on the digits. -/
theorem absorb_eq_nil {significand value : Nat} {digits : List Char}
    (fits : significand < UInt64.size)
    (h : absorb significand digits = (value, []))
    : value < UInt64.size ∧ Nat.ofDigitChars 10 digits significand = value := by
  induction digits generalizing significand with
  | nil =>
      cases h
      exact ⟨fits, rfl⟩
  | cons c digits ih =>
      rw [absorb] at h
      split at h
      · next more => exact ih more h
      · cases h

theorem toNumber_eq_natural_iff {numeral : Numeral} {n : UInt64}
    : numeral.toNumber = .natural n ↔ numeral.SpellsInteger n := by
  constructor
  · intro natural
    cases absorbed : absorb 0 numeral.whole with
    | mk value excess =>
        simp only [toNumber, absorbed] at natural
        split at natural
        · next plain =>
            simp only [Bool.and_eq_true, Bool.not_eq_true', List.isEmpty_iff,
              Option.isNone_iff_eq_none] at plain
            obtain ⟨⟨⟨unsigned, rfl⟩, noFraction⟩, noExponent⟩ := plain
            obtain ⟨fits, same⟩ := absorb_eq_nil (by decide) absorbed
            cases natural
            exact ⟨unsigned, noFraction, noExponent,
              same.trans (UInt64.toNat_ofNat_of_lt' fits).symm⟩
        · cases natural
  · rintro ⟨unsigned, noFraction, noExponent, value⟩
    have fits : Nat.ofDigitChars 10 numeral.whole 0 < UInt64.size := value ▸ n.toNat_lt
    simp [toNumber, Json.Reader.absorb_of_lt fits, unsigned, noFraction, noExponent, value]

/-- Every 64-bit number is spelled by its decimal digits. -/
theorem exists_spellsInteger (n : UInt64) : ∃ numeral : Numeral, numeral.SpellsInteger n :=
  ⟨{ negative := false, whole := Nat.toDigits 10 n.toNat, fraction := none, exponent := none },
    rfl, rfl, rfl, Nat.ofDigitChars_ten_toDigits⟩

end Numeral

-----------------------------------------------------------------------------------------
-- Wait times
-----------------------------------------------------------------------------------------

namespace Legacy

/-- The seconds that a wait time means. -/
inductive WaitTime : Option Json → UInt64 → Prop
  | integer {numeral : Numeral} {n : UInt64} (spells : numeral.SpellsInteger n)
    : WaitTime (some (.number numeral.toNumber)) n
  | text {text : String} {n : UInt64} (spells : Text.SpellsPadded text.toList n.toNat)
    : WaitTime (some (.string text)) n
  | other {value : Option Json}
    (noInteger
      : ∀ (numeral : Numeral) (n : UInt64), numeral.SpellsInteger n →
          value ≠ some (.number numeral.toNumber))
    (noText
      : ∀ (text : String) (n : UInt64), Text.SpellsPadded text.toList n.toNat →
          value ≠ some (.string text))
    : WaitTime value 0

theorem WaitTime.waitSeconds_eq {value : Option Json} {n : UInt64} (means : WaitTime value n)
    : waitSeconds value = n := by
  cases means with
  | integer spells => rw [Numeral.toNumber_eq_natural_iff.mpr spells, waitSeconds]
  | text spells => rw [waitSeconds, Text.readUInt64?_trim_eq_some_iff.mpr spells, Option.getD_some]
  | other noInteger noText =>
      unfold waitSeconds
      split
      · next n =>
          obtain ⟨numeral, spells⟩ := Numeral.exists_spellsInteger n
          refine absurd ?_ (noInteger numeral n spells)
          rw [Numeral.toNumber_eq_natural_iff.mpr spells]
      · next text =>
          cases read : Text.readUInt64? (Text.trim text.toList) with
          | none => rfl
          | some n => exact absurd rfl (noText text n (Text.readUInt64?_trim_eq_some_iff.mp read))
      · rfl

theorem waitTime_waitSeconds (value : Option Json) : WaitTime value (waitSeconds value) := by
  unfold waitSeconds
  split
  · next n =>
      obtain ⟨numeral, spells⟩ := Numeral.exists_spellsInteger n
      rw [← Numeral.toNumber_eq_natural_iff.mpr spells]
      exact .integer spells
  · next text =>
      cases read : Text.readUInt64? (Text.trim text.toList) with
      | some n => exact .text (Text.readUInt64?_trim_eq_some_iff.mp read)
      | none =>
          refine .other (by simp) fun other n spells same => ?_
          cases same
          rw [Text.readUInt64?_trim_eq_some_iff.mpr spells] at read
          cases read
  · next noInteger noText =>
      refine .other (fun numeral n spells same => ?_) fun text _ _ => noText text
      rw [Numeral.toNumber_eq_natural_iff.mpr spells] at same
      exact noInteger n same

/-- Every wait time means exactly one number of seconds. -/
theorem waitTime_iff {value : Option Json} {n : UInt64}
    : WaitTime value n ↔ n = waitSeconds value := by
  constructor
  · exact fun means => means.waitSeconds_eq.symm
  · rintro rfl
    exact waitTime_waitSeconds value

/-- A plugin that is loaded after a wait waits as long as its wait time says, unless it gives a wait. -/
theorem wait_ofVersion {version : UInt64} (old : version < 2) {plugin : Fields}
    (waits
      : plugin.string? "loadType" = some "wait"
          ∨ plugin.string? "loadType" = some "wait lucid")
    (silent : ∀ value, (ownModifiers plugin).get? "wait" = some value → value = .null)
    : (Plugin.ofVersion version plugin).modifiers.wait
      = some (waitSeconds (plugin.get? "waitTime")) := by
  have older : (modifiers plugin).get? "wait"
      = some (.natural (waitSeconds (plugin.get? "waitTime"))) := by
    rw [get?_modifiers_wait, olderWait?, if_pos waits, Option.map_some]
  have supplies
      : ((supplied (ownModifiers plugin) (modifiers plugin)).get? "wait").bind Json.natural?
        = (((ownModifiers plugin).get? "wait").bind Json.natural?).or
            (((modifiers plugin).get? "wait").bind Json.natural?) :=
    bind_get?_supplied Json.natural? rfl
      (fun field member => (restated_of_mem_modifiers plugin field member).ne_null)
      fun value found => .inl (silent value found)
  have own : ((ownModifiers plugin).get? "wait").bind Json.natural? = none := by
    cases found : (ownModifiers plugin).get? "wait" with
    | none => rfl
    | some value =>
        rw [silent value found]
        rfl
  rw [modifiers_ofVersion plugin old]
  change ((supplied (ownModifiers plugin) (modifiers plugin)).get? "wait").bind Json.natural? = _
  rw [supplies, own, older]
  rfl

end Legacy

-----------------------------------------------------------------------------------------
-- Directives
-----------------------------------------------------------------------------------------

/-- Text without quotes is quoted as it is, by induction on its characters. -/
theorem Shell.flatMap_quoteChar_eq_self {text : List Char} (unquoted : '\'' ∉ text)
    : text.flatMap quoteChar = text := by
  induction text with
  | nil => rfl
  | cons c rest ih =>
      simp only [List.mem_cons, not_or] at unquoted
      obtain ⟨other, unquoted⟩ := unquoted
      rw [List.flatMap_cons, ih unquoted, quoteChar, if_neg (Ne.symm other), List.singleton_append]

/-- The word for a wait: a bare one where there is no delay, else one with the seconds in decimal. -/
theorem Modifier.token_wait (n : UInt64)
    : (wait n).token = if n = 0 then "wait" else "wait'" ++ toString n.toNat ++ "'" := by
  have unquoted : '\'' ∉ Nat.toDigits 10 n.toNat := fun member =>
    absurd (Nat.isDigit_of_mem_toDigits (by decide) (by decide) member) (by decide)
  rw [token]
  split
  · rfl
  · apply String.toList_inj.mp
    simp [digits, Shell.singleQuote, Shell.quoteChars, Shell.flatMap_quoteChar_eq_self unquoted]

theorem Ice.wait_mem_modifiers {ice : Ice} {n : UInt64} (waits : ice.wait = some n)
    : .wait n ∈ ice.modifiers :=
  List.mem_filterMap.mpr ⟨ice.wait.map .wait, by simp, by simp [waits]⟩

/-- Words with blanks before them start with a blank, and without any words what follows does. -/
theorem exists_join_append_eq (words : List String) (rest : String)
    : ∃ back, String.join (words.map (" " ++ ·)) ++ (" " ++ rest) = " " ++ back := by
  cases words with
  | nil => exact ⟨rest, by simp⟩
  | cons word words =>
      refine ⟨word ++ String.join (words.map (" " ++ ·)) ++ (" " ++ rest), ?_⟩
      apply String.toList_inj.mp
      simp

theorem Script.exists_withComment_eq (code : String) (comment : Option String)
    : ∃ behind, withComment code comment = code ++ behind := by
  unfold withComment
  split
  · next text _ => exact ⟨"  # " ++ text, by rw [String.append_assoc]⟩
  · exact ⟨"", by simp⟩

/-- A directive contains the word of each modifier, between blanks. -/
theorem Plugin.exists_directive_eq {plugin : Plugin} {ice : Ice} {token : String}
    (has : plugin.ice = some ice) (member : token ∈ ice.tokens)
    : ∃ front back, plugin.directive = front ++ " " ++ token ++ " " ++ back := by
  obtain ⟨before, after, tokens⟩ := List.append_of_mem member
  obtain ⟨behind, line⟩ := Script.exists_withComment_eq
    ("zinit" ++ String.join (ice.tokens.map (" " ++ ·)) ++ " for " ++ plugin.name)
    plugin.description
  obtain ⟨back, follows⟩ := exists_join_append_eq after ("for " ++ plugin.name ++ behind)
  refine ⟨"zinit" ++ String.join (before.map (" " ++ ·)), back, ?_⟩
  calc
    plugin.directive
    _ = "zinit" ++ String.join (ice.tokens.map (" " ++ ·)) ++ " for " ++ plugin.name ++ behind := by
      rw [directive, has]
      exact line
    _ = "zinit" ++ String.join (before.map (" " ++ ·)) ++ " " ++ token
        ++ (String.join (after.map (" " ++ ·)) ++ (" " ++ ("for " ++ plugin.name ++ behind))) := by
      rw [tokens]
      apply String.toList_inj.mp
      simp
    _ = _ := by
      rw [follows, ← String.append_assoc]

-----------------------------------------------------------------------------------------
-- Documents
-----------------------------------------------------------------------------------------

namespace Configuration

/-- In a document of version 1, a plugin that is loaded after a wait, and gives no wait among its modifiers,
waits the seconds that its wait time means, and its directive says so.
-/
theorem wait_normalize {raw : Json}
    (old : ∀ version, raw.fields.natural? "version" = some version → version < 2)
    {index : Nat} {fields : Fields}
    (listed : (raw.fields.records "plugins")[index]? = some fields)
    (waits
      : fields.string? "loadType" = some "wait"
          ∨ fields.string? "loadType" = some "wait lucid")
    (silent
      : ∀ value, (Legacy.ownModifiers fields).get? "wait" = some value → value = .null)
    : ∃ plugin ice seconds,
        (normalize raw).plugins[index]? = some plugin
        ∧ plugin.ice = some ice
        ∧ ice.wait = some seconds
        ∧ (∀ n, Legacy.WaitTime (fields.get? "waitTime") n ↔ n = seconds)
        ∧ let token := if seconds = 0 then "wait" else "wait'" ++ toString seconds.toNat ++ "'"
          token ∈ ice.tokens
          ∧ ∃ front back, plugin.directive = front ++ " " ++ token ++ " " ++ back := by
  have before : Legacy.version raw.fields < 2 := by
    unfold Legacy.version
    cases declared : raw.fields.natural? "version" with
    | none => decide
    | some version => exact old version declared
  obtain ⟨id, described⟩ := exists_getElem?_normalize listed
  have wait := Legacy.wait_ofVersion before waits silent
  generalize Plugin.ofVersion (Legacy.version raw.fields) fields = plugin at described wait
  unfold Plugin.modifiers at wait
  cases has : plugin.ice with
  | none => simp [has] at wait
  | some ice =>
      simp only [has, Option.getD_some] at wait
      have member := List.mem_map_of_mem (f := Modifier.token) (Ice.wait_mem_modifiers wait)
      rw [Modifier.token_wait] at member
      exact ⟨_, ice, _, described, has, wait, fun n => Legacy.waitTime_iff, member,
        Plugin.exists_directive_eq has member⟩

/-- A plugin whose wait time is the largest number, spelled with all that a number may be spelled with. -/
def patientPlugin : Fields :=
  [
    ("loadType", .string "wait lucid"), ("name", .string "a/b"),
    ("waitTime", .string "\t\u3000+0018446744073709551615\u00a0"),
    ("ice", .object [("wait", .null), ("pick", .string "x.zsh")])
  ]

def patientDocument : Json :=
  .object [("version", .natural 1), ("plugins", .array [.object [], .object patientPlugin])]

theorem wait_normalize_patientDocument
    : (∀ version, patientDocument.fields.natural? "version" = some version → version < 2)
      ∧ (patientDocument.fields.records "plugins")[1]? = some patientPlugin
      ∧ patientPlugin.string? "loadType" = some "wait lucid"
      ∧ (∀ value, (Legacy.ownModifiers patientPlugin).get? "wait" = some value → value = .null)
      ∧ ∃ plugin ice,
          (normalize patientDocument).plugins[1]? = some plugin
          ∧ plugin.ice = some ice
          ∧ ice.wait = some 18446744073709551615
          ∧ "wait'18446744073709551615'" ∈ ice.tokens := by
  have old : ∀ version, patientDocument.fields.natural? "version" = some version → version < 2 := by
    intro version declared
    cases declared
    decide
  have listed : (patientDocument.fields.records "plugins")[1]? = some patientPlugin := rfl
  have waits : patientPlugin.string? "loadType" = some "wait lucid" := rfl
  have silent : ∀ value,
      (Legacy.ownModifiers patientPlugin).get? "wait" = some value → value = .null := by
    intro value found
    cases found
    rfl
  obtain ⟨plugin, ice, seconds, described, has, wait, means, token, -⟩ :=
    wait_normalize old listed (.inr waits) silent
  have most : 18446744073709551615 = seconds := by
    apply (means _).mp
    rw [Legacy.waitTime_iff]
    decide
  subst most
  have spelled : "wait'" ++ toString (18446744073709551615 : UInt64).toNat ++ "'"
      = "wait'18446744073709551615'" := by
    decide
  rw [if_neg (by decide), spelled] at token
  exact ⟨old, listed, waits, silent, plugin, ice, described, has, wait, token⟩

end Configuration

end ZshStartup
