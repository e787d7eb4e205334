import ZshStartup.Proofs.Json.Scanning
import Mathlib.Data.List.Nodup

/-! Reading a value back from its text. The printer loses nothing of a value that is storable: its
numbers are natural, no object of it has a key twice, and its containers do not nest too deep.
-/

namespace ZshStartup.Json

open Reader

/-- A value that a text can hold as it is, in which containers nest at most `depth` deep. -/
inductive Storable : (depth : Nat) → Json → Prop
  | null {depth} : Storable depth .null
  | bool {depth} (b : Bool) : Storable depth (.bool b)
  | natural {depth} (n : UInt64) : Storable depth (.natural n)
  | string {depth} (s : String) : Storable depth (.string s)
  | array {depth} {items : List Json} (each : ∀ item ∈ items, Storable depth item)
    : Storable (depth + 1) (.array items)
  | object {depth} {fields : Fields} (distinct : (fields.map Prod.fst).Nodup)
    (each : ∀ field ∈ fields, Storable depth field.2)
    : Storable (depth + 1) (.object fields)

/-- Fields with distinct keys are what they amount to, by induction with the fields already seen. -/
theorem Fields.ofEntries_of_nodup {fields : Fields} (distinct : (fields.map Prod.fst).Nodup)
    : Fields.ofEntries fields = fields := by
  have absent : ∀ (seen : Fields) (key : String) (value : Json),
      key ∉ seen.map Prod.fst → seen.insert key value = seen ++ [(key, value)] := by
    intro seen key value
    induction seen with
    | nil => simp [Fields.insert]
    | cons field seen ih =>
        intro new
        simp only [List.map_cons, List.mem_cons, not_or] at new
        simp [Fields.insert, Ne.symm new.1, ih new.2]
  suffices h : ∀ seen : Fields, ((seen ++ fields).map Prod.fst).Nodup
      → fields.foldl (fun all entry => Fields.insert all entry.1 entry.2) seen = seen ++ fields by
    simpa [Fields.ofEntries] using h [] (by simpa using distinct)
  clear distinct
  induction fields with
  | nil => simp
  | cons field fields ih =>
      intro seen distinct
      have new : field.1 ∉ seen.map Prod.fst := by
        rw [List.map_append, List.map_cons] at distinct
        intro old
        exact (List.nodup_append.mp distinct).2.2 field.1 old field.1 (by simp) rfl
      rw [List.foldl_cons, absent seen field.1 field.2 new,
        ih (seen ++ [field]) (by simpa using distinct)]
      simp

-----------------------------------------------------------------------------------------
-- The shape of printed values
-----------------------------------------------------------------------------------------

/-- A text that begins neither with a blank nor by closing an array. -/
def StartsValue (text : List Char) : Prop :=
  ∃ c rest, text = c :: rest ∧ Reader.isBlank c = false ∧ c ≠ ']'

theorem startsValue_cons {c : Char} (blank : Reader.isBlank c = false) (other : c ≠ ']')
    (rest : List Char)
    : StartsValue (c :: rest) :=
  ⟨c, rest, rfl, blank, other⟩

theorem startsValue_of_isDigit {text : List Char} (nonempty : text ≠ [])
    (digit : ∀ c ∈ text, c.isDigit = true)
    : StartsValue text := by
  cases text with
  | nil => exact absurd rfl nonempty
  | cons c rest =>
      have first := digit c (by simp)
      refine startsValue_cons ?_ ?_ rest
      · have range := Char.isDigit_iff_toNat.mp first
        by_contra blank
        simp only [Reader.isBlank, Bool.not_eq_false, Bool.or_eq_true, beq_iff_eq] at blank
        rcases blank with ((rfl | rfl) | rfl) | rfl <;> simp at range
      · rintro rfl
        simp at first

theorem Storable.startsValue {depth : Nat} {json : Json} (h : Storable depth json) (level : Nat)
    : StartsValue (Printer.value level json) := by
  cases h with
  | null => exact startsValue_cons rfl (by decide) _
  | bool b => cases b <;> exact startsValue_cons rfl (by decide) _
  | natural n =>
      exact startsValue_of_isDigit Nat.toDigits_ne_nil
        (fun c member => Nat.isDigit_of_mem_toDigits (by decide) (by decide) member)
  | string s => exact startsValue_cons rfl (by decide) _
  | @array _ items each => cases items <;> exact startsValue_cons rfl (by decide) _
  | @object _ fields _ each => cases fields <;> exact startsValue_cons rfl (by decide) _

theorem length_moreItems (level : Nat) (items : List Json)
    : items.length ≤ (Printer.moreItems level items).length
      ∧ ∀ item ∈ items,
          (Printer.value level item).length ≤ (Printer.moreItems level items).length := by
  induction items with
  | nil => simp
  | cons head items ih =>
      simp only [Printer.moreItems, List.length_cons, List.length_append, List.mem_cons]
      refine ⟨by omega, ?_⟩
      rintro item (rfl | member)
      · omega
      · have := ih.2 item member
        omega

theorem length_moreFields (level : Nat) (fields : Fields)
    : fields.length ≤ (Printer.moreFields level fields).length
      ∧ ∀ field ∈ fields,
          (Printer.member level field).length ≤ (Printer.moreFields level fields).length := by
  induction fields with
  | nil => simp
  | cons head fields ih =>
      simp only [Printer.moreFields, List.length_cons, List.length_append, List.mem_cons]
      refine ⟨by omega, ?_⟩
      rintro field (rfl | member)
      · omega
      · have := ih.2 field member
        omega

-----------------------------------------------------------------------------------------
-- Containers
-----------------------------------------------------------------------------------------

/-- A reader that finds a value where it was printed, and leaves the rest unread. -/
def Reads (item : Reader Json) (level : Nat) (json : Json) : Prop :=
  ∀ rest, EndsNumeral rest → item (Printer.value level json ++ rest) = .ok (json, rest)

theorem endsNumeral_moreItems (level outer : Nat) (items : List Json) (after : List Char)
    : EndsNumeral (Printer.moreItems level items ++ (Printer.newline outer ++ after)) := by
  cases items <;> simp [EndsNumeral, Printer.moreItems, Printer.newline]

theorem endsNumeral_moreFields (level outer : Nat) (fields : Fields) (after : List Char)
    : EndsNumeral (Printer.moreFields level fields ++ (Printer.newline outer ++ after)) := by
  cases fields <;> simp [EndsNumeral, Printer.moreFields, Printer.newline]

/-- The elements of an array are read one after the other, by induction on those after the first. -/
theorem elements_moreItems {item : Reader Json} {level limit : Nat} (outer : Nat) {first : Json}
    {items : List Json} (enough : items.length < limit)
    (starts : ∀ json ∈ first :: items, StartsValue (Printer.value level json))
    (reads : ∀ json ∈ first :: items, Reads item level json) (after : List Char)
    : elements item limit
          (Printer.value level first
            ++ (Printer.moreItems level items ++ (Printer.newline outer ++ ']' :: after)))
      = .ok (first :: items, after) := by
  induction items generalizing first limit with
  | nil =>
      obtain ⟨limit, rfl⟩ := Nat.exists_eq_succ_of_ne_zero (Nat.ne_of_gt enough)
      have here := reads first (by simp) _ (endsNumeral_moreItems level outer [] (']' :: after))
      have close : skipBlanks (']' :: after) = ']' :: after := skipBlanks_cons rfl after
      rw [elements, here]
      simp [Printer.moreItems, close, bind, Except.bind]
  | cons next items ih =>
      obtain ⟨limit, rfl⟩ := Nat.exists_eq_succ_of_ne_zero (Nat.ne_of_gt (Nat.zero_lt_of_lt enough))
      have here := reads first (by simp) _
        (endsNumeral_moreItems level outer (next :: items) (']' :: after))
      have laterStarts : ∀ json ∈ next :: items, StartsValue (Printer.value level json) :=
        fun json member => starts json (List.mem_cons_of_mem first member)
      have laterReads : ∀ json ∈ next :: items, Reads item level json :=
        fun json member => reads json (List.mem_cons_of_mem first member)
      have others := ih (Nat.lt_of_succ_lt_succ enough) laterStarts laterReads
      obtain ⟨c, text, printed, blank, other⟩ := laterStarts next (by simp)
      have comma : ∀ rest, skipBlanks (',' :: rest) = ',' :: rest := skipBlanks_cons rfl
      rw [printed, List.cons_append] at others
      rw [elements, here]
      simp [Printer.moreItems, printed, comma, skipBlanks_cons blank, other, others, bind,
        Except.bind]

/-- A field is read with its key. -/
theorem field_member {item : Reader Json} {level limit : Nat} {key : String} {json : Json}
    (enough : (Printer.string key).length ≤ limit) (reads : Reads item level json)
    (blanks : ∀ text, item (' ' :: text) = item text) {rest : List Char}
    (ends : EndsNumeral rest)
    : field limit item (Printer.member level (key, json) ++ rest) = .ok ((key, json), rest) := by
  have colon : ∀ rest, skipBlanks (':' :: rest) = ':' :: rest := skipBlanks_cons rfl
  simp [Printer.member, Printer.string, field, string_tail key enough, colon, blanks,
    reads rest ends, bind, Except.bind]

theorem member_eq_quote_cons (level : Nat) (field : String × Json)
    : ∃ text, Printer.member level field = '"' :: text := by
  obtain ⟨key, json⟩ := field
  exact ⟨_, rfl⟩

/-- The fields of an object are read one after the other, by induction on those after the first. -/
theorem members_moreFields {member : Reader (String × Json)} {level limit : Nat} (outer : Nat)
    {first : String × Json} {fields : Fields} (enough : fields.length < limit)
    (reads : ∀ field ∈ first :: fields, ∀ rest, EndsNumeral rest →
      member (Printer.member level field ++ rest) = .ok (field, rest))
    (after : List Char)
    : members member limit
          (Printer.member level first
            ++ (Printer.moreFields level fields ++ (Printer.newline outer ++ '\x7d' :: after)))
      = .ok (first :: fields, after) := by
  induction fields generalizing first limit with
  | nil =>
      obtain ⟨limit, rfl⟩ := Nat.exists_eq_succ_of_ne_zero (Nat.ne_of_gt enough)
      have here := reads first (by simp) _
        (endsNumeral_moreFields level outer [] ('\x7d' :: after))
      have close : skipBlanks ('\x7d' :: after) = '\x7d' :: after := skipBlanks_cons rfl after
      rw [members, here]
      simp [Printer.moreFields, close, bind, Except.bind]
  | cons next fields ih =>
      obtain ⟨limit, rfl⟩ := Nat.exists_eq_succ_of_ne_zero (Nat.ne_of_gt (Nat.zero_lt_of_lt enough))
      have here := reads first (by simp) _
        (endsNumeral_moreFields level outer (next :: fields) ('\x7d' :: after))
      have laterReads : ∀ field ∈ next :: fields, ∀ rest, EndsNumeral rest →
          member (Printer.member level field ++ rest) = .ok (field, rest) :=
        fun field later => reads field (List.mem_cons_of_mem first later)
      have others := ih (Nat.lt_of_succ_lt_succ enough) laterReads
      have comma : ∀ rest, skipBlanks (',' :: rest) = ',' :: rest := skipBlanks_cons rfl
      have quote : ∀ rest, skipBlanks ('"' :: rest) = '"' :: rest := skipBlanks_cons rfl
      obtain ⟨text, opened⟩ := member_eq_quote_cons level next
      rw [opened, List.cons_append] at others
      rw [members, here]
      simp [Printer.moreFields, opened, comma, quote, others, bind, Except.bind]

-----------------------------------------------------------------------------------------
-- Values
-----------------------------------------------------------------------------------------

theorem value_eq_valueWith (limit depth : Nat)
    : ∃ container, Reader.value limit depth = valueWith limit container := by
  cases depth <;> exact ⟨_, rfl⟩

theorem value_blank_cons (limit depth : Nat) (text : List Char)
    : Reader.value limit depth (' ' :: text) = Reader.value limit depth text := by
  obtain ⟨container, eq⟩ := value_eq_valueWith limit depth
  rw [eq]
  rfl

theorem valueWith_decimal (limit : Nat) (container : Reader Json) (level : Nat) (n : UInt64)
    : Reads (valueWith limit container) level (.natural n) := by
  intro rest ends
  have digit : ∀ c ∈ Printer.decimal n.toNat, c.isDigit = true :=
    fun c member => Nat.isDigit_of_mem_toDigits (by decide) (by decide) member
  have read := number_decimal n ends
  have starts : StartsValue (Printer.decimal n.toNat) :=
    startsValue_of_isDigit Nat.toDigits_ne_nil digit
  obtain ⟨c, text, spelled, blank, -⟩ := starts
  have first : c.isDigit = true := digit c (by simp [spelled])
  have other : ∀ d, d.isDigit = false → c ≠ d := by
    rintro d no rfl
    exact absurd first (by simp [no])
  rw [spelled, List.cons_append] at read
  simp [Printer.value, Printer.number, Json.natural, spelled, valueWith, skipBlanks_cons blank, first,
    read, other 'n' rfl, other 't' rfl, other 'f' rfl, other '"' rfl, other '-' rfl, other '[' rfl,
    other '\x7b' rfl]

/-- An array is read where it was printed if each of its elements is. -/
theorem reads_array {limit depth level : Nat} {items : List Json}
    (enough : (Printer.value level (.array items)).length ≤ limit)
    (starts : ∀ item ∈ items, StartsValue (Printer.value (level + 1) item))
    (reads
      : ∀ item ∈ items,
          (Printer.value (level + 1) item).length ≤ limit
          → Reads (Reader.value limit depth) (level + 1) item)
    : Reads (Reader.value limit (depth + 1)) level (.array items) := by
  intro rest _
  have bracket : ∀ text, skipBlanks ('[' :: text) = '[' :: text := skipBlanks_cons rfl
  cases items with
  | nil =>
      have close : skipBlanks (']' :: rest) = ']' :: rest := skipBlanks_cons rfl rest
      simp [Printer.value, Reader.value, valueWith, container, Reader.array, bracket, close]
  | cons first items =>
      obtain ⟨count, shorter⟩ := length_moreItems (level + 1) items
      simp only [Printer.value, List.length_append, List.length_cons] at enough
      have fewer : items.length < limit := by omega
      have each : ∀ item ∈ first :: items, Reads (Reader.value limit depth) (level + 1) item := by
        intro item member
        refine reads item member ?_
        rcases List.mem_cons.mp member with rfl | later
        · omega
        · have := shorter item later
          omega
      have body := elements_moreItems level fewer starts each rest
      obtain ⟨c, text, printed, blank, other⟩ := starts first (by simp)
      rw [printed, List.cons_append] at body
      simp [Printer.value, Reader.value, valueWith, container, Reader.array, bracket, printed,
        skipBlanks_cons blank, other, body, bind, Except.bind]

/-- An object with distinct keys is read where it was printed if the values of its fields are. -/
theorem reads_object {limit depth level : Nat} {fields : Fields}
    (enough : (Printer.value level (.object fields)).length ≤ limit)
    (distinct : (fields.map Prod.fst).Nodup)
    (reads
      : ∀ field ∈ fields,
          (Printer.value (level + 1) field.2).length ≤ limit
          → Reads (Reader.value limit depth) (level + 1) field.2)
    : Reads (Reader.value limit (depth + 1)) level (.object fields) := by
  intro rest _
  have brace : ∀ text, skipBlanks ('\x7b' :: text) = '\x7b' :: text := skipBlanks_cons rfl
  cases fields with
  | nil =>
      have close : skipBlanks ('\x7d' :: rest) = '\x7d' :: rest := skipBlanks_cons rfl rest
      simp [Printer.value, Reader.value, valueWith, container, Reader.object, brace, close]
  | cons first fields =>
      obtain ⟨count, shorter⟩ := length_moreFields (level + 1) fields
      simp only [Printer.value, List.length_append, List.length_cons] at enough
      have fewer : fields.length < limit := by omega
      have each : ∀ field ∈ first :: fields, ∀ rest, EndsNumeral rest →
          Reader.field limit (Reader.value limit depth)
              (Printer.member (level + 1) field ++ rest)
            = .ok (field, rest) := by
        rintro ⟨key, json⟩ member rest ends
        have fits : (Printer.member (level + 1) (key, json)).length ≤ limit := by
          rcases List.mem_cons.mp member with rfl | later
          · omega
          · have := shorter (key, json) later
            omega
        simp only [Printer.member, List.length_append] at fits
        have deeper : (Printer.value (level + 1) json).length ≤ limit := by omega
        exact field_member (by omega) (reads (key, json) member deeper)
          (value_blank_cons limit depth) ends
      have body := members_moreFields level fewer each rest
      obtain ⟨text, opened⟩ := member_eq_quote_cons (level + 1) first
      have quote : ∀ text, skipBlanks ('"' :: text) = '"' :: text := skipBlanks_cons rfl
      rw [opened, List.cons_append] at body
      simp [Printer.value, Reader.value, valueWith, container, Reader.object, brace, opened, quote,
        body, Fields.ofEntries_of_nodup distinct, bind, Except.bind]

/-- What is printed of a storable value is read as that value, by induction on how it nests. -/
theorem Storable.reads {depth : Nat} {json : Json} (h : Storable depth json) {limit level : Nat}
    (enough : (Printer.value level json).length ≤ limit)
    : Reads (Reader.value limit depth) level json := by
  induction h generalizing level with
  | @null depth =>
      obtain ⟨container, eq⟩ := value_eq_valueWith limit depth
      rw [eq]
      exact fun rest _ => rfl
  | @bool depth b =>
      obtain ⟨container, eq⟩ := value_eq_valueWith limit depth
      rw [eq]
      cases b <;> exact fun rest _ => rfl
  | @natural depth n =>
      obtain ⟨container, eq⟩ := value_eq_valueWith limit depth
      rw [eq]
      exact valueWith_decimal limit container level n
  | @string depth s =>
      obtain ⟨container, eq⟩ := value_eq_valueWith limit depth
      have quote : ∀ rest, skipBlanks ('"' :: rest) = '"' :: rest := skipBlanks_cons rfl
      intro rest _
      rw [eq]
      simp [Printer.value, Printer.string, valueWith, quote,
        string_tail s (by simpa [Printer.value] using enough), bind, Except.bind]
  | array each ih =>
      exact reads_array enough (fun item member => (each item member).startsValue _)
        (fun item member fits => ih item member fits)
  | object distinct each ih =>
      exact reads_object enough distinct (fun field member fits => ih field member fits)

/-- Reading undoes printing, for every value that a text can hold. -/
theorem read_pretty {json : Json} (h : Storable maxDepth json) : read (pretty json) = .ok json := by
  have reads : Reads (Reader.value (Printer.value 0 json).length maxDepth) 0 json :=
    h.reads (Nat.le_refl _)
  have whole := reads [] endsNumeral_nil
  rw [List.append_nil] at whole
  simp [read, pretty, whole, skipBlanks, bind, Except.bind]

end ZshStartup.Json
