import SqlComposer.Proofs.Number.WholeNumbers
import SqlComposer.Proofs.Params.Query
import SqlComposer.Proofs.Text.Trimming

/-!
# Limits and offsets

A limit and an offset are parameters of a query for rows.  Such a parameter sets its count
and changes nothing else in what is read (`Select.ofJson_count`): with it the parameters
are read as the same query with the count in it, or are refused with the same error.

A whole number can be written as a number or as a string of its digits, with blanks
around them.  The number is read as it is, in the whole range of the unsigned words.  The
digits are read as a double first (`Params.wholeCount`), which loses the last bits of a
number that has more of them than a double, and takes the last few words to the greatest.
So a string does not always say what the number says: it does exactly when the number is
among the doubles or is the greatest word (`Select.ofJson_wholeNumber`).
-/

namespace SqlComposer

set_option autoImplicit false

open Params Json
open Number (digits)

/-! ## One more member -/

section Members

variable {key : Text} {json : Json} {first rest : List (Text × Json)}

/-- A key that is not there has no value. -/
theorem Json.member?_eq_none {members : List (Text × Json)} (missing : key ∉ keys members) :
    member? key members = none := by
  refine List.lookup_eq_none_iff.mpr fun entry inMembers => bne_iff_ne.mpr fun same => missing ?_
  exact List.mem_map.mpr ⟨entry, inMembers, same.symm⟩

/-- A further member is found when its key is a new one. -/
theorem Json.member?_insert (isNew : key ∉ keys first) :
    member? key (first ++ (key, json) :: rest) = some json := by
  have before : first.lookup key = none := member?_eq_none isNew
  rw [member?, List.lookup_append, before, List.lookup_cons_self]
  rfl

/-- A further member does not hide the members of other keys. -/
theorem Json.member?_insert_of_ne {other : Text} (different : other ≠ key) :
    member? other (first ++ (key, json) :: rest) = member? other (first ++ rest) := by
  have notHere : (other == key) = false := beq_eq_false_iff_ne.mpr different
  rw [member?, member?, List.lookup_append, List.lookup_append, List.lookup_cons, notHere]

/-- A further member with a known key is let through or refused along with the others. -/
theorem Params.membersOf_insert (statement : StatementKind) {known : List Text}
    (isKnown : key ∈ known) :
    (membersOf statement known (.object (first ++ (key, json) :: rest)) =
        pure (first ++ (key, json) :: rest) ∧
      membersOf statement known (.object (first ++ rest)) = pure (first ++ rest)) ∨
    ∃ fault, membersOf statement known (.object (first ++ (key, json) :: rest)) = .error fault ∧
      membersOf statement known (.object (first ++ rest)) = .error fault := by
  have unknown : (keys (first ++ (key, json) :: rest)).find? (!known.contains ·) =
      (keys (first ++ rest)).find? (!known.contains ·) := by
    simp [keys, List.find?_append, isKnown]
  unfold membersOf
  dsimp only
  rw [unknown]
  cases (keys (first ++ rest)).find? (!known.contains ·) with
  | none => exact .inl ⟨rfl, rfl⟩
  | some key => exact .inr ⟨_, rfl, rfl⟩

end Members

/-! ## The counts of a query -/

namespace Select

/-- The clauses of a query for rows that hold a count. -/
inductive CountKey
  | limit
  | offset
  deriving DecidableEq

/-- The parameter of a count. -/
def CountKey.name : CountKey → Text
  | .limit => "limit"
  | .offset => "offset"

/-- The step that sets a count. -/
def CountKey.step : CountKey → UInt64 → Step
  | .limit => .limit
  | .offset => .offset

/-- The parameters of the clauses that hold no count. -/
def clauseParameters : List Text :=
  ["table", "columns", "fields", "joins", "where", "having", "group_by", "order_by"]

variable {json : Json} {first rest : List (Text × Json)} {count : UInt64}

/-- Parameters that differ in a count alone are read as queries that differ in it alone. -/
theorem ofJson_of_count (part : CountKey) {members others : List (Text × Json)}
    (known : membersOf .select parameterKeys (.object members) = pure members)
    (known' : membersOf .select parameterKeys (.object others) = pure others)
    (same : ∀ key, key ≠ part.name → member? key members = member? key others)
    (isCount : countOfJson part.name (memberOrNull part.name members) = .ok (some count))
    (noCount : memberOrNull part.name others = .null) :
    ofJson (.object members) = (·.apply (part.step count)) <$> ofJson (.object others) := by
  have different : ∀ key ∈ clauseParameters, key ≠ part.name := by cases part <;> decide
  have values : ∀ key ≠ part.name, memberOrNull key members = memberOrNull key others := by
    intro key notPart
    rw [memberOrNull, memberOrNull, same key notPart]
  have clauses : ∀ key ∈ clauseParameters, memberOrNull key members = memberOrNull key others :=
    fun key isClause => values key (different key isClause)
  have table : tableOf members = tableOf others := by
    rw [tableOf, tableOf, clauses "table" (by decide)]
  have columns : columnsOfMembers members = columnsOfMembers others := by
    unfold columnsOfMembers presentMember?
    rw [same "columns" (different _ (by decide)), same "fields" (different _ (by decide))]
  unfold ofJson
  simp only [known, known', pure_bind, map_bind]
  rw [table, columns, clauses "joins" (by decide), clauses "where" (by decide),
    clauses "having" (by decide), clauses "group_by" (by decide), clauses "order_by" (by decide)]
  cases part with
  | limit =>
      change countOfJson "limit" (memberOrNull "limit" members) = _ at isCount
      change memberOrNull "limit" others = _ at noCount
      rw [isCount, noCount, values "offset" (by decide)]
      rfl
  | offset =>
      change countOfJson "offset" (memberOrNull "offset" members) = _ at isCount
      change memberOrNull "offset" others = _ at noCount
      rw [isCount, noCount, values "limit" (by decide)]
      rfl

/-- The parameter of a count sets it in the query that is read without the parameter, if any is. -/
theorem ofJson_count (part : CountKey) (isCount : countOfJson part.name json = .ok (some count))
    (isNew : part.name ∉ keys (first ++ rest)) :
    ofJson (.object (first ++ (part.name, json) :: rest)) =
      (·.apply (part.step count)) <$> ofJson (.object (first ++ rest)) := by
  have isKnown : part.name ∈ parameterKeys := by cases part <;> decide
  have isNewBefore : part.name ∉ keys first := by
    rw [keys, List.map_append] at isNew
    exact fun before => isNew (List.mem_append_left _ before)
  have here : memberOrNull part.name (first ++ (part.name, json) :: rest) = json := by
    rw [memberOrNull, member?_insert isNewBefore]
    rfl
  have nothing : memberOrNull part.name (first ++ rest) = .null := by
    rw [memberOrNull, member?_eq_none isNew]
    rfl
  rcases membersOf_insert .select isKnown with ⟨known, known'⟩ | ⟨fault, refused, refused'⟩
  · exact ofJson_of_count part known known' (fun key => member?_insert_of_ne)
      ((congrArg (countOfJson part.name) here).trans isCount) nothing
  · unfold ofJson
    rw [refused, refused']
    rfl

end Select

/-! ## Counts that are whole numbers -/

/-- A whole number that an unsigned word holds is a JSON number of its own. -/
theorem Json.Number.ofInt?_word {number : Nat} (word : number < UInt64.size) :
    ofInt? number = some (.ofWord (.ofNat number)) := by
  have least : Int64.minValue.toInt ≤ (number : Int) :=
    Int.le_trans (by decide) (Int.natCast_nonneg number)
  unfold ofInt? ofWord
  rw [UInt64.toNat_ofNat_of_lt' word]
  split_ifs with signed larger unsigned
  · exact absurd larger (Int.not_lt.mpr signed.2)
  · rw [Int64.ofInt_eq_ofNat, UInt64.toInt64_ofNat']
  · rw [Int.toNat_natCast]
  · omega
  · omega

/-- The digits of an unsigned word are the literal of its JSON number. -/
theorem Json.Number.ofLiteral?_digits {number : Nat} (word : number < UInt64.size) :
    ofLiteral? (digits number) = some (.ofWord (.ofNat number)) := by
  have isWhole : (digits number).all (fun character => character.isDigit || character == '-') := by
    refine List.all_eq_true.mpr fun character member => ?_
    rw [SqlComposer.Number.isDigit_of_mem_digits member]
    rfl
  unfold ofLiteral?
  rw [DecimalLiteral.read?_digits]
  dsimp only
  rw [isWhole]
  change some ((ofInt? number).getD _) = _
  rw [ofInt?_word word]
  rfl

namespace Params

/-- The count that the digits of a whole number are read as. -/
def wholeCount (number : Nat) : Nat :=
  min (Double.nearestWhole number) (UInt64.size - 1)

/-- The digits of a word are read as that word exactly when it is among the doubles or is the
greatest word. -/
theorem wholeCount_eq_iff {number : Nat} (word : number < UInt64.size) :
    wholeCount number = number ↔
      Double.spacing number ∣ number ∨ number = UInt64.size - 1 := by
  have beyond : UInt64.size - 1 ≤ Double.nearestWhole (UInt64.size - 1) := by decide
  rw [← Double.nearestWhole_eq_iff, wholeCount]
  constructor
  · intro same
    omega
  · rintro (exact' | rfl)
    · omega
    · exact Nat.min_eq_right beyond

/-- The digits of a word, with blanks around them, are not blank and are read as its count. -/
theorem countOfJson_digits {number : Nat} (word : number < UInt64.size) {before after : Text}
    (blanks : ∀ character ∈ before ++ after, Text.isBlank character) (key : Text) :
    countOfJson key (.string (before ++ digits number ++ after)) =
      .ok (some (.ofNat (wholeCount number))) := by
  have trimmed : Text.trimmed (before ++ digits number ++ after) = digits number := by
    rw [Text.trimmed_surrounded _ blanks]
    have notBlank : ∀ character ∈ digits number, Text.isBlank character = false :=
      fun _ member => (Number.of_isDigit (Number.isDigit_of_mem_digits member)).2.2.2
    exact Text.trimmed_eq_self (fun _ first => notBlank _ (List.mem_of_mem_head? first))
      fun _ last => notBlank _ (List.mem_of_getLast? last)
  have notUnset : isUnset (.string (before ++ digits number ++ after)) = false := by
    rw [isUnset, trimmed]
    exact List.isEmpty_eq_false_iff.mpr Nat.toDigits_ne_nil
  have inRange : number.log2 < 1023 := by
    by_cases zero : number = 0
    · rw [zero, Nat.log2_zero]
      decide
    · have bits : number.log2 < 64 := (Nat.log2_lt zero).mpr word
      omega
  obtain ⟨significand, exponent, canonical, rounded, whole⟩ := Double.ofQuotient_whole inRange
  rw [countOfJson, notUnset, count?, trimmed, DecimalLiteral.read?_digits, Option.bind_some,
    DecimalLiteral.toDouble_word word, rounded, wholeCount, ← whole]
  rfl

end Params

/-- A limit or an offset that is written as a JSON number is set to that number, and one that is
written as a string of its digits to their count, which is that number exactly when it is among the
doubles or is the greatest word.  Nothing else depends on the parameter. -/
theorem Select.ofJson_wholeNumber (part : CountKey) {number : Nat} (word : number < UInt64.size)
    {before after : Text} (blanks : ∀ character ∈ before ++ after, Text.isBlank character)
    {first rest : List (Text × Json)} (isNew : part.name ∉ keys (first ++ rest)) :
    (∃ literal, Json.Number.ofLiteral? (digits number) = some literal ∧
      ofJson (.object (first ++ (part.name, .number literal) :: rest)) =
        (·.apply (part.step (.ofNat number))) <$> ofJson (.object (first ++ rest))) ∧
    ofJson (.object (first ++ (part.name, .string (before ++ digits number ++ after)) :: rest)) =
      (·.apply (part.step (.ofNat (wholeCount number)))) <$> ofJson (.object (first ++ rest)) ∧
    (wholeCount number = number ↔
      Double.spacing number ∣ number ∨ number = UInt64.size - 1) := by
  have ofNumber := ofJson_count part (countOfJson_ofWord part.name (.ofNat number)) isNew
  have ofString := ofJson_count part (countOfJson_digits word blanks part.name) isNew
  exact ⟨⟨_, Json.Number.ofLiteral?_digits word, ofNumber⟩, ofString, wholeCount_eq_iff word⟩

/-- The greatest word between a space and a line break. -/
theorem Select.ofJson_wholeNumber_greatestWord :
    ofJson (.object [("table", .string "items"), ("limit", .string " 18446744073709551615\n")]) =
      .ok { table := "items", limit := some 18446744073709551615 } := by
  have word : 18446744073709551615 < UInt64.size := by decide
  have blanks : ∀ character ∈ (" " : Text) ++ "\n", Text.isBlank character :=
    List.all_eq_true.mp rfl
  have isNew : CountKey.limit.name ∉ keys ([(("table" : Text), Json.string "items")] ++ []) := by
    decide
  obtain ⟨_, ofString, exact'⟩ := ofJson_wholeNumber .limit word blanks isNew
  rw [exact'.mpr (.inr rfl)] at ofString
  exact ofString

/-- A number with one bit more than a double has is read as it is, and its digits are read as the
even number below it. -/
theorem Select.lastBit_of_string_is_lost :
    ofJson (.object [("table", .string "items"),
        ("limit", .number (.int 9007199254740993))]) =
      .ok { table := "items", limit := some 9007199254740993 } ∧
    ofJson (.object [("table", .string "items"), ("limit", .string "9007199254740993")]) =
      .ok { table := "items", limit := some 9007199254740992 } := by
  constructor <;> rfl

end SqlComposer
