import SqlComposer.Json.Basic
import SqlComposer.Statement.Kind

/-!
# Errors

An `Error` says why no statement, or no answer, came about.  There are nine
kinds (`Error.kind`), and within a kind the cause is a constructor that carries
what the wording needs: the name that is missing, the key that is unknown, the
kind of JSON value that was found.  The wording itself is in one place, the
`phrase` of each cause and `Error.message`, so that everything else speaks about
causes.

Callers may also raise an error in words of their own; each kind that allows it
has a constructor `described` for that.
-/

namespace SqlComposer

set_option autoImplicit false

open Text (ticked)

/-- The kind of JSON value that was found, at the end of an error text. -/
def foundPhrase (found : Json.Kind) : Text :=
  ", got " ++ found.phrase

/-! ## Something required is missing -/

/-- A required input or result that is not there. -/
inductive MissingField
  | table
  | data
  | deletionFilter
  | insertColumn (column : Text) (row : Nat)
  | joinTable
  | onConditions (joined : Text)
  | usingColumns (joined : Text)
  | joinConstraint (joined : Text)
  | comparedColumn
  | comparedColumnOf (operator : Text)
  | operatorFor (column : Text)
  | markerValue (name : Text)
  | listedTable
  | resultColumn (column : Text)
  | describedName
  | describedType (column : Text)
  | described (words : Text)
  deriving DecidableEq

def MissingField.phrase : MissingField → Text
  | .table => "table"
  | .data => "data"
  | .deletionFilter => "where (use allow_delete_all(true) to delete every row)"
  | .insertColumn column row =>
      "column " ++ ticked column ++ " in insert row " ++ Number.digits row
  | .joinTable => "join table"
  | .onConditions joined => "ON conditions for join " ++ joined
  | .usingColumns joined => "USING columns for join " ++ joined
  | .joinConstraint joined => "ON or USING for join " ++ joined
  | .comparedColumn => "field"
  | .comparedColumnOf operator => "field for " ++ ticked operator
  | .operatorFor column => "operator for field " ++ ticked column
  | .markerValue name => "value for :" ++ name
  | .listedTable => "table name in SHOW TABLES row"
  | .resultColumn column => column ++ " column in result"
  | .describedName => "Field column in DESCRIBE row"
  | .describedType column => "Type column for " ++ ticked column
  | .described words => words

/-! ## A condition has the wrong shape -/

/-- Why a JSON value is no condition. -/
inductive ConditionFault
  | listShape (found : Json.Kind)
  | entryShape (found : Json.Kind)
  | nestedGroup
  | memberShape (found : Json.Kind)
  | unknownKey (key : Text)
  | emptyObject
  | columnNotString
  | flagExpected (key : Text) (found : Json.Kind)
  | textExpected (key : Text) (found : Json.Kind)
  | listExpected (key : Text)
  | pairExpected (key : Text)
  | described (words : Text)
  deriving DecidableEq

def ConditionFault.phrase : ConditionFault → Text
  | .listShape found => "expected a string, object or array of conditions" ++ foundPhrase found
  | .entryShape found => "a condition must be a string, object or array" ++ foundPhrase found
  | .nestedGroup => "OR-groups cannot be nested"
  | .memberShape found => "an OR-group member must be a string or object" ++ foundPhrase found
  | .unknownKey key => "unknown condition key " ++ ticked key
  | .emptyObject => "empty condition object"
  | .columnNotString => ticked "field" ++ " must be a string"
  | .flagExpected key found =>
      ticked key ++ " with a field expects true or false" ++ foundPhrase found
  | .textExpected key found => ticked key ++ " expects text" ++ foundPhrase found
  | .listExpected key => ticked key ++ " expects a list of values"
  | .pairExpected key => ticked key ++ " expects a two-element array"
  | .described words => words

/-! ## Keys contradict each other -/

/-- Keys that cannot be read together. -/
inductive KeyClash
  | operators (keys : List Text)
  | conditionKeys (keys : List Text)
  | twoColumnKeys
  | twoProjections
  | twoConstraints (table : Text)
  | described (words : Text)
  deriving DecidableEq

def KeyClash.phrase : KeyClash → Text
  | .operators keys => "one operator expected, found " ++ Text.joined ", " keys
  | .conditionKeys keys =>
      "condition without " ++ ticked "field" ++ " must have a single key, found "
        ++ Text.joined ", " keys
  | .twoColumnKeys => "both " ++ ticked "field" ++ " and " ++ ticked "column" ++ " given"
  | .twoProjections => "both " ++ ticked "columns" ++ " and " ++ ticked "fields" ++ " given"
  | .twoConstraints table =>
      "join " ++ table ++ " has both " ++ ticked "on" ++ " and " ++ ticked "using"
  | .described words => words

/-! ## A name is no identifier -/

/-- Why a name is no identifier. -/
inductive IdentifierFault
  | emptySegment
  | nulCharacter
  | severalAliases
  | tablePathTooLong
  | columnPathTooLong
  | described (words : Text)
  deriving DecidableEq

def IdentifierFault.phrase : IdentifierFault → Text
  | .emptySegment => "empty identifier segment"
  | .nulCharacter => "identifier cannot contain NUL character"
  | .severalAliases => "more than one ' AS ' separator"
  | .tablePathTooLong => "expected at most " ++ ticked "database.table"
  | .columnPathTooLong => "expected at most " ++ ticked "database.table.column"
  | .described words => words

/-! ## A join has the wrong shape -/

/-- Why a JSON value or a word is no join. -/
inductive JoinFault
  | unknownKind (word : Text)
  | listShape (found : Json.Kind)
  | entryShape (found : Json.Kind)
  | tupleLength (count : Nat)
  | kindNotString
  | unknownKey (key : Text)
  | usingShape (found : Json.Kind)
  | usingNotStrings
  deriving DecidableEq

def JoinFault.phrase : JoinFault → Text
  | .unknownKind word => "unknown join type '" ++ word ++ "'"
  | .listShape found => "expected an array of joins" ++ foundPhrase found
  | .entryShape found => "a join must be a tuple or an object" ++ foundPhrase found
  | .tupleLength count =>
      "a join tuple is [type, table, on], got " ++ Number.digits count ++ " elements"
  | .kindNotString => "join type must be a string"
  | .unknownKey key => "unknown join key " ++ ticked key
  | .usingShape found => ticked "using" ++ " must be a string or array" ++ foundPhrase found
  | .usingNotStrings => ticked "using" ++ " columns must be strings"

/-! ## A projection has the wrong shape -/

/-- Why a projected column cannot be read or rendered. -/
inductive ColumnFault
  | listShape (found : Json.Kind)
  | entryShape (found : Json.Kind)
  | unknownKey (key : Text)
  | fieldAndAlias
  | sourceShape (aliasName : Text)
  | argumentShape (found : Json.Kind)
  | argumentsNotStrings
  | oneArgument (function : Text) (count : Nat)
  | someArgument (function : Text)
  | functionName (name : Text)
  | emptyAlias
  deriving DecidableEq

def ColumnFault.phrase : ColumnFault → Text
  | .listShape found => "columns must be a string, array or object" ++ foundPhrase found
  | .entryShape found => "a column entry must be a string or object" ++ foundPhrase found
  | .unknownKey key => "unknown column key " ++ ticked key
  | .fieldAndAlias =>
      "a column object needs string " ++ ticked "field" ++ " and " ++ ticked "alias"
  | .sourceShape aliasName =>
      ticked aliasName ++ " must map to an expression or a single-key function object"
  | .argumentShape found =>
      "function arguments must be a string or array" ++ foundPhrase found
  | .argumentsNotStrings => "function arguments must be strings"
  | .oneArgument function count =>
      ticked function ++ " takes exactly one column, got " ++ Number.digits count
  | .someArgument function => ticked function ++ " needs at least one argument"
  | .functionName name => "'" ++ name ++ "' is not a function name"
  | .emptyAlias => "column alias cannot be empty"

/-! ## A value cannot be used -/

/-- Why a value cannot be read or encoded. -/
inductive ValueFault
  | notFinite (number : Text)
  | functionNotAllowed (function : Text)
  | functionObject
  | misplacedList
  | tooFewValues (given : Nat)
  | tooManyValues (used given : Nat)
  | parametersShape (statement : StatementKind) (found : Json.Kind)
  | unknownParameter (statement : StatementKind) (key : Text)
  | tableShape (found : Json.Kind)
  | insertDataShape (found : Json.Kind)
  | insertRowShape (found : Json.Kind)
  | updateDataShape (found : Json.Kind)
  | flagShape (key : Text) (found : Json.Kind)
  | stringsShape (key : Text) (found : Json.Kind)
  | stringsEntry (key : Text)
  | countShape (key : Text) (given : Text)
  | badUuid (text : Text)
  | described (words : Text)
  deriving DecidableEq

def ValueFault.phrase : ValueFault → Text
  | .notFinite number => "cannot encode non-finite number " ++ number
  | .functionNotAllowed function => "function " ++ ticked function ++ " is not in the allowed set"
  | .functionObject => "a function value must be an object with exactly one key"
  | .misplacedList =>
      "a list is only valid as an " ++ ticked "in" ++ ", " ++ ticked "not_in" ++ " or "
        ++ ticked "between" ++ " operand"
  | .tooFewValues given =>
      "template has more " ++ ticked "?" ++ " markers than the " ++ Number.digits given
        ++ " values given"
  | .tooManyValues used given =>
      "template has " ++ Number.digits used ++ " " ++ ticked "?" ++ " markers but "
        ++ Number.digits given ++ " values were given"
  | .parametersShape statement found =>
      statement.word ++ " parameters must be an object" ++ foundPhrase found
  | .unknownParameter statement key =>
      "unknown " ++ statement.word ++ " parameter " ++ ticked key
  | .tableShape found => ticked "table" ++ " must be a string" ++ foundPhrase found
  | .insertDataShape found => ticked "data" ++ " must be an object or array" ++ foundPhrase found
  | .insertRowShape found => "insert rows must be objects" ++ foundPhrase found
  | .updateDataShape found => ticked "data" ++ " must be an object" ++ foundPhrase found
  | .flagShape key found => ticked key ++ " must be a boolean" ++ foundPhrase found
  | .stringsShape key found => ticked key ++ " must be a string or array" ++ foundPhrase found
  | .stringsEntry key => ticked key ++ " entries must be strings"
  | .countShape key given =>
      ticked key ++ " must be a non-negative integer, got " ++ given
  | .badUuid text => "server returned bad uuid '" ++ text ++ "'"
  | .described words => words

/-! ## The database client reports a failure -/

/-- A failure that the database client reported, with the SQL that failed. -/
structure ClientFailure where
  code : Option Text
  message : Text
  sql : Text
  deriving DecidableEq

/-- The wording of a client failure: the code in brackets, if there is one, and the message. -/
def ClientFailure.phrase (failure : ClientFailure) : Text :=
  match failure.code with
  | some code => "[" ++ code ++ "] " ++ failure.message
  | none => failure.message

/-! ## All errors -/

/-- Why no statement, or no answer, came about. -/
inductive Error
  | missingField (missing : MissingField)
  | conditionShape (fault : ConditionFault)
  | ambiguousKeys (clash : KeyClash)
  | invalidIdentifier (raw : Text) (fault : IdentifierFault)
  | joinShape (fault : JoinFault)
  | columnShape (fault : ColumnFault)
  | invalidValue (fault : ValueFault)
  | rowMismatch (row : Nat) (unexpectedColumn : Text)
  | client (failure : ClientFailure)
  deriving DecidableEq

namespace Error

/-- The nine kinds of errors. -/
inductive Kind
  | missingField
  | conditionShape
  | ambiguousKeys
  | invalidIdentifier
  | joinShape
  | columnShape
  | invalidValue
  | rowMismatch
  | client
  deriving DecidableEq

def kind : Error → Kind
  | .missingField _ => .missingField
  | .conditionShape _ => .conditionShape
  | .ambiguousKeys _ => .ambiguousKeys
  | .invalidIdentifier .. => .invalidIdentifier
  | .joinShape _ => .joinShape
  | .columnShape _ => .columnShape
  | .invalidValue _ => .invalidValue
  | .rowMismatch .. => .rowMismatch
  | .client _ => .client

def message : Error → Text
  | .missingField missing => "Missing required field: " ++ missing.phrase
  | .conditionShape fault => "Unsupported condition shape: " ++ fault.phrase
  | .ambiguousKeys clash => "Ambiguous operator keys: " ++ clash.phrase
  | .invalidIdentifier raw fault => "Invalid identifier '" ++ raw ++ "': " ++ fault.phrase
  | .joinShape fault => "Unsupported join shape: " ++ fault.phrase
  | .columnShape fault => "Unsupported column shape: " ++ fault.phrase
  | .invalidValue fault => "Invalid value: " ++ fault.phrase
  | .rowMismatch row unexpectedColumn =>
      "Row " ++ Number.digits row ++ " does not match the insert columns: unexpected column "
        ++ ticked unexpectedColumn
  | .client failure => "Database error: " ++ failure.phrase

end Error

instance decidableEqResult {ε α : Type} [DecidableEq ε] [DecidableEq α] :
    DecidableEq (Except ε α)
  | .ok first, .ok second =>
      if same : first = second then isTrue (congrArg Except.ok same)
      else isFalse fun equal => same (Except.ok.inj equal)
  | .error first, .error second =>
      if same : first = second then isTrue (congrArg Except.error same)
      else isFalse fun equal => same (Except.error.inj equal)
  | .ok _, .error _ => isFalse nofun
  | .error _, .ok _ => isFalse nofun

end SqlComposer
