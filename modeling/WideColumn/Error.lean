import WideColumn.Number.Duration
import WideColumn.Schema.Table
import WideColumn.Statement.Guard
import WideColumn.Store.Page
import WideColumn.Store.Request

/-!
Everything that can go wrong, by cause, and the texts in which it is reported.
-/
namespace WideColumn

/-- A specification or a batch that makes no sense, whatever the store holds. -/
inductive Violation
  | tableName (name : String)
  | noKeyspace (name : String)
  | ifNotExistsWithWhere
  | onlyIfOnInsert
  | removalOnInsert
  | assignedAndModified (column : String)
  | nothingToWrite (table : TableId)
  | nothingToUpdate (table : TableId)
  | ttlNotWhole (ttl : Duration)
  | ttlOutOfRange (ttl : Duration)
  | emptyIn (column : String)
  | counterWithoutTarget
  | deleteWithoutTarget
  | ifExistsWithOnlyIf
  | emptyKey (column : String)
  | limitZero
  | limitOutOfRange (limit : Nat)
  | emptyBatch
  | readInBatch (table : TableId)
  | counterBatchKind (kind : BatchKind)
  | mixedCounters
  | counterBatchWithoutCounters
  | cascadeTooDeep (table : TableId)
  /-- Raised by an interceptor in its own words. -/
  | reported (message : String)
  deriving DecidableEq

/-- How many levels of cascades may follow a mutation. -/
def cascadeLevels : Nat := 8

def Violation.message : Violation → String
  | tableName name => s!"invalid table name '{name}'"
  | noKeyspace name =>
    s!"table name '{name}' has no keyspace and no default keyspace is configured"
  | ifNotExistsWithWhere => "if-not-exists can not be combined with where conditions"
  | onlyIfOnInsert => "only-if conditions need a keyed update, not an insert"
  | removalOnInsert => "collection removals need a keyed update, not an insert"
  | assignedAndModified column => s!"column '{column}' is both assigned and modified"
  | nothingToWrite table => s!"nothing to write into {table.display}"
  | nothingToUpdate table => s!"nothing to update in {table.display}"
  | ttlNotWhole ttl => s!"ttl {ttl.toText} must be a positive whole number of seconds"
  | ttlOutOfRange ttl => s!"ttl {ttl.toText} is out of range"
  | emptyIn column => s!"IN condition on '{column}' needs at least one value"
  | counterWithoutTarget => "counter update needs keys or where conditions"
  | deleteWithoutTarget => "delete needs keys or where conditions"
  | ifExistsWithOnlyIf => "if-exists can not be combined with only-if conditions"
  | emptyKey column => s!"no values given for key '{column}'"
  | limitZero => "limit must be > 0"
  | limitOutOfRange limit => s!"limit {limit} is out of range"
  | emptyBatch => "batch has no statements"
  | readInBatch table => s!"read statement on {table.display} can not be batched"
  | counterBatchKind kind => s!"counter mutations require a COUNTER batch, not {kind.text}"
  | mixedCounters => "counter and non-counter mutations can not be combined in one batch"
  | counterBatchWithoutCounters => "COUNTER batch can only contain counter mutations"
  | cascadeTooDeep table =>
    s!"cascading mutations from {table.display} nest deeper than {cascadeLevels} levels"
  | reported message => message

/-- A mutation refused because of the data it would leave behind. -/
inductive Refusal
  | notApplied (rejection : String)
  | immutable (column : String)
  | notNull (columns : List String)
  /-- Raised by an interceptor in its own words. -/
  | reported (message : String)
  deriving DecidableEq

def Refusal.message : Refusal → String
  | notApplied rejection => rejection
  | immutable column => s!"immutable column {column} can not be updated"
  | notNull columns =>
    let names := ", ".intercalate columns
    s!"NOT NULL column(s) {names} has to be set"
  | reported message => message

/-- A configuration or a place of execution the engine can not work with. -/
inductive Misconfiguration
  | zeroExpiry
  | zeroCapacity
  | zeroFetchSize
  | notSerial (level : Consistency)
  | keyspace (name : String)
  | noRuntime
  | insideCurrentThread
  | reported (message : String)
  deriving DecidableEq

def Misconfiguration.message : Misconfiguration → String
  | zeroExpiry => "metadata_expiry_ms must be > 0"
  | zeroCapacity => "cache capacities must be > 0"
  | zeroFetchSize => "default_fetch_size must be > 0 when set"
  | notSerial level => s!"{level.text} is not a serial consistency level"
  | keyspace name => s!"invalid default keyspace '{name}'"
  | noRuntime =>
    "blocking execution needs a tokio runtime; build the engine with Engine::with_runtime"
  | insideCurrentThread => "blocking execution is not supported inside a current-thread runtime"
  | reported message => message

/-- A cell that does not have the form asked for. -/
inductive DecodeFailure
  | missingColumn (column : String)
  | mismatch (column expected actual : String)
  | reported (message : String)
  deriving DecidableEq

def DecodeFailure.message : DecodeFailure → String
  | missingColumn column => s!"missing column '{column}'"
  | mismatch column expected actual =>
    s!"type mismatch at column '{column}': expected {expected}, got {actual}"
  | reported message => message

inductive Error
  | tableNotFound (table : String)
  | typeNotFound (keyspace name : String)
  | unknownColumn (table column : String)
  | typeMismatch (table column expected actual : String)
  | constraint (refusal : Refusal)
  | tooManyResults (message : String) (result : ResultMeta)
  | transport (fault : Fault)
  | validation (violation : Violation)
  | invalidConfig (cause : Misconfiguration)
  | interceptor (name message : String)
  | decode (failure : DecodeFailure)
  deriving DecidableEq

namespace Error

/-- Stable name of the sort of error. -/
def code : Error → String
  | tableNotFound _ => "table_not_found"
  | typeNotFound _ _ => "type_not_found"
  | unknownColumn _ _ => "unknown_column"
  | typeMismatch _ _ _ _ => "type_mismatch"
  | constraint _ => "constraint"
  | tooManyResults _ _ => "too_many_results"
  | transport _ => "transport"
  | validation _ => "validation"
  | invalidConfig _ => "invalid_config"
  | interceptor _ _ => "interceptor"
  | decode _ => "decode"

/-- Name of the family that the sort of error belongs to. -/
def kind : Error → String
  | tableNotFound _ | typeNotFound _ _ | unknownColumn _ _ => "schema"
  | invalidConfig _ => "config"
  | e => e.code

def isSchemaError (e : Error) : Bool := e.kind = "schema"

def message : Error → String
  | tableNotFound table => s!"table {table} is not defined"
  | typeNotFound keyspace name => s!"user defined type {keyspace}.{name} is not defined"
  | unknownColumn table column => s!"table {table} does not support column '{column}'"
  | typeMismatch table column expected actual =>
    s!"type mismatch: column '{column}' in table '{table}' expected {expected}, got {actual}"
  | constraint refusal => refusal.message
  | tooManyResults message _ => message
  | transport fault => s!"transport error: {fault.message}"
  | validation violation => s!"validation error: {violation.message}"
  | invalidConfig cause => s!"invalid config: {cause.message}"
  | interceptor name message => s!"interceptor {name} failed: {message}"
  | decode failure => s!"decode error: {failure.message}"

/-- A fault of the store that usually means out-of-date metadata. -/
def isSchemaFault : Error → Bool
  | transport fault => fault.isSchemaFault
  | _ => false

end Error
end WideColumn
