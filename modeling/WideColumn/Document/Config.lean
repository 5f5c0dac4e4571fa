import WideColumn.Config
import WideColumn.Document.Basic

/-!
Settings as documents.
-/
namespace WideColumn

namespace Consistency

def caseNames : List (String × Consistency) :=
  [("Any", any), ("One", one), ("Two", two), ("Three", three), ("Quorum", quorum), ("All", all),
    ("LocalQuorum", localQuorum), ("EachQuorum", eachQuorum), ("Serial", serial),
    ("LocalSerial", localSerial), ("LocalOne", localOne)]

def ofDocument? (d : Document) : Option Consistency := d.caseOf? caseNames

def toDocument (level : Consistency) : Document := .ofCase caseNames level

end Consistency

namespace Config

def fieldNames : List String :=
  ["default_keyspace", "metadata_expiry_ms", "invalidation_min_interval_ms",
    "table_cache_capacity", "udt_cache_capacity", "statement_cache_capacity",
    "default_consistency", "default_serial_consistency", "default_fetch_size"]

def toDocument (c : Config) : Document :=
  .fields (fieldNames.zip
    [.ofOption .text c.defaultKeyspace, .ofNat c.metadataExpiry, .ofNat c.invalidationInterval,
      .ofNat c.tableCapacity, .ofNat c.typeCapacity, .ofNat c.statementCapacity,
      .ofOption Consistency.toDocument c.defaultConsistency,
      .ofOption Consistency.toDocument c.defaultSerialConsistency,
      .ofOption .ofNat c.defaultFetchSize])

/-- The setting that is given, or else the one that stands without it. -/
def setting (f : Document → Option α) (standard : α) : Option Document → Option α
  | some d => f d
  | none => some standard

def word? : Document → Option Nat := Document.below? UInt64.size

/-- Settings left out have their standard values; fields of other names are passed over. -/
def ofDocument? (d : Document) : Option Config := do
  let standard : Config := {}
  let level := setting (Document.option? Consistency.ofDocument?) none
  match ← d.members? fieldNames with
  | [keyspace, expiry, interval, tables, types, statements, consistency, serial, fetchSize] =>
    return {
      defaultKeyspace := ← setting (Document.option? Document.text?) none keyspace
      metadataExpiry := ← setting word? standard.metadataExpiry expiry
      invalidationInterval := ← setting word? standard.invalidationInterval interval
      tableCapacity := ← setting word? standard.tableCapacity tables
      typeCapacity := ← setting word? standard.typeCapacity types
      statementCapacity := ← setting word? standard.statementCapacity statements
      defaultConsistency := ← level consistency
      defaultSerialConsistency := ← level serial
      defaultFetchSize :=
        ← setting (Document.option? (Document.below? UInt32.size)) none fetchSize }
  | _ => none

end Config
end WideColumn
