import WideColumn.Datum.Order

/-!
What is sent to the store.
-/
namespace WideColumn

inductive Consistency
  | any | one | two | three | quorum | all | localQuorum | eachQuorum | serial | localSerial | localOne
  deriving DecidableEq, Inhabited

namespace Consistency

def text : Consistency → String
  | any => "ANY"
  | one => "ONE"
  | two => "TWO"
  | three => "THREE"
  | quorum => "QUORUM"
  | all => "ALL"
  | localQuorum => "LOCAL_QUORUM"
  | eachQuorum => "EACH_QUORUM"
  | serial => "SERIAL"
  | localSerial => "LOCAL_SERIAL"
  | localOne => "LOCAL_ONE"

def isSerial : Consistency → Bool
  | serial | localSerial => true
  | _ => false

end Consistency

structure Options where
  consistency : Option Consistency := none
  serialConsistency : Option Consistency := none
  tracing : Bool := false
  fetchSize : Option Nat := none
  pagingState : Option Bytes := none
  deriving DecidableEq, Inhabited

/-- A statement the store holds ready under an identifier. -/
structure Prepared where
  id : String
  text : String
  deriving DecidableEq, Inhabited

/-- A statement as it is sent: under its prepared identifier if there is one. -/
structure WireStatement where
  text : String
  prepared : Option Prepared
  values : List Datum
  deriving DecidableEq, Inhabited

inductive BatchKind
  | logged | unlogged | counter
  deriving DecidableEq, Inhabited

def BatchKind.text : BatchKind → String
  | logged => "LOGGED"
  | unlogged => "UNLOGGED"
  | counter => "COUNTER"

inductive Request
  | statement (s : WireStatement)
  | batch (kind : BatchKind) (statements : List WireStatement)
  deriving DecidableEq, Inhabited

namespace Request

def statements : Request → List WireStatement
  | statement s => [s]
  | batch _ ss => ss

def count (r : Request) : Nat := r.statements.length

end Request
end WideColumn
