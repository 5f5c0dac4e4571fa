import WideColumn.Engine.Submit
import WideColumn.Record.Basic

/-!
Results of reads, fetched page by page as their rows are taken.
-/
namespace WideColumn

structure Rows where
  /-- The read to go on with; none if all rows were there from the start. -/
  source : Option Compiled
  buffered : List Record
  pagingState : Option Bytes
  result : ResultMeta
  deriving DecidableEq

namespace Rows

/-- A result without anything left to fetch. -/
def ofRecords (records : List Record) (result : ResultMeta) : Rows := ⟨none, records, none, result⟩

def recordsOf (p : Page) : List Record := p.rows.map (⟨p.columns, ·⟩)

def ofPage (c : Compiled) (p : Page) : Rows :=
  ⟨some c, recordsOf p, p.pagingState, .ofPage p⟩

/-- The result after one more page. -/
def withPage (r : Rows) (p : Page) : Rows :=
  { r with
    buffered := r.buffered ++ recordsOf p
    pagingState := p.pagingState
    result := r.result.record p }

/-- What is left to fetch: a read and the state to continue it from. -/
def continuation (r : Rows) : Option (Compiled × Bytes) :=
  match r.source, r.pagingState with
  | some c, some state => some (c, state)
  | _, _ => none

def isFullyFetched (r : Rows) : Bool := r.continuation.isNone

def available (r : Rows) : Nat := r.buffered.length

end Rows

namespace Op

variable {σ : Type} [Store σ]

def fetchPage (c : Compiled) (pagingState : Option Bytes) : Op σ Page :=
  dispatch (.statement c.wire) { c.options with pagingState }

def query (c : Compiled) : Op σ Rows := return .ofPage c (← fetchPage c none)

/-- Fetches the next page, if there is one. -/
def fetchMore (r : Rows) : Op σ Rows := do
  match r.continuation with
  | none => return r
  | some (c, state) => return r.withPage (← fetchPage c (some state))

end Op

/-- What an operation on rows leaves: its outcome and the rows, which a failure leaves as the last
successful fetch made them. -/
structure Taken (α : Type) where
  outcome : Except Error α
  rows : Rows

namespace Rows

variable {σ : Type} [Store σ]

/-- Fetches one page and keeps the rows when that fails. -/
def more (r : Rows) : StateM (World σ) (Taken Unit) := do
  match ← (Op.fetchMore r).run with
  | .ok r => return ⟨.ok (), r⟩
  | .error e => return ⟨.error e, r⟩

/-- Fetches until a row is there or nothing is left to fetch. -/
def fillWithin : Nat → Rows → StateM (World σ) (Taken Unit)
  | 0, r => return ⟨.ok (), r⟩
  | bound + 1, r =>
    if r.buffered.isEmpty && !r.isFullyFetched then do
      let t ← r.more
      match t.outcome with
      | .ok () => fillWithin bound t.rows
      | .error _ => return t
    else return ⟨.ok (), r⟩

/-- Pages may be empty while more of them follow; the store bounds how many. -/
def fill (r : Rows) : StateM (World σ) (Taken Unit) := do
  let w ← get
  fillWithin (Store.pagesToCome w.store + 1) r

/-- Takes the next row. -/
def next (r : Rows) : StateM (World σ) (Taken (Option Record)) := do
  let t ← r.fill
  match t.outcome with
  | .ok () =>
    match t.rows.buffered with
    | [] => return ⟨.ok none, t.rows⟩
    | record :: rest => return ⟨.ok (some record), { t.rows with buffered := rest }⟩
  | .error e => return ⟨.error e, t.rows⟩

/-- Fetches all pages that are left. -/
def drainWithin : Nat → Rows → Op σ Rows
  | 0, r => return r
  | bound + 1, r => do
    if r.isFullyFetched then return r
    else drainWithin bound (← Op.fetchMore r)

/-- All rows that are left, from the pages that are there and those to come. -/
def collect (r : Rows) : Op σ (List Record) := do
  let w ← get
  return (← drainWithin (Store.pagesToCome w.store + 1) r).buffered

/-- The rows that are left, and the fault, if any, that ends them early. -/
def streamWithin : Nat → Rows → StateM (World σ) (List Record × Option Error)
  | 0, r => return (r.buffered, none)
  | bound + 1, r => do
    if r.isFullyFetched then return (r.buffered, none)
    else
      let t ← ({ r with buffered := [] } : Rows).more
      match t.outcome with
      | .ok () =>
        let (later, fault) ← streamWithin bound t.rows
        return (r.buffered ++ later, fault)
      | .error e => return (r.buffered, some e)

def stream (r : Rows) : StateM (World σ) (List Record × Option Error) := do
  let w ← get
  streamWithin (Store.pagesToCome w.store + 1) r

/-- The only row, if there is one. A second row is an error, which carries the result as of the first
page. -/
def single (r : Rows) (table : TableId) : Op σ (Option Record) := do
  let t ← (r.next : StateM (World σ) _)
  match ← Op.ofExcept t.outcome with
  | none => return none
  | some record =>
    let t ← (t.rows.fill : StateM (World σ) _)
    Op.ofExcept t.outcome
    if t.rows.buffered.isEmpty then return some record
    else throw (.tooManyResults s!"more than one record exists for {table.display}" r.result)

end Rows
end WideColumn
