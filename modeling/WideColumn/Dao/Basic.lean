import WideColumn.Engine.Mutate

/-!
Access to one table: drafts of writes, deletions and reads that carry the options and interceptors of
the table's access object.
-/
namespace WideColumn

structure Dao (ρ : Type) where
  table : TableId
  ctx : Context
  owner : Option ρ
  deriving DecidableEq

/-- A specification that is still being refined, with what it takes to execute it. -/
structure Draft (ρ α : Type) where
  owner : Option ρ
  ctx : Context
  spec : α
  deriving DecidableEq

namespace Draft

def refine (d : Draft ρ α) (f : α → α) : Draft ρ α := { d with spec := f d.spec }

def configure (d : Draft ρ α) (step : Context.Step) : Draft ρ α := { d with ctx := d.ctx.apply step }

/-- A counter update of the rows that the write is aimed at; what it assigns is dropped. -/
def incrBy (d : Draft ρ Write) (column : String) (delta : Int64) : Draft ρ CounterUpdate :=
  { d with spec := .ofWrite d.spec column delta }

def incr (d : Draft ρ Write) (column : String) : Draft ρ CounterUpdate := d.incrBy column 1

def decr (d : Draft ρ Write) (column : String) : Draft ρ CounterUpdate := d.incrBy column (-1)

/-- The amount with the opposite sign; the least amount has none and becomes the greatest. -/
def saturatingNeg (delta : Int64) : Int64 := if delta = Int64.minValue then Int64.maxValue else -delta

def decrBy (d : Draft ρ Write) (column : String) (delta : Int64) : Draft ρ CounterUpdate :=
  d.incrBy column (saturatingNeg delta)

def member (d : Draft ρ α) (mutation : α → Mutation) : Member ρ := ⟨mutation d.spec, d.owner⟩

end Draft

namespace Dao

variable {ρ : Type}

/-- The options a table is accessed with unless it is asked otherwise. -/
def contextOf (config : Config) : Context where
  consistency := config.defaultConsistency
  serialConsistency := config.defaultSerialConsistency

def draft (d : Dao ρ) (spec : α) : Draft ρ α := ⟨d.owner, d.ctx, spec⟩

/-- An insertion; its values name the full primary key. -/
def write (d : Dao ρ) : Draft ρ Write := d.draft { table := d.table }

def writeWithKeys (d : Dao ρ) (keys : List (String × Value)) : Draft ρ Write :=
  d.draft (Write.applyAll { table := d.table } (keys.map fun k => .key k.1 k.2))

def writeWhere (d : Dao ρ) (clause : Clause) : Draft ρ Write :=
  d.draft { table := d.table, conditions := [clause] }

def deleteWithKeys (d : Dao ρ) (keys : List (String × Value)) : Draft ρ Deletion :=
  d.draft (Deletion.applyAll { table := d.table } (keys.map fun k => .key k.1 k.2))

def deleteWhere (d : Dao ρ) (clause : Clause) : Draft ρ Deletion :=
  d.draft { table := d.table, conditions := [clause] }

/-- The one row with the given primary key. -/
def readWithKeys (d : Dao ρ) (keys : List (String × Value)) : Draft ρ Read :=
  d.draft (Read.applyAll { table := d.table, cardinality := .single }
    (keys.map fun k => .key k.1 k.2))

/-- Any number of rows, fetched in pages of the configured size. -/
def readMany (d : Dao ρ) (config : Config) (steps : List Read.Step) : Draft ρ Read :=
  d.draft (Read.applyAll
    { table := d.table, cardinality := .many, fetchSize := config.defaultFetchSize } steps)

end Dao

/-- Several mutations to be sent as one batch; its options apply to every member. -/
structure BatchDraft (ρ : Type) where
  members : List (Member ρ)
  kind : Option BatchKind := none
  ctx : Context
  deriving DecidableEq

namespace BatchDraft

def configure (b : BatchDraft ρ) (step : Context.Step) : BatchDraft ρ :=
  { b with ctx := b.ctx.apply step }

def withKind (b : BatchDraft ρ) (kind : BatchKind) : BatchDraft ρ := { b with kind := some kind }

end BatchDraft

namespace Op

variable {σ ρ : Type} [Store σ]

def execute (owners : ρ → Registry σ ρ) (d : Draft ρ Mutation) : Op σ ResultMeta :=
  mutate owners [d.member id] none d.ctx

def executeBatch (owners : ρ → Registry σ ρ) (b : BatchDraft ρ) : Op σ ResultMeta :=
  mutate owners b.members b.kind b.ctx

/-- The only row, or none. -/
def readOne (owners : ρ → Registry σ ρ) (d : Draft ρ Read) : Op σ (Option Record) := do
  let (r, rows) ← read ((d.owner.map owners).getD {}) d.spec d.ctx
  rows.single r.table

def readList (owners : ρ → Registry σ ρ) (d : Draft ρ Read) : Op σ Rows := do
  return (← read ((d.owner.map owners).getD {}) d.spec d.ctx).2

end Op
end WideColumn
