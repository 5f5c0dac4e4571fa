import WideColumn.Dao.Basic
import WideColumn.Proofs.Engine.Follows

/-!
Runs of an engine: actions one after the other, with anything that may happen between them. Each of
them sends the statements it has compiled, which are as fresh as the caches were when it began.
-/
namespace WideColumn

variable {σ ρ : Type} [Store σ]

/-- What an engine is asked to do. -/
inductive Action (σ ρ : Type)
  | execute (d : Draft ρ Mutation)
  | executeBatch (b : BatchDraft ρ)
  | readOne (d : Draft ρ Read)
  | readList (d : Draft ρ Read) (uses : List (Demand ⊕ Pause σ)) (ending : Reading.Ending)
  /-- What follows is compiled and sent by hand, past all interceptors. -/
  | submit (q : Specification) (ctx : Context)
  | submitBatch (qs : List (Specification × Context)) (kind : Option BatchKind) (ctx : Context)
  | query (q : Specification) (ctx : Context) (uses : List (Demand ⊕ Pause σ))
      (ending : Reading.Ending)
  | compile (q : Specification) (ctx : Context)
  | prepare (text : String)
  | cached (text : String)
  | getColumns (id : TableId)
  | getType (name : TypeName)
  | resolveTypes (keyspace : String) (types : List ColumnType)
  | pause (p : Pause σ)

/-- A read as its interceptors leave it, and its statement. -/
def Op.prepareRead (g : Registry σ ρ) (r : Read) (ctx : Context) : Op σ (Read × Compiled) := do
  let r ← ofExcept (g.applyRead r)
  return (r, ← compileRead r ctx)

namespace World

/-- Rows are read to some end, unless there are none because the read fails. -/
def readOut (w : World σ) (x : Op σ Rows) (uses : List (Demand ⊕ Pause σ)) (ending : Reading.Ending) :
    World σ :=
  match x.run w with
  | (.ok rows, v) => ((Reading.mk v rows []).useAll uses).close ending
  | (.error _, v) => v

def perform (owners : ρ → Registry σ ρ) (w : World σ) : Action σ ρ → World σ
  | .execute d => ((Op.execute owners d).run w).2
  | .executeBatch b => ((Op.executeBatch owners b).run w).2
  | .readOne d => ((Op.readOne owners d).run w).2
  | .readList d uses ending => w.readOut (Op.readList owners d) uses ending
  | .submit q ctx => ((do Op.submit (.statement (← Op.compile q ctx)) : Op σ _).run w).2
  | .submitBatch qs kind ctx =>
    ((do
      let statements ← qs.mapM fun q => Op.compile q.1 q.2
      let b ← Op.ofExcept (Batch.assemble statements kind ctx)
      Op.submit (.batch b) : Op σ _).run w).2
  | .query q ctx uses ending => w.readOut (do Op.query (← Op.compile q ctx)) uses ending
  | .compile q ctx => ((Op.compile q ctx).run w).2
  | .prepare text => ((Op.prepare text).run w).2
  | .cached text => ((Op.cachedStatement text).run w).2
  | .getColumns id => ((Op.getColumns id).run w).2
  | .getType name => ((Op.getType name).run w).2
  | .resolveTypes keyspace types => ((Op.resolveTypes keyspace types).run w).2
  | .pause p => w.pause p

def performAll (owners : ρ → Registry σ ρ) (w : World σ) (actions : List (Action σ ρ)) : World σ :=
  actions.foldl (perform owners) w

/-- The statements that an action compiles in order to send them; none if it fails before. -/
def compiled (owners : ρ → Registry σ ρ) (w : World σ) : Action σ ρ → List Compiled
  | .execute d =>
    Op.outcome (Op.prepareAll (Op.prepareMember owners d.ctx) cascadeLevels [d.member id]) id w
  | .executeBatch b =>
    Op.outcome (Op.prepareAll (Op.prepareMember owners b.ctx) cascadeLevels b.members) id w
  | .readOne d | .readList d _ _ =>
    Op.outcome (Op.prepareRead ((d.owner.map owners).getD {}) d.spec d.ctx) (fun made => [made.2]) w
  | .submit q ctx | .query q ctx _ _ => Op.outcome (Op.compile q ctx) (fun c => [c]) w
  | .submitBatch qs _ _ => Op.outcome (qs.mapM fun q => Op.compile q.1 q.2) id w
  | _ => []

end World

namespace Op

end Op

namespace World

open Op

variable {owners : ρ → Registry σ ρ} {w : World σ}

end World

end WideColumn
