import WideColumn.Engine.Mutate

/-!
Interceptors that use the engine while they work: any of them may ask the store, read or send something
before it has its answer.
-/
namespace WideColumn

/-- Both at once: both results when the slower one has come, or the failure that comes first, at one time
that of the first. -/
def Timed.both {α β : Type} (s : Timed α) (t : Timed β) : Timed (α × β) :=
  match s.outcome, t.outcome with
  | .ok a, .ok b => ⟨max s.delay t.delay, .ok (a, b)⟩
  | .ok _, .error e => ⟨t.delay, .error e⟩
  | .error e, .ok _ => ⟨s.delay, .error e⟩
  | .error e, .error e' => if t.delay < s.delay then ⟨t.delay, .error e'⟩ else ⟨s.delay, .error e⟩

/-- Interceptors as operations, by what they act on. A cascade has used the engine when it is first looked
at; from then on it takes its time. -/
structure Hooks (σ ρ : Type) where
  onWrite : List (Write → Op σ Write) := []
  onDelete : List (Deletion → Op σ Deletion) := []
  onRead : List (Read → Op σ Read) := []
  onRows : List (Read → Rows → Op σ Rows) := []
  cascadesOnWrite : List (Write → Op σ (Timed (List (Member ρ)))) := []
  cascadesOnDelete : List (Deletion → Op σ (Timed (List (Member ρ)))) := []

namespace Hooks

variable {σ ρ α β : Type}

/-- Each receives what the one before it made. -/
def apply (hooks : List (α → Op σ α)) (a : α) : Op σ α := hooks.foldlM (fun a f => f a) a

/-- Cascades that need nothing from the engine. -/
def known (cascades : List (α → Timed β)) : List (α → Op σ (Timed β)) :=
  cascades.map fun f a => pure (f a)

/-- A cascade that fails while it uses the engine has failed at once. -/
def start (cascade : Op σ (Timed α)) : Op σ (Timed α) :=
  tryCatch cascade fun e => return ⟨0, .error e⟩

/-- Starts cascades that are watched as a whole. One that has failed at once is the end of it. -/
def startWhole : List (Op σ (Timed α)) → Op σ (List (Timed α))
  | [] => return []
  | cascade :: cascades => do
    match ← start cascade with
    | ⟨0, .error e⟩ => throw e
    | t => return t :: (← startWhole cascades)

/-- Starts cascades that are looked at in turn. Behind one that is still under way the others are started
too, but how they end shows only when it has ended. -/
def startInTurn : List (Op σ (Timed α)) → Op σ (List (Timed α))
  | [] => return []
  | cascade :: cascades => do
    match ← start cascade with
    | ⟨0, .error e⟩ => throw e
    | ⟨0, .ok a⟩ => return ⟨0, .ok a⟩ :: (← startInTurn cascades)
    | t => return t :: (← cascades.mapM start)

def startAll (cascades : List (Op σ (Timed α))) : Op σ (List (Timed α)) :=
  if cascades.length ≤ Op.watched then startWhole cascades else startInTurn cascades

variable [Store σ] (latency : Mutation → Nat)

/-- Starts the compilation of a mutation. All questions of it are asked at once, and answered when as much
time has passed as the store takes for them. -/
def compilation (m : Mutation) (ctx : Context) : Op σ (Timed Compiled) :=
  tryCatch (do return ⟨latency m, .ok (← Op.compileMutation m ctx)⟩) fun e =>
    return ⟨latency m, .error e⟩

/-- Starts cascades beside something else that is under way, and waits for both. If it has failed at once
they are not started. -/
def beside (t : Timed α) (cascades : List (Op σ (Timed (List (Member ρ))))) :
    Op σ (α × List (Member ρ)) :=
  match t with
  | ⟨0, .error e⟩ => throw e
  | t => do Op.await (t.both (Registry.gather (← startAll cascades)))

/-- Compiles one member and gathers the mutations it cascades into, in order of registration. -/
def prepareMember (owners : ρ → Hooks σ ρ) (ctx : Context) (m : Member ρ) :
    Op σ (Compiled × List (Member ρ)) := do
  let hooks := (m.owner.map owners).getD {}
  match m.mutation with
  | .write w =>
    let w ← apply hooks.onWrite w
    beside (← compilation latency (.write w) ctx) (hooks.cascadesOnWrite.map fun f => f w)
  | .delete d =>
    let d ← apply hooks.onDelete d
    beside (← compilation latency (.delete d) ctx) (hooks.cascadesOnDelete.map fun f => f d)
  | .counter u => beside (← compilation latency (.counter u) ctx) []

/-- All members and what they cascade into, sent together. -/
def mutate (owners : ρ → Hooks σ ρ) (members : List (Member ρ)) (kind : Option BatchKind)
    (ctx : Context) : Op σ ResultMeta :=
  Op.mutateBy (prepareMember latency owners ctx) members kind ctx

/-- A read with its interceptors: the read as it was sent, and its rows. -/
def read (hooks : Hooks σ ρ) (r : Read) (ctx : Context) : Op σ (Read × Rows) := do
  let r ← apply hooks.onRead r
  let rows ← Op.query (← Op.compileRead r ctx)
  return (r, ← hooks.onRows.foldlM (fun rows f => f r rows) rows)

/-- A cascade that looks up a row and goes by what it finds. -/
def byRow (ctx : Context) (wanted : α → Option Read)
    (follow : α → Option Record → Except Error (List (Member ρ))) (a : α) :
    Op σ (Timed (List (Member ρ))) :=
  match wanted a with
  | none => return ⟨0, .ok []⟩
  | some r => do
    let rows ← Op.query (← Op.compileRead r ctx)
    return ⟨0, follow a (← rows.single r.table)⟩

end Hooks

/-- Interceptors that need nothing from the engine. -/
def Registry.hooks {σ ρ : Type} (g : Registry σ ρ) : Hooks σ ρ where
  onWrite := g.onWrite.map fun f w => Op.ofExcept (f w)
  onDelete := g.onDelete.map fun f d => Op.ofExcept (f d)
  onRead := g.onRead.map fun f r => Op.ofExcept (f r)
  onRows := g.onRows
  cascadesOnWrite := Hooks.known g.cascadesOnWrite
  cascadesOnDelete := Hooks.known g.cascadesOnDelete

end WideColumn
