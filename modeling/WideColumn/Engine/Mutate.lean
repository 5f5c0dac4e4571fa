import WideColumn.Engine.Refresh
import WideColumn.Interceptor.Basic

/-!
Mutations with their interceptors and cascades, sent together in one round trip. Nothing is sent if
anything fails before.
-/
namespace WideColumn.Op

variable {σ ρ : Type} [Store σ]

/-- Waits for an outcome. A refresh that has been started runs as soon as there is something to wait
for. -/
def await (t : Timed α) : Op σ α := do
  if 0 < t.delay then
    finishRefresh
    wait t.delay
  ofExcept t.outcome

/-- The interceptors that apply to a member. -/
def registryOf (owners : ρ → Registry σ ρ) (m : Member ρ) : Registry σ ρ :=
  (m.owner.map owners).getD {}

/-- Compiles one member and gathers the mutations it cascades into. Both are under way at once and are
polled in this order. The store answers at once, so compilation has ended when the cascades are polled
first, and its failure comes before any failure of theirs. For a store that takes its time see
`Hooks.prepareMember`. -/
def prepareMember (owners : ρ → Registry σ ρ) (ctx : Context) (m : Member ρ) :
    Op σ (Compiled × List (Member ρ)) := do
  let registry := registryOf owners m
  match m.mutation with
  | .write w =>
    let w ← ofExcept (registry.applyWrite w)
    let statement ← compileMutation (.write w) ctx
    return (statement, ← await (registry.cascadeWrite w))
  | .delete d =>
    let d ← ofExcept (registry.applyDelete d)
    let statement ← compileMutation (.delete d) ctx
    return (statement, ← await (registry.cascadeDelete d))
  | .counter u => return (← compileMutation (.counter u) ctx, [])

section Levels

variable (prepare : Member ρ → Op σ (Compiled × List (Member ρ)))

/-- The members of one level in order: their statements, and the members of the next level. None of
them may cascade when no level is left. -/
def prepareLevel (last : Bool) : List (Member ρ) → Op σ (List Compiled × List (Member ρ))
  | [] => return ([], [])
  | m :: ms => do
    let (statement, cascaded) ← prepare m
    if last && !cascaded.isEmpty then throw (.validation (.cascadeTooDeep statement.table))
    let (statements, others) ← prepareLevel last ms
    return (statement :: statements, cascaded ++ others)

/-- Level by level, as long as there are cascades and at most `levels` below the first. -/
def prepareAll : (levels : Nat) → List (Member ρ) → Op σ (List Compiled)
  | 0, members => return (← prepareLevel prepare true members).1
  | levels + 1, members => do
    let (statements, cascaded) ← prepareLevel prepare false members
    if cascaded.isEmpty then return statements
    else return statements ++ (← prepareAll levels cascaded)

end Levels

/-- A single statement goes as it is unless a kind of batch is asked for. -/
def submission (statements : List Compiled) (kind : Option BatchKind) (ctx : Context) :
    Except Error Submission :=
  match kind, statements with
  | none, [statement] => .ok (.statement statement)
  | _, _ => (Batch.assemble statements kind ctx).map .batch

/-- All members and what they cascade into, sent together. -/
def mutateBy (prepare : Member ρ → Op σ (Compiled × List (Member ρ))) (members : List (Member ρ))
    (kind : Option BatchKind) (ctx : Context) : Op σ ResultMeta := do
  let statements ← prepareAll prepare cascadeLevels members
  submit (← ofExcept (submission statements kind ctx))

def mutate (owners : ρ → Registry σ ρ) (members : List (Member ρ)) (kind : Option BatchKind)
    (ctx : Context) : Op σ ResultMeta := mutateBy (prepareMember owners ctx) members kind ctx

/-- A read with its interceptors: the read as it was sent, and its rows. -/
def read (registry : Registry σ ρ) (r : Read) (ctx : Context) : Op σ (Read × Rows) := do
  let r ← ofExcept (registry.applyRead r)
  let rows ← query (← compileRead r ctx)
  return (r, ← registry.applyRows r rows)

end WideColumn.Op
