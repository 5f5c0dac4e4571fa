import Mathlib.Logic.Function.Iterate
import WideColumn.Engine.Concurrent
import WideColumn.Proofs.Cache.Hub
import WideColumn.Proofs.Engine.Events

/-!
All that goes on at once around the columns of tables: calls for them, loads, background refreshes,
invalidations, changes to the store, and time. Everybody who waits for an answer lets the others go on,
and so does everybody who has just had to do with the flag that a refresh is started under; what is done
in between is one step.
-/
namespace WideColumn

/-- A background refresh that has been started. -/
inductive Errand
  | ready
  /-- The tables that are still to be asked about. -/
  | going (ids : List TableId)
  /-- The answer to the last question has not been used yet. -/
  | asked (visit : Visit)
  | ended

namespace Errand

def isAlive : Errand → Bool
  | ended => false
  | _ => true

def ofVisit : Option Visit → Errand
  | some visit => asked visit
  | none => ended

end Errand

/-- How far a call that has been served has come with its return. -/
inductive Stage
  /-- It has not looked at the age of its entry. -/
  | served
  /-- The entry is expired, and the call is about to try and take the flag. -/
  | expired
  /-- It has taken the flag. -/
  | holding
  /-- It has counted the refresh that it is about to start. -/
  | counted
  | returned
  deriving DecidableEq

structure Concourse (σ : Type) where
  world : World σ
  /-- Who calls from where there is something to drive a refresh. -/
  driven : Nat → Bool
  flights : List Flight := []
  stand : Nat → Stand TableId TableEntry Error := fun _ => .away
  arrived : List Nat := []
  /-- What the store has answered to those who load. -/
  answers : Nat → Except Fault (Option Table) := fun _ => .ok none
  stage : Nat → Stage := fun _ => .served
  errands : List Errand := []

namespace Concourse

inductive Move (σ : Type)
  | lookUp (caller : Nat) (id : TableId)
  /-- Asks the store, if it is the caller's turn to load. -/
  | begin (caller : Nat)
  /-- The caller looks at the answer. -/
  | finish (caller : Nat)
  /-- A call that has been served takes the next step to its return. -/
  | leave (caller : Nat)
  /-- A refresh settles what it visits, or asks the next question, or uses the answer, or ends. -/
  | advance (errand : Nat)
  /-- A refresh is dropped where it stands. -/
  | cut (errand : Nat)
  | invalidate
  | wait (ms : Nat)
  /-- Others change the store. -/
  | change (store : σ)
  /-- A place is lost, by whatever rule. -/
  | evict (id : TableId)

variable {σ : Type}

def new (config : Config) (store : σ) (driven : Nat → Bool := fun _ => true) : Concourse σ :=
  { world := .new config store, driven }

abbrev catalog (c : Concourse σ) : Catalog := c.world.catalog

/-- The cache of tables with all who call for their columns. -/
def hub (c : Concourse σ) : Hub TableId TableEntry Error :=
  ⟨⟨c.catalog.tables, c.flights⟩, c.stand, c.arrived⟩

def withHub (c : Concourse σ) (h : Hub TableId TableEntry Error) : Concourse σ :=
  { c with
    world := { c.world with catalog := { c.catalog with tables := h.cache } }
    flights := h.flights
    stand := h.stand
    arrived := h.arrived }

/-- The call has come so far, and left the catalog like this. -/
def comes (c : Concourse σ) (caller : Nat) (stage : Stage) (catalog : Catalog) : Concourse σ :=
  { c with
    world := { c.world with catalog }
    stage := Function.update c.stage caller stage }

section Comes

variable (c : Concourse σ) (i : Nat) (stage later : Stage) (catalog next : Catalog)

@[simp] theorem comes_stage : (c.comes i stage catalog).stage = Function.update c.stage i stage := rfl

@[simp] theorem comes_catalog : (c.comes i stage catalog).world.catalog = catalog := rfl

@[simp] theorem comes_driven : (c.comes i stage catalog).driven = c.driven := rfl

@[simp] theorem comes_comes :
    (c.comes i stage catalog).comes i later next = c.comes i later next := by
  simp [comes]

end Comes

/-- Who has an expired entry tries and takes the flag. Who has got it counts a refresh and starts it, or
gives the flag back where nothing drives a refresh. -/
def takeLeave (c : Concourse σ) (caller : Nat) (entry : TableEntry) : Concourse σ :=
  match c.stage caller with
  | .served =>
    let expired := entry.isExpired c.world.clock c.catalog.expiry
    c.comes caller (if expired then .expired else .returned) c.catalog
  | .expired =>
    match c.catalog.claim with
    | none => c.comes caller .returned c.catalog
    | some held => c.comes caller .holding held
  | .holding =>
    if c.driven caller then c.comes caller .counted c.catalog.countRefresh
    else c.comes caller .returned c.catalog.release
  | .counted => { c.comes caller .returned c.catalog with errands := c.errands ++ [.ready] }
  | .returned => c

/-- A refresh goes on, and is left so that the next step can follow. -/
def goOn (c : Concourse σ) (errand : Nat) (x : Op σ Errand) : Concourse σ :=
  { c with
    world := (x.run c.world).2
    errands := c.errands.set errand ((x.run c.world).1.toOption.getD .ended) }

/-- Nobody is served meanwhile. -/
@[simp] theorem takeLeave_stand (c : Concourse σ) (i : Nat) (entry : TableEntry) :
    (c.takeLeave i entry).stand = c.stand := by
  rw [takeLeave]
  split <;> (try split) <;> rfl

variable [Store σ]

def step (c : Concourse σ) : Move σ → Concourse σ
  | .lookUp i id => c.withHub (c.hub.step (.lookUp i id))
  | .begin i =>
    match c.stand i with
    | .waiting id slot =>
      if c.hub.isTurn i slot then
        let (answer, store) := Store.describeTable id c.world.store
        { c.withHub (c.hub.step (.begin i)) with
          world := c.world.answered store (.describeTable id answer)
          answers := Function.update c.answers i answer }
      else c
    | _ => c
  | .finish i =>
    match c.stand i with
    | .loading id _ =>
      c.withHub (c.hub.step (.finish i ((Op.tableEntry id (c.answers i)).run c.world).1))
    | _ => c
  | .leave i =>
    match c.stand i with
    | .served _ entry => c.takeLeave i entry
    | _ => c
  | .advance n =>
    match c.errands[n]? with
    | some .ready => c.goOn n (return .going (c.catalog.stale c.world.clock))
    | some (.going ids) => c.goOn n (return .ofVisit (← Op.visitNext ids))
    | some (.asked v) => c.goOn n (do Op.keepAnswer v.table v.answer; return .going v.later)
    | _ => c
  | .cut n =>
    match c.errands[n]? with
    | none | some .ended => c
    | _ => c.goOn n (do Op.endRefresh; return .ended)
  | .invalidate => { c with world := (Op.invalidateMetadata.run c.world).2 }
  | .wait ms => { c with world := { c.world with clock := c.world.clock + ms } }
  | .change store => { c with world := { c.world with store } }
  | .evict id => c.withHub (c.hub.step (.remove id))

def run (c : Concourse σ) (moves : List (Move σ)) : Concourse σ := moves.foldl step c

variable {c : Concourse σ}

/-- What every step keeps a run keeps. -/
theorem run_induction {P : Concourse σ → Prop} {moves : List (Move σ)} (start : P c)
    (step : ∀ c m, P c → P (c.step m)) : P (c.run moves) := by
  induction moves generalizing c with
  | nil => exact start
  | cons m moves ih => exact ih (step c m start)

section Agreement

theorem step_leave {i : Nat} {id : TableId} {entry : TableEntry}
    (served : c.stand i = .served id entry) : c.step (.leave i) = c.takeLeave i entry := by
  rw [step, served]

/-- Who returns with nobody in between leaves the world as if all were done in one go. -/
theorem leave_alone {i : Nat} {id : TableId} {entry : TableEntry} (served : c.stand i = .served id entry)
    (first : c.stage i = .served) :
    let after := c.run (.replicate 4 (.leave i))
    after.stage i = .returned ∧ after.world = { c.world with
      catalog := if entry.isExpired c.world.clock c.catalog.expiry then c.catalog.startRefresh (c.driven i)
        else c.catalog } := by
  have steps (n : Nat) (b : Concourse σ) (hb : b.stand = c.stand) :
      b.run (.replicate n (.leave i)) = (·.takeLeave i entry)^[n] b := by
    induction n generalizing b with
    | zero => rfl
    | succ n ih =>
      have taken : b.step (.leave i) = b.takeLeave i entry := step_leave (hb ▸ served)
      exact (congrArg (run · _) taken).trans (ih _ ((b.takeLeave_stand i entry).trans hb))
  rw [steps 4 c rfl]
  cases expired : entry.isExpired c.world.clock c.catalog.expiry with
  | false => simp [takeLeave, first, expired, comes]
  | true =>
    cases taken : c.world.catalog.refreshing <;> cases driven : c.driven i <;>
      simp [takeLeave, first, expired, Catalog.startRefresh, Catalog.claim, taken, driven] <;> rfl

/-- Where a refresh is driven, that is what the operation does. -/
theorem serve_alone {i : Nat} {id : TableId} {entry : TableEntry} (served : c.stand i = .served id entry)
    (first : c.stage i = .served) (driven : c.driven i = true) :
    (Op.serve entry).run c.world = (.ok entry, (c.run (.replicate 4 (.leave i))).world) := by
  rw [Op.serve, Op.run_bind_ok (Op.run_get c.world), (leave_alone served first).2, driven]
  cases entry.isExpired c.world.clock c.catalog.expiry <;> rfl

/-- A load asks the store, and its outcome is what the lane makes of the answer. -/
theorem load_run (id : TableId) (w : World σ) : (Lane.tables.load id).run w =
    (.ok (Op.tableEntry id (Store.describeTable id w.store).1),
      w.answered (Store.describeTable id w.store).2
        (.describeTable id (Store.describeTable id w.store).1)) := rfl

/-- A refresh that is ready starts as the operation does while the flag is set. -/
theorem advance_ready {w : World σ} (flag : w.catalog.refreshing = true) :
    (Op.advanceRefresh none).run w = (Op.visitNext (w.catalog.stale w.clock)).run w := by
  rw [Op.advanceRefresh, Op.run_bind_ok (Op.run_get w), if_pos flag]

/-- A refresh that has been answered does in two steps what the operation does in one. -/
theorem advance_twice {n : Nat} {v : Visit} (he : c.errands[n]? = some (.asked v)) :
    (c.step (.advance n)).step (.advance n) =
      c.goOn n (return .ofVisit (← Op.advanceRefresh (some v))) := by
  obtain ⟨here, -⟩ := List.getElem?_eq_some_iff.mp he
  have used : c.step (.advance n) = c.goOn n (do Op.keepAnswer v.table v.answer; return .going v.later) := by
    rw [step, he]
  have then_going : (c.step (.advance n)).errands[n]? = some (.going v.later) := by
    rw [used, goOn, List.getElem?_set_self here]
    rfl
  rw [step, then_going, used]
  obtain ⟨id, answer, _ | ⟨next, later⟩⟩ := v <;> simp only [goOn, List.set_set] <;> rfl

end Agreement

end Concourse
end WideColumn
