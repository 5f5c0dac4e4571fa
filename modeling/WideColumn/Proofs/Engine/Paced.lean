import Mathlib.Data.List.Chain
import WideColumn.Proofs.Engine.Runs
import WideColumn.Proofs.Engine.Surfaces

/-!
How often the caches are dropped. A run falls into turns. Only a turn in which an execution is refused
with a fault of the schema may drop them, and then drops all of them. Two such turns are at least the
limiter's interval apart, and no such fault is ignored that comes as late as that after the last one.
-/
namespace WideColumn

variable {σ ρ : Type}

/-- The limiter compares with the one time it remembers, even if the clock has gone backwards since. -/
theorem Limiter.admits_iff {l : Limiter} (positive : 0 < l.interval) {now : Nat} :
    l.admits now = true ↔ ∀ s, l.last = some s → s + l.interval ≤ now := by
  rw [admits]
  cases l.last with
  | none => simp
  | some s =>
    simp only [decide_eq_true_eq, Option.some.injEq, forall_eq']
    omega

/-- An execution was refused with a fault of the schema. -/
def Event.isSchemaFault : Event → Bool
  | execute _ _ (.error fault) => fault.isSchemaFault
  | _ => false

def Event.dropsMetadata : Event → Bool
  | metadataDropped => true
  | _ => false

def Event.dropsStatements : Event → Bool
  | statementsDropped => true
  | _ => false

/-- When events of this kind have happened. -/
def timesOf (kind : Event → Bool) (trace : List (Nat × Event)) : List Nat :=
  (trace.filter fun e => kind e.2).map Prod.fst

/-- What happens at one time. -/
inductive Turn
  /-- Something after which nothing is dropped. -/
  | event (e : Event)
  /-- An execution is refused, and upon that all caches are dropped. -/
  | clearing (request : Request) (options : Options) (fault : Fault)

namespace Turn

def events : Turn → List Event
  | event e => [e]
  | clearing request options fault =>
    [.execute request options (.error fault), .metadataDropped, .statementsDropped]

def isClearing : Turn → Bool
  | clearing _ _ _ => true
  | _ => false

end Turn

/-- Turns with their times, oldest first. -/
abbrev Turns := List (Nat × Turn)

namespace Turns

def trace (turns : Turns) : List (Nat × Event) := turns.flatMap fun x => x.2.events.map (x.1, ·)

/-- When the caches have been dropped. -/
def clears (turns : Turns) : List Nat :=
  turns.filterMap fun x => if x.2.isClearing then some x.1 else none

/-- All caches are dropped just for those faults of the schema that come the interval after the last
time, or without any time before. -/
def Due (interval : Nat) (past : Turns) : Nat × Turn → Prop
  | (t, .event e) => e.isDrop = false ∧
      (e.isSchemaFault = true → ∃ s, past.clears.getLast? = some s ∧ t < s + interval)
  | (t, .clearing _ _ fault) => fault.isSchemaFault = true ∧
      ∀ s, past.clears.getLast? = some s → s + interval ≤ t

variable {interval : Nat} {turns : Turns}

theorem trace_append (xs ys : Turns) : trace (xs ++ ys) = xs.trace ++ ys.trace := List.flatMap_append

theorem clears_append (xs ys : Turns) : clears (xs ++ ys) = xs.clears ++ ys.clears :=
  List.filterMap_append

/-- One time after the other, each is the interval after the one before it. -/
theorem clears_apart (due : Throughout (Due interval) [] turns) :
    turns.clears.IsChain fun s t => s + interval ≤ t := by
  induction turns using List.reverseRecOn with
  | nil => exact .nil
  | append_singleton turns x ih =>
    obtain ⟨earlier, last⟩ := throughout_append.mp due
    obtain ⟨last, -⟩ := throughout_cons.mp last
    rw [clears_append, List.isChain_append]
    obtain ⟨t, e | ⟨request, options, fault⟩⟩ := x
    · exact ⟨ih earlier, .nil, fun s _ t none => by cases none⟩
    · refine ⟨ih earlier, .singleton t, ?_⟩
      rintro s before _ ⟨⟩
      exact last.2 s before

/-- Both kinds of drops happen when caches are dropped, and at no other time. -/
theorem timesOf_drops {kind : Event → Bool} (only : ∀ e, e.isDrop = false → kind e = false)
    (once : (kind .metadataDropped ^^ kind .statementsDropped) = true)
    (due : Throughout (Due interval) [] turns) : timesOf kind turns.trace = turns.clears := by
  induction turns using List.reverseRecOn with
  | nil => rfl
  | append_singleton turns x ih =>
    obtain ⟨earlier, last⟩ := throughout_append.mp due
    obtain ⟨last, -⟩ := throughout_cons.mp last
    rw [clears_append, ← ih earlier, trace_append, timesOf, List.filter_append, List.map_append]
    refine congrArg _ ?_
    obtain ⟨t, e | ⟨request, options, fault⟩⟩ := x
    · have other : kind e = false := only e last.1
      simp [trace, clears, Turn.events, Turn.isClearing, other]
    · have refusal := only (.execute request options (.error fault)) rfl
      cases metadata : kind .metadataDropped <;> cases statements : kind .statementsDropped <;>
        simp [trace, clears, Turn.events, Turn.isClearing, refusal, metadata, statements] at once ⊢

end Turns

namespace World

open Turns

variable {interval : Nat} {turns : Turns} {w v : World σ}

/-- The trace of the world falls into these turns, and the limiter remembers the last of them that has
dropped the caches. -/
structure Paced (interval : Nat) (turns : Turns) (w : World σ) : Prop where
  trace : w.trace = turns.trace
  due : Throughout (Due interval) [] turns
  limiter : w.catalog.limiter = ⟨interval, turns.clears.getLast?⟩

namespace Paced

theorem turn (h : w.Paced interval turns) {x : Turn} (due : Due interval turns (w.clock, x))
    (trace : v.trace = w.trace ++ x.events.map (w.clock, ·))
    (limiter : v.catalog.limiter =
      ⟨interval, if x.isClearing then some w.clock else turns.clears.getLast?⟩) :
    v.Paced interval (turns ++ [(w.clock, x)]) := by
  refine ⟨?_, throughout_append.mpr ⟨h.due, throughout_cons.mpr ⟨due, .nil⟩⟩, ?_⟩
  · rw [trace, h.trace, trace_append]
    exact congrArg _ (List.append_nil _).symm
  · rw [limiter, clears_append]
    cases x <;> simp [Turn.isClearing, clears]

theorem quiet (h : w.Paced interval turns) (asked : w.Quiet v) : ∃ later, v.Paced interval later := by
  obtain ⟨es, trace, questions⟩ := asked.grown
  have told : Turns.trace (es.map fun e => (e.1, .event e.2)) = es := by
    simp [Turns.trace, List.flatMap_map, Turn.events]
  have none : Turns.clears (es.map fun e => (e.1, .event e.2)) = [] := by
    simp [Turns.clears, Turn.isClearing]
  refine ⟨turns ++ es.map fun e => (e.1, .event e.2), ?_, ?_, ?_⟩
  · rw [trace, h.trace, trace_append, told]
  · refine throughout_append.mpr ⟨h.due, .of_forall fun past x hx => ?_⟩
    obtain ⟨⟨t, e⟩, he, rfl⟩ := List.mem_map.mp hx
    have question := questions _ he
    cases e <;> first | exact ⟨rfl, fun none => by cases none⟩ | cases question
  · rw [asked.limiter, h.limiter, clears_append, none, List.append_nil]

variable [Store σ]

/-- An execution is a turn. It drops all caches, or leaves them as they are. -/
theorem dispatch (positive : 0 < interval) (h : w.Paced interval turns) (request : Request)
    (options : Options) : ∃ x, ((Op.dispatch request options).run w).2.Paced interval
        (turns ++ [(w.clock, x)]) ∧
      (x.isClearing = true → ((Op.dispatch request options).run w).2.CachesEmpty) ∧
      (x.isClearing = false → w.CachesKept ((Op.dispatch request options).run w).2) := by
  have admits : w.catalog.limiter.admits w.clock = true ↔
      ∀ s, turns.clears.getLast? = some s → s + interval ≤ w.clock := by
    rw [h.limiter]
    exact Limiter.admits_iff positive
  rw [Op.run_dispatch]
  rcases Store.execute request options w.store with ⟨fault | page, store⟩
  · cases due : fault.isSchemaFault && w.catalog.limiter.admits w.clock with
    | true =>
      simp only [due, ↓reduceIte]
      obtain ⟨schema, admitted⟩ := Bool.and_eq_true_iff.mp due
      refine ⟨.clearing request options fault, h.turn ⟨schema, admits.mp admitted⟩ ?_ ?_, ?_, ?_⟩
      · exact List.append_assoc _ _ _
      · show ({ w.catalog.limiter with last := some w.clock } : Limiter) = _
        rw [h.limiter]
        rfl
      · exact fun _ => dropped_empty _
      · exact fun none => by cases none
    | false =>
      simp only [due, Bool.false_eq_true, ↓reduceIte]
      refine ⟨.event (.execute request options (.error fault)),
        h.turn ⟨rfl, fun schema => ?_⟩ rfl h.limiter, ?_, ?_⟩
      · -- a fault of the schema without consequences: the limiter held it back
        by_contra late
        refine Bool.eq_false_iff.mp due (Bool.and_eq_true_iff.mpr ⟨schema, admits.mpr fun s last => ?_⟩)
        exact Nat.le_of_not_lt fun soon => late ⟨s, last, soon⟩
      · exact fun none => by cases none
      · exact fun _ => ⟨rfl, rfl, rfl⟩
  · refine ⟨.event (.execute request options (.ok page)), h.turn ⟨rfl, fun none => by cases none⟩ rfl
      h.limiter, ?_, ?_⟩
    · exact fun none => by cases none
    · exact fun _ => ⟨rfl, rfl, rfl⟩

theorem stable (positive : 0 < interval) :
    Stable fun w : World σ => ∃ turns, w.Paced interval turns where
  logs := fun ⟨_, h⟩ asked => h.quiet asked
  dispatched request options := fun ⟨turns, h⟩ =>
    let ⟨x, paced, _⟩ := h.dispatch positive request options
    ⟨turns ++ [(_, x)], paced⟩

omit [Store σ] in
theorem new (config : Config) (s : σ) :
    (World.new config s).Paced config.invalidationInterval [] :=
  ⟨rfl, .nil, rfl⟩

end Paced
end World

open Turns

variable [Store σ]

/-- In every run the metadata and the prepared statements are dropped together, and only for a fault of
the schema that an execution is refused with: for each that comes the interval after the last time, or
first, and for no other. So it goes on with the next request, whatever it is answered, and whoever has
sent it is told the fault that it was refused with. -/
theorem run_clears {owners : ρ → Registry σ ρ} (ho : ∀ o, (owners o).OnlyDraws) (config : Config)
    (positive : 0 < config.invalidationInterval) (s : σ) (actions : List (Action σ ρ)) :
    let interval := config.invalidationInterval
    let w := (World.new config s).performAll owners actions
    ∃ turns : Turns, w.trace = turns.trace ∧ Throughout (Due interval) [] turns ∧
      timesOf Event.dropsMetadata w.trace = turns.clears ∧
      timesOf Event.dropsStatements w.trace = turns.clears ∧
      turns.clears.IsChain (fun s t => s + interval ≤ t) ∧
      (∀ request options, ∃ x : Turn,
        let v := ((Op.dispatch request options).run w).2
        v.trace = w.trace ++ x.events.map (w.clock, ·) ∧ Due interval turns (w.clock, x) ∧
          (x.isClearing = true → v.CachesEmpty) ∧ (x.isClearing = false → w.CachesKept v)) ∧
      (∀ t, Op.Surfaces (Op.submit t : Op σ ResultMeta)) ∧
      (∀ c, Op.Surfaces (Op.query c : Op σ Rows)) ∧
      (∀ r, Op.Surfaces (Op.fetchMore r : Op σ Rows)) := by
  intro interval w
  obtain ⟨turns, paced⟩ : ∃ turns, w.Paced interval turns :=
    (World.Paced.stable positive).performAll ho ⟨[], .new config s⟩ actions
  have other (e : Event) (keeps : e.isDrop = false) :
      e.dropsMetadata = false ∧ e.dropsStatements = false := by
    cases e <;> first | exact ⟨rfl, rfl⟩ | cases keeps
  refine ⟨turns, paced.trace, paced.due, ?_, ?_, clears_apart paced.due, fun request options => ?_,
    Op.surfaces_submit, Op.surfaces_query, Op.surfaces_fetchMore⟩
  · rw [paced.trace]
    exact timesOf_drops (fun e keeps => (other e keeps).1) rfl paced.due
  · rw [paced.trace]
    exact timesOf_drops (fun e keeps => (other e keeps).2) rfl paced.due
  obtain ⟨x, next, empty, kept⟩ := paced.dispatch positive request options
  obtain ⟨-, last⟩ := throughout_append.mp next.due
  refine ⟨x, ?_, (throughout_cons.mp last).1, empty, kept⟩
  rw [next.trace, trace_append, paced.trace]
  exact congrArg _ (List.append_nil _)

/-- Faults of the schema: one that drops the caches, one too soon after it, one after the clock has gone
backwards, and one just as late as it takes to drop them again. -/
theorem dropped_twice :
    let id : TableId := ⟨"k", "a"⟩
    let config : Config := { invalidationInterval := 100 }
    let s : Script :=
      { tables := [⟨id, [⟨"id", .int, .partitionKey⟩]⟩]
        answers := [.error (.invalidQuery "gone"), .error (.internal "stale"), .error (.internal "stale"),
          .error .timeout, .error (.invalidQuery "gone")] }
    let owners : Unit → Registry Script Unit :=
      fun _ => { onRows := [fun _ => Behaviour.editRows none []] }
    let insert : Action Script Unit :=
      .execute ⟨none, {}, .write { table := id, values := .ofList [("id", .int 1)] }⟩
    let read : Action Script Unit := .readOne ⟨some (), {}, { table := id, cardinality := .many }⟩
    let w := (World.new config s).performAll owners [.pause (.clock 1000), insert, .pause (.clock 1099),
      read, .pause (.clock 500), insert, insert, .pause (.clock 1100), read]
    (∀ o, (owners o).OnlyDraws) ∧ 0 < config.invalidationInterval ∧
      timesOf Event.dropsMetadata w.trace = [1000, 1100] ∧
      ∃ turns : Turns, w.trace = turns.trace ∧ turns.clears = [1000, 1100] ∧
        Throughout (Due 100) [] turns := by
  intro id config s owners insert read w
  have ho : ∀ o, (owners o).OnlyDraws := by
    intro o f hf q r w
    obtain rfl := List.mem_singleton.mp hf
    obtain ⟨draws, none⟩ := Behaviour.editRows_draws none [] r w
    exact ⟨draws, fun r' made => .inl (none r' made)⟩
  have times : timesOf Event.dropsMetadata w.trace = [1000, 1100] := by decide +kernel
  obtain ⟨turns, trace, due, metadata, -⟩ := run_clears ho config (by decide) s [.pause (.clock 1000),
    insert, .pause (.clock 1099), read, .pause (.clock 500), insert, insert, .pause (.clock 1100), read]
  exact ⟨ho, by decide, times, turns, trace, metadata.symm.trans times, due⟩

end WideColumn
