import Mathlib.Data.Multiset.DershowitzManna
import Mathlib.Logic.Relation
import WideColumn.Proofs.Engine.Cascade
import WideColumn.Scenario.Script

/-!
How long cascades go on. One member after the other is taken out of a queue, and what it cascades into is
added to the queue, any number of members. Still the queue runs empty, as the members that are added have
fewer levels left below them than the one that was taken out.
-/
namespace WideColumn

variable {σ ρ : Type}

/-- What the members cascade into on the level that many below them. -/
def generation (owners : ρ → Registry σ ρ) : Nat → List (Member ρ) → List (Member ρ)
  | 0, members => members
  | depth + 1, members => (generation owners depth members).flatMap (·.offspring owners)

namespace Op

/-- Work under way: the world, the statements made so far, and the members that wait with their
depths. -/
structure Progress (σ ρ : Type) where
  world : World σ
  statements : List Compiled
  queue : List (Member ρ × Nat)

def Progress.start (w : World σ) (members : List (Member ρ)) : Progress σ ρ :=
  ⟨w, [], members.map (·, 0)⟩

/-- The levels that are left below each of the members that wait. -/
def Progress.remaining (s : Progress σ ρ) : Multiset Nat :=
  (s.queue.map fun p => cascadeLevels - p.2 : List Nat)

variable [Store σ] (owners : ρ → Registry σ ρ) (ctx : Context)

/-- The first member of the queue is visited without a failure. -/
inductive Turn : Progress σ ρ → Progress σ ρ → Prop
  | visited {w v : World σ} {made : List Compiled} {m : Member ρ} {depth : Nat}
      {queue : List (Member ρ × Nat)} {statement : Compiled} {cascaded : List (Member ρ)} :
      (visit owners ctx m depth).run w = (.ok (statement, cascaded), v) →
      Turn ⟨w, made, (m, depth) :: queue⟩
        ⟨v, made ++ [statement], queue ++ cascaded.map (·, depth + 1)⟩

/-- The work stands there some turns after it was begun. -/
def Reached (w : World σ) (members : List (Member ρ)) : Progress σ ρ → Prop :=
  Relation.ReflTransGen (Turn owners ctx) (.start w members)

variable {owners ctx} {s t : Progress σ ρ}

theorem Turn.shrinks (h : Turn owners ctx s t) :
    t.remaining.IsDershowitzMannaLT s.remaining := by
  cases h with
  | @visited w v made m depth queue statement cascaded visited =>
    obtain ⟨-, -, last⟩ := visit_ok visited
    refine ⟨(queue.map fun p => cascadeLevels - p.2 : List Nat),
      (cascaded.map fun _ => cascadeLevels - (depth + 1) : List Nat), {cascadeLevels - depth}, by simp,
      ?_, ?_, fun left member => ⟨cascadeLevels - depth, Multiset.mem_singleton_self _, ?_⟩⟩
    · simp [Progress.remaining, Function.comp_def]
    · rw [add_comm]
      rfl
    · obtain ⟨k, child, rfl⟩ := List.mem_map.mp (Multiset.mem_coe.mp member)
      have above : ¬ cascadeLevels ≤ depth := fun deep => by
        rw [last deep] at child
        cases child
      omega

/-- No work goes on forever, wherever it stands. -/
theorem turn_wellFounded (owners : ρ → Registry σ ρ) (ctx : Context) :
    WellFounded fun t s : Progress σ ρ => Turn owners ctx s t :=
  Subrelation.wf Turn.shrinks (InvImage.wf Progress.remaining Multiset.wellFounded_isDershowitzMannaLT)

section Reached

variable {w v : World σ} {members : List (Member ρ)} {m : Member ρ} {depth : Nat}
  {queue : List (Member ρ × Nat)} {work : Except Error (List (Member ρ × Compiled))}

/-- Whoever waits is as deep as its distance from the members, and not deeper than allowed. -/
theorem Reached.generation (h : Reached owners ctx w members s) :
    ∀ p ∈ s.queue, p.2 ≤ cascadeLevels ∧ p.1 ∈ generation owners p.2 members := by
  induction h with
  | refl =>
    intro p hp
    obtain ⟨m, member, rfl⟩ := List.mem_map.mp hp
    exact ⟨Nat.zero_le _, member⟩
  | tail _ turn ih =>
    cases turn with
    | @visited _ _ _ m depth queue _ cascaded visited =>
      obtain ⟨-, rfl, last⟩ := visit_ok visited
      intro p hp
      obtain waiting | added := List.mem_append.mp hp
      · exact ih p (List.mem_cons_of_mem _ waiting)
      · obtain ⟨k, child, rfl⟩ := List.mem_map.mp added
        have above : ¬ cascadeLevels ≤ depth := fun deep => by
          rw [last deep] at child
          cases child
        obtain ⟨-, origin⟩ := ih (m, depth) List.mem_cons_self
        exact ⟨by omega, List.mem_flatMap.mpr ⟨m, origin, child⟩⟩

theorem visit_of_prepared {statement : Compiled} {cascaded : List (Member ρ)} (depth : Nat)
    (h : (prepareMember owners ctx m).run w = (.ok (statement, cascaded), v)) :
    (visit owners ctx m depth).run w =
      if cascadeLevels ≤ depth ∧ cascaded ≠ [] then
        (.error (.validation (.cascadeTooDeep statement.table)), v)
      else (.ok (statement, cascaded), v) := by
  have eq : visit owners ctx m depth = do
      let made ← prepareMember owners ctx m
      if cascadeLevels ≤ depth ∧ made.2 ≠ [] then
        throw (.validation (.cascadeTooDeep made.1.table))
      return made := by
    rw [visit, prepareMember_eq]
    simp only [bind_assoc, pure_bind]
  rw [eq, run_bind_ok h]
  dsimp only
  split <;> rfl

/-- Work that has an outcome comes to it in turns. -/
theorem Worked.turns (h : Worked owners ctx w queue work v) (made : List Compiled) :
    ∃ s, Relation.ReflTransGen (Turn owners ctx) ⟨w, made, queue⟩ s ∧
      match work with
      | .ok pairs => s = ⟨v, made ++ pairs.map Prod.snd, []⟩
      | .error e => ∃ m depth rest, s.queue = (m, depth) :: rest ∧
          (visit owners ctx m depth).run s.world = (.error e, v) := by
  induction h generalizing made with
  | done w => exact ⟨⟨w, made, []⟩, .refl, by simp⟩
  | @stopped w v m depth queue e failed =>
    exact ⟨⟨w, made, (m, depth) :: queue⟩, .refl, m, depth, queue, rfl, failed⟩
  | @next w v u m depth queue statement cascaded work visited _ ih =>
    obtain ⟨s, turns, stands⟩ := ih (made ++ [statement])
    refine ⟨s, .head (.visited visited) turns, ?_⟩
    cases work with
    | error e => exact stands
    | ok pairs => simpa using stands

/-- The outcome of the work does not change with a turn. -/
theorem Worked.of_turn (h : Worked owners ctx s.world s.queue work v) (turn : Turn owners ctx s t) :
    ∃ rest, Worked owners ctx t.world t.queue rest v ∧ ∀ e, rest = .error e → work = .error e := by
  cases turn with
  | visited visited =>
    cases h with
    | stopped failed =>
      rw [visited] at failed
      cases failed
    | next visited' rest =>
      rw [visited] at visited'
      cases visited'
      refine ⟨_, rest, ?_⟩
      rintro e rfl
      rfl

theorem Worked.of_turns (h : Worked owners ctx s.world s.queue work v)
    (turns : Relation.ReflTransGen (Turn owners ctx) s t) :
    ∃ rest, Worked owners ctx t.world t.queue rest v ∧ ∀ e, rest = .error e → work = .error e := by
  induction turns with
  | refl => exact ⟨work, h, fun _ => id⟩
  | tail _ turn ih =>
    obtain ⟨rest, worked, error⟩ := ih
    obtain ⟨rest', worked', error'⟩ := worked.of_turn turn
    exact ⟨rest', worked', fun e failed => error e (error' e failed)⟩

end Reached

/-- A mutation is all of the work, and then one request. -/
theorem mutate_worked (owners : ρ → Registry σ ρ) (members : List (Member ρ)) (kind : Option BatchKind)
    (ctx : Context) (w : World σ) :
    ∃ work v, Worked owners ctx w (members.map (·, 0)) work v ∧
      (mutate owners members kind ctx).run w =
        match work with
        | .error e => (.error e, v)
        | .ok pairs => (do submit (← ofExcept (submission (pairs.map Prod.snd) kind ctx))).run v := by
  have top : 0 + cascadeLevels = cascadeLevels := Nat.zero_add _
  rcases hr : (prepareAll (prepareMember owners ctx) cascadeLevels members).run w with ⟨e | cs, v⟩
  · exact ⟨_, v, all_stopped top hr, run_bind_error hr⟩
  · obtain ⟨pairs, rfl, -, worked⟩ := all_worked top hr
    exact ⟨_, v, worked, run_bind_ok hr⟩

/-- Cascades end, however many mutations each of them produces, and what they cascade into again. No
member of the work is more than eight levels below one that was given, and if one on the eighth level
cascades then all ends with that, and nothing is sent. -/
theorem mutate_terminates (owners : ρ → Registry σ ρ) (members : List (Member ρ))
    (kind : Option BatchKind) (ctx : Context) (w : World σ) :
    (WellFounded fun t s : Progress σ ρ => Turn owners ctx s t) ∧
      (∃ s, Reached owners ctx w members s ∧
        ((s.queue = [] ∧ (mutate owners members kind ctx).run w =
            (do submit (← ofExcept (submission s.statements kind ctx))).run s.world) ∨
          ∃ m depth queue e v, s.queue = (m, depth) :: queue ∧
            (visit owners ctx m depth).run s.world = (.error e, v) ∧
            (mutate owners members kind ctx).run w = (.error e, v))) ∧
      ∀ s m depth queue, Reached owners ctx w members s → s.queue = (m, depth) :: queue →
        depth ≤ 8 ∧ m ∈ generation owners depth members ∧
        ∀ statement cascaded v,
          (prepareMember owners ctx m).run s.world = (.ok (statement, cascaded), v) → cascaded ≠ [] →
          if depth = 8 then
            (mutate owners members kind ctx).run w =
              (.error (.validation (.cascadeTooDeep statement.table)), v) ∧ v.sent = w.sent
          else Turn owners ctx s ⟨v, s.statements ++ [statement], queue ++ cascaded.map (·, depth + 1)⟩ := by
  obtain ⟨work, u, worked, outcome⟩ := mutate_worked owners members kind ctx w
  refine ⟨turn_wellFounded owners ctx, ?_, fun s m depth queue reached first => ?_⟩
  · obtain ⟨s, turns, stands⟩ := worked.turns []
    refine ⟨s, turns, ?_⟩
    cases work with
    | ok pairs =>
      subst stands
      exact .inl ⟨rfl, outcome⟩
    | error e =>
      obtain ⟨m, depth, queue, first, failed⟩ := stands
      exact .inr ⟨m, depth, queue, e, u, first, failed, outcome⟩
  · obtain ⟨w', made, _⟩ := s
    subst first
    obtain ⟨within, origin⟩ := reached.generation (m, depth) List.mem_cons_self
    refine ⟨within, origin, fun statement cascaded v prepared cascades => ?_⟩
    have visited := visit_of_prepared depth prepared
    split
    · rename_i eighth
      rw [if_pos ⟨Nat.le_of_eq eighth.symm, cascades⟩] at visited
      obtain ⟨rest, left, error⟩ := worked.of_turns reached
      obtain ⟨rfl, rfl⟩ := left.unique (.stopped visited)
      obtain rfl := error _ rfl
      exact ⟨outcome, worked.quiet.sent⟩
    · rename_i above
      have within : depth ≤ 8 := within
      rw [if_neg fun deep => above (Nat.le_antisymm within deep.1)] at visited
      exact .visited visited

/-- A deletion that cascades into itself. -/
theorem endless_cascade_ends :
    let id : TableId := ⟨"k", "a"⟩
    let new : World Script := World.new {} {}
    let world : World Script := { new with catalog := { new.catalog with
      tables := new.catalog.tables.insert id ⟨⟨id, [⟨"id", .int, .partitionKey⟩]⟩, 0⟩ } }
    let owners : Unit → Registry Script Unit := fun _ =>
      { cascadesOnDelete := [fun d => ⟨0, .ok [⟨.delete d, some ()⟩]⟩] }
    let m : Member Unit := ⟨.delete { table := id, conditions := [.compare "id" .eq (.int 1)] }, some ()⟩
    ∃ s statement, Reached owners {} world [m] s ∧ s.queue = [(m, 8)] ∧
      (prepareMember owners {} m).run s.world = (.ok (statement, [m]), world) ∧
      (mutate owners [m] none {}).run world = (.error (.validation (.cascadeTooDeep id)), world) ∧
      world.sent = [] := by
  intro id new world owners m
  have columns : (getColumns id).run world = (.ok ⟨⟨id, [⟨"id", .int, .partitionKey⟩]⟩, 0⟩, world) := by
    have acquired : world.catalog.tables.acquire id =
        (⟨id, 0, some ⟨⟨id, [⟨"id", .int, .partitionKey⟩]⟩, 0⟩⟩, world.catalog.tables) := by decide +kernel
    have found : (Shelf.tables.get world |>.acquire id).1.value = _ := congrArg (·.1.value) acquired
    have same : Shelf.tables.set (Shelf.tables.get world |>.acquire id).2 world = world :=
      congrArg (Shelf.tables.set ·.2 world) acquired
    rw [getColumns, run_bind_ok (getOrLoad_found found), same]
    rfl
  have bound : (binder id).run world = (.ok ⟨⟨⟨id, [⟨"id", .int, .partitionKey⟩]⟩, 0⟩, []⟩, world) := by
    rw [binder, run_bind_ok columns]
    rfl
  obtain ⟨statement, compiled, table⟩ : ∃ statement,
      (compileMutation m.mutation {}).run world = (.ok statement, world) ∧ statement.table = id := by
    refine ⟨_, (run_bind_ok rfl).trans ((run_bind_ok bound).trans rfl), rfl⟩
  have prepared : (prepareMember owners {} m).run world = (.ok (statement, [m]), world) :=
    (run_bind_ok rfl).trans ((run_bind_ok compiled).trans rfl)
  -- the world stays as it is, so each turn does nothing but go down one level
  have turns (depth : Nat) (within : depth ≤ 8) :
      ∃ made, Reached owners {} world [m] ⟨world, made, [(m, depth)]⟩ := by
    induction depth with
    | zero => exact ⟨[], .refl⟩
    | succ depth ih =>
      obtain ⟨made, reached⟩ := ih (Nat.le_of_succ_le within)
      have visited : (visit owners {} m depth).run world = (.ok (statement, [m]), world) := by
        rw [visit_of_prepared depth prepared, if_neg fun deep => Nat.not_le_of_lt within deep.1]
      have turn : Turn owners {} ⟨world, made, [(m, depth)]⟩
          ⟨world, made ++ [statement], [] ++ [m].map (·, depth + 1)⟩ := .visited visited
      exact ⟨made ++ [statement], reached.tail turn⟩
  obtain ⟨made, reached⟩ := turns 8 (Nat.le_refl 8)
  obtain ⟨-, -, all⟩ := mutate_terminates owners [m] none {} world
  obtain ⟨-, -, deep⟩ := all _ m 8 [] reached rfl
  obtain ⟨outcome, sent⟩ := deep statement [m] world prepared (by simp)
  rw [table] at outcome
  exact ⟨_, statement, reached, rfl, prepared, outcome, sent⟩

end Op
end WideColumn
