import WideColumn.Proofs.Cache.Keyed
import WideColumn.Proofs.Cache.Orderly
import WideColumn.Proofs.Engine.Concourse

/-!
The callers in the middle of all that goes on. Whatever is done, they and the cache take a step of a hub
at most, so that their order there is kept.
-/
namespace WideColumn.Concourse

variable {σ : Type} {c : Concourse σ}

/-- Who returns leaves the cache and the callers as they are. -/
theorem takeLeave_hub (c : Concourse σ) (i : Nat) (entry : TableEntry) :
    (c.takeLeave i entry).hub = c.hub := by
  rw [takeLeave]
  split
  · rfl
  · split
    · rfl
    · rename_i held taken
      obtain ⟨-, rfl⟩ := Catalog.claim_eq_some.mp taken
      rfl
  · split <;> rfl
  · rfl
  · rfl

/-- It only starts a refresh, if anything. -/
theorem takeLeave_kept (c : Concourse σ) (i : Nat) (entry : TableEntry) :
    (c.takeLeave i entry).answers = c.answers ∧ (c.takeLeave i entry).world.events = c.world.events ∧
    ((c.takeLeave i entry).errands = c.errands ∨
      (c.takeLeave i entry).errands = c.errands ++ [.ready]) := by
  rw [takeLeave]
  split
  · exact ⟨rfl, rfl, .inl rfl⟩
  · split <;> exact ⟨rfl, rfl, .inl rfl⟩
  · split <;> exact ⟨rfl, rfl, .inl rfl⟩
  · exact ⟨rfl, rfl, .inr rfl⟩
  · exact ⟨rfl, rfl, .inl rfl⟩

private theorem shifts_hub {tables : Cache TableId TableEntry} (h : c.catalog.tables.Shifts tables) :
    ∃ m, c.hub.Happens m (c.hub.withCache tables) := ⟨.clear, .shifts rfl h⟩

/-- The callers are in order, each at a place of its key. -/
structure Ordered (c : Concourse σ) : Prop where
  orderly : c.hub.Orderly
  keyed : c.hub.Keyed

variable [Store σ]

/-- A load has begun. -/
theorem step_begin {i : Nat} {id : TableId} {slot : Nat} (hi : c.stand i = .waiting id slot)
    (turn : c.hub.isTurn i slot = true) : c.step (.begin i) =
      { c with
        world := c.world.answered (Store.describeTable id c.world.store).2
          (.describeTable id (Store.describeTable id c.world.store).1)
        flights := (c.hub.traffic.begin slot).flights
        stand := Function.update c.stand i (.loading id slot)
        answers := Function.update c.answers i (Store.describeTable id c.world.store).1 } := by
  have hub : c.hub.step (.begin i) = { c.hub with
      traffic := c.hub.traffic.begin slot
      stand := Function.update c.stand i (.loading id slot) } := by
    simp only [Hub.step, show c.hub.stand i = .waiting id slot from hi, turn, if_true]
    rfl
  simp only [step, hi, turn, if_true, hub]
  rfl

/-- Whatever is done, the callers and the cache take a step of their own at most. -/
theorem happens (c : Concourse σ) (m : Move σ) : ∃ m', c.hub.Happens m' (c.step m).hub := by
  have nothing : ∃ m', c.hub.Happens m' c.hub := ⟨_, .nothing .clear⟩
  cases m with
  | lookUp i id => exact ⟨.lookUp i id, c.hub.happens (.lookUp i id)⟩
  | evict id => exact ⟨.remove id, c.hub.happens (.remove id)⟩
  | begin i =>
    cases hi : c.stand i with
    | waiting id slot =>
      cases turn : c.hub.isTurn i slot with
      | true =>
        rw [step_begin hi turn]
        exact ⟨.begin i, .begins (h := c.hub) hi turn⟩
      | false =>
        simp only [step, hi, turn]
        exact nothing
    | _ =>
      simp only [step, hi]
      exact nothing
  | finish i =>
    rw [step]
    split
    · rename_i id slot hi
      exact ⟨.finish i _, c.hub.happens (.finish i ((Op.tableEntry id (c.answers i)).run c.world).1)⟩
    · exact nothing
  | leave i =>
    rw [step]
    split
    · exact (c.takeLeave_hub i _) ▸ nothing
    · exact nothing
  | advance n =>
    rw [step]
    split
    · exact nothing
    · rename_i ids _
      cases ids <;> exact nothing
    · rename_i v _
      rcases answer : v.answer with _ | _ | table
      · exact nothing
      · exact shifts_hub (.of_subset List.filter_sublist.subset rfl)
      · exact shifts_hub (Cache.shifts_add _)
    · exact nothing
  | cut n =>
    rw [step]
    split <;> exact nothing
  | invalidate =>
    rw [step, Op.run_invalidateMetadata]
    split
    · exact shifts_hub (.of_subset (List.nil_subset _) rfl)
    · exact nothing
  | wait | change => exact nothing

theorem Ordered.step (ordered : c.Ordered) (m : Move σ) : (c.step m).Ordered := by
  obtain ⟨m', happens⟩ := c.happens m
  exact ⟨ordered.orderly.happens happens, ordered.keyed.happens happens⟩

/-- The concourse has come to be as it is by some moves from the start. -/
def Reached (c : Concourse σ) : Prop :=
  ∃ config s driven moves, c = (new config s driven).run moves

theorem Reached.ordered (reached : c.Reached) : c.Ordered := by
  obtain ⟨config, s, driven, moves, rfl⟩ := reached
  refine run_induction ⟨?_, ?_⟩ fun _ m ordered => ordered.step m
  · exact .new config.tableCapacity
  · exact .new config.tableCapacity

end WideColumn.Concourse
