import WideColumn.Engine.Refresh
import WideColumn.Proofs.Cache.Holds
import WideColumn.Proofs.Record.Reading
import WideColumn.Scenario.Setting

/-!
Rows fetch pages of the read they come from and nothing else, whatever is done with them.
-/
namespace WideColumn

variable {σ ρ : Type}

/-- What may happen between two requests without anyone's asking for it. -/
inductive Pause (σ : Type)
  /-- The refresh that has been started, if any, comes to its end. -/
  | refresh
  | clock (now : Nat)
  /-- Others have changed the store. -/
  | store (changed : σ)
  /-- Places of the caches are lost. -/
  | evict (tables : TableId → Bool) (types : TypeName → Bool) (statements : String → Bool)

variable [Store σ]

def World.pause (w : World σ) : Pause σ → World σ
  | .refresh => (Op.finishRefresh.run w).2
  | .clock now => { w with clock := now }
  | .store changed => { w with store := changed }
  | .evict tables types statements =>
    { w with
      catalog := { w.catalog with
        tables := w.catalog.tables.keep tables
        types := w.catalog.types.keep types }
      statements := w.statements.keep statements }

/-- From the one world to the other further pages of a read have been asked for, with pauses. -/
inductive Draws (source : Option Compiled) : World σ → World σ → Prop
  | rest (w : World σ) : Draws source w w
  | fetch {w v u : World σ} {c : Compiled} {state : Bytes} {outcome : Except Error Page} :
      source = some c → (Op.fetchPage c (some state)).run w = (outcome, v) → Draws source v u →
      Draws source w u
  | pause {w u : World σ} (p : Pause σ) : Draws source (w.pause p) u → Draws source w u

variable {source : Option Compiled} {w v u : World σ}

theorem Draws.trans (h : Draws source w v) (h' : Draws source v u) : Draws source w u := by
  induction h with
  | rest => exact h'
  | fetch hs fetched _ ih => exact .fetch hs fetched (ih h')
  | pause p _ ih => exact .pause p (ih h')

namespace Rows

variable {r r' : Rows}

theorem draws_fetchMore (r : Rows) (w : World σ) : Draws r.source w ((Op.fetchMore r).run w).2 ∧
    ∀ r', ((Op.fetchMore r).run w).1 = .ok r' → r'.source = r.source := by
  cases more : r.continuation with
  | none =>
    rw [Op.fetchMore, more]
    exact ⟨.rest w, fun r' same => by cases same; rfl⟩
  | some continuation =>
    obtain ⟨c, state⟩ := continuation
    obtain ⟨source, -⟩ := of_continuation more
    simp only [Op.fetchMore, more]
    rcases fetched : (Op.fetchPage c (some state)).run w with ⟨e | p, v⟩
    · rw [Op.run_bind_error fetched]
      exact ⟨.fetch source fetched (.rest v), fun r' same => by cases same⟩
    · rw [Op.run_bind_ok fetched]
      exact ⟨.fetch source fetched (.rest v), fun r' same => by cases same; rfl⟩

theorem draws_more (r : Rows) (w : World σ) :
    Draws r.source w (r.more.run w).2 ∧ (r.more.run w).1.rows.source = r.source := by
  obtain ⟨draws, same⟩ := draws_fetchMore r w
  rcases fetched : (Op.fetchMore r).run w with ⟨e | r', v⟩
  · rw [fetched] at draws
    have kept : r.more.run w = (⟨.error e, r⟩, v) := run_step fetched
    rw [kept]
    exact ⟨draws, rfl⟩
  · rw [fetched] at draws same
    have moved : r.more.run w = (⟨.ok (), r'⟩, v) := run_step fetched
    rw [moved]
    exact ⟨draws, same r' rfl⟩

theorem draws_fillWithin (n : Nat) (r : Rows) (w : World σ) :
    Draws r.source w ((fillWithin n r).run w).2 ∧
      ((fillWithin n r).run w).1.rows.source = r.source := by
  induction n generalizing r w with
  | zero => exact ⟨.rest w, rfl⟩
  | succ n ih =>
    rw [fillWithin]
    split
    · obtain ⟨draws, same⟩ := draws_more r w
      rcases fetched : r.more.run w with ⟨⟨e | _, r'⟩, v⟩ <;> rw [fetched] at draws same <;>
        rw [run_step fetched]
      · exact ⟨draws, same⟩
      · obtain ⟨later, same'⟩ := ih r' v
        exact ⟨draws.trans (same ▸ later), same'.trans same⟩
    · exact ⟨.rest w, rfl⟩

theorem draws_fill (r : Rows) (w : World σ) :
    Draws r.source w (r.fill.run w).2 ∧ (r.fill.run w).1.rows.source = r.source :=
  draws_fillWithin _ r w

theorem draws_next (r : Rows) (w : World σ) :
    Draws r.source w (r.next.run w).2 ∧ (r.next.run w).1.rows.source = r.source := by
  obtain ⟨draws, same⟩ := draws_fill r w
  rcases filled : r.fill.run w with ⟨⟨e | _, ⟨source, buffered, pagingState, result⟩⟩, v⟩ <;>
    rw [filled] at draws same <;> rw [next, run_step filled]
  · exact ⟨draws, same⟩
  · cases buffered <;> exact ⟨draws, same⟩

theorem draws_drainWithin (n : Nat) (r : Rows) (w : World σ) :
    Draws r.source w ((drainWithin n r).run w).2 := by
  induction n generalizing r w with
  | zero => exact .rest w
  | succ n ih =>
    rw [drainWithin]
    split
    · exact .rest w
    · obtain ⟨draws, same⟩ := draws_fetchMore r w
      rcases fetched : (Op.fetchMore r).run w with ⟨e | r', v⟩ <;> rw [fetched] at draws same
      · rw [Op.run_bind_error fetched]
        exact draws
      · rw [Op.run_bind_ok fetched]
        exact draws.trans (same r' rfl ▸ ih r' v)

theorem draws_collect (r : Rows) (w : World σ) : Draws r.source w (r.collect.run w).2 := by
  have drained := draws_drainWithin (Store.pagesToCome w.store + 1) r w
  rw [collect, Op.run_bind_ok (Op.run_get w)]
  rcases ran : (drainWithin (Store.pagesToCome w.store + 1) r).run w with ⟨e | r', v⟩ <;>
    rw [ran] at drained
  · rw [Op.run_bind_error ran]
    exact drained
  · rw [Op.run_bind_ok ran]
    exact drained

theorem draws_streamWithin (n : Nat) (r : Rows) (w : World σ) :
    Draws r.source w ((streamWithin n r).run w).2 := by
  induction n generalizing r w with
  | zero => exact .rest w
  | succ n ih =>
    rw [streamWithin]
    split
    · exact .rest w
    · obtain ⟨draws, same⟩ := draws_more { r with buffered := [] } w
      rcases fetched : ({ r with buffered := [] } : Rows).more.run w with ⟨⟨e | _, r'⟩, v⟩ <;>
        rw [fetched] at draws same <;> rw [run_step fetched]
      · exact draws
      · exact draws.trans (same ▸ ih r' v)

theorem draws_stream (r : Rows) (w : World σ) : Draws r.source w (r.stream.run w).2 :=
  draws_streamWithin _ r w

theorem draws_single (r : Rows) (table : TableId) (w : World σ) :
    Draws r.source w ((r.single table).run w).2 := by
  obtain ⟨draws, same⟩ := draws_next r w
  rw [single]
  rcases taken : r.next.run w with ⟨⟨e | _ | record, r'⟩, v⟩ <;> rw [taken] at draws same <;>
    rw [Op.run_bind_ok (Op.run_lift taken)]
  · exact draws
  · exact draws
  · obtain ⟨later, -⟩ := draws_fill r' v
    dsimp only
    rw [Op.run_bind_ok (Op.run_ofExcept _ _)]
    rcases filled : r'.fill.run v with ⟨⟨e | _, r''⟩, u⟩ <;> rw [filled] at later <;>
      rw [Op.run_bind_ok (Op.run_lift filled)]
    · exact draws.trans (same ▸ later)
    · rw [Op.run_bind_ok (Op.run_ofExcept _ _)]
      split <;> exact draws.trans (same ▸ later)

end Rows

/-- What the interceptors of this registry do with rows: they may fetch further pages of them, and what
they hand on goes on with the same read or with none. -/
def Registry.OnlyDraws (g : Registry σ ρ) : Prop :=
  ∀ f ∈ g.onRows, ∀ q (r : Rows) (w : World σ), Draws r.source w ((f q r).run w).2 ∧
    ∀ r', ((f q r).run w).1 = .ok r' → r'.source = none ∨ r'.source = r.source

namespace Registry

variable {g : Registry σ ρ}

omit [Store σ] in
/-- What holds without interceptors and for those of each owner holds for the interceptors of anyone. -/
theorem of_owner {owners : ρ → Registry σ ρ} {P : Registry σ ρ → Prop} (none : P {})
    (ho : ∀ o, P (owners o)) (owner : Option ρ) : P ((owner.map owners).getD {}) := by
  cases owner with
  | none => exact none
  | some o => exact ho o

omit [Store σ] in
/-- All interceptors of rows together do what each of them does, if that can be done in sequence. -/
theorem applyRows_closed {C : Op σ Rows → Prop} (pure : ∀ r, C (pure r))
    (bind : ∀ {x : Op σ Rows} {k : Rows → Op σ Rows}, C x → (∀ r, C (k r)) → C (x >>= k))
    (hg : ∀ f ∈ g.onRows, ∀ q r, C (f q r)) (q : Read) (r : Rows) : C (g.applyRows q r) := by
  rw [applyRows]
  generalize g.onRows = fs at hg
  induction fs generalizing r with
  | nil => exact pure r
  | cons f fs ih =>
    rw [List.foldlM_cons]
    obtain ⟨first, rest⟩ := List.forall_mem_cons.mp hg
    exact bind (first q r) fun r' => ih r' rest

end Registry

namespace Reading

/-- Between the calls for rows and pages there may be pauses. -/
def use (g : Reading σ) : Demand ⊕ Pause σ → Reading σ
  | .inl call => (g.serve call).2
  | .inr p => { g with world := g.world.pause p }

def useAll (g : Reading σ) (uses : List (Demand ⊕ Pause σ)) : Reading σ := uses.foldl use g

theorem draws_use (g : Reading σ) (d : Demand ⊕ Pause σ) :
    Draws g.rows.source g.world (g.use d).world ∧ (g.use d).rows.source = g.rows.source := by
  match d with
  | .inl .row => exact g.rows.draws_next g.world
  | .inl .page => exact g.rows.draws_more g.world
  | .inr p => exact ⟨.pause p (.rest _), rfl⟩

theorem draws_useAll (g : Reading σ) (uses : List (Demand ⊕ Pause σ)) :
    Draws g.rows.source g.world (g.useAll uses).world ∧ (g.useAll uses).rows.source = g.rows.source := by
  induction uses generalizing g with
  | nil => exact ⟨.rest _, rfl⟩
  | cons d uses ih =>
    obtain ⟨draws, same⟩ := g.draws_use d
    obtain ⟨later, same'⟩ := ih (g.use d)
    exact ⟨draws.trans (same ▸ later), same'.trans same⟩

/-- What becomes of rows in the end: nothing, or all that is left of them is taken. -/
inductive Ending
  | dropped
  | collected
  | streamed

def close (g : Reading σ) : Ending → World σ
  | .dropped => g.world
  | .collected => (g.rows.collect.run g.world).2
  | .streamed => (g.rows.stream.run g.world).2

theorem draws_close (g : Reading σ) (ending : Ending) :
    Draws g.rows.source g.world (g.close ending) := by
  cases ending with
  | dropped => exact .rest _
  | collected => exact g.rows.draws_collect g.world
  | streamed => exact g.rows.draws_stream g.world

end Reading

/-- Scripted interceptors fetch what is left, and hand on rows that are all there. -/
theorem Behaviour.editRows_draws (failure : Option Error) (actions : List RowAction) (r : Rows)
    (w : World Script) : Draws r.source w ((editRows failure actions r).run w).2 ∧
      ∀ r', ((editRows failure actions r).run w).1 = .ok r' → r'.source = none := by
  have drawn := r.draws_collect w
  rw [editRows]
  cases failure with
  | some e => exact ⟨.rest w, fun r' same => by cases same⟩
  | none =>
    rw [orFail, Op.run_bind_ok (Op.run_ofExcept _ w)]
    rcases collected : r.collect.run w with ⟨e | records, v⟩ <;> rw [collected] at drawn
    · rw [Op.run_bind_error collected]
      exact ⟨drawn, fun r' same => by cases same⟩
    · rw [Op.run_bind_ok collected]
      exact ⟨drawn, fun r' same => by cases same; rfl⟩

end WideColumn
