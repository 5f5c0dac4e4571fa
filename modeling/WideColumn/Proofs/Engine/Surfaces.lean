import WideColumn.Proofs.Engine.Actions

/-!
What becomes of faults. An execution that is refused ends its operation with that very fault, and a
fault of the schema drops the caches unless that has happened a short time before. A question that is
answered with a fault drops nothing, whatever the fault.
-/
namespace WideColumn

variable {σ ρ α β : Type}

/-- A request has been executed in vain. -/
def Event.isRefusal : Event → Bool
  | execute _ _ (.error _) => true
  | _ => false

namespace World

variable {w v u : World σ} {fault : Fault}

/-- From the one world to the other nothing sent has been refused, and nothing has been dropped. -/
structure Served (w v : World σ) : Prop where
  grown : ∃ es, v.events = w.events ++ es ∧ ∀ e ∈ es, e.isRefusal = false ∧ e.isDrop = false
  limiter : v.catalog.limiter = w.catalog.limiter

/-- From the one world to the other all went well until a request was refused with this fault. What the
limiter then has let happen is the end of it. -/
structure Faulted (fault : Fault) (w v : World σ) : Prop where
  ended : ∃ es request options, (∀ e ∈ es, e.isRefusal = false ∧ e.isDrop = false) ∧
    v.events = w.events ++ (es ++ .execute request options (.error fault) ::
      if fault.isSchemaFault && w.catalog.limiter.admits v.clock then
        [.metadataDropped, .statementsDropped]
      else [])
  emptied : fault.isSchemaFault = true → w.catalog.limiter.admits v.clock = true → v.CachesEmpty

/-- If a request has been refused, its fault is the outcome. -/
def Surfaced (w : World σ) (outcome : Except Error α) (v : World σ) : Prop :=
  w.Served v ∨ ∃ fault, outcome = .error (.transport fault) ∧ Faulted fault w v

theorem Surfaced.error {e : Error} (h : w.Surfaced (.error e : Except Error α) v) :
    w.Surfaced (.error e : Except Error β) v := by
  obtain served | ⟨fault, same, faulted⟩ := h
  · exact .inl served
  · exact .inr ⟨fault, by cases same; rfl, faulted⟩

theorem Surfaced.ok {a : α} (h : w.Surfaced (.ok a) v) : w.Served v := by
  obtain served | ⟨_, same, _⟩ := h
  · exact served
  · cases same

theorem Quiet.served (h : w.Quiet v) : w.Served v := by
  obtain ⟨es, events, questions⟩ := h.events
  refine ⟨⟨es, events, fun e he => ?_⟩, h.limiter⟩
  have question := questions e he
  cases e <;> first | exact ⟨rfl, rfl⟩ | cases question

namespace Served

theorem trans (h : w.Served v) (h' : v.Served u) : w.Served u := by
  obtain ⟨es, events, calm⟩ := h.grown
  obtain ⟨fs, events', calm'⟩ := h'.grown
  exact ⟨⟨es ++ fs, by rw [events', events, List.append_assoc],
    List.forall_mem_append.mpr ⟨calm, calm'⟩⟩, h'.limiter.trans h.limiter⟩

theorem faulted (h : w.Served v) (h' : Faulted fault v u) : Faulted fault w u := by
  obtain ⟨es, events, calm⟩ := h.grown
  obtain ⟨fs, request, options, calm', events'⟩ := h'.ended
  refine ⟨⟨es ++ fs, request, options, List.forall_mem_append.mpr ⟨calm, calm'⟩, ?_⟩, ?_⟩
  · rw [events', events, h.limiter, List.append_assoc, List.append_assoc]
  · rw [← h.limiter]
    exact h'.emptied

theorem surfaced {outcome : Except Error α} (h : w.Served v) (h' : v.Surfaced outcome u) :
    w.Surfaced outcome u := by
  obtain served | ⟨fault, same, faulted⟩ := h'
  · exact .inl (h.trans served)
  · exact .inr ⟨fault, same, h.faulted faulted⟩

end Served
end World

namespace Op

variable {x : Op σ α}

/-- In whatever world the operation runs, it ends with the first refusal that it meets. -/
def Surfaces (x : Op σ α) : Prop := ∀ w : World σ, w.Surfaced (x.run w).1 (x.run w).2

namespace Surfaces

theorem of_quiet (h : Quiet x) : Surfaces x := fun w => .inl (World.Quiet.served (h w))

theorem pure (a : α) : Surfaces (Pure.pure a : Op σ α) := .of_quiet (.pure a)

theorem bind {k : α → Op σ β} (hx : Surfaces x) (hk : ∀ a, Surfaces (k a)) : Surfaces (x >>= k) := by
  intro w
  have first := hx w
  rcases run : x.run w with ⟨e | a, v⟩ <;> rw [run] at first
  · rw [run_bind_error run]
    exact first.error
  · rw [run_bind_ok run]
    exact first.ok.surfaced (hk a v)

/-- The same for rows, which are handed on in any case. -/
theorem lift_bind {x : StateM (World σ) (Taken α)} {k : Taken α → Op σ β}
    (hx : ∀ w : World σ, w.Surfaced (x.run w).1.outcome (x.run w).2)
    (hk : ∀ t, Surfaces (k t)) (stop : ∀ t e, t.outcome = .error e → k t = throw e) :
    Surfaces (liftM x >>= k) := by
  intro w
  have first := hx w
  rcases run : x.run w with ⟨t, v⟩
  rw [run] at first
  rw [run_bind_ok (run_lift run)]
  obtain served | ⟨fault, same, faulted⟩ := first
  · exact served.surfaced (hk t v)
  · rw [stop t _ same]
    exact .inr ⟨fault, rfl, faulted⟩

end Surfaces

variable [Store σ]

theorem surfaces_dispatch (request : Request) (options : Options) :
    Surfaces (dispatch request options : Op σ Page) := by
  intro w
  rw [run_dispatch]
  rcases Store.execute request options w.store with ⟨fault | page, store⟩
  · refine .inr ⟨fault, rfl, ?_⟩
    dsimp only
    split
    · rename_i due
      refine ⟨⟨[], request, options, List.forall_mem_nil _, ?_⟩, fun _ _ => World.dropped_empty _⟩
      show _ = w.events ++
        ([] ++ _ :: if fault.isSchemaFault && w.catalog.limiter.admits w.clock then _ else _)
      rw [if_pos due, World.dropped_events, World.answered_events, List.append_assoc]
      rfl
    · rename_i undue
      refine ⟨⟨[], request, options, List.forall_mem_nil _, ?_⟩, fun schema admits => ?_⟩
      · show _ = w.events ++
          ([] ++ _ :: if fault.isSchemaFault && w.catalog.limiter.admits w.clock then _ else _)
        rw [if_neg undue, World.answered_events]
        rfl
      · exact absurd (Bool.and_eq_true_iff.mpr ⟨schema, admits⟩) undue
  · refine .inl ⟨⟨_, w.answered_events _ _, ?_⟩, rfl⟩
    exact List.forall_mem_singleton.mpr ⟨rfl, rfl⟩

theorem surfaces_submit (s : Submission) : Surfaces (submit s : Op σ ResultMeta) := by
  intro w
  have sent := surfaces_dispatch s.request s.options w
  rw [run_submit]
  rcases dispatched : (dispatch s.request s.options).run w with ⟨e | page, v⟩ <;>
    rw [dispatched] at sent
  · exact sent.error
  · exact .inl sent.ok

theorem surfaces_mutate (owners : ρ → Registry σ ρ) (members : List (Member ρ))
    (kind : Option BatchKind) (ctx : Context) : Surfaces (mutate owners members kind ctx) :=
  .bind (.of_quiet (quiet_prepareAll owners ctx cascadeLevels members)) fun _ =>
    .bind (.of_quiet (.ofExcept _)) fun s => surfaces_submit s

theorem surfaces_query (c : Compiled) : Surfaces (query c : Op σ Rows) :=
  .bind (surfaces_dispatch _ _) fun _ => .pure _

theorem surfaces_fetchMore (r : Rows) : Surfaces (fetchMore r : Op σ Rows) := by
  rw [fetchMore]
  split
  · exact .pure r
  · exact .bind (surfaces_dispatch _ _) fun _ => .pure _

end Op

namespace Rows

variable [Store σ]

theorem surfaced_more (r : Rows) (w : World σ) :
    w.Surfaced (r.more.run w).1.outcome (r.more.run w).2 := by
  have first := Op.surfaces_fetchMore r w
  rcases fetched : (Op.fetchMore r).run w with ⟨e | r', v⟩ <;> rw [fetched] at first
  · have kept : r.more.run w = (⟨.error e, r⟩, v) := run_step fetched
    rw [kept]
    exact first.error
  · have moved : r.more.run w = (⟨.ok (), r'⟩, v) := run_step fetched
    rw [moved]
    exact .inl first.ok

theorem surfaced_fillWithin (n : Nat) (r : Rows) (w : World σ) :
    w.Surfaced ((fillWithin n r).run w).1.outcome ((fillWithin n r).run w).2 := by
  induction n generalizing r w with
  | zero => exact .inl (World.Quiet.served (.refl w))
  | succ n ih =>
    rw [fillWithin]
    split
    · have first := surfaced_more r w
      rcases fetched : r.more.run w with ⟨⟨e | _, r'⟩, v⟩ <;> rw [fetched] at first <;>
        rw [run_step fetched]
      · exact first
      · exact first.ok.surfaced (ih r' v)
    · exact .inl (World.Quiet.served (.refl w))

theorem surfaced_fill (r : Rows) (w : World σ) :
    w.Surfaced (r.fill.run w).1.outcome (r.fill.run w).2 :=
  surfaced_fillWithin _ r w

theorem surfaced_next (r : Rows) (w : World σ) :
    w.Surfaced (r.next.run w).1.outcome (r.next.run w).2 := by
  have first := surfaced_fill r w
  rcases filled : r.fill.run w with ⟨⟨e | _, ⟨source, buffered, pagingState, result⟩⟩, v⟩ <;>
    rw [filled] at first <;> rw [next, run_step filled]
  · exact first.error
  · cases buffered <;> exact .inl first.ok

theorem surfaces_drainWithin (n : Nat) (r : Rows) : Op.Surfaces (drainWithin n r : Op σ Rows) := by
  induction n generalizing r with
  | zero => exact .pure r
  | succ n ih =>
    rw [drainWithin]
    split
    · exact .pure r
    · exact .bind (Op.surfaces_fetchMore r) fun r' => ih r'

theorem surfaces_collect (r : Rows) : Op.Surfaces (r.collect : Op σ (List Record)) := by
  intro w
  have drained : Op.Surfaces (do
      return (← drainWithin (Store.pagesToCome w.store + 1) r).buffered : Op σ (List Record)) :=
    .bind (surfaces_drainWithin _ r) fun _ => .pure _
  exact drained w

theorem surfaces_single (r : Rows) (table : TableId) :
    Op.Surfaces (r.single table : Op σ (Option Record)) := by
  refine .lift_bind (surfaced_next r) (fun t => ?_) fun t e failed => by rw [failed]; rfl
  refine .bind (.of_quiet (.ofExcept _)) fun found => ?_
  cases found with
  | none => exact .pure none
  | some record =>
    refine .lift_bind (surfaced_fill t.rows) (fun t => ?_) fun t e failed => by rw [failed]; rfl
    refine .bind (.of_quiet (.ofExcept _)) fun _ => .of_quiet ?_
    split
    · exact .pure _
    · exact .throw _

end Rows

section Access

variable [Store σ]

theorem Op.surfaces_read {g : Registry σ ρ} (hg : ∀ f ∈ g.onRows, ∀ q r, Surfaces (f q r)) (r : Read)
    (ctx : Context) : Surfaces (read g r ctx) :=
  .bind (.of_quiet (.ofExcept _)) fun r => .bind (.of_quiet (quiet_compile (.read r) ctx)) fun c =>
    .bind (surfaces_query c) fun rows => .bind (Registry.applyRows_closed .pure .bind hg r rows) fun _ =>
      .pure _

/-- If interceptors of rows report what they run into, then so does the engine, and a fault of the
schema that an execution is refused with leaves nothing in the caches unless the limiter holds it back.
Any other fault, the answer to a question included, leaves them to themselves. -/
theorem executions_surface {owners : ρ → Registry σ ρ}
    (ho : ∀ o, ∀ f ∈ (owners o).onRows, ∀ q r, Op.Surfaces (f q r)) :
    (∀ d, Op.Surfaces (Op.execute owners d)) ∧ (∀ b, Op.Surfaces (Op.executeBatch owners b)) ∧
      (∀ d, Op.Surfaces (Op.readOne owners d)) ∧ (∀ d, Op.Surfaces (Op.readList owners d)) ∧
      (∀ r, Op.Surfaces (Op.fetchMore r : Op σ Rows)) ∧
      (∀ r : Rows, Op.Surfaces (r.collect : Op σ (List Record))) := by
  have reporting (owner : Option ρ) :
      ∀ f ∈ ((owner.map owners).getD {}).onRows, ∀ q r, Op.Surfaces (f q r) :=
    Registry.of_owner (P := fun g => ∀ f ∈ g.onRows, ∀ q r, Op.Surfaces (f q r))
      (fun _ none => by cases none) ho owner
  refine ⟨fun d => Op.surfaces_mutate owners _ _ _, fun b => Op.surfaces_mutate owners _ _ _,
    fun d => ?_, fun d => ?_, Op.surfaces_fetchMore, Rows.surfaces_collect⟩
  · exact .bind (Op.surfaces_read (reporting d.owner) d.spec d.ctx) fun made =>
      made.2.surfaces_single made.1.table
  · exact .bind (Op.surfaces_read (reporting d.owner) d.spec d.ctx) fun _ => .pure _

theorem Behaviour.editRows_surfaces (failure : Option Error) (actions : List RowAction) (r : Rows) :
    Op.Surfaces (editRows failure actions r) :=
  .bind (.of_quiet (.ofExcept _)) fun _ => .bind r.surfaces_collect fun _ => .pure _

/-- An interceptor fetches the second page of a read and runs into a fault of the schema. -/
theorem intercepted_read_surfaces :
    let id : TableId := ⟨"k", "a"⟩
    let owners : Unit → Registry Script Unit := fun _ => { onRows := [fun _ => Behaviour.editRows none []] }
    let d : Draft Unit Read := ⟨some (), {}, { table := id, cardinality := .many }⟩
    let w : World Script := World.new {} {
      tables := [⟨id, [⟨"id", .int, .partitionKey⟩]⟩]
      answers := [.ok { pagingState := some [1] }, .error (.internal "stale")] }
    let outcome := (Op.readList owners d).run w
    (∀ o, ∀ f ∈ (owners o).onRows, ∀ q r, Op.Surfaces (f q r)) ∧
      outcome.1 = .error (.transport (.internal "stale")) ∧ w.Surfaced outcome.1 outcome.2 ∧
      outcome.2.events.map Event.isRefusal = [false, false, false, true, false, false] ∧
      outcome.2.events.map Event.isDrop = [false, false, false, false, true, true] := by
  intro id owners d w outcome
  have ho : ∀ o, ∀ f ∈ (owners o).onRows, ∀ q r, Op.Surfaces (f q r) := by
    intro o f hf q r
    obtain rfl := List.mem_singleton.mp hf
    exact Behaviour.editRows_surfaces none [] r
  obtain ⟨-, -, -, reads, -⟩ := executions_surface ho
  exact ⟨ho, by decide +kernel, reads d w, by decide +kernel, by decide +kernel⟩

/-- A statement that the store refuses to prepare, with a fault of the schema: the caches stay. -/
theorem unprepared_keeps_caches :
    let id : TableId := ⟨"k", "a"⟩
    let tables : List Table := [⟨id, [⟨"id", .int, .partitionKey⟩, ⟨"x", .int, .regular⟩]⟩]
    let fault : Fault := .invalidQuery "unknown column"
    let owners : Unit → Registry Script Unit := fun _ => {}
    let w := (World.new {} { tables }).performAll owners [.getColumns id, .prepare "Q",
      .pause (.store { tables, prepareFaults := [fault] })]
    let row : Write := { table := id, values := .ofList [("id", .int 1), ("x", .int 2)] }
    let outcome := (Op.execute owners ⟨none, {}, .write row⟩).run w
    outcome.1 = .error (.transport fault) ∧ fault.isSchemaFault = true ∧
      w.catalog.limiter.last = none ∧ outcome.2.catalog.limiter.last = none ∧
      outcome.2.catalog.tables.loaded.map Prod.fst = [id] ∧
      outcome.2.statements.loaded.map Prod.fst = ["Q"] := by
  decide +kernel

end Access
end WideColumn
