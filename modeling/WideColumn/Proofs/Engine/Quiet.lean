import WideColumn.Proofs.Engine.Events
import WideColumn.Proofs.Engine.Keeps
import WideColumn.Proofs.Plan.Fits

/-!
Operations that get by with questions to the store. All compilation is of this sort, with the refreshes
and the cascades that go on meanwhile: whatever comes of it, nothing has been executed and no cache
has been dropped. What they log are questions about the schema and the preparation of texts as planned.
-/
namespace WideColumn

variable {σ ρ α β : Type}

namespace World

variable {w v u : World σ} {E : Event → Prop}

/-- From the one world to the other only such events have been logged, and the limiter has not been
asked for anything. -/
structure Logs (E : Event → Prop) (w v : World σ) : Prop where
  grown : ∃ es, v.trace = w.trace ++ es ∧ ∀ e ∈ es, E e.2
  limiter : v.catalog.limiter = w.catalog.limiter

namespace Logs

theorem of_kept (trace : v.trace = w.trace) (limiter : v.catalog.limiter = w.catalog.limiter) :
    w.Logs E v := ⟨⟨[], by simp [trace], by simp⟩, limiter⟩

theorem refl (w : World σ) : w.Logs E w := .of_kept rfl rfl

theorem trans (h : w.Logs E v) (h' : v.Logs E u) : w.Logs E u := by
  obtain ⟨es, trace, each⟩ := h.grown
  obtain ⟨fs, trace', each'⟩ := h'.grown
  exact ⟨⟨es ++ fs, by rw [trace', trace, List.append_assoc],
    List.forall_mem_append.mpr ⟨each, each'⟩⟩, h'.limiter.trans h.limiter⟩

theorem events (h : w.Logs E v) : ∃ es, v.events = w.events ++ es ∧ ∀ e ∈ es, E e := by
  obtain ⟨es, trace, each⟩ := h.grown
  refine ⟨es.map Prod.snd, by rw [World.events, trace, List.map_append]; rfl, ?_⟩
  exact List.forall_mem_map.mpr each

end Logs

theorem Chained.logs : Chained (Logs E : World σ → World σ → Prop) := ⟨.refl, .trans⟩

/-- From the one world to the other the store has been asked questions, and the limiter has not been
asked for anything. -/
abbrev Quiet (w v : World σ) : Prop := w.Logs (fun e => e.isQuestion = true) v

end World

namespace Op

variable {E : Event → Prop}

/-- However the operation ends, it has logged only such events. -/
abbrev Logs (E : Event → Prop) (x : Op σ α) : Prop := x.Keeps (World.Logs E)

/-- However the operation ends, it has asked the store at most. -/
abbrev Quiet (x : Op σ α) : Prop := x.Logs fun e => e.isQuestion = true

namespace Logs

theorem pure (a : α) : Logs E (Pure.pure a : Op σ α) := Keeps.pure .logs a

theorem throw (e : Error) : Logs E (MonadExcept.throw e : Op σ α) := Keeps.throw .logs e

theorem modify {f : World σ → World σ} (trace : ∀ w, (f w).trace = w.trace)
    (limiter : ∀ w, (f w).catalog.limiter = w.catalog.limiter) : Logs E (modify f : Op σ PUnit) :=
  fun w => .of_kept (trace w) (limiter w)

theorem ofExcept (x : Except Error α) : Logs E (Op.ofExcept x : Op σ α) := Keeps.ofExcept .logs x

theorem orFault (x : Except Fault α) : Logs E (Op.orFault x : Op σ α) := by
  cases x <;> exact fun w => .refl w

theorem ask {request : σ → Except Fault α × σ} {event : Except Fault α → Event}
    (logged : ∀ answer, E (event answer)) : Logs E (Op.ask request event) :=
  fun _ => ⟨⟨[_], rfl, List.forall_mem_singleton.mpr (logged _)⟩, rfl⟩

theorem bind {x : Op σ α} {k : α → Op σ β} (hx : Logs E x) (hk : ∀ a, Logs E (k a)) :
    Logs E (x >>= k) := Keeps.bind .logs hx hk

/-- What follows a decision need only be looked at as it has been taken. -/
theorem ofExcept_bind {x : Except Error α} {k : α → Op σ β} (hk : ∀ a, x = .ok a → Logs E (k a)) :
    Logs E (Op.ofExcept x >>= k) := by
  cases x with
  | error e => exact .throw e
  | ok a => exact hk a rfl

theorem map (f : α → β) {x : Op σ α} (hx : Logs E x) : Logs E (f <$> x) :=
  hx.bind fun _ => .pure _

theorem get_bind {k : World σ → Op σ α} (h : ∀ w : World σ, w.Logs E ((k w).run w).2) :
    Logs E (MonadState.get >>= k) := h

end Logs

/-- Among the events are all questions about the schema, and the preparation of every text that is
planned to be prepared. -/
structure Compiles (E : Event → Prop) : Prop where
  table : ∀ id answer, E (.describeTable id answer)
  type : ∀ name answer, E (.describeType name answer)
  planned : ∀ (q : Specification) b p, q.plan b = .ok p → p.prepare = true →
    ∀ answer, E (.prepare p.text answer)

theorem compiles_questions : Compiles fun e => e.isQuestion = true :=
  ⟨fun _ _ => rfl, fun _ _ => rfl, fun _ _ _ _ _ _ => rfl⟩

section Metadata

theorem logs_getOrLoad {κ ν : Type} [DecidableEq κ] [Hashed κ] {shelf : Shelf σ κ ν}
    (trace : ∀ c w, (shelf.set c w).trace = w.trace)
    (limiter : ∀ c w, (shelf.set c w).catalog.limiter = w.catalog.limiter) (k : κ) {load : Op σ ν}
    (hl : Logs E load) : Logs E (getOrLoad shelf k load) := by
  refine .get_bind fun w => ?_
  have acquired : w.Logs E (shelf.set ((shelf.get w).acquire k).2 w) := .of_kept (trace _ w) (limiter _ w)
  rw [run_bind_ok (run_set _ w)]
  refine acquired.trans ?_
  cases ((shelf.get w).acquire k).1.value with
  | some v => exact .refl _
  | none =>
    have rest (slot : Nat) : Logs E (do
        let v ← load
        modify fun w => shelf.set ((shelf.get w).settle slot v) w
        return v) := .bind hl fun v =>
      .bind (.modify (fun w => trace _ w) fun w => limiter _ w) fun _ => .pure v
    exact rest _ _

theorem logs_serve (entry : TableEntry) : Logs E (serve entry : Op σ TableEntry) := by
  refine .get_bind fun w => ?_
  split
  · exact .of_kept rfl Catalog.startRefresh_limiter
  · exact .refl w

theorem logs_cachedStatement (text : String) :
    Logs E (cachedStatement text : Op σ (Option Prepared)) := fun _ => .of_kept rfl rfl

variable [Store σ]

theorem logs_prepare {text : String} (logged : ∀ answer, E (.prepare text answer)) :
    Logs E (prepare text : Op σ Prepared) :=
  logs_getOrLoad (fun _ _ => rfl) (fun _ _ => rfl) text (.bind (.ask logged) .orFault)

variable (compiles : Compiles E)

include compiles

theorem logs_getColumns (id : TableId) : Logs E (getColumns id : Op σ TableEntry) := by
  refine .bind (logs_getOrLoad (fun _ _ => rfl) (fun _ _ => rfl) id ?_) logs_serve
  refine .bind (.ask (compiles.table id)) fun answer => .bind (.orFault answer) fun table => ?_
  cases table with
  | some table => exact .get_bind fun w => .refl w
  | none => exact .throw _

theorem logs_getType (name : TypeName) : Logs E (getType name : Op σ UserType) := by
  refine logs_getOrLoad (fun _ _ => rfl) (fun _ _ => rfl) name ?_
  refine .bind (.ask (compiles.type name)) fun answer => .bind (.orFault answer) fun type => ?_
  cases type with
  | some type => exact .pure type
  | none => exact .throw _

theorem logs_resolveFrom (keyspace : String) (bound : Nat) (pending : List String)
    (resolved : TypeDefs) : Logs E (resolveFrom keyspace bound pending resolved : Op σ TypeDefs) := by
  induction bound generalizing pending resolved with
  | zero => exact .pure resolved
  | succ bound ih =>
    rw [resolveFrom]
    split
    · exact .pure resolved
    · exact .bind (logs_getType compiles _) fun type => ih _ _

theorem logs_resolveTypes (keyspace : String) (types : List ColumnType) :
    Logs E (resolveTypes keyspace types : Op σ TypeDefs) :=
  .get_bind fun w => logs_resolveFrom compiles _ _ _ _ w

theorem logs_binder (id : TableId) : Logs E (binder id : Op σ Binder) :=
  .bind (logs_getColumns compiles id) fun _ => .bind (logs_resolveTypes compiles _ _) fun _ => .pure _

omit compiles in
theorem logs_finish {p : Plan} (logged : p.prepare = true → ∀ answer, E (.prepare p.text answer))
    (ctx : Context) : Logs E (finish p ctx : Op σ Compiled) := by
  rw [finish]
  split
  · rename_i prepare
    exact .bind (.map some (logs_prepare (logged prepare))) fun _ => .pure _
  · exact .bind (.pure none) fun _ => .pure _

theorem logs_compile (q : Specification) (ctx : Context) :
    Logs E (compile q ctx : Op σ Compiled) := by
  cases q with
  | mutation m =>
    refine .ofExcept_bind fun _ checked => .bind (logs_binder compiles _) fun b =>
      .ofExcept_bind fun p planned => logs_finish (compiles.planned (.mutation m) b p ?_) ctx
    exact Outcome.bind_eq_ok.mpr ⟨_, checked, planned⟩
  | read r =>
    exact .bind (logs_binder compiles _) fun b =>
      .ofExcept_bind fun p planned => logs_finish (compiles.planned (.read r) b p planned) ctx

theorem logs_compileAll (qs : List (Specification × Context)) :
    Logs E (qs.mapM fun q => compile q.1 q.2 : Op σ (List Compiled)) := by
  induction qs with
  | nil => exact .pure []
  | cons q qs ih =>
    rw [List.mapM_cons]
    exact .bind (logs_compile compiles _ _) fun c => .bind ih fun cs => .pure _

omit compiles in
theorem quiet_compile (q : Specification) (ctx : Context) :
    Quiet (compile q ctx : Op σ Compiled) := logs_compile compiles_questions q ctx

end Metadata

section Members

variable [Store σ] (compiles : Compiles E)

include compiles

theorem logs_visitAll (ids : List TableId) : Logs E (visitAll ids : Op σ Unit) := by
  induction ids with
  | nil => exact .modify (fun _ => rfl) fun _ => rfl
  | cons id later ih =>
    refine .bind (.ask (compiles.table id)) fun answer =>
      .bind (.modify (fun _ => rfl) fun w => ?_) fun _ => ih
    rcases answer with fault | _ | table <;> rfl

theorem logs_finishRefresh : Logs E (finishRefresh : Op σ Unit) := by
  refine .get_bind fun w => ?_
  split
  · exact logs_visitAll compiles _ w
  · exact .refl w

theorem logs_await (t : Timed α) : Logs E (await t : Op σ α) := by
  rw [await]
  split
  · exact .bind (logs_finishRefresh compiles) fun _ =>
      .bind (.modify (fun _ => rfl) fun _ => rfl) fun _ => .ofExcept _
  · exact .ofExcept _

variable (owners : ρ → Registry σ ρ) (ctx : Context)

theorem logs_prepareMember (m : Member ρ) : Logs E (prepareMember owners ctx m) := by
  obtain ⟨mutation, owner⟩ := m
  cases mutation with
  | write w =>
    exact .bind (.ofExcept _) fun w => .bind (logs_compile compiles (.mutation (.write w)) ctx) fun _ =>
      .bind (logs_await compiles _) fun _ => .pure _
  | delete d =>
    exact .bind (.ofExcept _) fun d => .bind (logs_compile compiles (.mutation (.delete d)) ctx) fun _ =>
      .bind (logs_await compiles _) fun _ => .pure _
  | counter u =>
    exact .bind (logs_compile compiles (.mutation (.counter u)) ctx) fun _ => .pure _

theorem logs_prepareAll (levels : Nat) (members : List (Member ρ)) :
    Logs E (prepareAll (prepareMember owners ctx) levels members) :=
  .prepareAll .logs (logs_prepareMember compiles owners ctx) levels members

omit compiles

theorem quiet_await (t : Timed α) : Quiet (await t : Op σ α) := logs_await compiles_questions t

theorem quiet_prepareAll (levels : Nat) (members : List (Member ρ)) :
    Quiet (prepareAll (prepareMember owners ctx) levels members) :=
  logs_prepareAll compiles_questions owners ctx levels members

end Members
end Op
end WideColumn
