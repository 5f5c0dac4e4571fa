import WideColumn.Engine.Hooks
import WideColumn.Proofs.Engine.Cascade
import WideColumn.Proofs.Engine.TextKey
import WideColumn.Proofs.Record.Draws

/-!
Interceptors that use the engine while they work. Those that do not are a case of them, and whatever they
send themselves, a mutation is sent once, after all that they do.
-/
namespace WideColumn

variable {σ ρ α β : Type}

section Embedding

namespace Hooks

theorem apply_ofExcept (fs : List (α → Except Error α)) (a : α) :
    apply (fs.map fun f a => (Op.ofExcept (f a) : Op σ α)) a =
      Op.ofExcept (fs.foldlM (fun a f => f a) a) := by
  induction fs generalizing a with
  | nil => rfl
  | cons f fs ih =>
    rw [apply, List.map_cons, List.foldlM_cons, List.foldlM_cons]
    dsimp only
    cases f a with
    | error e => rfl
    | ok b => exact ih b

theorem start_pure (t : Timed α) : start (pure t : Op σ (Timed α)) = pure t := rfl

/-- Cascades that are watched as a whole end with a failure that comes at once, if there is one. -/
theorem startWhole_pure (ts : List (Timed α)) :
    startWhole (ts.map pure) =
      match Timed.firstFailure ts with
      | some (0, e) => throw e
      | _ => (pure ts : Op σ (List (Timed α))) := by
  induction ts with
  | nil => rfl
  | cons t ts ih =>
    rw [List.map_cons, startWhole, start_pure, pure_bind, ih, Timed.firstFailure]
    obtain ⟨delay, outcome⟩ := t
    cases outcome with
    | ok a => cases delay <;> rcases Timed.firstFailure ts with _ | ⟨_ | n, e⟩ <;> rfl
    | error e =>
      cases delay with
      | zero => rcases Timed.firstFailure ts with _ | ⟨n, e'⟩ <;> rfl
      | succ delay =>
        rcases Timed.firstFailure ts with _ | ⟨_ | n, e'⟩
        · rfl
        · rfl
        · dsimp only
          by_cases earlier : n + 1 < delay + 1
          · rw [if_pos earlier]
            rfl
          · rw [if_neg earlier]
            rfl

/-- Cascades that are looked at in turn end so if nothing has to be waited for before the failure. -/
theorem startInTurn_pure (ts : List (Timed α)) :
    startInTurn (ts.map pure) =
      match Timed.inOrder ts with
      | ⟨0, .error e⟩ => throw e
      | _ => (pure ts : Op σ (List (Timed α))) := by
  induction ts with
  | nil => rfl
  | cons t ts ih =>
    have others : (ts.map pure).mapM start = (pure ts : Op σ (List (Timed α))) := by
      rw [List.mapM_map]
      exact (List.mapM_pure).trans (congrArg pure (List.map_id ts))
    rw [List.map_cons, startInTurn, start_pure, pure_bind, ih, others, Timed.inOrder]
    rcases t with ⟨_ | delay, e | a⟩
    · rfl
    · dsimp only
      rw [Nat.zero_max]
      rcases Timed.inOrder ts with ⟨_ | n, e | as⟩ <;> rfl
    · rfl
    · dsimp only
      obtain ⟨n, slowest⟩ : ∃ n, max (delay + 1) (Timed.inOrder ts).delay = n + 1 :=
        ⟨_, (Nat.succ_pred (by omega)).symm⟩
      rw [slowest]
      rfl

variable [Store σ]

omit [Store σ] in
theorem run_ext {x y : Op σ α} (h : ∀ w, x.run w = y.run w) : x = y := funext h

/-- To wait for something and for what is there already is to wait for it. -/
theorem await_both (a : α) (t : Timed β) :
    (Op.await (Timed.both ⟨0, .ok a⟩ t) : Op σ (α × β)) = (do return (a, ← Op.await t)) := by
  have both : Timed.both ⟨0, .ok a⟩ t = ⟨t.delay, (a, ·) <$> t.outcome⟩ := by
    rcases t with ⟨delay, e | b⟩
    · rfl
    · exact congrArg (Timed.mk · _) (Nat.zero_max delay)
  rw [both, Op.await, Op.await]
  by_cases later : 0 < t.delay
  · rw [if_pos later, if_pos later, bind_assoc]
    refine bind_congr fun _ => ?_
    rw [bind_assoc]
    refine bind_congr fun _ => ?_
    cases t.outcome <;> rfl
  · rw [if_neg later, if_neg later]
    cases t.outcome <;> rfl

/-- Beside something that is there at once cascades come to the same whether it is known beforehand what
they come to or not. -/
theorem beside_pure (a : α) (ts : List (Timed (List (Member ρ)))) :
    beside ⟨0, .ok a⟩ (ts.map pure) =
      (do return (a, ← Op.await (Registry.gather ts)) : Op σ (α × List (Member ρ))) := by
  have failed {e : Error} (all : Timed.all ts = ⟨0, .error e⟩) :
      (throw e : Op σ (α × List (Member ρ))) = (do return (a, ← Op.await (Registry.gather ts))) := by
    rw [Registry.gather, all]
    rfl
  have started : beside ⟨0, .ok a⟩ (ts.map pure) =
      (do Op.await (Timed.both ⟨0, .ok a⟩ (Registry.gather (← startAll (ts.map pure)))) :
        Op σ (α × List (Member ρ))) := rfl
  rw [started, startAll, List.length_map]
  by_cases whole : ts.length ≤ Op.watched
  · rw [if_pos whole, startWhole_pure]
    split
    · rename_i e first
      exact failed (by rw [Timed.all, if_pos whole, first])
    · exact await_both a _
  · rw [if_neg whole, startInTurn_pure]
    split
    · rename_i e first
      exact failed (by rw [Timed.all, if_neg whole, first])
    · exact await_both a _

theorem run_compilation (latency : Mutation → Nat) (m : Mutation) (ctx : Context) (w : World σ) :
    (compilation latency m ctx).run w =
      (.ok ⟨latency m, ((Op.compileMutation m ctx).run w).1⟩, ((Op.compileMutation m ctx).run w).2) := by
  rw [compilation, Op.run_tryCatch]
  rcases run : (Op.compileMutation m ctx).run w with ⟨e | c, v⟩
  · rw [Op.run_bind_error run]
    rfl
  · rw [Op.run_bind_ok run]
    rfl

/-- If the store takes no time the compilation has ended when the cascades are started. -/
theorem compilation_beside (m : Mutation) (ctx : Context) (fs : List (α → Timed (List (Member ρ))))
    (a : α) :
    compilation (fun _ => 0) m ctx >>= (beside · ((known fs).map fun f => f a)) =
      (Op.compileMutation m ctx >>= fun statement => do
        return (statement, ← Op.await (Registry.gather (fs.map fun f => f a))) :
          Op σ (Compiled × List (Member ρ))) := by
  refine run_ext fun w => ?_
  rw [Op.run_bind_ok (run_compilation _ m ctx w)]
  rcases run : (Op.compileMutation m ctx).run w with ⟨e | c, v⟩
  · rw [Op.run_bind_error run]
    rfl
  · rw [Op.run_bind_ok run]
    have cascades := beside_pure (σ := σ) c (fs.map fun f => f a)
    rw [List.map_map] at cascades
    rw [known, List.map_map]
    exact congrArg (Op.run · v) cascades

end Hooks

namespace Registry

theorem hooks_getD (owners : ρ → Registry σ ρ) (owner : Option ρ) :
    (owner.map fun o => (owners o).hooks).getD {} = ((owner.map owners).getD {}).hooks := by
  cases owner <;> rfl

variable [Store σ] (owners : ρ → Registry σ ρ)

/-- A member whose interceptors need nothing from the engine is prepared as they say, by a store that takes
no time. -/
theorem hooks_prepareMember (ctx : Context) :
    Hooks.prepareMember (fun _ => 0) (fun o => (owners o).hooks) ctx = Op.prepareMember owners ctx := by
  funext m
  rw [Hooks.prepareMember, Op.prepareMember, hooks_getD, ← Op.registryOf]
  generalize Op.registryOf owners m = g
  cases m.mutation with
  | write w =>
    dsimp only [hooks]
    rw [Hooks.apply_ofExcept, applyWrite]
    exact bind_congr fun w => Hooks.compilation_beside (.write w) ctx g.cascadesOnWrite w
  | delete d =>
    dsimp only [hooks]
    rw [Hooks.apply_ofExcept, applyDelete]
    exact bind_congr fun d => Hooks.compilation_beside (.delete d) ctx g.cascadesOnDelete d
  | counter u => exact Hooks.compilation_beside (.counter u) ctx [] u

theorem hooks_mutate (members : List (Member ρ)) (kind : Option BatchKind) (ctx : Context) :
    Hooks.mutate (fun _ => 0) (fun o => (owners o).hooks) members kind ctx =
      Op.mutate owners members kind ctx := by
  rw [Hooks.mutate, hooks_prepareMember, Op.mutate]

theorem hooks_read (g : Registry σ ρ) (r : Read) (ctx : Context) :
    g.hooks.read r ctx = Op.read g r ctx := by
  rw [Hooks.read, Op.read, applyRead, hooks, Hooks.apply_ofExcept]
  rfl

end Registry
end Embedding

section Sending

/-- From the one world to the other only such requests have been executed. -/
def World.Adds (P : Request → Prop) (w v : World σ) : Prop :=
  ∃ more, v.sent = w.sent ++ more ∧ ∀ r ∈ more, P r.1

variable {P : Request → Prop} {w v u : World σ}

theorem World.Adds.of_sent (h : v.sent = w.sent) : w.Adds P v :=
  ⟨[], by rw [h, List.append_nil], List.forall_mem_nil _⟩

theorem World.Chained.adds : World.Chained (World.Adds P : World σ → World σ → Prop) where
  refl w := .of_sent rfl
  trans := by
    rintro w v u ⟨more, sent, each⟩ ⟨later, sent', each'⟩
    exact ⟨more ++ later, by rw [sent', sent, List.append_assoc],
      List.forall_mem_append.mpr ⟨each, each'⟩⟩

namespace Op

/-- However the operation ends, it has executed only such requests. -/
abbrev Adds (P : Request → Prop) (x : Op σ α) : Prop := x.Keeps (World.Adds P)

theorem adds_of_quiet {x : Op σ α} (h : Quiet x) : Adds P x := fun w =>
  .of_sent (World.Quiet.sent (h w))

variable [Store σ]

theorem adds_dispatch {request : Request} (hr : P request) (options : Options) :
    Adds P (dispatch request options : Op σ Page) := by
  intro w
  exact ⟨[(request, options)], dispatch_sent request options w, List.forall_mem_singleton.mpr hr⟩

theorem adds_await (t : Timed α) : Adds P (await t : Op σ α) := adds_of_quiet (quiet_await t)

theorem compileRead_select {r : Read} {ctx : Context} {c : Compiled}
    (h : (compileRead r ctx).run w = (.ok c, v)) : c.isMutation = false := by
  obtain ⟨b, -, -, planned, -⟩ := compile_ok (q := .read r) h
  simp only [Specification.plan, Read.plan, Outcome.bind_eq_ok, Outcome.pure_eq_ok] at planned
  obtain ⟨_, -, same⟩ := planned
  rw [Compiled.isMutation, Compiled.kind, Compiled.statement, ← same]
  rfl

/-- Members are prepared so, and such requests are sent meanwhile. If anything fails or the statements do not
fit together nothing else is sent; otherwise they go after that, all in one request. -/
def SendsLast (P : Request → Prop) (prepare : Member ρ → Op σ (Compiled × List (Member ρ)))
    (members : List (Member ρ)) (kind : Option BatchKind) (ctx : Context) (w : World σ) : Prop :=
  ∃ work v own, (prepareAll prepare cascadeLevels members).run w = (work, v) ∧
    v.sent = w.sent ++ own ∧ (∀ r ∈ own, P r.1) ∧
    ((∃ e, work.bind (submission · kind ctx) = .error e ∧
        (mutateBy prepare members kind ctx).run w = (.error e, v)) ∨
      ∃ statements s, work = .ok statements ∧ submission statements kind ctx = .ok s ∧
        s.request.statements = statements.map Compiled.wire ∧
        ((mutateBy prepare members kind ctx).run w).2.sent = w.sent ++ own ++ [(s.request, s.options)])

/-- So it is however each of them is prepared. -/
theorem mutateBy_sendsLast {prepare : Member ρ → Op σ (Compiled × List (Member ρ))}
    (each : ∀ m, Adds P (prepare m)) (members : List (Member ρ)) (kind : Option BatchKind) (ctx : Context)
    (w : World σ) : SendsLast P prepare members kind ctx w := by
  obtain ⟨own, sent, kept⟩ := Keeps.prepareAll .adds each cascadeLevels members w
  rcases prepared : (prepareAll prepare cascadeLevels members).run w with ⟨work, v⟩
  rw [prepared] at sent
  refine ⟨work, v, own, prepared, sent, kept, ?_⟩
  rw [run_mutateBy, prepared]
  cases work with
  | error e => exact .inl ⟨e, rfl, rfl⟩
  | ok statements =>
    dsimp only
    cases made : submission statements kind ctx with
    | error e => exact .inl ⟨e, made, rfl⟩
    | ok s =>
      exact .inr ⟨statements, s, rfl, made, submission_statements made, by rw [submit_sent, sent]⟩

end Op

/-- Further pages are asked for with the statement of the read. -/
theorem Draws.adds [Store σ] {source : Option Compiled} (h : Draws source w v)
    (hs : ∀ c, source = some c → P (.statement c.wire)) : w.Adds P v := by
  induction h with
  | rest => exact .of_sent rfl
  | @fetch w v u c state outcome same fetched _ ih =>
    have asked := Op.adds_dispatch (hs c same) { c.options with pagingState := some state } w
    rw [Op.fetchPage] at fetched
    rw [fetched] at asked
    exact World.Chained.adds.trans asked ih
  | @pause w u p _ ih =>
    have paused : w.Adds P (w.pause p) := by
      cases p with
      | refresh => exact .of_sent (World.Quiet.sent (Op.logs_finishRefresh Op.compiles_questions w))
      | _ => exact .of_sent rfl
    exact World.Chained.adds.trans paused ih

namespace Hooks

variable {fs : List (α → Op σ α)} {cascades : List (Op σ (Timed α))}

open Op

theorem adds_apply (hf : ∀ f ∈ fs, ∀ a, Adds P (f a)) (a : α) : Adds P (apply fs a) :=
  .foldlM .adds hf a

theorem adds_start {c : Op σ (Timed α)} (hc : Adds P c) : Adds P (start c) :=
  .tryCatch .adds hc fun _ => .pure .adds _

theorem adds_startWhole (hc : ∀ c ∈ cascades, Adds P c) : Adds P (startWhole cascades) := by
  induction cascades with
  | nil => exact .pure .adds _
  | cons c cascades ih =>
    obtain ⟨first, others⟩ := List.forall_mem_cons.mp hc
    rw [startWhole]
    refine .bind .adds (adds_start first) fun t => ?_
    split
    · exact .throw .adds _
    · exact .bind .adds (ih others) fun _ => .pure .adds _

theorem adds_startInTurn (hc : ∀ c ∈ cascades, Adds P c) : Adds P (startInTurn cascades) := by
  induction cascades with
  | nil => exact .pure .adds _
  | cons c cascades ih =>
    obtain ⟨first, others⟩ := List.forall_mem_cons.mp hc
    rw [startInTurn]
    refine .bind .adds (adds_start first) fun t => ?_
    split
    · exact .throw .adds _
    · exact .bind .adds (ih others) fun _ => .pure .adds _
    · exact .bind .adds (.mapM .adds fun c hc => adds_start (others c hc)) fun _ => .pure .adds _

theorem adds_startAll (hc : ∀ c ∈ cascades, Adds P c) : Adds P (startAll cascades) := by
  rw [startAll]
  split
  · exact adds_startWhole hc
  · exact adds_startInTurn hc

variable [Store σ]

theorem adds_compilation (latency : Mutation → Nat) (m : Mutation) (ctx : Context) :
    Adds P (compilation latency m ctx : Op σ (Timed Compiled)) := by
  refine .tryCatch .adds ?_ fun _ => .pure .adds _
  exact .bind .adds (adds_of_quiet (quiet_compile (.mutation m) ctx)) fun _ => .pure .adds _

theorem adds_beside (t : Timed α) {cascades : List (Op σ (Timed (List (Member ρ))))}
    (hc : ∀ c ∈ cascades, Adds P c) : Adds P (beside t cascades) := by
  unfold beside
  split
  · exact .throw .adds _
  · exact .bind .adds (adds_startAll hc) fun _ => adds_await _

/-- A cascade by a row only reads. -/
theorem adds_byRow (reads : ∀ c : Compiled, c.isMutation = false → P (.statement c.wire)) (ctx : Context)
    (wanted : α → Option Read) (follow : α → Option Record → Except Error (List (Member ρ))) (a : α) :
    Adds P (byRow ctx wanted follow a : Op σ (Timed (List (Member ρ)))) := by
  rw [byRow]
  split
  · exact .pure .adds _
  · rename_i r _
    refine .bind_ran .adds (adds_of_quiet (quiet_compile (.read r) ctx)) fun c _ _ compiled => ?_
    have select := reads c (compileRead_select compiled)
    have queried : Adds P (query c : Op σ Rows) :=
      .bind .adds (adds_dispatch select _) fun _ => .pure .adds _
    refine .bind_ran .adds queried fun rows _ _ fetched => ?_
    have source : rows.source = some c := by
      obtain ⟨page, _, -, made⟩ := run_bind_eq_ok.mp fetched
      cases made
      rfl
    have single : Adds P (rows.single r.table : Op σ (Option Record)) := fun w =>
      (rows.draws_single r.table w).adds fun c' same => by
        rw [source] at same
        cases same
        exact select
    exact .bind .adds single fun _ => .pure .adds _

end Hooks

/-- What interceptors do about mutations executes only such requests. -/
structure Hooks.Adds (P : Request → Prop) (h : Hooks σ ρ) : Prop where
  onWrite : ∀ f ∈ h.onWrite, ∀ w, (f w).Adds P
  onDelete : ∀ f ∈ h.onDelete, ∀ d, (f d).Adds P
  cascadesOnWrite : ∀ f ∈ h.cascadesOnWrite, ∀ w, (f w).Adds P
  cascadesOnDelete : ∀ f ∈ h.cascadesOnDelete, ∀ d, (f d).Adds P

namespace Hooks

open Op

variable [Store σ] {owners : ρ → Hooks σ ρ} (latency : Mutation → Nat)

theorem adds_prepareMember (ho : ∀ o, (owners o).Adds P) (ctx : Context) (m : Member ρ) :
    Op.Adds P (prepareMember latency owners ctx m) := by
  have hooks : ((m.owner.map owners).getD {}).Adds P := by
    cases m.owner with
    | some o => exact ho o
    | none => exact ⟨nofun, nofun, nofun, nofun⟩
  rw [prepareMember]
  split
  · refine .bind .adds (adds_apply hooks.onWrite _) fun w => ?_
    refine .bind .adds (adds_compilation latency (.write w) ctx) fun t => adds_beside t ?_
    exact List.forall_mem_map.mpr fun f hf => hooks.cascadesOnWrite f hf w
  · refine .bind .adds (adds_apply hooks.onDelete _) fun d => ?_
    refine .bind .adds (adds_compilation latency (.delete d) ctx) fun t => adds_beside t ?_
    exact List.forall_mem_map.mpr fun f hf => hooks.cascadesOnDelete f hf d
  · exact .bind .adds (adds_compilation latency (.counter _) ctx) fun t =>
      adds_beside t (List.forall_mem_nil _)

/-- Whatever the interceptors send themselves comes before what is made of the members. -/
theorem mutate_sendsLast (ho : ∀ o, (owners o).Adds P) (members : List (Member ρ))
    (kind : Option BatchKind) (ctx : Context) (w : World σ) :
    SendsLast P (prepareMember latency owners ctx) members kind ctx w :=
  mutateBy_sendsLast (adds_prepareMember latency ho ctx) members kind ctx w

/-- With cascades that look up what is deleted, only reads are sent before. -/
theorem byRow_sendsLast (lookup : Context) (wanted : ρ → Deletion → Option Read)
    (follow : ρ → Deletion → Option Record → Except Error (List (Member ρ))) (members : List (Member ρ))
    (kind : Option BatchKind) (ctx : Context) (w : World σ) :
    SendsLast (fun r => ∃ c : Compiled, c.isMutation = false ∧ r = .statement c.wire)
      (prepareMember latency (fun o => { cascadesOnDelete := [byRow lookup (wanted o) (follow o)] }) ctx)
      members kind ctx w := by
  refine mutate_sendsLast latency (fun o => ?_) members kind ctx w
  refine ⟨List.forall_mem_nil _, List.forall_mem_nil _, List.forall_mem_nil _, ?_⟩
  exact List.forall_mem_singleton.mpr
    (adds_byRow (fun c read => ⟨c, read, rfl⟩) lookup (wanted o) (follow o))

/-- Rooms with an index by name: the row is read to find out what to delete from the index. -/
example :
    let rooms : TableId := ⟨"hotel", "rooms"⟩
    let index : TableId := ⟨"hotel", "rooms_by_name"⟩
    let s : Script :=
      { tables :=
          [⟨rooms, [⟨"room", .int, .partitionKey⟩, ⟨"name", .text, .regular⟩]⟩,
            ⟨index, [⟨"name", .text, .partitionKey⟩, ⟨"room", .int, .clustering⟩]⟩]
        answers := [.ok { columns := ["name"], rows := [[.text "Tower"]] }] }
    let wanted (d : Deletion) : Option Read :=
      (d.keys.get? "room").map fun room =>
        { table := rooms, cardinality := .single, keys := .ofList [("room", [room])],
          columns := some (.ofList [("name", false)]) }
    let follow (d : Deletion) (found : Option Record) : Except Error (List (Member Unit)) :=
      match found.bind (·.value? "name") with
      | some (.text name) =>
        .ok [⟨.delete { table := index, keys := d.keys.insert "name" (.text name) }, none⟩]
      | _ => .ok []
    let owners : Unit → Hooks Script Unit := fun _ => { cascadesOnDelete := [byRow {} wanted follow] }
    let room : Member Unit := ⟨.delete { table := rooms, keys := .ofList [("room", .int 3)] }, some ()⟩
    let w := ((mutate (fun _ => 20) owners [room] none {}).run (.new {} s)).2
    (w.sent.map fun r => r.1.statements.map (·.text)) =
      [["SELECT name FROM hotel.rooms WHERE room = ?"],
        ["DELETE FROM hotel.rooms WHERE room = ?",
          "DELETE FROM hotel.rooms_by_name WHERE name = ? AND room = ?"]] := by
  decide +kernel

end Hooks

end Sending
end WideColumn
