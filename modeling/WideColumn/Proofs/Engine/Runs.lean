import WideColumn.Proofs.Engine.Actions
import WideColumn.Proofs.Engine.Quiet

/-!
What holds in every world that an engine gets to: all that questions to the store and executions of
requests keep.
-/
namespace WideColumn

variable {σ ρ α β : Type} [Store σ]

/-- The logging of such events keeps the property, and so does the execution of any request. -/
structure World.StableUnder (E : Event → Prop) (I : World σ → Prop) : Prop where
  logs {w v : World σ} : I w → w.Logs E v → I v
  dispatched {w : World σ} (request : Request) (options : Options) :
    I w → I ((Op.dispatch request options).run w).2

/-- Questions keep the property, and so does the execution of any request. -/
abbrev World.Stable (I : World σ → Prop) : Prop := StableUnder (fun e => e.isQuestion = true) I

theorem World.logs_pause {E : Event → Prop} (compiles : Op.Compiles E) (w : World σ) (p : Pause σ) :
    w.Logs E (w.pause p) := by
  cases p with
  | refresh => exact Op.logs_finishRefresh compiles w
  | _ => exact .of_kept rfl rfl

namespace Op

variable {E : Event → Prop} {I : World σ → Prop} {x : Op σ α}

omit [Store σ] in
/-- However the operation ends, it keeps the property. -/
def Maintains (I : World σ → Prop) (x : Op σ α) : Prop := ∀ w, I w → I (x.run w).2

namespace Maintains

omit [Store σ] in
theorem pure (a : α) : Maintains I (Pure.pure a : Op σ α) := fun _ hw => hw

omit [Store σ] in
theorem ofExcept (y : Except Error α) : Maintains I (Op.ofExcept y : Op σ α) := by
  intro w hw
  rwa [run_ofExcept]

omit [Store σ] in
theorem bind {k : α → Op σ β} (hx : Maintains I x) (hk : ∀ a, Maintains I (k a)) :
    Maintains I (x >>= k) := by
  intro w hw
  have first := hx w hw
  rcases run : x.run w with ⟨e | a, v⟩ <;> rw [run] at first
  · rwa [run_bind_error run]
  · rw [run_bind_ok run]
    exact hk a v first

omit [Store σ] in
theorem ran (hx : Maintains I x) {w v : World σ} (hw : I w) {outcome : Except Error α}
    (ran : x.run w = (outcome, v)) : I v := by
  have kept := hx w hw
  rwa [ran] at kept

omit [Store σ] in
/-- The property is to stay as well when the cache is put back. -/
theorem getOrLoad {κ ν : Type} [DecidableEq κ] [Hashed κ] (shelf : Shelf σ κ ν) (k : κ) {load : Op σ ν}
    (set : ∀ c w, I w → I (shelf.set c w)) (hl : Maintains I load) :
    Maintains I (Op.getOrLoad shelf k load) := by
  intro w hw
  have acquired := set ((shelf.get w).acquire k).2 w hw
  have got := got shelf k load w
  generalize (Op.getOrLoad shelf k load).run w = r at got
  cases got with
  | found => exact acquired
  | failed _ ran => exact hl.ran acquired ran
  | loaded _ ran => exact set _ _ (hl.ran acquired ran)

theorem of_logs (stable : World.StableUnder E I) (hx : Logs E x) : Maintains I x :=
  fun w hw => stable.logs hw (hx w)

end Maintains

variable (stable : World.StableUnder E I)

include stable

theorem maintains_submit (s : Submission) : Maintains I (submit s : Op σ ResultMeta) := by
  intro w hw
  rw [submit_world]
  exact stable.dispatched _ _ hw

theorem maintains_query (c : Compiled) : Maintains I (query c : Op σ Rows) :=
  .bind (fun _ => stable.dispatched _ _) fun _ => .pure _

theorem maintains_fetchPage (c : Compiled) (state : Option Bytes) :
    Maintains I (fetchPage c state : Op σ Page) := fun _ => stable.dispatched _ _

variable (compiles : Compiles E)

include compiles

theorem maintains_mutate (owners : ρ → Registry σ ρ) (members : List (Member ρ))
    (kind : Option BatchKind) (ctx : Context) : Maintains I (mutate owners members kind ctx) :=
  .bind (.of_logs stable (logs_prepareAll compiles owners ctx cascadeLevels members)) fun _ =>
    .bind (.ofExcept _) fun s => maintains_submit stable s

theorem draws_maintain {source : Option Compiled} {w v : World σ} (h : Draws source w v) (hw : I w) :
    I v := by
  induction h with
  | rest => exact hw
  | @fetch w v _ c state _ _ fetched _ ih =>
    have kept := maintains_fetchPage stable c (some state) w hw
    rw [fetched] at kept
    exact ih kept
  | pause p _ ih => exact ih (stable.logs hw (World.logs_pause compiles _ p))

theorem maintains_applyRows {g : Registry σ ρ} (hg : g.OnlyDraws) (q : Read) (r : Rows) :
    Maintains I (g.applyRows q r) :=
  Registry.applyRows_closed .pure .bind
    (fun f hf q r w => draws_maintain stable compiles (hg f hf q r w).1) q r

theorem maintains_read {g : Registry σ ρ} (hg : g.OnlyDraws) (r : Read) (ctx : Context) :
    Maintains I (read g r ctx) :=
  .bind (.ofExcept _) fun r => .bind (.of_logs stable (logs_compile compiles (.read r) ctx)) fun c =>
    .bind (maintains_query stable c) fun rows =>
      .bind (maintains_applyRows stable compiles hg r rows) fun _ => .pure _

end Op

namespace World

open Op

variable {E : Event → Prop} {I : World σ → Prop} {owners : ρ → Registry σ ρ} {w : World σ}

namespace StableUnder

theorem readOut (stable : StableUnder E I) (compiles : Compiles E) {x : Op σ Rows} (hx : Maintains I x)
    (hw : I w) (uses : List (Demand ⊕ Pause σ)) (ending : Reading.Ending) : I (w.readOut x uses ending) := by
  have first := hx w hw
  rw [World.readOut]
  rcases run : x.run w with ⟨e | r, v⟩ <;> rw [run] at first
  · exact first
  · obtain ⟨used, -⟩ := (Reading.mk v r []).draws_useAll uses
    have closed := ((Reading.mk v r []).useAll uses).draws_close ending
    exact draws_maintain stable compiles closed (draws_maintain stable compiles used first)

/-- Whatever an engine is asked to do, it sends requests and asks questions. -/
theorem perform (stable : StableUnder E I) (compiles : Compiles E) (ho : ∀ o, (owners o).OnlyDraws)
    (hw : I w) (a : Action σ ρ) (given : ∀ text, a = .prepare text → ∀ answer, E (.prepare text answer)) :
    I (w.perform owners a) := by
  have logging {α : Type} {x : Op σ α} (hx : Op.Logs E x) : I (x.run w).2 := stable.logs hw (hx w)
  have drawing (owner : Option ρ) : ((owner.map owners).getD {}).OnlyDraws :=
    Registry.of_owner (fun _ none => by cases none) ho owner
  cases a with
  | execute d => exact maintains_mutate stable compiles owners [d.member id] none d.ctx w hw
  | executeBatch b => exact maintains_mutate stable compiles owners b.members b.kind b.ctx w hw
  | readOne d =>
    refine Maintains.bind (maintains_read stable compiles (drawing d.owner) d.spec d.ctx)
      (fun made => ?_) w hw
    exact fun w => draws_maintain stable compiles (made.2.draws_single made.1.table w)
  | readList d uses ending =>
    exact stable.readOut compiles
      (.bind (maintains_read stable compiles (drawing d.owner) d.spec d.ctx) fun _ => .pure _) hw uses ending
  | submit q ctx =>
    exact Maintains.bind (.of_logs stable (logs_compile compiles q ctx))
      (fun c => maintains_submit stable _) w hw
  | submitBatch qs kind ctx =>
    exact Maintains.bind (.of_logs stable (logs_compileAll compiles qs)) (fun statements =>
      .bind (.ofExcept _) fun b => maintains_submit stable _) w hw
  | query q ctx uses ending =>
    exact stable.readOut compiles
      (.bind (.of_logs stable (logs_compile compiles q ctx)) fun c => maintains_query stable c) hw uses ending
  | compile q ctx => exact logging (logs_compile compiles q ctx)
  | prepare text => exact logging (logs_prepare (given text rfl))
  | cached text => exact logging (logs_cachedStatement text)
  | getColumns id => exact logging (logs_getColumns compiles id)
  | getType name => exact logging (logs_getType compiles name)
  | resolveTypes keyspace types => exact logging (logs_resolveTypes compiles keyspace types)
  | pause p => exact stable.logs hw (w.logs_pause compiles p)

theorem performAll (stable : StableUnder E I) (compiles : Compiles E) (ho : ∀ o, (owners o).OnlyDraws)
    (hw : I w) (actions : List (Action σ ρ))
    (given : ∀ text, .prepare text ∈ actions → ∀ answer, E (.prepare text answer)) :
    I (w.performAll owners actions) := by
  induction actions generalizing w with
  | nil => exact hw
  | cons a actions ih =>
    refine ih (stable.perform compiles ho hw a fun text same => given text (same ▸ List.mem_cons_self)) ?_
    exact fun text named => given text (List.mem_cons_of_mem _ named)

end StableUnder

/-- A stable property that holds at first holds after any actions. -/
theorem Stable.performAll (stable : Stable I) (ho : ∀ o, (owners o).OnlyDraws) (hw : I w)
    (actions : List (Action σ ρ)) : I (w.performAll owners actions) :=
  StableUnder.performAll stable compiles_questions ho hw actions fun _ _ _ => rfl

end World
end WideColumn
