import WideColumn.Proofs.Engine.Run
import WideColumn.Engine.Refresh
import WideColumn.Engine.Submit

/-!
The events of a world, in order, and what sending one request adds to them.
-/
namespace WideColumn

variable {σ : Type}

/-- What has happened so far, oldest first. -/
def World.events (w : World σ) : List Event := w.trace.map Prod.snd

theorem World.events_of_trace {v w : World σ} {e : Nat × Event} (h : v.trace = w.trace ++ [e]) :
    v.events = w.events ++ [e.2] := by
  rw [events, h, List.map_append]
  rfl

/-- The page that a request was answered with. -/
def Event.page? : Event → Option Page
  | execute _ _ (.ok page) => some page
  | _ => none

/-- The caches of the engine have been dropped. -/
def Event.isDrop : Event → Bool
  | metadataDropped | statementsDropped => true
  | _ => false

/-- A question about the schema, or a text that is prepared. -/
def Event.isQuestion : Event → Bool
  | prepare _ _ | describeTable _ _ | describeType _ _ => true
  | _ => false

section Throughout

variable {α : Type} {P : List α → α → Prop} {past xs ys : List α} {x : α}

/-- Each of the events satisfies the condition together with all that was before it. -/
def Throughout (P : List α → α → Prop) (past xs : List α) : Prop :=
  ∀ before x after, xs = before ++ x :: after → P (past ++ before) x

theorem Throughout.nil : Throughout P past [] := by
  intro before x after h
  simp at h

theorem throughout_cons : Throughout P past (x :: xs) ↔ P past x ∧ Throughout P (past ++ [x]) xs := by
  constructor
  · intro h
    refine ⟨by simpa using h [] x xs rfl, fun before y after hxs => ?_⟩
    simpa using h (x :: before) y after (by rw [hxs]; rfl)
  · rintro ⟨hx, hxs⟩ before y after h
    cases before with
    | nil =>
      obtain ⟨rfl, -⟩ := List.cons.inj h
      simpa using hx
    | cons b before =>
      obtain ⟨rfl, rest⟩ := List.cons.inj h
      simpa using hxs before y after rest

theorem throughout_append :
    Throughout P past (xs ++ ys) ↔ Throughout P past xs ∧ Throughout P (past ++ xs) ys := by
  induction xs generalizing past with
  | nil => simp [Throughout.nil]
  | cons x xs ih =>
    rw [List.cons_append, throughout_cons, throughout_cons, ih, and_assoc, List.append_assoc]
    rfl

/-- What holds of an event whatever was before it holds throughout. -/
theorem Throughout.of_forall (h : ∀ past, ∀ x ∈ xs, P past x) : Throughout P past xs := by
  rintro before x after rfl
  exact h _ x (by simp)

end Throughout

namespace Catalog

variable {c : Catalog} {driven : Bool}

theorem claim_eq_some {held : Catalog} :
    c.claim = some held ↔ c.refreshing = false ∧ held = { c with refreshing := true } := by
  rw [claim]
  cases c.refreshing <;> simp [eq_comm]

theorem claim_eq_none : c.claim = none ↔ c.refreshing = true := by
  rw [claim]
  cases c.refreshing <;> simp

/-- In one go the flag is taken and a refresh counted, or all stays as it is. -/
theorem startRefresh_eq (c : Catalog) (driven : Bool) : c.startRefresh driven =
    if c.refreshing || !driven then c
    else { c with refreshing := true, refreshesStarted := c.refreshesStarted + 1 } := by
  obtain ⟨_, _, _, _ | _, _, _⟩ := c <;> cases driven <;> rfl

@[simp] theorem startRefresh_refreshing : (c.startRefresh true).refreshing = true := by
  rw [startRefresh_eq]
  cases h : c.refreshing <;> simp [h]

@[simp] theorem startRefresh_tables : (c.startRefresh driven).tables = c.tables := by
  rw [startRefresh_eq]
  split <;> rfl

@[simp] theorem startRefresh_types : (c.startRefresh driven).types = c.types := by
  rw [startRefresh_eq]
  split <;> rfl

@[simp] theorem startRefresh_expiry : (c.startRefresh driven).expiry = c.expiry := by
  rw [startRefresh_eq]
  split <;> rfl

@[simp] theorem startRefresh_limiter : (c.startRefresh driven).limiter = c.limiter := by
  rw [startRefresh_eq]
  split <;> rfl

end Catalog

namespace World

/-- All three caches are as they were. -/
structure CachesKept (w v : World σ) : Prop where
  tables : v.catalog.tables = w.catalog.tables
  types : v.catalog.types = w.catalog.types
  statements : v.statements = w.statements

theorem CachesKept.trans {w v u : World σ} (h : w.CachesKept v) (h' : v.CachesKept u) :
    w.CachesKept u :=
  ⟨h'.tables.trans h.tables, h'.types.trans h.types, h'.statements.trans h.statements⟩

/-- Nothing is cached. -/
structure CachesEmpty (v : World σ) : Prop where
  tables : v.catalog.tables.places = []
  types : v.catalog.types.places = []
  statements : v.statements.places = []

/-- The store has answered a request, and that is logged. -/
def answered (w : World σ) (store : σ) (e : Event) : World σ :=
  { w with store, trace := w.trace ++ [(w.clock, e)] }

theorem answered_events (w : World σ) (store : σ) (e : Event) :
    (w.answered store e).events = w.events ++ [e] := events_of_trace (e := (w.clock, e)) rfl

/-- Tables and types have been dropped, and that is logged. -/
def metadataDropped (w : World σ) : World σ :=
  { w with
    catalog := { w.catalog with
      limiter := { w.catalog.limiter with last := some w.clock }
      tables := w.catalog.tables.clear
      types := w.catalog.types.clear }
    trace := w.trace ++ [(w.clock, .metadataDropped)] }

/-- The caches have all been dropped, and that is logged. -/
def dropped (w : World σ) : World σ :=
  { w with
    catalog := { w.catalog with
      limiter := { w.catalog.limiter with last := some w.clock }
      tables := w.catalog.tables.clear
      types := w.catalog.types.clear }
    statements := w.statements.clear
    trace := w.trace ++ [(w.clock, .metadataDropped), (w.clock, .statementsDropped)] }

theorem dropped_events (w : World σ) :
    w.dropped.events = w.events ++ [.metadataDropped, .statementsDropped] := by
  simp [events, dropped]

theorem dropped_empty (w : World σ) : w.dropped.CachesEmpty := ⟨rfl, rfl, rfl⟩

end World

namespace Op

theorem run_ask {α : Type} (request : σ → Except Fault α × σ) (event : Except Fault α → Event)
    (w : World σ) : (ask request event).run w =
      (.ok (request w.store).1, w.answered (request w.store).2 (event (request w.store).1)) := rfl

/-- The metadata is dropped or not, as the limiter has it. -/
theorem run_invalidateMetadata (w : World σ) : invalidateMetadata.run w =
    if w.catalog.limiter.admits w.clock then (.ok true, w.metadataDropped) else (.ok false, w) := by
  rw [invalidateMetadata, run_bind_ok (run_get w)]
  cases h : w.catalog.limiter.admits w.clock with
  | true =>
    have admitted : w.catalog.invalidate w.clock = (true, w.metadataDropped.catalog) := by
      simp [Catalog.invalidate, Limiter.acquire, h, World.metadataDropped]
    rw [admitted]
    rfl
  | false =>
    have refused : w.catalog.invalidate w.clock = (false, w.catalog) := by
      simp [Catalog.invalidate, Limiter.acquire, h]
    rw [refused]
    rfl

theorem invalidateMetadata_ok {w : World σ} (h : (invalidateMetadata.run w).1 = .ok true) :
    (invalidateMetadata.run w).2 = w.metadataDropped := by
  rw [run_invalidateMetadata] at h ⊢
  cases admitted : w.catalog.limiter.admits w.clock <;> rw [admitted] at h
  · cases h
  · rfl

/-- Either all caches are dropped or none is, as the limiter has it. -/
theorem run_invalidateCaches (w : World σ) : invalidateCaches.run w =
    (.ok (), if w.catalog.limiter.admits w.clock then w.dropped else w) := by
  have metadata := run_invalidateMetadata w
  cases h : w.catalog.limiter.admits w.clock with
  | true =>
    rw [h, if_pos rfl] at metadata
    rw [invalidateCaches, run_bind_ok metadata]
    exact congrArg (fun trace => (Except.ok (), { w.dropped with trace }))
      (List.append_assoc w.trace [_] [_])
  | false =>
    rw [h, if_neg Bool.false_ne_true] at metadata
    rw [invalidateCaches, run_bind_ok metadata]
    rfl

variable [Store σ] {request : Request} {options : Options} {w v : World σ}

/-- The refresh has put its next question, or has ended. -/
theorem visitNext_run (ids : List TableId) (w : World σ) : (visitNext ids).run w =
    match ids with
    | [] => (.ok none, { w with catalog := w.catalog.release })
    | id :: later => (.ok (some ⟨id, (Store.describeTable id w.store).1, later⟩),
        w.answered (Store.describeTable id w.store).2
          (.describeTable id (Store.describeTable id w.store).1)) := by
  cases ids <;> rfl

/-- A request is executed once. Only a fault of the schema has a consequence for the caches. -/
theorem run_dispatch (request : Request) (options : Options) (w : World σ) :
    (dispatch request options).run w =
      match Store.execute request options w.store with
      | (.ok page, store) => (.ok page, w.answered store (.execute request options (.ok page)))
      | (.error fault, store) =>
        let v := w.answered store (.execute request options (.error fault))
        (.error (.transport fault),
          if fault.isSchemaFault && w.catalog.limiter.admits w.clock then v.dropped else v) := by
  rw [dispatch, run_bind_ok (run_ask _ _ w)]
  rcases Store.execute request options w.store with ⟨fault | page, store⟩
  · cases schema : fault.isSchemaFault with
    | false =>
      simp only [schema, Bool.false_eq_true, ↓reduceIte]
      rfl
    | true =>
      simp only [schema, ↓reduceIte]
      rw [run_bind_ok (run_invalidateCaches _)]
      rfl
  · rfl

theorem dispatch_ok {page : Page} (h : (dispatch request options).run w = (.ok page, v)) :
    Store.execute request options w.store = (.ok page, v.store) ∧
      v.events = w.events ++ [.execute request options (.ok page)] ∧ w.CachesKept v := by
  rw [run_dispatch] at h
  rcases answer : Store.execute request options w.store with ⟨fault | page', store⟩ <;>
    rw [answer] at h <;> cases h
  exact ⟨rfl, w.answered_events _ _, rfl, rfl, rfl⟩

theorem dispatch_error {e : Error} (h : (dispatch request options).run w = (.error e, v)) :
    ∃ fault drops, e = .transport fault ∧
      Store.execute request options w.store = (.error fault, v.store) ∧
      v.events = w.events ++ .execute request options (.error fault) :: drops ∧
      (drops = [] ∧ w.CachesKept v ∨
        drops = [.metadataDropped, .statementsDropped] ∧ v.CachesEmpty) := by
  rw [run_dispatch] at h
  rcases answer : Store.execute request options w.store with ⟨fault | page, store⟩ <;>
    rw [answer] at h
  · obtain ⟨he, rfl⟩ := Prod.mk.inj h
    cases he
    split
    · refine ⟨fault, _, rfl, rfl, ?_, .inr ⟨rfl, World.dropped_empty _⟩⟩
      rw [World.dropped_events, World.answered_events, List.append_assoc]
      rfl
    · exact ⟨fault, [], rfl, rfl, w.answered_events _ _, .inl ⟨rfl, rfl, rfl, rfl⟩⟩
  · cases h

end Op
end WideColumn
