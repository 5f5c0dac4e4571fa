import WideColumn.Proofs.Record.Remaining
import WideColumn.Scenario.Script

/-!
Reading the result of a query by any calls for rows and for pages. Whichever of them fail, the rows
handed out and the rows buffered are those of the pages that have been fetched, and each request asks
for the page behind the last of these.
-/
namespace WideColumn

/-- The pages that requests have been answered with, in order. -/
def fetchedPages (es : List Event) : List Page := es.filterMap Event.page?

/-- From where the last page fetched says that the read is to be continued. -/
def nextState (es : List Event) : Option Bytes := (fetchedPages es).getLast?.bind Page.pagingState

/-- What rows are asked for: the next of them, or that the next page is fetched. -/
inductive Demand
  | row
  | page
  deriving DecidableEq

/-- Rows that are being read, and what they have handed out so far. -/
structure Reading (σ : Type) where
  world : World σ
  rows : Rows
  delivered : List Record := []

/-- An event of a read: the statement is sent to fetch the page behind the last one fetched, of which
there has to be one; the first page is fetched without a state. Caches may be dropped after a fault. -/
def Continues (c : Compiled) (past : List Event) : Event → Prop
  | .execute request options _ =>
    request = .statement c.wire ∧ options = { c.options with pagingState := nextState past } ∧
      (fetchedPages past ≠ [] → (nextState past).isSome = true)
  | e => e.isDrop = true

/-- The last request has been refused, and it has asked for the page that is still the next one. -/
def Refused (c : Compiled) (es : List Event) (e : Error) (r : Rows) : Prop :=
  ∃ before options fault after, es = before ++ .execute (.statement c.wire) options (.error fault) :: after ∧
    (∀ e ∈ after, e.isDrop = true) ∧ e = .transport fault ∧ options.pagingState = r.pagingState

/-- What has been handed out and what the rows hold, against the events of the read. -/
structure Exact (c : Compiled) (es : List Event) (delivered : List Record) (r : Rows) : Prop where
  source : r.source = some c
  rows : delivered ++ r.buffered = (fetchedPages es).flatMap Rows.recordsOf
  pagingState : r.pagingState = nextState es
  info : r.result.info = (fetchedPages es).map Page.info
  continued : Throughout (Continues c) [] es

@[simp] theorem fetchedPages_append (es fs : List Event) :
    fetchedPages (es ++ fs) = fetchedPages es ++ fetchedPages fs := List.filterMap_append

theorem fetchedPages_drops {es : List Event} (h : ∀ e ∈ es, e.isDrop = true) :
    fetchedPages es = [] := by
  refine List.filterMap_eq_nil_iff.mpr fun e he => ?_
  have drop := h e he
  cases e <;> first | rfl | cases drop

theorem nextState_page (es : List Event) (request : Request) (options : Options) (p : Page) :
    nextState (es ++ [.execute request options (.ok p)]) = p.pagingState := by
  simp [nextState, fetchedPages, Event.page?]

theorem nextState_of_pages {es fs : List Event} (h : fetchedPages fs = []) :
    nextState (es ++ fs) = nextState es := by
  simp [nextState, h]

theorem Continues.of_drop {c : Compiled} {past : List Event} {e : Event} (h : e.isDrop = true) :
    Continues c past e := by
  cases e <;> first | exact h | cases h

theorem Refused.append {c : Compiled} {fs : List Event} {e : Error} {r : Rows} (h : Refused c fs e r)
    (es : List Event) : Refused c (es ++ fs) e r := by
  obtain ⟨before, options, fault, after, rfl, rest⟩ := h
  exact ⟨es ++ before, options, fault, after, by rw [List.append_assoc], rest⟩

variable {σ : Type} [Store σ]

namespace Reading

/-- One call, and what it is answered. -/
def serve (g : Reading σ) : Demand → Except Error (Option Record) × Reading σ
  | .row =>
    let (t, w) := g.rows.next.run g.world
    (t.outcome, ⟨w, t.rows, g.delivered ++ (t.outcome.toOption.join).toList⟩)
  | .page =>
    let (t, w) := g.rows.more.run g.world
    (t.outcome.map fun _ => none, ⟨w, t.rows, g.delivered⟩)

def serveAll (g : Reading σ) (calls : List Demand) : Reading σ :=
  calls.foldl (fun g call => (g.serve call).2) g

end Reading

namespace Exact

variable {c : Compiled} {es : List Event} {delivered : List Record} {r : Rows} {w v : World σ}
  {state : Bytes} {p : Page} {e : Error}

/-- What a query gives is its first page. -/
theorem of_query (h : (Op.query c).run w = (.ok r, v)) :
    ∃ es, v.events = w.events ++ es ∧ Exact c es [] r := by
  obtain ⟨p, _, fetched, h⟩ := Op.run_bind_eq_ok.mp h
  cases h
  obtain ⟨-, events, -⟩ := Op.dispatch_ok fetched
  refine ⟨_, events, rfl, ?_, ?_, ?_, ?_⟩
  · simp [Rows.ofPage, fetchedPages, Event.page?]
  · exact (nextState_page [] _ _ p).symm
  · simp [Rows.ofPage, ResultMeta.ofPage, fetchedPages, Event.page?]
  · exact throughout_cons.mpr ⟨⟨rfl, rfl, fun h => (h rfl).elim⟩, .nil⟩

/-- The request for the next page continues the read, whatever it is answered. -/
private theorem continues (h : Exact c es delivered r) (next : r.pagingState = some state)
    (answer : Except Fault Page) : Continues c es (.execute (.statement c.wire)
      { c.options with pagingState := some state } answer) := by
  rw [h.pagingState] at next
  exact ⟨rfl, by rw [next], fun _ => by rw [next]; rfl⟩

theorem page (h : Exact c es delivered r) (next : r.pagingState = some state)
    (fetched : (Op.fetchPage c (some state)).run w = (.ok p, v)) :
    ∃ fs, v.events = w.events ++ fs ∧ Exact c (es ++ fs) delivered (r.withPage p) := by
  obtain ⟨-, events, -⟩ := Op.dispatch_ok fetched
  refine ⟨_, events, h.source, ?_, (nextState_page es _ _ p).symm, ?_, ?_⟩
  · rw [fetchedPages_append, List.flatMap_append, ← h.rows, List.append_assoc]
    simp [Rows.withPage, fetchedPages, Event.page?]
  · rw [fetchedPages_append, List.map_append, ← h.info]
    rfl
  · exact throughout_append.mpr ⟨h.continued, throughout_cons.mpr ⟨h.continues next _, .nil⟩⟩

/-- A failed fetch leaves nothing behind but its events. -/
theorem refused (h : Exact c es delivered r) (next : r.pagingState = some state)
    (fetched : (Op.fetchPage c (some state)).run w = (.error e, v)) :
    ∃ fs, v.events = w.events ++ fs ∧ Exact c (es ++ fs) delivered r ∧ Refused c fs e r := by
  obtain ⟨fault, drops, rfl, -, events, cases⟩ := Op.dispatch_error fetched
  have dropped : ∀ e ∈ drops, e.isDrop = true := by
    obtain ⟨rfl, -⟩ | ⟨rfl, -⟩ := cases <;> simp [Event.isDrop]
  have none_fetched := fetchedPages_drops dropped
  have quiet : fetchedPages (.execute (.statement c.wire)
      { c.options with pagingState := some state } (.error fault) :: drops) = [] := none_fetched
  refine ⟨_, events, ⟨h.source, ?_, ?_, ?_, ?_⟩, [], _, fault, drops, rfl, dropped, rfl, next.symm⟩
  · rw [fetchedPages_append, quiet, List.append_nil]
    exact h.rows
  · rw [nextState_of_pages quiet]
    exact h.pagingState
  · rw [fetchedPages_append, quiet, List.append_nil]
    exact h.info
  · exact throughout_append.mpr ⟨h.continued, throughout_cons.mpr
      ⟨h.continues next _, .of_forall fun _ e he => .of_drop (dropped e he)⟩⟩

/-- Pages that are fetched until a row is there. They are empty if a fetch fails before that. -/
theorem filling {t : Taken Unit} (h : Exact c es delivered r) (hf : Rows.Filling r w t v) :
    ∃ fs, v.events = w.events ++ fs ∧ Exact c (es ++ fs) delivered t.rows ∧
      ∀ e, t.outcome = .error e →
        Refused c fs e t.rows ∧ r.buffered = [] ∧ t.rows.buffered = [] := by
  induction hf generalizing es with
  | ready w _ => exact ⟨[], by simp, by simpa using h, fun _ he => by cases he⟩
  | error hb next failed =>
    obtain ⟨source, next⟩ := Rows.of_continuation next
    obtain rfl := Option.some.inj (source.symm.trans h.source)
    obtain ⟨fs, events, exact, refused⟩ := h.refused next failed
    refine ⟨fs, events, exact, fun e he => ?_⟩
    cases he
    exact ⟨refused, hb, hb⟩
  | page hb next fetched _ ih =>
    obtain ⟨source, next⟩ := Rows.of_continuation next
    obtain rfl := Option.some.inj (source.symm.trans h.source)
    obtain ⟨fs, events, exact⟩ := h.page next fetched
    obtain ⟨gs, events', exact', failed⟩ := ih exact
    refine ⟨fs ++ gs, ?_, by rwa [← List.append_assoc], fun e he => ?_⟩
    · rw [events', events, List.append_assoc]
    · obtain ⟨refused, -, empty⟩ := failed e he
      exact ⟨refused.append fs, hb, empty⟩

/-- A row that is handed out was the first one buffered. -/
theorem takeFirst (h : Exact c es delivered r) :
    Exact c es (delivered ++ r.buffered.head?.toList) r.takeFirst.rows := by
  refine ⟨h.source, ?_, h.pagingState, h.info, h.continued⟩
  rw [← h.rows, List.append_assoc, Rows.takeFirst]
  cases r.buffered <;> rfl

end Exact

namespace Reading

variable {c : Compiled} {es : List Event} {g : Reading σ}

/-- What a call may do to a read: it goes on with the pages that follow, or fails and leaves what
was there. -/
structure Served (g : Reading σ) (c : Compiled) (fs : List Event) (call : Demand)
    (answer : Except Error (Option Record)) (g' : Reading σ) : Prop where
  events : g'.world.events = g.world.events ++ fs
  failed : ∀ e, answer = .error e → Refused c fs e g'.rows ∧ g'.delivered = g.delivered ∧
    g'.rows.buffered = g.rows.buffered ∧ (call = .page → g'.rows = g.rows)
  finished : call = .row → answer = .ok none → g'.rows.pagingState = none ∧ g'.rows.buffered = []

private theorem serve_row_exact [LawfulStore σ] (h : Exact c es g.delivered g.rows) :
    ∃ fs, g.Served c fs .row (g.serve .row).1 (g.serve .row).2 ∧
      Exact c (es ++ fs) (g.serve .row).2.delivered (g.serve .row).2.rows := by
  obtain ⟨r', v, ⟨filled, next⟩ | ⟨e, filled, next⟩⟩ := g.rows.next_cases g.world
  · obtain ⟨fs, events, exact, -⟩ := h.filling filled
    have served : g.serve .row = (.ok r'.buffered.head?,
        ⟨v, r'.takeFirst.rows, g.delivered ++ r'.buffered.head?.toList⟩) := by
      simp only [serve, next]
      rfl
    rw [served]
    refine ⟨fs, ⟨events, nofun, fun _ last => ?_⟩, exact.takeFirst⟩
    have hb : r'.buffered = [] := List.head?_eq_none_iff.mp (Except.ok.inj last)
    refine ⟨?_, congrArg List.tail hb⟩
    have last := filled.waits rfl hb
    rwa [Rows.continuation_of_source exact.source, Option.map_eq_none_iff] at last
  · obtain ⟨fs, events, exact, failed⟩ := h.filling filled
    have served : g.serve .row = (.error e, ⟨v, r', g.delivered ++ []⟩) := by
      simp only [serve, next]
      rfl
    obtain ⟨refused, before, after⟩ := failed e rfl
    rw [served, List.append_nil]
    refine ⟨fs, ⟨events, fun e' he => ?_, nofun⟩, exact⟩
    cases he
    exact ⟨refused, rfl, after.trans before.symm, nofun⟩

private theorem serve_page_exact (h : Exact c es g.delivered g.rows) :
    ∃ fs, g.Served c fs .page (g.serve .page).1 (g.serve .page).2 ∧
      Exact c (es ++ fs) (g.serve .page).2.delivered (g.serve .page).2.rows := by
  cases more : g.rows.continuation with
  | none =>
    have served : g.serve .page = (.ok none, g) := by
      simp only [serve, Rows.more_of_none more]
      rfl
    rw [served]
    exact ⟨[], ⟨(List.append_nil _).symm, nofun, nofun⟩, by rwa [List.append_nil]⟩
  | some continuation =>
    obtain ⟨c', state⟩ := continuation
    obtain ⟨source, next⟩ := Rows.of_continuation more
    obtain rfl := Option.some.inj (source.symm.trans h.source)
    rcases fetched : (Op.fetchPage c' (some state)).run g.world with ⟨e | p, v⟩
    · have served : g.serve .page = (.error e, ⟨v, g.rows, g.delivered⟩) := by
        simp only [serve, Rows.more_of_error more fetched]
        rfl
      obtain ⟨fs, events, exact, refused⟩ := h.refused next fetched
      rw [served]
      refine ⟨fs, ⟨events, fun e' he => ?_, nofun⟩, exact⟩
      cases he
      exact ⟨refused, rfl, rfl, fun _ => rfl⟩
    · have served : g.serve .page = (.ok none, ⟨v, g.rows.withPage p, g.delivered⟩) := by
        simp only [serve, Rows.more_of_page more fetched]
        rfl
      obtain ⟨fs, events, exact⟩ := h.page next fetched
      rw [served]
      exact ⟨fs, ⟨events, nofun, nofun⟩, exact⟩

/-- One call keeps the rows exact. -/
theorem serve_exact [LawfulStore σ] (h : Exact c es g.delivered g.rows) (call : Demand) :
    ∃ fs, g.Served c fs call (g.serve call).1 (g.serve call).2 ∧
      Exact c (es ++ fs) (g.serve call).2.delivered (g.serve call).2.rows := by
  cases call with
  | row => exact serve_row_exact h
  | page => exact serve_page_exact h

/-- So does any number of calls. -/
theorem serveAll_exact [LawfulStore σ] (h : Exact c es g.delivered g.rows) (calls : List Demand) :
    ∃ fs, (g.serveAll calls).world.events = g.world.events ++ fs ∧
      Exact c (es ++ fs) (g.serveAll calls).delivered (g.serveAll calls).rows := by
  induction calls generalizing g es with
  | nil => exact ⟨[], (List.append_nil _).symm, by rwa [List.append_nil]⟩
  | cons call calls ih =>
    obtain ⟨fs, served, exact⟩ := serve_exact h call
    obtain ⟨gs, events, exact'⟩ := ih exact
    refine ⟨fs ++ gs, ?_, by rwa [← List.append_assoc]⟩
    rw [serveAll, List.foldl_cons, ← serveAll, events, served.events, List.append_assoc]

end Reading

/-- However often rows and pages of a query are asked for, and whichever requests fail: the rows
handed out and those buffered are the rows of the pages fetched, the next call goes on behind them,
and taking all that is left gives the same in each way. -/
theorem query_read_exactly [LawfulStore σ] {c : Compiled} {r : Rows} {w v : World σ}
    (h : (Op.query c).run w = (.ok r, v)) (calls : List Demand) (call : Demand) :
    let g := Reading.serveAll ⟨v, r, []⟩ calls
    let g' := (g.serve call).2
    ∃ es fs, g.world.events = w.events ++ es ∧ Exact c es g.delivered g.rows ∧
      g.Served c fs call (g.serve call).1 g' ∧ Exact c (es ++ fs) g'.delivered g'.rows ∧
      (NeverFails g.world.store → ∃ records u, TakenOneByOne g.rows g.world records u) ∧
      ∀ records u, TakenOneByOne g.rows g.world records u →
        g.rows.collect.run g.world = (.ok records, u) ∧
        g.rows.stream.run g.world = ((records, none), u) ∧
        ∃ later, u.events = g.world.events ++ later ∧
          g.delivered ++ records = (fetchedPages (es ++ later)).flatMap Rows.recordsOf := by
  intro g g'
  obtain ⟨first, queried, started⟩ := Exact.of_query h
  obtain ⟨es, events, exact⟩ := Reading.serveAll_exact (g := ⟨v, r, []⟩) started calls
  obtain ⟨fs, served, exact'⟩ := Reading.serve_exact exact call
  refine ⟨first ++ es, fs, ?_, exact, served, exact', fun never => ?_, fun records u taken => ?_⟩
  · rw [← List.append_assoc, ← queried]
    exact events
  · obtain ⟨ps, u, left⟩ := PagesLeft.exists_of_neverFails never g.rows.continuation
    exact ⟨_, u, left.takenOneByOne⟩
  · obtain ⟨ps, left, rfl⟩ := PagesLeft.of_takenOneByOne taken
    obtain ⟨later, ran, pages⟩ := left.events
    refine ⟨left.collect, left.stream, later, ran, ?_⟩
    rw [fetchedPages_append, List.flatMap_append, ← exact.rows, List.append_assoc, fetchedPages,
      pages]

/-- A script of pages only never fails. -/
theorem neverFails_of_pages {s : Script} (h : ∀ a ∈ s.answers, ∃ p, a = .ok p) : NeverFails s := by
  intro asked request options
  induction asked generalizing s with
  | nil =>
    cases ha : s.answers with
    | nil => exact ⟨{}, s, by simp [Store.execute, Script.answer, ha]⟩
    | cons a rest =>
      obtain ⟨p, rfl⟩ := h a (by simp [ha])
      exact ⟨p, { s with answers := rest }, by simp [Store.execute, Script.answer, ha]⟩
  | cons _ asked ih =>
    refine ih fun a later => h a ?_
    cases ha : s.answers with
    | nil => simp [Store.execute, Script.answer, ha] at later
    | cons a' rest =>
      have later : a ∈ rest := by simpa [Store.execute, Script.answer, ha] using later
      exact List.mem_cons_of_mem a' later

/-- A read that runs into a timeout, an empty page and a schema fault before its last page. -/
theorem read_around_faults :
    let c : Compiled :=
      ⟨⟨.select ⟨⟨"shop", "orders"⟩, false, none, [], none, false⟩, .markers, true, none, none⟩, none, {}⟩
    let page (ns : List Int32) (state : Option Bytes) : Page :=
      { columns := ["n"], rows := ns.map fun n => [.int n], pagingState := state }
    let w : World Script := World.new {} { answers := [.ok (page [1, 2] (some [7])),
      .error .timeout, .ok (page [] (some [8])), .error (.invalidQuery "gone"), .ok (page [3] none)] }
    ∃ r v, (Op.query c).run w = (.ok r, v) ∧
      let g := Reading.serveAll ⟨v, r, []⟩ [.row, .page, .row, .row]
      let g' := (g.serve .row).2
      g.delivered = [⟨["n"], [.int 1]⟩, ⟨["n"], [.int 2]⟩] ∧ NeverFails g.world.store ∧
      ∃ es fs, g.world.events = w.events ++ es ∧ Exact c es g.delivered g.rows ∧
        g.Served c fs .row (g.serve .row).1 g' ∧ Exact c (es ++ fs) g'.delivered g'.rows ∧
        ∃ records u, TakenOneByOne g.rows g.world records u ∧
          g.rows.collect.run g.world = (.ok records, u) ∧
          g.rows.stream.run g.world = ((records, none), u) := by
  intro c page w
  obtain ⟨r, v, queried, delivered, left⟩ : ∃ r v, (Op.query c).run w = (.ok r, v) ∧
      (Reading.serveAll ⟨v, r, []⟩ [.row, .page, .row, .row]).delivered =
        [⟨["n"], [.int 1]⟩, ⟨["n"], [.int 2]⟩] ∧
      (Reading.serveAll ⟨v, r, []⟩ [.row, .page, .row, .row]).world.store.answers =
        [.ok (page [3] none)] := ⟨_, _, rfl, rfl, rfl⟩
  have never := neverFails_of_pages fun a ha => ⟨page [3] none, List.mem_singleton.mp (left ▸ ha)⟩
  obtain ⟨es, fs, events, exact, served, exact', taken, same⟩ :=
    query_read_exactly queried [.row, .page, .row, .row] .row
  obtain ⟨records, u, taken⟩ := taken never
  obtain ⟨collect, stream, -⟩ := same records u taken
  exact ⟨r, v, queried, delivered, never, es, fs, events, exact, served, exact', records, u, taken,
    collect, stream⟩

end WideColumn
