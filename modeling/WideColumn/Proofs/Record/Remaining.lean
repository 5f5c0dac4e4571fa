import WideColumn.Proofs.Record.Fetch

/-!
The pages that are left of a read. However the rows are taken, one by one, all together or as a
stream, they are those that are there already and behind them the rows of these pages.
-/
namespace WideColumn

variable {σ : Type} [Store σ]

/-- What is left to fetch is fetched page by page, to the end and without a failure. -/
inductive PagesLeft : Option (Compiled × Bytes) → World σ → List Page → World σ → Prop
  | done (w : World σ) : PagesLeft none w [] w
  | page {c : Compiled} {state : Bytes} {w v u : World σ} {p : Page} {ps : List Page} :
      (Op.fetchPage c (some state)).run w = (.ok p, v) →
      PagesLeft (p.pagingState.map (c, ·)) v ps u →
      PagesLeft (some (c, state)) w (p :: ps) u

/-- The next row is taken again and again, until there is none. -/
inductive TakenOneByOne : Rows → World σ → List Record → World σ → Prop
  | done {r r' : Rows} {w v : World σ} :
      r.next.run w = (⟨.ok none, r'⟩, v) → TakenOneByOne r w [] v
  | row {r r' : Rows} {w v u : World σ} {record : Record} {records : List Record} :
      r.next.run w = (⟨.ok (some record), r'⟩, v) → TakenOneByOne r' v records u →
      TakenOneByOne r w (record :: records) u

/-- A store that answers every request with a page from now on, whatever it is asked. -/
def NeverFails (s : σ) : Prop :=
  ∀ (asked : List (Request × Options)) (request : Request) (options : Options), ∃ p t,
    Store.execute request options (asked.foldl (fun s a => (Store.execute a.1 a.2 s).2) s) =
      (.ok p, t)

theorem NeverFails.execute {s t : σ} {request : Request} {options : Options}
    {answer : Except Fault Page} (h : NeverFails s)
    (ht : Store.execute request options s = (answer, t)) : NeverFails t := by
  intro asked request' options'
  have later := h ((request, options) :: asked) request' options'
  rwa [List.foldl_cons, ht] at later

namespace PagesLeft

variable {r r' : Rows} {w v u : World σ} {c : Compiled} {state : Bytes} {p : Page} {ps : List Page}
  {next : Option (Compiled × Bytes)} {n : Nat}

theorem length_le [LawfulStore σ] (h : PagesLeft next w ps u) :
    ps.length ≤ Store.pagesToCome w.store + 1 := by
  induction h with
  | done => simp
  | @page c state w v u p ps fetched rest ih =>
    cases more : p.pagingState with
    | none =>
      rw [more] at rest
      cases rest
      simp
    | some state' =>
      have := Rows.pagesToCome_lt fetched (by simp [more])
      rw [List.length_cons]
      omega

/-- A store that never fails gives all pages that are left. -/
theorem exists_of_neverFails [LawfulStore σ] (h : NeverFails w.store)
    (next : Option (Compiled × Bytes)) : ∃ ps u, PagesLeft next w ps u := by
  induction bound : Store.pagesToCome w.store using Nat.strongRecOn generalizing w next with
  | ind bound ih =>
    cases next with
    | none => exact ⟨[], w, .done w⟩
    | some continuation =>
      obtain ⟨c, state⟩ := continuation
      rcases fetched : (Op.fetchPage c (some state)).run w with ⟨e | p, v⟩
      · obtain ⟨fault, drops, -, refused, -⟩ := Op.dispatch_error fetched
        obtain ⟨p, t, answered⟩ := h [] _ _
        cases refused.symm.trans answered
      · obtain ⟨answered, -, -⟩ := Op.dispatch_ok fetched
        cases more : p.pagingState with
        | none => exact ⟨[p], v, .page fetched (by rw [more]; exact .done v)⟩
        | some state' =>
          have lt := Rows.pagesToCome_lt fetched (by simp [more])
          obtain ⟨ps, u, rest⟩ := ih _ (bound ▸ lt) (h.execute answered)
            (p.pagingState.map (c, ·)) rfl
          exact ⟨p :: ps, u, .page fetched rest⟩

/-- The events of fetching what is left: a request for each page. -/
theorem events (h : PagesLeft next w ps u) : ∃ es, u.events = w.events ++ es ∧
    es.filterMap Event.page? = ps := by
  induction h with
  | done => exact ⟨[], by simp⟩
  | @page c state w v u p ps fetched rest ih =>
    obtain ⟨es, he, hp⟩ := ih
    obtain ⟨-, hv, -⟩ := Op.dispatch_ok fetched
    refine ⟨.execute (.statement c.wire) { c.options with pagingState := some state } (.ok p) :: es,
      ?_, ?_⟩
    · rw [he, hv, List.append_assoc]
      rfl
    · rw [List.filterMap_cons, hp]
      rfl

section All

theorem drain (h : PagesLeft r.continuation w ps u) (hn : ps.length ≤ n) :
    ∃ r', (Rows.drainWithin n r).run w = (.ok r', u) ∧
      r'.buffered = r.buffered ++ ps.flatMap Rows.recordsOf := by
  induction n generalizing r w ps with
  | zero =>
    obtain rfl := List.length_eq_zero_iff.mp (Nat.le_zero.mp hn)
    generalize r.continuation = next at h
    cases h
    exact ⟨r, rfl, by simp⟩
  | succ n ih =>
    generalize hc : r.continuation = next at h
    cases h with
    | done =>
      refine ⟨r, ?_, by simp⟩
      rw [Rows.drainWithin, Rows.isFullyFetched_iff.mpr hc]
      rfl
    | @page c state _ v _ p ps fetched rest =>
      have source := (Rows.of_continuation hc).1
      rw [← Rows.continuation_withPage source] at rest
      obtain ⟨r', run, rows⟩ := ih rest (by simpa using hn)
      refine ⟨r', ?_, ?_⟩
      · have more : (Op.fetchMore r).run w = (.ok (r.withPage p), v) := by
          simp only [Op.fetchMore, hc]
          exact Op.run_bind_ok fetched
        have notDone : r.isFullyFetched = false := by simp [Rows.isFullyFetched, hc]
        rw [Rows.drainWithin, notDone]
        exact (Op.run_bind_ok more).trans run
      · rw [rows, Rows.withPage, List.flatMap_cons, List.append_assoc]

theorem collect [LawfulStore σ] (h : PagesLeft r.continuation w ps u) :
    r.collect.run w = (.ok (r.buffered ++ ps.flatMap Rows.recordsOf), u) := by
  obtain ⟨r', run, rows⟩ := h.drain h.length_le
  rw [← rows]
  exact Op.run_bind_ok run

end All

section Stream

theorem streamWithin (h : PagesLeft r.continuation w ps u) (hn : ps.length ≤ n) :
    (Rows.streamWithin n r).run w = ((r.buffered ++ ps.flatMap Rows.recordsOf, none), u) := by
  induction n generalizing r w ps with
  | zero =>
    obtain rfl := List.length_eq_zero_iff.mp (Nat.le_zero.mp hn)
    generalize r.continuation = next at h
    cases h
    simp only [List.flatMap_nil, List.append_nil]
    rfl
  | succ n ih =>
    generalize hc : r.continuation = next at h
    cases h with
    | done =>
      rw [Rows.streamWithin, Rows.isFullyFetched_iff.mpr hc]
      simp only [List.flatMap_nil, List.append_nil]
      rfl
    | @page c state _ v _ p ps fetched rest =>
      have source := (Rows.of_continuation hc).1
      have notDone : r.isFullyFetched = false := by simp [Rows.isFullyFetched, hc]
      -- The rows that are there go out before the page is fetched.
      let empty : Rows := { r with buffered := [] }
      rw [← Rows.continuation_withPage (r := empty) source] at rest
      have later := ih rest (by simpa using hn)
      rw [Rows.streamWithin, notDone]
      refine (run_step (Rows.more_of_page (r := empty) hc fetched)).trans ?_
      refine (run_step later).trans ?_
      rw [List.flatMap_cons]
      rfl

theorem stream [LawfulStore σ] (h : PagesLeft r.continuation w ps u) :
    r.stream.run w = ((r.buffered ++ ps.flatMap Rows.recordsOf, none), u) :=
  h.streamWithin h.length_le

end Stream

section OneByOne

/-- Waiting for a row moves rows from the pages that are left to those that are there, until one is
there or no page is left. -/
private theorem after_filling {t : Taken Unit} (h : PagesLeft r.continuation w ps u)
    (hf : Rows.Filling r w t v) : t.outcome = .ok () ∧
      ∃ ps', PagesLeft t.rows.continuation v ps' u ∧ (t.rows.buffered = [] → ps' = []) ∧
        t.rows.buffered ++ ps'.flatMap Rows.recordsOf = r.buffered ++ ps.flatMap Rows.recordsOf := by
  induction hf generalizing ps with
  | ready w ready =>
    refine ⟨rfl, ps, h, fun hb => ?_, rfl⟩
    rw [ready hb] at h
    cases h
    rfl
  | error hb next refused =>
    rw [next] at h
    cases h with
    | page fetched _ => cases refused.symm.trans fetched
  | page hb next fetched _ ih =>
    have source := (Rows.of_continuation next).1
    rw [next] at h
    cases h with
    | page fetched' rest =>
      cases fetched.symm.trans fetched'
      rw [← Rows.continuation_withPage source] at rest
      obtain ⟨outcome, ps', left, last, rows⟩ := ih rest
      refine ⟨outcome, ps', left, last, ?_⟩
      rw [rows, Rows.withPage, List.flatMap_cons, List.append_assoc]

/-- What is left behind rows that have waited was left behind them before. -/
private theorem before_filling {t : Taken Unit} (hf : Rows.Filling r w t v)
    (h : PagesLeft t.rows.continuation v ps u) (ht : t.outcome = .ok ()) :
    ∃ ps', PagesLeft r.continuation w ps' u ∧
      t.rows.buffered ++ ps.flatMap Rows.recordsOf = r.buffered ++ ps'.flatMap Rows.recordsOf := by
  induction hf with
  | ready w ready => exact ⟨ps, h, rfl⟩
  | error => cases ht
  | @page r c state p w v u t hb next fetched _ ih =>
    obtain ⟨ps', left, rows⟩ := ih h ht
    rw [Rows.continuation_withPage (Rows.of_continuation next).1] at left
    refine ⟨p :: ps', by rw [next]; exact .page fetched left, ?_⟩
    rw [rows, Rows.withPage, List.flatMap_cons, List.append_assoc]

theorem takenOneByOne [LawfulStore σ] (h : PagesLeft r.continuation w ps u) :
    TakenOneByOne r w (r.buffered ++ ps.flatMap Rows.recordsOf) u := by
  induction rows : r.buffered ++ ps.flatMap Rows.recordsOf generalizing r w ps with
  | nil =>
    obtain ⟨r', v, ⟨filled, next⟩ | ⟨e, filled, -⟩⟩ := r.next_cases w
    · obtain ⟨-, ps', left, last, same⟩ := h.after_filling filled
      rw [rows] at same
      obtain ⟨hb, -⟩ := List.append_eq_nil_iff.mp same
      obtain rfl := last hb
      rw [Rows.takeFirst, hb] at next
      generalize r'.continuation = rest at left
      cases left
      exact .done next
    · cases (h.after_filling filled).1
  | cons record records ih =>
    obtain ⟨r', v, ⟨filled, next⟩ | ⟨e, filled, -⟩⟩ := r.next_cases w
    · obtain ⟨-, ps', left, last, same⟩ := h.after_filling filled
      rw [rows] at same
      cases hb : r'.buffered with
      | nil =>
        rw [hb, last hb] at same
        cases same
      | cons record' buffered =>
        rw [hb] at same
        rw [Rows.takeFirst, hb] at next
        obtain ⟨rfl, rest⟩ := List.cons.inj same
        exact .row next (ih left rest)
    · cases (h.after_filling filled).1

/-- Rows that can be taken one by one to the end are those that are there and those of the pages that
are left. -/
theorem of_takenOneByOne [LawfulStore σ] {records : List Record} (h : TakenOneByOne r w records u) :
    ∃ ps, PagesLeft r.continuation w ps u ∧
      records = r.buffered ++ ps.flatMap Rows.recordsOf := by
  induction h with
  | @done r _ w v taken =>
    obtain ⟨r', v', ⟨filled, next⟩ | ⟨e, -, next⟩⟩ := r.next_cases w
    · obtain ⟨first, rfl⟩ := Prod.mk.inj (taken.symm.trans next)
      have hb : r'.buffered = [] := by
        simpa [Rows.takeFirst] using (congrArg Taken.outcome first).symm
      have finished : PagesLeft r'.continuation v [] v := by
        rw [filled.waits rfl hb]
        exact .done v
      obtain ⟨ps, left, rows⟩ := before_filling filled finished rfl
      refine ⟨ps, left, ?_⟩
      rw [← rows, hb]
      rfl
    · cases taken.symm.trans next
  | @row r _ w v u record records taken _ ih =>
    obtain ⟨r', v', ⟨filled, next⟩ | ⟨e, -, next⟩⟩ := r.next_cases w
    · obtain ⟨first, rfl⟩ := Prod.mk.inj (taken.symm.trans next)
      obtain ⟨rest, hb⟩ : ∃ rest, r'.buffered = record :: rest := by
        have head := (congrArg Taken.outcome first).symm
        exact List.head?_eq_some_iff.mp (by simpa [Rows.takeFirst] using head)
      obtain ⟨ps, left, rows⟩ := ih
      have rows' := congrArg Taken.rows first
      subst rows'
      obtain ⟨ps', left', same⟩ := before_filling filled left rfl
      refine ⟨ps', left', ?_⟩
      rw [← same, rows, hb]
      simp [Rows.takeFirst, hb]
    · cases taken.symm.trans next

end OneByOne

end PagesLeft
end WideColumn
