import WideColumn.Proofs.Engine.Events
import WideColumn.Record.Rows

/-!
What rows do when they fetch: one page at a time, and until a row is there. A fetch that fails leaves
them as they were.
-/
namespace WideColumn

variable {σ : Type}

/-- An action of two steps, the second from where the first has left off. -/
theorem run_step {α β : Type} {x : StateM (World σ) α} {k : α → StateM (World σ) β} {w v : World σ}
    {a : α} (h : x.run w = (a, v)) : (x >>= k).run w = (k a).run v := by
  rw [StateT.run_bind, h]
  rfl

namespace Rows

variable [Store σ] {r r' : Rows} {w v : World σ} {c : Compiled} {state : Bytes} {p : Page}
  {e : Error} {n : Nat}

theorem continuation_of_source (h : r.source = some c) :
    r.continuation = r.pagingState.map (c, ·) := by
  cases next : r.pagingState <;> simp [continuation, h, next]

theorem continuation_withPage (h : r.source = some c) (p : Page) :
    (r.withPage p).continuation = p.pagingState.map (c, ·) :=
  continuation_of_source (r := r.withPage p) h

theorem of_continuation (h : r.continuation = some (c, state)) :
    r.source = some c ∧ r.pagingState = some state := by
  rw [continuation] at h
  split at h
  · rename_i source paging
    obtain ⟨rfl, rfl⟩ := Prod.mk.inj (Option.some.inj h)
    exact ⟨source, paging⟩
  · cases h

theorem isFullyFetched_iff : r.isFullyFetched = true ↔ r.continuation = none :=
  Option.isNone_iff_eq_none

section More

theorem more_of_none (h : r.continuation = none) (w : World σ) :
    r.more.run w = (⟨.ok (), r⟩, w) := by
  have idle : (Op.fetchMore r).run w = (.ok r, w) := by
    rw [Op.fetchMore, h]
    rfl
  exact run_step idle

theorem more_of_page (h : r.continuation = some (c, state))
    (hp : (Op.fetchPage c (some state)).run w = (.ok p, v)) :
    r.more.run w = (⟨.ok (), r.withPage p⟩, v) := by
  have fetched : (Op.fetchMore r).run w = (.ok (r.withPage p), v) := by
    simp only [Op.fetchMore, h]
    exact Op.run_bind_ok hp
  exact run_step fetched

theorem more_of_error (h : r.continuation = some (c, state))
    (he : (Op.fetchPage c (some state)).run w = (.error e, v)) :
    r.more.run w = (⟨.error e, r⟩, v) := by
  have failed : (Op.fetchMore r).run w = (.error e, v) := by
    simp only [Op.fetchMore, h]
    exact Op.run_bind_error he
  exact run_step failed

end More

section Fill

/-- Pages are fetched until a row is there, nothing is left to fetch, or a fetch fails. -/
inductive Filling : Rows → World σ → Taken Unit → World σ → Prop
  | ready {r : Rows} (w : World σ) :
      (r.buffered = [] → r.continuation = none) → Filling r w ⟨.ok (), r⟩ w
  | error {r : Rows} {c : Compiled} {state : Bytes} {w v : World σ} {e : Error} :
      r.buffered = [] → r.continuation = some (c, state) →
      (Op.fetchPage c (some state)).run w = (.error e, v) → Filling r w ⟨.error e, r⟩ v
  | page {r : Rows} {c : Compiled} {state : Bytes} {p : Page} {w v u : World σ} {t : Taken Unit} :
      r.buffered = [] → r.continuation = some (c, state) →
      (Op.fetchPage c (some state)).run w = (.ok p, v) → Filling (r.withPage p) v t u →
      Filling r w t u

/-- Rows without a row after that have nothing left to fetch. -/
theorem Filling.waits {t : Taken Unit} (h : Filling r w t v) (ht : t.outcome = .ok ())
    (hb : t.rows.buffered = []) : t.rows.continuation = none := by
  induction h with
  | ready w ready => exact ready hb
  | error => cases ht
  | page _ _ _ _ ih => exact ih ht hb

private theorem fillWithin_ready (h : r.buffered = [] → r.continuation = none) (n : Nat)
    (w : World σ) : (fillWithin n r).run w = (⟨.ok (), r⟩, w) := by
  cases n with
  | zero => rfl
  | succ n =>
    have ready : (r.buffered.isEmpty && !r.isFullyFetched) = false := by
      cases hb : r.buffered with
      | nil => simp [isFullyFetched_iff.mpr (h hb)]
      | cons => rfl
    rw [fillWithin, ready]
    rfl

private theorem fillWithin_succ (hb : r.buffered = []) (h : r.continuation = some (c, state)) :
    fillWithin (n + 1) r = (do
      let t ← r.more
      match t.outcome with
      | .ok () => fillWithin n t.rows
      | .error _ => return t : StateM (World σ) (Taken Unit)) := by
  have waits : (r.buffered.isEmpty && !r.isFullyFetched) = true := by
    simp [hb, isFullyFetched, h]
  rw [fillWithin, waits]
  rfl

/-- A page that says that further ones follow leaves the store fewer pages of its sort. -/
theorem pagesToCome_lt [LawfulStore σ] (h : (Op.fetchPage c (some state)).run w = (.ok p, v))
    (more : p.pagingState.isSome = true) :
    Store.pagesToCome v.store < Store.pagesToCome w.store :=
  LawfulStore.pagesToCome_lt (Op.dispatch_ok h).1 more

/-- The bound on the pages to come is enough to fetch until a row is there. -/
private theorem filling_within [LawfulStore σ]
    (hn : r.continuation ≠ none → Store.pagesToCome w.store < n) :
    Filling r w ((fillWithin n r).run w).1 ((fillWithin n r).run w).2 := by
  induction n generalizing r w with
  | zero =>
    exact .ready w fun _ => Classical.byContradiction fun waits => Nat.not_lt_zero _ (hn waits)
  | succ n ih =>
    by_cases ready : r.buffered = [] → r.continuation = none
    · rw [fillWithin_ready ready]
      exact .ready w ready
    · obtain ⟨hb, hc⟩ := Classical.not_imp.mp ready
      obtain ⟨⟨c, state⟩, next⟩ := Option.ne_none_iff_exists'.mp hc
      rw [fillWithin_succ hb next]
      rcases fetched : (Op.fetchPage c (some state)).run w with ⟨e | p, v⟩
      · rw [run_step (more_of_error next fetched)]
        exact .error hb next fetched
      · rw [run_step (more_of_page next fetched)]
        refine .page hb next fetched (ih fun waits => ?_)
        rw [continuation_withPage (of_continuation next).1] at waits
        have lt := pagesToCome_lt fetched (Option.isSome_iff_ne_none.mpr fun h => waits (by simp [h]))
        have := hn hc
        omega

theorem filling [LawfulStore σ] (r : Rows) (w : World σ) :
    Filling r w (r.fill.run w).1 (r.fill.run w).2 :=
  filling_within fun _ => Nat.lt_succ_self _

end Fill

section Next

/-- The first row that is there is taken. -/
def takeFirst (r : Rows) : Taken (Option Record) :=
  ⟨.ok r.buffered.head?, { r with buffered := r.buffered.tail }⟩

/-- Taking a row waits until one is there and takes the first one. -/
theorem next_cases [LawfulStore σ] (r : Rows) (w : World σ) : ∃ r' v,
    Filling r w ⟨.ok (), r'⟩ v ∧ r.next.run w = (r'.takeFirst, v) ∨
      ∃ e, Filling r w ⟨.error e, r'⟩ v ∧ r.next.run w = (⟨.error e, r'⟩, v) := by
  have filled := filling r w
  rcases h : r.fill.run w with ⟨⟨e | _, r'⟩, v⟩
  · rw [h] at filled
    exact ⟨r', v, .inr ⟨e, filled, run_step h⟩⟩
  · rw [h] at filled
    refine ⟨r', v, .inl ⟨filled, ?_⟩⟩
    obtain ⟨source, buffered, pagingState, result⟩ := r'
    cases buffered <;> exact run_step h

end Next

end Rows
end WideColumn
