import WideColumn.Proofs.Engine.Quiet

/-!
What an engine has sent to the store for execution. Only dispatching a request adds to it, and adds
just that request.
-/
namespace WideColumn

variable {σ : Type} {w v : World σ}

/-- The request of an event that executed one. -/
def Event.sent? : Event → Option (Request × Options)
  | execute request options _ => some (request, options)
  | _ => none

/-- The requests executed so far, oldest first. -/
def World.sent (w : World σ) : List (Request × Options) :=
  w.trace.filterMap fun e => e.2.sent?

theorem World.Quiet.sent (h : w.Quiet v) : v.sent = w.sent := by
  obtain ⟨es, trace, questions⟩ := h.grown
  have none : es.filterMap (fun e => e.2.sent?) = [] := by
    refine List.filterMap_eq_nil_iff.mpr fun e he => ?_
    have question := questions e he
    cases same : e.2 <;> rw [same] at question <;> first | rfl | cases question
  rw [World.sent, trace, List.filterMap_append, none, List.append_nil, World.sent]

namespace Op

variable [Store σ]

/-- A dispatched request is executed once, whatever the store answers. -/
theorem dispatch_sent (request : Request) (options : Options) (w : World σ) :
    ((dispatch request options).run w).2.sent = w.sent ++ [(request, options)] := by
  rw [run_dispatch]
  rcases Store.execute request options w.store with ⟨fault | page, store⟩
  · dsimp only
    split <;> simp [World.sent, World.answered, World.dropped, Event.sent?]
  · simp [World.sent, World.answered, Event.sent?]

/-- What comes of a submission is decided by its answer, and by its guard if that did not hold. -/
theorem run_submit (s : Submission) (w : World σ) : (submit s).run w =
    match (dispatch s.request s.options).run w with
    | (.error e, v) => (.error e, v)
    | (.ok page, v) =>
      (if page.applied then .ok (.ofPage page)
        else match s.guard.rejection with
          | some rejection => .error (.constraint (.notApplied rejection))
          | none => .ok (.ofPage page), v) := by
  rw [submit, run_bind]
  rcases (dispatch s.request s.options).run w with ⟨e | page, v⟩
  · rfl
  · cases h : page.applied <;>
      simp only [h, Bool.not_false, Bool.not_true, Bool.false_eq_true, ↓reduceIte]
    · cases s.guard.rejection <;> rfl
    · rfl

/-- What a submission makes of its answer changes nothing. -/
theorem submit_world (s : Submission) (w : World σ) :
    ((submit s).run w).2 = ((dispatch s.request s.options).run w).2 := by
  rw [run_submit]
  split <;> rename_i h <;> rw [h]

theorem submit_sent (s : Submission) (w : World σ) :
    ((submit s).run w).2.sent = w.sent ++ [(s.request, s.options)] := by
  rw [submit_world, dispatch_sent]

/-- What is sent has been prepared before, all of it. -/
theorem run_mutateBy {ρ : Type} (prepare : Member ρ → Op σ (Compiled × List (Member ρ)))
    (members : List (Member ρ)) (kind : Option BatchKind) (ctx : Context) (w : World σ) :
    (mutateBy prepare members kind ctx).run w =
      match (prepareAll prepare cascadeLevels members).run w with
      | (.error e, v) => (.error e, v)
      | (.ok statements, v) =>
        match submission statements kind ctx with
        | .error e => (.error e, v)
        | .ok s => (submit s).run v := by
  rw [mutateBy]
  rcases prepared : (prepareAll prepare cascadeLevels members).run w with ⟨e | statements, v⟩
  · rw [run_bind_error prepared]
  · rw [run_bind_ok prepared]
    dsimp only
    cases submission statements kind ctx <;> rfl

end Op
end WideColumn
