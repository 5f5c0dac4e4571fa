import WideColumn.Proofs.Engine.Cascade
import WideColumn.Proofs.Plan.Restrictions

/-!
Guards, from the request to the report. The condition that a mutation asks for is the guard of its
statement, and the first guard among the statements sent together is what a refusal is reported with.
-/
namespace WideColumn

open Outcome

variable {σ ρ : Type}

/-- The page tells that a guard did not hold. -/
structure Page.Refuses (p : Page) : Prop where
  column : p.columns.head? = some appliedColumn
  cell : p.rows.head?.bind List.head? = some (.boolean false)

theorem Page.applied_eq_false {p : Page} : p.applied = false ↔ p.Refuses := by
  have told : p.Refuses ↔ p.columns.head? = some appliedColumn ∧
      p.rows.head?.bind List.head? = some (.boolean false) :=
    ⟨fun h => ⟨h.column, h.cell⟩, fun h => ⟨h.1, h.2⟩⟩
  rw [told, Page.applied]
  split
  · rename_i column
    cases p.rows.head?.bind List.head? with
    | none => simp
    | some d => cases d <;> simp [column, Datum.asBool]
  · rename_i column
    simp [column]

/-- The condition under which the mutation is to be applied. -/
def Mutation.guard : Mutation → Guard
  | write w => if w.ifNotExists then .ifNotExists else if w.onlyIf.isEmpty then .none else .onlyIf
  | delete d => if d.ifExists then .ifExists else if d.onlyIf.isEmpty then .none else .onlyIf
  | counter _ => .none

section Plan

variable {b : Binder} {p : Plan}

private theorem isEmpty_relations {cs : List Clause} {rs : List Relation}
    (h : cs.mapM b.relation = .ok rs) : rs.isEmpty = cs.isEmpty := by
  cases forall₂_mapM h <;> rfl

theorem Write.plan_guard {w : Write} (hc : w.check = .ok ()) (h : w.plan b = .ok p) :
    p.statement.guard = (Mutation.write w).guard := by
  obtain ⟨-, s, hs, same⟩ | ⟨new, -, s, hs, same⟩ := plan_cases hc h
  · obtain ⟨onlyIf, ifNotExists, -⟩ := insertion_names hs
    simp [same, Statement.guard, Mutation.guard, onlyIf, ifNotExists]
  · obtain ⟨-, -, -, -, hq⟩ := rowUpdate_parts hs
    simp [same, Statement.guard, Mutation.guard, new, isEmpty_relations hq]

theorem Deletion.plan_guard {d : Deletion} (h : d.plan b = .ok p) :
    p.statement.guard = (Mutation.delete d).guard := by
  simp only [plan, bind_eq_ok, pure_eq_ok] at h
  obtain ⟨_, -, qs, hq, rfl⟩ := h
  simp [Plan.of, Statement.guard, Mutation.guard, isEmpty_relations hq]

theorem CounterUpdate.plan_guard {u : CounterUpdate} (h : u.plan b = .ok p) :
    p.statement.guard = (Mutation.counter u).guard := by
  simp only [plan, bind_eq_ok] at h
  obtain ⟨_, -, h⟩ := h
  split at h
  · cases h
  simp only [bind_eq_ok, pure_eq_ok] at h
  obtain ⟨_, -, rfl⟩ := h
  rfl

end Plan

namespace Op

variable [Store σ] {w v : World σ} {ctx : Context}

/-- No condition of a mutation is lost or added by its compilation. -/
theorem compile_guard {f : Mutation} {c : Compiled}
    (h : (compileMutation f ctx).run w = (.ok c, v)) : c.guard = f.guard := by
  obtain ⟨b, _, -, hp, -⟩ := compile_ok (q := .mutation f) h
  simp only [Specification.plan, bind_eq_ok] at hp
  obtain ⟨_, checked, planned⟩ := hp
  cases f with
  | write w => exact w.plan_guard checked planned
  | delete d => exact d.plan_guard planned
  | counter u => exact u.plan_guard planned

omit [Store σ] in
/-- A submission is guarded as the first of its statements that is guarded at all. -/
theorem submission_rejection {cs : List Compiled} {kind : Option BatchKind} {s : Submission}
    (h : submission cs kind ctx = .ok s) :
    s.guard.rejection = cs.findSome? fun c => c.guard.rejection := by
  have first (cs : List Compiled) :
      (((cs.map Compiled.guard).find? (· ≠ .none)).getD .none).rejection =
        cs.findSome? fun c => c.guard.rejection := by
    induction cs with
    | nil => rfl
    | cons c cs ih =>
      rw [List.map_cons, List.find?_cons, List.findSome?_cons]
      cases c.guard <;> first | rfl | exact ih
  unfold submission at h
  split at h
  · rename_i c
    cases h
    show c.guard.rejection = _
    cases h : c.guard.rejection <;> simp [h]
  · cases hb : Batch.assemble cs kind ctx with
    | error e => simp [hb, Except.map] at h
    | ok b =>
      simp only [hb, Except.map, Except.ok.injEq] at h
      subst h
      rw [← assemble_statements hb]
      exact first _

/-- What is reported of a page that the submission was answered with. -/
theorem submit_reports (s : Submission) (w : World σ) :
    ∃ es, ((submit s).run w).2.events = w.events ++ es ∧
      ∀ request options page, .execute request options (.ok page) ∈ es →
        request = s.request ∧ ((submit s).run w).1 =
          if page.applied then .ok (.ofPage page)
          else match s.guard.rejection with
            | some rejection => .error (.constraint (.notApplied rejection))
            | none => .ok (.ofPage page) := by
  rw [run_submit]
  rcases dispatched : (dispatch s.request s.options).run w with ⟨e | page, v⟩
  · obtain ⟨fault, drops, -, -, events, consequence⟩ := dispatch_error dispatched
    refine ⟨_, events, fun request options page answered => ?_⟩
    obtain ⟨rfl, -⟩ | ⟨rfl, -⟩ := consequence <;> simp at answered
  · obtain ⟨-, events, -⟩ := dispatch_ok dispatched
    refine ⟨_, events, fun request options page' answered => ?_⟩
    simp only [List.mem_singleton, Event.execute.injEq, Except.ok.injEq] at answered
    obtain ⟨rfl, -, rfl⟩ := answered
    exact ⟨rfl, rfl⟩

variable {owners : ρ → Registry σ ρ}

/-- Members with their statements, taken apart: in between are their mutations as intercepted. -/
theorem yields_split {pairs : List (Member ρ × Compiled)}
    (h : ∀ p ∈ pairs, Yields owners ctx p.1 p.2) :
    ∃ fs, List.Forall₂ (fun m f => Member.intercepted owners m = .ok f) (pairs.map Prod.fst) fs ∧
      List.Forall₂ (fun f c => ∃ w v : World σ, (compileMutation f ctx).run w = (.ok c, v)) fs
        (pairs.map Prod.snd) := by
  induction pairs with
  | nil => exact ⟨[], .nil, .nil⟩
  | cons p pairs ih =>
    obtain ⟨⟨f, hf, -, compiled⟩, others⟩ := List.forall_mem_cons.mp h
    obtain ⟨fs, intercepted, statements⟩ := ih others
    exact ⟨f :: fs, .cons hf intercepted, .cons compiled statements⟩

theorem compile_rejections {fs : List Mutation} {cs : List Compiled}
    (h : List.Forall₂ (fun f c => ∃ w v : World σ, (compileMutation f ctx).run w = (.ok c, v)) fs cs) :
    (cs.findSome? fun c => c.guard.rejection) = fs.findSome? fun f => f.guard.rejection := by
  induction h with
  | nil => rfl
  | cons compiled _ ih =>
    obtain ⟨_, _, compiled⟩ := compiled
    rw [List.findSome?_cons, List.findSome?_cons, compile_guard compiled, ih]

/-- A refusal is never taken for a success. What was sent are the statements of the members and of all
that they cascade into, each compiled from what its interceptors have made of the mutation. If the
page that answers it tells that a guard did not hold, the first of these mutations that asked for a
guard is reported as refused; without any such, and after any other page, there is no error. -/
theorem mutate_reports {members : List (Member ρ)} {kind : Option BatchKind}
    {result : Except Error ResultMeta} {es : List Event} {request : Request} {options : Options}
    {page : Page} (h : (mutate owners members kind ctx).run w = (result, v))
    (new : v.events = w.events ++ es) (answered : .execute request options (.ok page) ∈ es) :
    ∃ fs cs,
      List.Forall₂ (fun m f => Member.intercepted owners m = .ok f)
        (breadthFirst owners cascadeLevels members) fs ∧
      List.Forall₂ (fun f c => ∃ w v : World σ, (compileMutation f ctx).run w = (.ok c, v)) fs cs ∧
      request.statements = cs.map Compiled.wire ∧
      (page.Refuses → result = match fs.findSome? fun f => f.guard.rejection with
        | some rejection => .error (.constraint (.notApplied rejection))
        | none => .ok ⟨false, [page.info]⟩) ∧
      (¬ page.Refuses → result = .ok ⟨true, [page.info]⟩) := by
  -- without a submission all events are questions
  have quiet {u : World σ} (asked : w.Quiet u) (ended : v = u) : False := by
    obtain ⟨qs, events, questions⟩ := asked.events
    rw [ended, events] at new
    rw [← List.append_cancel_left new] at answered
    cases questions _ answered
  rw [mutate, mutateBy] at h
  rcases prepared : (prepareAll (prepareMember owners ctx) cascadeLevels members).run w with ⟨e | cs, u⟩
  · rw [run_bind_error prepared] at h
    have asked := quiet_prepareAll owners ctx cascadeLevels members w
    rw [prepared] at asked
    exact (quiet asked (Prod.mk.inj h).2.symm).elim
  obtain ⟨pairs, rfl, order, worked⟩ := all_worked (Nat.zero_add _) prepared
  rw [run_bind_ok prepared] at h
  cases together : submission (pairs.map Prod.snd) kind ctx with
  | error e =>
    rw [together, run_bind_error (run_ofExcept _ u)] at h
    exact (quiet worked.quiet (Prod.mk.inj h).2.symm).elim
  | ok s =>
    rw [together, run_bind_ok (run_ofExcept _ u)] at h
    obtain ⟨qs, asked, questions⟩ := worked.quiet.events
    obtain ⟨fs, intercepted, compiled⟩ := yields_split (worked.yields rfl)
    obtain ⟨sent, events, reports⟩ := submit_reports s u
    rw [h, asked, new, List.append_assoc] at events
    rw [List.append_cancel_left events, List.mem_append] at answered
    obtain answered | answered := answered
    · cases questions _ answered
    obtain ⟨rfl, outcome⟩ := reports _ _ _ answered
    rw [h, submission_rejection together, compile_rejections compiled] at outcome
    refine ⟨fs, _, order 0 ▸ intercepted, compiled, submission_statements together, fun refused => ?_,
      fun held => ?_⟩
    · have refused := Page.applied_eq_false.mpr refused
      simpa [refused, ResultMeta.ofPage] using outcome
    · have held : page.applied = true :=
        eq_true_of_ne_false fun refused => held (Page.applied_eq_false.mp refused)
      simpa [held, ResultMeta.ofPage] using outcome

/-- A write without a guard cascades into a deletion and a write that have one. -/
theorem refused_with_cascade :
    let id : TableId := ⟨"k", "a"⟩
    let row : Write :=
      { table := id, keys := .ofList [("id", .int 1)], values := .ofList [("x", .int 2)] }
    let gone : Deletion := { table := id, keys := .ofList [("id", .int 2)], ifExists := true }
    let owners : Unit → Registry Script Unit := fun _ => { cascadesOnWrite := [fun w =>
      ⟨3, .ok [⟨.delete gone, none⟩, ⟨.write { w with ifNotExists := true }, none⟩]⟩] }
    let page : Page := { columns := [appliedColumn, "x"], rows := [[.boolean false, .int 3]] }
    let w : World Script := World.new {} {
      answers := [.ok page]
      tables := [⟨id, [⟨"id", .int, .partitionKey⟩, ⟨"x", .int, .regular⟩]⟩] }
    let outcome := (mutate owners [⟨.write row, some ()⟩] none {}).run w
    outcome.1 = .error (.constraint (.notApplied "entry does not exist")) ∧
      ∃ request options, .execute request options (.ok page) ∈ outcome.2.events ∧
      ∃ fs cs, List.Forall₂ (fun m f => Member.intercepted owners m = .ok f)
          (breadthFirst owners cascadeLevels [⟨.write row, some ()⟩]) fs ∧
        List.Forall₂ (fun f c => ∃ w v : World Script, (compileMutation f {}).run w = (.ok c, v))
          fs cs ∧
        request.statements = cs.map Compiled.wire ∧
        (fs.findSome? fun f => f.guard.rejection) = some "entry does not exist" := by
  intro id row gone owners page w outcome
  have refused : outcome.1 = .error (.constraint (.notApplied "entry does not exist")) := by
    decide +kernel
  have answer : outcome.2.events.findSome? Event.page? = some page := by decide +kernel
  obtain ⟨e, logged, answer⟩ := List.exists_of_findSome?_eq_some answer
  cases e <;> try cases answer
  rename_i request options answered
  cases answered <;> cases answer
  obtain ⟨fs, cs, intercepted, compiled, sent, reported, -⟩ :=
    mutate_reports (Prod.eta outcome).symm (List.nil_append _).symm logged
  have reported := reported ⟨rfl, rfl⟩
  rw [show outcome.1 = _ from refused] at reported
  refine ⟨refused, request, options, logged, fs, cs, intercepted, compiled, sent, ?_⟩
  split at reported <;> cases reported
  assumption

end Op
end WideColumn
