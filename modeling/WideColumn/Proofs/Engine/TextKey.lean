import WideColumn.Proofs.Engine.Run
import WideColumn.Proofs.Plan.Fits
import WideColumn.Proofs.Statement.Readback
import WideColumn.Scenario.Script

/-!
Prepared statements are kept under their text. The text is all the key they need: against one catalog
two of them with the same text are the same but for their values.
-/
namespace WideColumn

open Outcome

section Clash

variable {b b' : Binder}

theorem Binder.column_of_columns {name : String} {c : Column}
    (hb : b.entry.table.columns = b'.entry.table.columns) (h : b.column name = .ok c) :
    b'.column name = .ok c := by
  simp only [Binder.column, TableEntry.column, TableEntry.column?, hb] at h ⊢
  cases hf : b'.entry.table.columns.reverse.find? fun c => decide (c.name = name) with
  | none => simp [hf] at h
  | some d => simpa [hf] using h

/-- A column that is a counter is not added to by updates. -/
private theorem counter_ne_update {s : CounterMove} {u : RowUpdate}
    (hb : s.table = u.table → b.entry.table.columns = b'.entry.table.columns)
    (hs : (Statement.counter s).Fits b) (hu : (Statement.update u).Fits b') :
    marked s.pieces ≠ marked u.pieces := by
  intro h
  obtain ⟨ht, v, ha⟩ := Statement.adds_of_marked h
  obtain ⟨c, hc, counter⟩ := hs
  obtain ⟨d, hd, other⟩ := hu _ ha (by simp)
  have hc := Binder.column_of_columns (hb ht) hc
  rw [hd] at hc
  cases hc
  simp [other] at counter

/-- One catalog and one text make one kind of statement. -/
theorem kind_of_fits {s t : Statement}
    (hb : s.table = t.table → b.entry.table.columns = b'.entry.table.columns) (hs : s.Fits b)
    (ht : t.Fits b') (h : marked s.pieces = marked t.pieces) : s.kind = t.kind := by
  rcases Statement.kind_of_marked h with hk | ⟨hk, hl⟩ | ⟨hk, hl⟩
  · exact hk
  · cases s <;> cases hk
    cases t <;> cases hl
    exact (counter_ne_update hb hs ht h).elim
  · cases s <;> cases hk
    cases t <;> cases hl
    exact (counter_ne_update (fun e => (hb e.symm).symm) ht hs h.symm).elim

end Clash

section Compile

variable {σ : Type} [Store σ] {w v : World σ}

theorem Op.finish_ok {p : Plan} {ctx : Context} {c : Compiled}
    (h : (finish p ctx).run w = (.ok c, v)) :
    c.plan = p ∧ (c.prepared.isSome = true → p.prepare = true) := by
  rw [finish] at h
  split at h
  · rename_i prepare
    obtain ⟨prepared, u, -, h⟩ := run_bind_eq_ok.mp h
    cases h
    exact ⟨rfl, fun _ => prepare⟩
  · cases h
    exact ⟨rfl, fun none => by cases none⟩

/-- Compilation plans against the metadata of the table, and then prepares what it has planned. -/
theorem Op.compile_steps {q : Specification} {ctx : Context} {c : Compiled}
    (h : (compile q ctx).run w = (.ok c, v)) :
    ∃ b u, (binder q.table).run w = (.ok b, u) ∧ q.plan b = .ok c.plan ∧
      (finish c.plan ctx).run u = (.ok c, v) := by
  cases q with
  | mutation m =>
    rw [compile, compileMutation, run_bind_eq_ok] at h
    obtain ⟨_, u, hm, h⟩ := h
    rw [run_ofExcept, Prod.mk.injEq] at hm
    obtain ⟨hm, rfl⟩ := hm
    obtain ⟨b, u, hb, h⟩ := run_bind_eq_ok.mp h
    obtain ⟨p, u', hp, h⟩ := run_bind_eq_ok.mp h
    rw [run_ofExcept, Prod.mk.injEq] at hp
    obtain ⟨hp, rfl⟩ := hp
    obtain ⟨rfl, -⟩ := finish_ok h
    exact ⟨b, u, hb, bind_eq_ok.mpr ⟨_, hm, hp⟩, h⟩
  | read r =>
    rw [compile, compileRead, run_bind_eq_ok] at h
    obtain ⟨b, u, hb, h⟩ := h
    obtain ⟨p, u', hp, h⟩ := run_bind_eq_ok.mp h
    rw [run_ofExcept, Prod.mk.injEq] at hp
    obtain ⟨hp, rfl⟩ := hp
    obtain ⟨rfl, -⟩ := finish_ok h
    exact ⟨b, u, hb, hp, h⟩

/-- With the metadata and a plan all that is left to do is to finish it. -/
theorem Op.compile_run {q : Specification} {ctx : Context} {b : Binder} {p : Plan}
    (bound : (binder q.table).run w = (.ok b, v)) (planned : q.plan b = .ok p) :
    (compile q ctx).run w = (finish p ctx).run v := by
  have run {α : Type} {x : Except Error α} {a : α} {u : World σ} (h : x = .ok a) :
      (ofExcept x : Op σ α).run u = (.ok a, u) := by rw [run_ofExcept, h]
  cases q with
  | mutation m =>
    obtain ⟨_, checked, planned⟩ := bind_eq_ok.mp planned
    exact (run_bind_ok (run checked)).trans ((run_bind_ok bound).trans (run_bind_ok (run planned)))
  | read r => exact (run_bind_ok bound).trans (run_bind_ok (run planned))

/-- A compiled statement has been planned against the metadata of its table. -/
theorem Op.compile_ok {q : Specification} {ctx : Context} {c : Compiled}
    (h : (compile q ctx).run w = (.ok c, v)) :
    ∃ b u, (binder q.table).run w = (.ok b, u) ∧ q.plan b = .ok c.plan ∧
      (c.prepared.isSome = true → c.plan.prepare = true) := by
  obtain ⟨b, u, hb, planned, finished⟩ := compile_steps h
  exact ⟨b, u, hb, planned, (finish_ok finished).2⟩

/-- Whoever asks for the columns of the table in this world is told these. -/
def World.Describes (w : World σ) (id : TableId) (columns : List Column) : Prop :=
  ∀ b v, (Op.binder id).run w = (.ok b, v) → b.entry.table.columns = columns

/-- The text of a prepared statement tells its table, kind and guard, all columns, operators and
clauses in their order, and for every value that is sent with it what the value is for. -/
theorem compile_text_inj (catalog : TableId → List Column) {w w' v v' : World σ}
    {q r : Specification} {ctx ctx' : Context} {c d : Compiled}
    (hc : (Op.compile q ctx).run w = (.ok c, v)) (hd : (Op.compile r ctx').run w' = (.ok d, v'))
    (hw : w.Describes q.table (catalog q.table)) (hw' : w'.Describes r.table (catalog r.table))
    (pc : c.prepared.isSome = true) (pd : d.prepared.isSome = true) (h : c.text = d.text) :
    c.table = d.table ∧ c.kind = d.kind ∧ c.guard = d.guard ∧
      c.statement.shape = d.statement.shape ∧
      c.values = c.statement.bound.map Prod.snd ∧ d.values = d.statement.bound.map Prod.snd ∧
      c.statement.bound.map Prod.fst = d.statement.bound.map Prod.fst ∧
      c.values.length = d.values.length := by
  obtain ⟨b, u, hb, hp, mc⟩ := Op.compile_ok hc
  obtain ⟨b', u', hb', hp', md⟩ := Op.compile_ok hd
  have sc := Specification.plan_suits hp
  have sd := Specification.plan_suits hp'
  have bc := sc.markers (mc pc)
  have bd := sd.markers (md pd)
  have text : marked c.statement.pieces = marked d.statement.pieces := by
    rw [Compiled.text, Compiled.text, Plan.text, Plan.text, bc, bd] at h
    exact String.ofList_injective h
  have kind : c.kind = d.kind := by
    refine kind_of_fits (fun e => ?_) sc.fits sd.fits text
    rw [hw b u hb, hw' b' u' hb', ← sc.table, ← sd.table]
    exact congrArg catalog e
  have shape := Statement.shape_of_marked text kind
  have roles : c.statement.bound.map Prod.fst = d.statement.bound.map Prod.fst := by
    rw [← c.statement.roles_shape, shape, d.statement.roles_shape]
  have vc : c.values = c.statement.bound.map Prod.snd := by
    rw [Compiled.values, Plan.values, bc, Statement.values_markers]
    rfl
  have vd : d.values = d.statement.bound.map Prod.snd := by
    rw [Compiled.values, Plan.values, bd, Statement.values_markers]
    rfl
  refine ⟨?_, kind, ?_, shape, vc, vd, roles, ?_⟩
  · rw [Compiled.table, Compiled.table, ← Statement.table_shape, shape, Statement.table_shape]
  · rw [Compiled.guard, Compiled.guard, ← Statement.guard_shape, shape, Statement.guard_shape]
  · simpa [vc, vd] using congrArg List.length roles

/-- Two deletions of different rows of a table with markers and quotes in its names. -/
theorem deletions_of_one_text :
    let id : TableId := ⟨"shop.a", "or\"?\" ders"⟩
    let columns := [⟨"k? = ?", .int, .partitionKey⟩, ⟨"when, where", .text, .clustering⟩]
    let w : World Script := World.new {} { tables := [⟨id, columns⟩] }
    let row (n : Int32) (s : String) : Specification := .mutation (.delete
      { table := id, keys := .ofList [("k? = ?", .int n), ("when, where", .text s)] })
    ∃ c v d v', (Op.compile (row 1 "x") {}).run w = (.ok c, v) ∧
      (Op.compile (row 2 "?") {}).run w = (.ok d, v') ∧
      w.Describes (row 1 "x").table columns ∧ w.Describes (row 2 "?").table columns ∧
      c.prepared.isSome = true ∧ d.prepared.isSome = true ∧ c.text = d.text ∧
      c.table = d.table ∧ c.kind = d.kind ∧ c.guard = d.guard ∧
      c.statement.shape = d.statement.shape ∧
      c.values = c.statement.bound.map Prod.snd ∧ d.values = d.statement.bound.map Prod.snd ∧
      c.statement.bound.map Prod.fst = d.statement.bound.map Prod.fst ∧
      c.values.length = d.values.length := by
  intro id columns w row
  have hw : w.Describes id columns := by
    intro b v h
    cases h
    rfl
  exact ⟨_, _, _, _, rfl, rfl, hw, hw, rfl, rfl, rfl,
    compile_text_inj (fun _ => columns) (q := row 1 "x") (r := row 2 "?") rfl rfl hw hw rfl rfl rfl⟩

end Compile

end WideColumn
