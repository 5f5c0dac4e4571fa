import WideColumn.Proofs.Plan.Folding
import WideColumn.Proofs.Plan.PrimaryKey
import WideColumn.Proofs.Spec.CallOrder

/-!
The order in which an update says what it assigns is its own, and not the order in which the write was
refined: group by group, each by the names of the columns.
-/
namespace WideColumn

open Outcome

namespace Write

variable {w : Write} {b : Binder} {as : List Assignment}

/-- One assignment for each column that is kept, by ascending name, of what is given for the column. -/
structure Group {α : Type} (change : Change) (bind : String → α → Except Error Datum)
    (columns : SortedMap String α) (kept : String → Bool) (as : List Assignment) : Prop where
  names : as.map Assignment.column = columns.keys.filter kept
  ascending : Ascending id (as.map Assignment.column)
  each : ∀ a ∈ as, a.change = change ∧
    ∃ x, columns.get? a.column = some x ∧ bind a.column x = .ok a.value

/-- Plain values without those for the primary key, then the modifications of sets, of lists and of maps.
Of the maps, those are left out into which only entries without a value are put. -/
inductive Grouped (w : Write) (b : Binder) : List Assignment → Prop
  | groups {plain setAdds setRemoves listPrepends listAppends listRemoves mapPuts : List Assignment}
      (plainValues : Group .set b.bind w.values (fun n => !b.entry.isPrimaryKey n) plain)
      (addedToSets : Group .add b.bindSet w.setAdds (fun _ => true) setAdds)
      (removedFromSets : Group .discard b.bindSet w.setRemoves (fun _ => true) setRemoves)
      (prepended : Group .prepend b.bindList w.listPrepends (fun _ => true) listPrepends)
      (appended : Group .add b.bindList w.listAppends (fun _ => true) listAppends)
      (removedFromLists : Group .discard b.bindList w.listRemoves (fun _ => true) listRemoves)
      (putIntoMaps : Group .add b.bindMap w.mapPuts w.puts mapPuts) :
      Grouped w b
        (plain ++ setAdds ++ setRemoves ++ listPrepends ++ listAppends ++ listRemoves ++ mapPuts)

section Groups

variable {α : Type} {change : Change} {bind : String → α → Except Error Datum}
  {columns : SortedMap String α} {kept : String → Bool}

/-- A map has its columns in ascending order, so only what the columns are has to be known. -/
theorem Group.of_shape
    (shape : as.map Assignment.shape = (columns.keys.filter kept).map fun n => ⟨n, change, .null⟩)
    (each : ∀ a ∈ as, ∃ n x d, columns.get? n = some x ∧ bind n x = .ok d ∧ a = ⟨n, change, d⟩) :
    Group change bind columns kept as := by
  have names : as.map Assignment.column = columns.keys.filter kept := by
    simpa [Function.comp_def, Assignment.shape] using congrArg (List.map Assignment.column) shape
  refine ⟨names, ?_, fun a ha => ?_⟩
  · rw [names]
    exact columns.ascending_keys.filter kept
  · obtain ⟨n, x, d, given, bound, rfl⟩ := each a ha
    exact ⟨rfl, x, given, bound⟩

theorem assignEach_group (h : assignEach change bind columns = .ok as) :
    Group change bind columns (fun _ => true) as := by
  refine .of_shape ?_ fun a => (mem_assignEach h).mp
  rw [assignEach_shape h, List.filter_true]

theorem plainAssignments_group (h : w.plainAssignments b = .ok as) :
    Group .set b.bind w.values (fun n => !b.entry.isPrimaryKey n) as := by
  refine .of_shape (plainAssignments_shape h) fun a ha => ?_
  obtain ⟨n, -, x, d, -, -, given, bound, rfl⟩ := (mem_plainAssignments h).mp ha
  exact ⟨n, x, d, given, bound, rfl⟩

theorem mapAssignments_group (h : w.mapAssignments b = .ok as) :
    Group .add b.bindMap w.mapPuts w.puts as := by
  refine .of_shape (mapAssignments_shape h) fun a ha => ?_
  simp only [mapAssignments, bind_eq_ok, pure_eq_ok] at h
  obtain ⟨puts, all, rfl⟩ := h
  exact (mem_assignEach all).mp (List.mem_of_mem_filter ha)

theorem assignments_grouped (h : w.assignments b = .ok as) : w.Grouped b as := by
  simp only [assignments, bind_eq_ok, pure_eq_ok] at h
  obtain ⟨plain, hp, sa, hsa, sr, hsr, lp, hlp, la, hla, lr, hlr, mp, hm, rfl⟩ := h
  exact .groups (plainAssignments_group hp) (assignEach_group hsa) (assignEach_group hsr)
    (assignEach_group hlp) (assignEach_group hla) (assignEach_group hlr) (mapAssignments_group hm)

end Groups

/-- The parts of an update in the order of its text, and its values in the order of its markers. Where
there are conditions the values stand in the text. -/
structure Sequenced (w : Write) (b : Binder) (ks : List (String × Datum)) (c : Compiled)
    (s : RowUpdate) : Prop where
  ttl : ttlOption w.ttl = .ok s.ttl
  grouped : w.Grouped b s.assignments
  keyed : bindAll b w.keys = .ok ks
  ascending : Ascending id (ks.map Prod.fst)
  restricted : ∃ rs, w.conditions.mapM b.relation = .ok rs ∧
    s.relations = ks.map (fun k => .compare k.1 .eq k.2) ++ rs
  text : c.text.toList = rendered c.plan.binding s.head ++ whereText c.plan.binding s.relations ++
    ifText c.plan.binding s.onlyIf
  values : c.values = if w.conditions.isEmpty && w.onlyIf.isEmpty then
    (ttlBound s.ttl).map Prod.snd ++ s.assignments.map Assignment.value ++ ks.map Prod.snd else []

section Update

variable {p : Plan} {s : RowUpdate}

/-- The equations for the keys are made of what the keys are bound to. -/
theorem relations_parts {keys : SortedMap String Value} {conditions : List Clause} {rs : List Relation}
    (h : b.relations keys conditions = .ok rs) : ∃ ks cs, bindAll b keys = .ok ks ∧
      conditions.mapM b.relation = .ok cs ∧ rs = ks.map (fun k => .compare k.1 .eq k.2) ++ cs := by
  simp only [Binder.relations, bind_eq_ok, pure_eq_ok] at h
  obtain ⟨equations, hk, cs, hc, rfl⟩ := h
  obtain ⟨ks, bound⟩ : ∃ ks, bindAll b keys = .ok ks := by
    refine exists_mapM fun key hkey => ?_
    obtain ⟨r, -, made⟩ := exists_of_mapM hk hkey
    obtain ⟨d, hd, -⟩ := bind_eq_ok.mp made
    exact ⟨(key.1, d), bind_eq_ok.mpr ⟨d, hd, rfl⟩⟩
  cases (keyRelations_eq bound).symm.trans hk
  exact ⟨ks, cs, bound, hc, rfl⟩

/-- Only conditions keep an update from having markers. -/
theorem plan_update (h : w.plan b = .ok p) (update : p.statement = .update s) :
    w.rowUpdate b = .ok s ∧
      p.binding = if w.conditions.isEmpty && w.onlyIf.isEmpty then .markers else .literals := by
  rw [plan] at h
  split at h
  · simp only [bind_eq_ok, pure_eq_ok] at h
    obtain ⟨t, -, rfl⟩ := h
    cases update
  · simp only [updatePlan, bind_eq_ok, pure_eq_ok] at h
    obtain ⟨t, made, rfl⟩ := h
    cases update
    exact ⟨made, rfl⟩

theorem plan_sequenced {c : Compiled} (h : w.plan b = .ok c.plan) (update : c.statement = .update s) :
    ∃ ks, w.Sequenced b ks c s := by
  obtain ⟨made, binding⟩ := plan_update h update
  obtain ⟨-, ttl, assigned, related, guarded⟩ := rowUpdate_parts made
  obtain ⟨ks, rs, keyed, conditions, relations⟩ := relations_parts related
  have text : c.text.toList = rendered c.plan.binding s.head ++ whereText c.plan.binding s.relations ++
      ifText c.plan.binding s.onlyIf := by
    rw [← s.rendered_pieces, Compiled.text, Plan.text, ← Compiled.statement, update, Statement.text,
      String.toList_ofList]
    rfl
  have values : c.values = if w.conditions.isEmpty && w.onlyIf.isEmpty then
      (ttlBound s.ttl).map Prod.snd ++ s.assignments.map Assignment.value ++ ks.map Prod.snd else [] := by
    rw [Compiled.values, Plan.values, ← Compiled.statement, update, binding]
    split
    · rename_i free
      obtain ⟨noConditions, noGuard⟩ : w.conditions = [] ∧ w.onlyIf = [] := by simpa using free
      rw [noConditions] at conditions
      rw [noGuard] at guarded
      obtain rfl := Except.ok.inj conditions
      rw [Statement.values_markers, Statement.bound, RowUpdate.bound, relations, ← Except.ok.inj guarded]
      simp [Function.comp_def, Assignment.bound, Relation.bound, List.flatMap_map, ← List.map_eq_flatMap]
    · rfl
  exact ⟨ks, {
    ttl, text, values, keyed
    grouped := assignments_grouped assigned
    ascending := bindAll_names keyed ▸ w.keys.ascending_keys
    restricted := ⟨rs, conditions, relations⟩ }⟩

end Update
end Write

/-- Compilation does not see in which order a write was refined, but for steps with a common target. The
assignments of an update come in an order of their own. -/
theorem compile_of_rearranged {σ : Type} [Store σ] {ctx : Context} {u : World σ} :
    (∀ (w : Write) (steps steps' : List Write.Step), Write.Rearranged steps steps' →
      (Op.compile (.mutation (.write (w.applyAll steps))) ctx).run u =
        (Op.compile (.mutation (.write (w.applyAll steps'))) ctx).run u) ∧
    ∀ (w : Write) (c : Compiled) (v : World σ) (s : RowUpdate),
      (Op.compile (.mutation (.write w)) ctx).run u = (.ok c, v) → c.statement = .update s →
        ∃ b x ks, (Op.binder w.table).run u = (.ok b, x) ∧ w.Sequenced b ks c s := by
  constructor
  · intro w steps steps' h
    rw [w.applyAll_rearranged h]
  · intro w c v s h update
    obtain ⟨b, x, hb, -, planned⟩ := Mutation.compiled h
    obtain ⟨ks, sequenced⟩ := Write.plan_sequenced planned update
    exact ⟨b, x, ks, hb, sequenced⟩

/-- Another order of steps that touch all the groups, some of them more than once. -/
theorem update_of_shuffled :
    let id : TableId := ⟨"k", "a"⟩
    let world : World Script := World.new {} { tables := [⟨id, [⟨"id", .int, .partitionKey⟩,
      ⟨"seq", .int, .clustering⟩, ⟨"name", .text, .regular⟩, ⟨"note", .text, .regular⟩,
      ⟨"tags", .set .text, .regular⟩, ⟨"log", .list .text, .regular⟩,
      ⟨"marks", .map .text .int, .regular⟩]⟩] }
    let steps : List Write.Step := [.key "seq" (.int 2), .key "id" (.int 1), .value "name" (.text "x"),
      .values [("name", .text "y"), ("note", .null), ("id", .int 9)], .addToSet "tags" (.text "b"),
      .addToSet "tags" (.text "a"), .removeFromSet "tags" (.text "c"), .prepend "log" (.text "first"),
      .append "log" (.text "next"), .append "log" (.text "last"), .put "marks" (.text "n") (.int 5),
      .put "marks" (.text "m") (.int 6), .put "marks" (.text "n") (.int 7), .ttl ⟨60000000000⟩]
    let steps' : List Write.Step := [.ttl ⟨60000000000⟩, .put "marks" (.text "n") (.int 5),
      .put "marks" (.text "n") (.int 7), .put "marks" (.text "m") (.int 6), .append "log" (.text "next"),
      .append "log" (.text "last"), .prepend "log" (.text "first"), .addToSet "tags" (.text "a"),
      .removeFromSet "tags" (.text "c"), .value "name" (.text "x"), .addToSet "tags" (.text "b"),
      .values [("name", .text "y"), ("note", .null), ("id", .int 9)], .key "id" (.int 1),
      .key "seq" (.int 2)]
    let w : Write := { table := id }
    Write.Rearranged steps steps' ∧
      (Op.compile (.mutation (.write (w.applyAll steps))) {}).run world =
        (Op.compile (.mutation (.write (w.applyAll steps'))) {}).run world ∧
      ∃ c v s, (Op.compile (.mutation (.write (w.applyAll steps))) {}).run world = (.ok c, v) ∧
        c.statement = .update s ∧
        c.text = "UPDATE k.a USING TTL ? SET name = ?, note = ?, tags = tags + ?, tags = tags - ?, " ++
          "log = ? + log, log = log + ?, marks = marks + ? WHERE id = ? AND seq = ?" ∧
        ∃ b x ks, (Op.binder id).run world = (.ok b, x) ∧ (w.applyAll steps).Sequenced b ks c s := by
  intro id world steps steps' w
  have shuffled : Write.Rearranged steps steps' := by decide +kernel
  obtain ⟨c, v, s, compiled, update, text⟩ : ∃ c v s,
      (Op.compile (.mutation (.write (w.applyAll steps))) {}).run world = (.ok c, v) ∧
      c.statement = .update s ∧
      c.text = "UPDATE k.a USING TTL ? SET name = ?, note = ?, tags = tags + ?, tags = tags - ?, " ++
        "log = ? + log, log = log + ?, marks = marks + ? WHERE id = ? AND seq = ?" := by
    simp only [steps, w, id, world]
    exact ⟨_, _, _, rfl, rfl, by decide +kernel⟩
  exact ⟨shuffled, compile_of_rearranged.1 w steps steps' shuffled, c, v, s, compiled, update, text,
    compile_of_rearranged.2 (w.applyAll steps) c v s compiled update⟩

end WideColumn
