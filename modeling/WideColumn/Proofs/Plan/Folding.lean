import WideColumn.Proofs.Plan.Assignments

/-!
The two forms of a write. What an insertion has as whole values, an update brings about step by step in
a row that has nothing but its keys.
-/
namespace WideColumn

open Outcome

section Lists

variable {b : Binder}

theorem Binder.convertItems_append {vs us : List Value} {column : String} {type : ColumnType}
    {items : List Datum} (h : b.convertItems (vs ++ us) column type = .ok items) :
    ∃ xs ys, b.convertItems vs column type = .ok xs ∧ b.convertItems us column type = .ok ys ∧
      items = xs ++ ys := by
  simp only [convertItems_eq_mapM, List.mapM_append, bind_eq_ok, pure_eq_ok] at h ⊢
  obtain ⟨xs, hxs, ys, hys, rfl⟩ := h
  exact ⟨xs, ys, hxs, hys, rfl⟩

theorem Datum.cell_append (xs ys : List Datum) :
    (list (xs ++ ys)).cell = (list xs).cell.merge Content.join (list ys).cell := by
  cases xs with
  | nil => simp [cell]
  | cons x xs => cases ys <;> simp [cell, Content.join]

/-- One list bound as a whole is its two ends bound by themselves and joined. -/
theorem Binder.bindList_append {name : String} {vs us : List Value} {d : Datum}
    (h : b.bindList name (vs ++ us) = .ok d) :
    ∃ x y, b.bindList name vs = .ok x ∧ b.bindList name us = .ok y ∧
      d.cell = x.cell.merge Content.join y.cell := by
  obtain ⟨c, element, items, hc, type, hi, rfl⟩ := bindList_eq_ok.mp h
  obtain ⟨xs, ys, hxs, hys, rfl⟩ := convertItems_append hi
  exact ⟨.list xs, .list ys, bindList_eq_ok.mpr ⟨c, element, xs, hc, type, hxs, rfl⟩,
    bindList_eq_ok.mpr ⟨c, element, ys, hc, type, hys, rfl⟩, Datum.cell_append xs ys⟩

end Lists

namespace Write

variable {b : Binder} {w : Write} {s : Insertion}

section Groups

variable {lists : List (String × Datum)}

/-- The elements put at one end of a list make the cell that they are bound to, none if there are no
such elements. -/
private theorem end_cell {m : SortedMap String (List Value)} {cells : List (String × Datum)}
    (h : bindEach b.bindList m.toList = .ok cells) {n : String} {x : Datum}
    (hx : b.bindList n ((m.get? n).getD []) = .ok x) : (cells.lookup n).bind Datum.cell = x.cell := by
  have found := bindEach_lookup h n
  rw [SortedMap.lookup_toList] at found
  cases entry : m.get? n with
  | none =>
    rw [entry] at found hx
    rw [found, (Binder.bindList_cell hx).mpr rfl]
    rfl
  | some vs =>
    rw [entry] at found hx
    obtain ⟨d, hd, found⟩ := found
    rw [Option.getD_some, hd] at hx
    cases hx
    rw [found, Option.bind_some]

private theorem listColumns_lookup (w : Write) (n : String) :
    (w.listColumns.lookup n = none ∧ w.listPrepends.get? n = none ∧ w.listAppends.get? n = none) ∨
      w.listColumns.lookup n =
        some ((w.listPrepends.get? n).getD [] ++ (w.listAppends.get? n).getD []) := by
  cases found : w.listColumns.lookup n with
  | none =>
    have absent := lookup_eq_none.mp found
    simp only [listColumns, List.map_map, List.mem_map, SortedSet.mem_ofList, List.mem_append,
      Function.comp_apply, exists_eq_right, not_or] at absent
    refine .inl ⟨rfl, ?_, ?_⟩
    · rw [← SortedMap.lookup_toList]
      exact lookup_eq_none.mpr absent.1
    · rw [← SortedMap.lookup_toList]
      exact lookup_eq_none.mpr absent.2
  | some vs =>
    obtain ⟨-, rfl⟩ := mem_listColumns.mp (mem_of_lookup found)
    exact .inr rfl

/-- Both ends of each list are bound by themselves, and joined they are the list. -/
private theorem lists_lookup (h : bindEach b.bindList w.listColumns = .ok lists) (n : String) :
    (lists.lookup n = none ∧ w.listPrepends.get? n = none ∧ w.listAppends.get? n = none) ∨
      ∃ x y, b.bindList n ((w.listPrepends.get? n).getD []) = .ok x ∧
        b.bindList n ((w.listAppends.get? n).getD []) = .ok y ∧
        (lists.lookup n).bind Datum.cell = x.cell.merge Content.join y.cell := by
  have found := bindEach_lookup h n
  obtain ⟨none, absent⟩ | some := listColumns_lookup w n
  · rw [none] at found
    exact .inl ⟨found, absent⟩
  · rw [some] at found
    obtain ⟨d, hd, found⟩ := found
    obtain ⟨x, y, hx, hy, whole⟩ := Binder.bindList_append hd
    exact .inr ⟨x, y, hx, hy, by rw [found, Option.bind_some, whole]⟩

private theorem ends_bound {m : SortedMap String (List Value)}
    (h : ∀ n vs, m.get? n = some vs → ∃ d, b.bindList n vs = .ok d) :
    ∃ cells, bindEach b.bindList m.toList = .ok cells := by
  refine exists_mapM fun e he => ?_
  have entry : m.get? e.1 = some e.2 := by
    rw [← SortedMap.lookup_toList]
    exact lookup_of_mem m.nodup_keys he
  obtain ⟨d, hd⟩ := h _ _ entry
  exact ⟨(e.1, d), by rw [hd]; rfl⟩

/-- Putting elements before and behind makes the lists that they are folded into. -/
private theorem lists_make (h : bindEach b.bindList w.listColumns = .ok lists) :
    ∃ front back, bindEach b.bindList w.listPrepends.toList = .ok front ∧
      bindEach b.bindList w.listAppends.toList = .ok back ∧
      Makes ((front.map fun c => ⟨c.1, .prepend, c.2⟩) ++ back.map fun c => ⟨c.1, .add, c.2⟩)
        lists := by
  obtain ⟨front, hf⟩ : ∃ cells, bindEach b.bindList w.listPrepends.toList = .ok cells := by
    refine ends_bound fun n vs entry => ?_
    obtain ⟨-, absent, -⟩ | ⟨x, -, hx, -⟩ := lists_lookup h n
    · rw [entry] at absent
      cases absent
    · exact ⟨x, by rwa [entry] at hx⟩
  obtain ⟨back, hb⟩ : ∃ cells, bindEach b.bindList w.listAppends.toList = .ok cells := by
    refine ends_bound fun n vs entry => ?_
    obtain ⟨-, -, absent⟩ | ⟨-, y, -, hy, -⟩ := lists_lookup h n
    · rw [entry] at absent
      cases absent
    · exact ⟨y, by rwa [entry] at hy⟩
  refine ⟨front, back, hf, hb, .ends ?_ ?_ fun n => ?_⟩
  · rw [bindEach_names hf]
    exact w.listPrepends.nodup_keys
  · rw [bindEach_names hb]
    exact w.listAppends.nodup_keys
  · obtain ⟨none, before, behind⟩ | ⟨x, y, hx, hy, whole⟩ := lists_lookup h n
    · have unprefixed := bindEach_lookup hf n
      have unsuffixed := bindEach_lookup hb n
      rw [SortedMap.lookup_toList, before] at unprefixed
      rw [SortedMap.lookup_toList, behind] at unsuffixed
      simp [none, unprefixed, unsuffixed]
    · rw [whole, end_cell hf hx, end_cell hb hy]

theorem assignEach_eq {α : Type} {bind : String → α → Except Error Datum} {columns : SortedMap String α}
    {cells : List (String × Datum)} (change : Change) (h : bindEach bind columns.toList = .ok cells) :
    assignEach change bind columns = .ok (cells.map fun c => ⟨c.1, change, c.2⟩) :=
  assignEach_eq_ok.mpr ⟨cells, h, rfl⟩

theorem plainAssignments_eq {vs : List (String × Datum)} (h : bindAll b w.values = .ok vs)
    (plain : ∀ n ∈ w.values.keys, ∀ c, b.column n = .ok c → c.isPrimaryKey = false) :
    w.plainAssignments b = .ok (vs.map fun c => ⟨c.1, .set, c.2⟩) := by
  have bound := (List.forall₂_and_left _ _).mpr
    ⟨fun e he => List.mem_map_of_mem (f := Prod.fst) he, bindEach_eq_ok.mp h⟩
  rw [plainAssignments, bind_eq_ok]
  refine ⟨vs.map fun c => some ⟨c.1, .set, c.2⟩,
    mapM_of_forall₂ (List.forall₂_map_right_iff.mpr (bound.imp ?_)), ?_⟩
  · rintro ⟨n, v⟩ c ⟨named, same, hc⟩
    obtain ⟨column, found, -⟩ := bind_eq_ok.mp hc
    refine bind_eq_ok.mpr ⟨column, found, ?_⟩
    rw [plain n named column found, hc, same]
    rfl
  · simp [List.filterMap_map, pure_eq_ok]

/-- All assignments of an update together make what an insertion has besides the keys. -/
theorem assignments_make {vs fs : List (String × Datum)} (hv : bindAll b w.values = .ok vs)
    (hf : w.folded b = .ok fs) (setRemoves : w.setRemoves.isEmpty = true)
    (listRemoves : w.listRemoves.isEmpty = true)
    (plain : ∀ n ∈ w.values.keys, ∀ c, b.column n = .ok c → c.isPrimaryKey = false)
    (once : (fs.map Prod.fst).Nodup) (apart : ∀ n, vs.lookup n = none ∨ fs.lookup n = none) :
    ∃ as, w.assignments b = .ok as ∧ Makes as (vs ++ fs) := by
  simp only [folded_eq, bind_eq_ok, pure_eq_ok] at hf
  obtain ⟨sets, hs, lists, hl, maps, hm, rfl⟩ := hf
  obtain ⟨front, back, hfront, hback, listed⟩ := lists_make hl
  have noSets : bindEach b.bindSet w.setRemoves.toList = .ok [] := by
    rw [List.isEmpty_iff.mp setRemoves]
    rfl
  have noLists : bindEach b.bindList w.listRemoves.toList = .ok [] := by
    rw [List.isEmpty_iff.mp listRemoves]
    rfl
  have fresh (v : Datum) : Change.add.apply none v = v.cell := Option.merge_none_left
  have assigned : Makes (vs.map fun c => ⟨c.1, .set, c.2⟩) vs :=
    .each (fun _ => rfl) (bindAll_names hv ▸ w.values.nodup_keys)
  have united : Makes (sets.map fun c => ⟨c.1, .add, c.2⟩) sets :=
    .each fresh (bindEach_names hs ▸ w.setAdds.nodup_keys)
  have put : Makes ((maps.map fun c => ⟨c.1, .add, c.2⟩).filter fun a => a.value ≠ .map []) maps := by
    refine .filter (fun a ha dropped c => ?_) (.each fresh (bindEach_names hm ▸ w.mapPuts.nodup_keys))
    -- an empty map is what is left of entries that all lack a value
    obtain ⟨_, -, rfl⟩ := List.mem_map.mp ha
    simp at dropped
    simp [Change.apply, dropped, Datum.cell]
  have inner := (List.nodup_append.mp (List.map_append ▸ once)).1
  refine ⟨_, ?_, assigned.append ((united.append listed (lookup_apart inner)).append put
    (lookup_apart once)) apart⟩
  simp only [assignments, mapAssignments, plainAssignments_eq hv plain, assignEach_eq _ hs,
    assignEach_eq _ noSets, assignEach_eq _ hfront, assignEach_eq _ hback, assignEach_eq _ noLists,
    assignEach_eq _ hm]
  simp [bind, Except.bind, pure, Except.pure]

end Groups

/-- The equations for the keys are made of the cells that an insertion has for them. -/
theorem keyRelations_eq {keys : SortedMap String Value} {ks : List (String × Datum)}
    (h : bindAll b keys = .ok ks) :
    keys.toList.mapM b.keyRelation = .ok (ks.map fun c => .compare c.1 .eq c.2) := by
  refine mapM_of_forall₂ (List.forall₂_map_right_iff.mpr ((bindEach_eq_ok.mp h).imp ?_))
  rintro e c ⟨same, hc⟩
  rw [Binder.keyRelation, hc, same]
  rfl

/-- The cells of an insertion are the keys and all that the assignments make. -/
theorem insertion_row {ks vs fs : List (String × Datum)} {cells : SortedMap String Datum}
    (apart : ((vs ++ ks).map Prod.fst).Nodup) (added : addCells (.ofList (vs ++ ks)) fs = .ok cells)
    {as : List Assignment} (makes : Makes as (vs ++ fs)) :
    (Row.of ks).assign as = Row.of cells.toList := by
  obtain ⟨-, rest⟩ := addCells_ok added
  have keyed : (ks.map Prod.fst).Nodup := (List.nodup_append.mp (List.map_append ▸ apart)).2.1
  have exclusive (n : String) : (fs.lookup n = none ∧ vs.lookup n = none) ∨
      (fs.lookup n = none ∧ ks.lookup n = none) ∨ (vs.lookup n = none ∧ ks.lookup n = none) := by
    obtain ⟨free, -⟩ := rest n
    rw [SortedMap.get?_ofList apart, List.lookup_append, Option.or_eq_none_iff] at free
    have plain := lookup_apart apart n
    tauto
  -- the row of the keys is itself made by assignments, so both rows start from nothing
  have whole : Makes ((ks.map fun c => ⟨c.1, .set, c.2⟩) ++ as) (ks ++ (vs ++ fs)) := by
    refine (Makes.each (fun _ => rfl) keyed).append makes fun n => ?_
    rw [List.lookup_append, Option.or_eq_none_iff]
    obtain ⟨noFold, noValue⟩ | ⟨-, noKey⟩ | ⟨-, noKey⟩ := exclusive n
    · exact .inr ⟨noValue, noFold⟩
    · exact .inl noKey
    · exact .inl noKey
  funext n
  have cell := whole.row n
  rw [Row.assign_append] at cell
  refine cell.trans ?_
  rw [Row.of_apply cells.nodup_keys, SortedMap.lookup_toList, (rest n).2, SortedMap.get?_ofList apart,
    List.lookup_append, List.lookup_append, List.lookup_append]
  obtain ⟨absent, absent'⟩ | ⟨absent, absent'⟩ | ⟨absent, absent'⟩ := exclusive n <;>
    simp only [absent, absent', Option.none_or, Option.or_none]

/-- An insertion makes the row that an update of a row with nothing but the keys leaves. There is no
update of nothing, and none under conditions that are wrong in themselves. -/
theorem update_makes_insertion (h : w.insertion b = .ok s) (away : ∀ n ∈ w.mutated, n ∉ w.keys.keys)
    (plain : ∀ n ∈ w.values.keys, ∀ c, b.column n = .ok c → c.isPrimaryKey = false) :
    ∃ ks, bindAll b w.keys = .ok ks ∧
      match w.rowUpdate b with
      | .ok u => u.ttl = s.ttl ∧ (Row.of ks).assign u.assignments = Row.of s.cells
      | .error e => (e = .validation (.nothingToUpdate w.table) ∧ Row.of ks = Row.of s.cells) ∨
          ∃ c ∈ w.conditions, b.relation c = .error e := by
  obtain ⟨-, onlyIf, setRemoves, listRemoves, -, ht, vs, ks, fs, cells, hv, hk, hf, added, same⟩ :=
    insertion_parts h
  have apart : ((vs ++ ks).map Prod.fst).Nodup := by
    rw [List.map_append, bindAll_names hv, bindAll_names hk]
    refine List.nodup_append.mpr ⟨w.values.nodup_keys, w.keys.nodup_keys, ?_⟩
    rintro n valued _ keyed rfl
    exact away n (by simp [mutated, valued]) keyed
  obtain ⟨once, rest⟩ := addCells_ok added
  have free (n : String) : vs.lookup n = none ∨ fs.lookup n = none := by
    obtain ⟨free, -⟩ := rest n
    rw [SortedMap.get?_ofList apart, List.lookup_append, Option.or_eq_none_iff] at free
    exact free.symm.imp_left And.left
  obtain ⟨as, assigned, makes⟩ := assignments_make hv hf setRemoves listRemoves plain once free
  have row := insertion_row apart added makes
  rw [← same] at row
  have update : w.rowUpdate b = if as.isEmpty then invalid (.nothingToUpdate w.table) else do
      let rs ← w.conditions.mapM b.relation
      return ⟨w.table, s.ttl, as, (ks.map fun c => .compare c.1 .eq c.2) ++ rs, []⟩ := by
    rw [rowUpdate, ht, assigned, Binder.relations, keyRelations_eq hk, onlyIf]
    cases as with
    | nil => rfl
    | cons a as => cases w.conditions.mapM b.relation <;> rfl
  refine ⟨ks, hk, ?_⟩
  rw [update]
  cases as with
  | nil => exact .inl ⟨rfl, row⟩
  | cons a as =>
    cases conditions : w.conditions.mapM b.relation with
    | error e => exact .inr (of_mapM_error conditions)
    | ok rs => exact ⟨rfl, row⟩

/-- Each kind of collection, a list at both its ends, and two maps with entries that lack a value. -/
theorem folded_or_step_by_step :
    let b : Binder := ⟨⟨⟨⟨"k", "a"⟩, [⟨"id", .int, .partitionKey⟩, ⟨"name", .text, .regular⟩,
      ⟨"tags", .set .text, .regular⟩, ⟨"log", .list .text, .regular⟩,
      ⟨"marks", .map .text .int, .regular⟩, ⟨"notes", .map .text .int, .regular⟩]⟩, 0⟩, []⟩
    let w : Write := {
      table := ⟨"k", "a"⟩
      keys := .ofList [("id", .int 1)]
      values := .ofList [("name", .null)]
      setAdds := .ofList [("tags", .ofList [.text "new", .text "big"])]
      listPrepends := .ofList [("log", [.text "made"])]
      listAppends := .ofList [("log", [.text "sent"])]
      mapPuts := .ofList [("marks", .ofList [(.text "x", .int 5), (.text "y", .null)]),
        ("notes", .ofList [(.text "x", .null)])] }
    ∃ s u ks, w.insertion b = .ok s ∧ w.rowUpdate b = .ok u ∧ bindAll b w.keys = .ok ks ∧
      s.cells.lookup "log" = some (.list [.text "made", .text "sent"]) ∧
      u.assignments.map Assignment.column = ["name", "tags", "log", "log", "marks"] ∧
      (Row.of ks).assign u.assignments = Row.of s.cells := by
  intro b w
  obtain ⟨s, u, inserted, updated, log, columns⟩ : ∃ s u, w.insertion b = .ok s ∧ w.rowUpdate b = .ok u ∧
      s.cells.lookup "log" = some (.list [.text "made", .text "sent"]) ∧
      u.assignments.map Assignment.column = ["name", "tags", "log", "log", "marks"] :=
    ⟨_, _, rfl, rfl, by decide +kernel, by decide +kernel⟩
  have plain : ∀ n ∈ w.values.keys, ∀ c, b.column n = .ok c → c.isPrimaryKey = false := by
    intro n named c found
    obtain rfl := List.mem_singleton.mp named
    cases found
    rfl
  obtain ⟨ks, keyed, row⟩ := update_makes_insertion inserted (by decide) plain
  rw [updated] at row
  exact ⟨s, u, ks, inserted, updated, keyed, log, columns, row.2⟩

end Write
end WideColumn
