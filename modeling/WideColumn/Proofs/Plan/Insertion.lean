import WideColumn.Plan.Write
import WideColumn.Proofs.Collection.SortedMap
import WideColumn.Proofs.Outcome

/-!
What a successful insertion has been put together from.
-/
namespace WideColumn.Write

open Outcome

variable {b : Binder} {w : Write} {s : Insertion}

/-- Cells are added to columns that have none, each once. -/
theorem addCells_ok {cells added : SortedMap String Datum} {more : List (String × Datum)}
    (h : addCells cells more = .ok added) :
    (more.map Prod.fst).Nodup ∧
      ∀ n, (more.lookup n = none ∨ cells.get? n = none) ∧
        added.get? n = (more.lookup n).or (cells.get? n) := by
  induction more generalizing cells with
  | nil =>
    cases h
    exact ⟨.nil, fun n => ⟨.inl rfl, rfl⟩⟩
  | cons cell more ih =>
    rw [addCells] at h
    split at h
    · cases h
    rename_i free
    have free : cells.get? cell.1 = none := by simpa [SortedMap.contains] using free
    obtain ⟨distinct, rest⟩ := ih h
    have once : more.lookup cell.1 = none := by
      obtain ⟨none | taken, -⟩ := rest cell.1
      · exact none
      · simp [SortedMap.get?_insert] at taken
    refine ⟨List.nodup_cons.mpr ⟨lookup_eq_none.mp once, distinct⟩, fun n => ?_⟩
    obtain ⟨apart, found⟩ := rest n
    rw [SortedMap.get?_insert] at apart found
    by_cases same : n = cell.1
    · subst same
      simp [found, once, free]
    · rw [if_neg same] at apart found
      rw [lookup_cons_of_ne same]
      exact ⟨apart, found⟩

/-- One cell for each entry. -/
def bindEach {α : Type} (bind : String → α → Except Error Datum) (es : List (String × α)) :
    Except Error (List (String × Datum)) :=
  es.mapM fun e => return (e.1, ← bind e.1 e.2)

section Each

variable {α : Type} {bind : String → α → Except Error Datum} {es : List (String × α)}
  {cells : List (String × Datum)}

theorem bindEach_eq_ok : bindEach bind es = .ok cells ↔
    List.Forall₂ (fun e c => c.1 = e.1 ∧ bind e.1 e.2 = .ok c.2) es cells := by
  have each (e : String × α) (c : String × Datum) :
      (return (e.1, ← bind e.1 e.2) : Except Error (String × Datum)) = .ok c ↔
        c.1 = e.1 ∧ bind e.1 e.2 = .ok c.2 := by
    obtain ⟨n, d⟩ := c
    simp only [bind_eq_ok, pure_eq_ok, Prod.mk.injEq]
    constructor
    · rintro ⟨d, hd, rfl, rfl⟩
      exact ⟨rfl, hd⟩
    · rintro ⟨rfl, hd⟩
      exact ⟨d, hd, rfl, rfl⟩
  exact ⟨fun h => (forall₂_mapM h).imp fun _ _ => (each _ _).mp,
    fun h => mapM_of_forall₂ (h.imp fun _ _ => (each _ _).mpr)⟩

theorem bindEach_names (h : bindEach bind es = .ok cells) :
    cells.map Prod.fst = es.map Prod.fst := by
  have bound := bindEach_eq_ok.mp h
  clear h
  induction bound with
  | nil => rfl
  | cons same _ ih => rw [List.map_cons, List.map_cons, same.1, ih]

/-- A column has a cell if it has an entry, and then what that is bound to. -/
theorem bindEach_lookup (h : bindEach bind es = .ok cells) (n : String) :
    match es.lookup n with
    | none => cells.lookup n = none
    | some a => ∃ d, bind n a = .ok d ∧ cells.lookup n = some d := by
  have bound := bindEach_eq_ok.mp h
  clear h
  induction bound with
  | nil => rfl
  | @cons e c es cells same _ ih =>
    obtain ⟨same, hd⟩ := same
    by_cases here : n = e.1
    · rw [here, lookup_cons_fst]
      exact ⟨c.2, hd, by rw [← same, lookup_cons_fst]⟩
    · rw [lookup_cons_of_ne here, lookup_cons_of_ne (same ▸ here)]
      exact ih

theorem mem_bindEach (h : bindEach bind es = .ok cells) {n : String} {d : Datum} :
    (n, d) ∈ cells ↔ ∃ a, (n, a) ∈ es ∧ bind n a = .ok d := by
  rw [mem_mapM_iff h]
  simp only [bind_eq_ok, pure_eq_ok, Prod.mk.injEq, Prod.exists]
  constructor
  · rintro ⟨n, a, entry, d, hd, rfl, rfl⟩
    exact ⟨a, entry, hd⟩
  · rintro ⟨a, entry, hd⟩
    exact ⟨n, a, entry, d, hd, rfl, rfl⟩

theorem mem_bindEach_toList {m : SortedMap String α} (h : bindEach bind m.toList = .ok cells) {n : String}
    {d : Datum} : (n, d) ∈ cells ↔ ∃ a, m.get? n = some a ∧ bind n a = .ok d := by
  rw [mem_bindEach h]
  exact exists_congr fun a => and_congr_left' (SortedMap.mem_toList (e := (n, a)))

theorem bound_of_mem (h : bindEach bind es = .ok cells) {n : String} {a : α} (given : (n, a) ∈ es) :
    ∃ d, bind n a = .ok d := by
  obtain ⟨c, -, bound⟩ := exists_of_mapM h given
  obtain ⟨d, hd, -⟩ := bind_eq_ok.mp bound
  exact ⟨d, hd⟩

theorem bound_of_get? {m : SortedMap String α} (h : bindEach bind m.toList = .ok cells) {n : String} {a : α}
    (given : m.get? n = some a) : ∃ d, bind n a = .ok d :=
  bound_of_mem h ((SortedMap.mem_toList (e := (n, a))).mpr given)

end Each

theorem bindAll_names {values : SortedMap String Value} {cells : List (String × Datum)}
    (h : bindAll b values = .ok cells) : cells.map Prod.fst = values.keys := bindEach_names h

/-- The lists that the elements put before and behind amount to, each column once. -/
def listColumns (w : Write) : List (String × List Value) :=
  (SortedSet.ofList (w.listPrepends.keys ++ w.listAppends.keys)).toList.map fun n =>
    (n, (w.listPrepends.get? n).getD [] ++ (w.listAppends.get? n).getD [])

theorem mem_listColumns {n : String} {vs : List Value} : (n, vs) ∈ w.listColumns ↔
    (n ∈ w.listPrepends.keys ∨ n ∈ w.listAppends.keys) ∧
      vs = (w.listPrepends.get? n).getD [] ++ (w.listAppends.get? n).getD [] := by
  rw [listColumns, List.mem_map]
  simp only [SortedSet.mem_ofList, List.mem_append, Prod.mk.injEq]
  constructor
  · rintro ⟨n, named, rfl, rfl⟩
    exact ⟨named, rfl⟩
  · rintro ⟨named, rfl⟩
    exact ⟨n, named, rfl, rfl⟩

theorem folded_eq (w : Write) (b : Binder) : w.folded b = do
    let sets ← bindEach b.bindSet w.setAdds.toList
    let lists ← bindEach b.bindList w.listColumns
    let maps ← bindEach b.bindMap w.mapPuts.toList
    return sets ++ lists ++ maps := by
  rw [bindEach, bindEach, listColumns, List.mapM_map]
  rfl

/-- What is folded into whole values are the collections that are added to. -/
theorem folded_names {cells : List (String × Datum)} (h : w.folded b = .ok cells)
    (n : String) : n ∈ cells.map Prod.fst ↔
      n ∈ w.setAdds.keys ∨ n ∈ w.listPrepends.keys ∨ n ∈ w.listAppends.keys ∨ n ∈ w.mapPuts.keys := by
  simp only [folded_eq, bind_eq_ok, pure_eq_ok] at h
  obtain ⟨sets, hs, lists, hl, maps, hm, rfl⟩ := h
  have listed : n ∈ w.listColumns.map Prod.fst ↔ n ∈ w.listPrepends.keys ∨ n ∈ w.listAppends.keys := by
    simp [listColumns, SortedSet.mem_ofList]
  rw [List.map_append, List.map_append, bindEach_names hs, bindEach_names hl, bindEach_names hm,
    List.mem_append, List.mem_append, listed, or_assoc, or_assoc]
  rfl

/-- The values, the keys and what the modifications amount to make up the cells. -/
theorem insertion_parts (h : w.insertion b = .ok s) :
    s.table = w.table ∧ w.onlyIf = [] ∧ w.setRemoves.isEmpty = true ∧ w.listRemoves.isEmpty = true ∧
      s.ifNotExists = w.ifNotExists ∧ ttlOption w.ttl = .ok s.ttl ∧
      ∃ vs ks fs cells, bindAll b w.values = .ok vs ∧ bindAll b w.keys = .ok ks ∧
        w.folded b = .ok fs ∧ addCells (.ofList (vs ++ ks)) fs = .ok cells ∧
        s.cells = cells.toList := by
  rw [insertion] at h
  split at h
  · cases h
  rename_i unconditional
  split at h
  · cases h
  rename_i additive
  simp only [bind_eq_ok] at h
  obtain ⟨vs, hv, ks, hk, fs, hf, cells, hc, h⟩ := h
  split at h
  · cases h
  simp only [bind_eq_ok, pure_eq_ok] at h
  obtain ⟨ttl, ht, rfl⟩ := h
  obtain ⟨setRemoves, listRemoves⟩ : w.setRemoves.isEmpty = true ∧ w.listRemoves.isEmpty = true := by
    simpa using additive
  exact ⟨rfl, by simpa using unconditional, setRemoves, listRemoves, rfl, ht, vs, ks, fs, cells, hv, hk, hf,
    hc, rfl⟩

/-- An insertion has the cells it was given, each once. -/
theorem insertion_names (h : w.insertion b = .ok s) :
    w.onlyIf = [] ∧ s.ifNotExists = w.ifNotExists ∧ Ascending id (s.cells.map Prod.fst) ∧
      ∀ n, n ∈ s.cells.map Prod.fst ↔ n ∈ w.keys.keys ∨ n ∈ w.mutated := by
  obtain ⟨-, onlyIf, setRemoves, listRemoves, ifNotExists, -, vs, ks, fs, cells, hv, hk, hf, hc, same⟩ :=
    insertion_parts h
  rw [same]
  refine ⟨onlyIf, ifNotExists, cells.ascending_keys, fun n => ?_⟩
  have names : n ∈ cells.keys ↔ n ∈ (vs ++ ks).map Prod.fst ∨ n ∈ fs.map Prod.fst := by
    have found := ((addCells_ok hc).2 n).2
    rw [← SortedMap.lookup_toList, ← SortedMap.lookup_toList] at found
    rw [SortedMap.keys, ← not_iff_not, ← lookup_eq_none, found, Option.or_eq_none_iff, lookup_eq_none,
      lookup_eq_none, not_or, and_comm]
    exact and_congr_left' (not_congr SortedMap.mem_keys_ofList)
  change n ∈ cells.keys ↔ _
  rw [names, List.map_append, List.mem_append, bindAll_names hv, bindAll_names hk, folded_names hf]
  simp only [mutated, List.mem_append, SortedMap.keys_eq_nil setRemoves,
    SortedMap.keys_eq_nil listRemoves]
  grind

/-- The write asks for the cell: by a key, by a plain value for what is no key, or by adding to a
collection. -/
inductive Inserts (w : Write) (b : Binder) (n : String) (d : Datum) : Prop
  | key {x : Value} (given : w.keys.get? n = some x) (bound : b.bind n x = .ok d)
  | value {x : Value} (unkeyed : w.keys.get? n = none) (given : w.values.get? n = some x)
      (bound : b.bind n x = .ok d)
  | set {vs : SortedSet Value} (given : w.setAdds.get? n = some vs) (bound : b.bindSet n vs = .ok d)
  | list (given : n ∈ w.listPrepends.keys ∨ n ∈ w.listAppends.keys)
      (bound : b.bindList n ((w.listPrepends.get? n).getD [] ++ (w.listAppends.get? n).getD []) = .ok d)
  | map {es : SortedMap Value Value} (given : w.mapPuts.get? n = some es) (bound : b.bindMap n es = .ok d)

theorem mem_folded {cells : List (String × Datum)} (h : w.folded b = .ok cells) {n : String}
    {d : Datum} : (n, d) ∈ cells ↔
      (∃ vs, w.setAdds.get? n = some vs ∧ b.bindSet n vs = .ok d) ∨
      ((n ∈ w.listPrepends.keys ∨ n ∈ w.listAppends.keys) ∧
        b.bindList n ((w.listPrepends.get? n).getD [] ++ (w.listAppends.get? n).getD []) = .ok d) ∨
      ∃ es, w.mapPuts.get? n = some es ∧ b.bindMap n es = .ok d := by
  simp only [folded_eq, bind_eq_ok, pure_eq_ok] at h
  obtain ⟨sets, hs, lists, hl, maps, hm, rfl⟩ := h
  rw [List.append_assoc, List.mem_append, List.mem_append, mem_bindEach_toList hs, mem_bindEach hl,
    mem_bindEach_toList hm]
  simp only [mem_listColumns, and_assoc, exists_and_left, exists_eq_left]

/-- The cells that keys and plain values make. -/
theorem whole_cell {vs ks : List (String × Datum)} (hv : bindAll b w.values = .ok vs)
    (hk : bindAll b w.keys = .ok ks) {n : String} {d : Datum} :
    (SortedMap.ofList (vs ++ ks)).get? n = some d ↔
      (∃ x, w.keys.get? n = some x ∧ b.bind n x = .ok d) ∨
      w.keys.get? n = none ∧ ∃ x, w.values.get? n = some x ∧ b.bind n x = .ok d := by
  have valued : (vs.map Prod.fst).Nodup := bindAll_names hv ▸ w.values.nodup_keys
  have keyed : (ks.map Prod.fst).Nodup := bindAll_names hk ▸ w.keys.nodup_keys
  have unkeyed : ks.lookup n = none ↔ w.keys.get? n = none := by
    rw [lookup_eq_none, bindAll_names hk, SortedMap.keys, ← lookup_eq_none, SortedMap.lookup_toList]
  rw [SortedMap.get?_ofList_append valued keyed, Option.or_eq_some_iff, lookup_eq_some keyed,
    lookup_eq_some valued, unkeyed, mem_bindEach_toList hk, mem_bindEach_toList hv]

theorem mem_insertion (h : w.insertion b = .ok s) {n : String} {d : Datum} :
    (n, d) ∈ s.cells ↔ w.Inserts b n d := by
  obtain ⟨-, -, -, -, -, -, vs, ks, fs, cells, hv, hk, hf, hc, same⟩ := insertion_parts h
  obtain ⟨distinct, found⟩ := addCells_ok hc
  obtain ⟨apart, found⟩ := found n
  -- a column has its cell from one of the two sides only, so neither is covered up by the other
  have either : cells.get? n = some d ↔
      (n, d) ∈ fs ∨ (SortedMap.ofList (vs ++ ks)).get? n = some d := by
    rw [found, Option.or_eq_some_iff, lookup_eq_some distinct]
    obtain none | none := apart <;> simp [none, ← lookup_eq_some distinct]
  rw [same, SortedMap.mem_toList, either, mem_folded hf, whole_cell hv hk]
  constructor
  · rintro ((⟨vs, given, bound⟩ | ⟨given, bound⟩ | ⟨es, given, bound⟩) | ⟨x, given, bound⟩ |
      ⟨unkeyed, x, given, bound⟩)
    · exact .set given bound
    · exact .list given bound
    · exact .map given bound
    · exact .key given bound
    · exact .value unkeyed given bound
  · intro asked
    cases asked with
    | key given bound => exact .inr (.inl ⟨_, given, bound⟩)
    | value unkeyed given bound => exact .inr (.inr ⟨unkeyed, _, given, bound⟩)
    | set given bound => exact .inl (.inl ⟨_, given, bound⟩)
    | list given bound => exact .inl (.inr (.inl ⟨given, bound⟩))
    | map given bound => exact .inl (.inr (.inr ⟨_, given, bound⟩))

/-- All that is given has a form that fits its column, what is put before and behind a list together. -/
theorem insertion_bound (h : w.insertion b = .ok s) {n : String} :
    (∀ x, w.keys.get? n = some x → ∃ d, b.bind n x = .ok d) ∧
      (∀ x, w.values.get? n = some x → ∃ d, b.bind n x = .ok d) ∧
      (∀ vs, w.setAdds.get? n = some vs → ∃ d, b.bindSet n vs = .ok d) ∧
      (n ∈ w.listPrepends.keys ∨ n ∈ w.listAppends.keys → ∃ d,
        b.bindList n ((w.listPrepends.get? n).getD [] ++ (w.listAppends.get? n).getD []) = .ok d) ∧
      ∀ es, w.mapPuts.get? n = some es → ∃ d, b.bindMap n es = .ok d := by
  obtain ⟨-, -, -, -, -, -, vs, ks, fs, cells, hv, hk, hf, -, -⟩ := insertion_parts h
  simp only [folded_eq, bind_eq_ok, pure_eq_ok] at hf
  obtain ⟨sets, hs, lists, hl, maps, hm, -⟩ := hf
  exact ⟨fun x => bound_of_get? hk, fun x => bound_of_get? hv, fun vs => bound_of_get? hs,
    fun named => bound_of_mem hl (mem_listColumns.mpr ⟨named, rfl⟩), fun es => bound_of_get? hm⟩

theorem insertion_cell_unique (h : w.insertion b = .ok s) {n : String} {d d' : Datum}
    (hd : (n, d) ∈ s.cells) (hd' : (n, d') ∈ s.cells) : d = d' := by
  obtain ⟨-, -, -, -, -, -, vs, ks, fs, cells, -, -, -, -, same⟩ := insertion_parts h
  rw [same, SortedMap.mem_toList] at hd hd'
  exact Option.some.inj (hd.symm.trans hd')

/-- A column that is added to is given no plain value and is no key. -/
theorem whole_apart (h : w.insertion b = .ok s) {n : String}
    (modified : n ∈ w.setAdds.keys ∨ n ∈ w.listPrepends.keys ∨ n ∈ w.listAppends.keys ∨ n ∈ w.mapPuts.keys) :
    n ∉ w.values.keys ∧ n ∉ w.keys.keys := by
  obtain ⟨-, -, -, -, -, -, vs, ks, fs, cells, hv, hk, hf, hc, same⟩ := insertion_parts h
  obtain ⟨-, found⟩ := addCells_ok hc
  obtain ⟨free | free, -⟩ := found n
  · exact absurd ((folded_names hf n).mpr modified) (lookup_eq_none.mp free)
  · have unnamed : n ∉ (vs ++ ks).map Prod.fst := by
      intro named
      obtain ⟨d, some⟩ := SortedMap.mem_keys.mp (SortedMap.mem_keys_ofList.mpr named)
      rw [free] at some
      cases some
    simpa [bindAll_names hv, bindAll_names hk] using unnamed

end WideColumn.Write
