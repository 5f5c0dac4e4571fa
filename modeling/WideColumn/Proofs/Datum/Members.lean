import WideColumn.Proofs.Datum.Blank

/-!
What stands inside of collections. Conversion puts null there for a null and for a collection of nothing,
and for nothing else.
-/
namespace WideColumn

open Outcome

namespace Value

mutual
/-- The elements, keys and values of the collections in a value, at any depth. -/
def members : Value → List Value
  | list items | set items => itemMembers items
  | map entries => entryMembers entries
  | fields entries => fieldMembers entries
  | _ => []

def itemMembers : List Value → List Value
  | [] => []
  | v :: vs => v :: (v.members ++ itemMembers vs)

def entryMembers : List (Value × Value) → List Value
  | [] => []
  | (k, v) :: es => k :: v :: (k.members ++ v.members ++ entryMembers es)

/-- The fields of an object are no members themselves. -/
def fieldMembers : List (String × Value) → List Value
  | [] => []
  | (_, v) :: fs => v.members ++ fieldMembers fs
end

end Value

namespace Datum

mutual
/-- The elements, keys and values of the collections in a value, at any depth. -/
def members : Datum → List Datum
  | list items | set items => itemMembers items
  | map entries => entryMembers entries
  | udt _ _ fields => fieldMembers fields
  | _ => []

def itemMembers : List Datum → List Datum
  | [] => []
  | d :: ds => d :: (d.members ++ itemMembers ds)

def entryMembers : List (Datum × Datum) → List Datum
  | [] => []
  | (k, v) :: es => k :: v :: (k.members ++ v.members ++ entryMembers es)

/-- The fields of an object are no members themselves. -/
def fieldMembers : List (String × Datum) → List Datum
  | [] => []
  | (_, v) :: fs => v.members ++ fieldMembers fs
end

variable {m : Datum}

theorem mem_itemMembers {ds : List Datum} : m ∈ itemMembers ds ↔ ∃ d ∈ ds, m = d ∨ m ∈ d.members := by
  induction ds with
  | nil => simp [itemMembers]
  | cons d ds ih => simp [itemMembers, ih, or_assoc]

theorem mem_fieldMembers {fs : List (String × Datum)} : m ∈ fieldMembers fs ↔ ∃ f ∈ fs, m ∈ f.2.members := by
  induction fs with
  | nil => simp [fieldMembers]
  | cons f fs ih => simp [fieldMembers, ih]

end Datum

namespace Binder

variable {b : Binder} {name : String} {d : Datum}

/-- A value that is not blank has a form that is not null. -/
theorem convert_ne_null {v : Value} {column : String} {type : ColumnType}
    (h : b.convert v column type = .ok d) (full : v.isBlank = false) : d ≠ .null := by
  rintro rfl
  rw [(convert_cell h).mp rfl] at full
  cases full

/-- A value without parts has no members. -/
private theorem scalar_members {v : Value} {type : ColumnType} (h : scalar? v type = some d) :
    d.members = [] := by
  have text {s : String} (h : asciiText s = some d) : d.members = [] := by
    simp only [asciiText, Option.ite_none_right_eq_some, Option.some.injEq] at h
    obtain ⟨-, rfl⟩ := h
    rfl
  fun_cases scalar? v type <;> simp only [scalar?, Option.some.injEq, reduceCtorEq] at h
  all_goals first
    | exact text h
    | subst h; rfl

/-- Sorting elements adds no members. -/
private theorem asSet_members {ds : List Datum} (h : .null ∉ Datum.itemMembers ds) :
    .null ∉ (asSet ds).members := by
  simp only [asSet, Datum.members, Datum.mem_itemMembers, SortedSet.mem_ofList] at h ⊢
  exact h

/-- Fields that are not given have no members. -/
private theorem takeFields_members {column : String}
    {given : List (String × (String → ColumnType → Except Error Datum))}
    (hg : ∀ g ∈ given, ∀ path type d, g.2 path type = .ok d → .null ∉ d.members)
    {declared : List (String × ColumnType)} {fields : List (String × Datum)}
    (h : takeFields column given declared = .ok fields) : .null ∉ Datum.fieldMembers fields := by
  have each := takeFields_each (P := fun d _ => .null ∉ d.members) (by simp [Datum.members]) hg h
  rw [Datum.mem_fieldMembers]
  rintro ⟨f, hf, null⟩
  obtain ⟨-, -, -, full⟩ := exists_of_forall₂ each hf
  exact full null

/-- A collection of nothing is no collection of the store, so it has no members either. -/
private theorem collection_members {α β : Type} {items : List α} {parts : Except Error (List β)}
    (make : List β → Datum) (made : ∀ ds, parts = .ok ds → .null ∉ (make ds).members)
    (h : (if items.isEmpty then .ok .null else return make (← parts)) = .ok d) : .null ∉ d.members := by
  split at h
  · cases h
    simp [Datum.members]
  · simp only [bind_eq_ok, pure_eq_ok] at h
    obtain ⟨ds, hs, rfl⟩ := h
    exact made ds hs

mutual
/-- Conversion puts no null into a collection if all that is to go there can be put there. -/
theorem convert_members : (v : Value) → {column : String} → {type : ColumnType} → {d : Datum} →
    b.convert v column type = .ok d → (∀ m ∈ v.members, m.isBlank = false) → .null ∉ d.members
  | .null, _, _, _, h, _ => by
    cases h
    simp [Datum.members]
  | .list items, _, type, _, h, full => by
    rw [Value.members] at full
    cases type <;> simp only [convert, reduceCtorEq] at h
    case list => exact collection_members .list (fun ds hs => convertItems_members items hs full) h
    case set =>
      exact collection_members asSet (fun ds hs => asSet_members (convertItems_members items hs full)) h
  | .set items, _, type, _, h, full => by
    rw [Value.members] at full
    cases type <;> simp only [convert, reduceCtorEq] at h
    case list =>
      split at h <;> cases h
      simp [Datum.members]
    case set =>
      exact collection_members asSet (fun ds hs => asSet_members (convertItems_members items hs full)) h
  | .map entries, _, type, _, h, full => by
    rw [Value.members] at full
    cases type <;> simp only [convert, reduceCtorEq] at h
    case map => exact collection_members .map (fun ds hs => convertEntries_members entries hs full) h
  | .fields entries, _, type, _, h, full => by
    rw [Value.members] at full
    cases type <;> simp only [convert, reduceCtorEq] at h
    case udt =>
      split at h
      · cases h
      split at h
      · cases h
      simp only [bind_eq_ok, pure_eq_ok] at h
      obtain ⟨fields, hf, rfl⟩ := h
      exact takeFields_members (converters_members entries full) hf
  | .boolean v, column, type, _, h, _
  | .int v, column, type, _, h, _
  | .bigint v, column, type, _, h, _
  | .float v, column, type, _, h, _
  | .double v, column, type, _, h, _
  | .text v, column, type, _, h, _
  | .enum v, column, type, _, h, _
  | .bytes v, column, type, _, h, _
  | .timestamp v, column, type, _, h, _
  | .uuid v, column, type, _, h, _ => by
    simp only [convert] at h
    split at h
    · rename_i hs
      cases h
      simp [scalar_members hs]
    · cases h

theorem convertItems_members : (vs : List Value) → {column : String} → {type : ColumnType} →
    {ds : List Datum} → b.convertItems vs column type = .ok ds →
    (∀ m ∈ Value.itemMembers vs, m.isBlank = false) → .null ∉ Datum.itemMembers ds
  | [], _, _, _, h, _ => by
    cases h
    simp [Datum.itemMembers]
  | v :: vs, _, _, _, h, full => by
    simp only [convertItems, bind_eq_ok, pure_eq_ok] at h
    obtain ⟨d, hd, ds, hs, rfl⟩ := h
    simp only [Value.itemMembers, List.forall_mem_cons, List.forall_mem_append] at full
    obtain ⟨present, inside, others⟩ := full
    simp only [Datum.itemMembers, List.mem_cons, List.mem_append, not_or]
    exact ⟨(convert_ne_null hd present).symm, convert_members v hd inside,
      convertItems_members vs hs others⟩

theorem convertEntries_members : (es : List (Value × Value)) → {column : String} →
    {key value : ColumnType} → {ds : List (Datum × Datum)} →
    b.convertEntries es column key value = .ok ds →
    (∀ m ∈ Value.entryMembers es, m.isBlank = false) → .null ∉ Datum.entryMembers ds
  | [], _, _, _, _, h, _ => by
    cases h
    simp [Datum.entryMembers]
  | (k, v) :: es, _, _, _, _, h, full => by
    simp only [convertEntries, bind_eq_ok, pure_eq_ok] at h
    obtain ⟨dk, hk, dv, hv, ds, hs, rfl⟩ := h
    simp only [Value.entryMembers, List.forall_mem_cons, List.forall_mem_append] at full
    obtain ⟨keyed, valued, ⟨insideKey, insideValue⟩, others⟩ := full
    simp only [Datum.entryMembers, List.mem_cons, List.mem_append, not_or]
    exact ⟨(convert_ne_null hk keyed).symm, (convert_ne_null hv valued).symm,
      ⟨convert_members k hk insideKey, convert_members v hv insideValue⟩,
      convertEntries_members es hs others⟩

theorem converters_members : (es : List (String × Value)) →
    (∀ m ∈ Value.fieldMembers es, m.isBlank = false) → ∀ g ∈ b.converters es,
    ∀ path type d, g.2 path type = .ok d → .null ∉ d.members
  | [], _ => by simp [converters]
  | (name, v) :: es, full => by
    simp only [Value.fieldMembers, List.forall_mem_append] at full
    obtain ⟨inside, others⟩ := full
    rw [converters]
    exact List.forall_mem_cons.mpr
      ⟨fun _ _ _ h => convert_members v h inside, converters_members es others⟩
end

/-- Entries are bound in their order, and only a blank one to an entry without a value. -/
theorem convertEntries_valued {es : List (Value × Value)} {column : String} {key value : ColumnType}
    {ds : List (Datum × Datum)} (h : b.convertEntries es column key value = .ok ds) :
    List.Forall₂ (fun e c => e.2.isBlank = false → c.2 ≠ .null) es ds := by
  rw [convertEntries_eq_mapM] at h
  refine (forall₂_mapM h).imp fun e c made present => ?_
  simp only [bind_eq_ok, pure_eq_ok] at made
  obtain ⟨k, -, v, hv, rfl⟩ := made
  exact convert_ne_null hv present

/-- What a column is given has no null in a collection if no null and no collection of nothing was to go
there. Map entries that lack a value are dropped, and those that have one keep it. -/
theorem given_members :
    (∀ v, b.bind name v = .ok d → (∀ m ∈ v.members, m.isBlank = false) → .null ∉ d.members) ∧
    (∀ vs, b.bindSet name vs = .ok d → (∀ m ∈ Value.itemMembers vs.toList, m.isBlank = false) →
      .null ∉ d.members) ∧
    (∀ vs, b.bindList name vs = .ok d → (∀ m ∈ Value.itemMembers vs, m.isBlank = false) →
      .null ∉ d.members) ∧
    ∀ es, b.bindMap name es = .ok d →
      ((∀ m ∈ Value.entryMembers (es.toList.filter fun e => !e.2.isNull), m.isBlank = false) →
        .null ∉ d.members) ∧
      ∃ entries, d = .map entries ∧ List.Forall₂ (fun e c => e.2.isBlank = false → c.2 ≠ .null)
        (es.toList.filter fun e => !e.2.isNull) entries := by
  refine ⟨fun v h full => ?_, fun vs h full => ?_, fun vs h full => ?_, fun es h => ?_⟩
  · obtain ⟨c, -, converted⟩ := bind_eq_ok.mp h
    exact convert_members v converted full
  · obtain ⟨c, element, ds, -, -, items, rfl⟩ := bindSet_eq_ok.mp h
    exact asSet_members (convertItems_members _ items full)
  · obtain ⟨c, element, ds, -, -, items, rfl⟩ := bindList_eq_ok.mp h
    exact convertItems_members _ items full
  · obtain ⟨c, key, value, ds, -, -, entries, rfl⟩ := bindMap_eq_ok.mp h
    exact ⟨convertEntries_members _ entries, ds, rfl, convertEntries_valued entries⟩

/-- Lists in a list, objects in a set with a list among their fields and one field left out, and entries
one of which lacks a value. -/
theorem nested_members :
    let addr : UserType := ⟨⟨"k", "addr"⟩, [("zip", .int), ("phones", .list .text)]⟩
    let b : Binder := ⟨⟨⟨⟨"k", "a"⟩, [⟨"id", .int, .partitionKey⟩,
      ⟨"grid", .list (.list .int), .regular⟩, ⟨"homes", .set (.udt "addr"), .regular⟩,
      ⟨"marks", .map .text (.list .int), .regular⟩]⟩, 0⟩, [("addr", addr)]⟩
    let grid : Value := .list [.list [.int 1, .int 2], .list [.int 3]]
    let homes : SortedSet Value := .ofList [.fields [("phones", .list [.text "1", .text "2"])],
      .fields [("phones", .list []), ("zip", .int 7)]]
    let rows : List Value := [.list [.int 4]]
    let marks : SortedMap Value Value := .ofList [(.text "x", .list [.int 5]), (.text "y", .null)]
    ∃ g h r m, b.bind "grid" grid = .ok g ∧ .null ∉ g.members ∧
      b.bindSet "homes" homes = .ok h ∧ .null ∉ h.members ∧
      b.bindList "grid" rows = .ok r ∧ .null ∉ r.members ∧
      b.bindMap "marks" marks = .ok m ∧ .null ∉ m.members ∧ m = .map [(.text "x", .list [.int 5])] := by
  intro addr b grid homes rows marks
  obtain ⟨g, h, r, m, hg, hh, hr, hm, kept⟩ : ∃ g h r m, b.bind "grid" grid = .ok g ∧
      b.bindSet "homes" homes = .ok h ∧ b.bindList "grid" rows = .ok r ∧ b.bindMap "marks" marks = .ok m ∧
      m = .map [(.text "x", .list [.int 5])] := ⟨_, _, _, _, rfl, rfl, rfl, rfl, rfl⟩
  exact ⟨g, h, r, m, hg, given_members.1 grid hg (by decide +kernel),
    hh, given_members.2.1 homes hh (by decide +kernel),
    hr, given_members.2.2.1 rows hr (by decide +kernel),
    hm, (given_members.2.2.2 marks hm).1 (by decide +kernel), kept⟩

/-- A list of nothing becomes null, also where it is itself an element or the value of an entry. -/
theorem empty_members_become_null :
    let b : Binder := ⟨⟨⟨⟨"k", "a"⟩, [⟨"id", .int, .partitionKey⟩,
      ⟨"grid", .list (.list .int), .regular⟩, ⟨"marks", .map .text (.list .int), .regular⟩]⟩, 0⟩, []⟩
    b.bind "grid" (.list [.list []]) = .ok (.list [.null]) ∧
      b.bindMap "marks" (.ofList [(.text "x", .list [])]) = .ok (.map [(.text "x", .null)]) :=
  ⟨rfl, rfl⟩

end Binder
end WideColumn
