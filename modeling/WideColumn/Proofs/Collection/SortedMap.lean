import WideColumn.Collection.SortedMap
import WideColumn.Collection.SortedSet

/-!
The keys of sorted maps and the members of sorted sets: those that were put in.
-/
namespace WideColumn

section Lookup

variable {α : Type u} {κ : Type v} [BEq κ] [LawfulBEq κ] {k : κ} {e : κ × α} {es : List (κ × α)}

theorem lookup_eq_none : es.lookup k = none ↔ k ∉ es.map Prod.fst := by
  rw [List.lookup_eq_none_iff, List.mem_map]
  constructor
  · rintro other ⟨e, he, rfl⟩
    simpa using other e he
  · intro other e he
    exact bne_iff_ne.mpr fun same => other ⟨e, he, same.symm⟩

@[simp] theorem lookup_cons_fst : (e :: es).lookup e.1 = some e.2 := by
  rw [List.lookup_cons, beq_self_eq_true]

theorem lookup_cons_of_ne (h : k ≠ e.1) : (e :: es).lookup k = es.lookup k := by
  rw [List.lookup_cons, beq_eq_false_iff_ne.mpr h]

theorem lookup_of_mem (distinct : (es.map Prod.fst).Nodup) (he : e ∈ es) :
    es.lookup e.1 = some e.2 := by
  induction es with
  | nil => cases he
  | cons d es ih =>
    obtain ⟨fresh, distinct⟩ := List.nodup_cons.mp distinct
    obtain rfl | he := List.mem_cons.mp he
    · exact lookup_cons_fst
    · have other : e.1 ≠ d.1 := fun same => fresh (same ▸ List.mem_map_of_mem he)
      rw [lookup_cons_of_ne other, ih distinct he]

theorem mem_of_lookup {a : α} (found : es.lookup k = some a) : (k, a) ∈ es := by
  obtain ⟨front, back, whole, -⟩ := List.lookup_eq_some_iff.mp found
  simp [whole]

theorem lookup_eq_some (distinct : (es.map Prod.fst).Nodup) {a : α} :
    es.lookup k = some a ↔ (k, a) ∈ es :=
  ⟨mem_of_lookup, lookup_of_mem distinct⟩

/-- A key has its entry on one side only if no key occurs twice. -/
theorem lookup_apart {es' : List (κ × α)} (distinct : ((es ++ es').map Prod.fst).Nodup) (k : κ) :
    es.lookup k = none ∨ es'.lookup k = none := by
  rw [List.map_append] at distinct
  obtain ⟨-, -, apart⟩ := List.nodup_append.mp distinct
  rw [lookup_eq_none, lookup_eq_none]
  exact Classical.not_and_iff_not_or_not.mp fun both => apart k both.1 k both.2 rfl

end Lookup

section Place

variable {α : Type u} {κ : Type v} [Ord κ] [Std.LawfulEqOrd κ]

/-- Placing an element adds its key, unless it is there already. -/
theorem mem_map_place {key : α → κ} {a : α} {k : κ} {xs : List α} :
    k ∈ (place key a xs).map key ↔ k = key a ∨ k ∈ xs.map key := by
  induction xs with
  | nil => simp [place]
  | cons x xs ih =>
    rw [place]
    split
    · rw [List.map_cons, List.mem_cons]
    · rename_i same
      rw [List.map_cons, List.map_cons, Std.LawfulEqCmp.eq_of_compare same]
      simp
    · rw [List.map_cons, List.map_cons, List.mem_cons, List.mem_cons, ih]
      exact or_left_comm

/-- An ascending list is known by its members. -/
theorem Ascending.ext [Std.TransOrd κ] {key : α → κ} {xs ys : List α} (hx : Ascending key xs)
    (hy : Ascending key ys) (h : ∀ a, a ∈ xs ↔ a ∈ ys) : xs = ys := by
  have distinct {zs : List α} (hz : Ascending key zs) : zs.Nodup := by
    refine hz.imp fun {x y} below same => ?_
    simp [same, Std.ReflOrd.compare_self] at below
  have same : xs.Perm ys := (List.perm_ext_iff_of_nodup (distinct hx) (distinct hy)).mpr h
  refine same.eq_of_pairwise (fun x y _ _ below above => ?_) hx hy
  exact absurd (Std.OrientedCmp.gt_of_lt below) (by simp [above])

end Place

namespace SortedMap

variable {κ : Type u} {α : Type v} [Ord κ] {k : κ}

theorem isEmpty_keys (m : SortedMap κ α) : m.keys.isEmpty = m.isEmpty := List.isEmpty_map

theorem keys_eq_nil {m : SortedMap κ α} (h : m.isEmpty = true) : m.keys = [] :=
  List.isEmpty_iff.mp (m.isEmpty_keys.trans h)

theorem ascending_keys (m : SortedMap κ α) : Ascending id m.keys :=
  List.pairwise_map.mpr m.ascending

variable [Std.LawfulEqOrd κ]

theorem nodup_keys (m : SortedMap κ α) : m.keys.Nodup := by
  refine m.ascending_keys.imp fun {j k} below same => ?_
  simp [same, Std.ReflOrd.compare_self] at below

theorem lookup_toList [BEq κ] [LawfulBEq κ] (m : SortedMap κ α) (k : κ) :
    m.toList.lookup k = m.get? k := by
  rw [get?, lookUp]
  induction m.toList with
  | nil => rfl
  | cons e es ih =>
    rw [List.find?_cons]
    by_cases same : k = e.1
    · simp [same]
    · have apart : compare k e.1 ≠ .eq := fun eq => same (Std.LawfulEqCmp.eq_of_compare eq)
      simp [lookup_cons_of_ne same, apart, ih]

theorem mem_toList [DecidableEq κ] {m : SortedMap κ α} {e : κ × α} :
    e ∈ m.toList ↔ m.get? e.1 = some e.2 := by
  rw [← lookup_toList]
  exact (lookup_eq_some m.nodup_keys).symm

theorem mem_keys [DecidableEq κ] {m : SortedMap κ α} : k ∈ m.keys ↔ ∃ a, m.get? k = some a := by
  rw [← lookup_toList, ← Option.isSome_iff_exists, ← Option.ne_none_iff_isSome, Ne, lookup_eq_none]
  exact Decidable.not_not.symm

theorem contains_iff [DecidableEq κ] {m : SortedMap κ α} : m.contains k = true ↔ k ∈ m.keys := by
  rw [contains, Option.isSome_iff_exists, mem_keys]

variable [Std.TransOrd κ]

/-- Of the entries put in one after the other, those of a key come before what was there. -/
theorem get?_foldl_insert [DecidableEq κ] {es : List (κ × α)} (distinct : (es.map Prod.fst).Nodup)
    (m : SortedMap κ α) (k : κ) :
    (es.foldl (fun m e => m.insert e.1 e.2) m).get? k = (es.lookup k).or (m.get? k) := by
  induction es generalizing m with
  | nil => rfl
  | cons e es ih =>
    obtain ⟨fresh, distinct⟩ := List.nodup_cons.mp distinct
    rw [List.foldl_cons, ih distinct, get?_insert]
    by_cases same : k = e.1
    · subst same
      simp [lookup_eq_none.mpr fresh]
    · rw [if_neg same, lookup_cons_of_ne same]

theorem get?_ofList [DecidableEq κ] {es : List (κ × α)} (distinct : (es.map Prod.fst).Nodup) (k : κ) :
    (ofList es).get? k = es.lookup k := by
  rw [ofList, get?_foldl_insert distinct, show (empty : SortedMap κ α).get? k = none from rfl,
    Option.or_none]

/-- Later entries win. -/
theorem get?_ofList_append [DecidableEq κ] {es es' : List (κ × α)} (distinct : (es.map Prod.fst).Nodup)
    (distinct' : (es'.map Prod.fst).Nodup) (k : κ) :
    (ofList (es ++ es')).get? k = (es'.lookup k).or (es.lookup k) := by
  rw [ofList, List.foldl_append, get?_foldl_insert distinct']
  exact congrArg _ (get?_ofList distinct k)

theorem mem_keys_insert {m : SortedMap κ α} {j : κ} {a : α} :
    k ∈ (m.insert j a).keys ↔ k = j ∨ k ∈ m.keys :=
  mem_map_place

theorem mem_keys_ofList {es : List (κ × α)} : k ∈ (ofList es).keys ↔ k ∈ es.map Prod.fst := by
  have fold (m : SortedMap κ α) : k ∈ (es.foldl (fun m e => m.insert e.1 e.2) m).keys ↔
      k ∈ es.map Prod.fst ∨ k ∈ m.keys := by
    induction es generalizing m with
    | nil => simp
    | cons e es ih =>
      rw [List.foldl_cons, ih, mem_keys_insert, List.map_cons, List.mem_cons, or_left_comm, or_assoc]
  rw [ofList, fold]
  simp [keys, empty]

/-- Putting the entries of a map in anew makes the same map. -/
theorem ofList_toList (m : SortedMap κ α) : ofList m.toList = m := by
  classical
  refine SortedMap.ext ((ofList m.toList).ascending.ext m.ascending fun e => ?_)
  rw [mem_toList, mem_toList, get?_ofList m.nodup_keys, lookup_toList]

end SortedMap

namespace SortedSet

variable {α : Type u} [Ord α] [Std.LawfulEqOrd α] {a b : α}

theorem contains_iff {s : SortedSet α} : s.contains a = true ↔ a ∈ s.toList := by
  rw [contains, lookUp, List.find?_isSome]
  constructor
  · rintro ⟨b, hb, same⟩
    obtain rfl : a = b := by simpa using same
    exact hb
  · intro ha
    exact ⟨a, ha, by simp⟩

variable [Std.TransOrd α]

theorem mem_insert {s : SortedSet α} : a ∈ (s.insert b).toList ↔ a = b ∨ a ∈ s.toList := by
  have placed : a ∈ (place id b s.toList).map id ↔ a = b ∨ a ∈ s.toList.map id := mem_map_place
  simpa [insert] using placed

theorem mem_ofList {xs : List α} : a ∈ (ofList xs).toList ↔ a ∈ xs := by
  have fold (s : SortedSet α) : a ∈ (xs.foldl insert s).toList ↔ a ∈ xs ∨ a ∈ s.toList := by
    induction xs generalizing s with
    | nil => simp
    | cons x xs ih => rw [List.foldl_cons, ih, mem_insert, List.mem_cons, or_left_comm, or_assoc]
  rw [ofList, fold]
  simp [empty]

/-- A set is made of its members, in whatever order. -/
theorem ofList_eq {xs : List α} {s : SortedSet α} (h : ∀ a, a ∈ xs ↔ a ∈ s.toList) : ofList xs = s :=
  SortedSet.ext ((ofList xs).ascending.ext s.ascending fun a => mem_ofList.trans (h a))

end SortedSet
end WideColumn
