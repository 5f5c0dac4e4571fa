import WideColumn.Proofs.Collection.SortedMap

/-!
Changes to sorted collections that do not get into each other's way: under different keys they can be
made in either order.
-/
namespace WideColumn

namespace SortedMap

variable {κ : Type u} {α : Type v} [Ord κ] [Std.LawfulEqOrd κ] [Std.TransOrd κ] {j k : κ}

/-- What can be swapped with each of some insertions can be swapped with all of them. -/
theorem foldl_insert_comm {f : SortedMap κ α → SortedMap κ α} {es : List (κ × α)}
    (swap : ∀ e ∈ es, ∀ m, f (m.insert e.1 e.2) = (f m).insert e.1 e.2) (m : SortedMap κ α) :
    f (es.foldl (fun m e => m.insert e.1 e.2) m) = es.foldl (fun m e => m.insert e.1 e.2) (f m) := by
  induction es generalizing m with
  | nil => rfl
  | cons e es ih =>
    obtain ⟨first, rest⟩ := List.forall_mem_cons.mp swap
    rw [List.foldl_cons, List.foldl_cons, ih rest, first]

variable [DecidableEq κ]

/-- A map is known by what stands under its keys. -/
theorem ext_get? {m n : SortedMap κ α} (h : ∀ k, m.get? k = n.get? k) : m = n :=
  SortedMap.ext (m.ascending.ext n.ascending fun e => by rw [mem_toList, mem_toList, h])

theorem get?_update (m : SortedMap κ α) (k j : κ) (f : Option α → α) :
    (m.update k f).get? j = if j = k then some (f (m.get? k)) else m.get? j :=
  get?_insert m k j _

omit [Std.TransOrd κ] in
theorem get?_erase (m : SortedMap κ α) (k j : κ) :
    (m.erase k).get? j = if j = k then none else m.get? j := by
  refine Option.ext fun a => ?_
  rw [← mem_toList (e := (j, a)), erase, List.mem_filter, mem_toList]
  by_cases same : j = k
  · simp [same]
  · have apart : compare k j ≠ .eq := fun eq => same (Std.LawfulEqCmp.eq_of_compare eq).symm
    simp [same, apart]

/-- Two updates can be swapped if they are made under different keys, or their functions can be. -/
theorem update_comm (m : SortedMap κ α) {f g : Option α → α}
    (swap : j = k → ∀ o, g (some (f o)) = f (some (g o))) :
    (m.update j f).update k g = (m.update k g).update j f := by
  refine ext_get? fun i => ?_
  simp only [get?_update]
  by_cases same : j = k
  · subst same
    by_cases here : i = j
    · simp only [here, if_true, swap rfl]
    · simp only [here, if_false]
  · by_cases atJ : i = j
    · subst atJ
      simp only [same, if_true, if_false]
    · simp only [atJ, Ne.symm same, if_false]

theorem insert_comm (m : SortedMap κ α) (apart : j ≠ k) (a c : α) :
    (m.insert j a).insert k c = (m.insert k c).insert j a :=
  m.update_comm (f := fun _ => a) (g := fun _ => c) fun same => absurd same apart

theorem erase_insert_comm (m : SortedMap κ α) (apart : j ≠ k) (a : α) :
    (m.insert k a).erase j = (m.erase j).insert k a := by
  refine ext_get? fun i => ?_
  simp only [get?_insert, get?_erase]
  by_cases atJ : i = j
  · subst atJ
    simp only [apart, if_true, if_false]
  · simp only [atJ, if_false]

/-- Insertions of entries under different keys can be swapped as a whole. -/
theorem foldl_insert_foldl_comm {es es' : List (κ × α)} (apart : ∀ e ∈ es, ∀ e' ∈ es', e.1 ≠ e'.1)
    (m : SortedMap κ α) :
    es'.foldl (fun m e => m.insert e.1 e.2) (es.foldl (fun m e => m.insert e.1 e.2) m) =
      es.foldl (fun m e => m.insert e.1 e.2) (es'.foldl (fun m e => m.insert e.1 e.2) m) := by
  refine foldl_insert_comm (f := fun m => es'.foldl (fun m e => m.insert e.1 e.2) m)
    (fun e he m => ?_) m
  exact (foldl_insert_comm (f := fun m => m.insert e.1 e.2)
    (fun e' he' m => m.insert_comm (apart e he e' he').symm e'.2 e.2) m).symm

theorem erase_foldl_comm {es : List (κ × α)} (apart : ∀ e ∈ es, j ≠ e.1) (m : SortedMap κ α) :
    (es.foldl (fun m e => m.insert e.1 e.2) m).erase j =
      es.foldl (fun m e => m.insert e.1 e.2) (m.erase j) :=
  foldl_insert_comm (f := fun m => m.erase j) (fun e he m => m.erase_insert_comm (apart e he) e.2) m

theorem erase_comm (m : SortedMap κ α) (j k : κ) : (m.erase j).erase k = (m.erase k).erase j := by
  refine ext_get? fun i => ?_
  simp only [get?_erase]
  split <;> split <;> rfl

end SortedMap

/-- Members can be put into a set in any order. -/
theorem SortedSet.insert_comm {α : Type u} [Ord α] [Std.LawfulEqOrd α] [Std.TransOrd α]
    (s : SortedSet α) (a c : α) : (s.insert a).insert c = (s.insert c).insert a := by
  refine SortedSet.ext (Ascending.ext ((s.insert a).insert c).ascending
    ((s.insert c).insert a).ascending fun b => ?_)
  simp only [mem_insert, or_left_comm]

end WideColumn
