import Mathlib.Logic.Function.Basic
import WideColumn.Proofs.Collection.SortedMap
import WideColumn.Statement.Basic

/-!
What statements do to the cells of a row. There is no cell that holds null or an empty collection.
-/
namespace WideColumn

/-- What a cell holds. -/
inductive Content
  | plain (d : Datum)
  | set (items : SortedSet Datum)
  | list (items : List Datum)
  | map (entries : SortedMap Datum Datum)

/-- The cell that a value makes. -/
def Datum.cell : Datum → Option Content
  | null | set [] | list [] | map [] => none
  | set items => some (.set (.ofList items))
  | list items => some (.list items)
  | map entries => some (.map (.ofList entries))
  | d => some (.plain d)

namespace Content

/-- Two collections of one kind as one. The entries of the second map win. -/
def join : Content → Content → Content
  | set s, set t => .set (.ofList (s.toList ++ t.toList))
  | list xs, list ys => .list (xs ++ ys)
  | map m, map n => .map (.ofList (m.toList ++ n.toList))
  | c, _ => c

/-- What is left of a collection without these items, of a map without these keys. -/
def without : Content → Content → Option Content
  | set s, set t => (Datum.set (s.toList.filter fun d => !t.contains d)).cell
  | list xs, list ys => (Datum.list (xs.filter fun d => !ys.contains d)).cell
  | map m, set t => (Datum.map (m.toList.filter fun e => !t.contains e.1)).cell
  | c, _ => some c

end Content

/-- What a cell becomes if it is changed by a value. -/
def Change.apply : Change → Option Content → Datum → Option Content
  | set, _, v => v.cell
  | add, c, v => c.merge Content.join v.cell
  | prepend, c, v => v.cell.merge Content.join c
  | discard, c, v =>
    match c, v.cell with
    | some c, some d => c.without d
    | c, _ => c

/-- The cells of a row by column. -/
abbrev Row := String → Option Content

namespace Row

/-- One assignment after the other. -/
def assign (r : Row) (as : List Assignment) : Row :=
  as.foldl (fun r a => Function.update r a.column (a.change.apply (r a.column) a.value)) r

/-- The row that is made by setting these cells. -/
def of (cells : List (String × Datum)) : Row :=
  assign (fun _ => none) (cells.map fun c => ⟨c.1, .set, c.2⟩)

variable {as as' : List Assignment} {cells cells' : List (String × Datum)}

theorem assign_append (r : Row) (as as' : List Assignment) :
    r.assign (as ++ as') = (r.assign as).assign as' := List.foldl_append

/-- Assignments of different columns do not get into each other's way. -/
theorem assign_each (change : Change) (distinct : (cells.map Prod.fst).Nodup) (r : Row) (n : String) :
    r.assign (cells.map fun c => ⟨c.1, change, c.2⟩) n =
      (cells.lookup n).elim (r n) (change.apply (r n)) := by
  induction cells generalizing r with
  | nil => rfl
  | cons c cells ih =>
    obtain ⟨fresh, distinct⟩ := List.nodup_cons.mp distinct
    have rest := ih distinct (Function.update r c.1 (change.apply (r c.1) c.2))
    refine rest.trans ?_
    by_cases same : n = c.1
    · subst same
      simp [lookup_eq_none.mpr fresh]
    · rw [lookup_cons_of_ne same, Function.update_of_ne same]

/-- What changes nothing can as well be left out. -/
theorem assign_filter {p : Assignment → Bool}
    (idle : ∀ a ∈ as, p a = false → ∀ c, a.change.apply c a.value = c) (r : Row) :
    r.assign (as.filter p) = r.assign as := by
  induction as generalizing r with
  | nil => rfl
  | cons a as ih =>
    obtain ⟨first, others⟩ := List.forall_mem_cons.mp idle
    rw [List.filter_cons]
    split
    · exact ih others _
    · rename_i dropped
      refine (ih others r).trans ?_
      show r.assign as = assign (Function.update r a.column _) as
      rw [first (by simpa using dropped), Function.update_eq_self]

end Row

/-- Where a row has no cell yet, the assignments make the cells that these values make; where there is
no value, they leave the row as it is. -/
def Makes (as : List Assignment) (cells : List (String × Datum)) : Prop :=
  ∀ (r : Row) (n : String), cells.lookup n = none ∨ r n = none →
    r.assign as n = ((cells.lookup n).bind Datum.cell).or (r n)

namespace Makes

variable {as as' : List Assignment} {cells cells' : List (String × Datum)}

theorem each {change : Change} (fresh : ∀ v, change.apply none v = v.cell)
    (distinct : (cells.map Prod.fst).Nodup) :
    Makes (cells.map fun c => ⟨c.1, change, c.2⟩) cells := by
  intro r n apart
  rw [Row.assign_each change distinct]
  cases found : cells.lookup n with
  | none => rfl
  | some v =>
    obtain none | absent := apart
    · rw [found] at none
      cases none
    · simp [absent, fresh]

/-- Values put before and values put behind, as one value of the column. -/
theorem ends {front back : List (String × Datum)} (hf : (front.map Prod.fst).Nodup)
    (hb : (back.map Prod.fst).Nodup)
    (whole : ∀ n, (cells.lookup n).bind Datum.cell =
      ((front.lookup n).bind Datum.cell).merge Content.join ((back.lookup n).bind Datum.cell)) :
    Makes ((front.map fun c => ⟨c.1, .prepend, c.2⟩) ++ back.map fun c => ⟨c.1, .add, c.2⟩) cells := by
  have prepended (r : Row) (n : String) : r.assign (front.map fun c => ⟨c.1, .prepend, c.2⟩) n =
      ((front.lookup n).bind Datum.cell).merge Content.join (r n) := by
    rw [Row.assign_each _ hf]
    cases front.lookup n <;> simp [Change.apply]
  have added (r : Row) (n : String) : r.assign (back.map fun c => ⟨c.1, .add, c.2⟩) n =
      (r n).merge Content.join ((back.lookup n).bind Datum.cell) := by
    rw [Row.assign_each _ hb]
    cases back.lookup n <;> simp [Change.apply]
  intro r n apart
  rw [Row.assign_append, added, prepended, whole]
  obtain none | absent := apart
  · -- no value at all, so neither end has one
    have nothing := (whole n).symm
    rw [none, Option.bind_none, Option.merge_eq_none_iff] at nothing
    simp [nothing]
  · simp [absent]

theorem append (h : Makes as cells) (h' : Makes as' cells')
    (disjoint : ∀ n, cells.lookup n = none ∨ cells'.lookup n = none) :
    Makes (as ++ as') (cells ++ cells') := by
  intro r n apart
  rw [Row.assign_append, List.lookup_append]
  rw [List.lookup_append, Option.or_eq_none_iff] at apart
  have first := h r n (apart.imp_left And.left)
  obtain none | none := disjoint n
  · rw [none, Option.bind_none, Option.none_or] at first
    rw [h' _ n (by rw [first]; exact apart.imp_left And.right), first, none, Option.none_or]
  · rw [h' _ n (.inl none), first, none, Option.bind_none, Option.none_or, Option.or_none]

theorem filter {p : Assignment → Bool}
    (idle : ∀ a ∈ as, p a = false → ∀ c, a.change.apply c a.value = c) (h : Makes as cells) :
    Makes (as.filter p) cells := by
  intro r n apart
  rw [Row.assign_filter idle]
  exact h r n apart

/-- On a row without cells nothing but the values counts. -/
theorem row (h : Makes as cells) (n : String) :
    Row.assign (fun _ => none) as n = (cells.lookup n).bind Datum.cell := by
  rw [h _ n (.inr rfl), Option.or_none]

end Makes

theorem Row.of_apply {cells : List (String × Datum)} (distinct : (cells.map Prod.fst).Nodup)
    (n : String) : Row.of cells n = (cells.lookup n).bind Datum.cell :=
  (Makes.each (fun _ => rfl) distinct).row n

end WideColumn
