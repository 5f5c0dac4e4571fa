import WideColumn.Collection.Sorted

/-!
Finite maps kept in ascending order of their keys.
-/
namespace WideColumn

structure SortedMap (κ : Type u) (α : Type v) [Ord κ] where
  toList : List (κ × α)
  ascending : Ascending Prod.fst toList

namespace SortedMap

variable {κ : Type u} {α : Type v} [Ord κ]

@[ext] theorem ext {m n : SortedMap κ α} (h : m.toList = n.toList) : m = n := by
  cases m; cases n; congr

instance [DecidableEq κ] [DecidableEq α] : DecidableEq (SortedMap κ α) := fun m n =>
  decidable_of_iff (m.toList = n.toList) ⟨ext, congrArg toList⟩

def empty : SortedMap κ α := ⟨[], .nil⟩

instance : Inhabited (SortedMap κ α) := ⟨empty⟩

def isEmpty (m : SortedMap κ α) : Bool := m.toList.isEmpty

def keys (m : SortedMap κ α) : List κ := m.toList.map Prod.fst

def get? (m : SortedMap κ α) (k : κ) : Option α := (lookUp Prod.fst k m.toList).map Prod.snd

def contains (m : SortedMap κ α) (k : κ) : Bool := (m.get? k).isSome

def erase (m : SortedMap κ α) (k : κ) : SortedMap κ α :=
  ⟨m.toList.filter fun e => compare k e.1 ≠ .eq, m.ascending.filter _⟩

variable [Std.TransOrd κ] [Std.LawfulEqOrd κ]

def insert (m : SortedMap κ α) (k : κ) (a : α) : SortedMap κ α :=
  ⟨place Prod.fst (k, a) m.toList, m.ascending.place _⟩

/-- Replaces what is stored under a key by a function of it. -/
def update (m : SortedMap κ α) (k : κ) (f : Option α → α) : SortedMap κ α :=
  m.insert k (f (m.get? k))

/-- Later entries win. -/
def ofList (entries : List (κ × α)) : SortedMap κ α :=
  entries.foldl (fun m e => m.insert e.1 e.2) empty

theorem get?_insert (m : SortedMap κ α) (k j : κ) (a : α) [DecidableEq κ] :
    (m.insert k a).get? j = if j = k then some a else m.get? j := by
  simp only [get?, insert, lookUp_place]
  split <;> simp_all

end SortedMap
end WideColumn
