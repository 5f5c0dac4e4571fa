import WideColumn.Collection.Sorted

/-!
Finite sets as strictly ascending lists.
-/
namespace WideColumn

structure SortedSet (α : Type u) [Ord α] where
  toList : List α
  ascending : Ascending id toList

namespace SortedSet

variable {α : Type u} [Ord α]

@[ext] theorem ext {s t : SortedSet α} (h : s.toList = t.toList) : s = t := by
  cases s; cases t; congr

instance [DecidableEq α] : DecidableEq (SortedSet α) := fun s t =>
  decidable_of_iff (s.toList = t.toList) ⟨ext, congrArg toList⟩

def empty : SortedSet α := ⟨[], .nil⟩

instance : Inhabited (SortedSet α) := ⟨empty⟩

def contains (s : SortedSet α) (a : α) : Bool := (lookUp id a s.toList).isSome

variable [Std.TransOrd α] [Std.LawfulEqOrd α]

def insert (s : SortedSet α) (a : α) : SortedSet α :=
  ⟨place id a s.toList, s.ascending.place a⟩

def ofList (xs : List α) : SortedSet α :=
  xs.foldl insert empty

end SortedSet
end WideColumn
