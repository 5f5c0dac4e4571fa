/-!
Lists in strictly ascending order of a key, and placing an element into one.
-/
namespace WideColumn

variable {α : Type u} {κ : Type v} [Ord κ]

/-- The keys of the list ascend strictly, so none occurs twice. -/
def Ascending (key : α → κ) (xs : List α) : Prop :=
  xs.Pairwise fun x y => compare (key x) (key y) = .lt

/-- Puts an element where its key belongs, in place of one with the same key. -/
def place (key : α → κ) (a : α) : List α → List α
  | [] => [a]
  | x :: xs =>
    match compare (key a) (key x) with
    | .lt => a :: x :: xs
    | .eq => a :: xs
    | .gt => x :: place key a xs

/-- The element whose key is `k`. -/
def lookUp (key : α → κ) (k : κ) (xs : List α) : Option α :=
  xs.find? fun x => compare k (key x) = .eq

theorem mem_place {key : α → κ} {a y : α} {xs : List α} (h : y ∈ place key a xs) :
    y = a ∨ y ∈ xs := by
  induction xs with
  | nil => simpa [place] using h
  | cons x xs ih =>
    simp only [place] at h
    split at h <;> grind

theorem Ascending.filter {key : α → κ} {xs : List α} (p : α → Bool) (h : Ascending key xs) :
    Ascending key (xs.filter p) :=
  List.Pairwise.filter p h

theorem lookUp_place [Std.LawfulEqOrd κ] [DecidableEq κ] {key : α → κ} (a : α) (k : κ)
    (xs : List α) :
    lookUp key k (place key a xs) = if k = key a then some a else lookUp key k xs := by
  induction xs with
  | nil => simp [place, lookUp]
  | cons x xs ih =>
    simp only [place]
    split
    · simp [lookUp, List.find?_cons]
      grind
    · rename_i heq
      have := Std.LawfulEqCmp.eq_of_compare heq
      simp [lookUp, List.find?_cons, this]
      grind
    · rename_i hgt
      have hne : key a ≠ key x := fun e => by simp [e] at hgt
      simp only [lookUp, List.find?_cons] at ih ⊢
      grind

variable [Std.TransOrd κ]

theorem Ascending.place [Std.LawfulEqOrd κ] {key : α → κ} {xs : List α} (a : α)
    (h : Ascending key xs) : Ascending key (place key a xs) := by
  induction xs with
  | nil => simp [WideColumn.place, Ascending]
  | cons x xs ih =>
    have hx := List.pairwise_cons.1 h
    simp only [WideColumn.place]
    split
    · rename_i hlt
      refine List.pairwise_cons.2 ⟨fun y hy => ?_, h⟩
      rcases List.mem_cons.1 hy with rfl | hy
      · exact hlt
      · exact Std.TransCmp.lt_trans hlt (hx.1 y hy)
    · rename_i heq
      refine List.pairwise_cons.2 ⟨fun y hy => ?_, hx.2⟩
      rw [Std.LawfulEqCmp.eq_of_compare heq]
      exact hx.1 y hy
    · rename_i hgt
      refine List.pairwise_cons.2 ⟨fun y hy => ?_, ih hx.2⟩
      rcases mem_place hy with rfl | hy
      · exact Std.OrientedCmp.gt_iff_lt.1 hgt
      · exact hx.1 y hy

end WideColumn
