import WideColumn.Value.Key

/-!
How sort keys compare. A key that is joined to others decides before they are looked at, so joined keys
compare like the parts they stand for, one after the other.
-/
namespace WideColumn.Key

variable {α : Type} {x y x' y' : List Nat} {o o' : Ordering}

/-- Whatever follows the one and the other key, they decide first, and in this way. -/
def Decide (x y : List Nat) (o : Ordering) : Prop :=
  ∀ s t, compare (x ++ s) (y ++ t) = o.then (compare s t)

namespace Decide

theorem append (first : Decide x y o) (second : Decide x' y' o') :
    Decide (x ++ x') (y ++ y') (o.then o') := by
  intro s t
  rw [List.append_assoc, List.append_assoc, first, second, Ordering.then_assoc]

theorem number (n m : Nat) : Decide [n] [m] (compare n m) := fun _ _ => List.compare_cons_cons

theorem cons (n m : Nat) (h : Decide x y o) : Decide (n :: x) (m :: y) ((compare n m).then o) :=
  (number n m).append h

theorem cons_same (n : Nat) (h : Decide x y o) : Decide (n :: x) (n :: y) o := by
  have same : (compare n n).then o = o := by rw [Std.compare_self, Ordering.eq_then]
  exact same ▸ h.cons n n

/-- Keys with different beginnings decide by these. -/
theorem cons_of_ne {n m : Nat} (ne : n ≠ m) (o : Ordering) :
    Decide (n :: x) (m :: y) ((compare n m).then o) := by
  intro s t
  rw [List.cons_append, List.cons_append, List.compare_cons_cons]
  cases order : compare n m with
  | eq => exact absurd (Nat.compare_eq_eq.mp order) ne
  | lt => rfl
  | gt => rfl

/-- Of two series of parts, each after a 1 and with a 0 at the end, the first difference decides. -/
theorem next (first : Decide x y o) (rest : Decide x' y' o') :
    Decide (1 :: x ++ x') (1 :: y ++ y') (o.then o') := (first.cons_same 1).append rest

theorem ended : Decide [0] [0] .eq := number 0 0

theorem shorter : Decide [0] (1 :: x) .lt := cons_of_ne Nat.zero_ne_one .eq

theorem longer : Decide (1 :: x) [0] .gt := cons_of_ne Nat.one_ne_zero .eq

theorem compare_eq (h : Decide x y o) : compare x y = o := by
  have := h [] []
  rwa [List.append_nil, List.append_nil, List.compare_nil_nil, Ordering.then_eq] at this

end Decide

section Numbers

/-- Numbers of a kind compare like their ranks. -/
theorem compare_rank [LT α] [DecidableLT α] [DecidableEq α] {rank : α → Nat}
    (lt : ∀ a b, a < b ↔ rank a < rank b) (inj : ∀ a b, rank a = rank b → a = b) (a b : α) :
    compare (rank a) (rank b) = compareOfLessAndEq a b := by
  have eq : a = b ↔ rank a = rank b := ⟨congrArg rank, inj a b⟩
  show compareOfLessAndEq _ _ = compareOfLessAndEq _ _
  unfold compareOfLessAndEq
  simp only [lt, eq]

theorem decide_bool (a b : Bool) : Decide [a.toNat] [b.toNat] (compare a b) := by
  have same : compare a.toNat b.toNat = compare a b := by cases a <;> cases b <;> rfl
  exact same ▸ .number _ _

theorem decide_int32 (i j : Int32) : Decide [int32 i] [int32 j] (compare i j) := by
  have lt (i j : Int32) : i < j ↔ int32 i < int32 j := by
    have := i.le_toInt; have := j.le_toInt
    rw [Int32.lt_iff_toInt_lt, int32, int32]
    omega
  have same : compare (int32 i) (int32 j) = compare i j := compare_rank lt (fun _ _ => int32_inj) i j
  exact same ▸ .number _ _

theorem decide_int64 (i j : Int64) : Decide [int64 i] [int64 j] (compare i j) := by
  have lt (i j : Int64) : i < j ↔ int64 i < int64 j := by
    have := i.le_toInt; have := j.le_toInt
    rw [Int64.lt_iff_toInt_lt, int64, int64]
    omega
  have same : compare (int64 i) (int64 j) = compare i j := compare_rank lt (fun _ _ => int64_inj) i j
  exact same ▸ .number _ _

theorem decide_uuid (u v : Uuid) :
    Decide [u.value.toNat] [v.value.toNat] (compare u.value v.value) := by
  have same : compare u.value.toNat v.value.toNat = compare u.value v.value :=
    compare_rank (fun _ _ => BitVec.lt_def) (fun _ _ => BitVec.eq_of_toNat_eq) u.value v.value
  exact same ▸ .number _ _

end Numbers

section Texts

/-- Lists that are ended by a zero compare element by element, and a list comes before its extensions. -/
theorem decide_ended [Ord α] {rank : α → Nat} (same : ∀ a b, compare (rank a) (rank b) = compare a b)
    (as bs : List α) :
    Decide (as.map (rank · + 1) ++ [0]) (bs.map (rank · + 1) ++ [0]) (compare as bs) := by
  have succ (n m : Nat) : compare (n + 1) (m + 1) = compare n m := by
    show compareOfLessAndEq _ _ = compareOfLessAndEq _ _
    unfold compareOfLessAndEq
    simp
  induction as generalizing bs with
  | nil => cases bs <;> exact fun _ _ => rfl
  | cons a as ih =>
    cases bs with
    | nil => exact fun _ _ => rfl
    | cons b bs =>
      rw [List.compare_cons_cons, ← same, ← succ]
      exact (ih bs).cons (rank a + 1) (rank b + 1)

theorem compareOfLessAndEq_cons (a b : Char) (as bs : List Char) :
    compareOfLessAndEq (a :: as) (b :: bs) =
      (compareOfLessAndEq a b).then (compareOfLessAndEq as bs) := by
  unfold compareOfLessAndEq
  simp only [List.cons_lt_cons_iff, List.cons.injEq]
  grind [Ordering.then]

theorem compare_toList (a b : String) : compare a.toList b.toList = compare a b := by
  have lists (as bs : List Char) : compare as bs = compareOfLessAndEq as bs := by
    induction as generalizing bs with
    | nil => cases bs <;> rfl
    | cons a as ih =>
      cases bs with
      | nil => rfl
      | cons b bs =>
        rw [List.compare_cons_cons, ih, compareOfLessAndEq_cons]
        rfl
  rw [lists]
  show _ = compareOfLessAndEq a b
  unfold compareOfLessAndEq
  simp only [String.lt_iff, String.toList_inj]

theorem decide_text (a b : String) : Decide (text a) (text b) (compare a b) := by
  rw [← compare_toList]
  have same (c d : Char) : compare c.toNat d.toNat = compare c d := by
    refine compare_rank (fun c d => ?_) (fun c d same => Char.toNat_inj.1 same) c d
    exact Iff.rfl
  exact decide_ended same a.toList b.toList

theorem decide_bytes (a b : Bytes) : Decide (bytes a) (bytes b) (compare a b) :=
  have same (c d : UInt8) : compare c.toNat d.toNat = compare c d := by
    refine compare_rank (fun c d => ?_) (fun c d same => UInt8.toNat_inj.1 same) c d
    exact Iff.rfl
  decide_ended same a b

end Texts
end WideColumn.Key
