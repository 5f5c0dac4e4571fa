import Mathlib.Data.List.Perm.Basic
import WideColumn.Cache.Basic

/-!
Lists of which one part is cut short, and lists that are sorted into parts.
-/
namespace WideColumn

variable {α : Type u} {own other : α → Bool} {a : α} {l : List α} {n : Nat}

theorem keepFirst_sublist (own : α → Bool) (n : Nat) (l : List α) : (keepFirst own n l).Sublist l := by
  induction l generalizing n with
  | nil => cases n <;> exact .slnil
  | cons a rest ih =>
    cases n <;> rw [keepFirst] <;> split
    · exact (ih 0).cons a
    · exact (ih 0).cons_cons a
    · exact (ih _).cons_cons a
    · exact (ih _).cons_cons a

theorem keepFirst_cons_own (ha : own a = true) (n : Nat) (l : List α) :
    keepFirst own (n + 1) (a :: l) = a :: keepFirst own n l := by
  rw [keepFirst, if_pos ha]

/-- The part is cut short. -/
theorem filter_keepFirst (own : α → Bool) (n : Nat) (l : List α) :
    (keepFirst own n l).filter own = (l.filter own).take n := by
  induction l generalizing n with
  | nil => cases n <;> rfl
  | cons a rest ih =>
    cases ha : own a <;> cases n <;> simp [keepFirst, ha, ih]

/-- What belongs to another part stays. -/
theorem filter_keepFirst_other (apart : ∀ a, other a = true → own a = false) (n : Nat) (l : List α) :
    (keepFirst own n l).filter other = l.filter other := by
  induction l generalizing n with
  | nil => cases n <;> rfl
  | cons a rest ih =>
    cases ha : own a
    · cases n <;> simp [keepFirst, ha, List.filter_cons, ih]
    · have : other a = false := by
        by_contra h
        simp [apart a (by simpa using h)] at ha
      cases n <;> simp [keepFirst, ha, this, ih]

/-- One of the parts, if the others are left out. -/
theorem flatMap_range_ite (f : Nat → List α) (n i : Nat) :
    ((List.range n).flatMap fun j => if j = i then f j else []) = if i < n then f i else [] := by
  induction n with
  | zero => rfl
  | succ n ih =>
    rw [List.range_succ, List.flatMap_append, ih, List.flatMap_singleton]
    obtain before | rfl | after := Nat.lt_trichotomy i n
    · rw [if_pos before, if_neg (Nat.ne_of_gt before), if_pos (Nat.lt_succ_of_lt before), List.append_nil]
    · simp
    · rw [if_neg (Nat.lt_asymm after), if_neg (Nat.ne_of_lt after), if_neg (by omega), List.append_nil]

/-- Put together again, the parts are the list in another order. -/
theorem flatMap_filter_perm {part : α → Nat} (h : ∀ a ∈ l, part a < n) :
    ((List.range n).flatMap fun i => l.filter (part · = i)).Perm l := by
  have below (n : Nat) : ((List.range n).flatMap fun i => l.filter (part · = i)).Perm
      (l.filter (part · < n)) := by
    induction n with
    | zero => simp
    | succ n ih =>
      have split := List.filter_append_perm (part · < n) (l.filter (part · < n + 1))
      rw [List.range_succ, List.flatMap_append, List.flatMap_singleton]
      refine (ih.append_right _).trans (.trans (.of_eq ?_) split)
      rw [List.filter_filter, List.filter_filter]
      congr 1 <;> refine List.filter_congr fun a _ => ?_
      · simp only [← Bool.decide_and, decide_eq_decide]
        omega
      · simp only [← decide_not, ← Bool.decide_and, decide_eq_decide]
        omega
  refine (below n).trans (.of_eq (List.filter_eq_self.mpr fun a ha => ?_))
  exact decide_eq_true (h a ha)

end WideColumn
