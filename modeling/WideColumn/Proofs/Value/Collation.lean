import WideColumn.Proofs.Value.Keys
import WideColumn.Value.Order

/-!
Caller values compared part by part. The order by sort keys is this one.
-/
namespace WideColumn.Value

/-- The kinds in their order. -/
def rank : Value → Nat
  | null => 0
  | boolean _ => 1
  | int _ => 2
  | bigint _ => 3
  | float _ => 4
  | double _ => 5
  | timestamp _ => 6
  | text _ => 7
  | enum _ => 8
  | bytes _ => 9
  | uuid _ => 10
  | list _ => 11
  | set _ => 12
  | map _ => 13
  | fields _ => 14

mutual
/-- By kind first, then by content. -/
def collate (a b : Value) : Ordering :=
  (compare a.rank b.rank).then <|
    match a, b with
    | boolean a, boolean b => compare a b
    | int i, int j => compare i j
    | bigint i, bigint j => compare i j
    | float x, float y => compare x.rank y.rank
    | double x, double y => compare x.rank y.rank
    | timestamp i, timestamp j => compare i j
    | text s, text t => compare s t
    | enum s, enum t => compare s t
    | bytes as, bytes bs => compare as bs
    | uuid u, uuid v => compare u.value v.value
    | list as, list bs => collateItems as bs
    | set as, set bs => collateItems as bs
    | map as, map bs => collateEntries as bs
    | fields as, fields bs => collateFields as bs
    | _, _ => .eq

/-- The first difference decides, and a list comes before its extensions. -/
def collateItems : List Value → List Value → Ordering
  | [], [] => .eq
  | [], _ :: _ => .lt
  | _ :: _, [] => .gt
  | a :: as, b :: bs => (a.collate b).then (collateItems as bs)

def collateEntries : List (Value × Value) → List (Value × Value) → Ordering
  | [], [] => .eq
  | [], _ :: _ => .lt
  | _ :: _, [] => .gt
  | (k, v) :: as, (l, w) :: bs => ((k.collate l).then (v.collate w)).then (collateEntries as bs)

def collateFields : List (String × Value) → List (String × Value) → Ordering
  | [], [] => .eq
  | [], _ :: _ => .lt
  | _ :: _, [] => .gt
  | (m, v) :: as, (n, w) :: bs => ((compare m n).then (v.collate w)).then (collateFields as bs)
end

open Key (Decide)

/-- The kind stands in front of every key. -/
theorem key_eq_cons (a : Value) : ∃ content, a.key = a.rank :: content := by
  cases a <;> exact ⟨_, by rw [key, rank]⟩

theorem decide_of_ne {a b : Value} (h : a.rank ≠ b.rank) : Decide a.key b.key (a.collate b) := by
  obtain ⟨xs, ha⟩ := a.key_eq_cons
  obtain ⟨ys, hb⟩ := b.key_eq_cons
  rw [ha, hb, collate.eq_def]
  exact .cons_of_ne h _

mutual
/-- The keys of two values decide as the values are collated. -/
theorem decide_key (a b : Value) : Decide a.key b.key (a.collate b) := by
  refine Decidable.byCases (fun kinds : a.rank = b.rank => ?_) decide_of_ne
  cases a <;> cases b <;> simp only [rank, Nat.reduceEqDiff, reduceCtorEq] at kinds
  all_goals
    simp only [collate, key]
    refine .cons _ _ ?_
  case null.null => exact fun _ _ => rfl
  case boolean.boolean a b => exact Key.decide_bool a b
  case int.int i j => exact Key.decide_int32 i j
  case bigint.bigint i j | timestamp.timestamp i j => exact Key.decide_int64 i j
  case float.float x y | double.double x y => exact .number x.rank y.rank
  case text.text s t | enum.enum s t => exact Key.decide_text s t
  case bytes.bytes as bs => exact Key.decide_bytes as bs
  case uuid.uuid u v => exact Key.decide_uuid u v
  case list.list as bs | set.set as bs => exact decide_itemKeys as bs
  case map.map as bs => exact decide_entryKeys as bs
  case fields.fields as bs => exact decide_fieldKeys as bs

theorem decide_itemKeys : (as bs : List Value) →
    Decide (itemKeys as) (itemKeys bs) (collateItems as bs)
  | [], [] => by simpa only [itemKeys, collateItems] using .ended
  | [], _ :: _ => by simpa only [itemKeys, collateItems] using .shorter
  | _ :: _, [] => by simpa only [itemKeys, collateItems] using .longer
  | a :: as, b :: bs => by
    simp only [itemKeys, collateItems]
    exact (decide_key a b).next (decide_itemKeys as bs)

theorem decide_entryKeys : (as bs : List (Value × Value)) →
    Decide (entryKeys as) (entryKeys bs) (collateEntries as bs)
  | [], [] => by simpa only [entryKeys, collateEntries] using .ended
  | [], _ :: _ => by simpa only [entryKeys, collateEntries] using .shorter
  | _ :: _, [] => by simpa only [entryKeys, collateEntries] using .longer
  | (k, v) :: as, (l, w) :: bs => by
    simp only [entryKeys, collateEntries, List.cons_append]
    exact ((decide_key k l).append (decide_key v w)).next (decide_entryKeys as bs)

theorem decide_fieldKeys : (as bs : List (String × Value)) →
    Decide (fieldKeys as) (fieldKeys bs) (collateFields as bs)
  | [], [] => by simpa only [fieldKeys, collateFields] using .ended
  | [], _ :: _ => by simpa only [fieldKeys, collateFields] using .shorter
  | _ :: _, [] => by simpa only [fieldKeys, collateFields] using .longer
  | (m, v) :: as, (n, w) :: bs => by
    simp only [fieldKeys, collateFields, List.cons_append]
    exact ((Key.decide_text m n).append (decide_key v w)).next (decide_fieldKeys as bs)
end

/-- The order by sort keys compares part by part. -/
theorem compare_eq_collate (a b : Value) : compare a b = a.collate b := (decide_key a b).compare_eq

end WideColumn.Value
