import WideColumn.Value.Key

/-!
The total order of caller values: by kind first, then by content, floating-point numbers by the total
order on their bits. Two values are equal in it only if they are the same.
-/
namespace WideColumn
namespace Value

mutual
def key : Value → List Nat
  | null => [0]
  | boolean b => [1, b.toNat]
  | int i => [2, Key.int32 i]
  | bigint i => [3, Key.int64 i]
  | float x => [4, x.rank]
  | double x => [5, x.rank]
  | timestamp ms => [6, Key.int64 ms]
  | text s => 7 :: Key.text s
  | enum s => 8 :: Key.text s
  | bytes bs => 9 :: Key.bytes bs
  | uuid u => [10, u.value.toNat]
  | list items => 11 :: itemKeys items
  | set items => 12 :: itemKeys items
  | map entries => 13 :: entryKeys entries
  | fields entries => 14 :: fieldKeys entries

/-- Each item after a 1, and a 0 at the end: a list comes before its extensions. -/
def itemKeys : List Value → List Nat
  | [] => [0]
  | v :: vs => 1 :: v.key ++ itemKeys vs

def entryKeys : List (Value × Value) → List Nat
  | [] => [0]
  | (k, v) :: es => 1 :: k.key ++ v.key ++ entryKeys es

def fieldKeys : List (String × Value) → List Nat
  | [] => [0]
  | (n, v) :: es => 1 :: Key.text n ++ v.key ++ fieldKeys es
end

mutual
theorem key_inj {a b : Value} {s t : List Nat} (h : a.key ++ s = b.key ++ t) : a = b ∧ s = t := by
  cases a <;> cases b <;>
    simp only [key, List.cons_append, List.nil_append, List.cons.injEq, reduceCtorEq,
      Nat.reduceEqDiff, false_and, true_and] at h
  case null.null => exact ⟨rfl, h⟩
  case boolean.boolean b c => cases b <;> cases c <;> simp_all
  case int.int => exact ⟨congrArg _ (Key.int32_inj h.1), h.2⟩
  case bigint.bigint => exact ⟨congrArg _ (Key.int64_inj h.1), h.2⟩
  case float.float => exact ⟨congrArg _ (Binary32.rank_inj h.1), h.2⟩
  case double.double => exact ⟨congrArg _ (Binary64.rank_inj h.1), h.2⟩
  case timestamp.timestamp => exact ⟨congrArg _ (Key.int64_inj h.1), h.2⟩
  case text.text => exact (Key.text_inj h).imp_left (congrArg _)
  case enum.enum => exact (Key.text_inj h).imp_left (congrArg _)
  case bytes.bytes => exact (Key.bytes_inj h).imp_left (congrArg _)
  case uuid.uuid => exact ⟨congrArg _ (Uuid.toNat_inj h.1), h.2⟩
  case list.list => exact (itemKeys_inj h).imp_left (congrArg _)
  case set.set => exact (itemKeys_inj h).imp_left (congrArg _)
  case map.map => exact (entryKeys_inj h).imp_left (congrArg _)
  case fields.fields => exact (fieldKeys_inj h).imp_left (congrArg _)

theorem itemKeys_inj {a b : List Value} {s t : List Nat}
    (h : itemKeys a ++ s = itemKeys b ++ t) : a = b ∧ s = t := by
  match a, b with
  | [], [] => simpa [itemKeys] using h
  | [], _ :: _ => simp [itemKeys] at h
  | _ :: _, [] => simp [itemKeys] at h
  | v :: vs, w :: ws =>
    simp only [itemKeys, List.cons_append, List.append_assoc, List.cons.injEq, true_and] at h
    have ⟨e, h⟩ := key_inj h
    have ⟨es, h⟩ := itemKeys_inj h
    exact ⟨by rw [e, es], h⟩

theorem entryKeys_inj {a b : List (Value × Value)} {s t : List Nat}
    (h : entryKeys a ++ s = entryKeys b ++ t) : a = b ∧ s = t := by
  match a, b with
  | [], [] => simpa [entryKeys] using h
  | [], (_, _) :: _ => simp [entryKeys] at h
  | (_, _) :: _, [] => simp [entryKeys] at h
  | (k, v) :: es, (l, w) :: fs =>
    simp only [entryKeys, List.cons_append, List.append_assoc, List.cons.injEq, true_and] at h
    have ⟨e, h⟩ := key_inj h
    have ⟨f, h⟩ := key_inj h
    have ⟨g, h⟩ := entryKeys_inj h
    exact ⟨by rw [e, f, g], h⟩

theorem fieldKeys_inj {a b : List (String × Value)} {s t : List Nat}
    (h : fieldKeys a ++ s = fieldKeys b ++ t) : a = b ∧ s = t := by
  match a, b with
  | [], [] => simpa [fieldKeys] using h
  | [], (_, _) :: _ => simp [fieldKeys] at h
  | (_, _) :: _, [] => simp [fieldKeys] at h
  | (k, v) :: es, (l, w) :: fs =>
    simp only [fieldKeys, List.cons_append, List.append_assoc, List.cons.injEq, true_and] at h
    have ⟨e, h⟩ := Key.text_inj h
    have ⟨f, h⟩ := key_inj h
    have ⟨g, h⟩ := fieldKeys_inj h
    exact ⟨by rw [e, f, g], h⟩
end

theorem key_injective {a b : Value} (h : a.key = b.key) : a = b :=
  (key_inj (s := []) (t := []) (by rw [h])).1

instance : DecidableEq Value := fun a b =>
  decidable_of_iff (a.key = b.key) ⟨key_injective, congrArg key⟩

instance : Ord Value := ⟨fun a b => compare a.key b.key⟩

theorem compare_def (a b : Value) : compare a b = compare a.key b.key := rfl

instance : Std.TransOrd Value where
  eq_swap {a b} := @Std.OrientedCmp.eq_swap (List Nat) compare _ a.key b.key
  isLE_trans {a b c} := @Std.TransCmp.isLE_trans (List Nat) compare _ a.key b.key c.key

instance : Std.LawfulEqOrd Value where
  compare_self {a} := @Std.ReflCmp.compare_self (List Nat) compare _ a.key
  eq_of_compare {a b} h :=
    key_injective (@Std.LawfulEqCmp.eq_of_compare (List Nat) compare _ a.key b.key h)

end Value
end WideColumn
