import WideColumn.Value.Basic

/-!
Sort keys: lists of numbers that order values when compared lexicographically. The key of a part is
never the beginning of another part's key, so the keys of the parts can be joined.
-/
namespace WideColumn.Key

def int32 (i : Int32) : Nat := (i.toInt + 0x8000_0000).toNat

def int64 (i : Int64) : Nat := (i.toInt + 0x8000_0000_0000_0000).toNat

def text (s : String) : List Nat := s.toList.map (·.toNat + 1) ++ [0]

def bytes (bs : Bytes) : List Nat := bs.map (·.toNat + 1) ++ [0]

theorem int32_inj {i j : Int32} (h : int32 i = int32 j) : i = j := by
  have := i.le_toInt; have := j.le_toInt
  exact Int32.toInt_inj.1 (by simp only [int32] at h; omega)

theorem int64_inj {i j : Int64} (h : int64 i = int64 j) : i = j := by
  have := i.le_toInt; have := j.le_toInt
  exact Int64.toInt_inj.1 (by simp only [int64] at h; omega)

private theorem ended_inj {xs ys s t : List Nat}
    (h : xs.map (· + 1) ++ 0 :: s = ys.map (· + 1) ++ 0 :: t) : xs = ys ∧ s = t := by
  induction xs generalizing ys with
  | nil => cases ys <;> simp_all
  | cons x xs ih =>
    cases ys with
    | nil => simp at h
    | cons y ys =>
      simp only [List.map_cons, List.cons_append, List.cons.injEq] at h
      have := ih h.2
      simp_all

theorem text_inj {a b : String} {s t : List Nat} (h : text a ++ s = text b ++ t) :
    a = b ∧ s = t := by
  have e : ∀ c : String, text c = (c.toList.map (·.toNat)).map (· + 1) ++ [0] := by simp [text]
  rw [e, e, List.append_assoc, List.append_assoc] at h
  have := ended_inj h
  exact ⟨String.toList_inj.1 (List.map_inj_right (fun _ _ => Char.toNat_inj.1) |>.1 this.1), this.2⟩

theorem bytes_inj {a b : Bytes} {s t : List Nat} (h : bytes a ++ s = bytes b ++ t) :
    a = b ∧ s = t := by
  have e : ∀ c : Bytes, bytes c = (c.map (·.toNat)).map (· + 1) ++ [0] := by simp [bytes]
  rw [e, e, List.append_assoc, List.append_assoc] at h
  have := ended_inj h
  exact ⟨List.map_inj_right (fun _ _ => UInt8.toNat_inj.1) |>.1 this.1, this.2⟩

end WideColumn.Key

namespace WideColumn

theorem Binary32.rank_inj {x y : Binary32} (h : x.rank = y.rank) : x = y := by
  have := x.bits.toNat_lt; have := y.bits.toNat_lt
  suffices x.bits.toNat = y.bits.toNat by
    cases x; cases y; simpa [UInt32.toNat_inj] using this
  simp only [rank] at h
  split at h <;> split at h <;> omega

theorem Binary64.rank_inj {x y : Binary64} (h : x.rank = y.rank) : x = y := by
  have := x.bits.toNat_lt; have := y.bits.toNat_lt
  suffices x.bits.toNat = y.bits.toNat by
    cases x; cases y; simpa [UInt64.toNat_inj] using this
  simp only [rank] at h
  split at h <;> split at h <;> omega

theorem Uuid.toNat_inj {u v : Uuid} (h : u.value.toNat = v.value.toNat) : u = v := by
  cases u; cases v; simpa [BitVec.toNat_inj] using h

end WideColumn
