import WideColumn.Proofs.Text.Digits
import WideColumn.Proofs.Text.Scan

/-!
Literals close all quotes they open and hold no markers outside of them, whatever texts and names are
in them.
-/
namespace WideColumn

section Numbers

variable {c : Char}

theorem inert_toDigits (n : Nat) : ∀ c ∈ Nat.toDigits 10 n, isInert c = true := fun _ hc =>
  isInert_of (by decide) (Nat.isDigit_of_mem_toDigits (by decide) (by decide) hc)

theorem inert_signed (i : Int) : ∀ c ∈ signed i, isInert c = true := by
  cases i with
  | ofNat n => exact inert_toDigits n
  | negSucc n => exact List.forall_mem_cons.mpr ⟨by decide, inert_toDigits _⟩

theorem inert_hex (width n : Nat) : ∀ c ∈ Hex.digits width n, isInert c = true := fun c hc =>
  isInert_of (by decide) (Hex.isDigit_of_mem_digits width n c hc)

theorem inert_uuid (u : Uuid) : ∀ c ∈ u.render, isInert c = true := by
  have hyphen : isInert '-' = true := by decide
  simp only [Uuid.render, List.forall_mem_append, List.forall_mem_cons, hyphen, true_and]
  exact ⟨⟨⟨⟨inert_hex _ _, inert_hex _ _⟩, inert_hex _ _⟩, inert_hex _ _⟩, inert_hex _ _⟩

private theorem inert_scientific (d : Decimal) : ∀ c ∈ d.scientific.1, isInert c = true := by
  intro c hc
  have kept : c ∈ (Nat.toDigits 10 d.digits).reverse.dropWhile (· = '0') := List.mem_reverse.mp hc
  have given := (List.dropWhile_sublist _).subset kept
  exact inert_toDigits d.digits c (List.mem_reverse.mp given)

private theorem inert_positional {ds : List Char} (h : ∀ c ∈ ds, isInert c = true) (first : Int) :
    ∀ c ∈ Decimal.positional ds first, isInert c = true := by
  have zeros (n : Nat) : ∀ c ∈ List.replicate n '0', isInert c = true := by
    intro c hc
    rw [List.eq_of_mem_replicate hc]
    decide
  rw [Decimal.positional]
  split
  · exact List.forall_mem_append.mpr ⟨List.forall_mem_append.mpr ⟨inert_of_all (by decide), zeros _⟩, h⟩
  · simp only [List.forall_mem_append]
    refine ⟨⟨⟨fun c hc => h c (List.mem_of_mem_take hc), zeros _⟩, inert_of_all (by decide)⟩, ?_⟩
    split
    · exact inert_of_all (by decide)
    · exact fun c hc => h c (List.mem_of_mem_drop hc)

private theorem inert_exponential {ds : List Char} (h : ∀ c ∈ ds, isInert c = true) (first : Int) :
    ∀ c ∈ Decimal.exponential ds first, isInert c = true := by
  simp only [Decimal.exponential, List.forall_mem_append]
  refine ⟨⟨⟨⟨fun c hc => h c (List.mem_of_mem_take hc), ?_⟩, inert_of_all (by decide)⟩, ?_⟩, inert_toDigits _⟩
  · split
    · simp
    · exact List.forall_mem_cons.mpr ⟨by decide, fun c hc => h c (List.mem_of_mem_drop hc)⟩
  · split <;> exact inert_of_all (by decide)

private theorem inert_decimal (layout : Decimal.Layout) (d : Decimal) :
    ∀ c ∈ d.text layout, isInert c = true := by
  have digits := inert_scientific d
  rw [Decimal.text]
  generalize d.scientific = scientific at digits
  split
  · split
    · exact inert_positional digits _
    · exact inert_exponential digits _

/-- Nothing but digits, a point, a sign and the mark of an exponent is written for a number. -/
theorem inert_float (x : Binary64) : ∀ c ∈ x.literal, isInert c = true := by
  have magnitude : ∀ c ∈ x.magnitude, isInert c = true := by
    rw [Binary64.magnitude]
    split
    · exact inert_of_all (by decide)
    split
    · exact inert_of_all (by decide)
    exact inert_decimal _ _
  rw [Binary64.literal]
  split
  · exact inert_of_all (by decide)
  split
  · exact List.forall_mem_cons.mpr ⟨by decide, magnitude⟩
  · exact magnitude

end Numbers

namespace Datum

private theorem closed_enclosed {opening closing : Char} {cs : List Char}
    (ho : isInert opening = true) (hc : isInert closing = true) (h : Closed 0 cs) :
    Closed 0 (opening :: cs ++ [closing]) :=
  .cons ho (h.append (.cons hc .nil))

private theorem closed_joined {sep : Char} {cs ds : List Char} (hs : isInert sep = true)
    (hc : Closed 0 cs) (hd : Closed 0 ds) : Closed 0 (cs ++ sep :: ' ' :: ds) :=
  hc.append (.cons hs (.cons (by decide) hd))

mutual
theorem literal_closed (d : Datum) : Closed 0 d.literal := by
  cases d with
  | null => exact .of_inert (inert_of_all (by decide))
  | boolean b => cases b <;> exact .of_inert (inert_of_all (by decide))
  | int i => exact .of_inert (inert_signed _)
  | bigint i => exact .of_inert (inert_signed _)
  | timestamp ms => exact .of_inert (inert_signed _)
  | float x => exact .of_inert (inert_float _)
  | double x => exact .of_inert (inert_float _)
  | text s => exact .enclose (by decide) _
  | blob bs =>
    refine .cons (by decide) (.cons (by decide) (.of_inert fun c hc => ?_))
    exact isInert_of (by decide) (Hex.isDigit_of_mem_encode bs c hc)
  | uuid u => exact .of_inert (inert_uuid u)
  | list items => exact closed_enclosed (by decide) (by decide) (itemLiterals_closed items)
  | set items => exact closed_enclosed (by decide) (by decide) (itemLiterals_closed items)
  | map entries => exact closed_enclosed (by decide) (by decide) (entryLiterals_closed entries)
  | udt _ _ fields => exact closed_enclosed (by decide) (by decide) (fieldLiterals_closed fields)

theorem itemLiterals_closed (vs : List Datum) : Closed 0 (itemLiterals vs) := by
  match vs with
  | [] => exact .nil
  | [v] => exact literal_closed v
  | v :: w :: vs => exact closed_joined (by decide) (literal_closed v) (itemLiterals_closed (w :: vs))

theorem entryLiterals_closed (es : List (Datum × Datum)) : Closed 0 (entryLiterals es) := by
  match es with
  | [] => exact .nil
  | [(k, v)] => exact closed_joined (by decide) (literal_closed k) (literal_closed v)
  | (k, v) :: e :: es =>
    exact closed_joined (by decide)
      (closed_joined (by decide) (literal_closed k) (literal_closed v)) (entryLiterals_closed (e :: es))

theorem fieldLiterals_closed (fs : List (String × Datum)) : Closed 0 (fieldLiterals fs) := by
  match fs with
  | [] => exact .nil
  | [(n, v)] => exact closed_joined (by decide) (.quote n) (literal_closed v)
  | (n, v) :: f :: fs =>
    exact closed_joined (by decide)
      (closed_joined (by decide) (.quote n) (literal_closed v)) (fieldLiterals_closed (f :: fs))
end

end Datum
end WideColumn
