import WideColumn.Proofs.Text.Delimited
import WideColumn.Schema.Table

/-!
Names in statement text are read back as they were, whatever characters they have, and end where they
stop looking like a name.
-/
namespace WideColumn.Identifier

variable {a b : String} {s t : List Char} {c : Char}

/-- Characters that a name in statement text may go on with. -/
def goesOn (c : Char) : Bool := isPlainRest c || c == '"'

theorem quote_of_plain (h : isPlain a.toList = true) : quote a = a.toList := by
  simp [quote, quoteChars, h]

theorem quote_of_not_plain (h : isPlain a.toList = false) :
    quote a = Quoted.enclose '"' a.toList := by
  simp [quote, quoteChars, h]

theorem isPlainRest_of_plain {cs : List Char} (h : isPlain cs = true) :
    ∀ c ∈ cs, isPlainRest c = true := by
  cases cs with
  | nil => simp [isPlain] at h
  | cons d cs =>
    simp only [isPlain, Bool.and_eq_true, List.all_eq_true] at h
    intro c hc
    rcases List.mem_cons.mp hc with rfl | hc
    · simp [isPlainRest, h.1]
    · exact h.2 c hc

/-- Where a name stands, a quote or the start of a plain name is read. -/
theorem quote_head (a : String) :
    ∃ c cs, quote a = c :: cs ∧ (c = '"' ∨ isPlainStart c = true) := by
  cases h : isPlain a.toList with
  | false => exact ⟨'"', _, by rw [quote_of_not_plain h]; rfl, Or.inl rfl⟩
  | true =>
    rw [quote_of_plain h]
    cases ha : a.toList with
    | nil => simp [ha, isPlain] at h
    | cons c cs =>
      simp only [ha, isPlain, Bool.and_eq_true] at h
      exact ⟨c, cs, rfl, Or.inr h.1⟩

private theorem plain_ne_quoted (ha : isPlain a.toList = true) (hb : isPlain b.toList = false) :
    quote a ++ s ≠ quote b ++ t := by
  intro h
  obtain ⟨c, cs, hc, -⟩ := quote_head a
  rw [hc, quote_of_not_plain hb] at h
  simp only [Quoted.enclose, List.cons_append, List.cons.injEq] at h
  have := isPlainRest_of_plain ha c (by rw [← quote_of_plain ha, hc]; simp)
  rw [h.1] at this
  exact absurd this (by decide)

/-- The name and its end can be read off its quoted form, whatever characters it has. -/
theorem quote_append_inj (hs : Stops goesOn s) (ht : Stops goesOn t)
    (h : quote a ++ s = quote b ++ t) : a = b ∧ s = t := by
  cases ha : isPlain a.toList <;> cases hb : isPlain b.toList
  case false.false =>
    rw [quote_of_not_plain ha, quote_of_not_plain hb] at h
    obtain ⟨hab, hst⟩ := Quoted.enclose_append_inj (hs.mono (by simp [goesOn]))
      (ht.mono (by simp [goesOn])) h
    exact ⟨String.toList_inj.1 hab, hst⟩
  case true.true =>
    rw [quote_of_plain ha, quote_of_plain hb] at h
    obtain ⟨hab, hst⟩ := Stops.append_inj (isPlainRest_of_plain ha) (isPlainRest_of_plain hb)
      (hs.mono (by simp +contextual [goesOn])) (ht.mono (by simp +contextual [goesOn])) h
    exact ⟨String.toList_inj.1 hab, hst⟩
  case true.false => exact (plain_ne_quoted ha hb h).elim
  case false.true => exact (plain_ne_quoted hb ha h.symm).elim

/-- Where a name would be read on, no name begins. -/
theorem ne_quote_append (hs : Stops goesOn s) (a : String) (r : List Char) : s ≠ quote a ++ r := by
  rintro rfl
  obtain ⟨c, cs, hc, h⟩ := quote_head a
  rw [hc] at hs
  refine hs.not_cons ?_
  rcases h with rfl | h
  · rfl
  · simp [goesOn, isPlainRest, h]

end WideColumn.Identifier

namespace WideColumn

/-- Both parts of the name of a table can be read off, whatever dots and quotes they have. -/
theorem TableId.cql_append_inj {a b : TableId} {s t : List Char} (hs : Stops Identifier.goesOn s)
    (ht : Stops Identifier.goesOn t) (h : a.cql ++ s = b.cql ++ t) : a = b ∧ s = t := by
  obtain ⟨ka, ta⟩ := a
  obtain ⟨kb, tb⟩ := b
  simp only [cql, List.append_assoc, List.cons_append] at h
  obtain ⟨hk, h⟩ := Identifier.quote_append_inj (.cons (by decide)) (.cons (by decide)) h
  obtain ⟨ht, hst⟩ := Identifier.quote_append_inj hs ht (List.cons.inj h).2
  exact ⟨by rw [hk, ht], hst⟩

end WideColumn
