import WideColumn.Proofs.Schema.Identifier

/-!
Scanning statement text from the left for quotes and markers. A quote of the kind that is open and
stands twice is one character inside of the quotes; a marker counts only outside of them.
-/
namespace WideColumn

def isQuote (c : Char) : Bool := c = '\'' ∨ c = '"'

/-- Scans on from outside of quotes or from inside of those of one kind: where the text ends, and how
many markers it has outside of quotes. -/
def scan : Option Char → List Char → Option Char × Nat
  | m, [] => (m, 0)
  | none, c :: cs =>
    if isQuote c then scan (some c) cs
    else ((scan none cs).1, (scan none cs).2 + if c = '?' then 1 else 0)
  | some q, [c] => (if c = q then none else some q, 0)
  | some q, c :: d :: cs =>
    if c = q ∧ d = q then scan (some q) cs
    else scan (if c = q then none else some q) (d :: cs)

/-- The same without looking ahead: a doubled quote closes and opens again. -/
def sweep : Option Char → List Char → Option Char × Nat
  | m, [] => (m, 0)
  | none, c :: cs =>
    if isQuote c then sweep (some c) cs
    else ((sweep none cs).1, (sweep none cs).2 + if c = '?' then 1 else 0)
  | some q, c :: cs => sweep (if c = q then none else some q) cs

theorem scan_eq_sweep {m : Option Char} (hm : ∀ q ∈ m, isQuote q = true) (cs : List Char) :
    scan m cs = sweep m cs := by
  fun_induction scan m cs with
  | case1 => simp [sweep]
  | case2 c cs quote ih =>
    rw [ih (by simpa using quote), sweep, if_pos quote]
  | case3 c cs plain ih =>
    rw [ih hm, sweep, if_neg plain]
  | case4 q c => simp [sweep]
  | case5 q c d cs doubled ih =>
    obtain ⟨rfl, rfl⟩ := doubled
    rw [ih hm, sweep, if_pos rfl, sweep, if_pos (hm d rfl)]
  | case6 q c d cs single ih =>
    rw [ih, sweep]
    split <;> simp_all

theorem sweep_append (m : Option Char) (cs ds : List Char) :
    sweep m (cs ++ ds) =
      ((sweep (sweep m cs).1 ds).1, (sweep m cs).2 + (sweep (sweep m cs).1 ds).2) := by
  fun_induction sweep m cs with
  | case1 => simp
  | case2 c cs quote ih => rw [List.cons_append, sweep, if_pos quote, ih]
  | case3 c cs plain ih =>
    rw [List.cons_append, sweep, if_neg plain, ih]
    exact Prod.ext rfl (Nat.add_right_comm _ _ _)
  | case4 q c cs ih => rw [List.cons_append, sweep, ih]

/-- Neither a marker nor a quote. -/
def isInert (c : Char) : Bool := c ≠ '?' && !isQuote c

theorem isInert_of {p : Char → Bool} (hp : p '?' = false ∧ p '\'' = false ∧ p '"' = false) {c : Char}
    (h : p c = true) : isInert c = true := by
  obtain ⟨marker, single, double⟩ := hp
  simp only [isInert, isQuote, Bool.and_eq_true, decide_eq_true_eq, Bool.not_eq_true', not_or,
    decide_eq_false_iff_not]
  refine ⟨?_, ?_, ?_⟩ <;> rintro rfl <;> simp_all

/-- For texts that are given letter by letter. -/
theorem inert_of_all {cs : List Char} (h : cs.all isInert = true) : ∀ c ∈ cs, isInert c = true :=
  List.all_eq_true.mp h

/-- A part of a text that closes the quotes it opens and has so many markers outside of them. -/
def Closed (n : Nat) (cs : List Char) : Prop := sweep none cs = (none, n)

namespace Closed

variable {n m : Nat} {c : Char} {cs ds : List Char}

theorem nil : Closed 0 [] := rfl

theorem append (hc : Closed m cs) (hd : Closed n ds) : Closed (m + n) (cs ++ ds) := by
  rw [Closed, sweep_append, hc, hd]

theorem cons (hc : isInert c = true) (h : Closed n cs) : Closed n (c :: cs) := by
  obtain ⟨marker, quote⟩ : c ≠ '?' ∧ isQuote c = false := by simpa [isInert] using hc
  rw [Closed, sweep, quote, h]
  simp [marker]

theorem of_inert (h : ∀ c ∈ cs, isInert c = true) : Closed 0 cs := by
  induction cs with
  | nil => exact .nil
  | cons c cs ih =>
    obtain ⟨hc, hcs⟩ := List.forall_mem_cons.mp h
    exact .cons hc (ih hcs)

/-- Inside of quotes nothing counts, and a doubled quote ends nothing. -/
private theorem sweep_double {q : Char} (hq : isQuote q = true) (cs : List Char) :
    sweep (some q) (Quoted.double q cs) = (some q, 0) := by
  induction cs with
  | nil => rfl
  | cons c cs ih =>
    by_cases hc : c = q
    · rw [Quoted.double, if_pos hc, sweep, if_pos rfl, sweep, if_pos hq, ih]
    · rw [Quoted.double, if_neg hc, sweep, if_neg hc, ih]

theorem enclose {q : Char} (hq : isQuote q = true) (cs : List Char) :
    Closed 0 (Quoted.enclose q cs) := by
  rw [Closed, Quoted.enclose, List.cons_append, sweep, if_pos hq, sweep_append, sweep_double hq]
  simp [sweep]

theorem quote (name : String) : Closed 0 (Identifier.quote name) := by
  cases h : Identifier.isPlain name.toList with
  | false =>
    rw [Identifier.quote_of_not_plain h]
    exact enclose (by decide) _
  | true =>
    rw [Identifier.quote_of_plain h]
    exact of_inert fun c hc => isInert_of (by decide) (Identifier.isPlainRest_of_plain h c hc)

theorem cql (t : TableId) : Closed 0 t.cql :=
  (quote t.keyspace).append (.cons (by decide) (quote t.table))

end Closed
end WideColumn
