/-!
Text between two equal quote characters, a quote inside being written twice.
-/
namespace WideColumn.Quoted

/-- Every `q` of the text is written twice, all else once. -/
def double (q : Char) : List Char → List Char
  | [] => []
  | c :: cs => if c = q then q :: q :: double q cs else c :: double q cs

/-- Reads doubled quotes back from the left; a quote that stands alone stays. -/
def undouble (q : Char) : List Char → List Char
  | [] => []
  | [c] => [c]
  | c :: d :: cs => if c = q ∧ d = q then q :: undouble q cs else c :: undouble q (d :: cs)

/-- The text inside quotes. -/
def enclose (q : Char) (cs : List Char) : List Char :=
  q :: double q cs ++ [q]

@[simp] theorem double_nil (q : Char) : double q [] = [] := rfl

theorem double_cons (q c : Char) (cs : List Char) :
    double q (c :: cs) = (if c = q then [q, q] else [c]) ++ double q cs := by
  by_cases h : c = q <;> simp [double, h]

end WideColumn.Quoted
