import Mathlib.Data.List.TakeWhile
import WideColumn.Proofs.Collection.SortedMap
import WideColumn.Proofs.Schema.Identifier
import WideColumn.Proofs.Schema.Reach
import WideColumn.Schema.TypeText

/-!
The text of a column type is read back as the type, whatever the names in it look like. Only names with
angle brackets do not come through, and the words of the scalars stand for these.
-/
namespace WideColumn

namespace Text

variable {a b cs : List Char}

/-- There is a character at either end that is no blank. -/
def isTrim (cs : List Char) : Bool :=
  (cs.head?.any fun c => !isBlank c) && cs.getLast?.any fun c => !isBlank c

theorem dropWhile_of_head (h : (cs.head?.any fun c => !isBlank c) = true) : cs.dropWhile isBlank = cs := by
  cases cs with
  | nil => rfl
  | cons c cs => exact List.dropWhile_cons_of_neg (by simpa using h)

theorem trim_of_isTrim (h : isTrim cs = true) : trim cs = cs := by
  obtain ⟨first, last⟩ := Bool.and_eq_true_iff.mp h
  rw [← List.head?_reverse] at last
  rw [trim, dropWhile_of_head first, trimEnd, dropWhile_of_head last, List.reverse_reverse]

theorem trim_cons_of_isBlank {c : Char} (blank : isBlank c = true) (cs : List Char) :
    trim (c :: cs) = trim cs := by
  rw [trim, List.dropWhile_cons_of_pos blank, trim]

/-- What stands between two such texts does not matter. -/
theorem isTrim_between (ha : isTrim a = true) (m : List Char) (hb : isTrim b = true) :
    isTrim (a ++ m ++ b) = true := by
  have first := (Bool.and_eq_true_iff.mp ha).1
  have last := (Bool.and_eq_true_iff.mp hb).2
  rw [isTrim, List.append_assoc, List.head?_append, ← List.append_assoc, List.getLast?_append,
    Bool.and_eq_true]
  constructor
  · cases h : a.head? <;> simp_all
  · cases h : b.getLast? <;> simp_all

end Text

namespace Quoted

theorem undouble_cons_of_ne {q c : Char} (ne : c ≠ q) (cs : List Char) :
    undouble q (c :: cs) = c :: undouble q cs := by
  cases cs <;> simp [undouble, ne]

theorem undouble_double (q : Char) (cs : List Char) : undouble q (double q cs) = cs := by
  induction cs with
  | nil => rfl
  | cons c cs ih =>
    by_cases same : c = q
    · simp [double, undouble, same, ih]
    · rw [double, if_neg same, undouble_cons_of_ne same, ih]

theorem mem_double {q c : Char} {cs : List Char} (h : c ∈ double q cs) : c ∈ cs := by
  induction cs with
  | nil => exact h
  | cons d cs ih =>
    rw [double_cons, List.mem_append] at h
    obtain h | h := h
    · split at h <;> simp_all
    · exact List.mem_cons_of_mem _ (ih h)

end Quoted

namespace Identifier

variable {c : Char}

theorem mem_quote {name : String} (h : c ∈ quote name) : c ∈ name.toList ∨ c = '"' := by
  cases plain : isPlain name.toList with
  | true => exact .inl (quote_of_plain plain ▸ h)
  | false =>
    rw [quote_of_not_plain plain, Quoted.enclose, List.mem_append, List.mem_cons] at h
    obtain (rfl | h) | h := h
    · exact .inr rfl
    · exact .inl (Quoted.mem_double h)
    · exact .inr (List.mem_singleton.mp h)

/-- Digits, the underscore and small letters. -/
theorem toNat_of_isPlainRest (h : isPlainRest c = true) :
    48 ≤ c.toNat ∧ c.toNat ≤ 57 ∨ c.toNat = 95 ∨ 97 ≤ c.toNat ∧ c.toNat ≤ 122 := by
  simp only [isPlainRest, isPlainStart, Bool.or_eq_true, beq_iff_eq] at h
  have range {low high : UInt32} (h : (decide (c.val ≥ low) && decide (c.val ≤ high)) = true) :
      low.toNat ≤ c.toNat ∧ c.toNat ≤ high.toNat := by
    simp only [Bool.and_eq_true, decide_eq_true_eq, UInt32.le_iff_toNat_le, ge_iff_le] at h
    exact h
  obtain (lower | rfl) | digit := h
  · exact .inr (.inr (range lower))
  · exact .inr (.inl rfl)
  · exact .inl (range digit)

theorem toLower_of_isPlainRest (h : isPlainRest c = true) : c.toLower = c := by
  have range := toNat_of_isPlainRest h
  refine dif_neg ?_
  rintro ⟨low, high⟩
  have low : 65 ≤ c.toNat := UInt32.le_iff_toNat_le.mp low
  have high : c.toNat ≤ 90 := UInt32.le_iff_toNat_le.mp high
  omega

theorem isWordChar_of_isPlainRest (h : isPlainRest c = true) : ColumnType.isWordChar c = true := by
  simp only [isPlainRest, isPlainStart, Bool.or_eq_true] at h
  simp only [ColumnType.isWordChar, Char.isAlphanum, Bool.or_eq_true]
  obtain (lower | underscore) | digit := h
  · exact .inl (.inl (Bool.or_eq_true_iff.mpr (.inr lower)))
  · exact .inr underscore
  · exact .inl (.inr digit)

theorem isBlank_of_isPlainRest (h : isPlainRest c = true) : Text.isBlank c = false := by
  have range := toNat_of_isPlainRest h
  simp [Text.isBlank, Text.Ranges.contains, Text.blankRanges]
  omega

theorem ne_quote_of_isPlainRest (h : isPlainRest c = true) : c ≠ '"' := by
  rintro rfl
  cases h

theorem isTrim_quote (name : String) : Text.isTrim (quote name) = true := by
  cases plain : isPlain name.toList with
  | true =>
    have spares : ∀ c ∈ name.toList, Text.isBlank c = false := fun c hc =>
      isBlank_of_isPlainRest (isPlainRest_of_plain plain c hc)
    have some : name.toList ≠ [] := fun none => by simp [none, isPlain] at plain
    rw [quote_of_plain plain, Text.isTrim, List.head?_eq_some_head some, List.getLast?_eq_some_getLast some]
    simp [spares]
  | false =>
    rw [quote_of_not_plain plain]
    exact Text.isTrim_between (a := ['"']) (b := ['"']) (by decide) _ (by decide)

end Identifier

namespace ColumnType

/-- The words that stand for scalars in the text of a type. -/
def scalarWords : List (String × ColumnType) :=
  [("ascii", ascii), ("text", text), ("varchar", text), ("int", int), ("bigint", bigint),
    ("counter", counter), ("boolean", boolean), ("float", float), ("double", double), ("blob", blob),
    ("timestamp", timestamp), ("uuid", uuid), ("timeuuid", timeuuid)]

/-- The type with the scalar of that word in place of each user-defined type that goes under one. -/
def reread : ColumnType → ColumnType
  | list element => list element.reread
  | set element => set element.reread
  | map key value => map key.reread value.reread
  | udt name => (scalarWords.lookup name).getD (udt name)
  | scalar => scalar

theorem reread_eq_self {t : ColumnType} :
    t.reread = t ↔ ∀ name, t.Mentions name → name ∉ scalarWords.map Prod.fst := by
  induction t with
  | list e ih => rw [reread, list.injEq]; exact ih
  | set e ih => rw [reread, set.injEq]; exact ih
  | map k v ihk ihv =>
    rw [reread, map.injEq, ihk, ihv]
    simp only [Mentions, or_imp, forall_and]
  | udt name =>
    simp only [reread, Mentions, forall_eq', ← lookup_eq_none]
    cases found : scalarWords.lookup name with
    | none => simp
    | some t =>
      have scalars : ∀ e ∈ scalarWords, e.2.names = [] := by decide
      refine ⟨fun same => ?_, fun none => absurd none (Option.some_ne_none t)⟩
      have nameless := scalars _ (mem_of_lookup found)
      rw [Option.getD_some] at same
      rw [same] at nameless
      cases nameless
  | _ => simp [reread, Mentions]

section Splitting

variable {depth : Nat} {cs ds : List Char}

/-- If this text begins what is split at this depth, the comma is looked for behind it. -/
def Passes (depth : Nat) (cs : List Char) : Prop :=
  ∀ rest, splitComma depth (cs ++ rest) = (splitComma depth rest).map fun p => (cs ++ p.1, p.2)

namespace Passes

theorem nil : Passes depth [] := fun rest => by
  simp

theorem append (h : Passes depth cs) (h' : Passes depth ds) : Passes depth (cs ++ ds) := fun rest => by
  simp only [List.append_assoc, h _, h' _, Option.map_map, Function.comp_def]

theorem singleton {c : Char} (opens : c ≠ '<') (closes : c ≠ '>') (comma : ¬ (c = ',' ∧ depth = 0)) :
    Passes depth [c] := fun rest => by
  rw [List.singleton_append, splitComma, if_neg opens, if_neg closes, if_neg comma]
  rfl

theorem of_chars (h : ∀ c ∈ cs, c ≠ '<' ∧ c ≠ '>' ∧ ¬ (c = ',' ∧ depth = 0)) : Passes depth cs := by
  induction cs with
  | nil => exact nil
  | cons c cs ih =>
    obtain ⟨⟨opens, closes, comma⟩, rest⟩ := List.forall_mem_cons.mp h
    exact (singleton opens closes comma).append (ih rest)

/-- What stands in angle brackets is one deeper. -/
theorem bracketed (h : Passes (depth + 1) cs) : Passes depth ('<' :: (cs ++ ['>'])) := fun rest => by
  have closed : splitComma (depth + 1) ('>' :: rest) =
      (splitComma depth rest).map fun p => ('>' :: p.1, p.2) := by
    rw [splitComma, if_neg (by decide), if_pos rfl, if_neg depth.succ_ne_zero]
    rfl
  have opened : splitComma depth ('<' :: (cs ++ '>' :: rest)) =
      (splitComma (depth + 1) (cs ++ '>' :: rest)).map fun p => ('<' :: p.1, p.2) := by
    rw [splitComma, if_pos rfl]
  rw [List.cons_append, List.append_assoc, List.singleton_append, opened, h, closed]
  simp [Option.map_map, Function.comp_def]

end Passes

/-- Two parts are told apart that have no comma outside of angle brackets. -/
theorem splitComma_of_passes (h : Passes 0 cs) (ds : List Char) :
    splitComma 0 (cs ++ ',' :: ds) = some (cs, ds) := by
  rw [h, splitComma]
  simp

end Splitting

section Reading

variable {cs inner : List Char}

theorem generic?_eq_none (h : '<' ∉ cs) : generic? cs = none := by
  have whole : cs.dropWhile (· ≠ '<') = [] := by
    simpa [List.dropWhile_eq_nil_iff] using fun c hc => ne_of_mem_of_not_mem hc h
  rw [generic?, whole]

theorem generic?_bracketed {outer : List Char} (h : '<' ∉ outer) :
    generic? (outer ++ '<' :: (inner ++ ['>'])) = some (Text.trim outer, Text.trim inner) := by
  have others : ∀ c ∈ outer, decide (c ≠ '<') = true := by
    simpa using fun c hc => ne_of_mem_of_not_mem hc h
  rw [generic?, List.dropWhile_append_of_pos others, List.takeWhile_append_of_pos others,
    List.dropWhile_cons_of_neg (by decide), List.takeWhile_cons_of_neg (by decide)]
  simp

theorem lookup_scalarWords (name : String) :
    scalarWords.lookup name = if name = "varchar" then some text else scalars.lookup name := by
  split
  · rename_i same
    subst same
    rfl
  · rename_i other
    have ne : (name == "varchar") = false := by simpa using other
    simp only [scalarWords, scalars, List.lookup_cons, ne]

/-- A word of a scalar is read as that, and any other plain name as the type of that name. -/
theorem ofWord?_plain {name : String} (plain : Identifier.isPlain name.toList = true) :
    ofWord? name.toList = some (udt name).reread := by
  have rest := Identifier.isPlainRest_of_plain plain
  have lower : name.toList.map Char.toLower = name.toList := by
    rw [List.map_congr_left fun c hc => Identifier.toLower_of_isPlainRest (rest c hc), List.map_id']
  have word : name.toList ≠ [] ∧ name.toList.all isWordChar = true := by
    refine ⟨fun none => ?_, ?_⟩
    · rw [none] at plain
      cases plain
    · exact List.all_eq_true.mpr fun c hc => Identifier.isWordChar_of_isPlainRest (rest c hc)
  rw [ofWord?, lower, String.ofList_toList, reread, lookup_scalarWords, if_pos word]
  split
  · rfl
  · cases scalars.lookup name <;> rfl

theorem unquote?_enclose (cs : List Char) :
    unquote? (Quoted.enclose '"' cs) = some (Quoted.double '"' cs) := by
  rw [Quoted.enclose, List.cons_append, unquote?, List.getLast?_concat, if_pos rfl, List.dropLast_concat]

theorem unquote?_of_ne {c : Char} (ne : c ≠ '"') : unquote? (c :: cs) = none := by
  rw [unquote?]
  rintro rest same
  exact ne (List.cons.inj same).1

/-- A quoted name stays the name of a type, since the words of the scalars are not quoted. -/
theorem reread_of_not_plain {name : String} (quoted : Identifier.isPlain name.toList = false) :
    (udt name).reread = udt name := by
  refine reread_eq_self.mpr fun other same word => ?_
  obtain rfl : name = other := same
  have words : ∀ word ∈ scalarWords.map Prod.fst, Identifier.isPlain word.toList = true := by decide
  rw [words name word] at quoted
  cases quoted

variable {depth : Nat}

/-- A text without angle brackets is a name, as it stands or in quotes. -/
theorem parseWithin_simple (trimmed : Text.isTrim cs = true) (simple : '<' ∉ cs) :
    parseWithin (depth + 1) cs = match unquote? cs with
      | some name => .ok (udt (String.ofList (Quoted.undouble '"' name)))
      | none => (ofWord? cs).elim (.error (String.ofList cs)) .ok := by
  have whole := generic?_eq_none simple
  cases name : unquote? cs <;> simp only [parseWithin, Text.trim_of_isTrim trimmed, whole, name]

theorem parseWithin_quote {name : String} (plain : '<' ∉ name.toList) (room : 0 < depth) :
    parseWithin depth (Identifier.quote name) = .ok (udt name).reread := by
  obtain ⟨depth, rfl⟩ := Nat.exists_eq_add_one.mpr room
  have simple : '<' ∉ Identifier.quote name := fun there =>
    (Identifier.mem_quote there).elim plain (by decide)
  rw [parseWithin_simple (Identifier.isTrim_quote name) simple]
  cases word : Identifier.isPlain name.toList with
  | true =>
    have unquoted : unquote? name.toList = none := by
      cases whole : name.toList with
      | nil => rfl
      | cons c cs =>
        have mem : c ∈ name.toList := whole ▸ List.mem_cons_self
        exact unquote?_of_ne (Identifier.ne_quote_of_isPlainRest (Identifier.isPlainRest_of_plain word c mem))
    rw [Identifier.quote_of_plain word, unquoted, ofWord?_plain word]
    rfl
  | false =>
    rw [Identifier.quote_of_not_plain word, unquote?_enclose, reread_of_not_plain word]
    dsimp only
    rw [Quoted.undouble_double, String.ofList_toList]

/-- A parameter in angle brackets behind a word. -/
theorem isTrim_bracketed {word : List Char} (trimmed : Text.isTrim word = true) (inner : List Char) :
    Text.isTrim (word ++ '<' :: (inner ++ ['>'])) = true := by
  have whole : word ++ '<' :: (inner ++ ['>']) = word ++ ('<' :: inner) ++ ['>'] := by simp
  rw [whole]
  exact Text.isTrim_between trimmed _ (by decide)

theorem generic?_word {word : List Char}
    (known : word ∈ ["frozen".toList, "list".toList, "set".toList, "map".toList])
    (trimmed : Text.isTrim inner = true) :
    generic? (Text.trim (word ++ '<' :: (inner ++ ['>']))) = some (word, inner) := by
  have words : ∀ word ∈ ["frozen".toList, "list".toList, "set".toList, "map".toList],
      '<' ∉ word ∧ Text.isTrim word = true := by decide
  obtain ⟨simple, ends⟩ := words word known
  rw [Text.trim_of_isTrim (isTrim_bracketed ends inner), generic?_bracketed simple,
    Text.trim_of_isTrim ends, Text.trim_of_isTrim trimmed]

end Reading

section Shape

variable (e k v : ColumnType) (name : String)

theorem render_list : (list e).render = "list".toList ++ '<' :: (e.render ++ ['>']) := rfl

theorem render_set : (set e).render = "set".toList ++ '<' :: (e.render ++ ['>']) := rfl

theorem render_map :
    (map k v).render = "map".toList ++ '<' :: (k.render ++ ',' :: ' ' :: v.render ++ ['>']) := by
  show "map<".toList ++ k.render ++ [',', ' '] ++ v.render ++ ['>'] = _
  rw [show "map<".toList = "map".toList ++ ['<'] by decide]
  simp only [List.append_assoc, List.cons_append, List.nil_append]

theorem render_udt : (udt name).render = "frozen".toList ++ '<' :: (Identifier.quote name ++ ['>']) := rfl

theorem isTrim_render (t : ColumnType) : Text.isTrim t.render = true := by
  cases t with
  | list e => rw [render_list]; exact isTrim_bracketed (by decide) _
  | set e => rw [render_set]; exact isTrim_bracketed (by decide) _
  | map k v => rw [render_map]; exact isTrim_bracketed (by decide) _
  | udt name => rw [render_udt]; exact isTrim_bracketed (by decide) _
  | _ => decide

end Shape

/-- A comma in the text of a type stands in angle brackets. -/
theorem passes_render {t : ColumnType} {depth : Nat}
    (plain : ∀ name, t.Mentions name → '<' ∉ name.toList ∧ '>' ∉ name.toList) :
    Passes depth t.render := by
  have word (cs : List Char) (simple : '<' ∉ cs ∧ '>' ∉ cs ∧ ',' ∉ cs) (depth : Nat) : Passes depth cs :=
    .of_chars fun c hc => ⟨ne_of_mem_of_not_mem hc simple.1, ne_of_mem_of_not_mem hc simple.2.1,
      fun comma => ne_of_mem_of_not_mem hc simple.2.2 comma.1⟩
  induction t generalizing depth with
  | list e ih =>
    rw [render_list]
    exact (word _ (by decide) _).append (.bracketed (ih plain))
  | set e ih =>
    rw [render_set]
    exact (word _ (by decide) _).append (.bracketed (ih plain))
  | map k v ihk ihv =>
    have comma : Passes (depth + 1) [',', ' '] := .of_chars (by simp)
    have inner := ((ihk fun name h => plain name (.inl h)).append comma).append
      (ihv fun name h => plain name (.inr h))
    rw [List.append_assoc] at inner
    rw [render_map]
    exact (word _ (by decide) _).append (.bracketed inner)
  | udt name =>
    obtain ⟨opens, closes⟩ := plain name rfl
    rw [render_udt]
    refine (word _ (by decide) _).append (.bracketed (.of_chars fun c hc => ?_))
    obtain there | rfl := Identifier.mem_quote hc
    · exact ⟨ne_of_mem_of_not_mem there opens, ne_of_mem_of_not_mem there closes, by simp⟩
    · exact ⟨by decide, by decide, by simp⟩
  | _ => exact word _ (by decide) _

/-- With room for all of its text, a type is read back from it. -/
theorem parseWithin_render {t : ColumnType} {depth : Nat}
    (plain : ∀ name, t.Mentions name → '<' ∉ name.toList ∧ '>' ∉ name.toList)
    (room : t.render.length < depth) : parseWithin depth t.render = .ok t.reread := by
  induction t generalizing depth with
  | list e ih =>
    obtain ⟨depth, rfl⟩ := Nat.exists_eq_add_one.mpr (Nat.zero_lt_of_lt room)
    rw [render_list] at room ⊢
    rw [parseWithin, generic?_word (by decide) e.isTrim_render]
    show (parseWithin depth e.render).map list = _
    rw [ih plain (by simp at room; omega)]
    rfl
  | set e ih =>
    obtain ⟨depth, rfl⟩ := Nat.exists_eq_add_one.mpr (Nat.zero_lt_of_lt room)
    rw [render_set] at room ⊢
    rw [parseWithin, generic?_word (by decide) e.isTrim_render]
    show (parseWithin depth e.render).map set = _
    rw [ih plain (by simp at room; omega)]
    rfl
  | map k v ihk ihv =>
    obtain ⟨depth, rfl⟩ := Nat.exists_eq_add_one.mpr (Nat.zero_lt_of_lt room)
    have keyed (name : String) (h : k.Mentions name) := plain name (.inl h)
    have valued (name : String) (h : v.Mentions name) := plain name (.inr h)
    have trimmed : Text.isTrim (k.render ++ ',' :: ' ' :: v.render) = true := by
      simpa using Text.isTrim_between k.isTrim_render [',', ' '] v.isTrim_render
    rw [render_map] at room ⊢
    rw [parseWithin, generic?_word (by decide) trimmed]
    dsimp only
    rw [splitComma_of_passes (passes_render keyed)]
    show (do
      let k ← parseWithin depth (Text.trim k.render)
      let v ← parseWithin depth (Text.trim (' ' :: v.render))
      return map k v) = _
    rw [Text.trim_cons_of_isBlank (by decide), Text.trim_of_isTrim k.isTrim_render,
      Text.trim_of_isTrim v.isTrim_render, ihk keyed (by simp at room; omega),
      ihv valued (by simp at room; omega)]
    rfl
  | udt name =>
    obtain ⟨depth, rfl⟩ := Nat.exists_eq_add_one.mpr (Nat.zero_lt_of_lt room)
    rw [render_udt] at room ⊢
    rw [parseWithin, generic?_word (by decide) (Identifier.isTrim_quote name)]
    exact parseWithin_quote (plain name rfl).1 (by simp at room; omega)
  | _ =>
    obtain ⟨depth, rfl⟩ := Nat.exists_eq_add_one.mpr (Nat.zero_lt_of_lt room)
    rfl

/-- The text of a type without angle brackets in its names is read back, and gives the type but for the
user-defined types that go under the word of a scalar: in their place are these scalars. -/
theorem parse_toText {t : ColumnType}
    (plain : ∀ name, t.Mentions name → '<' ∉ name.toList ∧ '>' ∉ name.toList) :
    parse t.toText = .ok t.reread ∧
      (parse t.toText = .ok t ↔ ∀ name, t.Mentions name → name ∉ scalarWords.map Prod.fst) := by
  have parsed : parse t.toText = .ok t.reread := by
    rw [parse, toText, String.toList_ofList]
    exact parseWithin_render plain (Nat.lt_succ_self _)
  refine ⟨parsed, ?_⟩
  rw [parsed, Except.ok.injEq]
  exact reread_eq_self

/-- Quotes, commas, blanks and capitals come through, and the word of a scalar does not. -/
theorem parse_quoted_names :
    let t : ColumnType := .map (.udt "a, \"B\"") (.list (.map (.udt " Text,") (.set (.udt "varchar"))))
    (∀ name, t.Mentions name → '<' ∉ name.toList ∧ '>' ∉ name.toList) ∧
      t.toText = "map<frozen<\"a, \"\"B\"\"\">, list<map<frozen<\" Text,\">, set<frozen<varchar>>>>>" ∧
      parse t.toText = .ok (.map (.udt "a, \"B\"") (.list (.map (.udt " Text,") (.set .text)))) := by
  intro t
  have plain : ∀ name, t.Mentions name → '<' ∉ name.toList ∧ '>' ∉ name.toList := by
    rintro name (rfl | rfl | rfl) <;> decide
  exact ⟨plain, by decide +kernel, (parse_toText plain).1⟩

-- An angle bracket in a name ends the parameter it is in too early.
example : parse (map (udt ">,") int).toText = .error "\"" := by decide +kernel

end ColumnType
end WideColumn
