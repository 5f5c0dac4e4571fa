import WideColumn.Proofs.Datum.Conforms
import WideColumn.Proofs.Schema.Identifier
import WideColumn.Proofs.Text.Digits

/-!
Literals of values of one type can be told apart in any place where a literal may stand, whatever
texts and names they hold. Floating-point numbers are left out: two of them may share a literal.
-/
namespace WideColumn
namespace Datum

mutual
/-- No floating-point number at any depth. -/
def isExact : Datum → Bool
  | float _ | double _ => false
  | list items | set items => itemsExact items
  | map entries => entriesExact entries
  | udt _ _ fields => fieldsExact fields
  | _ => true

def itemsExact : List Datum → Bool
  | [] => true
  | v :: vs => v.isExact && itemsExact vs

def entriesExact : List (Datum × Datum) → Bool
  | [] => true
  | (k, v) :: es => k.isExact && v.isExact && entriesExact es

def fieldsExact : List (String × Datum) → Bool
  | [] => true
  | (_, v) :: es => v.isExact && fieldsExact es
end

theorem itemsExact_iff {vs : List Datum} : itemsExact vs = true ↔ ∀ v ∈ vs, v.isExact = true := by
  induction vs with
  | nil => simp [itemsExact]
  | cons v vs ih => simp [itemsExact, ih]

theorem entriesExact_iff {es : List (Datum × Datum)} :
    entriesExact es = true ↔ ∀ e ∈ es, e.1.isExact = true ∧ e.2.isExact = true := by
  induction es with
  | nil => simp [entriesExact]
  | cons e es ih =>
    obtain ⟨k, v⟩ := e
    rw [entriesExact, Bool.and_eq_true, Bool.and_eq_true, ih, List.forall_mem_cons]

theorem fieldsExact_iff {es : List (String × Datum)} :
    fieldsExact es = true ↔ ∀ e ∈ es, e.2.isExact = true := by
  induction es with
  | nil => simp [fieldsExact]
  | cons e es ih =>
    obtain ⟨n, v⟩ := e
    rw [fieldsExact, Bool.and_eq_true, ih, List.forall_mem_cons]

def entryLiteral (e : Datum × Datum) : List Char := e.1.literal ++ ':' :: ' ' :: e.2.literal

def fieldLiteral (e : String × Datum) : List Char :=
  Identifier.quote e.1 ++ ':' :: ' ' :: e.2.literal

theorem itemLiterals_eq (vs : List Datum) :
    itemLiterals vs = [',', ' '].intercalate (vs.map literal) := by
  induction vs with
  | nil => rfl
  | cons v vs ih => cases vs <;> simp_all [itemLiterals]

theorem entryLiterals_eq (es : List (Datum × Datum)) :
    entryLiterals es = [',', ' '].intercalate (es.map entryLiteral) := by
  induction es with
  | nil => rfl
  | cons e es ih => cases es <;> simp_all [entryLiterals, entryLiteral]

theorem fieldLiterals_eq (es : List (String × Datum)) :
    fieldLiterals es = [',', ' '].intercalate (es.map fieldLiteral) := by
  induction es with
  | nil => rfl
  | cons e es ih => cases es <;> simp_all [fieldLiterals, fieldLiteral]

end Datum

/-- What may follow a literal in statement text: nothing, the end of a collection, what separates it
from another literal, or a blank. -/
def EndsLiteral (s : List Char) : Prop := ∀ c ∈ s.head?, c ∈ [',', ']', '\x7d', ':', ' ']

namespace EndsLiteral

theorem cons {c : Char} {s : List Char} (h : c ∈ [',', ']', '\x7d', ':', ' ']) :
    EndsLiteral (c :: s) := by
  intro d hd
  simp only [List.head?_cons, Option.mem_some_iff] at hd
  exact hd ▸ h

theorem stops {s : List Char} {p : Char → Bool} (h : EndsLiteral s)
    (hp : ([',', ']', '\x7d', ':', ' '].all fun c => !p c) = true) : Stops p s :=
  fun c hc => by simpa using List.all_eq_true.mp hp c (h c hc)

end EndsLiteral

section Heads

variable {d w : Datum} {s t : List Char}

/-- No literal begins like the end of a collection, and only null begins like null. -/
theorem literal_head (h : d.isExact = true) :
    ∃ c cs, d.literal = c :: cs ∧ c ≠ ']' ∧ c ≠ '\x7d' ∧ (c = 'n' → d = .null) := by
  have number (i : Int) : ∃ c cs, signed i = c :: cs ∧ c ≠ ']' ∧ c ≠ '\x7d' ∧ c ≠ 'n' := by
    obtain ⟨c, cs, hc, hd⟩ := signed_head i
    refine ⟨c, cs, hc, ?_⟩
    rcases hd with rfl | hd
    · decide
    · refine ⟨?_, ?_, ?_⟩ <;> rintro rfl <;> exact absurd hd (by decide)
  cases d with
  | null => exact ⟨'n', _, rfl, by decide, by decide, fun _ => rfl⟩
  | boolean b => cases b <;> exact ⟨_, _, rfl, by decide, by decide, by decide⟩
  | int i | bigint i | timestamp i =>
    obtain ⟨c, cs, hc, h₁, h₂, h₃⟩ := number i.toInt
    exact ⟨c, cs, hc, h₁, h₂, fun h => (h₃ h).elim⟩
  | float x | double x => simp [Datum.isExact] at h
  | uuid u =>
    obtain ⟨c, cs, hc, hd⟩ := u.render_head
    refine ⟨c, cs, hc, ?_, ?_, ?_⟩ <;> rintro rfl <;> exact absurd hd (by decide)
  | text v | blob v | list v | set v | map v | udt _ _ v =>
    exact ⟨_, _, rfl, by decide, by decide, by simp⟩

private theorem null_literal_inj (hw : w.isExact = true)
    (h : Datum.null.literal ++ s = w.literal ++ t) : Datum.null = w ∧ s = t := by
  obtain ⟨c, cs, hc, -, -, hn⟩ := literal_head hw
  rw [hc] at h
  have hw := hn (List.cons.inj h).1.symm
  subst hw
  rw [← hc] at h
  exact ⟨rfl, List.append_cancel_left h⟩

private theorem literal_null_inj (hd : d.isExact = true)
    (h : d.literal ++ s = Datum.null.literal ++ t) : d = Datum.null ∧ s = t :=
  (null_literal_inj hd h.symm).imp Eq.symm Eq.symm

private theorem closes {α : Type} {code : α → List Char} {xs : List α} {c : Char}
    (hc : c = ']' ∨ c = '\x7d')
    (hx : ∀ x ∈ xs, ∃ e cs, code x = e :: cs ∧ e ≠ ']' ∧ e ≠ '\x7d') :
    Closes code EndsLiteral [',', ' '] (c :: s) xs where
  ends := .cons (by rcases hc with rfl | rfl <;> decide)
  not_sep := by
    rintro ⟨r, hr⟩
    have := (List.cons.inj hr).1
    rcases hc with rfl | rfl <;> exact absurd this (by decide)
  not_member := by
    intro x hxs r h
    obtain ⟨e, cs, he, h₁, h₂⟩ := hx x hxs
    rw [he] at h
    have := (List.cons.inj h).1
    rcases hc with rfl | rfl
    · exact h₁ this.symm
    · exact h₂ this.symm

end Heads

section Collections

variable {s t : List Char}

private theorem separator_ends (r : List Char) : EndsLiteral ([',', ' '] ++ r) := .cons (by decide)

private theorem exact_heads {α : Type} {code : α → List Char} (first : α → Datum) {xs : List α}
    (hcode : ∀ x, ∃ r, code x = (first x).literal ++ r)
    (hx : ∀ x ∈ xs, (first x).isExact = true) :
    ∀ x ∈ xs, ∃ e cs, code x = e :: cs ∧ e ≠ ']' ∧ e ≠ '\x7d' := by
  intro x hm
  obtain ⟨r, hr⟩ := hcode x
  obtain ⟨e, cs, he, h₁, h₂, -⟩ := literal_head (hx x hm)
  exact ⟨e, cs ++ r, by rw [hr, he, List.cons_append], h₁, h₂⟩

private theorem items_append_inj {xs ys : List Datum} {c : Char} (hc : c = ']' ∨ c = '\x7d')
    (hx : ∀ x ∈ xs, x.isExact = true) (hy : ∀ y ∈ ys, y.isExact = true)
    (inj : ∀ x ∈ xs, ∀ y ∈ ys, ∀ s t, EndsLiteral s → EndsLiteral t →
      x.literal ++ s = y.literal ++ t → x = y ∧ s = t)
    (h : Datum.itemLiterals xs ++ c :: s = Datum.itemLiterals ys ++ c :: t) :
    xs = ys ∧ s = t := by
  rw [Datum.itemLiterals_eq, Datum.itemLiterals_eq] at h
  have self (x : Datum) : ∃ r, x.literal = (id x).literal ++ r := ⟨[], by simp⟩
  obtain ⟨hl, hst⟩ : xs.map id = ys.map id ∧ c :: s = c :: t := intercalate_append_inj
    (fun p hp => inj p.1 (List.of_mem_zip hp).1 p.2 (List.of_mem_zip hp).2) separator_ends
    (closes hc (exact_heads id self hy)) (closes hc (exact_heads id self hx)) h
  exact ⟨by simpa using hl, (List.cons.inj hst).2⟩

private theorem entries_append_inj {xs ys : List (Datum × Datum)}
    (hx : ∀ x ∈ xs, x.1.isExact = true) (hy : ∀ y ∈ ys, y.1.isExact = true)
    (injk : ∀ x ∈ xs, ∀ y ∈ ys, ∀ s t, EndsLiteral s → EndsLiteral t →
      x.1.literal ++ s = y.1.literal ++ t → x.1 = y.1 ∧ s = t)
    (injv : ∀ x ∈ xs, ∀ y ∈ ys, ∀ s t, EndsLiteral s → EndsLiteral t →
      x.2.literal ++ s = y.2.literal ++ t → x.2 = y.2 ∧ s = t)
    (h : Datum.entryLiterals xs ++ '\x7d' :: s = Datum.entryLiterals ys ++ '\x7d' :: t) :
    xs = ys ∧ s = t := by
  rw [Datum.entryLiterals_eq, Datum.entryLiterals_eq] at h
  have key_first (x : Datum × Datum) : ∃ r, Datum.entryLiteral x = x.1.literal ++ r := ⟨_, rfl⟩
  have inj : ∀ p ∈ xs.zip ys, ∀ s t, EndsLiteral s → EndsLiteral t →
      Datum.entryLiteral p.1 ++ s = Datum.entryLiteral p.2 ++ t → id p.1 = id p.2 ∧ s = t := by
    rintro ⟨⟨k, v⟩, ⟨l, w⟩⟩ hp s t hs ht h
    obtain ⟨hx, hy⟩ := List.of_mem_zip hp
    simp only [Datum.entryLiteral, List.append_assoc, List.cons_append] at h
    obtain ⟨hk, h⟩ := injk _ hx _ hy _ _ (.cons (by decide)) (.cons (by decide)) h
    simp only [List.cons.injEq, true_and] at h
    obtain ⟨hv, hst⟩ := injv _ hx _ hy _ _ hs ht h
    exact ⟨Prod.ext hk hv, hst⟩
  obtain ⟨hl, hst⟩ := intercalate_append_inj inj separator_ends
    (closes (Or.inr rfl) (exact_heads Prod.fst key_first hy))
    (closes (Or.inr rfl) (exact_heads Prod.fst key_first hx)) h
  exact ⟨by simpa using hl, (List.cons.inj hst).2⟩

private theorem exists_mem_zip {α β γ : Type} {xs : List α} {ys : List β} {zs : List γ}
    (hl : xs.length = zs.length) {p : α × β} (hp : p ∈ xs.zip ys) :
    ∃ z, (p.1, z) ∈ xs.zip zs ∧ (p.2, z) ∈ ys.zip zs := by
  obtain ⟨i, hi, rfl⟩ := List.mem_iff_getElem.mp hp
  rw [List.length_zip] at hi
  refine ⟨zs[i], ?_, ?_⟩ <;> rw [List.mem_iff_getElem] <;>
    exact ⟨i, by rw [List.length_zip]; omega, by simp⟩

private theorem fields_append_inj {xs ys : List (String × Datum)}
    (injv : ∀ p ∈ xs.zip ys, ∀ s t, EndsLiteral s → EndsLiteral t →
      p.1.2.literal ++ s = p.2.2.literal ++ t → p.1.2 = p.2.2 ∧ s = t)
    (h : Datum.fieldLiterals xs ++ '\x7d' :: s = Datum.fieldLiterals ys ++ '\x7d' :: t) :
    xs = ys ∧ s = t := by
  rw [Datum.fieldLiterals_eq, Datum.fieldLiterals_eq] at h
  have heads (zs : List (String × Datum)) :
      ∀ z ∈ zs, ∃ e cs, Datum.fieldLiteral z = e :: cs ∧ e ≠ ']' ∧ e ≠ '\x7d' := by
    intro z _
    obtain ⟨e, cs, he, hq⟩ := Identifier.quote_head z.1
    refine ⟨e, _, by rw [Datum.fieldLiteral, he, List.cons_append], ?_⟩
    rcases hq with rfl | hq
    · decide
    · constructor <;> rintro rfl <;> exact absurd hq (by decide)
  have inj : ∀ p ∈ xs.zip ys, ∀ s t, EndsLiteral s → EndsLiteral t →
      Datum.fieldLiteral p.1 ++ s = Datum.fieldLiteral p.2 ++ t → id p.1 = id p.2 ∧ s = t := by
    rintro ⟨⟨m, v⟩, ⟨n, w⟩⟩ hp s t hs ht h
    simp only [Datum.fieldLiteral, List.append_assoc, List.cons_append] at h
    obtain ⟨hn, h⟩ := Identifier.quote_append_inj (.cons (by decide)) (.cons (by decide)) h
    simp only [List.cons.injEq, true_and] at h
    obtain ⟨hv, hst⟩ := injv _ hp _ _ hs ht h
    exact ⟨Prod.ext hn hv, hst⟩
  obtain ⟨hl, hst⟩ := intercalate_append_inj inj separator_ends (closes (Or.inr rfl) (heads ys))
    (closes (Or.inr rfl) (heads xs)) h
  exact ⟨by simpa using hl, (List.cons.inj hst).2⟩

end Collections

variable {keyspace : String} {types : TypeDefs} {v w : Datum} {type : ColumnType} {s t : List Char}

/-- Values of one type that have no floating-point number in them are known from their literals, and
so is what follows a literal. -/
theorem Conforms.literal_append_inj (hv : Conforms keyspace types v type)
    (hw : Conforms keyspace types w type) (ev : v.isExact = true) (ew : w.isExact = true)
    (hs : EndsLiteral s) (ht : EndsLiteral t) (h : v.literal ++ s = w.literal ++ t) :
    v = w ∧ s = t := by
  induction hv generalizing w s t with
  | null => exact null_literal_inj ew h
  | boolean a =>
    cases hw with
    | null => exact literal_null_inj ev h
    | boolean b => cases a <;> cases b <;> simp_all [Datum.literal]
  | int i | bigint i | counter i | timestamp i =>
    cases hw
    · exact literal_null_inj ev h
    · obtain ⟨hij, hst⟩ := signed_append_inj (hs.stops (by decide)) (ht.stops (by decide)) h
      exact ⟨by simpa [Int32.toInt_inj, Int64.toInt_inj] using hij, hst⟩
  | float | double => simp [Datum.isExact] at ev
  | text a | ascii a =>
    cases hw
    · exact literal_null_inj ev h
    · obtain ⟨hab, hst⟩ := Quoted.enclose_append_inj (hs.stops (by decide)) (ht.stops (by decide)) h
      exact ⟨congrArg _ (String.toList_inj.1 hab), hst⟩
  | blob a =>
    cases hw with
    | null => exact literal_null_inj ev h
    | blob b =>
      have h := (List.cons.inj (List.cons.inj h).2).2
      obtain ⟨hab, hst⟩ := Hex.encode_append_inj (hs.stops (by decide)) (ht.stops (by decide)) h
      exact ⟨congrArg _ hab, hst⟩
  | uuid a | timeuuid a =>
    cases hw
    · exact literal_null_inj ev h
    · exact (Uuid.render_append_inj h).imp_left (congrArg _)
  | list hx ih =>
    cases hw with
    | null => exact literal_null_inj ev h
    | list hy =>
      simp only [Datum.isExact, Datum.itemsExact_iff] at ev ew
      simp only [Datum.literal, List.cons_append, List.append_assoc, List.nil_append,
        List.cons.injEq, true_and] at h
      obtain ⟨hij, hst⟩ := items_append_inj (Or.inl rfl) ev ew
        (fun x mx y my s t hs ht h => ih x mx (hy y my) (ev x mx) (ew y my) hs ht h) h
      exact ⟨congrArg _ hij, hst⟩
  | set _ hx ih =>
    cases hw with
    | null => exact literal_null_inj ev h
    | set _ hy =>
      simp only [Datum.isExact, Datum.itemsExact_iff] at ev ew
      simp only [Datum.literal, List.cons_append, List.append_assoc, List.nil_append,
        List.cons.injEq, true_and] at h
      obtain ⟨hij, hst⟩ := items_append_inj (Or.inr rfl) ev ew
        (fun x mx y my s t hs ht h => ih x mx (hy y my) (ev x mx) (ew y my) hs ht h) h
      exact ⟨congrArg _ hij, hst⟩
  | map _ _ ihk ihv =>
    cases hw with
    | null => exact literal_null_inj ev h
    | map hk hv =>
      simp only [Datum.isExact, Datum.entriesExact_iff] at ev ew
      simp only [Datum.literal, List.cons_append, List.append_assoc, List.nil_append,
        List.cons.injEq, true_and] at h
      obtain ⟨hij, hst⟩ := entries_append_inj (fun x mx => (ev x mx).1) (fun y my => (ew y my).1)
        (fun x mx y my s t hs ht h => ihk x mx (hk y my) (ev x mx).1 (ew y my).1 hs ht h)
        (fun x mx y my s t hs ht h => ihv x mx (hv y my) (ev x mx).2 (ew y my).2 hs ht h) h
      exact ⟨congrArg _ hij, hst⟩
  | @udt _ _ fields known names _ ih =>
    cases hw with
    | null => exact literal_null_inj ev h
    | @udt _ _ fields' known' _ hy =>
      obtain rfl := Option.some.inj (known.symm.trans known')
      simp only [Datum.isExact, Datum.fieldsExact_iff] at ev ew
      simp only [Datum.literal, List.cons_append, List.append_assoc, List.nil_append,
        List.cons.injEq, true_and] at h
      have inj : ∀ p ∈ fields.zip fields', ∀ s t, EndsLiteral s → EndsLiteral t →
          p.1.2.literal ++ s = p.2.2.literal ++ t → p.1.2 = p.2.2 ∧ s = t := by
        intro p mp s t hs ht h
        obtain ⟨mx, my⟩ := List.of_mem_zip mp
        obtain ⟨f, fx, fy⟩ := exists_mem_zip (by simpa using congrArg List.length names) mp
        exact ih _ fx (hy _ fy) (ev _ mx) (ew _ my) hs ht h
      obtain ⟨hij, hst⟩ := fields_append_inj inj h
      exact ⟨congrArg _ hij, hst⟩

/-- Literals of what conversion makes for a column type are unambiguous in every place they stand:
none can be taken for another one, and none reaches into the text after it. -/
theorem convert_literal_append_inj {b : Binder} {x y : Value} {path path' : String}
    (hx : b.convert x path type = .ok v) (hy : b.convert y path' type = .ok w)
    (ev : v.isExact = true) (ew : w.isExact = true) (hs : EndsLiteral s) (ht : EndsLiteral t)
    (h : v.literal ++ s = w.literal ++ t) : v = w ∧ s = t :=
  (b.convert_conforms x hx).literal_append_inj (b.convert_conforms y hy) ev ew hs ht h

/-- Quotes, separators and doubled quotes inside a key and a field name change nothing. -/
theorem quoted_separator_literal :
    let b : Binder := ⟨⟨⟨⟨"shop", "orders"⟩, []⟩, 0⟩,
      [("tag", ⟨⟨"shop", "tag"⟩, [("a\": ", .blob), ("n", .int)]⟩)]⟩
    let v : Datum := .map [(.text "it's', '", .udt "shop" "tag" [("a\": ", .null), ("n", .int (-5))])]
    let s := ", 0x00]".toList
    b.convert (.map [(.text "it's', '", .fields [("n", .int (-5))])]) "notes"
        (.map .text (.udt "tag")) = .ok v ∧
      b.convert (.map [(.enum "it's', '", .fields [("a\": ", .null), ("n", .int (-5))])]) "tags"
        (.map .text (.udt "tag")) = .ok v ∧
      v.isExact = true ∧ EndsLiteral s ∧ v.literal ++ s = v.literal ++ s ∧ v = v ∧ s = s := by
  intro b v s
  have hx : b.convert (.map [(.text "it's', '", .fields [("n", .int (-5))])]) "notes"
    (.map .text (.udt "tag")) = .ok v := rfl
  have hy : b.convert (.map [(.enum "it's', '", .fields [("a\": ", .null), ("n", .int (-5))])])
    "tags" (.map .text (.udt "tag")) = .ok v := rfl
  have hs : EndsLiteral s := .cons (by decide)
  exact ⟨hx, hy, rfl, hs, rfl, convert_literal_append_inj hx hy rfl rfl hs hs rfl⟩

end WideColumn
