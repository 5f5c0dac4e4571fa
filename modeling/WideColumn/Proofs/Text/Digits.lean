import WideColumn.Datum.Literal
import WideColumn.Proofs.Text.Delimited

/-!
Numbers, bytes and identifiers of fixed length are known from their text, and so is what follows
them.
-/
namespace WideColumn

section Numbers

variable {s t : List Char}

private theorem toDigits_append_inj {m n : Nat} (hs : Stops Char.isDigit s)
    (ht : Stops Char.isDigit t)
    (h : Nat.toDigits 10 m ++ s = Nat.toDigits 10 n ++ t) : m = n ∧ s = t := by
  have digits (n : Nat) : ∀ c ∈ Nat.toDigits 10 n, c.isDigit = true :=
    fun c hc => Nat.isDigit_of_mem_toDigits (by decide) (by decide) hc
  obtain ⟨hmn, hst⟩ := Stops.append_inj (digits m) (digits n) hs ht h
  have := congrArg (Nat.ofDigitChars 10 · 0) hmn
  exact ⟨by simpa using this, hst⟩

theorem signed_head (i : Int) : ∃ c cs, signed i = c :: cs ∧ (c = '-' ∨ c.isDigit = true) := by
  cases i with
  | negSucc n => exact ⟨'-', _, rfl, Or.inl rfl⟩
  | ofNat n =>
    rw [signed]
    cases h : Nat.toDigits 10 n with
    | nil => exact (Nat.toDigits_ne_nil h).elim
    | cons c cs =>
      have hc : c ∈ Nat.toDigits 10 n := by simp [h]
      exact ⟨c, cs, rfl, Or.inr (Nat.isDigit_of_mem_toDigits (by decide) (by decide) hc)⟩

private theorem toDigits_ne_minus (n : Nat) : Nat.toDigits 10 n ++ s ≠ '-' :: t := by
  intro h
  obtain ⟨c, cs, hc, hd⟩ := signed_head (.ofNat n)
  rw [signed] at hc
  rw [hc, List.cons_append, List.cons.injEq] at h
  have hm : c ∈ Nat.toDigits 10 n := by simp [hc]
  have hd := Nat.isDigit_of_mem_toDigits (by decide) (by decide) hm
  rw [h.1] at hd
  exact absurd hd (by decide)

/-- A signed number ends where its digits do. -/
theorem signed_append_inj {i j : Int} (hs : Stops Char.isDigit s) (ht : Stops Char.isDigit t)
    (h : signed i ++ s = signed j ++ t) : i = j ∧ s = t := by
  cases i with
  | ofNat m =>
    cases j with
    | ofNat n =>
      obtain ⟨hmn, hst⟩ := toDigits_append_inj hs ht h
      exact ⟨by rw [hmn], hst⟩
    | negSucc n => exact (toDigits_ne_minus m h).elim
  | negSucc m =>
    cases j with
    | ofNat n => exact (toDigits_ne_minus n h.symm).elim
    | negSucc n =>
      obtain ⟨hmn, hst⟩ := toDigits_append_inj hs ht (List.cons.inj h).2
      exact ⟨by rw [Nat.succ.inj hmn], hst⟩

end Numbers

namespace Hex

variable {s t : List Char}

def isDigit (c : Char) : Bool := (digit? c).isSome

private theorem isDigit_digitChar : ∀ n < 16, isDigit (Nat.digitChar n) = true := by decide

private theorem digitChar_inj : ∀ m < 16, ∀ n < 16, Nat.digitChar m = Nat.digitChar n → m = n := by
  decide

theorem isDigit_of_mem_digits (width n : Nat) : ∀ c ∈ digits width n, isDigit c = true := by
  induction width generalizing n with
  | zero => simp [digits]
  | succ w ih =>
    intro c hc
    rcases List.mem_append.mp hc with hc | hc
    · exact ih _ c hc
    · rw [List.mem_singleton.mp hc]
      exact isDigit_digitChar _ (by omega)

private theorem shiftRight_succ (n w : Nat) : n >>> (4 * (w + 1)) = (n / 16) >>> (4 * w) := by
  have h : n >>> (4 * 1) = n / 16 := Nat.shiftRight_eq_div_pow n 4
  rw [Nat.mul_add, Nat.add_comm, Nat.shiftRight_add, h]

theorem digits_add (v w n : Nat) : digits (v + w) n = digits v (n >>> (4 * w)) ++ digits w n := by
  induction w generalizing n with
  | zero => simp [digits]
  | succ w ih => rw [← Nat.add_assoc, digits, ih, digits, shiftRight_succ, List.append_assoc]

/-- A number is known from its low digits and what is above them. -/
theorem digits_inj {width m n : Nat} (h : digits width m = digits width n)
    (high : m >>> (4 * width) = n >>> (4 * width)) : m = n := by
  induction width generalizing m n with
  | zero => simpa using high
  | succ w ih =>
    obtain ⟨hd, hl⟩ := List.append_inj h (by simp)
    have hq := ih hd (by rw [← shiftRight_succ, high, shiftRight_succ])
    have hr := digitChar_inj _ (by omega) _ (by omega) (List.cons.inj hl).1
    omega

theorem isDigit_of_mem_encode (bs : List UInt8) : ∀ c ∈ encode bs, isDigit c = true := by
  intro c hc
  obtain ⟨b, -, hc⟩ := List.mem_flatMap.mp hc
  exact isDigit_of_mem_digits _ _ c hc

private theorem encode_injective {a b : List UInt8} (h : encode a = encode b) : a = b := by
  induction a generalizing b with
  | nil =>
    cases b with
    | nil => rfl
    | cons d b => simp [encode, digits] at h
  | cons c a ih =>
    cases b with
    | nil => simp [encode, digits] at h
    | cons d b =>
      rw [encode_cons, encode_cons] at h
      obtain ⟨hcd, h⟩ := List.append_inj h (by simp)
      have := digits_inj hcd (by
        rw [Nat.shiftRight_eq_div_pow, Nat.shiftRight_eq_div_pow, Nat.div_eq_of_lt c.toNat_lt,
          Nat.div_eq_of_lt d.toNat_lt])
      rw [UInt8.toNat_inj.1 this, ih h]

/-- The text of bytes ends where its digits do. -/
theorem encode_append_inj {a b : List UInt8} (hs : Stops isDigit s) (ht : Stops isDigit t)
    (h : encode a ++ s = encode b ++ t) : a = b ∧ s = t := by
  obtain ⟨hab, hst⟩ := Stops.append_inj (isDigit_of_mem_encode a) (isDigit_of_mem_encode b) hs ht h
  exact ⟨encode_injective hab, hst⟩

end Hex

namespace Uuid

theorem render_eq (u : Uuid) : ∃ a b c d e : List Char,
    u.render = a ++ '-' :: b ++ '-' :: c ++ '-' :: d ++ '-' :: e ∧
      a.length = 8 ∧ b.length = 4 ∧ c.length = 4 ∧ d.length = 4 ∧ e.length = 12 ∧
      a ++ (b ++ (c ++ (d ++ e))) = Hex.digits 32 u.value.toNat := by
  refine ⟨_, _, _, _, _, rfl, by simp, by simp, by simp, by simp, by simp, ?_⟩
  rw [Hex.digits_add 8 24, Hex.digits_add 4 20, Hex.digits_add 4 16, Hex.digits_add 4 12]
  rfl

/-- All identifiers are written with the same length. -/
theorem render_append_inj {u v : Uuid} {s t : List Char} (h : u.render ++ s = v.render ++ t) :
    u = v ∧ s = t := by
  obtain ⟨a, b, c, d, e, hu, ha, hb, hc, hd, he, hud⟩ := render_eq u
  obtain ⟨a', b', c', d', e', hv, ha', hb', hc', hd', he', hvd⟩ := render_eq v
  rw [hu, hv] at h
  simp only [List.append_assoc, List.cons_append] at h
  obtain ⟨haa, h⟩ := List.append_inj h (ha.trans ha'.symm)
  obtain ⟨hbb, h⟩ := List.append_inj (List.cons.inj h).2 (hb.trans hb'.symm)
  obtain ⟨hcc, h⟩ := List.append_inj (List.cons.inj h).2 (hc.trans hc'.symm)
  obtain ⟨hdd, h⟩ := List.append_inj (List.cons.inj h).2 (hd.trans hd'.symm)
  obtain ⟨hee, hst⟩ := List.append_inj (List.cons.inj h).2 (he.trans he'.symm)
  have digits : Hex.digits 32 u.value.toNat = Hex.digits 32 v.value.toNat := by
    rw [← hud, ← hvd, haa, hbb, hcc, hdd, hee]
  have high := Hex.digits_inj digits (by
    rw [Nat.shiftRight_eq_div_pow, Nat.shiftRight_eq_div_pow, Nat.div_eq_of_lt u.value.isLt,
      Nat.div_eq_of_lt v.value.isLt])
  cases u
  cases v
  exact ⟨by simpa [BitVec.toNat_inj] using high, hst⟩

theorem render_head (u : Uuid) : ∃ c cs, u.render = c :: cs ∧ Hex.isDigit c = true := by
  have hm := Hex.isDigit_of_mem_digits 8 (u.value.toNat >>> (4 * 24))
  cases h : Hex.digits 8 (u.value.toNat >>> (4 * 24)) with
  | nil => simpa using congrArg List.length h
  | cons c cs => exact ⟨c, _, by simp only [render, h]; rfl, hm c (by simp [h])⟩

end Uuid
end WideColumn
