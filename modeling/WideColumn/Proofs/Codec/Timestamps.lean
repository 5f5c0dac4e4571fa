import WideColumn.Codec.Basic
import WideColumn.Plan.Binder

/-!
What becomes of a point in time that is written as a timestamp and read again.
-/
namespace WideColumn
namespace WallTime

instance : LE WallTime := ⟨fun t u => t.nanos ≤ u.nanos⟩

/-- The milliseconds of the time, without the fraction, are a signed 64-bit number. -/
def InMillis (t : WallTime) : Prop :=
  Int64.minValue.toInt ≤ t.nanos.tdiv 1_000_000 ∧ t.nanos.tdiv 1_000_000 ≤ Int64.maxValue.toInt

/-- The first time is the second or between it and the epoch. -/
def Within (t u : WallTime) : Prop :=
  0 ≤ t.nanos ∧ t.nanos ≤ u.nanos ∨ u.nanos ≤ t.nanos ∧ t.nanos ≤ 0

/-- Less than a millisecond apart. -/
def Near (t u : WallTime) : Prop := (t.nanos - u.nanos).natAbs < 1_000_000

instance (t u : WallTime) : Decidable (t ≤ u) := inferInstanceAs (Decidable (t.nanos ≤ u.nanos))

instance (t : WallTime) : Decidable t.InMillis := inferInstanceAs (Decidable (_ ∧ _))

instance (t u : WallTime) : Decidable (t.Near u) := inferInstanceAs (Decidable (_ < _))

variable {t u : WallTime} {ms : Int64}

theorem toInt_millis (t : WallTime) :
    t.millis.toInt = max (-9223372036854775807) (min 9223372036854775807 (t.nanos.tdiv 1_000_000)) := by
  rw [millis, Int64.toInt_ofInt_of_le]
  · rfl
  · rw [Int64.toInt_maxValue]
    omega
  · rw [Int64.toInt_maxValue]
    omega

theorem millis_mono (h : t ≤ u) : t.millis ≤ u.millis := by
  have counts : t.nanos.tdiv 1_000_000 ≤ u.nanos.tdiv 1_000_000 := Int.tdiv_le_tdiv (by decide) h
  rw [Int64.le_iff_toInt_le, toInt_millis, toInt_millis]
  omega

theorem nanos_ofMillis (ms : Int64) : (ofMillis ms).nanos = ms.toInt * 1_000_000 := rfl

/-- No count of milliseconds is further from the epoch than the clock of the host gets. -/
theorem ofMillis?_eq (ms : Int64) : ofMillis? ms = some (ofMillis ms) := by
  have low := ms.le_toInt
  have high := ms.toInt_lt
  refine if_pos ?_
  rw [second, nanos_ofMillis, Int64.toInt_minValue, Int64.toInt_maxValue]
  omega

/-- The least count is beyond what a time is written as. -/
theorem millis_ofMillis : (ofMillis ms).millis = ms ↔ ms ≠ Int64.minValue := by
  have low := ms.le_toInt
  have high := ms.toInt_lt
  rw [← Int64.toInt_inj, toInt_millis, nanos_ofMillis, Int.mul_tdiv_cancel _ (by decide), ne_eq,
    ← Int64.toInt_inj, Int64.toInt_minValue]
  omega

/-- The fraction has the sign of the time. -/
theorem fraction_sign (t : WallTime) :
    0 ≤ t.nanos ∧ 0 ≤ t.nanos.tmod 1_000_000 ∨ t.nanos ≤ 0 ∧ t.nanos.tmod 1_000_000 ≤ 0 := by
  obtain after | before := Int.le_total 0 t.nanos
  · exact .inl ⟨after, Int.tmod_nonneg _ after⟩
  · have mirrored := Int.tmod_nonneg 1_000_000 (Int.neg_nonneg_of_nonpos before)
    rw [Int.neg_tmod] at mirrored
    exact .inr ⟨before, Int.nonpos_of_neg_nonneg mirrored⟩

/-- Towards the epoch goes what the fraction is, and a whole millisecond where the count is the least. -/
theorem ofMillis_millis (counted : t.InMillis) :
    (ofMillis t.millis).Within t ∧
      ((ofMillis t.millis).Near t ↔ t.nanos.tdiv 1_000_000 ≠ Int64.minValue.toInt) := by
  have parts := Int.tmod_add_tdiv_mul t.nanos 1_000_000
  have below := Int.lt_tmod_of_pos t.nanos (b := 1_000_000) (by decide)
  have above := Int.tmod_lt_of_pos t.nanos (b := 1_000_000) (by decide)
  have sign := t.fraction_sign
  obtain ⟨low, high⟩ := counted
  rw [Int64.toInt_maxValue] at high
  rw [Int64.toInt_minValue] at low ⊢
  rw [Within, Near, nanos_ofMillis, toInt_millis]
  constructor <;> omega

end WallTime

namespace Codec

/-- Each timestamp is read as a time, and that is written as the timestamp again, if this is not the least
there is. Later times are written as later timestamps. In a column for timestamps a time goes less than a
millisecond towards the epoch, if it is not so long ago that its count of milliseconds is the least. -/
theorem wallTime_kept (b : Binder) (column label : String) :
    (∀ ms, ∃ t, wallTime.decode label (.timestamp ms) = .ok t ∧
      (wallTime.encode t = .timestamp ms ↔ ms ≠ Int64.minValue)) ∧
    (∀ t u : WallTime, t ≤ u → ∃ m n, wallTime.encode t = .timestamp m ∧
      wallTime.encode u = .timestamp n ∧ m ≤ n) ∧
    ∀ t : WallTime, t.InMillis → ∃ d back, b.convert (wallTime.encode t) column .timestamp = .ok d ∧
      wallTime.decode label d = .ok back ∧ back.Within t ∧
      (back.Near t ↔ t.nanos.tdiv 1_000_000 ≠ Int64.minValue.toInt) := by
  have read (ms : Int64) : wallTime.decode label (.timestamp ms) = .ok (.ofMillis ms) := by
    simp only [wallTime, WallTime.ofMillis?_eq]
  refine ⟨fun ms => ⟨.ofMillis ms, read ms, ?_⟩, fun t u earlier => ?_, fun t counted => ?_⟩
  · rw [← WallTime.millis_ofMillis]
    exact Value.timestamp.injEq _ _ ▸ Iff.rfl
  · exact ⟨t.millis, u.millis, rfl, rfl, WallTime.millis_mono earlier⟩
  · exact ⟨.timestamp t.millis, .ofMillis t.millis, rfl, read _, WallTime.ofMillis_millis counted⟩

/-- On both sides of the epoch, and at it, the fractions are left out. -/
theorem wallTime_around_epoch :
    let b : Binder := ⟨⟨⟨⟨"k", "a"⟩, [⟨"at", .timestamp, .regular⟩]⟩, 0⟩, []⟩
    let t : WallTime := ⟨-1_500_000⟩
    let u : WallTime := ⟨999_999⟩
    t ≤ u ∧ t.InMillis ∧
      (∃ back, wallTime.decode "at" (.timestamp (-1)) = .ok back ∧
        wallTime.encode back = .timestamp (-1)) ∧
      (∃ m n, wallTime.encode t = .timestamp m ∧ wallTime.encode u = .timestamp n ∧ m ≤ n) ∧
      ∃ d back, b.convert (wallTime.encode t) "at" .timestamp = .ok d ∧
        wallTime.decode "at" d = .ok back ∧ back.Within t ∧ back.Near t := by
  intro b t u
  have earlier : t ≤ u := by decide
  have counted : t.InMillis := by decide
  obtain ⟨timestamps, times, drift⟩ := wallTime_kept b "at" "at"
  obtain ⟨first, read, written⟩ := timestamps (-1)
  obtain ⟨d, back, stored, reread, within, near⟩ := drift t counted
  exact ⟨earlier, counted, ⟨first, read, written.mpr (by decide)⟩, times t u earlier,
    d, back, stored, reread, within, near.mpr (by decide)⟩

/-- The least timestamp comes back a millisecond later. -/
theorem least_timestamp_moves :
    ∃ t back, wallTime.decode "at" (.timestamp Int64.minValue) = .ok t ∧
      wallTime.encode t = .timestamp (-9223372036854775807) ∧
      wallTime.encode t ≠ .timestamp Int64.minValue ∧
      wallTime.decode "at" (.timestamp (-9223372036854775807)) = .ok back ∧ ¬ back.Near t :=
  ⟨⟨-9223372036854775808000000⟩, ⟨-9223372036854775807000000⟩, rfl, rfl,
    fun same => absurd (Value.timestamp.inj same) (by decide), rfl, by decide⟩

end Codec
end WideColumn
