import WebrtcStreamer.Media.Packetizer

/-!
# `Media.Timestamp` — the timestamps of frames

The time of a sample, in microseconds, is converted to seconds and from there to ticks of the clock of the
track, each time in `double`. For about 285 years the ticks are off by less than one, and never run backwards;
the timestamps of two frames are then as far apart as the frames are, although they start anywhere and wrap
around (`timestamps_elapse`).
-/

namespace WebrtcStreamer

namespace Media

/-- `ClockRate` of the packetizer. -/
def clockRate : UInt32 := 90000

/-- The ticks up to a time in microseconds, before they are cut to 32 bits. -/
def ticks (sampleTime : UInt64) : ℤ :=
  round (Rounding.roundTo 53
    (Rounding.roundTo 53 (Rounding.roundTo 53 sampleTime.toNat / 1000000) * clockRate.toNat))

theorem stamp_timestamp {config : RtpPacketizationConfig} (hrate : config.clockRate = clockRate)
    (sampleTime : UInt64) :
    (config.stamp (some (.ofMicroseconds sampleTime))).timestamp =
      config.startTimestamp + UInt32.ofNat (ticks sampleTime).toNat := by
  rw [ticks, ← hrate]
  rfl

theorem ticks_nonneg (sampleTime : UInt64) : 0 ≤ ticks sampleTime := by
  have hseconds : (0 : ℚ) ≤ Rounding.roundTo 53 (Rounding.roundTo 53 sampleTime.toNat / 1000000) :=
    Rounding.roundTo_nonneg 53 (div_nonneg (Rounding.roundTo_nonneg 53 (Nat.cast_nonneg _)) (by norm_num))
  have hticks := Rounding.roundTo_nonneg 53 (mul_nonneg hseconds (Nat.cast_nonneg clockRate.toNat))
  rw [ticks, round_eq]
  exact Int.floor_nonneg.mpr (by linarith)

/-- Time does not run backwards. -/
theorem ticks_mono {a b : UInt64} (h : a ≤ b) : ticks a ≤ ticks b := by
  have hcast : (a.toNat : ℚ) ≤ b.toNat := by exact_mod_cast UInt64.le_iff_toNat_le.mp h
  have hmicros := Rounding.roundTo_mono (p := 53) (by norm_num) (Nat.cast_nonneg a.toNat) hcast
  have hnonneg := Rounding.roundTo_nonneg 53 (q := a.toNat) (Nat.cast_nonneg _)
  have hseconds := Rounding.roundTo_mono (p := 53) (by norm_num)
    (div_nonneg hnonneg (by norm_num : (0 : ℚ) ≤ 1000000)) (div_le_div_of_nonneg_right hmicros (by norm_num))
  have hsnonneg := Rounding.roundTo_nonneg 53 (div_nonneg hnonneg (by norm_num : (0 : ℚ) ≤ 1000000))
  have hrate : (0 : ℚ) ≤ clockRate.toNat := Nat.cast_nonneg _
  have hticks := Rounding.roundTo_mono (p := 53) (by norm_num) (mul_nonneg hsnonneg hrate)
    (mul_le_mul_of_nonneg_right hseconds hrate)
  rw [ticks, ticks, round_eq, round_eq]
  exact Int.floor_mono (by linarith)

/-- **The ticks are right to less than one**: a half for the rounding to a whole tick, the rest for those to a
    `double`. -/
theorem abs_ticks_sub_le {sampleTime : UInt64} (h : sampleTime.toNat < 2 ^ 53) :
    |(ticks sampleTime : ℚ) - sampleTime.toNat * (9 / 100)| < 7 / 10 := by
  have hmicros : Rounding.roundTo 53 (sampleTime.toNat : ℚ) = sampleTime.toNat :=
    Rounding.roundTo_natCast (by norm_num) h.le
  have hlt : (sampleTime.toNat : ℚ) < 2 ^ 53 := by exact_mod_cast h
  have hnonneg : (0 : ℚ) ≤ sampleTime.toNat := Nat.cast_nonneg _
  have hrate : ((clockRate.toNat : ℕ) : ℚ) = 90000 := rfl
  rw [ticks, hmicros, hrate]
  generalize (sampleTime.toNat : ℚ) = micros at *
  have hseconds := Rounding.abs_roundTo_sub_le_mul 53 (div_nonneg hnonneg (by norm_num : (0 : ℚ) ≤ 1000000))
  have hsnonneg := Rounding.roundTo_nonneg 53 (div_nonneg hnonneg (by norm_num : (0 : ℚ) ≤ 1000000))
  generalize Rounding.roundTo 53 (micros / 1000000) = seconds at *
  have hproduct := Rounding.abs_roundTo_sub_le_mul 53
    (mul_nonneg hsnonneg (by norm_num : (0 : ℚ) ≤ 90000))
  generalize Rounding.roundTo 53 (seconds * 90000) = product at *
  have hround := abs_sub_round product
  rw [abs_le] at hround
  rw [← le_div_iff₀ (by positivity), abs_le] at hseconds hproduct
  norm_num at hseconds hproduct hlt
  rw [abs_lt]
  constructor <;> linarith [hseconds.1, hseconds.2, hproduct.1, hproduct.2, hround.1, hround.2]

/-- **Two timestamps are as far apart as their frames**, to less than one and a half ticks, for frames less than
    13 hours apart; and those of frames 16 microseconds apart are not the same. -/
theorem timestamps_elapse {config : RtpPacketizationConfig} (hrate : config.clockRate = clockRate) {a b : UInt64}
    (hle : a ≤ b) (hb : b.toNat < 2 ^ 53) (helapsed : b.toNat - a.toNat ≤ 13 * 3600 * 1000000) :
    let earlier := (config.stamp (some (.ofMicroseconds a))).timestamp
    let later := (config.stamp (some (.ofMicroseconds b))).timestamp
    |((later - earlier).toNat : ℚ) - (b.toNat - a.toNat : ℕ) * (9 / 100)| < 7 / 5 ∧
      (16 ≤ b.toNat - a.toNat → later ≠ earlier) := by
  intro earlier later
  have hlenat := UInt64.le_iff_toNat_le.mp hle
  have ha := abs_lt.mp (abs_ticks_sub_le (show a.toNat < 2 ^ 53 by omega))
  have hb' := abs_lt.mp (abs_ticks_sub_le hb)
  have hmono := ticks_mono hle
  have hnonneg := ticks_nonneg a
  have hcast : ((b.toNat - a.toNat : ℕ) : ℚ) = b.toNat - a.toNat := Nat.cast_sub hlenat
  have hapart : ((ticks b - ticks a : ℤ) : ℚ) < 2 ^ 32 := by
    have hq : ((b.toNat - a.toNat : ℕ) : ℚ) ≤ 13 * 3600 * 1000000 := by exact_mod_cast helapsed
    rw [hcast] at hq
    push_cast
    linarith [ha.1, ha.2, hb'.1, hb'.2]
  have hdiff : ((later - earlier).toNat : ℤ) = ticks b - ticks a := by
    have hlt : ticks b - ticks a < 2 ^ 32 := by exact_mod_cast hapart
    simp only [earlier, later, stamp_timestamp hrate, UInt32.toNat_sub, UInt32.toNat_add, UInt32.toNat_ofNat']
    have hstart := config.startTimestamp.toNat_lt
    omega
  have hdiffq : ((later - earlier).toNat : ℚ) = ticks b - ticks a := by exact_mod_cast hdiff
  refine ⟨?_, fun hsixteen heq => ?_⟩
  · rw [hdiffq, hcast, abs_lt]
    constructor <;> linarith [ha.1, ha.2, hb'.1, hb'.2]
  · have hsixteen' : (16 : ℚ) ≤ ((b.toNat - a.toNat : ℕ) : ℚ) := by exact_mod_cast hsixteen
    rw [hcast] at hsixteen'
    rw [heq, UInt32.sub_self] at hdiffq
    have hzero : ((0 : UInt32).toNat : ℚ) = 0 := by norm_num
    rw [hzero] at hdiffq
    linarith [ha.1, ha.2, hb'.1, hb'.2]

/-- A frame of each second. -/
theorem timestamps_elapse_second :
    let config : RtpPacketizationConfig := .new 1 [] 102 clockRate 0 4294967295
    let earlier := (config.stamp (some (.ofMicroseconds 1000000))).timestamp
    let later := (config.stamp (some (.ofMicroseconds 2000000))).timestamp
    |((later - earlier).toNat : ℚ) - (2000000 - 1000000 : ℕ) * (9 / 100)| < 7 / 5 ∧ later ≠ earlier := by
  intro config
  have h := @timestamps_elapse config rfl 1000000 2000000 (by decide) (by decide) (by decide)
  exact ⟨h.1, h.2 (by decide)⟩

end Media

end WebrtcStreamer
