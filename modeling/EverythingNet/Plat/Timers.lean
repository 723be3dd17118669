import Mathlib.Tactic
import EverythingNet.Host.Swap

/-!
The pacing of the main loop: `plat/common/posix_timers.c` and the end of the loop of `main`.

* `Abi`: the widths of `long` and `time_t`, and which of the two clocks is compiled in.
* `platEndTimer`, `usecToSleep`, `mainPause`: the code, from two readings of the clock to what
  `PLAT_USleep` is called with. A signed overflow leaves no value.
* `slept_pause`: how long the program sleeps, from the 32 bits that `PLAT_EndTimer` returns.
* `micros_near`: the difference that the code takes is the elapsed time, up to less than a
  microsecond. `pacing_iff`: when the program sleeps for the rest of half a second.
-/

namespace EverythingNet

/-! ### The code -/

/-- The width of an integer type of C. -/
inductive Width where
  | w32
  | w64
  deriving DecidableEq

namespace Width

def bits : Width → ℕ
  | w32 => 32
  | w64 => 64

/-- A signed value of this width. -/
def Fits (w : Width) (x : ℤ) : Prop := -2 ^ (w.bits - 1) ≤ x ∧ x < 2 ^ (w.bits - 1)

instance (w : Width) (x : ℤ) : Decidable (w.Fits x) := inferInstanceAs (Decidable (_ ∧ _))

/-- The result of a signed operation, which is undefined where it does not fit. -/
def signed (w : Width) (x : ℤ) : Option ℤ := if w.Fits x then some x else none

lemma signed_eq_some {w : Width} {x y : ℤ} : w.signed x = some y ↔ w.Fits x ∧ x = y := by
  rw [signed]
  split_ifs with h <;> simp [h]

/-- The type of an operation on values of two types. -/
def max : Width → Width → Width
  | w32, w32 => w32
  | _, _ => w64

end Width

/-- `EVRNET_TIMESPEC` or `EVRNET_TIMEVAL`. -/
inductive Timer where
  | timespec
  | timeval
  deriving DecidableEq

/-- How many units of the clock are a microsecond. -/
def Timer.units : Timer → ℕ
  | timespec => 1000
  | timeval => 1

/-- What the code is compiled for. -/
structure Abi where
  long : Width
  time : Width
  timer : Timer

/-- The type in which seconds and microseconds are added. -/
def Abi.wide (A : Abi) : Width := A.time.max A.long

/-- A reading of the clock: `tv_sec`, and `tv_nsec` or `tv_usec`. -/
structure ClockReading (A : Abi) where
  sec : ℤ
  frac : ℤ
  sec_fits : A.time.Fits sec
  frac_nonneg : 0 ≤ frac
  frac_lt : frac < 1000000 * A.timer.units

/-- `PLAT_EndTimer`. -/
def platEndTimer (A : Abi) (startTime endTime : ClockReading A) : Option U32 := do
  let sec ← A.time.signed (endTime.sec - startTime.sec)
  let sec ← A.wide.signed (sec * 1000000)
  let frac ← A.long.signed (endTime.frac - startTime.frac)
  let usec ← A.wide.signed (sec + match A.timer with
    | .timespec => frac.tdiv 1000
    | .timeval => frac)
  return BitVec.ofInt 32 usec

/-- `usecToSleep` of `main` after the subtraction. If `long` has 32 bits both sides are unsigned. -/
def usecToSleep : Width → U32 → ℤ
  | .w32, elapsed => ((500 * 1000 : U32) - elapsed).toInt
  | .w64, elapsed => 500 * 1000 - (elapsed.toNat : ℤ)

/-- What `main` passes to `PLAT_USleep`, if it calls it. -/
def pause (long : Width) (elapsed : U32) : Option U32 :=
  if 0 < usecToSleep long elapsed then some (BitVec.ofInt 32 (usecToSleep long elapsed)) else none

/-- The end of a round of the loop of `main`. -/
def mainPause (A : Abi) (startTime endTime : ClockReading A) : Option (Option U32) := do
  return pause A.long (← platEndTimer A startTime endTime)

/-- How long the program sleeps. -/
def slept (p : Option U32) : ℕ := (p.map BitVec.toNat).getD 0

/-! ### From the 32 bits on -/

/-- The program sleeps for what is left of half a second, unless the unsigned difference of a 32-bit
`long` is taken for a positive one. -/
lemma slept_pause (long : Width) (r : U32) :
    slept (pause long r)
      = if long = .w32 ∧ 2 ^ 31 + 500000 < r.toNat then 2 ^ 32 + 500000 - r.toNat
        else 500000 - r.toNat := by
  have hr := r.isLt
  have hpos : ∀ x : ℤ, 0 < x → x < 2 ^ 32 → slept (some (BitVec.ofInt 32 x)) = x.toNat := by
    intro x h0 hlt
    simp only [slept, Option.map_some, Option.getD_some, BitVec.toNat_ofInt]
    omega
  cases long with
  | w32 =>
      have hval : usecToSleep .w32 r = if 2 ^ 31 + 500000 < r.toNat
          then 2 ^ 32 + 500000 - (r.toNat : ℤ) else 500000 - (r.toNat : ℤ) := by
        have h500 : (500 * 1000 : U32).toNat = 500000 := rfl
        rw [usecToSleep, BitVec.toInt_eq_toNat_bmod, BitVec.toNat_sub, h500, Int.bmod_def]
        split_ifs <;> omega
      rw [pause, hval]
      by_cases hlate : 2 ^ 31 + 500000 < r.toNat
      · rw [if_pos hlate, if_pos (by omega), if_pos ⟨rfl, hlate⟩, hpos _ (by omega) (by omega)]
        omega
      · rw [if_neg hlate, if_neg (show ¬ (Width.w32 = .w32 ∧ _) from fun h => hlate h.2)]
        by_cases h : 0 < 500000 - (r.toNat : ℤ)
        · rw [if_pos h, hpos _ h (by omega)]
          omega
        · rw [if_neg h, slept, Option.map_none, Option.getD_none]
          omega
  | w64 =>
      have hval : usecToSleep .w64 r = 500000 - (r.toNat : ℤ) := by
        rw [usecToSleep]
        norm_num
      rw [pause, hval, if_neg (show ¬ (Width.w64 = .w32 ∧ _) from fun h => by simp at h)]
      by_cases h : 0 < 500000 - (r.toNat : ℤ)
      · rw [if_pos h, hpos _ h (by omega)]
        omega
      · rw [if_neg h, slept, Option.map_none, Option.getD_none]
        omega

/-! ### The elapsed time -/

section

variable {A : Abi}

/-- The elapsed time between two readings, in units of the clock. -/
def elapsedUnits (startTime endTime : ClockReading A) : ℤ :=
  (endTime.sec - startTime.sec) * (1000000 * A.timer.units) + (endTime.frac - startTime.frac)

/-- The difference of two readings in microseconds, the fractions rounded to zero. -/
def micros (startTime endTime : ClockReading A) : ℤ :=
  (endTime.sec - startTime.sec) * 1000000 + (endTime.frac - startTime.frac).tdiv A.timer.units

/-- Nothing on the way to the difference overflows. -/
structure Defined (startTime endTime : ClockReading A) : Prop where
  sec : A.time.Fits (endTime.sec - startTime.sec)
  usec : A.wide.Fits ((endTime.sec - startTime.sec) * 1000000)
  sum : A.wide.Fits (micros startTime endTime)

variable {startTime endTime : ClockReading A}

lemma fits_of_lt (w : Width) {x : ℤ} (h : -2 ^ 31 ≤ x) (h' : x < 2 ^ 31) : w.Fits x := by
  cases w <;> (simp only [Width.Fits, Width.bits]; omega)

/-- The fractions can always be subtracted. -/
lemma frac_fits (startTime endTime : ClockReading A) :
    A.long.Fits (endTime.frac - startTime.frac) := by
  have h0 := startTime.frac_nonneg
  have h1 := startTime.frac_lt
  have h2 := endTime.frac_nonneg
  have h3 := endTime.frac_lt
  have hunits : (A.timer.units : ℤ) ≤ 1000 := by cases A.timer <;> simp [Timer.units]
  exact fits_of_lt _ (by omega) (by omega)

/-- The difference is the elapsed time, up to less than a microsecond. -/
lemma micros_near (startTime endTime : ClockReading A) :
    |A.timer.units * micros startTime endTime - elapsedUnits startTime endTime|
      < A.timer.units := by
  have hpos : (0 : ℤ) < A.timer.units := by cases A.timer <;> simp [Timer.units]
  have hdiv := Int.mul_tdiv_add_tmod (endTime.frac - startTime.frac) A.timer.units
  have hlt := Int.tmod_lt_of_pos (endTime.frac - startTime.frac) hpos
  have hgt := Int.lt_tmod_of_pos (endTime.frac - startTime.frac) hpos
  have hrest : A.timer.units * micros startTime endTime - elapsedUnits startTime endTime
      = -(endTime.frac - startTime.frac).tmod A.timer.units := by
    rw [micros, elapsedUnits]
    linear_combination hdiv
  rw [hrest, abs_neg, abs_lt]
  exact ⟨hgt, hlt⟩

/-- `PLAT_EndTimer` returns the low bits of the difference, where that is defined. -/
lemma platEndTimer_eq_some {r : U32} :
    platEndTimer A startTime endTime = some r
      ↔ Defined startTime endTime ∧ r = BitVec.ofInt 32 (micros startTime endTime) := by
  have hfrac : (match A.timer with
      | .timespec => (endTime.frac - startTime.frac).tdiv 1000
      | .timeval => endTime.frac - startTime.frac)
      = (endTime.frac - startTime.frac).tdiv A.timer.units := by
    cases A.timer with
    | timespec => rfl
    | timeval => exact (Int.tdiv_one _).symm
  simp only [platEndTimer, Option.bind_eq_bind, Option.bind_eq_some_iff, Width.signed_eq_some,
    Option.pure_def, Option.some.injEq, and_assoc]
  constructor
  · rintro ⟨sec, hsec, rfl, usec, husec, rfl, frac, -, rfl, sum, hsum, rfl, rfl⟩
    rw [hfrac] at hsum ⊢
    exact ⟨⟨hsec, husec, hsum⟩, rfl⟩
  · rintro ⟨h, rfl⟩
    refine ⟨_, h.sec, rfl, _, h.usec, rfl, _, frac_fits _ _, rfl, _, ?_, rfl, ?_⟩
    · rw [hfrac]
      exact h.sum
    · rw [hfrac, micros]

/-! ### When a round is paced -/

/-- A round is paced: what `PLAT_USleep` is called with is never more than half a second, and if the
time between the readings is `t` microseconds the program sleeps for the rest of half a second. -/
def Paced (startTime endTime : ClockReading A) : Prop :=
  ∃ p, mainPause A startTime endTime = some p ∧ (∀ v, p = some v → v.toNat ≤ 500000)
    ∧ (0 ≤ elapsedUnits startTime endTime →
      ∃ t : ℕ, |A.timer.units * (t : ℤ) - elapsedUnits startTime endTime| < A.timer.units
        ∧ slept p = 500000 - t)

/-- The readings are such that the low 32 bits of the difference are as good as the difference. -/
structure OnTime (startTime endTime : ClockReading A) : Prop where
  defined : Defined startTime endTime
  late : 0 ≤ micros startTime endTime →
    micros startTime endTime < 500000 ∨ 500000 ≤ micros startTime endTime % 2 ^ 32
  narrow : A.long = .w32 → micros startTime endTime % 2 ^ 32 ≤ 2 ^ 31 + 500000

lemma bounded_iff (p : Option U32) : (∀ v, p = some v → v.toNat ≤ 500000) ↔ slept p ≤ 500000 := by
  cases p <;> simp [slept]

/-- A time that is as near to the elapsed one as the difference is next to it. -/
lemma near_micros {t : ℤ}
    (h : |A.timer.units * t - elapsedUnits startTime endTime| < A.timer.units) :
    t < micros startTime endTime + 2 ∧ micros startTime endTime < t + 2 := by
  have hnear := abs_lt.mp (micros_near startTime endTime)
  have h := abs_lt.mp h
  cases htimer : A.timer <;> (rw [htimer] at hnear h; simp only [Timer.units] at hnear h; omega)

/-- The elapsed time is negative, up to less than a microsecond, just if the difference is. -/
lemma micros_sign : (0 ≤ elapsedUnits startTime endTime → 0 ≤ micros startTime endTime)
    ∧ (0 < micros startTime endTime → 0 ≤ elapsedUnits startTime endTime) := by
  have hnear := abs_lt.mp (micros_near startTime endTime)
  cases htimer : A.timer <;> (rw [htimer] at hnear; simp only [Timer.units] at hnear; omega)

lemma mainPause_eq_some {p : Option U32} :
    mainPause A startTime endTime = some p ↔ Defined startTime endTime
      ∧ p = pause A.long (BitVec.ofInt 32 (micros startTime endTime)) := by
  simp only [mainPause, Option.bind_eq_bind, Option.bind_eq_some_iff, platEndTimer_eq_some,
    Option.pure_def, Option.some.injEq]
  constructor
  · rintro ⟨r, ⟨h, rfl⟩, rfl⟩
    exact ⟨h, rfl⟩
  · rintro ⟨h, rfl⟩
    exact ⟨_, ⟨h, rfl⟩, rfl⟩

/-- The program sleeps for what is left of half a second, and never longer, just if no difference
overflows, the low bits of a late one are late, and those of any are small enough for a `long` of 32
bits. -/
theorem pacing_iff (A : Abi) (startTime endTime : ClockReading A) :
    Paced startTime endTime ↔ OnTime startTime endTime := by
  have hlow : ((BitVec.ofInt 32 (micros startTime endTime)).toNat : ℤ)
      = micros startTime endTime % 2 ^ 32 := by
    rw [BitVec.toNat_ofInt]
    omega
  have hslept := slept_pause A.long (BitVec.ofInt 32 (micros startTime endTime))
  constructor
  · rintro ⟨p, hp, hbound, ht⟩
    obtain ⟨hdef, rfl⟩ := mainPause_eq_some.mp hp
    rw [bounded_iff, hslept] at hbound
    have hnarrow : ¬ (A.long = .w32 ∧
        2 ^ 31 + 500000 < (BitVec.ofInt 32 (micros startTime endTime)).toNat) := by
      intro h
      rw [if_pos h] at hbound
      omega
    refine ⟨hdef, fun h0 => ?_, fun hlong => ?_⟩
    · by_contra hlate
      rw [not_or] at hlate
      obtain ⟨t, hnear, hsleep⟩ := ht (micros_sign.2 (by omega))
      rw [hslept, if_neg hnarrow] at hsleep
      have hnext := near_micros hnear
      omega
    · by_contra hlate
      exact hnarrow ⟨hlong, by omega⟩
  · rintro ⟨hdef, hlate, hnarrow⟩
    have hslept' : slept (pause A.long (BitVec.ofInt 32 (micros startTime endTime)))
        = 500000 - (BitVec.ofInt 32 (micros startTime endTime)).toNat := by
      rw [hslept, if_neg]
      rintro ⟨hlong, hgt⟩
      have hle := hnarrow hlong
      omega
    refine ⟨_, mainPause_eq_some.mpr ⟨hdef, rfl⟩, ?_, fun h0 => ?_⟩
    · rw [bounded_iff, hslept']
      omega
    · have hnonneg := micros_sign.1 h0
      have hcases := hlate hnonneg
      refine ⟨(micros startTime endTime).toNat, ?_, ?_⟩
      · rw [Int.toNat_of_nonneg hnonneg]
        exact micros_near startTime endTime
      · rw [hslept']
        omega

end

/-! ### A clock that is set back -/

/-- A platform whose `long` and `time_t` have 32 bits. -/
def ilp32 : Abi := ⟨.w32, .w32, .timeval⟩

/-- A platform whose `long` and `time_t` have 64 bits. -/
def lp64 : Abi := ⟨.w64, .w64, .timeval⟩

/-- The clock shows so many seconds, on either platform. -/
def clock32 (sec : Fin 10000) : ClockReading ilp32 :=
  ⟨sec, 0, fits_of_lt _ (by omega) (by omega), le_rfl, by decide⟩

def clock64 (sec : Fin 10000) : ClockReading lp64 :=
  ⟨sec, 0, fits_of_lt _ (by omega) (by omega), le_rfl, by decide⟩

/-- If the clock is set back by a second, a `long` of 32 bits makes the program sleep for a second
and a half. After an hour, eleven minutes and a half a `long` of 64 bits makes it sleep although it
is late. -/
theorem clock_steps : mainPause ilp32 (clock32 100) (clock32 99) = some (some 1500000)
    ∧ mainPause lp64 (clock64 0) (clock64 4295) = some (some 467296) := by
  decide +kernel

end EverythingNet
