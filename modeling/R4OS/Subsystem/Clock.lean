import R4OS.Numeric.CarriedDivision
import Mathlib.Order.MinMax

/-!
# The clock of a guest

A guest sees nanoseconds that pass while it is not paused.  Host ticks are converted when the clock is
brought up to date; the remainder of one conversion goes into the next one, and the nanoseconds
saturate.
-/

namespace R4OS.Subsystem

open Numeric

/-- The largest machine word. -/
def maxWord : Nat := 2 ^ 64 - 1

def nanoseconds_per_second : Nat := 1000000000

/-- Saturating addition. -/
def addSaturating (left right : Nat) : Nat := min (left + right) maxWord

structure GuestClock where
  monotonic_hz : Nat
  last_host_tick : Nat := 0
  guest_ns : Nat := 0
  remainder : Nat := 0
  paused : Bool := false

namespace GuestClock

/-- Bring the clock up to date. -/
def sync (clock : GuestClock) (host_tick : Nat) : GuestClock :=
  let delta := host_tick - clock.last_host_tick
  let clock := { clock with last_host_tick := host_tick }
  if clock.paused ∨ delta = 0 then clock
  else
    let product := delta * nanoseconds_per_second + clock.remainder
    let advanced := product / clock.monotonic_hz
    { clock with
      remainder := product % clock.monotonic_hz
      guest_ns := addSaturating clock.guest_ns (min advanced maxWord) }

def pause (clock : GuestClock) (host_tick : Nat) : GuestClock :=
  { clock.sync host_tick with paused := true }

def resumeAt (clock : GuestClock) (host_tick : Nat) : GuestClock :=
  { clock with last_host_tick := host_tick, paused := false }

def reset (clock : GuestClock) (host_tick : Nat) : GuestClock :=
  { clock with last_host_tick := host_tick, guest_ns := 0, remainder := 0, paused := false }

def ticksUntil (clock : GuestClock) (guest_deadline_ns : Nat) : Nat :=
  if guest_deadline_ns ≤ clock.guest_ns then 0
  else
    let delta := guest_deadline_ns - clock.guest_ns
    let product := delta * clock.monotonic_hz
    let ticks := (product + nanoseconds_per_second - 1) / nanoseconds_per_second
    min ticks maxWord

end GuestClock

inductive ClockCall
  | sync
  | pause
  | resumeAt
  | reset

/-- What a call at a host tick does to a clock. -/
def GuestClock.call (clock : GuestClock) : ClockCall × Nat → GuestClock
  | (.sync, host_tick) => clock.sync host_tick
  | (.pause, host_tick) => clock.pause host_tick
  | (.resumeAt, host_tick) => clock.resumeAt host_tick
  | (.reset, host_tick) => clock.reset host_tick

/-- The host time around a clock: the ticks since the last reset in which it was not paused, and those
of them that ended with a call of `resumeAt`. -/
structure HostTime where
  now : Nat
  paused : Bool := false
  unpaused : Nat := 0
  skipped : Nat := 0

namespace HostTime

/-- The ticks up to a call, while the clock is not paused. -/
def running (time : HostTime) (host_tick : Nat) : Nat :=
  if time.paused then 0 else host_tick - time.now

def call (time : HostTime) : ClockCall × Nat → HostTime
  | (.sync, tick) => { time with now := tick, unpaused := time.unpaused + time.running tick }
  | (.pause, tick) =>
    { time with now := tick, unpaused := time.unpaused + time.running tick, paused := true }
  | (.resumeAt, tick) =>
    { now := tick
      unpaused := time.unpaused + time.running tick
      skipped := time.skipped + time.running tick }
  | (.reset, tick) => { now := tick }

/-- The ticks that a clock counts. -/
def counted (time : HostTime) : Nat := time.unpaused - time.skipped

end HostTime

structure Shows (hz : Nat) (clock : GuestClock) (time : HostTime) : Prop where
  frequency : clock.monotonic_hz = hz
  tick : clock.last_host_tick = time.now
  paused : clock.paused = time.paused
  skipped : time.skipped ≤ time.unpaused
  guest_ns : clock.guest_ns = min (time.counted * nanoseconds_per_second / hz) maxWord
  remainder : clock.remainder = time.counted * nanoseconds_per_second % hz

section Exactness

variable {hz : Nat} {clock : GuestClock} {time : HostTime}

theorem shows_init (hz host_tick : Nat) :
    Shows hz { monotonic_hz := hz, last_host_tick := host_tick } { now := host_tick } where
  frequency := rfl
  tick := rfl
  paused := rfl
  skipped := le_rfl
  guest_ns := by simp [HostTime.counted]
  remainder := by simp [HostTime.counted]

theorem Shows.divides (shown : Shows hz clock time) :
    Carried.Divides ⟨time.counted * nanoseconds_per_second / hz, clock.remainder⟩ hz
      (time.counted * nanoseconds_per_second) :=
  ⟨rfl, shown.remainder⟩

theorem addSaturating_min (left right : Nat) :
    addSaturating (min left maxWord) (min right maxWord) = min (left + right) maxWord := by
  unfold addSaturating
  omega

theorem Shows.sync (shown : Shows hz clock time) (positive : 0 < hz) (host_tick : Nat) :
    Shows hz (clock.sync host_tick) (time.call (.sync, host_tick)) := by
  have running_eq : time.running host_tick =
      if clock.paused then 0 else host_tick - clock.last_host_tick := by
    rw [HostTime.running, shown.paused, shown.tick]
  have skipped := shown.skipped
  have counted_eq : (time.call (.sync, host_tick)).counted =
      time.counted + time.running host_tick := by
    simp only [HostTime.counted, HostTime.call]
    omega
  unfold GuestClock.sync
  dsimp only
  split
  · next still =>
    have stopped : time.running host_tick = 0 := by
      rw [running_eq]
      split
      · rfl
      · next going => exact still.resolve_left going
    rw [stopped, Nat.add_zero] at counted_eq
    exact ⟨shown.frequency, rfl, shown.paused, by simpa [HostTime.call, stopped] using skipped,
      by rw [counted_eq]; exact shown.guest_ns, by rw [counted_eq]; exact shown.remainder⟩
  · next moved =>
    have elapsed : time.running host_tick = host_tick - clock.last_host_tick := by
      rw [running_eq, if_neg (not_or.mp moved).1]
    have added := shown.divides.add positive (time.running host_tick * nanoseconds_per_second)
    rw [← Nat.add_mul, ← counted_eq] at added
    rw [← elapsed, shown.frequency, shown.guest_ns]
    exact ⟨rfl, rfl, shown.paused, Nat.le_add_right_of_le skipped,
      by rw [addSaturating_min, ← added.whole]; rfl, added.remainder⟩

theorem Shows.call (shown : Shows hz clock time) (positive : 0 < hz) (step : ClockCall × Nat) :
    Shows hz (clock.call step) (time.call step) := by
  obtain ⟨call, host_tick⟩ := step
  have synced := shown.sync positive host_tick
  cases call with
  | sync => exact synced
  | pause =>
    exact ⟨synced.frequency, synced.tick, rfl, synced.skipped, synced.guest_ns, synced.remainder⟩
  | resumeAt =>
    have skipped := shown.skipped
    have counted_eq : (time.call (.resumeAt, host_tick)).counted = time.counted := by
      simp only [HostTime.counted, HostTime.call]
      omega
    exact ⟨shown.frequency, rfl, rfl, by simp only [HostTime.call]; omega,
      by rw [counted_eq]; exact shown.guest_ns, by rw [counted_eq]; exact shown.remainder⟩
  | reset =>
    exact ⟨shown.frequency, rfl, rfl, le_rfl, by simp [HostTime.counted, HostTime.call,
      GuestClock.call, GuestClock.reset], by simp [HostTime.counted, HostTime.call,
      GuestClock.call, GuestClock.reset]⟩

theorem Shows.run (shown : Shows hz clock time) (positive : 0 < hz) (calls : List (ClockCall × Nat)) :
    Shows hz (calls.foldl GuestClock.call clock) (calls.foldl HostTime.call time) := by
  induction calls generalizing clock time with
  | nil => exact shown
  | cons step rest induction => exact induction (shown.call positive step)

end Exactness

/-- Division that rounds up. -/
def ceilDiv (value divisor : Nat) : Nat := (value + divisor - 1) / divisor

theorem le_ceilDiv_mul {divisor : Nat} (positive : 0 < divisor) (value : Nat) :
    value ≤ ceilDiv value divisor * divisor := by
  have parts := Nat.div_add_mod (value + divisor - 1) divisor
  have small := Nat.mod_lt (value + divisor - 1) positive
  rw [ceilDiv, Nat.mul_comm]
  omega

theorem ceilDiv_mul_le (value divisor : Nat) :
    ceilDiv value divisor * divisor ≤ value + divisor - 1 :=
  Nat.div_mul_le_self _ _

/-- The host ticks until a time of the guest before they are cut to a machine word. -/
def GuestClock.exactTicksUntil (clock : GuestClock) (guest_deadline_ns : Nat) : Nat :=
  ceilDiv ((guest_deadline_ns - clock.guest_ns) * clock.monotonic_hz) nanoseconds_per_second

section Waiting

variable {hz deadline waited : Nat} {clock : GuestClock} {time : HostTime}

theorem nanoseconds_positive : 0 < nanoseconds_per_second := by decide

theorem ticksUntil_eq (clock : GuestClock) (deadline : Nat) :
    clock.ticksUntil deadline = min (clock.exactTicksUntil deadline) maxWord := by
  rw [GuestClock.ticksUntil, GuestClock.exactTicksUntil]
  split
  · next passed =>
    rw [Nat.sub_eq_zero_of_le passed, Nat.zero_mul]
    rfl
  · rfl

section

variable (shown : Shows hz clock time)

include shown

theorem Shows.before (small : deadline ≤ maxWord) (before : clock.guest_ns < deadline) :
    clock.guest_ns = time.counted * nanoseconds_per_second / hz := by
  have shows := shown.guest_ns
  omega

theorem Shows.reached (positive : 0 < hz) (small : deadline ≤ maxWord)
    (enough : clock.exactTicksUntil deadline ≤ waited) :
    deadline ≤ min ((time.counted + waited) * nanoseconds_per_second / hz) maxWord := by
  refine le_min ?_ small
  by_cases passed : deadline ≤ clock.guest_ns
  · have shows := shown.guest_ns
    have later : time.counted * nanoseconds_per_second / hz ≤
        (time.counted + waited) * nanoseconds_per_second / hz :=
      Nat.div_le_div_right (Nat.mul_le_mul_right _ (Nat.le_add_right _ _))
    omega
  have now_eq := shown.before small (Nat.lt_of_not_le passed)
  have past := Nat.div_mul_le_self (time.counted * nanoseconds_per_second) hz
  have rounded := le_ceilDiv_mul nanoseconds_positive
    ((deadline - clock.guest_ns) * clock.monotonic_hz)
  have spent := Nat.mul_le_mul_right nanoseconds_per_second enough
  rw [← now_eq] at past
  rw [GuestClock.exactTicksUntil] at spent
  rw [shown.frequency] at rounded spent
  rw [Nat.le_div_iff_mul_le positive]
  calc deadline * hz = clock.guest_ns * hz + (deadline - clock.guest_ns) * hz := by
        rw [← Nat.add_mul, Nat.add_sub_cancel' (Nat.le_of_not_le passed)]
    _ ≤ time.counted * nanoseconds_per_second + waited * nanoseconds_per_second :=
        Nat.add_le_add past (rounded.trans spent)
    _ = (time.counted + waited) * nanoseconds_per_second := (Nat.add_mul _ _ _).symm

theorem Shows.waited_lt (positive : 0 < hz) (small : deadline ≤ maxWord)
    (before : clock.guest_ns < deadline) {early : Nat}
    (within : waited + early ≤ clock.exactTicksUntil deadline) :
    (time.counted + waited) * nanoseconds_per_second + early * nanoseconds_per_second + 1 <
      deadline * hz + hz + nanoseconds_per_second := by
  have now_eq := shown.before small before
  have parts := Nat.div_add_mod (time.counted * nanoseconds_per_second) hz
  have rest := Nat.mod_lt (time.counted * nanoseconds_per_second) positive
  have rounded := ceilDiv_mul_le ((deadline - clock.guest_ns) * clock.monotonic_hz)
    nanoseconds_per_second
  have spent := Nat.mul_le_mul_right nanoseconds_per_second within
  have whole : clock.guest_ns * hz + (deadline - clock.guest_ns) * hz = deadline * hz := by
    rw [← Nat.add_mul, Nat.add_sub_cancel' before.le]
  rw [← now_eq, Nat.mul_comm] at parts
  rw [GuestClock.exactTicksUntil] at spent
  rw [shown.frequency] at rounded spent
  rw [Nat.add_mul] at spent ⊢
  have second := nanoseconds_positive
  omega

theorem Shows.unreached (positive : 0 < hz) (small : deadline ≤ maxWord)
    (early : waited + (1 + ceilDiv hz nanoseconds_per_second) ≤ clock.exactTicksUntil deadline) :
    min ((time.counted + waited) * nanoseconds_per_second / hz) maxWord < deadline := by
  by_cases passed : deadline ≤ clock.guest_ns
  · have none_left : clock.exactTicksUntil deadline = 0 := by
      rw [GuestClock.exactTicksUntil, Nat.sub_eq_zero_of_le passed, Nat.zero_mul]
      rfl
    omega
  refine Nat.lt_of_le_of_lt (min_le_left _ _) ?_
  have bound := shown.waited_lt positive small (Nat.lt_of_not_le passed) early
  have rounded := le_ceilDiv_mul nanoseconds_positive hz
  rw [Nat.div_lt_iff_lt_mul positive]
  rw [Nat.add_mul 1, Nat.one_mul] at bound
  omega

theorem Shows.overrun (positive : 0 < hz) (small : deadline ≤ maxWord)
    (before : clock.guest_ns < deadline) (within : waited ≤ clock.exactTicksUntil deadline) :
    (time.counted + waited) * nanoseconds_per_second / hz ≤
      deadline + ceilDiv nanoseconds_per_second hz := by
  have bound := shown.waited_lt positive small before
    (show waited + 0 ≤ clock.exactTicksUntil deadline from within)
  have rounded := le_ceilDiv_mul positive nanoseconds_per_second
  rw [Nat.zero_mul, Nat.add_zero] at bound
  rw [← Nat.lt_add_one_iff, Nat.div_lt_iff_lt_mul positive, Nat.add_mul _ 1, Nat.one_mul,
    Nat.add_mul deadline]
  omega

end

theorem GuestClock.sync_self {host_tick : Nat}
    (same : clock.last_host_tick = host_tick) : clock.sync host_tick = clock := by
  cases same
  simp [GuestClock.sync]

theorem Shows.waits (shown : Shows hz clock time) (positive : 0 < hz) {host_tick wait : Nat}
    (within : wait ≤ (clock.sync host_tick).ticksUntil deadline) :
    ((clock.sync host_tick).sync (host_tick + wait)).guest_ns ≤
      max (clock.sync host_tick).guest_ns (deadline + ceilDiv nanoseconds_per_second hz) := by
  have now := shown.sync positive host_tick
  have later := now.sync positive (host_tick + wait)
  have ticks := ticksUntil_eq (clock.sync host_tick) deadline
  have shows := later.guest_ns
  by_cases passed : deadline ≤ (clock.sync host_tick).guest_ns
  · have none_left : wait = 0 := by
      rw [GuestClock.ticksUntil, if_pos passed] at within
      omega
    have settled : (clock.sync host_tick).last_host_tick = host_tick := now.tick
    rw [none_left, Nat.add_zero, GuestClock.sync_self settled]
    exact le_max_left _ _
  · by_cases small : deadline ≤ maxWord
    · have skipped := now.skipped
      have elapsed : (time.call (.sync, host_tick)).running (host_tick + wait) ≤ wait := by
        unfold HostTime.running
        split
        · exact Nat.zero_le _
        · simp [HostTime.call]
      have counted_eq : ((time.call (.sync, host_tick)).call (.sync, host_tick + wait)).counted =
          (time.call (.sync, host_tick)).counted +
            (time.call (.sync, host_tick)).running (host_tick + wait) := by
        simp only [HostTime.counted, HostTime.call] at skipped ⊢
        omega
      have bound := now.overrun positive small (Nat.lt_of_not_le passed)
        (show (time.call (.sync, host_tick)).running (host_tick + wait) ≤ _ by omega)
      rw [counted_eq] at shows
      omega
    · omega

end Waiting

end R4OS.Subsystem
