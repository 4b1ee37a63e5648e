import IotcRa8p1.App.Time

/-!
# The clock of the video stack (`ra8p1_platform_port.c`)

`clock_gettime` puts together whole seconds from `iotc_time_now` and milliseconds from the tick counter, each
with a reading of its own, and `sntp_get_lasttime` adds a third reading.  The tick can advance between them.

`clock_lawful_iff` says for which readings the clock never runs backwards and a projection of
`sntp_get_lasttime` gives the clock at the later tick.
-/

namespace IotcRa8p1.App.ClockGettime

open Clock Time

/-- `portTICK_PERIOD_MS` -/
abbrev portTickPeriodMs : ℕ := 1000 / configTickRateHz

/-- `struct timespec` -/
structure Timespec where
  sec : ℤ
  nsec : ℕ
  deriving DecidableEq

/-- Not later. -/
def Timespec.Le (a b : Timespec) : Prop := a.sec < b.sec ∨ a.sec = b.sec ∧ a.nsec ≤ b.nsec

/-- `clock_gettime`; the tick counter is read by it and then by `iotc_time_now`. -/
def clockGettime (t : TimeState) (first second : ℕ) : Timespec :=
  let ms := first % configTickRateHz * portTickPeriodMs
  ⟨iotcTimeNow t second, ms % 1000 * 1000000⟩

/-- `sec`, `usec` and `tick`. -/
structure Lasttime where
  sec : ℤ
  usec : ℕ
  tick : ℕ
  deriving DecidableEq

/-- `sntp_get_lasttime`, with a third reading. -/
def sntpGetLasttime (t : TimeState) (first second third : ℕ) : Lasttime :=
  let ts := clockGettime t first second
  ⟨ts.sec, ts.nsec / 1000, third⟩

/-- The loop of `NetworkingUtils_GetCurrentTimeUs` that carries microseconds over. -/
def carry (sec : ℤ) (usec : ℕ) : ℤ × ℕ :=
  if h : 1000000 ≤ usec then carry (sec + 1) (usec - 1000000) else (sec, usec)
termination_by usec
decreasing_by omega

/-- `NetworkingUtils_GetCurrentTimeUs`, from the last time to a tick. -/
def project (last : Lasttime) (tick : ℕ) : ℤ × ℕ :=
  let tickDiff := elapsed (2 ^ 32) last.tick tick
  carry (last.sec + (tickDiff / configTickRateHz : ℕ))
    (last.usec + tickDiff % configTickRateHz / portTickPeriodMs * 1000)

theorem carry_eq (sec : ℤ) (usec : ℕ) :
    carry sec usec = (sec + (usec / 1000000 : ℕ), usec % 1000000) := by
  induction sec, usec using carry.induct with
  | case1 sec usec h ih =>
    rw [carry, dif_pos h, ih, Prod.mk.injEq]
    constructor
    · omega
    · omega
  | case2 sec usec h =>
    have hdiv : usec / 1000000 = 0 := Nat.div_eq_of_lt (by omega)
    have hmod : usec % 1000000 = usec := Nat.mod_eq_of_lt (by omega)
    rw [carry, dif_neg h, hdiv, hmod, Nat.cast_zero, add_zero]

/-! ### Calls in order -/

/-- The readings of a call; `third` is there when it is one of `sntp_get_lasttime`. -/
structure Call where
  first : ℕ
  second : ℕ
  third : Option ℕ
  deriving DecidableEq

def Call.readings (c : Call) : List ℕ := c.first :: c.second :: c.third.toList

/-- The second boundaries between the two readings of `clock_gettime`. -/
def Call.crossed (c : Call) : ℕ := c.second / configTickRateHz - c.first / configTickRateHz

/-- Calls whose readings of the 32-bit counter do not decrease, none between them a sync. -/
structure Calls where
  list : List Call
  ordered : (list.flatMap Call.readings).Pairwise (· ≤ ·)
  bounded : ∀ r ∈ list.flatMap Call.readings, r < 2 ^ 32

def Call.time (c : Call) (t : TimeState) : Timespec := clockGettime t c.first c.second

structure Lawful (t : TimeState) (calls : Calls) : Prop where
  monotone : calls.list.Pairwise fun c d => (c.time t).Le (d.time t)
  nsec : ∀ c ∈ calls.list, (c.time t).nsec < 10 ^ 9
  projection : ∀ c ∈ calls.list, ∀ third ∈ c.third, ∀ tick, third ≤ tick → tick < 2 ^ 32 →
    project (sntpGetLasttime t c.first c.second third) tick =
      ((clockGettime t tick tick).sec, (clockGettime t tick tick).nsec / 1000)

/-- A boundary that a call has crossed is made up for before the next call, and before the third
reading. -/
structure Steady (calls : Calls) : Prop where
  next : calls.list.Pairwise fun c d =>
    c.first + configTickRateHz * c.crossed ≤ d.first + configTickRateHz * d.crossed
  third : ∀ c ∈ calls.list, ∀ third ∈ c.third, third = c.first + configTickRateHz * c.crossed

/-! ### What a call shows -/

theorem Calls.le {calls : Calls} {c : Call} (hc : c ∈ calls.list) :
    c.first ≤ c.second ∧ ∀ third ∈ c.third, c.second ≤ third ∧ third < 2 ^ 32 := by
  have hsub : c.readings.Sublist (calls.list.flatMap Call.readings) :=
    List.sublist_flatten_of_mem (List.mem_map_of_mem hc)
  have hordered := calls.ordered.sublist hsub
  rw [Call.readings, List.pairwise_cons, List.pairwise_cons] at hordered
  refine ⟨hordered.1 _ List.mem_cons_self, fun third hthird => ?_⟩
  have hmem : third ∈ c.third.toList := Option.mem_toList.mpr hthird
  have hlast : third ∈ c.readings := List.mem_cons_of_mem _ (List.mem_cons_of_mem _ hmem)
  exact ⟨hordered.2.1 _ hmem, calls.bounded _ (hsub.subset hlast)⟩

/-- The seconds are those of the first reading and the boundaries crossed since. -/
theorem Call.time_eq {c : Call} (hle : c.first ≤ c.second) (epoch : ℤ) :
    c.time ⟨epoch, true⟩ = ⟨epoch + ((c.first + configTickRateHz * c.crossed) / 1000 : ℕ),
      (c.first + configTickRateHz * c.crossed) % 1000 * 1000000⟩ := by
  have hdiv : c.first / 1000 ≤ c.second / 1000 := Nat.div_le_div_right hle
  simp only [Call.time, clockGettime, iotcTimeNow, Call.crossed, configTickRateHz, portTickPeriodMs,
    Bool.true_eq_false, if_false, Timespec.mk.injEq]
  constructor
  · omega
  · omega

theorem le_iff (epoch : ℤ) (a b : ℕ) :
    Timespec.Le ⟨epoch + (a / 1000 : ℕ), a % 1000 * 1000000⟩
      ⟨epoch + (b / 1000 : ℕ), b % 1000 * 1000000⟩ ↔ a ≤ b := by
  simp only [Timespec.Le]
  omega

/-- A projection adds the ticks to what the call showed. -/
theorem project_eq {c : Call} (hle : c.first ≤ c.second) (epoch : ℤ) {third tick : ℕ}
    (hthird : third ≤ tick) (htick : tick < 2 ^ 32) :
    project (sntpGetLasttime ⟨epoch, true⟩ c.first c.second third) tick =
      (epoch + ((c.first + configTickRateHz * c.crossed + (tick - third)) / 1000 : ℕ),
        (c.first + configTickRateHz * c.crossed + (tick - third)) % 1000 * 1000) := by
  have helapsed : elapsed (2 ^ 32) third tick = tick - third := by
    have h := elapsed_readings (m := 2 ^ 32) (by decide) hthird
    rwa [Nat.mod_eq_of_lt (by omega), Nat.mod_eq_of_lt htick, Nat.mod_eq_of_lt (by omega)] at h
  have htime : clockGettime ⟨epoch, true⟩ c.first c.second = _ := Call.time_eq hle epoch
  generalize c.first + configTickRateHz * c.crossed = shown at htime ⊢
  simp only [project, sntpGetLasttime, htime, helapsed, carry_eq, configTickRateHz, portTickPeriodMs,
    Prod.mk.injEq]
  constructor
  · omega
  · omega

/-- The clock at a tick. -/
theorem clockGettime_tick (epoch : ℤ) (tick : ℕ) :
    clockGettime ⟨epoch, true⟩ tick tick = ⟨epoch + (tick / 1000 : ℕ), tick % 1000 * 1000000⟩ := by
  have h := Call.time_eq (c := ⟨tick, tick, none⟩) (Nat.le_refl tick) epoch
  rwa [show Call.crossed ⟨tick, tick, none⟩ = 0 from Nat.sub_self _, Nat.mul_zero, Nat.add_zero] at h

/-- **A clock that does not run backwards.**  Between two syncs the calls show times in order, with
nanoseconds below a second, and a last time projected to a later tick is the clock there, exactly when every
second boundary crossed inside a call has passed before the next reading. -/
theorem clock_lawful_iff (epoch : ℤ) (calls : Calls) :
    Lawful ⟨epoch, true⟩ calls ↔ Steady calls := by
  have hmono {c d : Call} (hc : c ∈ calls.list) (hd : d ∈ calls.list) :
      (c.time ⟨epoch, true⟩).Le (d.time ⟨epoch, true⟩) ↔
        c.first + configTickRateHz * c.crossed ≤ d.first + configTickRateHz * d.crossed := by
    rw [Call.time_eq (Calls.le hc).1, Call.time_eq (Calls.le hd).1, le_iff]
  constructor
  · intro h
    constructor
    · exact h.monotone.imp_of_mem fun hc hd => (hmono hc hd).mp
    · intro c hc third hthird
      have hlt := ((Calls.le hc).2 third hthird).2
      have hproj := h.projection c hc third hthird third (Nat.le_refl _) hlt
      rw [project_eq (Calls.le hc).1 epoch (Nat.le_refl _) hlt, clockGettime_tick,
        Prod.mk.injEq] at hproj
      obtain ⟨hsec, husec⟩ := hproj
      dsimp only at hsec husec
      omega
  · intro h
    constructor
    · exact h.next.imp_of_mem fun hc hd => (hmono hc hd).mpr
    · intro c hc
      rw [Call.time_eq (Calls.le hc).1]
      dsimp only
      omega
    · intro c hc third hthird tick hle htick
      rw [project_eq (Calls.le hc).1 epoch hle htick, clockGettime_tick, ← h.third c hc third hthird,
        Prod.mk.injEq]
      have hsum : third + (tick - third) = tick := by omega
      rw [hsum]
      constructor
      · rfl
      · dsimp only
        omega

/-- Read at 1999 and 2000, and then at 2000. -/
def tornCalls : Calls where
  list := [⟨1999, 2000, none⟩, ⟨2000, 2000, none⟩]
  ordered := by decide
  bounded := by decide

/-- The clock shows 2.999 s and then 2.000 s. -/
theorem clock_runs_backwards : ¬ ∀ (epoch : ℤ) (calls : Calls), Lawful ⟨epoch, true⟩ calls := by
  intro h
  have hpair := List.pairwise_pair.mp (h 0 tornCalls).monotone
  exact absurd hpair (by unfold Timespec.Le; decide)

end IotcRa8p1.App.ClockGettime
