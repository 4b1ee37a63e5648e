import IotcRa8p1.Lib.ByteMem
import IotcRa8p1.Lib.Clock
import IotcRa8p1.Lib.Machine
import Mathlib.Data.Rat.Floor

/-!
# The wall clock (`iotc_time.c`)

`iotc_time_sync` latches UTC against the tick counter: it keeps `s_epoch_at_boot`, the whole seconds of
an SNTP reply minus the whole seconds on the counter, and `iotc_time_now` adds the counter back.

Both the counter and the seconds field of the reply have 32 bits.  `wallClock_iff` says which runs are
right: those in which no reply comes after the NTP seconds have wrapped, and nothing is read after the
counter has wrapped since the last sync.
-/

namespace IotcRa8p1.App.Time

open ByteMem Clock Machine

abbrev configTickRateHz : ℕ := 1000

abbrev sntpPacketSize : ℤ := 48

/-- 1900 -> 1970 -/
abbrev sntpUnixOffset : ℕ := 2208988800

/-- `s_epoch_at_boot` (UTC seconds minus uptime seconds) and `s_synced`. -/
structure TimeState where
  epochAtBoot : ℤ
  synced : Bool
  deriving DecidableEq

/-- What the network calls of one exchange return: `FreeRTOS_gethostbyname` (0 for failure), whether
there is a socket, `FreeRTOS_sendto`, `FreeRTOS_recvfrom`, and the packet behind it. -/
structure SntpAnswers where
  ip : ℕ
  socket : Bool
  sent : ℤ
  received : ℤ
  pkt : Mem

/-- Transmit timestamp seconds, bytes 40..43, big endian. -/
def transmitSeconds (pkt : Mem) : ℕ :=
  (pkt 40).toNat * 2 ^ 24 + (pkt 41).toNat * 2 ^ 16 + (pkt 42).toNat * 2 ^ 8 + (pkt 43).toNat

/-- `iotc_time_sync` when the tick counter reads `tick`. -/
def iotcTimeSync (t : TimeState) (ans : SntpAnswers) (tick : ℕ) : ℤ × TimeState :=
  if ans.ip = 0 then (-1, t)
  else if ans.socket = false then (-1, t)
  else if ans.sent = sntpPacketSize then
    if sntpPacketSize ≤ ans.received then
      let secs := transmitSeconds ans.pkt
      if sntpUnixOffset < secs then
        let now : ℤ := (secs - sntpUnixOffset : ℕ)
        let uptimeS : ℤ := (tick / configTickRateHz : ℕ)
        (0, { epochAtBoot := now - uptimeS, synced := true })
      else (-1, t)
    else (-1, t)
  else (-1, t)

/-- `iotc_time_now` when the tick counter reads `tick`. -/
def iotcTimeNow (t : TimeState) (tick : ℕ) : ℤ :=
  if t.synced = false then 0 else t.epochAtBoot + (tick / configTickRateHz : ℕ)

/-- The exchange came through: there is a packet to read the seconds from. -/
def SntpAnswers.answered (ans : SntpAnswers) : Bool :=
  ans.ip ≠ 0 && ans.socket && ans.sent = sntpPacketSize && sntpPacketSize ≤ ans.received

/-- **Spec of `iotc_time_sync`.**  It succeeds exactly when the seconds of a packet lie behind the
offset, and otherwise leaves the clock as it was. -/
theorem iotcTimeSync_cases (t : TimeState) (ans : SntpAnswers) (tick : ℕ) :
    (ans.answered = true ∧ sntpUnixOffset < transmitSeconds ans.pkt ∧
      iotcTimeSync t ans tick =
        (0, ⟨(transmitSeconds ans.pkt : ℤ) - sntpUnixOffset - (tick / configTickRateHz : ℕ), true⟩)) ∨
    ((ans.answered = true → transmitSeconds ans.pkt ≤ sntpUnixOffset) ∧
      iotcTimeSync t ans tick = (-1, t)) := by
  simp only [SntpAnswers.answered, Bool.and_eq_true, decide_eq_true_eq]
  dsimp only [iotcTimeSync]
  split_ifs with h1 h2 h3 h4 h5
  · exact Or.inr ⟨fun h => absurd h1 h.1.1.1, rfl⟩
  · exact Or.inr ⟨fun h => absurd h.1.1.2 (by simp [h2]), rfl⟩
  · refine Or.inl ⟨⟨⟨⟨h1, by simpa using h2⟩, h3⟩, h4⟩, h5, ?_⟩
    rw [Nat.cast_sub h5.le]
  · exact Or.inr ⟨fun _ => not_lt.mp h5, rfl⟩
  · exact Or.inr ⟨fun h => absurd h.2 h4, rfl⟩
  · exact Or.inr ⟨fun h => absurd h.1.2 h3, rfl⟩

/-! ### Runs against true time -/

variable {K : Type*} [Field K] [LinearOrder K] [FloorRing K]

/-- When the device booted: seconds since 1970. -/
structure Timeline (K : Type*) [Field K] [LinearOrder K] where
  utcAtBoot : K
  after1970 : 0 ≤ utcAtBoot

/-- True UTC in whole seconds at an uptime. -/
def Timeline.utc (tl : Timeline K) (u : K) : ℤ := ⌊tl.utcAtBoot + u⌋

/-- The 32-bit seconds field of NTP at an uptime. -/
def Timeline.ntpSeconds (tl : Timeline K) (u : K) : ℤ := (tl.utc u + sntpUnixOffset) % 2 ^ 32

/-- `xTaskGetTickCount`, 32 bits. -/
def tickCount (u : K) : ℕ := counter (2 ^ 32) configTickRateHz u

/-- A call, and the uptime at which it reads the tick counter. -/
inductive Event (K : Type*) where
  | sync (u : K) (ans : SntpAnswers)
  | now (u : K)

/-- The clock, the uptime, and as ghosts the uptime of the last successful sync and the last value
returned since. -/
structure Cfg (K : Type*) where
  st : TimeState
  uptime : K
  lastSync : Option K
  lastNow : Option ℤ

def boot : Cfg K := ⟨⟨0, false⟩, 0, none, none⟩

/-- One call.  Uptimes do not decrease, and a reply carries the seconds of the true time. -/
def step (tl : Timeline K) (c : Cfg K) : Event K → Option (Cfg K)
  | .sync u ans =>
    if c.uptime ≤ u ∧ (ans.answered = true → (transmitSeconds ans.pkt : ℤ) = tl.ntpSeconds u) then
      let r := iotcTimeSync c.st ans (tickCount u)
      some (if r.1 = 0 then ⟨r.2, u, some u, none⟩ else { c with st := r.2, uptime := u })
    else none
  | .now u =>
    if c.uptime ≤ u then
      some { c with uptime := u, lastNow := some (iotcTimeNow c.st (tickCount u)) }
    else none

/-- An answered sync succeeds, and a read after it is within one second of UTC and not less than the
one before. -/
def ClockStep (tl : Timeline K) (c : Cfg K) (e : Event K) (_ : Cfg K) : Prop :=
  match e with
  | .sync u ans => ans.answered = true → (iotcTimeSync c.st ans (tickCount u)).1 = 0
  | .now u => c.lastSync.isSome = true →
      |iotcTimeNow c.st (tickCount u) - tl.utc u| ≤ 1 ∧
        ∀ v ∈ c.lastNow, v ≤ iotcTimeNow c.st (tickCount u)

/-- The 32-bit seconds of a reply lie behind 1970; a read comes while the last sync was in the era of
the offset and the tick counter has not wrapped since. -/
def ClockOk (tl : Timeline K) (c : Cfg K) : Event K → Prop
  | .sync u ans => ans.answered = true → sntpUnixOffset < tl.ntpSeconds u
  | .now u => ∀ r ∈ c.lastSync, tl.utc r + sntpUnixOffset < 2 ^ 32 ∧
      wraps (2 ^ 32) configTickRateHz r = wraps (2 ^ 32) configTickRateHz u

/-- The clock as the last sync at `r` latched it. -/
structure Latched (tl : Timeline K) (c : Cfg K) (r : K) : Prop where
  start : 0 ≤ r
  past : r ≤ c.uptime
  synced : c.st.synced = true
  epoch : c.st.epochAtBoot =
    tl.ntpSeconds r - sntpUnixOffset - (tickCount r / configTickRateHz : ℕ)
  reads : ∀ v ∈ c.lastNow, ∃ u, r ≤ u ∧ u ≤ c.uptime ∧
    v = c.st.epochAtBoot + (tickCount u / configTickRateHz : ℕ)

structure Kept (tl : Timeline K) (c : Cfg K) : Prop where
  start : 0 ≤ c.uptime
  latched : ∀ r ∈ c.lastSync, Latched tl c r

theorem boot_kept (tl : Timeline K) : Kept tl boot := ⟨le_rfl, fun _ h => nomatch h⟩

theorem step_now {tl : Timeline K} {c c' : Cfg K} {u : K} (h : step tl c (.now u) = some c') :
    c.uptime ≤ u ∧
      c' = { c with uptime := u, lastNow := some (iotcTimeNow c.st (tickCount u)) } := by
  rw [step] at h
  split_ifs at h with hu
  exact ⟨hu, (Option.some.inj h).symm⟩

theorem step_sync {tl : Timeline K} {c c' : Cfg K} {u : K} {ans : SntpAnswers}
    (h : step tl c (.sync u ans) = some c') :
    (c.uptime ≤ u ∧ (ans.answered = true → (transmitSeconds ans.pkt : ℤ) = tl.ntpSeconds u)) ∧
      c' = if (iotcTimeSync c.st ans (tickCount u)).1 = 0 then
        ⟨(iotcTimeSync c.st ans (tickCount u)).2, u, some u, none⟩
      else { c with st := (iotcTimeSync c.st ans (tickCount u)).2, uptime := u } := by
  by_cases hu : c.uptime ≤ u ∧
      (ans.answered = true → (transmitSeconds ans.pkt : ℤ) = tl.ntpSeconds u)
  · simp only [step, if_pos hu] at h
    exact ⟨hu, (Option.some.inj h).symm⟩
  · simp only [step, if_neg hu] at h
    contradiction

/-- **Clock step.** -/
theorem step_kept {tl : Timeline K} {c c' : Cfg K} {e : Event K} (hs : Kept tl c)
    (h : step tl c e = some c') : Kept tl c' := by
  cases e with
  | now u =>
    obtain ⟨hu, rfl⟩ := step_now h
    refine ⟨hs.start.trans hu, fun r hr => ?_⟩
    have hl := hs.latched r hr
    refine ⟨hl.start, hl.past.trans hu, hl.synced, hl.epoch, fun v hv => ?_⟩
    obtain rfl := Option.some.inj hv
    exact ⟨u, hl.past.trans hu, le_rfl, by simp [iotcTimeNow, hl.synced]⟩
  | sync u ans =>
    obtain ⟨hu, rfl⟩ := step_sync h
    obtain ⟨hans, hsecs, heq⟩ | ⟨-, heq⟩ := iotcTimeSync_cases c.st ans (tickCount u)
    · rw [heq, if_pos rfl]
      refine ⟨hs.start.trans hu.1, fun r hr => ?_⟩
      obtain rfl := Option.some.inj hr
      exact ⟨hs.start.trans hu.1, le_rfl, rfl, by rw [← hu.2 hans], fun _ h => nomatch h⟩
    · rw [heq, if_neg (show ¬ ((-1 : ℤ) = 0) by decide)]
      refine ⟨hs.start.trans hu.1, fun r hr => ?_⟩
      have hl := hs.latched r hr
      refine ⟨hl.start, hl.past.trans hu.1, hl.synced, hl.epoch, fun v hv => ?_⟩
      obtain ⟨w, hw, hwc, rfl⟩ := hl.reads v hv
      exact ⟨w, hw, hwc.trans hu.1, rfl⟩

variable [IsStrictOrderedRing K]

/-- UTC by the counter: as if the device had booted later by the wraps of the counter since `r`. -/
theorem utc_drift (tl : Timeline K) {r u : K} (hru : r ≤ u) (x y : K)
    (hx : x = r - wraps (2 ^ 32) configTickRateHz r * (2 ^ 32 : ℕ) / configTickRateHz)
    (hy : y = u - wraps (2 ^ 32) configTickRateHz u * (2 ^ 32 : ℕ) / configTickRateHz) :
    (wraps (2 ^ 32) configTickRateHz r = wraps (2 ^ 32) configTickRateHz u →
      ⌊tl.utcAtBoot + r + (y - x)⌋ = tl.utc u) ∧
    (wraps (2 ^ 32) configTickRateHz r ≠ wraps (2 ^ 32) configTickRateHz u →
      ⌊tl.utcAtBoot + r + (y - x)⌋ + 4294967 ≤ tl.utc u) := by
  have hmono := wraps_mono (2 ^ 32) configTickRateHz hru
  generalize wraps (2 ^ 32) configTickRateHz r = k at *
  generalize wraps (2 ^ 32) configTickRateHz u = l at *
  constructor
  · rintro rfl
    rw [Timeline.utc, hx, hy]
    congr 1
    ring
  · intro hne
    have hl : (k : K) + 1 ≤ l := by exact_mod_cast lt_of_le_of_ne hmono hne
    rw [Timeline.utc, Int.le_floor]
    have hfloor := Int.floor_le (tl.utcAtBoot + r + (y - x))
    push_cast at hx hy ⊢
    linarith

/-- **How far a read is off**: within a second exactly when the last sync was in the era of the offset
and the counter has not wrapped since. -/
theorem now_iff {tl : Timeline K} {c : Cfg K} {r u : K} (hl : Latched tl c r) (hu : c.uptime ≤ u) :
    |iotcTimeNow c.st (tickCount u) - tl.utc u| ≤ 1 ↔
      tl.utc r + sntpUnixOffset < 2 ^ 32 ∧
        wraps (2 ^ 32) configTickRateHz r = wraps (2 ^ 32) configTickRateHz u := by
  have hru : r ≤ u := hl.past.trans hu
  have hutc : 0 ≤ tl.utc r := Int.floor_nonneg.mpr (add_nonneg tl.after1970 hl.start)
  have hr := counter_div (2 ^ 32) (show 0 < configTickRateHz by decide) hl.start
  have hc := counter_div (2 ^ 32) (show 0 < configTickRateHz by decide) (hl.start.trans hru)
  obtain ⟨hsame, hwrapped⟩ := utc_drift tl hru _ _ rfl rfl
  have hlatch := floor_latch (tl.utcAtBoot + r)
    (r - wraps (2 ^ 32) configTickRateHz r * (2 ^ 32 : ℕ) / configTickRateHz)
    (u - wraps (2 ^ 32) configTickRateHz u * (2 ^ 32 : ℕ) / configTickRateHz)
  rw [← hr, ← hc, abs_le] at hlatch
  have hera : tl.ntpSeconds r =
      tl.utc r + sntpUnixOffset - 2 ^ 32 * ((tl.utc r + sntpUnixOffset) / 2 ^ 32) := by
    rw [Timeline.ntpSeconds, Int.emod_def]
  have hpos : 0 ≤ (tl.utc r + sntpUnixOffset) / 2 ^ 32 := by omega
  have hsmall : (tl.utc r + sntpUnixOffset) / 2 ^ 32 = 0 ↔ tl.utc r + sntpUnixOffset < 2 ^ 32 := by
    omega
  rw [← hsmall, iotcTimeNow, if_neg (by simp [hl.synced]), hl.epoch, hera, abs_le]
  simp only [tickCount] at *
  have hdef : ⌊tl.utcAtBoot + r⌋ = tl.utc r := rfl
  rw [hdef] at hlatch
  by_cases hw : wraps (2 ^ 32) configTickRateHz r = wraps (2 ^ 32) configTickRateHz u
  · rw [hsame hw] at hlatch
    constructor
    · intro h
      exact ⟨by omega, hw⟩
    · rintro ⟨h, -⟩
      omega
  · have hoff := hwrapped hw
    constructor
    · intro h
      omega
    · exact fun h => absurd h.2 hw

/-- Reads after one sync follow each other while the counter does not wrap. -/
theorem now_mono {c : Cfg K} {tl : Timeline K} {r u : K} (hl : Latched tl c r) (hu : c.uptime ≤ u)
    (hw : wraps (2 ^ 32) configTickRateHz r = wraps (2 ^ 32) configTickRateHz u) :
    ∀ v ∈ c.lastNow, v ≤ iotcTimeNow c.st (tickCount u) := by
  intro v hv
  obtain ⟨w, hrw, hwc, rfl⟩ := hl.reads v hv
  have hwu : wraps (2 ^ 32) configTickRateHz w = wraps (2 ^ 32) configTickRateHz u :=
    le_antisymm (wraps_mono _ _ (hwc.trans hu)) (hw ▸ wraps_mono _ _ hrw)
  have hticks : ticks configTickRateHz w ≤ ticks configTickRateHz u :=
    Nat.floor_le_floor (mul_le_mul_of_nonneg_right (hwc.trans hu) (Nat.cast_nonneg _))
  have hcount : tickCount w ≤ tickCount u := by
    have h1 := Nat.mod_add_div (ticks configTickRateHz w) (2 ^ 32)
    have h2 := Nat.mod_add_div (ticks configTickRateHz u) (2 ^ 32)
    simp only [wraps] at hwu
    rw [hwu] at h1
    simp only [tickCount, counter]
    omega
  rw [iotcTimeNow, if_neg (by simp [hl.synced])]
  have hdiv := Nat.div_le_div_right (c := configTickRateHz) hcount
  omega

theorem clockStep_iff {tl : Timeline K} {c c' : Cfg K} {e : Event K} (hs : Kept tl c)
    (h : step tl c e = some c') : ClockStep tl c e c' ↔ ClockOk tl c e := by
  cases e with
  | sync u ans =>
    obtain ⟨⟨-, hreply⟩, -⟩ := step_sync h
    refine imp_congr_right fun hans => ?_
    rw [← hreply hans]
    obtain ⟨-, hsecs, heq⟩ | ⟨hold, heq⟩ := iotcTimeSync_cases c.st ans (tickCount u)
    · rw [heq]
      exact ⟨fun _ => by exact_mod_cast hsecs, fun _ => rfl⟩
    · rw [heq]
      have hle := hold hans
      exact ⟨fun hrc => absurd hrc (show ¬ ((-1 : ℤ) = 0) by decide), fun hlt => by omega⟩
  | now u =>
    have hu := (step_now h).1
    constructor
    · intro hstep r hr
      exact (now_iff (hs.latched r hr) hu).mp (hstep (by rw [hr]; rfl)).1
    · intro hok hsome
      obtain ⟨r, hr⟩ := Option.isSome_iff_exists.mp hsome
      have hl := hs.latched r hr
      exact ⟨(now_iff hl hu).mpr (hok r hr), now_mono hl hu (hok r hr).2⟩

/-- **The wall clock over long uptimes.**  A run of syncs and reads at any uptimes is right at every
step exactly when every answered sync has a seconds field behind 1970, and every read comes with the
last sync in the era of the offset and before the tick counter has wrapped since. -/
theorem wallClock_iff (tl : Timeline K) (events : List (Event K)) :
    AllSteps (step tl) (ClockStep tl) events boot ↔ Meets (step tl) (ClockOk tl) events boot :=
  allSteps_iff_meets (fun hs _ h => step_kept hs h) clockStep_iff (boot_kept tl)

omit [IsStrictOrderedRing K] in
instance (tl : Timeline K) (c : Cfg K) (e : Event K) (c' : Cfg K) :
    Decidable (ClockStep tl c e c') :=
  match e with
  | .sync _ _ => inferInstanceAs (Decidable (_ → _))
  | .now _ => inferInstanceAs (Decidable (_ → _ ∧ ∀ v ∈ c.lastNow, v ≤ _))

def sampleTimeline : Timeline ℚ := ⟨1700000000, by norm_num⟩

/-- A reply with the given seconds field. -/
def reply (secs : ℕ) : SntpAnswers :=
  ⟨1, true, 48, 48, fun i => UInt8.ofNat (secs / 2 ^ (8 * (43 - i)))⟩

/-- A sync at uptime 5 and two reads. -/
def syncedEvents : List (Event ℚ) := [.sync 5 (reply 3908988805), .now 6, .now 7]

theorem wallClock_iff_sample :
    AllSteps (step sampleTimeline) (ClockStep sampleTimeline) syncedEvents boot ↔
      Meets (step sampleTimeline) (ClockOk sampleTimeline) syncedEvents boot :=
  wallClock_iff sampleTimeline syncedEvents

/-- The same, read once more after 4294968 s, when the counter has wrapped. -/
theorem wallClock_wraps :
    ¬ ∀ (tl : Timeline ℚ) (events : List (Event ℚ)),
      AllSteps (step tl) (ClockStep tl) events boot := by
  intro h
  exact absurd (h sampleTimeline (syncedEvents ++ [.now 4294968])) (by decide +kernel)

end IotcRa8p1.App.Time
