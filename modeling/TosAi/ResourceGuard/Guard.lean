/-
  The guard that takes a host out of service while its resources are not what they were.

  `record` counts bad samples while the host is ready and good ones while it is not.  Over a
  whole history of samples the two counters come to this: the host is taken out of service by
  the sample that ends a row of bad ones, comes back with the one that ends a row of good ones,
  and nothing else changes its state.  What a good sample is, `evaluate` decides in arithmetic
  of 64 bits; `Good` says the same of unbounded numbers.
-/
import TosAi.Foundation.GoStd

set_option autoImplicit false

namespace TosAi.ResourceGuard

open Foundation
open Foundation.Json (Bytes)

/-! ## What is observed of a host -/

def available : Bytes := stringBytes "available"
def unavailable : Bytes := stringBytes "unavailable"

structure Host where
  memoryBytes : UInt64

structure NVIDIADevice where
  vramBytes : UInt64 := 0
  vramUsedBytes : UInt64 := 0

structure NVIDIAReport where
  status : Bytes
  driverVersion : Bytes
  devices : List NVIDIADevice

structure Report where
  host : Host
  nvidia : NVIDIAReport

/-! ## The configuration -/

def minInterval : Int := 1000000000
def maxIntervalHard : Int := 300000000000
def minTimeout : Int := 100000000
def maxTimeoutHard : Int := 30000000000
def maxThresholdHard : Int := 10
def minimumObservedRAM : UInt64 := 67108864

def statusReady : Bytes := stringBytes "ready"
def statusDegraded : Bytes := stringBytes "degraded"
def defaultUnknownGPU : Bytes := stringBytes "unknown"

/-- Times are in nanoseconds; `sample` tells whether there is a sampler. -/
structure Config where
  interval : Int
  timeout : Int
  failureThreshold : Int
  recoveryThreshold : Int
  requiredRAMBytes : UInt64
  requiredVRAMBytes : UInt64
  initial : Report
  sample : Bool

structure ResourceHealth where
  ready : Bool
  status : Bytes
  gpu : Bytes
  deriving DecidableEq

/-- The part of a guard that `record` changes. -/
structure Guard where
  health : ResourceHealth
  failures : Int
  recoveries : Int
  deriving DecidableEq

/-! ## Evaluation of one report -/

def knownGPUStatuses : List Bytes :=
  ["available", "degraded", "unavailable", "no-devices", "unknown"].map stringBytes

def validGPUStatus (status : Bytes) : Bool := knownGPUStatuses.contains status

/-- The loop over the devices; nothing if one of them is invalid. -/
def totalVRAM : UInt64 → List NVIDIADevice → Option UInt64
  | total, [] => some total
  | total, device :: rest =>
    if device.vramBytes = 0 ∨ device.vramUsedBytes > device.vramBytes ∨
        0xffffffffffffffff - total < device.vramBytes then none
    else totalVRAM (total + device.vramBytes) rest

/-- The health a report stands for, and what is wrong with it. -/
def evaluate (report : Report) (requiredRAM requiredVRAM : UInt64) :
    ResourceHealth × Option String :=
  let gpu := if validGPUStatus report.nvidia.status then report.nvidia.status else defaultUnknownGPU
  let health : ResourceHealth := ⟨true, statusReady, gpu⟩
  if report.host.memoryBytes < minimumObservedRAM then
    (health, some "observed host memory is unavailable")
  else if requiredRAM > report.host.memoryBytes - report.host.memoryBytes / 4 then
    (health, some "observed host memory is below policy")
  else if requiredVRAM = 0 then (health, none)
  else if report.nvidia.status ≠ available ∨ report.nvidia.driverVersion = [] ∨
      report.nvidia.devices = [] then
    (health, some "required NVIDIA resources are unavailable")
  else
    match totalVRAM 0 report.nvidia.devices with
    | none => (health, some "observed NVIDIA memory is invalid")
    | some total =>
      if requiredVRAM > total then (health, some "observed NVIDIA memory is below policy")
      else (health, none)

/-! ## The guard -/

/-- `New`, up to the start of its loop. -/
def new (config : Config) : Except String Guard :=
  if config.interval < minInterval ∨ config.interval > maxIntervalHard ∨
      config.timeout < minTimeout ∨ config.timeout > maxTimeoutHard ∨
      config.timeout > config.interval ∨ config.failureThreshold ≤ 0 ∨
      config.failureThreshold > maxThresholdHard ∨ config.recoveryThreshold ≤ 0 ∨
      config.recoveryThreshold > maxThresholdHard ∨ config.requiredRAMBytes = 0 ∨
      config.sample = false then
    .error "invalid resource monitor configuration"
  else
    match evaluate config.initial config.requiredRAMBytes config.requiredVRAMBytes with
    | (_, some _) => .error "initial resource observation is unsafe"
    | (health, none) => .ok ⟨health, 0, 0⟩

/-- What a sampler returned, with or without an error. -/
structure Sample where
  report : Report
  failed : Bool

def record (config : Config) (g : Guard) (sample : Sample) : Guard :=
  let (next, err) := evaluate sample.report config.requiredRAMBytes config.requiredVRAMBytes
  if sample.failed = false ∧ err = none then
    let g := { g with failures := 0, health := { g.health with gpu := next.gpu } }
    if g.health.ready then { g with recoveries := 0 }
    else if g.recoveries + 1 ≥ config.recoveryThreshold then
      { g with health := next, recoveries := 0 }
    else { g with recoveries := g.recoveries + 1 }
  else
    let status := sample.report.nvidia.status
    let gpu := if validGPUStatus status then status else g.health.gpu
    if g.failures + 1 ≥ config.failureThreshold then
      ⟨⟨false, statusDegraded, gpu⟩, config.failureThreshold, 0⟩
    else { g with failures := g.failures + 1, recoveries := 0, health := { g.health with gpu } }

/-- The guard after some samples. -/
def Guard.after (g : Guard) (config : Config) (samples : List Sample) : Guard :=
  samples.foldl (record config) g

/-! ## What a good sample is -/

/-- The sum of the devices' memory, unbounded. -/
def vramSum (devices : List NVIDIADevice) : Nat := (devices.map fun d => d.vramBytes.toNat).sum

structure Good (config : Config) (sample : Sample) : Prop where
  sampled : sample.failed = false
  observed : 64 * 2 ^ 20 ≤ sample.report.host.memoryBytes.toNat
  ram : config.requiredRAMBytes.toNat ≤ (3 * sample.report.host.memoryBytes.toNat) ⌈/⌉ 4
  vram : config.requiredVRAMBytes ≠ 0 →
    sample.report.nvidia.status = available ∧ sample.report.nvidia.driverVersion ≠ [] ∧
      (∀ d ∈ sample.report.nvidia.devices, 0 < d.vramBytes ∧ d.vramUsedBytes ≤ d.vramBytes) ∧
      vramSum sample.report.nvidia.devices < 2 ^ 64 ∧
      config.requiredVRAMBytes.toNat ≤ vramSum sample.report.nvidia.devices

/-- The loop computes the sum as long as it fits. -/
theorem totalVRAM_eq_some {total : UInt64} {devices : List NVIDIADevice} {sum : UInt64} :
    totalVRAM total devices = some sum ↔
      (∀ d ∈ devices, 0 < d.vramBytes ∧ d.vramUsedBytes ≤ d.vramBytes) ∧
        total.toNat + vramSum devices < 2 ^ 64 ∧ sum.toNat = total.toNat + vramSum devices := by
  induction devices generalizing total with
  | nil =>
    have hbound := total.toNat_lt
    simp only [totalVRAM, vramSum, Option.some.injEq, List.map_nil, List.sum_nil, Nat.add_zero]
    constructor
    · rintro rfl
      exact ⟨by simp, hbound, rfl⟩
    · intro h
      exact UInt64.toNat_inj.mp h.2.2.symm
  | cons d devices ih =>
    have hsum : vramSum (d :: devices) = d.vramBytes.toNat + vramSum devices := by simp [vramSum]
    have hroom : 0xffffffffffffffff - total < d.vramBytes ↔
        2 ^ 64 ≤ total.toNat + d.vramBytes.toNat := by
      have hbound := total.toNat_lt
      have hmax : (0xffffffffffffffff : UInt64).toNat = 2 ^ 64 - 1 := rfl
      rw [UInt64.lt_iff_toNat_lt,
        UInt64.toNat_sub_of_le _ _ (UInt64.le_iff_toNat_le.mpr (by omega)), hmax]
      omega
    rw [totalVRAM, List.forall_mem_cons, hsum]
    split
    · rename_i hbad
      refine ⟨(fun h => nomatch h), fun ⟨⟨hd, _⟩, hfits, _⟩ => ?_⟩
      rcases hbad with hzero | hused | hfull
      · rw [hzero] at hd
        exact absurd hd.1 (by decide)
      · exact absurd hd.2 (UInt64.not_le.mpr hused)
      · have := hroom.mp hfull
        omega
    · rename_i hgood
      simp only [not_or, UInt64.not_lt, hroom, Nat.not_le, gt_iff_lt] at hgood
      obtain ⟨hzero, hused, hfits⟩ := hgood
      have hadd : (total + d.vramBytes).toNat = total.toNat + d.vramBytes.toNat := by
        rw [UInt64.toNat_add, Nat.mod_eq_of_lt hfits]
      rw [ih, hadd, Nat.add_assoc]
      have hpos : 0 < d.vramBytes := UInt64.pos_iff_ne_zero.mpr hzero
      simp [hpos, hused]

/-- A quarter is kept back, in the rounding of the code. -/
theorem required_le_iff {required memory : UInt64} : required ≤ memory - memory / 4 ↔
    required.toNat ≤ (3 * memory.toNat) ⌈/⌉ 4 := by
  have hquarter : (memory / 4).toNat = memory.toNat / 4 := UInt64.toNat_div _ _
  have hle : memory / 4 ≤ memory := UInt64.le_iff_toNat_le.mpr (by omega)
  rw [UInt64.le_iff_toNat_le, UInt64.toNat_sub_of_le _ _ hle, hquarter, Nat.ceilDiv_eq_add_pred_div]
  omega

/-- `evaluate` finds nothing wrong exactly with a good sample. -/
theorem good_iff {config : Config} {sample : Sample} : Good config sample ↔ sample.failed = false ∧
    (evaluate sample.report config.requiredRAMBytes config.requiredVRAMBytes).2 = none := by
  have hobserved : sample.report.host.memoryBytes < minimumObservedRAM ↔
      ¬ 64 * 2 ^ 20 ≤ sample.report.host.memoryBytes.toNat := by
    rw [UInt64.lt_iff_toNat_lt, Nat.not_le]
    rfl
  have hram :
    config.requiredRAMBytes > sample.report.host.memoryBytes - sample.report.host.memoryBytes / 4 ↔
      ¬ config.requiredRAMBytes.toNat ≤ (3 * sample.report.host.memoryBytes.toNat) ⌈/⌉ 4 := by
    rw [← required_le_iff, UInt64.not_le]
  constructor
  · rintro ⟨hsampled, hmemory, hrequired, hvram⟩
    refine ⟨hsampled, ?_⟩
    rw [evaluate, if_neg (by rw [hobserved]; exact not_not_intro hmemory),
      if_neg (by rw [hram]; exact not_not_intro hrequired)]
    split
    · rfl
    rename_i hneeded
    obtain ⟨hstatus, hdriver, hdevices, hfits, henough⟩ := hvram hneeded
    have hpos : 0 < config.requiredVRAMBytes.toNat :=
      UInt64.lt_iff_toNat_lt.mp (UInt64.pos_iff_ne_zero.mpr hneeded)
    have hsome : sample.report.nvidia.devices ≠ [] := by
      intro hnil
      rw [hnil] at henough
      simp [vramSum] at henough
      omega
    have htotal : totalVRAM 0 sample.report.nvidia.devices =
        some (UInt64.ofNat (vramSum sample.report.nvidia.devices)) :=
      totalVRAM_eq_some.mpr ⟨hdevices, by simpa using hfits, by
        rw [UInt64.toNat_ofNat', Nat.mod_eq_of_lt hfits]
        simp⟩
    rw [if_neg (by simp [hstatus, hdriver, hsome]), htotal]
    dsimp only
    rw [if_neg]
    rw [gt_iff_lt, UInt64.not_lt, UInt64.le_iff_toNat_le, UInt64.toNat_ofNat',
      Nat.mod_eq_of_lt hfits]
    exact henough
  · rintro ⟨hsampled, hnone⟩
    unfold evaluate at hnone
    generalize (if validGPUStatus sample.report.nvidia.status then sample.report.nvidia.status
      else defaultUnknownGPU) = gpu at hnone
    dsimp only at hnone
    split at hnone
    · cases hnone
    rename_i hmemory
    split at hnone
    · cases hnone
    rename_i hrequired
    rw [hobserved, not_not] at hmemory
    rw [hram, not_not] at hrequired
    refine ⟨hsampled, hmemory, hrequired, fun hneeded => ?_⟩
    rw [if_neg hneeded] at hnone
    split at hnone
    · cases hnone
    rename_i hpresent
    simp only [not_or, not_not, ne_eq] at hpresent
    split at hnone
    · cases hnone
    rename_i total htotal
    split at hnone
    · cases hnone
    rename_i henough
    obtain ⟨hdevices, hfits, hsum⟩ := totalVRAM_eq_some.mp htotal
    rw [UInt64.toNat_zero, Nat.zero_add] at hfits hsum
    rw [gt_iff_lt, UInt64.not_lt, UInt64.le_iff_toNat_le, hsum] at henough
    exact ⟨hpresent.1, hpresent.2.1, hdevices, hfits, henough⟩

/-! ## Histories -/

section History

variable {α : Type} {p : α → Bool} {history : List α} {n : Nat}

/-- The last `n` elements all satisfy the predicate. -/
def Completes (P : α → Prop) (n : Nat) (history : List α) : Prop :=
  ∃ row, row <:+ history ∧ row.length = n ∧ ∀ x ∈ row, P x

/-- How many elements at the end satisfy the predicate. -/
def trailing (p : α → Bool) (history : List α) : Nat := (history.rtakeWhile p).length

theorem trailing_concat (x : α) :
    trailing p (history ++ [x]) = if p x then trailing p history + 1 else 0 := by
  rw [trailing, List.rtakeWhile_concat]
  split
  · rw [List.length_append, List.length_singleton, trailing]
  · rfl

theorem completes_iff {P : α → Prop} (hP : ∀ x, P x ↔ p x = true) :
    Completes P n history ↔ n ≤ trailing p history := by
  constructor
  · rintro ⟨row, ⟨earlier, rfl⟩, rfl, hrow⟩
    have hall : ∀ x ∈ row.reverse, p x = true :=
      fun x hx => (hP x).mp (hrow x (List.mem_reverse.mp hx))
    rw [trailing, List.rtakeWhile, List.reverse_append, List.takeWhile_append_of_pos hall]
    simp
  · intro hn
    have hsuffix := List.drop_suffix ((history.rtakeWhile p).length - n) (history.rtakeWhile p)
    refine ⟨_, hsuffix.trans (List.rtakeWhile_suffix p history), ?_, fun x hx => (hP x).mpr ?_⟩
    · rw [List.length_drop]
      exact Nat.sub_sub_self hn
    · exact List.mem_rtakeWhile_imp (hsuffix.subset hx)

end History

/-! ## The guard over a history -/

/-- `record` takes the sample for a good one. -/
def isGood (config : Config) (sample : Sample) : Bool :=
  !sample.failed &&
    (evaluate sample.report config.requiredRAMBytes config.requiredVRAMBytes).2 == none

theorem good_iff_isGood {config : Config} (sample : Sample) :
    Good config sample ↔ isGood config sample = true := by
  rw [good_iff]
  simp [isGood]

/-- What the guard is after a history: its texts are those of its state, and the counter that
matters in this state counts the samples at the end that speak against it. -/
structure Tracks (config : Config) (history : List Sample) (g : Guard) : Prop where
  status : g.health.status = if g.health.ready then statusReady else statusDegraded
  gpu : g.health.gpu ∈ knownGPUStatuses
  failing : g.health.ready = true → g.failures = trailing (!isGood config ·) history ∧
    g.failures < config.failureThreshold
  recovering : g.health.ready = false → g.recoveries = trailing (isGood config) history ∧
    g.recoveries < config.recoveryThreshold

theorem gpu_evaluate (report : Report) (requiredRAM requiredVRAM : UInt64) :
    (evaluate report requiredRAM requiredVRAM).1 =
        ⟨true, statusReady, (evaluate report requiredRAM requiredVRAM).1.gpu⟩ ∧
      (evaluate report requiredRAM requiredVRAM).1.gpu ∈ knownGPUStatuses := by
  have hgpu :
    (if validGPUStatus report.nvidia.status then report.nvidia.status else defaultUnknownGPU) ∈
      knownGPUStatuses := by
    split
    · rename_i hvalid
      exact List.contains_iff_mem.mp hvalid
    · decide
  unfold evaluate
  generalize (if validGPUStatus report.nvidia.status then report.nvidia.status
    else defaultUnknownGPU) = gpu at hgpu
  dsimp only
  split_ifs
  · exact ⟨rfl, hgpu⟩
  · exact ⟨rfl, hgpu⟩
  · exact ⟨rfl, hgpu⟩
  · exact ⟨rfl, hgpu⟩
  · split
    · exact ⟨rfl, hgpu⟩
    · split_ifs <;> exact ⟨rfl, hgpu⟩

section Runs

variable {config : Config} {g : Guard} {history : List Sample} {sample : Sample}

theorem tracks_new (h : new config = .ok g) :
    g.health.ready = true ∧ 0 < config.failureThreshold ∧ 0 < config.recoveryThreshold ∧
      Tracks config [] g := by
  unfold new at h
  split at h
  · cases h
  rename_i hbounds
  simp only [not_or, not_le] at hbounds
  obtain ⟨-, -, -, -, -, hfailure, -, hrecovery, -, -, -⟩ := hbounds
  obtain ⟨hhealth, hgpu⟩ :=
    gpu_evaluate config.initial config.requiredRAMBytes config.requiredVRAMBytes
  split at h
  · cases h
  rename_i health heval
  cases h
  rw [heval] at hhealth hgpu
  dsimp only at hhealth hgpu
  rw [hhealth]
  exact ⟨rfl, hfailure, hrecovery, rfl, hgpu, fun _ => ⟨rfl, hfailure⟩, (fun h => nomatch h)⟩

theorem record_of_good (h : isGood config sample = true) :
    let next := (evaluate sample.report config.requiredRAMBytes config.requiredVRAMBytes).1
    record config g sample =
      if g.health.ready then ⟨{ g.health with gpu := next.gpu }, 0, 0⟩
      else if g.recoveries + 1 ≥ config.recoveryThreshold then ⟨next, 0, 0⟩
      else ⟨{ g.health with gpu := next.gpu }, 0, g.recoveries + 1⟩ := by
  simp only [isGood, Bool.and_eq_true, Bool.not_eq_true', beq_iff_eq] at h
  simp only [record]
  rw [if_pos h]

theorem record_of_bad (h : isGood config sample = false) :
    ∃ gpu, (g.health.gpu ∈ knownGPUStatuses → gpu ∈ knownGPUStatuses) ∧
      record config g sample =
        if g.failures + 1 ≥ config.failureThreshold then
          ⟨⟨false, statusDegraded, gpu⟩, config.failureThreshold, 0⟩
        else ⟨{ g.health with gpu := gpu }, g.failures + 1, 0⟩ := by
  have hbad : ¬ (sample.failed = false ∧
      (evaluate sample.report config.requiredRAMBytes config.requiredVRAMBytes).2 = none) := by
    intro hgood
    simp [isGood, hgood] at h
  refine ⟨if validGPUStatus sample.report.nvidia.status then sample.report.nvidia.status
    else g.health.gpu, fun hknown => ?_, ?_⟩
  · split
    · rename_i hvalid
      exact List.contains_iff_mem.mp hvalid
    · exact hknown
  · simp only [record]
    rw [if_neg hbad]

/-- **One sample.**  The guard goes on tracking the history, and its state changes when the
sample completes a row. -/
theorem Tracks.record (h : Tracks config history g) (hfailure : 0 < config.failureThreshold)
    (hrecovery : 0 < config.recoveryThreshold) (sample : Sample) :
    Tracks config (history ++ [sample]) (record config g sample) ∧
      (g.health.ready = true → ((ResourceGuard.record config g sample).health.ready = false ↔
        config.failureThreshold ≤ trailing (!isGood config ·) (history ++ [sample]))) ∧
      (g.health.ready = false → ((ResourceGuard.record config g sample).health.ready = true ↔
        config.recoveryThreshold ≤ trailing (isGood config) (history ++ [sample]))) := by
  obtain ⟨hstatus, hgpu, hfailing, hrecovering⟩ := h
  have hbads := @trailing_concat _ (!isGood config ·) history sample
  have hgoods := @trailing_concat _ (isGood config) history sample
  cases hgood : isGood config sample with
  | true =>
    simp only [hgood, Bool.not_true, Bool.false_eq_true, if_false, if_true] at hbads hgoods
    obtain ⟨hnext, hknown⟩ :=
      gpu_evaluate sample.report config.requiredRAMBytes config.requiredVRAMBytes
    rw [record_of_good hgood, hbads, hgoods]
    cases hready : g.health.ready with
    | true =>
      rw [if_pos rfl]
      refine ⟨⟨?_, hknown, fun _ => ⟨by rw [hbads]; rfl, hfailure⟩, ?_⟩,
        fun _ => ?_, (fun h => Bool.noConfusion h)⟩
      · rw [hstatus]
      · rw [hready]
        exact (fun h => Bool.noConfusion h)
      · rw [hready]
        simp
        omega
    | false =>
      obtain ⟨hcount, hbelow⟩ := hrecovering hready
      rw [if_neg (by decide)]
      split
      · rename_i hreached
        rw [hnext]
        refine ⟨⟨rfl, hknown, fun _ => ⟨by rw [hbads]; rfl, hfailure⟩,
          (fun h => Bool.noConfusion h)⟩, (fun h => Bool.noConfusion h), fun _ => ?_⟩
        simp only [true_iff]
        omega
      · rename_i hshort
        refine ⟨⟨?_, hknown, ?_,
          fun _ => ⟨by rw [hgoods]; dsimp only; omega, by dsimp only; omega⟩⟩,
          (fun h => Bool.noConfusion h), fun _ => ?_⟩
        · rw [hstatus]
        · rw [hready]
          exact (fun h => Bool.noConfusion h)
        · rw [hready]
          simp
          omega
  | false =>
    simp only [hgood, Bool.not_false, Bool.false_eq_true, if_false, if_true] at hbads hgoods
    obtain ⟨gpu, hknown, hrecord⟩ := record_of_bad (g := g) hgood
    rw [hrecord, hbads, hgoods]
    split
    · rename_i hreached
      refine ⟨⟨rfl, hknown hgpu, (fun h => Bool.noConfusion h),
        fun _ => ⟨by rw [hgoods]; rfl, hrecovery⟩⟩, fun hready => ?_, fun _ => ?_⟩
      · obtain ⟨hcount, -⟩ := hfailing hready
        simp only [true_iff]
        omega
      · simp
        omega
    · rename_i hshort
      refine ⟨⟨hstatus, hknown hgpu, fun hready => ?_, fun _ => ⟨by rw [hgoods]; rfl, hrecovery⟩⟩,
        fun hready => ?_, fun hready => ?_⟩
      · obtain ⟨hcount, -⟩ := hfailing hready
        exact ⟨by rw [hbads]; dsimp only; omega, by dsimp only; omega⟩
      · obtain ⟨hcount, -⟩ := hfailing hready
        simp [hready]
        omega
      · simp [hready]
        omega

/-- The guard tracks every history. -/
theorem tracks_after (hfailure : 0 < config.failureThreshold)
    (hrecovery : 0 < config.recoveryThreshold)
    (h : Tracks config [] g) (samples : List Sample) :
    Tracks config samples (g.after config samples) := by
  induction samples using List.reverseRecOn with
  | nil => exact h
  | append_singleton samples sample ih =>
    rw [Guard.after, List.foldl_concat]
    exact (ih.record hfailure hrecovery sample).1

end Runs

/-- **The guard's state over every history of samples.**  It starts ready.  While it is ready
it changes exactly at the sample that completes a row of bad ones, and while it is not,
exactly at the one that completes a row of good ones. -/
theorem hysteresis {config : Config} {g : Guard} (h : new config = .ok g) :
    g.health.ready = true ∧
    ∀ samples : List Sample,
      (((g.after config samples).health.status = statusReady ↔
        (g.after config samples).health.ready = true) ∧
      (g.after config samples).health.gpu ∈ knownGPUStatuses) ∧
      ∀ sample : Sample,
        ((g.after config samples).health.ready = true →
          ((g.after config (samples ++ [sample])).health.ready = false ↔
            Completes (¬ Good config ·) config.failureThreshold.toNat (samples ++ [sample]))) ∧
        ((g.after config samples).health.ready = false →
          ((g.after config (samples ++ [sample])).health.ready = true ↔
            Completes (Good config) config.recoveryThreshold.toNat (samples ++ [sample]))) := by
  obtain ⟨hready, hfailure, hrecovery, hnew⟩ := tracks_new h
  refine ⟨hready, fun samples => ⟨?_, fun sample => ?_⟩⟩
  · have htracks := tracks_after hfailure hrecovery hnew samples
    refine ⟨?_, htracks.gpu⟩
    rw [htracks.status]
    have hne : statusDegraded ≠ statusReady := by decide
    split <;> simp_all
  · have hbad : ∀ x, ¬ Good config x ↔ (!isGood config x) = true := fun x => by
      rw [good_iff_isGood]
      simp
    have hlast :
        g.after config (samples ++ [sample]) = record config (g.after config samples) sample :=
      List.foldl_concat ..
    rw [completes_iff hbad, completes_iff good_iff_isGood, Int.toNat_le, Int.toNat_le, hlast]
    exact ((tracks_after hfailure hrecovery hnew samples).record hfailure hrecovery sample).2

/-- A host with 64 MiB and no devices. -/
def sampleReport : Report := ⟨⟨67108864⟩, ⟨unavailable, [], []⟩⟩

def sampleConfig : Config where
  interval := 1000000000
  timeout := 100000000
  failureThreshold := 2
  recoveryThreshold := 2
  requiredRAMBytes := 1
  requiredVRAMBytes := 0
  initial := sampleReport
  sample := true

/-- Two failed samples take the host out of service, and two good ones bring it back. -/
theorem hysteresis_sample : ∃ g, new sampleConfig = .ok g ∧ g.health.ready = true ∧
    let good : Sample := ⟨sampleReport, false⟩
    let bad : Sample := ⟨sampleReport, true⟩
    (g.after sampleConfig [bad]).health.ready = true ∧
    (g.after sampleConfig [bad, bad]).health.ready = false ∧
    (g.after sampleConfig [bad, bad, good]).health.ready = false ∧
    (g.after sampleConfig [bad, bad, good, good]).health.ready = true := by
  have hnew : new sampleConfig = .ok ⟨⟨true, statusReady, unavailable⟩, 0, 0⟩ := by decide +kernel
  obtain ⟨hready, hruns⟩ := hysteresis hnew
  refine ⟨_, hnew, hready, by decide +kernel, ?_, by decide +kernel, ?_⟩
  · refine (((hruns [⟨sampleReport, true⟩]).2 ⟨sampleReport, true⟩).1 (by decide +kernel)).mpr ?_
    refine ⟨_, List.suffix_refl _, rfl, fun x hx hgood => ?_⟩
    have hsampled := hgood.sampled
    obtain rfl | rfl := List.mem_pair.mp hx
    · cases hsampled
    · cases hsampled
  · refine (((hruns [⟨sampleReport, true⟩, ⟨sampleReport, true⟩, ⟨sampleReport, false⟩]).2
      ⟨sampleReport, false⟩).2 (by decide +kernel)).mpr ?_
    refine ⟨[⟨sampleReport, false⟩, ⟨sampleReport, false⟩], ⟨[_, _], rfl⟩, rfl, fun x hx => ?_⟩
    rw [good_iff_isGood]
    obtain rfl | rfl := List.mem_pair.mp hx
    · decide +kernel
    · decide +kernel

end TosAi.ResourceGuard
