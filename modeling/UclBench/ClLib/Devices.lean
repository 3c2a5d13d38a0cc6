import UclBench.Buffer
import Mathlib.Algebra.Order.Ring.Nat

/-!
# UclBench.ClLib.Devices

Enumerating the devices of all platforms (`get_all_devices` of `clcommon.cpp`).

The first pass over the platforms adds up how many devices there are, the
second fetches them into an array of that many entries.  Only the second pass
looks at what `clGetDeviceIDs` returns: after a failed count the sum contains
whatever the count array was allocated with, and it is a 32-bit sum.
`enumerated_iff` says when the array is large enough all the same.
-/

namespace UclBench.ClLib

/-- A platform, and what the two calls of `clGetDeviceIDs` do on it. -/
structure Platform (δ : Type) where
  devices : List δ
  /-- what `malloc` left in `num_devs[i]` -/
  stale : Nat
  /-- the call that asks for the count returns `CL_SUCCESS` -/
  counted : Bool
  /-- the call that asks for the devices returns `CL_SUCCESS` -/
  filled : Bool
  stale_lt : stale < 2 ^ 32
  counted_of_filled : filled = true → counted = true

variable {δ : Type}

/-- `num_devs[i]` after the first pass. -/
def Platform.numDevs (p : Platform δ) : Nat := if p.counted then p.devices.length else p.stale

/-- `*num_devices`, `offset` and `devs` -/
structure Fill (δ : Type) where
  numDevices : Nat
  offset : Nat
  devs : Buffer δ

/-- One pass of the second loop. -/
def fillPass (s : Fill δ) (p : Platform δ) : Except Fault (Fill δ) :=
  if p.filled then do
    let devs ← s.devs.writeAll s.offset p.devices
    pure { s with offset := (s.offset + p.numDevs) % 2 ^ 32, devs := devs }
  else pure { s with numDevices := (s.numDevices + 2 ^ 32 - p.numDevs) % 2 ^ 32 }

/-- `*num_devices` after the first loop, in `unsigned int`. -/
def countDevices (platforms : List (Platform δ)) : Nat :=
  platforms.foldl (fun n p => (n + p.numDevs) % 2 ^ 32) 0

/-- `get_all_devices`: the array it returns, and `*num_devices`. -/
def getAllDevices (platforms : List (Platform δ)) : Except Fault (Buffer δ × Nat) := do
  let numDevices := countDevices platforms
  let s ← platforms.foldlM fillPass ⟨numDevices, 0, .alloc δ numDevices⟩
  pure (s.devs, s.numDevices)

/-- The devices of the platforms that can be queried. -/
def allDevices (platforms : List (Platform δ)) : List δ :=
  (platforms.filter (·.filled)).flatMap (·.devices)

/-- Every store lands inside the array, and the caller sees the devices. -/
def Enumerated (platforms : List (Platform δ)) : Prop :=
  ∃ devs, getAllDevices platforms = .ok (devs, (allDevices platforms).length) ∧
    devs.StartsWith (allDevices platforms)

/-! ## the first pass -/

theorem countDevices_eq (platforms : List (Platform δ)) :
    countDevices platforms = (platforms.map (·.numDevs)).sum % 2 ^ 32 := by
  have hfold : ∀ (ps : List (Platform δ)) (n : Nat),
      ps.foldl (fun n p => (n + p.numDevs) % 2 ^ 32) (n % 2 ^ 32) =
        (n + (ps.map (·.numDevs)).sum) % 2 ^ 32 := by
    intro ps
    induction ps with
    | nil => simp
    | cons p ps ih =>
        intro n
        rw [List.foldl_cons, Nat.mod_add_mod, ih, List.map_cons, List.sum_cons, Nat.add_assoc]
  simpa [countDevices] using hfold platforms 0

/-! ## the second pass -/

section
variable {p : Platform δ} {platforms : List (Platform δ)} {s : Fill δ} {found : List δ}

theorem numDevs_of_filled (h : p.filled = true) : p.numDevs = p.devices.length := by
  rw [Platform.numDevs, if_pos (p.counted_of_filled h)]

theorem numDevs_lt (h : p.devices.length < 2 ^ 32) : p.numDevs < 2 ^ 32 := by
  have hstale := p.stale_lt
  unfold Platform.numDevs
  split <;> assumption

theorem allDevices_cons_filled (h : p.filled = true) :
    allDevices (p :: platforms) = p.devices ++ allDevices platforms := by
  simp [allDevices, h]

theorem allDevices_cons_failed (h : p.filled = false) :
    allDevices (p :: platforms) = allDevices platforms := by
  simp [allDevices, h]

/-- The state between two platforms: `found` has been stored, and what is left of
the sum are the platforms to come. -/
structure Fill.Between (s : Fill δ) (found : List δ) (platforms : List (Platform δ)) : Prop where
  offset : s.offset = found.length
  devs : s.devs.StartsWith found
  num : s.numDevices = (found.length + (platforms.map (·.numDevs)).sum) % 2 ^ 32
  small : found.length + (platforms.map (·.devices.length)).sum < 2 ^ 32

theorem fillPass_failed (h : p.filled = false) (hs : s.Between found (p :: platforms)) :
    ∃ s', fillPass s p = .ok s' ∧ s'.Between found platforms ∧ s'.devs = s.devs := by
  have hsmall := hs.small
  have hnum := hs.num
  have hentry : p.numDevs < 2 ^ 32 := by
    simp only [List.map_cons, List.sum_cons] at hsmall
    exact numDevs_lt (by omega)
  simp only [List.map_cons, List.sum_cons] at hsmall hnum
  refine ⟨⟨(s.numDevices + 2 ^ 32 - p.numDevs) % 2 ^ 32, s.offset, s.devs⟩, ?_,
    ⟨hs.offset, hs.devs, ?_, by omega⟩, rfl⟩
  · rw [fillPass, if_neg (by simp [h])]
    rfl
  · simp only [hnum]
    omega

theorem fillPass_filled (h : p.filled = true) (hs : s.Between found (p :: platforms))
    (hroom : (found ++ p.devices).length ≤ s.devs.size) :
    ∃ s', fillPass s p = .ok s' ∧ s'.Between (found ++ p.devices) platforms ∧
      s'.devs.size = s.devs.size := by
  obtain ⟨devs, hwrite, hsize, hstart⟩ := hs.devs.writeAll hroom
  have hsmall := hs.small
  have hnum := hs.num
  simp only [List.map_cons, List.sum_cons, numDevs_of_filled h] at hsmall hnum
  refine ⟨⟨s.numDevices, (s.offset + p.numDevs) % 2 ^ 32, devs⟩, ?_, ⟨?_, hstart, ?_, ?_⟩, hsize⟩
  · rw [fillPass, if_pos h, hs.offset, hwrite]
    rfl
  · simp only [hs.offset, numDevs_of_filled h, List.length_append]
    omega
  · simp only [hnum, List.length_append, Nat.add_assoc]
  · rw [List.length_append]
    omega

/-- The second loop, in an array that is large enough. -/
theorem fill_of_le (hs : s.Between found platforms)
    (hroom : (found ++ allDevices platforms).length ≤ s.devs.size) :
    ∃ s', platforms.foldlM fillPass s = .ok s' ∧ s'.Between (found ++ allDevices platforms) [] := by
  induction platforms generalizing s found with
  | nil => exact ⟨s, rfl, by simpa [allDevices] using hs⟩
  | cons p platforms ih =>
      cases h : p.filled with
      | true =>
          rw [allDevices_cons_filled h, ← List.append_assoc] at hroom ⊢
          obtain ⟨s', hpass, hs', hsize⟩ := fillPass_filled h hs (by
            rw [List.length_append] at hroom
            omega)
          obtain ⟨s'', hrun, hend⟩ := ih hs' (by rwa [hsize])
          exact ⟨s'', by rw [List.foldlM_cons, hpass]; exact hrun, hend⟩
      | false =>
          rw [allDevices_cons_failed h] at hroom ⊢
          obtain ⟨s', hpass, hs', hdevs⟩ := fillPass_failed h hs
          obtain ⟨s'', hrun, hend⟩ := ih hs' (by rwa [hdevs])
          exact ⟨s'', by rw [List.foldlM_cons, hpass]; exact hrun, hend⟩

/-- And in one that is not. -/
theorem fill_of_gt (hs : s.Between found platforms) (hfound : found.length ≤ s.devs.size)
    (hroom : s.devs.size < (found ++ allDevices platforms).length) :
    platforms.foldlM fillPass s = .error .outOfBounds := by
  induction platforms generalizing s found with
  | nil =>
      simp [allDevices] at hroom
      omega
  | cons p platforms ih =>
      cases h : p.filled with
      | true =>
          rw [allDevices_cons_filled h, ← List.append_assoc] at hroom
          by_cases hfits : (found ++ p.devices).length ≤ s.devs.size
          · obtain ⟨s', hpass, hs', hsize⟩ := fillPass_filled h hs hfits
            rw [List.foldlM_cons, hpass]
            exact ih hs' (by rwa [hsize]) (by rwa [hsize])
          · rw [List.length_append, Nat.not_le] at hfits
            have hwrite := Buffer.writeAll_of_gt hfound hfits
            rw [List.foldlM_cons, fillPass, if_pos h, hs.offset, hwrite]
            rfl
      | false =>
          rw [allDevices_cons_failed h] at hroom
          obtain ⟨s', hpass, hs', hdevs⟩ := fillPass_failed h hs
          rw [List.foldlM_cons, hpass]
          exact ih hs' (by rwa [hdevs]) (by rwa [hdevs])

end

/-! ## the function -/

/-- The array is as large as `countDevices` says. -/
theorem enumerated_iff_le_countDevices {platforms : List (Platform δ)}
    (hsmall : (platforms.map (·.devices.length)).sum < 2 ^ 32) :
    Enumerated platforms ↔ (allDevices platforms).length ≤ countDevices platforms := by
  have hstart : (⟨countDevices platforms, 0, .alloc δ (countDevices platforms)⟩ : Fill δ).Between []
      platforms := by
    refine ⟨rfl, by simp [Buffer.StartsWith], ?_, by simpa using hsmall⟩
    simpa using countDevices_eq platforms
  constructor
  · rintro ⟨devs, hrun, -⟩
    by_contra hlt
    have hfault := fill_of_gt hstart (Nat.zero_le _) (by simpa using hlt)
    rw [getAllDevices, hfault] at hrun
    contradiction
  · intro hle
    obtain ⟨s, hrun, hend⟩ := fill_of_le hstart (by simpa using hle)
    have hnum : s.numDevices = (allDevices platforms).length := by
      have hsmall := hend.small
      have hnum := hend.num
      simp at hsmall hnum
      omega
    refine ⟨s.devs, ?_, by simpa using hend.devs⟩
    rw [getAllDevices, hrun, ← hnum]
    rfl

/-- **Enumeration**: the array is large enough exactly when what the failed
counts left behind does not wrap the sum around below the devices found. -/
theorem enumerated_iff {platforms : List (Platform δ)}
    (hsmall : (platforms.map (·.devices.length)).sum < 2 ^ 32) :
    Enumerated platforms ↔
      (allDevices platforms).length ≤ (platforms.map (·.numDevs)).sum % 2 ^ 32 := by
  rw [enumerated_iff_le_countDevices hsmall, countDevices_eq]

/-- Two platforms, the second without devices for the query. -/
def mixedPlatforms : List (Platform Nat) :=
  [⟨[7, 8], 0, true, true, by decide, by decide⟩, ⟨[9], 5, false, false, by decide, by decide⟩]

theorem enumerated_iff_mixed :
    (mixedPlatforms.map (·.devices.length)).sum < 2 ^ 32 ∧ Enumerated mixedPlatforms :=
  ⟨by decide, (enumerated_iff (by decide)).mpr (by decide)⟩

/-- A failed count that leaves `0xffffffff`, and two devices after it. -/
def wrappingPlatforms : List (Platform Nat) :=
  [⟨[], 2 ^ 32 - 1, false, false, by decide, by decide⟩, ⟨[7, 8], 0, true, true, by decide, by decide⟩]

/-- The array has one entry, two are stored. -/
theorem enumeration_fails_wrap : getAllDevices wrappingPlatforms = .error .outOfBounds ∧
    ¬ Enumerated wrappingPlatforms := by
  have hrun : getAllDevices wrappingPlatforms = .error .outOfBounds := rfl
  refine ⟨hrun, ?_⟩
  rintro ⟨devs, hok, -⟩
  rw [hrun] at hok
  contradiction

end UclBench.ClLib
