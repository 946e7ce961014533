import SessionEngine.Fingerprint.Sensor
import SessionEngine.Encoding.Quote

namespace SessionEngine.Fingerprint

open SessionEngine.Encoding

/-! `GenerateSensorPayload`: the draws it makes from the source, in the order the code makes them,
    and what every payload it returns looks like. -/

/-- `NavigatorInfo`. -/
structure NavigatorInfo where
  pluginsLength : Int
  platform : String
  language : String
  languages : String
  cookiesEnabled : Bool
  doNotTrack : String
  hardwareConcurrency : Int
  maxTouchPoints : Int
  webDriver : Bool
  deriving DecidableEq, Repr

/-- `SensorPayload`; its screen is the width and height the model's `ScreenInfo` keeps. -/
structure SensorPayload where
  version : String
  ab : String
  screen : ScreenInfo
  navigator : NavigatorInfo
  timezoneOffset : Int
  mouseMovements : List MousePoint
  canvasHash : List UInt8
  seq : Int
  timestamp : Int

def commonTimezoneOffsets : List Int := [0, -60, 300, 360, 420, 480, -330, -540]

/-- The `choices` of `hwConcurrency`. -/
def coreChoices : List Int := [4, 4, 4, 8, 8, 8, 12, 16]

/-- `hwConcurrency(rng)`; the index `Intn` draws is in range, so the default is never read. -/
def hwConcurrency (rng : Rng) : Option (Int × Rng) := do
  let (i, rng) ← rng.intn coreChoices.length
  pure (coreChoices.getD i.toNat 0, rng)

/-- `rng.Uint32()`: the next draw reduced below `2^32`. -/
def Rng.uint32 (rng : Rng) : Nat × Rng :=
  (rng.draws rng.used % 0x100000000, rng.skip)

/-- `randomCanvasHash(rng)`: `fmt.Sprintf("%08x", rng.Uint32())`, eight lowercase hex digits
    with leading zeros, which is all of a `uint32`. -/
def randomCanvasHash (rng : Rng) : List UInt8 × Rng :=
  (hexDigits rng.uint32.1 8, rng.uint32.2)

/-- `GenerateSensorPayload(rng, seq)` with `time.Now().UnixMilli()` at `now`; a nil `rng` is a
    source seeded from the clock, so any source. -/
def generateSensorPayload (rng : Rng) (seq now : Int) : Option (SensorPayload × Rng) := do
  let (i, rng) ← rng.intn commonScreenResolutions.length
  let screen := commonScreenResolutions.getD i.toNat ⟨0, 0⟩
  let (j, rng) ← rng.intn commonTimezoneOffsets.length
  let tzOffset := commonTimezoneOffsets.getD j.toNat 0
  let (extra, rng) ← rng.intn 3
  let (cores, rng) ← hwConcurrency rng
  let nav : NavigatorInfo := ⟨3 + extra, "Win32", "en-US", "en-US,en", true, "unspecified", cores, 0, false⟩
  let (movements, rng) ← generateMousePath rng screen.width screen.height
  let (hash, rng) := randomCanvasHash rng
  pure (⟨"2.0", "", screen, nav, tzOffset, movements, hash, seq, now⟩, rng)

/-- A lowercase hex digit, as `%x` writes them. -/
def isLowerHex (c : UInt8) : Bool :=
  (0x30 ≤ c.toNat && c.toNat ≤ 0x39) || (0x61 ≤ c.toNat && c.toNat ≤ 0x66)

/-- What the generator promises of a payload: geometry and a timezone from the realistic sets,
    the fixed Chrome-on-Windows navigator with three to five plugins and a common core count,
    `webDriver` false, a pointer path of 18 to 45 moves then one press and one release with
    strictly increasing times, an eight-digit hex canvas hash, and the caller's sequence
    number and clock. -/
structure SensorPayload.Plausible (p : SensorPayload) (seq now : Int) : Prop where
  screen : p.screen ∈ commonScreenResolutions
  timezone : p.timezoneOffset ∈ commonTimezoneOffsets
  plugins : 3 ≤ p.navigator.pluginsLength ∧ p.navigator.pluginsLength ≤ 5
  cores : p.navigator.hardwareConcurrency ∈ coreChoices
  navigator : p.navigator.platform = "Win32" ∧ p.navigator.language = "en-US" ∧
    p.navigator.languages = "en-US,en" ∧ p.navigator.cookiesEnabled = true ∧
    p.navigator.doNotTrack = "unspecified" ∧ p.navigator.maxTouchPoints = 0 ∧ p.navigator.webDriver = false
  path : ∃ moves down up, p.mouseMovements = moves ++ [down, up] ∧ 18 ≤ moves.length ∧ moves.length ≤ 45 ∧
    (∀ q ∈ moves, q.eventType = 0) ∧ down.eventType = 1 ∧ up.eventType = 2 ∧
    ((moves ++ [down, up]).map (·.t)).Chain' (· < ·)
  canvas : p.canvasHash.length = 8 ∧ ∀ c ∈ p.canvasHash, isLowerHex c = true
  stamped : p.version = "2.0" ∧ p.ab = "" ∧ p.seq = seq ∧ p.timestamp = now

section Draws

theorem getD_mem_of_intn {α : Type} {l : List α} (nonempty : 0 < l.length) (rng : Rng) (d : α) :
    ∃ i rng', rng.intn l.length = some (i, rng') ∧ l.getD i.toNat d ∈ l := by
  refine ⟨_, _, Rng.intn_of_pos rng (by exact_mod_cast nonempty), ?_⟩
  have := rng.intn_lt (show (0 : Int) < l.length by exact_mod_cast nonempty)
  rw [List.getD_eq_getElem?_getD, List.getElem?_eq_getElem (by omega), Option.getD_some]
  exact List.getElem_mem _

theorem hwConcurrency_mem (rng : Rng) : ∃ cores rng', hwConcurrency rng = some (cores, rng') ∧ cores ∈ coreChoices := by
  obtain ⟨i, rng', drawn, listed⟩ := getD_mem_of_intn (show 0 < coreChoices.length by decide) rng 0
  exact ⟨_, rng', by simp [hwConcurrency, drawn], listed⟩

theorem hexDigits_length (r : Nat) : ∀ count, (hexDigits r count).length = count
  | 0 => rfl
  | count + 1 => by rw [hexDigits, List.length_cons, hexDigits_length r count]

theorem isLowerHex_hexDigits (r : Nat) : ∀ count, ∀ c ∈ hexDigits r count, isLowerHex c = true
  | 0 => by simp [hexDigits]
  | count + 1 => by
    have digit : ∀ n < 16, isLowerHex (lowerhex n) = true := by decide
    rw [hexDigits]
    exact List.forall_mem_cons.mpr ⟨digit _ (Nat.mod_lt _ (by decide)), isLowerHex_hexDigits r count⟩

end Draws

theorem generate_sensor_payload_plausible (rng : Rng) (seq now : Int) :
    ∃ p rng', generateSensorPayload rng seq now = some (p, rng') ∧ p.Plausible seq now := by
  obtain ⟨i, rng₁, screenDrawn, screenListed⟩ :=
    getD_mem_of_intn (show 0 < commonScreenResolutions.length by decide) rng ⟨0, 0⟩
  obtain ⟨j, rng₂, zoneDrawn, zoneListed⟩ :=
    getD_mem_of_intn (show 0 < commonTimezoneOffsets.length by decide) rng₁ 0
  have extra := rng₂.intn_lt (show (0 : Int) < 3 by decide)
  obtain ⟨cores, rng₃, coresDrawn, coresListed⟩ := hwConcurrency_mem rng₂.skip
  have sized : ∀ s ∈ commonScreenResolutions, 4 ≤ s.width ∧ 4 ≤ s.height := by decide
  obtain ⟨moves, down, up, rng₄, pathDrawn, least, most, moving, pressed, released, increasing⟩ :=
    generateMousePath_spec rng₃ (sized _ screenListed).1 (sized _ screenListed).2
  have generated : generateSensorPayload rng seq now = some (⟨"2.0", "",
      commonScreenResolutions.getD i.toNat ⟨0, 0⟩,
      ⟨3 + ((rng₂.draws rng₂.used % 3 : Nat) : Int), "Win32", "en-US", "en-US,en", true, "unspecified", cores, 0, false⟩,
      commonTimezoneOffsets.getD j.toNat 0, moves ++ [down, up], hexDigits rng₄.uint32.1 8, seq, now⟩, rng₄.uint32.2) := by
    simp [generateSensorPayload, screenDrawn, zoneDrawn, Rng.intn_of_pos, coresDrawn, pathDrawn, randomCanvasHash,
      -List.getD_eq_getElem?_getD]
  refine ⟨_, _, generated, ?_⟩
  exact ⟨screenListed, zoneListed, by simp only; omega, coresListed, ⟨rfl, rfl, rfl, rfl, rfl, rfl, rfl⟩,
    ⟨moves, down, up, rfl, least, most, moving, pressed, released, increasing⟩,
    ⟨hexDigits_length _ 8, isLowerHex_hexDigits _ 8⟩, ⟨rfl, rfl, rfl, rfl⟩⟩

end SessionEngine.Fingerprint
