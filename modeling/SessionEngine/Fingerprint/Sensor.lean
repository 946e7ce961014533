import Mathlib.Data.List.Chain

namespace SessionEngine.Fingerprint

/-- The part of `ScreenInfo` that `generateMousePath` reads. -/
structure ScreenInfo where
  width : Int
  height : Int
  deriving DecidableEq, Repr

def commonScreenResolutions : List ScreenInfo :=
  [⟨1920, 1080⟩, ⟨1366, 768⟩, ⟨1536, 864⟩, ⟨1440, 900⟩, ⟨1280, 720⟩, ⟨2560, 1440⟩, ⟨1600, 900⟩]

/-- `MousePoint`; `eventType` is 0 for mousemove, 1 for mousedown and 2 for mouseup. -/
structure MousePoint where
  x : Float
  y : Float
  t : Int
  eventType : Int
  deriving Repr

/-- A `*rand.Rand` as the values its methods return: the `k`-th call returns `draws k` reduced
    below its bound when it is an `Intn`, and `fractions k` when it is a `Float64`. -/
structure Rng where
  draws : Nat → Nat
  fractions : Nat → Float
  used : Nat

def Rng.skip (rng : Rng) : Rng :=
  { rng with used := rng.used + 1 }

/-- `rng.Intn(k)`, which panics when `k ≤ 0`. -/
def Rng.intn (rng : Rng) (k : Int) : Option (Int × Rng) :=
  if 0 < k then some (((rng.draws rng.used % k.toNat : Nat) : Int), rng.skip) else none

/-- `rng.Float64()`. -/
def Rng.float64 (rng : Rng) : Float × Rng :=
  (rng.fractions rng.used, rng.skip)

theorem Rng.intn_of_pos (rng : Rng) {k : Int} (pos : 0 < k) :
    rng.intn k = some (((rng.draws rng.used % k.toNat : Nat) : Int), rng.skip) := if_pos pos

theorem Rng.intn_lt (rng : Rng) {k : Int} (pos : 0 < k) : ((rng.draws rng.used % k.toNat : Nat) : Int) < k := by
  have := Nat.mod_lt (rng.draws rng.used) (show 0 < k.toNat by omega)
  omega

/-- `math.Pi` as a `float64`. -/
def pi : Float := 3.141592653589793

/-- `int64(f)` for a whole `f` in range; Go leaves the result unspecified outside it. -/
def truncToInt64 (f : Float) : Int :=
  if f < 0 then -((-f).toUInt64.toNat : Int) else (f.toUInt64.toNat : Int)

def cubicBezier (t x0 y0 x1 y1 x2 y2 x3 y3 : Float) : Float × Float :=
  let u := 1 - t
  (u * u * u * x0 + 3 * u * u * t * x1 + 3 * u * t * t * x2 + t * t * t * x3,
    u * u * u * y0 + 3 * u * u * t * y1 + 3 * u * t * t * y2 + t * t * t * y3)

def easeInOut (t : Float) : Float :=
  t * t * (3 - 2 * t)

/-- What `generateMousePath` draws before its loop: the point count, the Bézier control points
    and the base time. -/
structure PathPlan where
  n : Int
  x0 : Float
  y0 : Float
  x1 : Float
  y1 : Float
  x2 : Float
  y2 : Float
  x3 : Float
  y3 : Float
  baseT : Int

def minPoints : Int := 18

def maxPoints : Int := 45

/-- The statements of `generateMousePath` up to `elapsed := int64(0)`. -/
def planMousePath (rng : Rng) (screenW screenH : Int) : Option (PathPlan × Rng) := do
  let (count, rng) ← rng.intn (maxPoints - minPoints + 1)
  let (a, rng) ← rng.intn (screenW.tdiv 4)
  let x0 := Float.ofInt (50 + a)
  let (b, rng) ← rng.intn (screenH.tdiv 4)
  let y0 := Float.ofInt (50 + b)
  let (c, rng) ← rng.intn (screenW.tdiv 2)
  let x3 := Float.ofInt (screenW.tdiv 4 + c)
  let (d, rng) ← rng.intn (screenH.tdiv 2)
  let y3 := Float.ofInt (screenH.tdiv 4 + d)
  let (e, rng) ← rng.intn (screenW.tdiv 3)
  let x1 := x0 + Float.ofInt (e + screenW.tdiv 6)
  let (f, rng) ← rng.intn (screenH.tdiv 4)
  let y1 := y0 - Float.ofInt (f + 30)
  let (g, rng) ← rng.intn (screenW.tdiv 3)
  let x2 := x3 - Float.ofInt (g + screenW.tdiv 6)
  let (h, rng) ← rng.intn (screenH.tdiv 4)
  let y2 := y3 + Float.ofInt (h + 30)
  let (base, rng) ← rng.intn 1200
  pure (⟨minPoints + count, x0, y0, x1, y1, x2, y2, x3, y3, 800 + base⟩, rng)

/-- One iteration `i` of the sampling loop: the point it appends, `elapsed` after it, and the
    random source. -/
def PathPlan.sampleMove (plan : PathPlan) (i : Nat) (elapsed : Int) (rng : Rng) :
    Option (MousePoint × Int × Rng) := do
  let rawT := Float.ofNat i / Float.ofInt (plan.n - 1)
  let bt := easeInOut rawT
  let (x, y) := cubicBezier bt plan.x0 plan.y0 plan.x1 plan.y1 plan.x2 plan.y2 plan.x3 plan.y3
  let (jitterX, rng) := rng.float64
  let x := x + (jitterX - 0.5) * 1.2
  let (jitterY, rng) := rng.float64
  let y := y + (jitterY - 0.5) * 1.2
  let speed := 0.5 + Float.sin (pi * rawT)
  let delay := truncToInt64 (Float.round (12 / (speed + 0.1)))
  let (jitter, rng) ← rng.intn 6
  let delay := delay + jitter - 2
  let delay := if delay < 4 then 4 else delay
  let elapsed := elapsed + delay
  pure (⟨Float.round (x * 100) / 100, Float.round (y * 100) / 100, plan.baseT + elapsed, 0⟩, elapsed, rng)

/-- The loop from iteration `i` with `remaining` iterations left. -/
def PathPlan.sampleMoves (plan : PathPlan) :
    (remaining i : Nat) → (elapsed : Int) → List MousePoint → Rng → Option (List MousePoint × Rng)
  | 0, _, _, points, rng => some (points, rng)
  | remaining + 1, i, elapsed, points, rng => do
    let (point, elapsed, rng) ← plan.sampleMove i elapsed rng
    plan.sampleMoves remaining (i + 1) elapsed (points ++ [point]) rng

/-- `generateMousePath`; `none` is a panic, of `Intn` or of indexing an empty `points`. -/
def generateMousePath (rng : Rng) (screenW screenH : Int) : Option (List MousePoint × Rng) := do
  let (plan, rng) ← planMousePath rng screenW screenH
  let (points, rng) ← plan.sampleMoves plan.n.toNat 0 0 [] rng
  let last ← points.getLast?
  let lastT := last.t
  let (down, rng) ← rng.intn 40
  let (up, rng) ← rng.intn 120
  pure (points ++ [⟨plan.x3, plan.y3, lastT + (20 + down), 1⟩, ⟨plan.x3, plan.y3, lastT + (80 + up), 2⟩], rng)

section Path

theorem planMousePath_spec (rng : Rng) {screenW screenH : Int} (wide : 4 ≤ screenW) (high : 4 ≤ screenH) :
    ∃ plan rng', planMousePath rng screenW screenH = some (plan, rng') ∧ 18 ≤ plan.n ∧ plan.n ≤ 45 := by
  have w4 : 0 < screenW.tdiv 4 := by rw [Int.tdiv_eq_ediv (by omega) (by omega)]; omega
  have w3 : 0 < screenW.tdiv 3 := by rw [Int.tdiv_eq_ediv (by omega) (by omega)]; omega
  have w2 : 0 < screenW.tdiv 2 := by rw [Int.tdiv_eq_ediv (by omega) (by omega)]; omega
  have h4 : 0 < screenH.tdiv 4 := by rw [Int.tdiv_eq_ediv (by omega) (by omega)]; omega
  have h2 : 0 < screenH.tdiv 2 := by rw [Int.tdiv_eq_ediv (by omega) (by omega)]; omega
  have count := rng.intn_lt (show (0 : Int) < maxPoints - minPoints + 1 by decide)
  simp only [planMousePath, Rng.intn_of_pos _ w4, Rng.intn_of_pos _ w3, Rng.intn_of_pos _ w2, Rng.intn_of_pos _ h4,
    Rng.intn_of_pos _ h2, Rng.intn_of_pos _ (show (0 : Int) < maxPoints - minPoints + 1 by decide),
    Rng.intn_of_pos _ (show (0 : Int) < 1200 by decide)]
  refine ⟨_, _, rfl, ?_, ?_⟩ <;> simp only [minPoints, maxPoints] at count ⊢ <;> omega

theorem PathPlan.sampleMove_spec (plan : PathPlan) (i : Nat) (elapsed : Int) (rng : Rng) :
    ∃ point elapsed' rng', plan.sampleMove i elapsed rng = some (point, elapsed', rng') ∧ point.eventType = 0 ∧
      point.t = plan.baseT + elapsed' ∧ elapsed + 4 ≤ elapsed' := by
  simp only [PathPlan.sampleMove, Rng.intn_of_pos _ (show (0 : Int) < 6 by decide)]
  refine ⟨_, _, _, rfl, rfl, rfl, ?_⟩
  split <;> omega

theorem PathPlan.sampleMoves_spec (plan : PathPlan) :
    ∀ (remaining i : Nat) (elapsed : Int) (points : List MousePoint) (rng : Rng),
      ∃ moves rng', plan.sampleMoves remaining i elapsed points rng = some (points ++ moves, rng') ∧
        moves.length = remaining ∧ (∀ p ∈ moves, p.eventType = 0 ∧ plan.baseT + elapsed < p.t) ∧
        (moves.map (·.t)).Chain' (· < ·)
  | 0, _, _, points, rng => ⟨[], rng, by simp [PathPlan.sampleMoves], rfl, by simp, List.chain'_nil⟩
  | remaining + 1, i, elapsed, points, rng => by
    obtain ⟨point, elapsed', rng', moved, move, stamp, later⟩ := plan.sampleMove_spec i elapsed rng
    obtain ⟨moves, rng'', ran, length, each, chain⟩ :=
      plan.sampleMoves_spec remaining (i + 1) elapsed' (points ++ [point]) rng'
    refine ⟨point :: moves, rng'', by simp [PathPlan.sampleMoves, moved, ran], by simp [length], ?_, ?_⟩
    · refine List.forall_mem_cons.mpr ⟨⟨move, by omega⟩, fun p member => ⟨(each p member).1, ?_⟩⟩
      have := (each p member).2
      omega
    · refine List.Chain'.cons' chain fun y first => ?_
      obtain ⟨q, member, rfl⟩ := List.mem_map.mp (List.mem_of_mem_head? first)
      show point.t < q.t
      have := (each q member).2
      omega

theorem generateMousePath_spec (rng : Rng) {screenW screenH : Int} (wide : 4 ≤ screenW) (high : 4 ≤ screenH) :
    ∃ moves down up rng', generateMousePath rng screenW screenH = some (moves ++ [down, up], rng') ∧
      18 ≤ moves.length ∧ moves.length ≤ 45 ∧ (∀ p ∈ moves, p.eventType = 0) ∧ down.eventType = 1 ∧
      up.eventType = 2 ∧ ((moves ++ [down, up]).map (·.t)).Chain' (· < ·) := by
  obtain ⟨plan, rng₁, planned, least, most⟩ := planMousePath_spec rng wide high
  obtain ⟨moves, rng₂, ran, length, each, chain⟩ := plan.sampleMoves_spec plan.n.toNat 0 0 [] rng₁
  obtain ⟨last, lastly⟩ : ∃ last, moves.getLast? = some last :=
    Option.isSome_iff_exists.mp (List.getLast?_isSome.mpr (List.ne_nil_of_length_pos (by omega)))
  have generated : generateMousePath rng screenW screenH =
      some (moves ++ [⟨plan.x3, plan.y3, last.t + (20 + (rng₂.draws rng₂.used : Int) % 40), 1⟩,
        ⟨plan.x3, plan.y3, last.t + (80 + (rng₂.skip.draws rng₂.skip.used : Int) % 120), 2⟩], rng₂.skip.skip) := by
    simp [generateMousePath, planned, ran, lastly, Rng.intn_of_pos]
  refine ⟨moves, _, _, _, generated, by omega, by omega, fun p member => (each p member).1, rfl, rfl, ?_⟩
  rw [List.map_append, List.chain'_append]
  refine ⟨chain, ?_, fun x lastT y firstT => ?_⟩
  · simp
    omega
  · simp [List.getLast?_map, lastly] at lastT firstT
    omega

end Path

theorem generate_mouse_path_moves_then_click (rng : Rng) {screen : ScreenInfo} (listed : screen ∈ commonScreenResolutions) :
    ∃ moves down up rng', generateMousePath rng screen.width screen.height = some (moves ++ [down, up], rng') ∧
      18 ≤ moves.length ∧ moves.length ≤ 45 ∧ (∀ p ∈ moves, p.eventType = 0) ∧ down.eventType = 1 ∧
      up.eventType = 2 ∧ ((moves ++ [down, up]).map (·.t)).Chain' (· < ·) := by
  have sized : ∀ s ∈ commonScreenResolutions, 4 ≤ s.width ∧ 4 ≤ s.height := by decide
  exact generateMousePath_spec rng (sized screen listed).1 (sized screen listed).2

/-- A source whose every draw is 0 and every fraction one half, on a 1920×1080 screen. -/
theorem generate_mouse_path_moves_then_click_full_hd :
    (⟨1920, 1080⟩ : ScreenInfo) ∈ commonScreenResolutions ∧
      ∃ moves down up rng', generateMousePath ⟨fun _ => 0, fun _ => 0.5, 0⟩ 1920 1080 = some (moves ++ [down, up], rng') ∧
        18 ≤ moves.length ∧ moves.length ≤ 45 ∧ (∀ p ∈ moves, p.eventType = 0) ∧ down.eventType = 1 ∧
        up.eventType = 2 ∧ ((moves ++ [down, up]).map (·.t)).Chain' (· < ·) :=
  ⟨by decide, generate_mouse_path_moves_then_click ⟨fun _ => 0, fun _ => 0.5, 0⟩
    (show (⟨1920, 1080⟩ : ScreenInfo) ∈ commonScreenResolutions by decide)⟩

end SessionEngine.Fingerprint
