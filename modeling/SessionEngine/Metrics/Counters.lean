import Mathlib.Data.UInt
import Mathlib.Tactic.Ring

namespace SessionEngine

/-! The request counters of `metrics.Metrics` as `main`'s `jobFn` moves them: worker goroutines
    run `jobFn` concurrently, each increment is one `atomic.AddUint64`, and a `Snapshot` call reads
    the three counters by three separate atomic loads, between which other steps may run. -/

/-- The counters of `Metrics`, each a `uint64` (`startTime` only feeds `RequestsPerSecond`). -/
structure Metrics where
  totalRequests : UInt64
  success : UInt64
  failed : UInt64
  deriving DecidableEq, Repr

/-- `NewMetrics`. -/
def newMetrics : Metrics := ⟨0, 0, 0⟩

/-- `IncrementTotal`. -/
def Metrics.incrementTotal (m : Metrics) : Metrics := { m with totalRequests := m.totalRequests + 1 }

/-- `IncrementSuccess`. -/
def Metrics.incrementSuccess (m : Metrics) : Metrics := { m with success := m.success + 1 }

/-- `IncrementFailed`. -/
def Metrics.incrementFailed (m : Metrics) : Metrics := { m with failed := m.failed + 1 }

/-- What `s.ExecuteRequest` returns to `jobFn`: an error, or a response with its status code. -/
inductive RequestResult where
  | error
  | response (statusCode : Nat)
  deriving DecidableEq, Repr

/-- `jobFn`'s test: a response with `resp.StatusCode >= 200 && resp.StatusCode < 400`. -/
def RequestResult.succeeded : RequestResult → Bool
  | .error => false
  | .response statusCode => 200 ≤ statusCode && statusCode < 400

/-- Where a run of `jobFn` stands: not yet past `if cfg.TargetURL == ""`, waiting for its request
    after `IncrementTotal`, returned at that test, or returned after `IncrementSuccess` (`true`) or
    `IncrementFailed` (`false`). -/
inductive JobPc where
  | started
  | requesting
  | skipped
  | recorded (success : Bool)
  deriving DecidableEq, Repr

/-- Where a `Snapshot` call stands: the loads of `TotalRequests`, `Success` and `Failed` are done
    one after the other. -/
inductive SnapshotPc where
  | loadingTotal
  | loadingSuccess (total : UInt64)
  | loadingFailed (total success : UInt64)
  | returned (total success failed : UInt64)
  deriving DecidableEq, Repr

/-- The next atomic load of a `Snapshot` call. -/
def SnapshotPc.load (m : Metrics) : SnapshotPc → Option SnapshotPc
  | .loadingTotal => some (.loadingSuccess m.totalRequests)
  | .loadingSuccess total => some (.loadingFailed total m.success)
  | .loadingFailed total success => some (.returned total success m.failed)
  | .returned _ _ _ => none

/-- The counters with the `jobFn` runs and `Snapshot` calls made on them, and `cfg.TargetURL` as
    the runs read it. -/
structure Counters where
  metrics : Metrics
  targetURL : String
  jobs : List JobPc
  snapshots : List SnapshotPc
  deriving DecidableEq, Repr

def Counters.init (targetURL : String) : Counters :=
  ⟨newMetrics, targetURL, [], []⟩

/-- The scheduler's choices: a worker calls `jobFn`; a run passes its `TargetURL` test (and does
    `IncrementTotal`, the next atomic step, with it: reading a field nobody writes here commutes
    with every other step); its request returns; a `Snapshot` call starts; a call does its next load. -/
inductive CounterAction where
  | runJob
  | checkTarget (j : Nat)
  | requestReturned (j : Nat) (result : RequestResult)
  | snapshot
  | load (k : Nat)
  deriving DecidableEq, Repr

def Counters.step (c : Counters) : CounterAction → Option Counters
  | .runJob => some { c with jobs := c.jobs ++ [.started] }
  | .checkTarget j =>
    if c.jobs[j]? = some .started then
      if c.targetURL = "" then some { c with jobs := c.jobs.set j .skipped }
      else some { c with metrics := c.metrics.incrementTotal, jobs := c.jobs.set j .requesting }
    else none
  | .requestReturned j result =>
    if c.jobs[j]? = some .requesting then
      some { c with
        metrics := if result.succeeded then c.metrics.incrementSuccess else c.metrics.incrementFailed
        jobs := c.jobs.set j (.recorded result.succeeded) }
    else none
  | .snapshot => some { c with snapshots := c.snapshots ++ [.loadingTotal] }
  | .load k => (c.snapshots[k]?).bind fun pc => (pc.load c.metrics).map fun pc' => { c with snapshots := c.snapshots.set k pc' }

def Counters.run (c : Counters) : List CounterAction → Option Counters
  | [] => some c
  | a :: acts => (c.step a).bind fun c' => c'.run acts

inductive Counters.Reachable : Counters → Prop
  | init (targetURL : String) : Counters.Reachable (.init targetURL)
  | step {c c' : Counters} {a : CounterAction} : Counters.Reachable c → c.step a = some c' → Counters.Reachable c'

/-- While a `jobFn` runs, a `Snapshot` can see the success it records and not the total it
    counted first: `Success` above `TotalRequests`. -/
example : (Counters.init "http://t").run [.runJob, .snapshot, .load 0, .checkTarget 0,
    .requestReturned 0 (.response 200), .load 0, .load 0] =
    some ⟨⟨1, 1, 0⟩, "http://t", [.recorded true], [.returned 0 1 0]⟩ := by
  decide

theorem Counters.Reachable.run {c c' : Counters} (reach : c.Reachable) :
    ∀ {acts : List CounterAction}, c.run acts = some c' → c'.Reachable
  | [], ran => by cases ran; exact reach
  | _ :: _, ran => by
    obtain ⟨_, stepped, rest⟩ := Option.bind_eq_some.mp ran
    exact (reach.step stepped).run rest

section Exact

open scoped UInt64.CommRing

@[simp] theorem Metrics.incrementTotal_totalRequests (m : Metrics) :
    m.incrementTotal.totalRequests = m.totalRequests + 1 := rfl
@[simp] theorem Metrics.incrementTotal_success (m : Metrics) : m.incrementTotal.success = m.success := rfl
@[simp] theorem Metrics.incrementTotal_failed (m : Metrics) : m.incrementTotal.failed = m.failed := rfl
@[simp] theorem Metrics.incrementSuccess_totalRequests (m : Metrics) :
    m.incrementSuccess.totalRequests = m.totalRequests := rfl
@[simp] theorem Metrics.incrementSuccess_success (m : Metrics) : m.incrementSuccess.success = m.success + 1 := rfl
@[simp] theorem Metrics.incrementSuccess_failed (m : Metrics) : m.incrementSuccess.failed = m.failed := rfl
@[simp] theorem Metrics.incrementFailed_totalRequests (m : Metrics) :
    m.incrementFailed.totalRequests = m.totalRequests := rfl
@[simp] theorem Metrics.incrementFailed_success (m : Metrics) : m.incrementFailed.success = m.success := rfl
@[simp] theorem Metrics.incrementFailed_failed (m : Metrics) : m.incrementFailed.failed = m.failed + 1 := rfl

/-- Each counter is the number of `jobFn` runs that made its increment, modulo 2^64: no update
    of the atomic counters is lost or counted twice. -/
structure Tally (m : Metrics) (jobs : List JobPc) : Prop where
  success : m.success = UInt64.ofNat (jobs.count (.recorded true))
  failed : m.failed = UInt64.ofNat (jobs.count (.recorded false))
  total : m.totalRequests =
    UInt64.ofNat (jobs.count .requesting + jobs.count (.recorded true) + jobs.count (.recorded false))

theorem uint64_ofNat_succ (n : Nat) : UInt64.ofNat (n + 1) = UInt64.ofNat n + 1 := by
  show ((n + 1 : Nat) : UInt64) = (n : UInt64) + 1
  push_cast
  rfl

theorem count_set_move {jobs : List JobPc} {j : Nat} {old : JobPc} (found : jobs[j]? = some old)
    (new x : JobPc) : (jobs.set j new).count x + (if old = x then 1 else 0) =
      jobs.count x + (if new = x then 1 else 0) := by
  obtain ⟨inside, same⟩ := List.getElem?_eq_some_iff.mp found
  have least : (if (jobs[j] == x) = true then 1 else 0) ≤ jobs.count x := by
    rw [List.count_eq_countP]
    exact List.boole_getElem_le_countP (· == x) jobs j inside
  rw [List.count_set new x jobs j inside]
  simp only [same, beq_iff_eq] at least ⊢
  omega

variable {m : Metrics} {jobs : List JobPc} {j : Nat}

theorem Tally.started (tally : Tally m jobs) : Tally m (jobs ++ [.started]) := by
  obtain ⟨success, failed, total⟩ := tally
  refine ⟨?_, ?_, ?_⟩ <;> simpa [List.count_append, List.count_singleton]

theorem Tally.skip (tally : Tally m jobs) (found : jobs[j]? = some .started) : Tally m (jobs.set j .skipped) := by
  have move := count_set_move found .skipped
  have requesting := move .requesting
  have yes := move (.recorded true)
  have no := move (.recorded false)
  simp only [reduceCtorEq, if_false, Nat.add_zero] at requesting yes no
  exact ⟨yes ▸ tally.success, no ▸ tally.failed, requesting ▸ yes ▸ no ▸ tally.total⟩

theorem Tally.count (tally : Tally m jobs) (found : jobs[j]? = some .started) :
    Tally m.incrementTotal (jobs.set j .requesting) := by
  have move := count_set_move found .requesting
  have requesting := move .requesting
  have yes := move (.recorded true)
  have no := move (.recorded false)
  simp only [reduceCtorEq, if_false, if_true, Nat.add_zero] at requesting yes no
  refine ⟨yes ▸ tally.success, no ▸ tally.failed, ?_⟩
  rw [Metrics.incrementTotal_totalRequests, tally.total, ← uint64_ofNat_succ]
  exact congrArg UInt64.ofNat (by omega)

theorem Tally.record (tally : Tally m jobs) (found : jobs[j]? = some .requesting) (ok : Bool) :
    Tally (if ok then m.incrementSuccess else m.incrementFailed) (jobs.set j (.recorded ok)) := by
  have move := count_set_move found (.recorded ok)
  have requesting := move .requesting
  have yes := move (.recorded true)
  have no := move (.recorded false)
  have total : UInt64.ofNat ((jobs.set j (.recorded ok)).count .requesting +
      (jobs.set j (.recorded ok)).count (.recorded true) + (jobs.set j (.recorded ok)).count (.recorded false)) =
      m.totalRequests := by
    rw [tally.total]
    cases ok <;> simp only [reduceCtorEq, if_false, if_true, Nat.add_zero, JobPc.recorded.injEq] at requesting yes no <;>
      exact congrArg UInt64.ofNat (by omega)
  cases ok <;> simp only [reduceCtorEq, if_false, if_true, Nat.add_zero, JobPc.recorded.injEq] at requesting yes no
  · refine ⟨?_, ?_, ?_⟩ <;> simp only [Bool.false_eq_true, if_false, Metrics.incrementFailed_success,
      Metrics.incrementFailed_failed, Metrics.incrementFailed_totalRequests, total]
    · rw [yes]; exact tally.success
    · rw [tally.failed, ← uint64_ofNat_succ, no]
  · refine ⟨?_, ?_, ?_⟩ <;> simp only [if_true, Metrics.incrementSuccess_success,
      Metrics.incrementSuccess_failed, Metrics.incrementSuccess_totalRequests, total]
    · rw [tally.success, ← uint64_ofNat_succ, yes]
    · rw [no]; exact tally.failed

theorem Tally.step {c c' : Counters} {a : CounterAction} (tally : Tally c.metrics c.jobs) (stepped : c.step a = some c') :
    Tally c'.metrics c'.jobs := by
  cases a with
  | runJob => cases stepped; exact tally.started
  | checkTarget j =>
    simp only [Counters.step] at stepped
    split_ifs at stepped with found empty <;> cases stepped
    · exact tally.skip found
    · exact tally.count found
  | requestReturned j result =>
    simp only [Counters.step] at stepped
    by_cases found : c.jobs[j]? = some .requesting
    · rw [if_pos found] at stepped
      cases stepped
      exact tally.record found result.succeeded
    · rw [if_neg found] at stepped
      cases stepped
  | snapshot => cases stepped; exact tally
  | load k =>
    obtain ⟨pc, -, stepped⟩ := Option.bind_eq_some.mp stepped
    obtain ⟨_, -, rfl⟩ := Option.map_eq_some'.mp stepped
    exact tally

theorem Counters.Reachable.tally {c : Counters} (reach : c.Reachable) : Tally c.metrics c.jobs := by
  induction reach with
  | init targetURL => exact ⟨rfl, rfl, rfl⟩
  | step _ stepped ih => exact ih.step stepped

theorem counters_count_job_runs {c : Counters} (reach : c.Reachable) :
    c.metrics.success = UInt64.ofNat (c.jobs.count (.recorded true)) ∧
      c.metrics.failed = UInt64.ofNat (c.jobs.count (.recorded false)) ∧
      c.metrics.totalRequests = c.metrics.success + c.metrics.failed + UInt64.ofNat (c.jobs.count .requesting) := by
  have tally := reach.tally
  refine ⟨tally.success, tally.failed, ?_⟩
  rw [tally.total, tally.success, tally.failed]
  show ((_ : Nat) : UInt64) = (_ : Nat) + (_ : Nat) + (_ : Nat)
  push_cast
  ring

/-- Two runs against a target: one failed request recorded, one still in flight. -/
theorem counters_count_failed_and_in_flight :
    (Counters.init "http://t").run [.runJob, .runJob, .checkTarget 0, .checkTarget 1, .requestReturned 0 .error] =
        some ⟨⟨2, 0, 1⟩, "http://t", [.recorded false, .requesting], []⟩ ∧
      ((0 : UInt64) = UInt64.ofNat 0 ∧ (1 : UInt64) = UInt64.ofNat 1 ∧ (2 : UInt64) = 0 + 1 + UInt64.ofNat 1) :=
  ⟨by decide, @counters_count_job_runs ⟨⟨2, 0, 1⟩, "http://t", [.recorded false, .requesting], []⟩
    (@Counters.Reachable.run (.init "http://t") _ (.init "http://t")
      [.runJob, .runJob, .checkTarget 0, .checkTarget 1, .requestReturned 0 .error] (by decide))⟩

end Exact

section Drained

open scoped UInt64.CommRing

/-- What a `Snapshot` call has read so far when every load saw the counters `m`. -/
def SnapshotPc.ReadsOf (m : Metrics) : SnapshotPc → Prop
  | .loadingTotal => True
  | .loadingSuccess total => total = m.totalRequests
  | .loadingFailed total success => total = m.totalRequests ∧ success = m.success
  | .returned total success failed => total = m.totalRequests ∧ success = m.success ∧ failed = m.failed

theorem SnapshotPc.ReadsOf.load {m : Metrics} {pc pc' : SnapshotPc} (reads : pc.ReadsOf m) (loaded : pc.load m = some pc') :
    pc'.ReadsOf m := by
  cases pc <;> simp only [SnapshotPc.load, Option.some.injEq, reduceCtorEq] at loaded <;> subst loaded <;>
    simp_all [SnapshotPc.ReadsOf]

/-- Every run has returned: what `wp.Stop` waits for. -/
def Counters.Drained (c : Counters) : Prop :=
  JobPc.started ∉ c.jobs ∧ JobPc.requesting ∉ c.jobs

instance : DecidablePred Counters.Drained :=
  fun _ => inferInstanceAs (Decidable (_ ∧ _))

/-- After the drain, with no new `jobFn` run: the counters stay as in `start`, and the snapshots started from
    `start` on read them. -/
structure Counters.Quiet (start : Counters) (c : Counters) : Prop where
  metrics : c.metrics = start.metrics
  jobs : c.jobs = start.jobs
  old : start.snapshots.length ≤ c.snapshots.length
  reads : ∀ k pc, start.snapshots.length ≤ k → c.snapshots[k]? = some pc → pc.ReadsOf start.metrics

theorem Counters.Quiet.refl (c : Counters) : c.Quiet c :=
  ⟨rfl, rfl, le_refl _, fun k _ old found => absurd (List.getElem?_eq_some_iff.mp found).1 (by omega)⟩

theorem Counters.Quiet.step {start c c' : Counters} {a : CounterAction} (drained : start.Drained) (quiet : start.Quiet c)
    (noJob : a ≠ .runJob) (stepped : c.step a = some c') : start.Quiet c' := by
  obtain ⟨metrics, jobs, old, reads⟩ := quiet
  cases a with
  | runJob => exact absurd rfl noJob
  | checkTarget j =>
    simp only [Counters.step] at stepped
    split_ifs at stepped with found <;> exact absurd (jobs ▸ List.mem_iff_getElem?.mpr ⟨j, found⟩) drained.1
  | requestReturned j result =>
    simp only [Counters.step] at stepped
    split_ifs at stepped with found <;> exact absurd (jobs ▸ List.mem_iff_getElem?.mpr ⟨j, found⟩) drained.2
  | snapshot =>
    cases stepped
    refine ⟨metrics, jobs, by simp only [List.length_append]; omega, fun k pc late found => ?_⟩
    rw [List.getElem?_append] at found
    split at found
    · exact reads k pc late found
    · obtain ⟨-, rfl⟩ := List.getElem?_eq_some_iff.mp found
      simp [SnapshotPc.ReadsOf]
  | load i =>
    obtain ⟨pc, was, stepped⟩ := Option.bind_eq_some.mp stepped
    obtain ⟨pc', loaded, rfl⟩ := Option.map_eq_some'.mp stepped
    refine ⟨metrics, jobs, by simpa using old, fun k pc'' late found => ?_⟩
    by_cases same : i = k
    · subst same
      rw [List.getElem?_set_self (List.getElem?_eq_some_iff.mp was).1, Option.some.injEq] at found
      subst found
      exact (reads i pc late was).load (metrics ▸ loaded)
    · rw [List.getElem?_set_ne same] at found
      exact reads k pc'' late found

theorem Counters.run_quiet {start : Counters} (drained : start.Drained) :
    ∀ {c c' : Counters} {acts : List CounterAction}, start.Quiet c → CounterAction.runJob ∉ acts → c.run acts = some c' →
      start.Quiet c'
  | _, _, [], quiet, _, ran => by cases ran; exact quiet
  | c, c', a :: acts, quiet, noJob, ran => by
    obtain ⟨c'', stepped, rest⟩ := Option.bind_eq_some.mp ran
    exact Counters.run_quiet drained (quiet.step drained (fun same => noJob (same ▸ List.mem_cons_self _ _)) stepped)
      (fun member => noJob (List.mem_cons_of_mem a member)) rest

theorem snapshot_after_drain_is_exact {c c' : Counters} (reach : c.Reachable) (drained : c.Drained)
    {acts : List CounterAction} (noJob : CounterAction.runJob ∉ acts) (ran : c.run acts = some c') {k : Nat}
    {total success failed : UInt64} (late : c.snapshots.length ≤ k)
    (found : c'.snapshots[k]? = some (.returned total success failed)) :
    total = c.metrics.totalRequests ∧ success = c.metrics.success ∧ failed = c.metrics.failed ∧
      total = success + failed := by
  obtain ⟨same, yes, no⟩ := (Counters.run_quiet drained (Counters.Quiet.refl c) noJob ran).reads k _ late found
  have tally := reach.tally
  have idle : c.jobs.count .requesting = 0 := List.count_eq_zero.mpr drained.2
  refine ⟨same, yes, no, ?_⟩
  rw [same, yes, no, tally.total, tally.success, tally.failed, idle, Nat.zero_add]
  show ((_ : Nat) : UInt64) = (_ : Nat) + (_ : Nat)
  push_cast
  rfl

theorem snapshot_after_drain_of_failed_request :
    (Counters.init "http://t").run [.runJob, .checkTarget 0, .requestReturned 0 (.response 503)] =
        some ⟨⟨1, 0, 1⟩, "http://t", [.recorded false], []⟩ ∧
      (⟨⟨1, 0, 1⟩, "http://t", [.recorded false], []⟩ : Counters).Drained ∧
      CounterAction.runJob ∉ [.snapshot, .load 0, .load 0, .load 0] ∧
      (⟨⟨1, 0, 1⟩, "http://t", [.recorded false], []⟩ : Counters).run [.snapshot, .load 0, .load 0, .load 0] =
        some ⟨⟨1, 0, 1⟩, "http://t", [.recorded false], [.returned 1 0 1]⟩ ∧
      ((1 : UInt64) = 1 ∧ (0 : UInt64) = 0 ∧ (1 : UInt64) = 1 ∧ (1 : UInt64) = 0 + 1) :=
  ⟨by decide, by decide, by decide, by decide,
    @snapshot_after_drain_is_exact ⟨⟨1, 0, 1⟩, "http://t", [.recorded false], []⟩
      ⟨⟨1, 0, 1⟩, "http://t", [.recorded false], [.returned 1 0 1]⟩
      (@Counters.Reachable.run (.init "http://t") ⟨⟨1, 0, 1⟩, "http://t", [.recorded false], []⟩
        (.init "http://t") [.runJob, .checkTarget 0, .requestReturned 0 (.response 503)] (by decide))
      (by decide) [.snapshot, .load 0, .load 0, .load 0] (by decide) (by decide) 0 1 0 1 (Nat.zero_le 0) rfl⟩

end Drained

end SessionEngine
