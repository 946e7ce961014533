import Mathlib.Logic.Relation
import SessionEngine.Token.Heartbeat

namespace SessionEngine.Token

/-! `ClaimSession` calls racing on one session id. `sync.Map` holds pointers, and
    `CompareAndSwap` compares the pointer it finds with the one the call loaded, so the states
    are kept in a heap addressed by allocation order. -/

/-- Where a `ClaimSession(sessionID)` call is: before its `Load`, holding the pointer `old` it
    loaded to a session marked available, or returned. -/
inductive ClaimPc where
  | start
  | loaded (old : Nat)
  | returned (claimed : Bool)
  deriving DecidableEq, Repr

/-- The states allocated so far, by address; the address `sessions` maps the contested id to;
    and the calls. -/
structure ClaimRace where
  heap : List SessionState
  entry : Option Nat
  calls : List ClaimPc
  deriving DecidableEq, Repr

/-- `K` calls about to start on an id that maps to the state at `address`. -/
def ClaimRace.contest (heap : List SessionState) (address k : Nat) : ClaimRace :=
  ⟨heap, some address, List.replicate k .start⟩

def ClaimRace.setCall (r : ClaimRace) (t : Nat) (pc : ClaimPc) : ClaimRace :=
  { r with calls := r.calls.set t pc }

/-- `m.sessions.Load(sessionID)` and the check of `Available`. -/
def ClaimRace.load (r : ClaimRace) : ClaimPc :=
  match r.entry with
  | none => .returned false
  | some old =>
    match r.heap[old]? with
    | some s => if s.available then .loaded old else .returned false
    | none => .returned false

/-- `m.sessions.CompareAndSwap(sessionID, old, &updated)` by call `t`, `updated` being a copy
    of `*old` with `Available = false`, allocated at the next address when it is stored. -/
def ClaimRace.compareAndSwap (r : ClaimRace) (t old : Nat) : ClaimRace :=
  match r.heap[old]? with
  | some s =>
    if r.entry = some old then
      ⟨r.heap ++ [{ s with available := false }], some r.heap.length, r.calls.set t (.returned true)⟩
    else r.setCall t (.returned false)
  | none => r.setCall t (.returned false)

inductive ClaimAction where
  | load (t : Nat)
  | compareAndSwap (t : Nat)
  deriving DecidableEq, Repr

def ClaimRace.step (r : ClaimRace) : ClaimAction → Option ClaimRace
  | .load t => if r.calls[t]? = some .start then some (r.setCall t r.load) else none
  | .compareAndSwap t =>
    match r.calls[t]? with
    | some (.loaded old) => some (r.compareAndSwap t old)
    | _ => none

def ClaimRace.Next (r r' : ClaimRace) : Prop :=
  ∃ a, r.step a = some r'

def ClaimRace.run (r : ClaimRace) : List ClaimAction → Option ClaimRace
  | [] => some r
  | a :: rest => (r.step a).bind fun r' => r'.run rest

theorem ClaimRace.run_reaches {r r' : ClaimRace} (actions : List ClaimAction) (ran : r.run actions = some r') :
    Relation.ReflTransGen ClaimRace.Next r r' := by
  induction actions generalizing r with
  | nil =>
    cases ran
    exact .refl
  | cons a rest ih =>
    simp only [ClaimRace.run, Option.bind_eq_some] at ran
    obtain ⟨next, stepped, ran⟩ := ran
    exact .head ⟨a, stepped⟩ (ih ran)

/-! The contest keeps one of two shapes: nobody has won and the id still maps to the original
    state, or exactly one call has won and the id maps to the copy it stored. -/

section Contest

variable (original : Nat) (s₀ : SessionState)

/-- Nobody has won: the id maps to the original state, and every call is starting or holds
    the original pointer. -/
def ClaimRace.Open (r : ClaimRace) : Prop :=
  r.entry = some original ∧ ∀ (j : Nat) (c : ClaimPc), r.calls[j]? = some c → c = .start ∨ c = .loaded original

/-- Call `winner` alone has returned true, the id maps to the copy it stored, and every call
    still holding a pointer holds the original one. -/
def ClaimRace.Won (r : ClaimRace) : Prop :=
  ∃ stored winner : Nat, stored ≠ original ∧ r.entry = some stored ∧
    r.heap[stored]? = some { s₀ with available := false } ∧ r.calls[winner]? = some (.returned true) ∧
    (∀ j : Nat, r.calls[j]? = some (.returned true) → j = winner) ∧
    ∀ j old : Nat, r.calls[j]? = some (.loaded old) → old = original

structure ClaimRace.Inv (r : ClaimRace) : Prop where
  kept : r.heap[original]? = some s₀
  shape : r.Open original ∨ r.Won original s₀

end Contest

section Steps

variable {original : Nat} {s₀ : SessionState} {r r' : ClaimRace} {t : Nat}

theorem ClaimRace.getElem?_setCall (h : t < r.calls.length) (pc : ClaimPc) (j : Nat) :
    (r.setCall t pc).calls[j]? = if t = j then some pc else r.calls[j]? := by
  simp only [ClaimRace.setCall, List.getElem?_set, h, if_true]

theorem ClaimRace.length_step {a : ClaimAction} (stepped : r.step a = some r') : r'.calls.length = r.calls.length := by
  cases a with
  | load t =>
    simp only [ClaimRace.step] at stepped
    split at stepped <;> cases stepped
    simp [ClaimRace.setCall]
  | compareAndSwap t =>
    simp only [ClaimRace.step] at stepped
    split at stepped <;> cases stepped
    unfold ClaimRace.compareAndSwap
    split <;> (try split) <;> simp [ClaimRace.setCall]

theorem ClaimRace.Inv.lose (inv : r.Inv original s₀) (h : t < r.calls.length)
    (notWon : r.calls[t]? ≠ some (.returned true))
    (notOpen : r.Open original → False) : (r.setCall t (.returned false)).Inv original s₀ := by
  refine ⟨inv.kept, .inr ?_⟩
  obtain ⟨stored, winner, other, entry, copy, won, alone, holds⟩ := inv.shape.resolve_left notOpen
  refine ⟨stored, winner, other, entry, copy, ?_, fun j found => ?_, fun j old found => ?_⟩ <;>
    simp only [ClaimRace.getElem?_setCall h] at *
  · rw [if_neg fun same : t = winner => notWon (same ▸ won)]
    exact won
  · split at found
    · cases found
    · exact alone j found
  · split at found
    · cases found
    · exact holds j old found

theorem ClaimRace.Inv.step (inv : r.Inv original s₀) (available : s₀.available = true) {a : ClaimAction}
    (stepped : r.step a = some r') : r'.Inv original s₀ := by
  cases a with
  | load t =>
    simp only [ClaimRace.step] at stepped
    split at stepped <;> cases stepped
    rename_i starting
    have h := (List.getElem?_eq_some_iff.mp starting).1
    rcases inv.shape with ⟨entry, calls⟩ | won
    · have loads : r.load = .loaded original := by simp [ClaimRace.load, entry, inv.kept, available]
      refine ⟨inv.kept, .inl ⟨entry, fun j c found => ?_⟩⟩
      rw [loads, ClaimRace.getElem?_setCall h] at found
      split at found
      · cases found
        exact .inr rfl
      · exact calls j c found
    · obtain ⟨stored, winner, other, entry, copy, -⟩ := won
      have loses : r.load = .returned false := by simp [ClaimRace.load, entry, copy]
      rw [loses]
      exact inv.lose h (by simp [starting]) fun opened => other (Option.some.inj (entry.symm.trans opened.1))
  | compareAndSwap t =>
    simp only [ClaimRace.step] at stepped
    split at stepped <;> cases stepped
    rename_i old holding
    have h := (List.getElem?_eq_some_iff.mp holding).1
    have held : old = original := by
      rcases inv.shape with ⟨-, calls⟩ | ⟨-, -, -, -, -, -, -, holds⟩
      · simpa using (calls t _ holding).resolve_left (by simp)
      · exact holds t old holding
    subst held
    rcases inv.shape with ⟨entry, calls⟩ | won
    · have below := (List.getElem?_eq_some_iff.mp inv.kept).1
      simp only [ClaimRace.compareAndSwap, inv.kept, entry, if_true]
      refine ⟨by rw [List.getElem?_append_left below, inv.kept], .inr ⟨r.heap.length, t, Nat.ne_of_gt below, rfl,
        by simp, by simp [List.getElem?_set, h], fun j found => ?_, fun j old found => ?_⟩⟩
      · rw [List.getElem?_set] at found
        split at found
        · omega
        · rcases calls j _ found with wrong | wrong <;> cases wrong
      · rw [List.getElem?_set] at found
        split at found
        · simp at found
        · simpa using (calls j _ found).resolve_left (by simp)
    · obtain ⟨stored, winner, other, entry, -⟩ := won
      have differ : r.entry ≠ some old := fun same => other (Option.some.inj (entry.symm.trans same))
      simp only [ClaimRace.compareAndSwap, inv.kept, differ, if_false]
      exact inv.lose h (by simp [holding]) fun opened => differ opened.1

end Steps

theorem ClaimRace.contest_inv {heap : List SessionState} {address k : Nat} {s₀ : SessionState}
    (stored : heap[address]? = some s₀) (available : s₀.available = true) {r : ClaimRace}
    (contest : Relation.ReflTransGen ClaimRace.Next (ClaimRace.contest heap address k) r) :
    r.Inv address s₀ ∧ r.calls.length = k := by
  induction contest with
  | refl =>
    refine ⟨⟨stored, .inl ⟨rfl, fun j c found => .inl ?_⟩⟩, by simp [ClaimRace.contest]⟩
    exact (by simpa [ClaimRace.contest, List.getElem?_replicate] using found.symm : j < k ∧ c = .start).2
  | tail _ next ih =>
    obtain ⟨a, stepped⟩ := next
    exact ⟨ih.1.step available stepped, (ClaimRace.length_step stepped).trans ih.2⟩

theorem exactly_one_claim_wins {heap : List SessionState} {address k : Nat} {s₀ : SessionState}
    (stored : heap[address]? = some s₀) (available : s₀.available = true) (several : 1 ≤ k) {r : ClaimRace}
    (contest : Relation.ReflTransGen ClaimRace.Next (ClaimRace.contest heap address k) r)
    (finished : ∀ c ∈ r.calls, ∃ claimed, c = .returned claimed) :
    r.calls.length = k ∧
      (∃ winner : Nat, r.calls[winner]? = some (.returned true) ∧
        ∀ j : Nat, r.calls[j]? = some (.returned true) → j = winner) ∧
      ∃ p, r.entry = some p ∧ r.heap[p]? = some { s₀ with available := false } := by
  obtain ⟨inv, length⟩ := ClaimRace.contest_inv stored available contest
  have notOpen : r.Open address → False := fun ⟨_, calls⟩ => by
    obtain ⟨c, first⟩ : ∃ c, r.calls[0]? = some c := ⟨_, List.getElem?_eq_getElem (by omega)⟩
    obtain ⟨claimed, rfl⟩ := finished c (List.getElem?_mem first)
    rcases calls 0 _ first with wrong | wrong <;> cases wrong
  obtain ⟨p, winner, -, entry, copy, won, alone, -⟩ := inv.shape.resolve_left notOpen
  exact ⟨length, ⟨winner, won, alone⟩, p, entry, copy⟩

/-- The session of TestHeartbeatManager_ClaimSession. -/
def claimable : SessionState := ⟨5, "", [], 0, true⟩

theorem exactly_one_claim_wins_two_racing :
    ∃ r : ClaimRace, ClaimRace.run (ClaimRace.contest [claimable] 0 2)
        [.load 0, .load 1, .compareAndSwap 1, .compareAndSwap 0] = some r ∧
      (r.calls.length = 2 ∧
        (∃ winner : Nat, r.calls[winner]? = some (.returned true) ∧
          ∀ j : Nat, r.calls[j]? = some (.returned true) → j = winner) ∧
        ∃ p, r.entry = some p ∧ r.heap[p]? = some { claimable with available := false }) := by
  refine ⟨_, rfl, @exactly_one_claim_wins [claimable] 0 2 claimable rfl rfl (by decide) _
    (ClaimRace.run_reaches [.load 0, .load 1, .compareAndSwap 1, .compareAndSwap 0] rfl) ?_⟩
  decide

end SessionEngine.Token
