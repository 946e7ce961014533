import SessionEngine.Payload.Schema

namespace SessionEngine.Payload

/-! The rest of the `Validator` API, and what a run of calls on one validator leaves. Each call
    parses before it locks, reading no state there, so a run of concurrent calls is the run of
    their locked sections in the order they take `mu`. -/

/-- `HasBaseline`: `v.baseline != nil`. -/
def Validator.hasBaseline (v : Validator) : Bool :=
  v.baseline.isSome

/-- `BaselineFields`: the keys of a copy of the baseline (none without one), sorted by
    `sort.Strings`. The keys are distinct and valid UTF-8, so their byte order is the order of
    their code points, and any sort gives the same list. -/
def Validator.baselineFields (v : Validator) : List String :=
  (((v.baseline.map Schema.entries).getD []).map Prod.fst).insertionSort (· ≤ ·)

/-- `Reset`. -/
def Validator.reset (v : Validator) : Validator :=
  { v with baseline := none }

inductive ValidatorCall where
  | learn (data : List UInt8)
  | validate (data : List UInt8)
  | reset

inductive ValidatorReply where
  | learned (result : Except ValidatorError Unit)
  | validated (result : Except ValidatorError (List Mismatch))
  | reset

/-- One call, run alone: a call that fails leaves the validator as it was. -/
def Validator.call (v : Validator) : ValidatorCall → Validator × ValidatorReply
  | .learn data =>
    match v.learn data with
    | .ok v' => (v', .learned (.ok ()))
    | .error e => (v, .learned (.error e))
  | .validate data =>
    match v.validate data with
    | .ok (mismatches, v') => (v', .validated (.ok mismatches))
    | .error e => (v, .validated (.error e))
  | .reset => (v.reset, .reset)

/-- The validator after a run of calls, with their replies in order. -/
def Validator.run (v : Validator) (calls : List ValidatorCall) : Validator × List ValidatorReply :=
  calls.foldl (fun state c => ((state.1.call c).1, state.2 ++ [(state.1.call c).2])) (v, [])

/-! What a validator is for, read off the calls alone. -/

def ValidatorCall.isReset : ValidatorCall → Bool
  | .reset => true
  | _ => false

/-- The schema of a `Learn` that parsed. -/
def ValidatorCall.learnedSchema : ValidatorCall → Option Schema
  | .learn data => (extractSchema data).toOption
  | _ => none

/-- The schema of a `Validate` that parsed. -/
def ValidatorCall.validatedSchema : ValidatorCall → Option Schema
  | .validate data => (extractSchema data).toOption
  | _ => none

/-- The calls after the last `Reset`. -/
def sinceReset (calls : List ValidatorCall) : List ValidatorCall :=
  (calls.reverse.takeWhile fun c => !c.isReset).reverse

/-- The baseline a run should leave: the schema of the last `Learn` since the last `Reset` that
    parsed; without one, the baseline held before the run if no `Reset` came; and failing that,
    the schema of the first `Validate` since the last `Reset` that parsed. -/
def expectedBaseline (start : Option Schema) (calls : List ValidatorCall) : Option Schema :=
  ((sinceReset calls).filterMap ValidatorCall.learnedSchema).getLast?.or
    (((if calls.any ValidatorCall.isReset then none else start)).or
      ((sinceReset calls).filterMap ValidatorCall.validatedSchema).head?)

section Steps

theorem sinceReset_concat (calls : List ValidatorCall) (c : ValidatorCall) :
    sinceReset (calls ++ [c]) = if c.isReset then [] else sinceReset calls ++ [c] := by
  unfold sinceReset
  cases c <;> simp [ValidatorCall.isReset, List.takeWhile_cons]

theorem expectedBaseline_learn (start : Option Schema) (calls : List ValidatorCall) (data : List UInt8) :
    expectedBaseline start (calls ++ [.learn data]) = ((extractSchema data).toOption).or (expectedBaseline start calls) := by
  cases parsed : extractSchema data <;>
    simp [expectedBaseline, sinceReset_concat, ValidatorCall.isReset, ValidatorCall.learnedSchema,
      ValidatorCall.validatedSchema, parsed, List.filterMap_append, Except.toOption]

theorem expectedBaseline_validate (start : Option Schema) (calls : List ValidatorCall) (data : List UInt8) :
    expectedBaseline start (calls ++ [.validate data]) = (expectedBaseline start calls).or (extractSchema data).toOption := by
  cases parsed : extractSchema data <;>
    simp [expectedBaseline, sinceReset_concat, ValidatorCall.isReset, ValidatorCall.learnedSchema,
      ValidatorCall.validatedSchema, parsed, List.filterMap_append, Except.toOption, List.head?_append,
      Option.or_assoc]

theorem expectedBaseline_reset (start : Option Schema) (calls : List ValidatorCall) :
    expectedBaseline start (calls ++ [.reset]) = none := by
  simp [expectedBaseline, sinceReset_concat, ValidatorCall.isReset]

theorem Validator.call_baseline (v : Validator) :
    ∀ c : ValidatorCall, (v.call c).1.baseline =
      match c with
      | .learn data => ((extractSchema data).toOption).or v.baseline
      | .validate data => v.baseline.or (extractSchema data).toOption
      | .reset => none
  | .learn data => by
    cases parsed : extractSchema data <;> simp [Validator.call, Validator.learn, parsed, Except.toOption]
  | .validate data => by
    obtain ⟨baseline⟩ := v
    cases parsed : extractSchema data <;> cases baseline <;>
      simp [Validator.call, Validator.validate, parsed, Except.toOption]
  | .reset => rfl

theorem Validator.run_concat (v : Validator) (calls : List ValidatorCall) (c : ValidatorCall) :
    v.run (calls ++ [c]) = (((v.run calls).1.call c).1, (v.run calls).2 ++ [((v.run calls).1.call c).2]) := by
  simp only [Validator.run, List.foldl_append, List.foldl_cons, List.foldl_nil]

theorem Validator.run_baseline (v : Validator) (calls : List ValidatorCall) :
    (v.run calls).1.baseline = expectedBaseline v.baseline calls := by
  induction calls using List.reverseRecOn with
  | nil => simp [Validator.run, expectedBaseline, sinceReset]
  | append_singleton calls c ih =>
    rw [Validator.run_concat, Validator.call_baseline, ih]
    cases c with
    | learn data => exact (expectedBaseline_learn _ _ _).symm
    | validate data => exact (expectedBaseline_validate _ _ _).symm
    | reset => exact (expectedBaseline_reset _ _).symm

theorem Validator.call_validate_reply (v : Validator) {data : List UInt8} {current : Schema}
    (parsed : extractSchema data = .ok current) :
    (v.call (.validate data)).2 =
      .validated (.ok (match v.baseline with
        | none => []
        | some baseline => diffSchemas baseline current)) := by
  obtain ⟨baseline⟩ := v
  cases baseline <;> simp [Validator.call, Validator.validate, parsed]

end Steps

theorem validator_run_tracks_expected_baseline (v : Validator) (calls : List ValidatorCall) :
    (v.run calls).1.baseline = expectedBaseline v.baseline calls ∧
      (v.run calls).1.hasBaseline = (expectedBaseline v.baseline calls).isSome ∧
      ∀ data current, extractSchema data = .ok current →
        (v.run (calls ++ [.validate data])).2.getLast? =
          some (.validated (.ok (match expectedBaseline v.baseline calls with
            | none => []
            | some baseline => diffSchemas baseline current))) := by
  have baseline := Validator.run_baseline v calls
  refine ⟨baseline, by rw [Validator.hasBaseline, baseline], fun data current parsed => ?_⟩
  rw [Validator.run_concat, List.getLast?_concat, Validator.call_validate_reply _ parsed, baseline]

section Fields

theorem Schema.mem_keys_iff (s : Schema) (f : String) : f ∈ s.entries.map Prod.fst ↔ s.get? f ≠ none := by
  constructor
  · intro member
    obtain ⟨⟨_, t⟩, listed, rfl⟩ := List.mem_map.mp member
    simp [s.get?_of_mem listed]
  · intro found
    obtain ⟨t, found⟩ := Option.ne_none_iff_exists'.mp found
    exact List.mem_map_of_mem Prod.fst (mem_of_lookup_eq_some found)

theorem Validator.baselineFields_spec (v : Validator) :
    v.baselineFields.Sorted (· < ·) ∧
      ∀ f, f ∈ v.baselineFields ↔ ∃ s, v.baseline = some s ∧ f ∈ s.entries.map Prod.fst := by
  obtain ⟨baseline⟩ := v
  have nodup : (((baseline.map Schema.entries).getD []).map Prod.fst).Nodup := by
    cases baseline <;> simp [Schema.nodup]
  refine ⟨(List.sorted_insertionSort _ _).lt_of_le ((List.perm_insertionSort _ _).nodup_iff.mpr nodup), fun f => ?_⟩
  cases baseline <;> simp [Validator.baselineFields, List.mem_insertionSort]

theorem Schema.mem_keys_setAll_empty (writes : List (String × String)) (f : String) :
    f ∈ (Schema.empty.setAll writes).entries.map Prod.fst ↔ f ∈ writes.map Prod.fst := by
  rw [Schema.mem_keys_iff, Ne, Schema.get?_setAll_eq_none]
  simp [Schema.empty, Schema.get?]

end Fields

theorem baseline_fields_after_learn (v : Validator) (data : List UInt8) :
    ((∃ v', v.learn data = .ok v') ↔
        ∃ members, Encoding.parseJson data = some (.object members) ∧
          ∀ text ∈ Encoding.Json.memberNumbers members, (Encoding.parseFloat text).isSome) ∧
      ∀ v', v.learn data = .ok v' → ∃ fields, unmarshalInterface data = .ok (.object fields) ∧
        v'.baselineFields.Sorted (· < ·) ∧ ∀ f, f ∈ v'.baselineFields ↔ f ∈ (JsonValue.object fields).paths := by
  refine ⟨?_, fun v' learned => ?_⟩
  · rw [← extractSchema_accepts]
    simp only [Validator.learn_eq_ok]
    exact ⟨fun ⟨_, s, extracted, _⟩ => ⟨s, extracted⟩, fun ⟨s, extracted⟩ => ⟨_, s, extracted, rfl⟩⟩
  obtain ⟨_, extracted, rfl⟩ := Validator.learn_eq_ok.mp learned
  obtain ⟨fields, object, rfl⟩ := extractSchema_eq_ok.mp extracted
  refine ⟨fields, object, (Validator.baselineFields_spec _).1, fun f => ?_⟩
  rw [(Validator.baselineFields_spec _).2, JsonValue.paths, JsonValue.children]
  simp only [Option.some.injEq, exists_eq_left', flattenSchema_eq_setAll]
  exact Schema.mem_keys_setAll_empty _ f

end SessionEngine.Payload
