import Mathlib.Data.List.Sort
import SessionEngine.Payload.Validator
import SessionEngine.Encoding.Quote

namespace SessionEngine.Payload

/-! `Mismatch.String` and `FormatMismatches`: how the mismatches `Validate` returns are printed,
    one line per mismatch. A field path is a JSON key path and may hold a line break; `%q`
    escapes it, and the kinds and type names hold none. -/

/-- `m.String()`: `%s` writes the kind and the type names as they are, `%q` the field path as
    `strconv.Quote` does. Every case begins `PAYLOAD MISMATCH [%s] field %q`; the switch's default
    case is for a kind other than the three constants, which a model kind cannot be. -/
def Mismatch.string (t : Encoding.PrintTable) (m : Mismatch) : List UInt8 :=
  let head := Encoding.goBytes ("PAYLOAD MISMATCH [" ++ m.kind.value ++ "] field ") ++
    Encoding.quote t (Encoding.goBytes m.field)
  match m.kind with
  | .missing => head ++ Encoding.goBytes (" missing (was " ++ m.baselineType ++ ")")
  | .added => head ++ Encoding.goBytes (" added (type " ++ m.currentType ++ ")")
  | .typeChange => head ++ Encoding.goBytes (" type changed " ++ m.baselineType ++ " → " ++ m.currentType)

/-- `FormatMismatches`: the lines joined by `"\n"`, and the empty string for no mismatch. -/
def formatMismatches (t : Encoding.PrintTable) (mismatches : List Mismatch) : List UInt8 :=
  if mismatches.isEmpty then [] else [0x0A].intercalate (mismatches.map (Mismatch.string t))

/-- The type names `flattenSchema` records. -/
def typeNames : List String := ["object", "array", "string", "number", "bool", "null"]

def Schema.Typed (s : Schema) : Prop :=
  ∀ e ∈ s.entries, e.2 ∈ typeNames

/-- A validator whose baseline, if any, records only type names. -/
def Validator.Typed (v : Validator) : Prop :=
  ∀ s, v.baseline = some s → s.Typed

/-- The type names a mismatch carries: recorded ones, or empty where its kind has none. -/
def Mismatch.Typed (m : Mismatch) : Prop :=
  m.baselineType ∈ "" :: typeNames ∧ m.currentType ∈ "" :: typeNames

section Schemas

theorem JsonValue.typeName_mem (v : JsonValue) : v.typeName ∈ typeNames := by
  cases v <;> simp [JsonValue.typeName, typeNames]

mutual

theorem valueWrites_typed (path : String) : ∀ v : JsonValue, ∀ w ∈ valueWrites path v, w.2 ∈ typeNames
  | .object fields => by
    rw [valueWrites]
    exact List.forall_mem_cons.mpr ⟨by simp [typeNames], fieldWrites_typed fields path⟩
  | .array | .string | .number | .bool | .null => by simp [valueWrites, JsonValue.typeName, typeNames]

theorem fieldWrites_typed : ∀ (fields : List (String × JsonValue)) (parent : String), ∀ w ∈ fieldWrites fields parent,
    w.2 ∈ typeNames
  | [], _ => by simp [fieldWrites]
  | (k, v) :: rest, parent => by
    rw [fieldWrites]
    intro w member
    rcases List.mem_append.mp member with written | later
    · exact valueWrites_typed _ v w written
    · exact fieldWrites_typed rest parent w later

end

theorem Schema.Typed.set {s : Schema} (typed : s.Typed) (path : String) {type : String} (named : type ∈ typeNames) :
    (s.set path type).Typed := by
  intro e member
  rcases List.mem_cons.mp member with rfl | kept
  · exact named
  · exact typed e (List.mem_of_mem_filter kept)

theorem Schema.Typed.setAll {s : Schema} (typed : s.Typed) :
    ∀ {writes : List (String × String)}, (∀ w ∈ writes, w.2 ∈ typeNames) → (s.setAll writes).Typed
  | [], _ => typed
  | w :: rest, named => by
    rw [Schema.setAll_cons]
    exact (typed.set w.1 (named w (List.mem_cons_self _ _))).setAll fun w' member =>
      named w' (List.mem_cons_of_mem _ member)

theorem extractSchema_typed {data : List UInt8} {s : Schema} (parsed : extractSchema data = .ok s) : s.Typed := by
  obtain ⟨fields, -, rfl⟩ := extractSchema_eq_ok.mp parsed
  rw [flattenSchema_eq_setAll]
  exact Schema.Typed.setAll (fun _ member => (List.not_mem_nil _ member).elim) (fieldWrites_typed fields "")

theorem diffSchemas_typed {baseline current : Schema} (typedBaseline : baseline.Typed) (typedCurrent : current.Typed) :
    ∀ m ∈ diffSchemas baseline current, m.Typed := by
  intro m member
  simp only [diffSchemas] at member
  rcases List.mem_append.mp ((List.perm_insertionSort _ _).mem_iff.mp member) with changed | added
  · obtain ⟨⟨field, bType⟩, listed, made⟩ := List.mem_filterMap.mp changed
    have named := typedBaseline _ listed
    cases looked : current.get? field with
    | none =>
      simp only [looked, Option.some.injEq] at made
      subst made
      exact ⟨List.mem_cons_of_mem _ named, List.mem_cons_self _ _⟩
    | some cType =>
      simp only [looked] at made
      split_ifs at made
      cases made
      exact ⟨List.mem_cons_of_mem _ named,
        List.mem_cons_of_mem _ (typedCurrent _ (mem_of_lookup_eq_some looked))⟩
  · obtain ⟨⟨field, cType⟩, listed, made⟩ := List.mem_filterMap.mp added
    cases looked : baseline.get? field with
    | none =>
      simp only [looked, Option.some.injEq] at made
      subst made
      exact ⟨List.mem_cons_self _ _, List.mem_cons_of_mem _ (typedCurrent _ listed)⟩
    | some _ => simp [looked] at made

end Schemas

section Calls

variable {v : Validator}

theorem Validator.Typed.call (typed : v.Typed) (c : ValidatorCall) :
    (v.call c).1.Typed ∧ ∀ ms, (v.call c).2 = .validated (.ok ms) → ∀ m ∈ ms, m.Typed := by
  have extracted : ∀ data s, (extractSchema data).toOption = some s → s.Typed := fun data s parsed => by
    cases result : extractSchema data <;> simp only [result, Except.toOption, reduceCtorEq, Option.some.injEq] at parsed
    exact parsed ▸ extractSchema_typed result
  refine ⟨fun s held => ?_, fun ms replied => ?_⟩
  · rw [Validator.call_baseline] at held
    cases c with
    | learn data =>
      rcases Option.or_eq_some.mp held with parsed | ⟨-, kept⟩
      · exact extracted data s parsed
      · exact typed s kept
    | validate data =>
      rcases Option.or_eq_some.mp held with kept | ⟨-, parsed⟩
      · exact typed s kept
      · exact extracted data s parsed
    | reset => cases held
  · cases c with
    | validate data =>
      cases parsed : extractSchema data with
      | error e => simp [Validator.call, Validator.validate, parsed] at replied
      | ok current =>
        rw [Validator.call_validate_reply v parsed] at replied
        cases held : v.baseline with
        | none =>
          obtain rfl : ms = [] := by simpa [held, eq_comm] using replied
          exact fun _ member => (List.not_mem_nil _ member).elim
        | some baseline =>
          simp only [held, ValidatorReply.validated.injEq, Except.ok.injEq] at replied
          exact replied ▸ diffSchemas_typed (typed baseline held) (extractSchema_typed parsed)
    | learn data => cases result : v.learn data <;> simp [Validator.call, result] at replied
    | reset => cases replied

theorem Validator.Typed.run (typed : v.Typed) (calls : List ValidatorCall) :
    (v.run calls).1.Typed ∧ ∀ ms, .validated (.ok ms) ∈ (v.run calls).2 → ∀ m ∈ ms, m.Typed := by
  induction calls using List.reverseRecOn with
  | nil => exact ⟨typed, fun _ replied => (List.not_mem_nil _ replied).elim⟩
  | append_singleton calls c ih =>
    have step := ih.1.call c
    rw [Validator.run_concat]
    refine ⟨step.1, fun ms replied => ?_⟩
    rcases List.mem_append.mp replied with earlier | last
    · exact ih.2 ms earlier
    · exact step.2 ms (List.mem_singleton.mp last).symm

end Calls

section Lines

theorem goBytes_append (a b : String) : Encoding.goBytes (a ++ b) = Encoding.goBytes a ++ Encoding.goBytes b := by
  simp [Encoding.goBytes, String.toList, String.data_append]

theorem newline_not_mem_goBytes_typeName {n : String} (named : n ∈ "" :: typeNames) :
    (0x0A : UInt8) ∉ Encoding.goBytes n := by
  revert n
  decide

theorem newline_not_mem_string (t : Encoding.PrintTable) : ∀ {m : Mismatch}, m.Typed → (0x0A : UInt8) ∉ m.string t
  | ⟨kind, field, baselineType, currentType⟩, typed => by
    have quoted := Encoding.newline_not_mem_quote t (Encoding.goBytes field)
    have baseline := newline_not_mem_goBytes_typeName typed.1
    have current := newline_not_mem_goBytes_typeName typed.2
    cases kind <;> simp only [Mismatch.string, goBytes_append, List.mem_append, not_or] <;>
      (repeat' constructor) <;> first | assumption | decide

theorem formatMismatches_lines (t : Encoding.PrintTable) {ms : List Mismatch} (typed : ∀ m ∈ ms, m.Typed)
    (nonempty : ms ≠ []) : (formatMismatches t ms).splitOn 0x0A = ms.map (Mismatch.string t) := by
  rw [formatMismatches, if_neg (by simpa using nonempty)]
  refine List.splitOn_intercalate _ _ ?_ (by simpa using nonempty)
  intro line member
  obtain ⟨m, listed, rfl⟩ := List.mem_map.mp member
  exact newline_not_mem_string t (typed m listed)

end Lines

theorem format_mismatches_one_line_each (t : Encoding.PrintTable) (calls : List ValidatorCall) {ms : List Mismatch}
    (replied : .validated (.ok ms) ∈ (newValidator.run calls).2) (nonempty : ms ≠ []) :
    (formatMismatches t ms).splitOn 0x0A = ms.map (Mismatch.string t) :=
  formatMismatches_lines t ((Validator.Typed.run (fun _ held => by cases held) calls).2 ms replied) nonempty

/-- A baseline whose one key holds a line break, written as the escape `\n`: `{"a\nb":1}`. -/
def splitKeyBaseline : List UInt8 := Encoding.goBytes "\x7b\"a\\nb\":1\x7d"

/-- The same key with a string, `{"a\nb":"1"}`. -/
def splitKeyCurrent : List UInt8 := Encoding.goBytes "\x7b\"a\\nb\":\"1\"\x7d"

/-- `Learn` then `Validate` report the key's type change, printed as one line although the key
    holds a line break. -/
theorem format_mismatches_split_key :
    .validated (.ok [⟨.typeChange, "a\nb", "number", "string"⟩]) ∈
        (newValidator.run [.learn splitKeyBaseline, .validate splitKeyCurrent]).2 ∧
      [⟨.typeChange, "a\nb", "number", "string"⟩] ≠ ([] : List Mismatch) ∧
      (formatMismatches ⟨fun _ => false, rfl, rfl⟩ [⟨.typeChange, "a\nb", "number", "string"⟩]).splitOn 0x0A =
        [Mismatch.string ⟨fun _ => false, rfl, rfl⟩ ⟨.typeChange, "a\nb", "number", "string"⟩] := by
  have replied : .validated (.ok [⟨.typeChange, "a\nb", "number", "string"⟩]) ∈
      (newValidator.run [.learn splitKeyBaseline, .validate splitKeyCurrent]).2 :=
    List.mem_of_getLast?_eq_some rfl
  exact ⟨replied, List.cons_ne_nil _ _,
    format_mismatches_one_line_each _ [.learn splitKeyBaseline, .validate splitKeyCurrent] replied (List.cons_ne_nil _ _)⟩

end SessionEngine.Payload
