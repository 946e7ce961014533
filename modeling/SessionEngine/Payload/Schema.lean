import Mathlib.Data.List.Sort
import Mathlib.Data.String.Basic
import SessionEngine.AssocList
import SessionEngine.Encoding.Quote

namespace SessionEngine.Payload

open Encoding (GoValue UnmarshalError)

/-- What the switch of `flattenSchema` reads of a decoded `interface{}`: the kind of each value
    and the keys of each object, so arrays, strings, numbers and booleans carry nothing. -/
inductive JsonValue where
  | object (fields : List (String × JsonValue))
  | array
  | string
  | number
  | bool
  | null

/-- `%T` of the decoded value. -/
def JsonValue.goType : JsonValue → String
  | .object _ => "map[string]interface \x7b\x7d"
  | .array => "[]interface \x7b\x7d"
  | .string => "string"
  | .number => "float64"
  | .bool => "bool"
  | .null => "<nil>"

/-- The type name `flattenSchema`'s switch records. -/
def JsonValue.typeName : JsonValue → String
  | .object _ => "object"
  | .array => "array"
  | .string => "string"
  | .number => "number"
  | .bool => "bool"
  | .null => "null"

def JsonValue.children : JsonValue → List (String × JsonValue)
  | .object fields => fields
  | _ => []

/-- A decoded key as a Go string. `unquote` writes valid UTF-8, read back here rune by rune. -/
def keyString (key : List UInt8) : String :=
  ⟨(Encoding.decodeRunes key).map fun
    | .valid r => Char.ofNat r
    | .invalid _ => Char.ofNat 0xFFFD⟩

/-- `m[key] = value` for each member in turn: a key keeps the value stored last. The map has no
    order; the list keeps each key where it last occurs, one of the orders `range` may take. -/
def storeMembers : List (String × JsonValue) → List (String × JsonValue)
  | [] => []
  | (k, v) :: rest => if rest.any (·.1 == k) then storeMembers rest else (k, v) :: storeMembers rest

mutual

/-- The `interface{}` value `valueInterface` stores, as `flattenSchema`'s switch sees it. -/
def interfaceValue : GoValue → JsonValue
  | .object members => .object (storeMembers (interfaceMembers members))
  | .array _ => .array
  | .string _ => .string
  | .float _ => .number
  | .bool _ => .bool
  | .null => .null

def interfaceMembers : List (List UInt8 × GoValue) → List (String × JsonValue)
  | [] => []
  | (key, v) :: rest => (keyString key, interfaceValue v) :: interfaceMembers rest

end

/-- `json.Unmarshal(data, &raw)` with `raw` an `interface{}`: `checkValid`, then the value. -/
def unmarshalInterface (data : List UInt8) : Except UnmarshalError JsonValue :=
  match Encoding.parseJson data with
  | none => .error .syntaxError
  | some v => interfaceValue <$> Encoding.decodeValue v

/-- A `schema`: a Go map from dot-separated path to type name, one entry per path. -/
structure Schema where
  entries : List (String × String)
  nodup : (entries.map Prod.fst).Nodup

def Schema.empty : Schema :=
  ⟨[], List.nodup_nil⟩

/-- `s[path] = type`. -/
def Schema.set (s : Schema) (path type : String) : Schema :=
  ⟨(path, type) :: s.entries.filter (·.1 ≠ path), by
    refine List.nodup_cons.mpr ⟨fun member => ?_, ?_⟩
    · obtain ⟨e, kept, same⟩ := List.mem_map.mp member
      simp [List.mem_filter, same] at kept
    · exact s.nodup.sublist (List.Sublist.map _ (List.filter_sublist _))⟩

def Schema.get? (s : Schema) (path : String) : Option String :=
  s.entries.lookup path

/-- `path := k; if prefix != "" { path = prefix + "." + k }`. -/
def joinPath (parent k : String) : String :=
  if parent ≠ "" then parent ++ "." ++ k else k

mutual

/-- The body of `flattenSchema`'s loop: the switch on the value at `path`. -/
def flattenValue (path : String) : JsonValue → Schema → Schema
  | .object fields, s => flattenSchema fields path (s.set path "object")
  | v, s => s.set path v.typeName

/-- `flattenSchema(obj, prefix, s)`, ranging over `obj` in the order of the list. -/
def flattenSchema : List (String × JsonValue) → String → Schema → Schema
  | [], _, s => s
  | (k, v) :: rest, parent, s => flattenSchema rest parent (flattenValue (joinPath parent k) v s)

end

/-- The errors of `extractSchema`, one for each `fmt.Errorf`. -/
inductive SchemaError where
  | unmarshal (err : UnmarshalError)
  | notObject (goType : String)
  deriving DecidableEq, Repr

/-- The error's text; that of a JSON `SyntaxError` is not modelled. -/
def SchemaError.message : SchemaError → Option String
  | .unmarshal err => err.message.map ("unmarshal JSON: " ++ ·)
  | .notObject goType => some ("expected JSON object, got " ++ goType)

/-- `extractSchema`: only a JSON object has a schema. -/
def extractSchema (data : List UInt8) : Except SchemaError Schema :=
  match unmarshalInterface data with
  | .error err => .error (.unmarshal err)
  | .ok (.object fields) => .ok (flattenSchema fields "" Schema.empty)
  | .ok raw => .error (.notObject raw.goType)

inductive MismatchKind where
  | missing
  | added
  | typeChange
  deriving DecidableEq, Repr

def MismatchKind.value : MismatchKind → String
  | .missing => "MISSING_FIELD"
  | .added => "ADDED_FIELD"
  | .typeChange => "TYPE_CHANGE"

structure Mismatch where
  kind : MismatchKind
  field : String
  baselineType : String
  currentType : String
  deriving DecidableEq, Repr

/-- The order `diffSchemas` sorts by: field, then kind. `sort.Slice` is modelled by an insertion
    sort; no two mismatches share both field and kind, so both give the same list. -/
def Mismatch.before (a b : Mismatch) : Bool :=
  if a.field ≠ b.field then decide (a.field < b.field) else decide (a.kind.value < b.kind.value)

def diffSchemas (baseline current : Schema) : List Mismatch :=
  let changed := baseline.entries.filterMap fun (field, bType) =>
    match current.get? field with
    | none => some ⟨.missing, field, bType, ""⟩
    | some cType => if cType ≠ bType then some ⟨.typeChange, field, bType, cType⟩ else none
  let added := current.entries.filterMap fun (field, cType) =>
    match baseline.get? field with
    | none => some ⟨.added, field, "", cType⟩
    | some _ => none
  (changed ++ added).insertionSort fun a b => a.before b

/-- A `Validator`; `copySchema` is the identity on this value. -/
structure Validator where
  baseline : Option Schema

def newValidator : Validator :=
  ⟨none⟩

/-- The errors of `Learn` and `Validate`, each wrapping that of `extractSchema`. -/
inductive ValidatorError where
  | learnSchema (err : SchemaError)
  | validate (err : SchemaError)
  deriving DecidableEq, Repr

def ValidatorError.message : ValidatorError → Option String
  | .learnSchema err => err.message.map ("payload: learn schema: " ++ ·)
  | .validate err => err.message.map ("payload: validate: " ++ ·)

def Validator.learn (v : Validator) (data : List UInt8) : Except ValidatorError Validator :=
  match extractSchema data with
  | .error e => .error (.learnSchema e)
  | .ok s => .ok { v with baseline := some s }

def Validator.validate (v : Validator) (data : List UInt8) : Except ValidatorError (List Mismatch × Validator) :=
  match extractSchema data with
  | .error e => .error (.validate e)
  | .ok current =>
    match v.baseline with
    | none => .ok ([], { v with baseline := some current })
    | some baseline => .ok (diffSchemas baseline current, v)

/-! What `extractSchema` accepts. -/

theorem extractSchema_eq_ok {data : List UInt8} {s : Schema} :
    extractSchema data = .ok s ↔
      ∃ fields, unmarshalInterface data = .ok (.object fields) ∧ s = flattenSchema fields "" Schema.empty := by
  unfold extractSchema
  cases unmarshalInterface data with
  | error err => simp
  | ok raw => cases raw <;> simp [eq_comm]

theorem interfaceValue_eq_object {g : GoValue} {fields : List (String × JsonValue)} :
    interfaceValue g = .object fields ↔ ∃ members, g = .object members ∧ fields = storeMembers (interfaceMembers members) := by
  cases g <;> simp [interfaceValue, eq_comm]

theorem decodeValue_eq_object {v : Encoding.Json} {members' : List (List UInt8 × GoValue)} :
    Encoding.decodeValue v = .ok (.object members') ↔
      ∃ members, v = .object members ∧ Encoding.decodeMembers members = .ok members' := by
  cases v with
  | number text =>
    simp only [Encoding.decodeValue]
    cases Encoding.parseFloat text <;> simp
  | array elements =>
    simp only [Encoding.decodeValue]
    cases Encoding.decodeElements elements <;> simp
  | object members =>
    simp only [Encoding.decodeValue]
    cases result : Encoding.decodeMembers members <;> simp [result]
  | _ => simp [Encoding.decodeValue]

theorem unmarshalInterface_eq_object {data : List UInt8} {fields : List (String × JsonValue)} :
    unmarshalInterface data = .ok (.object fields) ↔
      ∃ members decoded, Encoding.parseJson data = some (.object members) ∧
        Encoding.decodeMembers members = .ok decoded ∧ fields = storeMembers (interfaceMembers decoded) := by
  unfold unmarshalInterface
  cases Encoding.parseJson data with
  | none => simp
  | some v =>
    constructor
    · intro object
      obtain ⟨g, decoded, isObject⟩ : ∃ g, Encoding.decodeValue v = .ok g ∧ interfaceValue g = .object fields := by
        cases result : Encoding.decodeValue v <;> simp_all
      obtain ⟨members', rfl, rfl⟩ := interfaceValue_eq_object.mp isObject
      obtain ⟨members, rfl, decodedMembers⟩ := decodeValue_eq_object.mp decoded
      exact ⟨members, members', rfl, decodedMembers, rfl⟩
    · rintro ⟨members, decoded, same, decodedMembers, rfl⟩
      cases same
      simp [Encoding.decodeValue, decodedMembers, interfaceValue]

theorem extractSchema_accepts (data : List UInt8) :
    (∃ s, extractSchema data = .ok s) ↔
      ∃ members, Encoding.parseJson data = some (.object members) ∧
        ∀ text ∈ Encoding.Json.memberNumbers members, (Encoding.parseFloat text).isSome := by
  simp only [extractSchema_eq_ok, unmarshalInterface_eq_object]
  constructor
  · rintro ⟨_, _, ⟨members, decoded, parsed, decodedMembers, -⟩, -⟩
    exact ⟨members, parsed, (Encoding.decodeMembers_ok_iff members).mp ⟨decoded, decodedMembers⟩⟩
  · rintro ⟨members, parsed, inRange⟩
    obtain ⟨decoded, decodedMembers⟩ := (Encoding.decodeMembers_ok_iff members).mpr inRange
    exact ⟨_, _, ⟨members, decoded, parsed, decodedMembers, rfl⟩, rfl⟩

theorem Validator.learn_eq_ok {v v' : Validator} {data : List UInt8} :
    v.learn data = .ok v' ↔ ∃ s, extractSchema data = .ok s ∧ v' = { v with baseline := some s } := by
  unfold Validator.learn
  cases extractSchema data <;> simp [eq_comm]

/-! The writes `flattenSchema` makes, in order, and what the resulting map holds. -/

mutual

def valueWrites (path : String) : JsonValue → List (String × String)
  | .object fields => (path, "object") :: fieldWrites fields path
  | v => [(path, v.typeName)]

def fieldWrites : List (String × JsonValue) → String → List (String × String)
  | [], _ => []
  | (k, v) :: rest, parent => valueWrites (joinPath parent k) v ++ fieldWrites rest parent

end

/-- The dot-separated paths of an object, one per key path. -/
def JsonValue.paths (v : JsonValue) : List String :=
  (fieldWrites v.children "").map Prod.fst

def Schema.setAll (s : Schema) (writes : List (String × String)) : Schema :=
  writes.foldl (fun s w => s.set w.1 w.2) s

theorem valueWrites_eq (path : String) (v : JsonValue) :
    valueWrites path v = (path, v.typeName) :: fieldWrites v.children path := by
  cases v <;> rfl

mutual

theorem flattenValue_eq_setAll (path : String) :
    ∀ (v : JsonValue) (s : Schema), flattenValue path v s = s.setAll (valueWrites path v)
  | .object fields, _ => flattenSchema_eq_setAll fields path _
  | .array, _ | .string, _ | .number, _ | .bool, _ | .null, _ => rfl

theorem flattenSchema_eq_setAll :
    ∀ (fields : List (String × JsonValue)) (parent : String) (s : Schema),
      flattenSchema fields parent s = s.setAll (fieldWrites fields parent)
  | [], _, _ => rfl
  | (k, v) :: rest, parent, s => by
    rw [flattenSchema, fieldWrites, Schema.setAll, List.foldl_append, flattenSchema_eq_setAll rest,
      flattenValue_eq_setAll]
    rfl

end

theorem fieldWrites_eq_flatMap (parent : String) :
    ∀ fields : List (String × JsonValue),
      fieldWrites fields parent = fields.flatMap fun field => valueWrites (joinPath parent field.1) field.2
  | [] => rfl
  | (k, v) :: rest => by rw [fieldWrites, List.flatMap_cons, fieldWrites_eq_flatMap parent rest]

/-! What the map holds after a run of writes. -/

@[simp] theorem Schema.get?_set (s : Schema) (path type f : String) :
    (s.set path type).get? f = if f = path then some type else s.get? f := by
  by_cases same : f = path
  · subst same
    simp [Schema.set, Schema.get?]
  · rw [if_neg same, Schema.get?, Schema.set, List.lookup_cons, beq_eq_false_iff_ne.mpr same]
    exact lookup_filter_ne same _

theorem Schema.get?_of_mem (s : Schema) {path type : String} (member : (path, type) ∈ s.entries) :
    s.get? path = some type :=
  lookup_of_mem_nodup s.nodup member

theorem Schema.setAll_cons (s : Schema) (w : String × String) (rest : List (String × String)) :
    s.setAll (w :: rest) = (s.set w.1 w.2).setAll rest := rfl

theorem Schema.get?_setAll_of_not_mem {f : String} :
    ∀ {s : Schema} {writes : List (String × String)}, f ∉ writes.map Prod.fst → (s.setAll writes).get? f = s.get? f
  | _, [], _ => rfl
  | s, w :: rest, fresh => by
    simp only [List.map_cons, List.mem_cons, not_or] at fresh
    rw [Schema.setAll_cons, Schema.get?_setAll_of_not_mem fresh.2, Schema.get?_set, if_neg fresh.1]

theorem Schema.get?_setAll_eq_none {f : String} :
    ∀ {s : Schema} {writes : List (String × String)},
      (s.setAll writes).get? f = none ↔ s.get? f = none ∧ f ∉ writes.map Prod.fst
  | _, [] => by simp [Schema.setAll]
  | s, w :: rest => by
    rw [Schema.setAll_cons, Schema.get?_setAll_eq_none, Schema.get?_set]
    by_cases same : f = w.1 <;> simp [same]

theorem Schema.get?_setAll_of_mem {f t : String} :
    ∀ {s : Schema} {writes : List (String × String)}, (writes.map Prod.fst).Nodup → (f, t) ∈ writes →
      (s.setAll writes).get? f = some t
  | _, [], _, member => (List.not_mem_nil _ member).elim
  | s, w :: rest, nodup, member => by
    rw [List.map_cons, List.nodup_cons] at nodup
    rw [Schema.setAll_cons]
    rcases List.mem_cons.mp member with rfl | member
    · rw [Schema.get?_setAll_of_not_mem nodup.1, Schema.get?_set, if_pos rfl]
    · exact Schema.get?_setAll_of_mem nodup.2 member

/-! `diffSchemas` on two maps. -/

theorem diffSchemas_eq_nil {baseline current : Schema} (same : ∀ f, baseline.get? f = current.get? f) :
    diffSchemas baseline current = [] := by
  simp only [diffSchemas]
  rw [List.filterMap_eq_nil_iff.mpr, List.filterMap_eq_nil_iff.mpr]
  · simp
  · rintro ⟨field, cType⟩ member
    simp [same, current.get?_of_mem member]
  · rintro ⟨field, bType⟩ member
    simp [← same, baseline.get?_of_mem member]

theorem diffSchemas_typeChange {baseline current : Schema}
    (keys : ∀ f, baseline.get? f = none ↔ current.get? f = none) {m : Mismatch}
    (member : m ∈ diffSchemas baseline current) : m.kind = .typeChange := by
  simp only [diffSchemas, List.mem_insertionSort, List.mem_append, List.mem_filterMap] at member
  rcases member with ⟨⟨field, bType⟩, listed, found⟩ | ⟨⟨field, cType⟩, listed, found⟩
  · have present := baseline.get?_of_mem listed
    cases looked : current.get? field with
    | none => simp [(keys field).mpr looked] at present
    | some cType =>
      simp only [looked] at found
      split at found <;> cases found
      rfl
  · have present := current.get?_of_mem listed
    cases looked : baseline.get? field with
    | none => simp [(keys field).mp looked] at present
    | some bType => simp [looked] at found

/-! The orders Go's `range` may choose. -/

/-- The same decoded value ranged over in another order: `range` over a map may visit its keys
    in any order, each time and at every level. -/
inductive JsonValue.Reordered : JsonValue → JsonValue → Prop
  | refl (v : JsonValue) : JsonValue.Reordered v v
  | perm {fields fields' : List (String × JsonValue)} :
      fields.Perm fields' → JsonValue.Reordered (.object fields) (.object fields')
  | field {before after : List (String × JsonValue)} {k : String} {v v' : JsonValue} :
      JsonValue.Reordered v v' →
        JsonValue.Reordered (.object (before ++ (k, v) :: after)) (.object (before ++ (k, v') :: after))
  | trans {u v w : JsonValue} : JsonValue.Reordered u v → JsonValue.Reordered v w → JsonValue.Reordered u w

theorem JsonValue.Reordered.writes {v v' : JsonValue} (reordered : v.Reordered v') :
    v.typeName = v'.typeName ∧ ∀ path, (fieldWrites v.children path).Perm (fieldWrites v'.children path) := by
  induction reordered with
  | refl => exact ⟨rfl, fun _ => List.Perm.refl _⟩
  | perm fields => exact ⟨rfl, fun path => by
      simpa only [JsonValue.children, fieldWrites_eq_flatMap] using fields.flatMap_right _⟩
  | field _ inner =>
    refine ⟨rfl, fun path => ?_⟩
    simp only [JsonValue.children, fieldWrites_eq_flatMap, List.flatMap_append, List.flatMap_cons]
    refine List.Perm.append_left _ (List.Perm.append_right _ ?_)
    rw [valueWrites_eq, valueWrites_eq, inner.1]
    exact (inner.2 _).cons _
  | trans _ _ first second => exact ⟨first.1.trans second.1, fun path => (first.2 path).trans (second.2 path)⟩

theorem JsonValue.Reordered.object {fields : List (String × JsonValue)} {q : JsonValue}
    (reordered : (JsonValue.object fields).Reordered q) :
    ∃ fields', q = .object fields' ∧ (fieldWrites fields "").Perm (fieldWrites fields' "") := by
  obtain ⟨kind, writes⟩ := reordered.writes
  cases q with
  | object fields' => exact ⟨fields', rfl, writes ""⟩
  | _ => simp [JsonValue.typeName] at kind

/-- The model ranges over a decoded map in the order of the text, so another order of the map
    `p` holds is a text `q` that decodes to it reordered. -/
theorem validate_after_learn_only_type_changes {p q : List UInt8} {raw raw' : JsonValue}
    (decoded : unmarshalInterface p = .ok raw) (decoded' : unmarshalInterface q = .ok raw')
    (reordered : raw.Reordered raw') {v₀ v : Validator} (learned : v₀.learn p = .ok v) :
    ∃ mismatches, v.validate q = .ok (mismatches, v) ∧ (∀ m ∈ mismatches, m.kind = .typeChange) ∧
      (raw.paths.Nodup → mismatches = []) := by
  obtain ⟨_, extracted, rfl⟩ := Validator.learn_eq_ok.mp learned
  obtain ⟨fields, object, rfl⟩ := extractSchema_eq_ok.mp extracted
  obtain rfl : raw = .object fields := Except.ok.inj (decoded.symm.trans object)
  obtain ⟨fields', rfl, writes⟩ := reordered.object
  have current : extractSchema q = .ok (flattenSchema fields' "" Schema.empty) :=
    extractSchema_eq_ok.mpr ⟨fields', decoded', rfl⟩
  refine ⟨diffSchemas (flattenSchema fields "" Schema.empty) (flattenSchema fields' "" Schema.empty),
    by simp [Validator.validate, current], fun m member => diffSchemas_typeChange (fun f => ?_) member,
    fun nodup => diffSchemas_eq_nil fun f => ?_⟩
  · simp only [flattenSchema_eq_setAll, Schema.get?_setAll_eq_none, (writes.map Prod.fst).mem_iff]
  · simp only [flattenSchema_eq_setAll]
    simp only [JsonValue.paths, JsonValue.children] at nodup
    by_cases written : f ∈ (fieldWrites fields "").map Prod.fst
    · obtain ⟨⟨_, t⟩, member, rfl⟩ := List.mem_map.mp written
      rw [Schema.get?_setAll_of_mem nodup member,
        Schema.get?_setAll_of_mem ((writes.map Prod.fst).nodup_iff.mp nodup) (writes.mem_iff.mp member)]
    · rw [Schema.get?_setAll_of_not_mem written,
        Schema.get?_setAll_of_not_mem (fun member => written ((writes.map Prod.fst).mem_iff.mpr member))]

/-- An object with a key `"a.b"` beside an object `"a"` holding `"b"`, `{"a":{"b":1},"a.b":"x"}`,
    and the same object written the other way round, as `range` may visit it. -/
def collidedText : List UInt8 :=
  Encoding.goBytes "\x7b\"a\":\x7b\"b\":1\x7d,\"a.b\":\"x\"\x7d"

def collidedRangedText : List UInt8 :=
  Encoding.goBytes "\x7b\"a.b\":\"x\",\"a\":\x7b\"b\":1\x7d\x7d"

def collided : JsonValue :=
  .object [("a", .object [("b", .number)]), ("a.b", .string)]

def collidedRanged : JsonValue :=
  .object [("a.b", .string), ("a", .object [("b", .number)])]

theorem validate_after_learn_only_type_changes_collided :
    ∃ v mismatches, newValidator.learn collidedText = .ok v ∧ v.validate collidedRangedText = .ok (mismatches, v) ∧
      ∀ m ∈ mismatches, m.kind = .typeChange := by
  have learned : ∃ v, newValidator.learn collidedText = .ok v := ⟨_, rfl⟩
  obtain ⟨v, learned⟩ := learned
  obtain ⟨mismatches, validated, kinds, -⟩ := validate_after_learn_only_type_changes
    (show unmarshalInterface collidedText = .ok collided from rfl)
    (show unmarshalInterface collidedRangedText = .ok collidedRanged from rfl) (.perm (.swap _ _ _)) learned
  exact ⟨v, mismatches, learned, validated, kinds⟩

theorem dotted_path_collision_reports_type_change :
    unmarshalInterface collidedText = .ok collided ∧ unmarshalInterface collidedRangedText = .ok collidedRanged ∧
      collided.Reordered collidedRanged ∧
      ((newValidator.learn collidedText).bind fun v => (v.validate collidedRangedText).map Prod.fst) =
        .ok [⟨.typeChange, "a.b", "string", "number"⟩] :=
  ⟨rfl, rfl, .perm (.swap _ _ _), rfl⟩

/-! `diffSchemas` against the map comparison it implements. -/

/-- The two loops of `diffSchemas` before the sort. -/
def mismatchesOf (baseline current : Schema) : List Mismatch :=
  baseline.entries.filterMap (fun (field, bType) =>
    match current.get? field with
    | none => some ⟨.missing, field, bType, ""⟩
    | some cType => if cType ≠ bType then some ⟨.typeChange, field, bType, cType⟩ else none) ++
  current.entries.filterMap fun (field, cType) =>
    match baseline.get? field with
    | none => some ⟨.added, field, "", cType⟩
    | some _ => none

theorem diffSchemas_eq_insertionSort (baseline current : Schema) :
    diffSchemas baseline current = (mismatchesOf baseline current).insertionSort fun a b => a.before b := rfl

/-- The mismatch a field should produce: missing from `current`, added to it, or present in
    both with another type. -/
def fieldMismatch (baseline current : Schema) (field : String) : Option Mismatch :=
  match baseline.get? field, current.get? field with
  | some bType, none => some ⟨.missing, field, bType, ""⟩
  | none, some cType => some ⟨.added, field, "", cType⟩
  | some bType, some cType => if bType ≠ cType then some ⟨.typeChange, field, bType, cType⟩ else none
  | none, none => none

theorem fieldMismatch_field {baseline current : Schema} {field : String} {m : Mismatch}
    (found : fieldMismatch baseline current field = some m) : m.field = field := by
  unfold fieldMismatch at found
  split at found <;> (try split at found) <;> cases found <;> rfl

theorem Schema.mem_of_get? {s : Schema} {path type : String} (found : s.get? path = some type) :
    (path, type) ∈ s.entries :=
  mem_of_lookup_eq_some found

theorem mem_mismatchesOf {baseline current : Schema} {m : Mismatch} :
    m ∈ mismatchesOf baseline current ↔ fieldMismatch baseline current m.field = some m := by
  simp only [mismatchesOf, List.mem_append, List.mem_filterMap, Prod.exists]
  constructor
  · rintro (⟨field, bType, listed, found⟩ | ⟨field, cType, listed, found⟩)
    · have present := baseline.get?_of_mem listed
      cases looked : current.get? field with
      | none =>
        simp only [looked, Option.some.injEq] at found
        subst found
        simp [fieldMismatch, present, looked]
      | some cType =>
        simp only [looked] at found
        split at found
        · cases found
          simp [fieldMismatch, present, looked, Ne.symm ‹_›]
        · cases found
    · have present := current.get?_of_mem listed
      cases looked : baseline.get? field with
      | none =>
        simp only [looked, Option.some.injEq] at found
        subst found
        simp [fieldMismatch, present, looked]
      | some _ => simp [looked] at found
  · intro found
    obtain ⟨kind, field, bt, ct⟩ := m
    unfold fieldMismatch at found
    split at found
    · rename_i bType present absent
      cases found
      exact .inl ⟨_, _, Schema.mem_of_get? present, by simp [absent]⟩
    · rename_i cType absent present
      cases found
      exact .inr ⟨_, _, Schema.mem_of_get? present, by simp [absent]⟩
    · rename_i bType cType present present'
      split at found
      · cases found
        exact .inl ⟨_, _, Schema.mem_of_get? present, by simp [present', Ne.symm ‹_›]⟩
      · cases found
    · cases found

theorem pairwise_field_filterMap {s : Schema} {f : String × String → Option Mismatch}
    (keeps : ∀ e m, f e = some m → m.field = e.1) : (s.entries.filterMap f).Pairwise fun x y => x.field ≠ y.field :=
  List.pairwise_filterMap.mpr ((List.pairwise_map.mp s.nodup).imp fun differ b found b' found' => by
    rw [keeps _ _ found, keeps _ _ found']
    exact differ)

/-- No two mismatches of the loops share a field: each field of `baseline` gives at most one,
    and `added` only ranges over fields outside `baseline`. -/
theorem pairwise_field_ne_mismatchesOf (baseline current : Schema) :
    (mismatchesOf baseline current).Pairwise fun x y => x.field ≠ y.field := by
  refine List.pairwise_append.mpr ⟨pairwise_field_filterMap ?_, pairwise_field_filterMap ?_, fun x xm y ym same => ?_⟩
  · rintro ⟨field, bType⟩ m found
    dsimp only at found
    split at found <;> (try split at found) <;> cases found <;> rfl
  · rintro ⟨field, cType⟩ m found
    dsimp only at found
    split at found <;> cases found
    rfl
  · obtain ⟨⟨field, bType⟩, listed, found⟩ := List.mem_filterMap.mp xm
    obtain ⟨⟨field', cType⟩, -, found'⟩ := List.mem_filterMap.mp ym
    dsimp only at found found'
    have xField : x.field = field := by
      split at found <;> (try split at found) <;> cases found <;> rfl
    split at found'
    · rename_i absent
      cases found'
      have same' : field = field' := by
        rw [← xField]
        exact same
      rw [← same', baseline.get?_of_mem listed] at absent
      cases absent
    · cases found'

/-! Go compares strings byte by byte; on UTF-8 that is the order of the characters, which is
    the order `<` on `String` is, a linear order. -/

theorem string_lt_trans {a b c : String} : a < b → b < c → a < c :=
  lt_trans

theorem string_eq_of_not_lt {a b : String} (below : ¬a < b) (above : ¬b < a) : a = b :=
  le_antisymm (not_lt.mp above) (not_lt.mp below)

theorem string_lt_asymm {a b : String} (lt : a < b) : ¬b < a :=
  lt_asymm lt

theorem string_lt_of_not_lt {a b : String} (differ : a ≠ b) (notGt : ¬b < a) : a < b :=
  lt_of_le_of_ne (not_lt.mp notGt) differ

theorem Mismatch.before_iff {a b : Mismatch} (differ : a.field ≠ b.field) : a.before b = true ↔ a.field < b.field := by
  simp [Mismatch.before, differ]

theorem pairwise_orderedInsert {a : Mismatch} {l : List Mismatch} (sorted : l.Pairwise fun x y => x.field < y.field)
    (fresh : ∀ x ∈ l, a.field ≠ x.field) :
    (l.orderedInsert (fun x y => x.before y) a).Pairwise fun x y => x.field < y.field := by
  induction l with
  | nil => simp
  | cons b rest ih =>
    obtain ⟨first, restSorted⟩ := List.pairwise_cons.mp sorted
    have differ := fresh b (List.mem_cons_self _ _)
    simp only [List.orderedInsert]
    split
    · rename_i earlier
      have lt := (Mismatch.before_iff differ).mp earlier
      refine List.pairwise_cons.mpr ⟨fun x member => ?_, sorted⟩
      rcases List.mem_cons.mp member with rfl | later
      · exact lt
      · exact string_lt_trans lt (first x later)
    · rename_i later
      have gt : b.field < a.field := string_lt_of_not_lt (Ne.symm differ) (mt (Mismatch.before_iff differ).mpr later)
      refine List.pairwise_cons.mpr ⟨fun x member => ?_, ih restSorted fun x member => fresh x (List.mem_cons_of_mem _ member)⟩
      rcases List.mem_cons.mp ((List.perm_orderedInsert _ a rest).mem_iff.mp member) with rfl | old
      · exact gt
      · exact first x old

theorem pairwise_insertionSort {l : List Mismatch} (distinct : l.Pairwise fun x y => x.field ≠ y.field) :
    (l.insertionSort fun x y => x.before y).Pairwise fun x y => x.field < y.field := by
  induction l with
  | nil => exact List.Pairwise.nil
  | cons a rest ih =>
    obtain ⟨fresh, restDistinct⟩ := List.pairwise_cons.mp distinct
    exact pairwise_orderedInsert (ih restDistinct) fun x member =>
      fresh x ((List.perm_insertionSort _ rest).mem_iff.mp member)

theorem eq_of_pairwise_field_lt : ∀ {l₁ l₂ : List Mismatch}, l₁.Pairwise (fun x y => x.field < y.field) →
    l₂.Pairwise (fun x y => x.field < y.field) → (∀ m, m ∈ l₁ ↔ m ∈ l₂) → l₁ = l₂
  | [], [], _, _, _ => rfl
  | [], b :: _, _, _, same => absurd ((same b).mpr (List.mem_cons_self _ _)) (List.not_mem_nil _)
  | a :: _, [], _, _, same => absurd ((same a).mp (List.mem_cons_self _ _)) (List.not_mem_nil _)
  | a :: t₁, b :: t₂, sorted₁, sorted₂, same => by
    obtain ⟨below₁, t₁sorted⟩ := List.pairwise_cons.mp sorted₁
    obtain ⟨below₂, t₂sorted⟩ := List.pairwise_cons.mp sorted₂
    have head : a = b := by
      rcases List.mem_cons.mp ((same a).mp (List.mem_cons_self _ _)) with first | later
      · exact first
      · rcases List.mem_cons.mp ((same b).mpr (List.mem_cons_self _ _)) with first | later'
        · exact first.symm
        · exact absurd (below₁ b later') (string_lt_asymm (below₂ a later))
    subst head
    have tails : ∀ {t t' : List Mismatch}, (∀ x ∈ t, a.field < x.field) → (∀ m, m ∈ a :: t ↔ m ∈ a :: t') →
        ∀ m ∈ t, m ∈ t' := fun above same' m member =>
      (List.mem_cons.mp ((same' m).mp (List.mem_cons_of_mem _ member))).resolve_left
        fun first => lt_irrefl _ (first ▸ above m member)
    rw [eq_of_pairwise_field_lt t₁sorted t₂sorted fun m =>
      ⟨tails below₁ same m, tails below₂ (fun m => (same m).symm) m⟩]

theorem fieldMismatch_congr {baseline current baseline' current' : Schema}
    (sameBaseline : ∀ f, baseline'.get? f = baseline.get? f) (sameCurrent : ∀ f, current'.get? f = current.get? f)
    (field : String) : fieldMismatch baseline' current' field = fieldMismatch baseline current field := by
  simp only [fieldMismatch, sameBaseline, sameCurrent]

theorem mem_diffSchemas {baseline current : Schema} {m : Mismatch} :
    m ∈ diffSchemas baseline current ↔ fieldMismatch baseline current m.field = some m := by
  rw [diffSchemas_eq_insertionSort, List.mem_insertionSort, mem_mismatchesOf]

theorem pairwise_diffSchemas (baseline current : Schema) :
    (diffSchemas baseline current).Pairwise fun a b => a.field < b.field :=
  pairwise_insertionSort (pairwise_field_ne_mismatchesOf baseline current)

theorem fieldMismatch_of_ne {baseline current : Schema} {f : String} (differ : baseline.get? f ≠ current.get? f) :
    ∃ m, fieldMismatch baseline current f = some m := by
  unfold fieldMismatch
  split
  · exact ⟨_, rfl⟩
  · exact ⟨_, rfl⟩
  · rename_i bType cType present present'
    have changed : bType ≠ cType := fun same => differ (by rw [present, present', same])
    exact ⟨_, if_pos changed⟩
  · rename_i absent absent'
    exact absurd (absent.trans absent'.symm) differ

theorem diffSchemas_sorted_exact (baseline current : Schema) :
    (∀ m, m ∈ diffSchemas baseline current ↔ fieldMismatch baseline current m.field = some m) ∧
      (diffSchemas baseline current).Pairwise (fun a b => a.field < b.field) ∧
      (∀ baseline' current' : Schema, (∀ f, baseline'.get? f = baseline.get? f) →
        (∀ f, current'.get? f = current.get? f) → diffSchemas baseline' current' = diffSchemas baseline current) ∧
      (∀ l, l.Perm (mismatchesOf baseline current) → l.Pairwise (fun a b => b.before a = false) →
        l = diffSchemas baseline current) ∧
      (diffSchemas baseline current = [] ↔ ∀ f, baseline.get? f = current.get? f) := by
  refine ⟨fun m => mem_diffSchemas, pairwise_diffSchemas baseline current,
    fun baseline' current' sameBaseline sameCurrent => ?_, fun l perm sorted => ?_, ⟨fun empty f => ?_, diffSchemas_eq_nil⟩⟩
  · refine eq_of_pairwise_field_lt (pairwise_diffSchemas _ _) (pairwise_diffSchemas _ _) fun m => ?_
    rw [mem_diffSchemas, mem_diffSchemas, fieldMismatch_congr sameBaseline sameCurrent]
  · have distinct := (pairwise_field_ne_mismatchesOf baseline current).perm perm.symm fun differ => Ne.symm differ
    refine eq_of_pairwise_field_lt ((sorted.and distinct).imp fun both => ?_) (pairwise_diffSchemas _ _) fun m => ?_
    · exact string_lt_of_not_lt both.2 fun lt => by simp [(Mismatch.before_iff (Ne.symm both.2)).mpr lt] at both
    · rw [perm.mem_iff, mem_diffSchemas, mem_mismatchesOf]
  · by_contra differ
    obtain ⟨m, found⟩ := fieldMismatch_of_ne differ
    exact List.not_mem_nil m (empty ▸ mem_diffSchemas.mpr ((fieldMismatch_field found).symm ▸ found))

end SessionEngine.Payload
