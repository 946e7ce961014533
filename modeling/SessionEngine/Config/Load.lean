import SessionEngine.Encoding.Quote

namespace SessionEngine.Config

open SessionEngine.Encoding

/-! `LoadConfig`: `json.NewDecoder(f)` with `DisallowUnknownFields`, and one `Decode(&cfg)` into a
    zero `Config`. The decoder reads the first JSON value of the file and nothing after it; it
    decodes the members of an object in the order of the text, saves the first error and goes
    on, and returns that error at the end. -/

set_option linter.dupNamespace false in
/-- A `config.Config`; a `time.Duration` is an `int64` count of nanoseconds, a Go string its
    bytes. -/
structure Config where
  numberOfSessions : Int
  requestTimeout : Int
  maxRetries : Int
  targetURL : List UInt8
  proxyFile : List UInt8
  maxIdleConns : Int
  maxIdleConnsPerHost : Int
  maxConnsPerHost : Int
  deriving DecidableEq, Repr

/-- `var cfg Config`. -/
def zeroConfig : Config :=
  ⟨0, 0, 0, [], [], 0, 0, 0⟩

/-- `DefaultConfig()`. -/
def defaultConfig : Config :=
  ⟨500, 30 * 1000000000, 3, [], [], 500, 100, 200⟩

inductive Field where
  | numberOfSessions
  | requestTimeout
  | maxRetries
  | targetURL
  | proxyFile
  | maxIdleConns
  | maxIdleConnsPerHost
  | maxConnsPerHost
  deriving DecidableEq, Repr

/-- The fields in the order of the struct. -/
def fields : List Field :=
  [.numberOfSessions, .requestTimeout, .maxRetries, .targetURL, .proxyFile, .maxIdleConns,
    .maxIdleConnsPerHost, .maxConnsPerHost]

/-- The field's `json` tag. -/
def Field.name : Field → String
  | .numberOfSessions => "number_of_sessions"
  | .requestTimeout => "request_timeout"
  | .maxRetries => "max_retries"
  | .targetURL => "target_url"
  | .proxyFile => "proxy_file"
  | .maxIdleConns => "max_idle_conns"
  | .maxIdleConnsPerHost => "max_idle_conns_per_host"
  | .maxConnsPerHost => "max_conns_per_host"

/-- The field's type as `reflect` prints it. -/
def Field.goType : Field → String
  | .requestTimeout => "time.Duration"
  | .targetURL | .proxyFile => "string"
  | _ => "int"

def Field.isString (f : Field) : Bool :=
  f.goType = "string"

/-- What a field holds. -/
inductive FieldValue where
  | int (n : Int)
  | string (s : List UInt8)
  deriving DecidableEq, Repr

set_option linter.dupNamespace false in
def Config.get (cfg : Config) : Field → FieldValue
  | .numberOfSessions => .int cfg.numberOfSessions
  | .requestTimeout => .int cfg.requestTimeout
  | .maxRetries => .int cfg.maxRetries
  | .targetURL => .string cfg.targetURL
  | .proxyFile => .string cfg.proxyFile
  | .maxIdleConns => .int cfg.maxIdleConns
  | .maxIdleConnsPerHost => .int cfg.maxIdleConnsPerHost
  | .maxConnsPerHost => .int cfg.maxConnsPerHost

set_option linter.dupNamespace false in
/-- `v.SetInt(n)` or `v.SetString(s)` on the field; a value of the other kind is never stored. -/
def Config.set (cfg : Config) : Field → FieldValue → Config
  | .numberOfSessions, .int n => { cfg with numberOfSessions := n }
  | .requestTimeout, .int n => { cfg with requestTimeout := n }
  | .maxRetries, .int n => { cfg with maxRetries := n }
  | .targetURL, .string s => { cfg with targetURL := s }
  | .proxyFile, .string s => { cfg with proxyFile := s }
  | .maxIdleConns, .int n => { cfg with maxIdleConns := n }
  | .maxIdleConnsPerHost, .int n => { cfg with maxIdleConnsPerHost := n }
  | .maxConnsPerHost, .int n => { cfg with maxConnsPerHost := n }
  | _, _ => cfg

/-! Matching a key to a field. -/

/-- `foldRune`, the least rune of `r`'s `unicode.SimpleFold` orbit, with what matching the ASCII
    field names relies on: above ASCII only the Kelvin sign and the long s fold into ASCII, to
    `K` and `S`. -/
structure FoldTable where
  foldRune : Nat → Nat
  kelvin : foldRune 0x212A = 0x4B
  longS : foldRune 0x17F = 0x53
  nonAscii : ∀ r, 0x80 ≤ r → r ≠ 0x212A → r ≠ 0x17F → 0x80 ≤ foldRune r

/-- A fold table that folds no rune other than the two into ASCII: its `foldName` agrees with
    the real table's on every key whose other runes are ASCII. -/
def asciiFolds : FoldTable :=
  ⟨fun r => if r = 0x212A then 0x4B else if r = 0x17F then 0x53 else r, rfl, rfl, fun r above kelvin longS => by
    simp only [kelvin, longS, if_false]
    exact above⟩

/-- `foldName`: ASCII letters upper-cased, other runes folded and written as UTF-8; a byte that
    starts no valid sequence is `RuneError`. -/
def foldName (fold : FoldTable) (name : List UInt8) : List UInt8 :=
  (decodeRunes name).flatMap fun
    | .valid r => if r < 0x80 then [UInt8.ofNat (if 0x61 ≤ r ∧ r ≤ 0x7A then r - 0x20 else r)]
      else appendRune (fold.foldRune r)
    | .invalid _ => appendRune (fold.foldRune 0xFFFD)

/-- `fields.byExactName[key]`, else `fields.byFoldedName[foldName(key)]`. -/
def fieldFor (fold : FoldTable) (key : List UInt8) : Option Field :=
  (fields.find? fun f => goBytes f.name = key).or
    (fields.find? fun f => foldName fold (goBytes f.name) = foldName fold key)

/-! Decoding. -/

/-- `strconv.ParseInt(s, 10, 64)`: an optional sign and decimal digits, in the `int64` range. -/
def parseInt64 (s : List UInt8) : Option Int :=
  let (negative, digits) := match s with
    | 0x2B :: ds => (false, ds)
    | 0x2D :: ds => (true, ds)
    | ds => (false, ds)
  let n := digits.foldl (fun n d => 10 * n + (d.toNat - 0x30)) (0 : Nat)
  if digits = [] ∨ !digits.all isDigit then none
  else if negative then (if n ≤ 2 ^ 63 then some (-(n : Int)) else none)
  else if n < 2 ^ 63 then some (n : Int) else none

/-- The errors `Decode` returns: `io.EOF` before any value, a `SyntaxError` or
    `io.ErrUnexpectedEOF` (their texts are not modelled), an `UnmarshalTypeError` with its
    `Value`, `Type` and, inside a field, the field, and the unknown-field error. -/
inductive DecodeError where
  | eof
  | syntaxError
  | typeError (value : List UInt8) (goType : String) (field : Option String)
  | unknownField (key : List UInt8)
  deriving DecidableEq, Repr

def DecodeError.message (t : PrintTable) : DecodeError → Option (List UInt8)
  | .eof => some (goBytes "EOF")
  | .syntaxError => none
  | .typeError value goType (some field) =>
    some (goBytes "json: cannot unmarshal " ++ value ++ goBytes (" into Go struct field Config." ++ field ++
      " of type " ++ goType))
  | .typeError value goType none =>
    some (goBytes "json: cannot unmarshal " ++ value ++ goBytes (" into Go value of type " ++ goType))
  | .unknownField key => some (goBytes "json: unknown field " ++ quote t key)

/-- The error saved for a value the field cannot hold; `saveError` adds the field. -/
def Field.typeError (f : Field) (value : List UInt8) : DecodeError :=
  .typeError value f.goType (some f.name)

/-- `literalStore`, or `object` and `array` for the values they reject, into the field: what the
    field then holds (nothing for `null`, which a primitive ignores), or the error saved. -/
def Field.decode (f : Field) : Json → Except DecodeError (Option FieldValue)
  | .null => .ok none
  | .bool _ => .error (f.typeError (goBytes "bool"))
  | .number text =>
    if f.isString then .error (f.typeError (goBytes "number"))
    else match parseInt64 text with
      | some n => .ok (some (.int n))
      | none => .error (f.typeError (goBytes "number " ++ text))
  | .string raw => if f.isString then .ok (some (.string (unquote raw))) else .error (f.typeError (goBytes "string"))
  | .array _ => .error (f.typeError (goBytes "array"))
  | .object _ => .error (f.typeError (goBytes "object"))

/-- The loop of `object` over a struct, in the order of the text. Only the first error saved is
    returned and no later member can undo it, so the fold stops there. -/
def decodeMembers (fold : FoldTable) : Config → List (List UInt8 × Json) → Except DecodeError Config
  | cfg, [] => .ok cfg
  | cfg, (rawKey, v) :: rest =>
    match fieldFor fold (unquote rawKey) with
    | none => .error (.unknownField (unquote rawKey))
    | some f =>
      match f.decode v with
      | .error e => .error e
      | .ok stored => decodeMembers fold ((stored.map (cfg.set f)).getD cfg) rest

/-- `d.value` on the zero `Config`: `null` leaves it, an object sets its fields, any other value is
    an `UnmarshalTypeError` with no field. -/
def decodeConfig (fold : FoldTable) : Json → Except DecodeError Config
  | .null => .ok zeroConfig
  | .object members => decodeMembers fold zeroConfig members
  | .array _ => .error (.typeError (goBytes "array") "config.Config" none)
  | .string _ => .error (.typeError (goBytes "string") "config.Config" none)
  | .number _ => .error (.typeError (goBytes "number") "config.Config" none)
  | .bool _ => .error (.typeError (goBytes "bool") "config.Config" none)

/-- `readValue`: the first value after leading space; the bytes after it are not read. -/
def readValue (bytes : List UInt8) : Except DecodeError Json :=
  if skipSpace bytes = [] then .error .eof
  else match parseValue (bytes.length + 1) 0 (skipSpace bytes) with
    | some (v, _) => .ok v
    | none => .error .syntaxError

inductive LoadError where
  | open (err : String)
  | decode (e : DecodeError)
  deriving DecidableEq, Repr

def LoadError.message (t : PrintTable) (filename : String) : LoadError → Option (List UInt8)
  | .open err => some (goBytes "config: open " ++ quote t (goBytes filename) ++ goBytes (": " ++ err))
  | .decode e => (e.message t).map fun text => goBytes "config: decode " ++ quote t (goBytes filename) ++ goBytes ": " ++ text

/-- `LoadConfig`, given what `os.Open` gives: the bytes of the file, or its error. -/
def loadConfig (fold : FoldTable) (file : Except String (List UInt8)) : Except LoadError Config :=
  match file with
  | .error err => .error (.open err)
  | .ok bytes =>
    match readValue bytes with
    | .error e => .error (.decode e)
    | .ok v =>
      match decodeConfig fold v with
      | .error e => .error (.decode e)
      | .ok cfg => .ok cfg

/-! What `LoadConfig` accepts and what it returns, read off the file's first value. -/

/-- The values a field takes: `null`, an integer literal in the `int64` range for an integer or
    duration field, a string for a string field. -/
def Field.Accepts (f : Field) : Json → Prop
  | .null => True
  | .number text => f.isString = false ∧ (parseInt64 text).isSome
  | .string _ => f.isString = true
  | _ => False

/-- What a member that names a field leaves in it: nothing for `null`. -/
def memberValue : Json → Option FieldValue
  | .number text => (parseInt64 text).map .int
  | .string raw => some (.string (unquote raw))
  | _ => none

/-- The members of an object; no other value has any. -/
def jsonMembers : Json → List (List UInt8 × Json)
  | .object members => members
  | _ => []

/-- The member's effect on the config. -/
def applyMember (fold : FoldTable) (cfg : Config) (m : List UInt8 × Json) : Config :=
  match fieldFor fold (unquote m.1) with
  | some f => ((memberValue m.2).map (cfg.set f)).getD cfg
  | none => cfg

section Spec

variable (fold : FoldTable)

/-- A value of the field's kind. -/
def Field.Holds (f : Field) : FieldValue → Prop
  | .int _ => f.isString = false
  | .string _ => f.isString = true

theorem Field.decode_ok_iff (f : Field) (v : Json) (stored : Option FieldValue) :
    f.decode v = .ok stored ↔ f.Accepts v ∧ stored = memberValue v := by
  cases v with
  | number text =>
    cases string : f.isString <;> cases parsed : parseInt64 text <;>
      simp [Field.decode, Field.Accepts, memberValue, string, parsed, eq_comm]
  | string raw => cases string : f.isString <;> simp [Field.decode, Field.Accepts, memberValue, string, eq_comm]
  | null => simp [Field.decode, Field.Accepts, memberValue, eq_comm]
  | bool _ | array _ | object _ => simp [Field.decode, Field.Accepts]

theorem memberValue_holds {f : Field} {v : Json} (accepts : f.Accepts v) :
    ∀ value, memberValue v = some value → f.Holds value := by
  cases v <;> simp_all [Field.Accepts, memberValue, Field.Holds]

theorem get_set_field (cfg : Config) {f : Field} {value : FieldValue} (holds : f.Holds value) :
    (cfg.set f value).get f = value := by
  cases f <;> cases value <;> simp_all [Config.set, Config.get, Field.Holds, Field.isString, Field.goType]

theorem get_set_other_field (cfg : Config) {f g : Field} (differ : f ≠ g) (value : FieldValue) :
    (cfg.set g value).get f = cfg.get f := by
  cases f <;> cases g <;> cases value <;> simp_all [Config.set, Config.get]

theorem decodeMembers_ok_iff :
    ∀ (cfg cfg' : Config) (members : List (List UInt8 × Json)),
      decodeMembers fold cfg members = .ok cfg' ↔
        (∀ m ∈ members, ∃ f, fieldFor fold (unquote m.1) = some f ∧ f.Accepts m.2) ∧
          cfg' = members.foldl (applyMember fold) cfg
  | cfg, cfg', [] => by simp [decodeMembers, eq_comm]
  | cfg, cfg', (rawKey, v) :: rest => by
    rw [decodeMembers]
    cases named : fieldFor fold (unquote rawKey) with
    | none => simp [named]
    | some f =>
      cases decoded : f.decode v with
      | error e =>
        have rejected : ¬f.Accepts v := fun accepts => by
          simpa [decoded] using (f.decode_ok_iff v (memberValue v)).mpr ⟨accepts, rfl⟩
        simp [named, decoded, rejected]
      | ok stored =>
        obtain ⟨accepts, rfl⟩ := (f.decode_ok_iff v stored).mp decoded
        simp only [decoded, decodeMembers_ok_iff _ cfg' rest, List.forall_mem_cons, named, Option.some.injEq,
          exists_eq_left', accepts, true_and, List.foldl_cons, applyMember]

theorem get_foldl_applyMember (f : Field) (cfg : Config) :
    ∀ members : List (List UInt8 × Json),
      (∀ m ∈ members, ∃ g, fieldFor fold (unquote m.1) = some g ∧ g.Accepts m.2) →
      (members.foldl (applyMember fold) cfg).get f =
        ((members.filterMap fun m => if fieldFor fold (unquote m.1) = some f then memberValue m.2 else none).getLast?).getD
          (cfg.get f) := by
  intro members
  induction members using List.reverseRecOn with
  | nil => simp
  | append_singleton members m ih =>
    intro accepted
    obtain ⟨g, named, accepts⟩ := accepted m (List.mem_append_right _ (List.mem_singleton_self m))
    have before := ih fun m' member => accepted m' (List.mem_append_left _ member)
    rw [List.foldl_append, List.foldl_cons, List.foldl_nil, List.filterMap_append, List.getLast?_append]
    simp only [applyMember, named, List.filterMap_cons, List.filterMap_nil]
    by_cases same : g = f
    · subst same
      cases stored : memberValue m.2 with
      | none => simp [before]
      | some value => simp [get_set_field _ (memberValue_holds accepts value stored)]
    · have other : ¬some g = some f := fun h => same (Option.some.inj h)
      cases memberValue m.2 <;> simp [other, get_set_other_field _ (Ne.symm same), before]

theorem decodeConfig_ok_iff (value : Json) :
    (∃ cfg, decodeConfig fold value = .ok cfg) ↔ value = .null ∨ ∃ members, value = .object members ∧
      ∀ m ∈ members, ∃ f, fieldFor fold (unquote m.1) = some f ∧ f.Accepts m.2 := by
  cases value with
  | null => simp [decodeConfig]
  | object members =>
    simp only [decodeConfig, decodeMembers_ok_iff, exists_eq_right, Json.object.injEq, exists_eq_left', false_or,
      reduceCtorEq]
  | _ => simp [decodeConfig]

theorem loadConfig_ok_iff (bytes : List UInt8) (cfg : Config) :
    loadConfig fold (.ok bytes) = .ok cfg ↔ ∃ value, readValue bytes = .ok value ∧ decodeConfig fold value = .ok cfg := by
  simp only [loadConfig]
  split
  · simp_all
  · split <;> simp_all

end Spec

/-- `LoadConfig` accepts a file exactly when its first JSON value is `null` or an object each of
    whose keys names a field, exactly or up to case folding, with a value the field takes; the
    bytes after that value are never read. A duration is an integer count of nanoseconds, so a
    duration written as text, such as `"30s"`, is rejected. -/
theorem load_config_accepts_iff (fold : FoldTable) (bytes : List UInt8) :
    (∃ cfg, loadConfig fold (.ok bytes) = .ok cfg) ↔
      ∃ value, readValue bytes = .ok value ∧ (value = .null ∨ ∃ members, value = .object members ∧
        ∀ m ∈ members, ∃ f, fieldFor fold (unquote m.1) = some f ∧ f.Accepts m.2) := by
  simp only [loadConfig_ok_iff]
  constructor
  · rintro ⟨cfg, value, read, decoded⟩
    exact ⟨value, read, (decodeConfig_ok_iff fold value).mp ⟨cfg, decoded⟩⟩
  · rintro ⟨value, read, accepted⟩
    obtain ⟨cfg, decoded⟩ := (decodeConfig_ok_iff fold value).mpr accepted
    exact ⟨cfg, value, read, decoded⟩

set_option maxRecDepth 2000 in
/-- The file the comment on `RequestTimeout` suggests, `{"request_timeout": "30s"}`, is rejected
    with an error naming the field; `{"request_timeout": 30}` is taken, as 30 nanoseconds. -/
theorem duration_text_rejected :
    (¬∃ cfg, loadConfig asciiFolds (.ok (goBytes "\x7b\"request_timeout\": \"30s\"\x7d")) = .ok cfg) ∧
      (∃ e, loadConfig asciiFolds (.ok (goBytes "\x7b\"request_timeout\": \"30s\"\x7d")) = .error e ∧
        ∀ t : PrintTable, e.message t "config.json" =
          some (goBytes ("config: decode \"config.json\": json: cannot unmarshal string into Go struct field " ++
            "Config.request_timeout of type time.Duration"))) ∧
      loadConfig asciiFolds (.ok (goBytes "\x7b\"request_timeout\": 30\x7d")) = .ok { zeroConfig with requestTimeout := 30 } := by
  refine ⟨fun accepted => ?_, ⟨_, rfl, fun _ => rfl⟩, rfl⟩
  obtain ⟨value, read, accepted⟩ := (load_config_accepts_iff asciiFolds _).mp accepted
  rw [show readValue (goBytes "\x7b\"request_timeout\": \"30s\"\x7d") =
    .ok (.object [(goBytes "request_timeout", .string (goBytes "30s"))]) from rfl] at read
  cases read
  obtain ⟨members, same, all⟩ := accepted.resolve_left nofun
  cases same
  obtain ⟨f, named, accepts⟩ := all _ (List.mem_singleton_self _)
  cases Option.some.inj (named.symm.trans rfl : some f = some Field.requestTimeout)
  simp [Field.Accepts, Field.isString, Field.goType] at accepts

/-- In a config `LoadConfig` returns, each field holds the value of the last member of the file's
    first value naming it that is not `null`, and every other field is zero: `DefaultConfig`'s
    values are never used. -/
theorem loaded_config_fields (fold : FoldTable) {bytes : List UInt8} {cfg : Config}
    (loaded : loadConfig fold (.ok bytes) = .ok cfg) :
    ∃ value, readValue bytes = .ok value ∧ ∀ f : Field,
      cfg.get f = (((jsonMembers value).filterMap fun m =>
        if fieldFor fold (unquote m.1) = some f then memberValue m.2 else none).getLast?).getD (zeroConfig.get f) := by
  obtain ⟨value, read, decoded⟩ := (loadConfig_ok_iff fold bytes cfg).mp loaded
  refine ⟨value, read, fun f => ?_⟩
  cases value with
  | null => cases decoded; rfl
  | object members =>
    obtain ⟨accepted, rfl⟩ := (decodeMembers_ok_iff fold _ _ members).mp decoded
    exact get_foldl_applyMember fold f _ members accepted
  | _ => cases decoded


/-- A file that names the target twice, the second time `null`, and the retries in another casing:
    the sessions stay zero, not `DefaultConfig`'s 500. -/
theorem loaded_config_keeps_zero_sessions :
    ∃ cfg, loadConfig asciiFolds
        (.ok (goBytes "\x7b\"target_url\": \"http://t\", \"Max_Retries\": 2, \"target_url\": null\x7d")) = .ok cfg ∧
      cfg.numberOfSessions = 0 ∧ cfg.maxRetries = 2 ∧ cfg.targetURL = goBytes "http://t" ∧
      ∃ value, readValue (goBytes "\x7b\"target_url\": \"http://t\", \"Max_Retries\": 2, \"target_url\": null\x7d") =
          .ok value ∧ ∀ f : Field,
        cfg.get f = (((jsonMembers value).filterMap fun m =>
          if fieldFor asciiFolds (unquote m.1) = some f then memberValue m.2 else none).getLast?).getD (zeroConfig.get f) :=
  ⟨_, rfl, rfl, rfl, rfl, loaded_config_fields asciiFolds rfl⟩

end SessionEngine.Config
