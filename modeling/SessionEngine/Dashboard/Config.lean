import SessionEngine.Encoding.Quote

namespace SessionEngine.Dashboard

open SessionEngine.Encoding

/-! The dashboard's `/api/config` and `/api/proxy` handlers behind `withCORS`, and what a run of
    requests does to the shared `config.Config`. Decoding a POST body and storing an upload are
    inputs: the payload `json.Decoder.Decode` filled, or its failure; how the upload ended. -/

/-- The fields of `config.Config` the dashboard reads or writes; the transport and timeout fields
    are left out. -/
structure Config where
  numberOfSessions : Int
  maxRetries : Int
  targetURL : String
  proxyFile : String
  deriving DecidableEq, Repr

/-- `DefaultConfig()`'s values of those fields. -/
def defaultConfig : Config := ⟨500, 3, "", ""⟩

/-- `ConfigPayload`, the hot-updatable subset. -/
structure ConfigPayload where
  targetURL : String
  numberOfSessions : Int
  maxRetries : Int
  deriving DecidableEq, Repr

/-- What a handler writes after its headers: bytes, or `json.NewEncoder(w).Encode(payload)` (the
    encoding itself is left out). -/
inductive Body where
  | bytes (b : List UInt8)
  | json (payload : ConfigPayload)
  deriving DecidableEq, Repr

structure Response where
  status : Nat
  headers : List (String × String)
  body : Body
  deriving DecidableEq, Repr

/-- The arguments of an `AddLog(level, message)` call a handler makes. -/
structure AddLogArgs where
  level : String
  message : List UInt8
  deriving DecidableEq, Repr

/-- The headers `withCORS` sets before anything else. -/
def corsHeaders : List (String × String) :=
  [("Access-Control-Allow-Origin", "*"), ("Access-Control-Allow-Methods", "GET, POST, OPTIONS"),
    ("Access-Control-Allow-Headers", "Content-Type")]

/-- `http.Error(w, error, code)` after `withCORS`'s headers. -/
def httpError (error : String) (code : Nat) : Response :=
  ⟨code, corsHeaders ++ [("Content-Type", "text/plain; charset=utf-8"), ("X-Content-Type-Options", "nosniff")],
    .bytes (goBytes (error ++ "\n"))⟩

/-- A reply of status 200 with a JSON content type. -/
def jsonReply (body : Body) : Response :=
  ⟨200, corsHeaders ++ [("Content-Type", "application/json")], body⟩

/-- `payload.X > 0 && payload.X <= bound`: the check of an integer field; the field keeps its value
    when the payload's fails it. -/
def acceptBounded (bound requested current : Int) : Int :=
  if 0 < requested ∧ requested ≤ bound then requested else current

/-- The writes of a POST under `cfgMu`: the target when the payload's is not empty, the session count
    within 2000, the retries within 100. -/
def Config.update (cfg : Config) (payload : ConfigPayload) : Config :=
  { cfg with
    targetURL := if payload.targetURL ≠ "" then payload.targetURL else cfg.targetURL
    numberOfSessions := acceptBounded 2000 payload.numberOfSessions cfg.numberOfSessions
    maxRetries := acceptBounded 100 payload.maxRetries cfg.maxRetries }

/-- The log line of a POST: `"config updated via dashboard: target_url=%q sessions=%d retries=%d"`
    of the payload's values, whether they were applied or not. -/
def configMessage (t : PrintTable) (payload : ConfigPayload) : List UInt8 :=
  goBytes "config updated via dashboard: target_url=" ++ quote t (goBytes payload.targetURL) ++
    goBytes (" sessions=" ++ toString payload.numberOfSessions ++ " retries=" ++ toString payload.maxRetries)

/-- `withCORS(handleConfig)` on a request of `method` whose body `Decode` filled into `decoded`
    (`none` when it failed): the configuration after it, the response and the `AddLog` call. -/
def handleConfig (t : PrintTable) (cfg : Config) (method : String) (decoded : Option ConfigPayload) :
    Config × Response × Option AddLogArgs :=
  if method = "OPTIONS" then (cfg, ⟨204, corsHeaders, .bytes []⟩, none)
  else if method = "GET" then
    (cfg, jsonReply (.json ⟨cfg.targetURL, cfg.numberOfSessions, cfg.maxRetries⟩), none)
  else if method = "POST" then
    match decoded with
    | none => (cfg, httpError "invalid JSON" 400, none)
    | some payload =>
      (cfg.update payload, jsonReply (.bytes (goBytes "\x7b\"ok\":true\x7d")), some ⟨"INFO", configMessage t payload⟩)
  else (cfg, httpError "method not allowed" 405, none)

/-- How `handleProxy` gets on before its write of `cfg.ProxyFile`: `ParseMultipartForm` fails, the
    `proxies` field is missing, `os.CreateTemp` or `io.Copy` fails, or the file is stored at `path`
    with `size` bytes from the upload named `original`. -/
inductive Upload where
  | notMultipart
  | missingField
  | serverError
  | stored (path : String) (size : Nat) (original : String)
  deriving DecidableEq, Repr

/-- `withCORS(handleProxy)`. -/
def handleProxy (t : PrintTable) (cfg : Config) (method : String) (upload : Upload) :
    Config × Response × Option AddLogArgs :=
  if method = "OPTIONS" then (cfg, ⟨204, corsHeaders, .bytes []⟩, none)
  else if method ≠ "POST" then (cfg, httpError "method not allowed" 405, none)
  else
    match upload with
    | .notMultipart => (cfg, httpError "request too large or not multipart" 400, none)
    | .missingField => (cfg, httpError "missing 'proxies' field" 400, none)
    | .serverError => (cfg, httpError "server error" 500, none)
    | .stored path size original =>
      ({ cfg with proxyFile := path },
        jsonReply (.bytes (goBytes "\x7b\"ok\":true,\"path\":" ++ quote t (goBytes path) ++
          goBytes (",\"bytes\":" ++ toString size ++ "\x7d"))),
        some ⟨"INFO", goBytes "proxy list uploaded: file=" ++ quote t (goBytes path) ++
          goBytes (" size=" ++ toString size ++ " bytes original=") ++ quote t (goBytes original)⟩)

/-- A request to one of the two endpoints; each handler runs its locked section at once. -/
inductive DashboardRequest where
  | config (method : String) (decoded : Option ConfigPayload)
  | proxy (method : String) (upload : Upload)
  deriving DecidableEq, Repr

def DashboardRequest.handle (t : PrintTable) (cfg : Config) : DashboardRequest → Config × Response × Option AddLogArgs
  | .config method decoded => handleConfig t cfg method decoded
  | .proxy method upload => handleProxy t cfg method upload

/-- The configuration after the requests, in the order their locked sections ran. -/
def serveRequests (t : PrintTable) (cfg : Config) (requests : List DashboardRequest) : Config :=
  requests.foldl (fun cfg request => (request.handle t cfg).1) cfg

/-- The value a request writes to a field, if it writes one. -/
def acceptedSessions : DashboardRequest → Option Int
  | .config method (some payload) =>
    if method = "POST" ∧ 0 < payload.numberOfSessions ∧ payload.numberOfSessions ≤ 2000 then
      some payload.numberOfSessions
    else none
  | _ => none

def acceptedRetries : DashboardRequest → Option Int
  | .config method (some payload) =>
    if method = "POST" ∧ 0 < payload.maxRetries ∧ payload.maxRetries ≤ 100 then some payload.maxRetries else none
  | _ => none

def acceptedTarget : DashboardRequest → Option String
  | .config method (some payload) => if method = "POST" ∧ payload.targetURL ≠ "" then some payload.targetURL else none
  | _ => none

def acceptedProxyFile : DashboardRequest → Option String
  | .proxy method (.stored path _ _) => if method = "POST" then some path else none
  | _ => none

/-- A GET answers the configuration; a POST with a session count out of range still logs it. -/
example : handleConfig ⟨fun _ => false, rfl, rfl⟩ defaultConfig "POST" (some ⟨"", 5000, 7⟩) =
    (⟨500, 7, "", ""⟩, jsonReply (.bytes (goBytes "\x7b\"ok\":true\x7d")),
      some ⟨"INFO", goBytes "config updated via dashboard: target_url=\"\" sessions=5000 retries=7"⟩) := by
  decide

section Runs

variable {t : PrintTable}

theorem foldl_getD_eq_getLast {α β : Type} (f : α → Option β) :
    ∀ (requests : List α) (init : β),
      requests.foldl (fun v r => (f r).getD v) init = ((requests.filterMap f).getLast?).getD init
  | [], _ => rfl
  | r :: rs, init => by
    rw [List.foldl_cons, foldl_getD_eq_getLast f rs, List.filterMap_cons]
    cases hf : f r with
    | none => rfl
    | some v =>
      simp only [Option.getD_some]
      cases last : (rs.filterMap f).getLast? with
      | none => simp [List.getLast?_eq_none_iff.mp last]
      | some w => simp [List.getLast?_cons, last]

theorem handleConfig_config (cfg : Config) (method : String) (decoded : Option ConfigPayload) :
    (handleConfig t cfg method decoded).1 = if method = "POST" then decoded.elim cfg cfg.update else cfg := by
  unfold handleConfig
  split_ifs <;> subst_vars <;> first | cases decoded <;> rfl | (exfalso; contradiction)

theorem handleProxy_config (cfg : Config) (method : String) (upload : Upload) :
    (handleProxy t cfg method upload).1 =
      match upload with
      | .stored path _ _ => if method = "POST" then { cfg with proxyFile := path } else cfg
      | _ => cfg := by
  unfold handleProxy
  split_ifs <;> cases upload <;> simp_all

theorem handle_numberOfSessions (cfg : Config) (request : DashboardRequest) :
    (request.handle t cfg).1.numberOfSessions = (acceptedSessions request).getD cfg.numberOfSessions := by
  rcases request with ⟨method, _ | payload⟩ | ⟨method, _ | _ | _ | ⟨path, size, original⟩⟩ <;>
    simp only [DashboardRequest.handle, handleConfig_config, handleProxy_config, acceptedSessions] <;>
    (try split_ifs) <;> simp_all [Config.update, acceptBounded]

theorem handle_maxRetries (cfg : Config) (request : DashboardRequest) :
    (request.handle t cfg).1.maxRetries = (acceptedRetries request).getD cfg.maxRetries := by
  rcases request with ⟨method, _ | payload⟩ | ⟨method, _ | _ | _ | ⟨path, size, original⟩⟩ <;>
    simp only [DashboardRequest.handle, handleConfig_config, handleProxy_config, acceptedRetries] <;>
    (try split_ifs) <;> simp_all [Config.update, acceptBounded]

theorem handle_targetURL (cfg : Config) (request : DashboardRequest) :
    (request.handle t cfg).1.targetURL = (acceptedTarget request).getD cfg.targetURL := by
  rcases request with ⟨method, _ | payload⟩ | ⟨method, _ | _ | _ | ⟨path, size, original⟩⟩ <;>
    simp only [DashboardRequest.handle, handleConfig_config, handleProxy_config, acceptedTarget] <;>
    (try split_ifs) <;> simp_all [Config.update]

theorem handle_proxyFile (cfg : Config) (request : DashboardRequest) :
    (request.handle t cfg).1.proxyFile = (acceptedProxyFile request).getD cfg.proxyFile := by
  rcases request with ⟨method, _ | payload⟩ | ⟨method, _ | _ | _ | ⟨path, size, original⟩⟩ <;>
    simp only [DashboardRequest.handle, handleConfig_config, handleProxy_config, acceptedProxyFile] <;>
    (try split_ifs) <;> simp_all [Config.update]

theorem serveRequests_field {β : Type} (field : Config → β) (accepted : DashboardRequest → Option β)
    (handled : ∀ cfg request, field (request.handle t cfg).1 = (accepted request).getD (field cfg)) :
    ∀ (cfg : Config) (requests : List DashboardRequest),
      field (serveRequests t cfg requests) = ((requests.filterMap accepted).getLast?).getD (field cfg) := by
  intro cfg requests
  rw [← foldl_getD_eq_getLast]
  induction requests generalizing cfg with
  | nil => rfl
  | cons request requests ih =>
    simp only [serveRequests, List.foldl_cons] at ih ⊢
    rw [ih, handled]

theorem config_fields_last_accepted (t : PrintTable) (cfg : Config) (requests : List DashboardRequest) :
    (serveRequests t cfg requests).numberOfSessions =
        ((requests.filterMap acceptedSessions).getLast?).getD cfg.numberOfSessions ∧
      (serveRequests t cfg requests).maxRetries = ((requests.filterMap acceptedRetries).getLast?).getD cfg.maxRetries ∧
      (serveRequests t cfg requests).targetURL = ((requests.filterMap acceptedTarget).getLast?).getD cfg.targetURL ∧
      (serveRequests t cfg requests).proxyFile =
        ((requests.filterMap acceptedProxyFile).getLast?).getD cfg.proxyFile :=
  ⟨serveRequests_field _ _ handle_numberOfSessions cfg requests, serveRequests_field _ _ handle_maxRetries cfg requests,
    serveRequests_field _ _ handle_targetURL cfg requests, serveRequests_field _ _ handle_proxyFile cfg requests⟩

theorem getLast_filterMap_getD {β : Type} {P : β → Prop} {accepted : DashboardRequest → Option β}
    (requests : List DashboardRequest) {init : β} (start : P init)
    (checked : ∀ request v, accepted request = some v → P v) : P (((requests.filterMap accepted).getLast?).getD init) := by
  cases last : (requests.filterMap accepted).getLast? with
  | none => exact start
  | some v =>
    obtain ⟨request, -, found⟩ := List.mem_filterMap.mp (List.mem_of_mem_getLast? last)
    exact checked request v found

theorem config_stays_within_bounds (t : PrintTable) {cfg : Config} (sessions : 0 < cfg.numberOfSessions ∧ cfg.numberOfSessions ≤ 2000)
    (retries : 0 < cfg.maxRetries ∧ cfg.maxRetries ≤ 100) (requests : List DashboardRequest) :
    (0 < (serveRequests t cfg requests).numberOfSessions ∧ (serveRequests t cfg requests).numberOfSessions ≤ 2000) ∧
      (0 < (serveRequests t cfg requests).maxRetries ∧ (serveRequests t cfg requests).maxRetries ≤ 100) ∧
      (cfg.targetURL ≠ "" → (serveRequests t cfg requests).targetURL ≠ "") := by
  rw [serveRequests_field _ _ handle_numberOfSessions, serveRequests_field _ _ handle_maxRetries,
    serveRequests_field _ _ handle_targetURL]
  refine ⟨getLast_filterMap_getD (P := fun n => 0 < n ∧ n ≤ 2000) requests sessions fun request v found => ?_,
    getLast_filterMap_getD (P := fun n => 0 < n ∧ n ≤ 100) requests retries fun request v found => ?_,
    fun set => getLast_filterMap_getD (P := fun url => url ≠ "") requests set fun request v found => ?_⟩ <;>
  rcases request with ⟨method, _ | payload⟩ | ⟨method, upload⟩ <;>
    simp only [acceptedSessions, acceptedRetries, acceptedTarget, reduceCtorEq] at found <;>
    split_ifs at found with check <;> cases found <;> exact check.2

theorem config_stays_within_bounds_from_default :
    (0 < defaultConfig.numberOfSessions ∧ defaultConfig.numberOfSessions ≤ 2000) ∧
      (0 < defaultConfig.maxRetries ∧ defaultConfig.maxRetries ≤ 100) ∧
      ((0 < (serveRequests ⟨fun _ => false, rfl, rfl⟩ defaultConfig [.config "POST" (some ⟨"http://t", 5000, 0⟩)]).numberOfSessions ∧
          (serveRequests ⟨fun _ => false, rfl, rfl⟩ defaultConfig [.config "POST" (some ⟨"http://t", 5000, 0⟩)]).numberOfSessions ≤ 2000) ∧
        (0 < (serveRequests ⟨fun _ => false, rfl, rfl⟩ defaultConfig [.config "POST" (some ⟨"http://t", 5000, 0⟩)]).maxRetries ∧
          (serveRequests ⟨fun _ => false, rfl, rfl⟩ defaultConfig [.config "POST" (some ⟨"http://t", 5000, 0⟩)]).maxRetries ≤ 100) ∧
        (defaultConfig.targetURL ≠ "" →
          (serveRequests ⟨fun _ => false, rfl, rfl⟩ defaultConfig [.config "POST" (some ⟨"http://t", 5000, 0⟩)]).targetURL ≠ "")) :=
  ⟨by decide, by decide, config_stays_within_bounds _ (by decide) (by decide) _⟩

end Runs

end SessionEngine.Dashboard
