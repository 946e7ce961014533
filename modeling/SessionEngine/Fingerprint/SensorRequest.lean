import SessionEngine.Encoding.Url
import SessionEngine.Client.Headers

namespace SessionEngine.Fingerprint

open Encoding

/-- `extractOrigin`: the text before the first `/` after the first `://`, or all of it. -/
def extractOrigin (rawURL : List UInt8) : List UInt8 :=
  match indexOfSub (goBytes "://") rawURL with
  | some i =>
    match indexOfSub (goBytes "/") (rawURL.drop (i + 3)) with
    | some j => rawURL.take (i + 3 + j)
    | none => rawURL
  | none => rawURL

/-- The request `NewSensorRequest` returns: its method, header and body. -/
structure SensorRequest where
  method : String
  header : Client.Header
  body : List UInt8

inductive SensorRequestError where
  | marshal
  | buildRequest (err : UrlError)
  deriving DecidableEq, Repr

/-- `NewSensorRequest(endpoint, payload)`, given what `json.Marshal(payload)` returned (`none` for
    its error). `http.NewRequest` fails only where `url.Parse` does. A header value holds the
    bytes of the Go string, one character per byte. -/
def newSensorRequest (endpoint : List UInt8) (marshalled : Option (List UInt8)) :
    Except SensorRequestError SensorRequest :=
  match marshalled with
  | none => .error .marshal
  | some body =>
    match urlParse endpoint with
    | .error err => .error (.buildRequest err)
    | .ok _ =>
      let origin := asciiString (extractOrigin endpoint)
      let header := Client.Header.empty
        |>.set (Client.canonicalHeaderKey "Content-Type") ["text/plain;charset=UTF-8"]
        |>.set (Client.canonicalHeaderKey "Accept") ["*/*"]
        |>.set (Client.canonicalHeaderKey "Origin") [origin]
        |>.set (Client.canonicalHeaderKey "Referer") [origin ++ "/"]
        |>.set (Client.canonicalHeaderKey "sec-fetch-site") ["same-origin"]
        |>.set (Client.canonicalHeaderKey "sec-fetch-mode") ["cors"]
        |>.set (Client.canonicalHeaderKey "sec-fetch-dest") ["empty"]
      .ok ⟨"POST", header, body⟩

section Index

theorem indexOfSub_isPrefixOf {pat : List UInt8} :
    ∀ {s : List UInt8} {i : Nat}, indexOfSub pat s = some i → pat.isPrefixOf (s.drop i) = true
  | [], i, found => by
    simp only [indexOfSub] at found
    split at found
    · cases found; simp_all
    · cases found
  | c :: rest, i, found => by
    simp only [indexOfSub] at found
    split at found
    · cases found; assumption
    · obtain ⟨j, later, rfl⟩ := Option.map_eq_some'.mp found
      have shifted := indexOfSub_isPrefixOf later
      exact shifted

theorem indexOfSub_of_isPrefixOf {pat s : List UInt8} (prefixed : pat.isPrefixOf s = true) : indexOfSub pat s = some 0 := by
  cases s with
  | nil =>
    cases pat with
    | nil => rfl
    | cons _ _ => cases prefixed
  | cons c rest => simp [indexOfSub, prefixed]

theorem indexOfSub_append_of_not_mem {c : UInt8} {pat : List UInt8} :
    ∀ {skipped : List UInt8} (rest : List UInt8), c ∉ skipped →
      indexOfSub (c :: pat) (skipped ++ rest) = (indexOfSub (c :: pat) rest).map (· + skipped.length)
  | [], rest, _ => by simp
  | d :: skipped, rest, absent => by
    have differ : d ≠ c := fun same => absent (same ▸ List.mem_cons_self d skipped)
    rw [List.cons_append, indexOfSub, if_neg (by simp [List.isPrefixOf, Ne.symm differ]),
      indexOfSub_append_of_not_mem rest (fun member => absent (List.mem_cons_of_mem d member)), Option.map_map]
    simp only [List.length_cons]
    congr 1

end Index

section Origin

@[simp] theorem goBytes_scheme_separator : goBytes "://" = [0x3A, 0x2F, 0x2F] := rfl

@[simp] theorem goBytes_slash : goBytes "/" = [0x2F] := rfl

theorem extractOrigin_prefix (rawURL : List UInt8) :
    ∃ tail, rawURL = extractOrigin rawURL ++ tail ∧ (tail = [] ∨ tail.head? = some 0x2F) := by
  unfold extractOrigin
  split
  · split
    · next j slash =>
      refine ⟨rawURL.drop (_ + 3 + j), (List.take_append_drop _ _).symm, .inr ?_⟩
      have starts := indexOfSub_isPrefixOf slash
      rw [List.drop_drop] at starts
      cases rest : rawURL.drop (_ + 3 + j) with
      | nil => simp_all
      | cons b tail => simp_all [List.isPrefixOf]
    · exact ⟨[], by simp, .inl rfl⟩
  · exact ⟨[], by simp, .inl rfl⟩

theorem extractOrigin_scheme_host {scheme host tail : List UInt8} (scheme_ok : ∀ b ∈ scheme, b.toNat ≠ 0x3A)
    (host_ok : 0x2F ∉ host) (after : tail = [] ∨ tail.head? = some 0x2F) :
    extractOrigin (scheme ++ goBytes "://" ++ host ++ tail) = scheme ++ goBytes "://" ++ host := by
  have noColon : (0x3A : UInt8) ∉ scheme := fun member => scheme_ok _ member rfl
  have found : indexOfSub (goBytes "://") (scheme ++ goBytes "://" ++ host ++ tail) = some scheme.length := by
    rw [goBytes_scheme_separator, List.append_assoc, List.append_assoc,
      indexOfSub_append_of_not_mem _ noColon, indexOfSub_of_isPrefixOf (by simp [List.isPrefixOf])]
    simp
  have dropped : (scheme ++ goBytes "://" ++ host ++ tail).drop (scheme.length + 3) = host ++ tail := by
    simp [List.drop_append_eq_append_drop]
  unfold extractOrigin
  rw [found]
  dsimp only
  rw [dropped, goBytes_slash, indexOfSub_append_of_not_mem _ host_ok]
  rcases after with rfl | starts
  · simp [indexOfSub]
  · obtain ⟨rest, rfl⟩ : ∃ rest, tail = 0x2F :: rest := by
      cases tail with
      | nil => cases starts
      | cons b rest => cases starts; exact ⟨rest, rfl⟩
    rw [indexOfSub_of_isPrefixOf (by simp [List.isPrefixOf])]
    exact List.take_left' (by simp; omega)

end Origin

section Request

theorem sensor_request_origin_is_text_before_path (endpoint : List UInt8) (marshalled : Option (List UInt8)) :
    ((∃ req, newSensorRequest endpoint marshalled = .ok req) ↔
      marshalled.isSome ∧ ∃ url, urlParse endpoint = .ok url) ∧
    (∀ req, newSensorRequest endpoint marshalled = .ok req →
      req.header.get "Origin" = [asciiString (extractOrigin endpoint)] ∧
        req.header.get "Referer" = [asciiString (extractOrigin endpoint) ++ "/"]) ∧
    ∀ url, urlParse endpoint = .ok url →
      (extractOrigin endpoint = url.scheme ++ goBytes "://" ++ url.host ↔
        ∃ tail, endpoint = url.scheme ++ goBytes "://" ++ url.host ++ tail ∧ (tail = [] ∨ tail.head? = some 0x2F)) := by
  refine ⟨?_, fun req made => ?_, fun url parsed => ⟨fun cut => ?_, fun ⟨tail, written, after⟩ => ?_⟩⟩
  · cases marshalled with
    | none => simp [newSensorRequest]
    | some body => cases parse : urlParse endpoint <;> simp [newSensorRequest, parse]
  · cases marshalled with
    | none => cases made
    | some body =>
      cases parse : urlParse endpoint with
      | error err => simp [newSensorRequest, parse] at made
      | ok url =>
        simp only [newSensorRequest, parse, Except.ok.injEq] at made
        subst made
        exact ⟨rfl, rfl⟩
  · obtain ⟨tail, written, after⟩ := extractOrigin_prefix endpoint
    exact ⟨tail, cut ▸ written, after⟩
  · obtain ⟨schemeOk, hostOk⟩ := urlParse_shape parsed
    have noSlash : (0x2F : UInt8) ∉ url.host := fun member => by
      have slashHost := hostOk _ member
      revert slashHost
      unfold HostByte
      decide
    rw [written]
    exact extractOrigin_scheme_host schemeOk noSlash after

theorem sensor_request_origin_on_akamai_path :
    urlParse (goBytes "https://example.com/akam/11/pixel") = .ok ⟨goBytes "https", goBytes "example.com"⟩ ∧
      extractOrigin (goBytes "https://example.com/akam/11/pixel") = goBytes "https" ++ goBytes "://" ++ goBytes "example.com" :=
  ⟨rfl, ((sensor_request_origin_is_text_before_path (goBytes "https://example.com/akam/11/pixel") none).2.2 _ rfl).mpr
    ⟨goBytes "/akam/11/pixel", rfl, .inr rfl⟩⟩

/-- Userinfo, a query before any path, and an upper-case scheme all stay in the `Origin`. -/
theorem sensor_request_origin_keeps_written_text :
    urlParse (goBytes "https://u@example.com/x") = .ok ⟨goBytes "https", goBytes "example.com"⟩ ∧
      (newSensorRequest (goBytes "https://u@example.com/x") (some [])).map (·.header.get "Origin") =
        .ok ["https://u@example.com"] ∧
    urlParse (goBytes "https://example.com?q=1") = .ok ⟨goBytes "https", goBytes "example.com"⟩ ∧
      (newSensorRequest (goBytes "https://example.com?q=1") (some [])).map (·.header.get "Origin") =
        .ok ["https://example.com?q=1"] ∧
    urlParse (goBytes "HTTPS://example.com/") = .ok ⟨goBytes "https", goBytes "example.com"⟩ ∧
      (newSensorRequest (goBytes "HTTPS://example.com/") (some [])).map (·.header.get "Origin") =
        .ok ["HTTPS://example.com"] :=
  ⟨rfl, rfl, rfl, rfl, rfl, rfl⟩

end Request

end SessionEngine.Fingerprint
