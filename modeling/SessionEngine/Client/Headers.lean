import SessionEngine.AssocList

namespace SessionEngine.Client

/-- A `headerEntry`: a key in the casing it was added with, and a value. -/
structure HeaderEntry where
  key : String
  value : String
  deriving DecidableEq, Repr

/-- An `OrderedHeader`: its entries in insertion order. -/
structure OrderedHeader where
  entries : List HeaderEntry
  deriving DecidableEq, Repr

/-- `h.Add(key, value)`. -/
def OrderedHeader.add (h : OrderedHeader) (key value : String) : OrderedHeader :=
  ⟨h.entries ++ [⟨key, value⟩]⟩

def chromeUserAgent : String :=
  "Mozilla/5.0 (Windows NT 10.0; Win64; x64) AppleWebKit/537.36 (KHTML, like Gecko) Chrome/120.0.0.0 Safari/537.36"

def chromeOrderedHeaders : OrderedHeader :=
  (⟨[]⟩ : OrderedHeader)
    |>.add "sec-ch-ua" "\"Not_A Brand\";v=\"8\", \"Chromium\";v=\"120\", \"Google Chrome\";v=\"120\""
    |>.add "sec-ch-ua-mobile" "?0"
    |>.add "sec-ch-ua-platform" "\"Windows\""
    |>.add "Upgrade-Insecure-Requests" "1"
    |>.add "User-Agent" chromeUserAgent
    |>.add "Accept" ("text/html,application/xhtml+xml,application/xml;q=0.9,image/avif,image/webp,image/apng," ++
      "*/*;q=0.8,application/signed-exchange;v=b3;q=0.7")
    |>.add "sec-fetch-site" "none"
    |>.add "sec-fetch-mode" "navigate"
    |>.add "sec-fetch-user" "?1"
    |>.add "sec-fetch-dest" "document"
    |>.add "accept-encoding" "gzip, deflate, br"
    |>.add "accept-language" "en-US,en;q=0.9"

/-- An `http.Header`: a Go map from key to values, so no key is stored twice. -/
structure Header where
  entries : List (String × List String)
  nodup : (entries.map Prod.fst).Nodup

/-- `make(http.Header)`. -/
def Header.empty : Header :=
  ⟨[], List.nodup_nil⟩

/-- `h[key]`, nil when the key is missing. -/
def Header.get (h : Header) (key : String) : List String :=
  (h.entries.lookup key).getD []

/-- `h[key] = values`, with `key` as given, not canonicalised. -/
def Header.set (h : Header) (key : String) (values : List String) : Header :=
  ⟨(key, values) :: h.entries.filter (·.1 ≠ key), by
    refine List.nodup_cons.mpr ⟨fun member => ?_, ?_⟩
    · obtain ⟨e, kept, same⟩ := List.mem_map.mp member
      simp [List.mem_filter, same] at kept
    · exact h.nodup.sublist (List.Sublist.map _ (List.filter_sublist _))⟩

/-- `h[key] = append(h[key], value)`, the idiom of both loops below. -/
def Header.append (h : Header) (key value : String) : Header :=
  h.set key (h.get key ++ [value])

/-- `h.ApplyToRequest(req)`: the fresh map it leaves in `req.Header`. -/
def OrderedHeader.applyToRequest (h : OrderedHeader) : Header :=
  h.entries.foldl (fun hdr e => hdr.append e.key e.value) Header.empty

/-- The header map `chrome120RoundTripper.RoundTrip` passes to the HTTP/2 transport for a
    request whose header map is `caller`, ranging over `caller` in the order of its list. -/
def roundTripHeader (caller : Header) : Header :=
  caller.entries.foldl (fun hdr kv => kv.2.foldl (fun hdr v => hdr.append kv.1 v) hdr)
    chromeOrderedHeaders.applyToRequest

/-- `validHeaderFieldByte`: a token character of RFC 7230, a letter, a digit or one of
    ``!#$%&'*+-.^_`|~`` (by code). -/
def validHeaderFieldByte (c : Char) : Bool :=
  c.isAlphanum || [33, 35, 36, 37, 38, 39, 42, 43, 45, 46, 94, 95, 96, 124, 126].contains c.toNat

/-- The case loop of `canonicalMIMEHeaderKey`: upper case at the start and after a hyphen,
    lower case elsewhere. -/
def canonicalChars : Bool → List Char → List Char
  | _, [] => []
  | upper, c :: rest => (if upper then c.toUpper else c.toLower) :: canonicalChars (c = '-') rest

/-- `http.CanonicalHeaderKey`: a key holding a byte outside the token characters is returned
    unchanged (a non-ASCII character is such a byte). -/
def canonicalHeaderKey (s : String) : String :=
  if s.toList.all validHeaderFieldByte then ⟨canonicalChars true s.toList⟩ else s

theorem Header.get_set (h : Header) (key : String) (values : List String) (k : String) :
    (h.set key values).get k = if k = key then values else h.get k := by
  by_cases same : k = key
  · subst same
    simp [Header.set, Header.get]
  · simp only [Header.set, Header.get, same, if_false, List.lookup_cons, beq_eq_false_iff_ne.mpr same,
      lookup_filter_ne same]

theorem Header.get_append (h : Header) (key value k : String) :
    (h.append key value).get k = if k = key then h.get k ++ [value] else h.get k := by
  rw [Header.append, Header.get_set]
  split <;> simp_all

theorem Header.get_foldl_append (h : Header) (key : String) (values : List String) (k : String) :
    (values.foldl (fun hdr v => hdr.append key v) h).get k = if k = key then h.get k ++ values else h.get k := by
  induction values generalizing h with
  | nil => simp
  | cons v rest ih =>
    rw [List.foldl_cons, ih, Header.get_append]
    split <;> simp

theorem Header.get_foldl_entries (h : Header) :
    ∀ {entries : List (String × List String)}, (entries.map Prod.fst).Nodup → ∀ k,
      (entries.foldl (fun hdr kv => kv.2.foldl (fun hdr v => hdr.append kv.1 v) hdr) h).get k =
        h.get k ++ (entries.lookup k).getD []
  | [], _, k => by simp
  | (key, values) :: rest, distinct, k => by
    rw [List.map_cons, List.nodup_cons] at distinct
    rw [List.foldl_cons, Header.get_foldl_entries _ distinct.2, Header.get_foldl_append, List.lookup_cons]
    by_cases same : k = key
    · subst same
      simp [lookup_eq_none_of_not_mem distinct.1]
    · simp [same, beq_eq_false_iff_ne.mpr same]

theorem get_roundTripHeader (caller : Header) (k : String) :
    (roundTripHeader caller).get k = chromeOrderedHeaders.applyToRequest.get k ++ caller.get k :=
  Header.get_foldl_entries _ caller.nodup k

/-- The values a map holds under the keys of canonical name `name`, in the order of its list. -/
def Header.valuesUnder (h : Header) (name : String) : List String :=
  h.entries.flatMap fun kv => if canonicalHeaderKey kv.1 = name then kv.2 else []

theorem Header.mem_get {h : Header} {k v : String} : v ∈ h.get k ↔ ∃ values, (k, values) ∈ h.entries ∧ v ∈ values := by
  constructor
  · intro member
    cases found : h.entries.lookup k with
    | none => simp [Header.get, found] at member
    | some values => exact ⟨values, mem_of_lookup_eq_some found, by simpa [Header.get, found] using member⟩
  · rintro ⟨values, listed, member⟩
    simpa [Header.get, lookup_of_mem_nodup h.nodup listed] using member

theorem Header.mem_valuesUnder {h : Header} {name v : String} :
    v ∈ h.valuesUnder name ↔ ∃ k, canonicalHeaderKey k = name ∧ v ∈ h.get k := by
  simp only [Header.valuesUnder, List.mem_flatMap, Header.mem_get]
  constructor
  · rintro ⟨⟨k, values⟩, listed, member⟩
    split at member
    · exact ⟨k, ‹_›, values, listed, member⟩
    · cases member
  · rintro ⟨k, canonical, values, listed, member⟩
    exact ⟨(k, values), listed, by simpa [canonical] using member⟩

theorem caller_values_join_defaults (caller : Header) (name v : String) :
    v ∈ (roundTripHeader caller).valuesUnder name ↔
      v ∈ chromeOrderedHeaders.applyToRequest.valuesUnder name ∨ v ∈ caller.valuesUnder name := by
  simp only [Header.mem_valuesUnder, get_roundTripHeader, List.mem_append, and_or_left, exists_or]

/-- A caller that sets its own user agent, and the platform hint in canonical casing, sends the
    Chrome value and its own under each name. -/
example : (roundTripHeader ⟨[("User-Agent", ["MyAgent/1.0"]), ("Sec-Ch-Ua-Platform", ["\"Linux\""])],
      by decide⟩).valuesUnder "User-Agent" = [chromeUserAgent, "MyAgent/1.0"] ∧
    (roundTripHeader ⟨[("User-Agent", ["MyAgent/1.0"]), ("Sec-Ch-Ua-Platform", ["\"Linux\""])],
      by decide⟩).valuesUnder "Sec-Ch-Ua-Platform" = ["\"Linux\"", "\"Windows\""] := by
  decide

end SessionEngine.Client
