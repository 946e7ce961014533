import SessionEngine.Client.Headers

namespace SessionEngine.Fingerprint

/-- A `Header` of a profile: an ordered name-value pair. -/
structure Header where
  name : String
  value : String
  deriving DecidableEq, Repr

/-- A `Profile`, with the fields `ApplyHeaders` reads; its `TLSConfig` is left out. -/
structure Profile where
  userAgent : String
  extraHeaders : List Header
  deriving DecidableEq, Repr

def chromeProfile : Profile :=
  ⟨"Mozilla/5.0 (Windows NT 10.0; Win64; x64) " ++ "AppleWebKit/537.36 (KHTML, like Gecko) " ++
      "Chrome/120.0.0.0 Safari/537.36",
    [⟨"Accept", "text/html,application/xhtml+xml,application/xml;q=0.9,image/avif,image/webp,image/apng,*/*;q=0.8"⟩,
      ⟨"Accept-Language", "en-US,en;q=0.9"⟩,
      ⟨"Accept-Encoding", "gzip, deflate, br"⟩,
      ⟨"Sec-Ch-Ua", "\"Not_A Brand\";v=\"8\", \"Chromium\";v=\"120\", \"Google Chrome\";v=\"120\""⟩,
      ⟨"Sec-Ch-Ua-Mobile", "?0"⟩,
      ⟨"Sec-Ch-Ua-Platform", "\"Windows\""⟩,
      ⟨"Sec-Fetch-Dest", "document"⟩,
      ⟨"Sec-Fetch-Mode", "navigate"⟩,
      ⟨"Sec-Fetch-Site", "none"⟩,
      ⟨"Upgrade-Insecure-Requests", "1"⟩]⟩

/-- A Go `map[string]string`: no key is stored twice; the order of the list is not the order
    `range` visits, which is any. -/
structure StringMap where
  entries : List (String × String)
  nodup : (entries.map Prod.fst).Nodup

/-- `m[key]` with its `ok`. -/
def StringMap.get? (m : StringMap) (key : String) : Option String :=
  m.entries.lookup key

/-- `m[key] = value`. -/
def StringMap.insert (m : StringMap) (key value : String) : StringMap :=
  ⟨(key, value) :: m.entries.filter (·.1 ≠ key), by
    refine List.nodup_cons.mpr ⟨fun member => ?_, ?_⟩
    · obtain ⟨e, kept, same⟩ := List.mem_map.mp member
      simp [List.mem_filter, same] at kept
    · exact m.nodup.sublist (List.Sublist.map _ (List.filter_sublist _))⟩

/-- `p.ApplyHeaders(headers)`, `none` standing for a nil map: the user agent is written
    unconditionally, an extra header only when its exact name is not a key yet. -/
def Profile.applyHeaders (p : Profile) : Option StringMap → Option StringMap
  | none => none
  | some headers =>
    let headers := if p.userAgent ≠ "" then headers.insert "User-Agent" p.userAgent else headers
    some (p.extraHeaders.foldl
      (fun headers h => if (headers.get? h.name).isSome then headers else headers.insert h.name h.value) headers)

/-- The header map of the request `ExecuteRequest` builds, `range s.Headers` visiting the entries
    in the order `order`: `http.NewRequest` starts it empty, and each `req.Header.Set(k, v)`
    stores `[v]` under `http.CanonicalHeaderKey(k)`. -/
def requestHeader (order : List (String × String)) : Client.Header :=
  order.foldl (fun hdr kv => hdr.set (Client.canonicalHeaderKey kv.1) [kv.2]) Client.Header.empty

theorem StringMap.get?_insert (m : StringMap) (key value k : String) :
    (m.insert key value).get? k = if k = key then some value else m.get? k := by
  by_cases same : k = key
  · subst same
    simp [StringMap.insert, StringMap.get?]
  · simp only [StringMap.insert, StringMap.get?, same, if_false, List.lookup_cons, beq_eq_false_iff_ne.mpr same,
      lookup_filter_ne same]

theorem get?_foldl_extra (extra : List Header) (headers : StringMap) (k : String) :
    (extra.foldl (fun headers h => if (headers.get? h.name).isSome then headers else headers.insert h.name h.value)
        headers).get? k =
      (headers.get? k).or ((extra.find? fun h => h.name = k).map (·.value)) := by
  induction extra generalizing headers with
  | nil => simp
  | cons h rest ih =>
    rw [List.foldl_cons, ih]
    by_cases held : (headers.get? h.name).isSome
    · rw [if_pos held]
      by_cases named : h.name = k
      · subst named
        obtain ⟨v, found⟩ := Option.isSome_iff_exists.mp held
        simp [found]
      · simp [named]
    · rw [if_neg held, StringMap.get?_insert]
      by_cases named : h.name = k
      · subst named
        simp_all
      · simp [Ne.symm named, named]

theorem Profile.get?_applyHeaders (p : Profile) (headers : StringMap) (k : String) :
    ((p.applyHeaders (some headers)).map fun m => m.get? k) =
      some (if k = "User-Agent" ∧ p.userAgent ≠ "" then some p.userAgent
        else (headers.get? k).or ((p.extraHeaders.find? fun h => h.name = k).map (·.value))) := by
  simp only [Profile.applyHeaders, Option.map_some', get?_foldl_extra]
  by_cases agent : p.userAgent ≠ ""
  · by_cases named : k = "User-Agent"
    · simp [agent, named, StringMap.get?_insert]
    · simp [agent, named, StringMap.get?_insert]
  · simp [agent]

theorem requestHeader_get (order : List (String × String)) (name : String) :
    (requestHeader order).get name =
      ((order.reverse.find? fun kv => Client.canonicalHeaderKey kv.1 = name).map fun kv => [kv.2]).getD [] := by
  suffices ∀ start : Client.Header, (order.foldl (fun hdr kv => hdr.set (Client.canonicalHeaderKey kv.1) [kv.2]) start).get name =
      ((order.reverse.find? fun kv => Client.canonicalHeaderKey kv.1 = name).map fun kv => [kv.2]).getD (start.get name) from
    this _
  induction order with
  | nil => simp
  | cons kv rest ih =>
    intro start
    rw [List.foldl_cons, ih, Client.Header.get_set, List.reverse_cons, List.find?_append]
    by_cases named : Client.canonicalHeaderKey kv.1 = name
    · cases found : rest.reverse.find? fun kv => Client.canonicalHeaderKey kv.1 = name <;> simp [found, named]
    · simp [Ne.symm named, named]

theorem Client.Header.mem_keys_set {h : Client.Header} {key k : String} {values : List String}
    (member : key ∈ (h.set k values).entries.map Prod.fst) : key = k ∨ key ∈ h.entries.map Prod.fst := by
  simp only [Client.Header.set, List.map_cons, List.mem_cons, List.mem_map, List.mem_filter] at member
  rcases member with same | ⟨e, ⟨listed, -⟩, rfl⟩
  · exact .inl same
  · exact .inr (List.mem_map_of_mem _ listed)

theorem requestHeader_keys (order : List (String × String)) {key : String}
    (member : key ∈ (requestHeader order).entries.map Prod.fst) : ∃ kv ∈ order, Client.canonicalHeaderKey kv.1 = key := by
  suffices ∀ start : Client.Header,
      key ∈ (order.foldl (fun hdr kv => hdr.set (Client.canonicalHeaderKey kv.1) [kv.2]) start).entries.map Prod.fst →
        key ∈ start.entries.map Prod.fst ∨ ∃ kv ∈ order, Client.canonicalHeaderKey kv.1 = key by
    simpa [Client.Header.empty] using this _ member
  clear member
  induction order with
  | nil => exact fun _ => .inl
  | cons kv rest ih =>
    intro start member
    rcases ih _ member with earlier | ⟨kv', later, named⟩
    · rcases Client.Header.mem_keys_set earlier with same | kept
      · exact .inr ⟨kv, List.mem_cons_self _ _, same.symm⟩
      · exact .inl kept
    · exact .inr ⟨kv', List.mem_cons_of_mem _ later, named⟩

theorem find?_perm_of_unique {α : Type} {p : α → Bool} {l l' : List α} (perm : l.Perm l')
    (unique : ∀ a ∈ l, ∀ b ∈ l, p a → p b → a = b) : l.find? p = l'.find? p := by
  cases found : l.find? p with
  | none =>
    exact (List.find?_eq_none.mpr fun a member => List.find?_eq_none.mp found a (perm.mem_iff.mpr member)).symm
  | some a =>
    have listed := List.mem_of_find?_eq_some found
    have holds := List.find?_some found
    cases found' : l'.find? p with
    | none => exact absurd holds (by simpa using List.find?_eq_none.mp found' a (perm.mem_iff.mp listed))
    | some b =>
      exact congrArg some (unique a listed b (perm.mem_iff.mpr (List.mem_of_find?_eq_some found')) holds
        (List.find?_some found'))

/-- A session request after `p.ApplyHeaders(H)`. `ApplyHeaders` checks the exact name, so an
    extra header is added beside a key of `H` that differs from its name only in casing, and the
    user agent is written over `H`'s. The request holds under each name the value of the last key
    of that canonical name that `range` visits, under the canonical key: a key keeps its casing
    only when it is already canonical. When no two keys share a canonical name, every order of
    `range` sends the same header. -/
theorem session_request_last_value_per_canonical_name (p : Profile) (H : StringMap) {applied : StringMap}
    (apply : p.applyHeaders (some H) = some applied) (order : List (String × String))
    (ranged : order.Perm applied.entries) :
    (∀ k, applied.get? k = if k = "User-Agent" ∧ p.userAgent ≠ "" then some p.userAgent
        else (H.get? k).or ((p.extraHeaders.find? fun h => h.name = k).map (·.value))) ∧
      (∀ name, (requestHeader order).get name =
        ((order.reverse.find? fun kv => Client.canonicalHeaderKey kv.1 = name).map fun kv => [kv.2]).getD []) ∧
      (∀ key ∈ (requestHeader order).entries.map Prod.fst,
        ∃ k v, applied.get? k = some v ∧ Client.canonicalHeaderKey k = key) ∧
      ((∀ k k', k ∈ applied.entries.map Prod.fst → k' ∈ applied.entries.map Prod.fst →
          Client.canonicalHeaderKey k = Client.canonicalHeaderKey k' → k = k') →
        ∀ order', order'.Perm applied.entries → ∀ name, (requestHeader order').get name = (requestHeader order).get name) := by
  refine ⟨fun k => ?_, requestHeader_get order, fun key member => ?_, fun distinct order' ranged' name => ?_⟩
  · simpa [apply] using p.get?_applyHeaders H k
  · obtain ⟨⟨k, v⟩, visited, named⟩ := requestHeader_keys order member
    exact ⟨k, v, lookup_of_mem_nodup applied.nodup (ranged.mem_iff.mp visited), named⟩
  · rw [requestHeader_get, requestHeader_get,
      find?_perm_of_unique ((List.reverse_perm _).trans (ranged'.trans ranged.symm) |>.trans (List.reverse_perm _).symm)]
    intro a listed b listed' named named'
    have keyed := distinct a.1 b.1 (List.mem_map_of_mem _ (ranged'.mem_iff.mp (List.mem_reverse.mp listed)))
      (List.mem_map_of_mem _ (ranged'.mem_iff.mp (List.mem_reverse.mp listed')))
      (by simp only [decide_eq_true_eq] at named named'; rw [named, named'])
    have found := lookup_of_mem_nodup applied.nodup (ranged'.mem_iff.mp (List.mem_reverse.mp listed))
    have found' := lookup_of_mem_nodup applied.nodup (ranged'.mem_iff.mp (List.mem_reverse.mp listed'))
    rw [keyed, found'] at found
    exact Prod.ext keyed (Option.some.inj found).symm

/-- A profile with one extra header, a session map holding its name in lower case, and the map
    `ApplyHeaders` leaves. -/
def acceptProfile : Profile := ⟨"Agent/1.0", [⟨"Accept", "*/*"⟩]⟩

def lowerAccept : StringMap := ⟨[("accept", "text/plain")], by decide⟩

def lowerAcceptApplied : StringMap :=
  ⟨[("Accept", "*/*"), ("User-Agent", "Agent/1.0"), ("accept", "text/plain")], by decide⟩

theorem session_request_lower_accept_sample :
    acceptProfile.applyHeaders (some lowerAccept) = some lowerAcceptApplied ∧
      lowerAcceptApplied.entries.Perm lowerAcceptApplied.entries ∧
      ((∀ k, lowerAcceptApplied.get? k = if k = "User-Agent" ∧ acceptProfile.userAgent ≠ "" then some acceptProfile.userAgent
          else (lowerAccept.get? k).or ((acceptProfile.extraHeaders.find? fun h => h.name = k).map (·.value))) ∧
        (∀ name, (requestHeader lowerAcceptApplied.entries).get name =
          ((lowerAcceptApplied.entries.reverse.find? fun kv => Client.canonicalHeaderKey kv.1 = name).map
            fun kv => [kv.2]).getD []) ∧
        (∀ key ∈ (requestHeader lowerAcceptApplied.entries).entries.map Prod.fst,
          ∃ k v, lowerAcceptApplied.get? k = some v ∧ Client.canonicalHeaderKey k = key) ∧
        ((∀ k k', k ∈ lowerAcceptApplied.entries.map Prod.fst → k' ∈ lowerAcceptApplied.entries.map Prod.fst →
            Client.canonicalHeaderKey k = Client.canonicalHeaderKey k' → k = k') →
          ∀ order', order'.Perm lowerAcceptApplied.entries → ∀ name,
            (requestHeader order').get name = (requestHeader lowerAcceptApplied.entries).get name)) :=
  ⟨rfl, List.Perm.refl _,
    session_request_last_value_per_canonical_name acceptProfile lowerAccept rfl _ (List.Perm.refl _)⟩

/-- A session map holding `accept` in lower case: `ApplyHeaders` adds Chrome's `Accept` beside it,
    the two collide under `Accept`, and the order `range` visits them decides which value the
    request sends. -/
example : (chromeProfile.applyHeaders (some ⟨[("accept", "text/plain")], by decide⟩)).map
      (fun m => ((requestHeader m.entries).get "Accept", (requestHeader m.entries.reverse).get "Accept",
        (requestHeader m.entries).get "accept")) =
    some (["text/plain"], ["text/html,application/xhtml+xml,application/xml;q=0.9,image/avif,image/webp,image/apng,*/*;q=0.8"],
      []) := by
  decide

end SessionEngine.Fingerprint
