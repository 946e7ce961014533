import SessionEngine.Client.Headers

namespace SessionEngine.Client

/-! `OrderedHeader.Set`, `Del` and `Get`. `Set` and `Del` filter `h.entries` in place: `out :=
    h.entries[:0]` shares the backing array, so each `append` writes over an entry the `range`
    loop has already read. The loops below run on the backing array; `filterInPlace_spec` says
    they compute the list filter `filterEntries`, and the theorems about `Set` and `Del` are
    proved on that. -/

/-- `append(out, e)` with `out` of length `out` over the backing array `buf`: the write goes to
    index `out`; past the end of `buf` the slice grows. -/
def appendAt (buf : List HeaderEntry) (out : Nat) (e : HeaderEntry) : List HeaderEntry :=
  if out < buf.length then buf.set out e else buf ++ [e]

/-- The variables of the in-place loops: the backing array, the length of `out`, and the flag
    (`replaced` in `Set`). -/
structure InPlace where
  buf : List HeaderEntry
  out : Nat
  replaced : Bool

/-- One loop body: from the flag and the entry read, what is appended to `out` (if anything)
    and the new flag. -/
abbrev LoopBody := Bool → HeaderEntry → Option HeaderEntry × Bool

/-- `for _, e := range h.entries` from index `i`, `remaining` iterations left: `e` is read from
    the backing array as it stands. -/
def filterInPlace (body : LoopBody) (s : InPlace) (i : Nat) : Nat → InPlace
  | 0 => s
  | remaining + 1 =>
    match s.buf[i]? with
    | none => s
    | some e =>
      match body s.replaced e with
      | (some kept, flag) => filterInPlace body ⟨appendAt s.buf s.out kept, s.out + 1, flag⟩ (i + 1) remaining
      | (none, flag) => filterInPlace body ⟨s.buf, s.out, flag⟩ (i + 1) remaining

/-- `Set`'s body: the first entry of canonical name `canonKey` becomes `new`, later ones are
    skipped, others are kept. -/
def setBody (canonKey : String) (new : HeaderEntry) : LoopBody := fun replaced e =>
  if canonicalHeaderKey e.key = canonKey then
    if replaced then (none, true) else (some new, true)
  else (some e, replaced)

/-- `Del`'s body: entries of canonical name `canonKey` are skipped. -/
def delBody (canonKey : String) : LoopBody := fun replaced e =>
  if canonicalHeaderKey e.key ≠ canonKey then (some e, replaced) else (none, replaced)

/-- `h.Set(key, value)`. -/
def OrderedHeader.set (h : OrderedHeader) (key value : String) : OrderedHeader :=
  let s := filterInPlace (setBody (canonicalHeaderKey key) ⟨key, value⟩) ⟨h.entries, 0, false⟩ 0 h.entries.length
  if s.replaced then ⟨s.buf.take s.out⟩ else ⟨(appendAt s.buf s.out ⟨key, value⟩).take (s.out + 1)⟩

/-- `h.Del(key)`. -/
def OrderedHeader.del (h : OrderedHeader) (key : String) : OrderedHeader :=
  let s := filterInPlace (delBody (canonicalHeaderKey key)) ⟨h.entries, 0, false⟩ 0 h.entries.length
  ⟨s.buf.take s.out⟩

/-- `Get`'s loop: the value of the first entry of canonical name `canonKey`, or `""`. -/
def getLoop (canonKey : String) : List HeaderEntry → String
  | [] => ""
  | e :: rest => if canonicalHeaderKey e.key = canonKey then e.value else getLoop canonKey rest

/-- `h.Get(key)`. -/
def OrderedHeader.get (h : OrderedHeader) (key : String) : String :=
  getLoop (canonicalHeaderKey key) h.entries

/-- The loop read as a filter of a list, without the shared array. -/
def filterEntries (body : LoopBody) : Bool → List HeaderEntry → List HeaderEntry × Bool
  | flag, [] => ([], flag)
  | flag, e :: rest =>
    (((body flag e).1.toList ++ (filterEntries body (body flag e).2 rest).1), (filterEntries body (body flag e).2 rest).2)

section InPlace

variable {buf : List HeaderEntry} {out : Nat}

theorem take_appendAt (within : out ≤ buf.length) (e : HeaderEntry) :
    (appendAt buf out e).take (out + 1) = buf.take out ++ [e] := by
  unfold appendAt
  split
  · rename_i inside
    rw [List.take_succ, List.getElem?_set_self inside, List.set_eq_take_append_cons_drop, if_pos inside,
      List.take_append_of_le_length (by simp; omega), List.take_take, Nat.min_self, Option.toList_some]
  · obtain rfl : out = buf.length := by omega
    simp

theorem drop_appendAt {i : Nat} (inside : out < buf.length) (behind : out ≤ i) (e : HeaderEntry) :
    (appendAt buf out e).drop (i + 1) = buf.drop (i + 1) := by
  rw [appendAt, if_pos inside, List.drop_set_of_lt _ _ (by omega)]

theorem length_appendAt (inside : out < buf.length) (e : HeaderEntry) : (appendAt buf out e).length = buf.length := by
  rw [appendAt, if_pos inside, List.length_set]

/-- The in-place loop keeps what the list filter keeps: every write lands at or below the index
    being read, so the entries still to be read are never overwritten. -/
theorem filterInPlace_spec (body : LoopBody) :
    ∀ (rest : List HeaderEntry) (s : InPlace) (i : Nat), s.out ≤ i → s.buf.drop i = rest →
      s.buf.length = i + rest.length →
      (filterInPlace body s i rest.length).buf.take (filterInPlace body s i rest.length).out =
          s.buf.take s.out ++ (filterEntries body s.replaced rest).1 ∧
        (filterInPlace body s i rest.length).replaced = (filterEntries body s.replaced rest).2 ∧
        (filterInPlace body s i rest.length).out ≤ (filterInPlace body s i rest.length).buf.length
  | [], s, i, behind, _, length => by
    simp only [List.length_nil, filterInPlace, filterEntries, List.append_nil, true_and]
    omega
  | e :: rest, ⟨buf, out, flag⟩, i, behind, unread, length => by
    have inside : i < buf.length := by simp at length; omega
    have read : buf[i]? = some e := by
      rw [← List.head?_drop, unread, List.head?_cons]
    have next : buf.drop (i + 1) = rest := by
      rw [← List.drop_drop, unread, List.drop_one, List.tail_cons]
    simp only [List.length_cons, filterInPlace, read, filterEntries]
    rcases found : body flag e with ⟨_ | kept, flag'⟩
    · obtain ⟨taken, replaced, bound⟩ :=
        filterInPlace_spec body rest ⟨buf, out, flag'⟩ (i + 1) (by simp at behind ⊢; omega) next
          (by simp at length ⊢; omega)
      exact ⟨by simpa using taken, replaced, bound⟩
    · have room : out < buf.length := by simp at behind; omega
      obtain ⟨taken, replaced, bound⟩ :=
        filterInPlace_spec body rest ⟨appendAt buf out kept, out + 1, flag'⟩ (i + 1) (by simp at behind ⊢; omega)
          (by simpa [drop_appendAt room (by simpa using behind)] using next)
          (by simp [length_appendAt room] at length ⊢; omega)
      refine ⟨?_, replaced, bound⟩
      rw [taken]
      simp [take_appendAt (Nat.le_of_lt room)]

theorem filterInPlace_entries (body : LoopBody) (entries : List HeaderEntry) :
    let s := filterInPlace body ⟨entries, 0, false⟩ 0 entries.length
    s.buf.take s.out = (filterEntries body false entries).1 ∧ s.replaced = (filterEntries body false entries).2 ∧
      s.out ≤ s.buf.length := by
  simpa using filterInPlace_spec body entries ⟨entries, 0, false⟩ 0 le_rfl rfl (by simp)

end InPlace

section Spec

variable (canonKey : String) (new : HeaderEntry)

theorem filterEntries_setBody_true (entries : List HeaderEntry) :
    filterEntries (setBody canonKey new) true entries =
      (entries.filter fun e => canonicalHeaderKey e.key ≠ canonKey, true) := by
  induction entries with
  | nil => rfl
  | cons e rest ih =>
    by_cases same : canonicalHeaderKey e.key = canonKey <;> simp [filterEntries, setBody, same, ih]

theorem filterEntries_delBody (flag : Bool) (entries : List HeaderEntry) :
    filterEntries (delBody canonKey) flag entries = (entries.filter fun e => canonicalHeaderKey e.key ≠ canonKey, flag) := by
  induction entries with
  | nil => rfl
  | cons e rest ih =>
    by_cases same : canonicalHeaderKey e.key = canonKey <;> simp [filterEntries, delBody, same, ih]

/-- `Set` on a list of entries, as its comment puts it: the first entry of canonical name
    `canonKey` becomes `new` and later ones go; with none, `new` is appended. -/
def replaceFirst (canonKey : String) (new : HeaderEntry) : List HeaderEntry → List HeaderEntry
  | [] => [new]
  | e :: rest =>
    if canonicalHeaderKey e.key = canonKey then new :: rest.filter fun e => canonicalHeaderKey e.key ≠ canonKey
    else e :: replaceFirst canonKey new rest

theorem filterEntries_setBody_false (entries : List HeaderEntry) :
    (if (filterEntries (setBody canonKey new) false entries).2 then (filterEntries (setBody canonKey new) false entries).1
      else (filterEntries (setBody canonKey new) false entries).1 ++ [new]) = replaceFirst canonKey new entries := by
  induction entries with
  | nil => rfl
  | cons e rest ih =>
    by_cases same : canonicalHeaderKey e.key = canonKey
    · simp [filterEntries, setBody, same, replaceFirst, filterEntries_setBody_true]
    · simp only [filterEntries, setBody, same, if_false, replaceFirst, ← ih]
      split <;> rfl

end Spec

theorem OrderedHeader.set_entries (h : OrderedHeader) (key value : String) :
    (h.set key value).entries = replaceFirst (canonicalHeaderKey key) ⟨key, value⟩ h.entries := by
  obtain ⟨taken, replaced, bound⟩ :=
    filterInPlace_entries (setBody (canonicalHeaderKey key) ⟨key, value⟩) h.entries
  rw [← filterEntries_setBody_false, ← taken, ← replaced, OrderedHeader.set]
  split <;> simp [take_appendAt bound]

theorem OrderedHeader.del_entries (h : OrderedHeader) (key : String) :
    (h.del key).entries = h.entries.filter fun e => canonicalHeaderKey e.key ≠ canonicalHeaderKey key := by
  obtain ⟨taken, -, -⟩ := filterInPlace_entries (delBody (canonicalHeaderKey key)) h.entries
  rw [OrderedHeader.del, taken, filterEntries_delBody]

theorem getLoop_eq (canonKey : String) (entries : List HeaderEntry) :
    getLoop canonKey entries = ((entries.find? fun e => canonicalHeaderKey e.key = canonKey).map (·.value)).getD "" := by
  induction entries with
  | nil => rfl
  | cons e rest ih => by_cases same : canonicalHeaderKey e.key = canonKey <;> simp [getLoop, same, ih]

section ReplaceFirst

variable (canonKey : String) {new : HeaderEntry}

theorem filter_replaceFirst (named : canonicalHeaderKey new.key = canonKey) (entries : List HeaderEntry) :
    (replaceFirst canonKey new entries).filter (fun e => canonicalHeaderKey e.key = canonKey) = [new] := by
  induction entries with
  | nil => simp [replaceFirst, named]
  | cons e rest ih =>
    by_cases same : canonicalHeaderKey e.key = canonKey
    · simp [replaceFirst, same, named, List.filter_filter]
    · simp [replaceFirst, same, ih]

theorem filter_not_replaceFirst (named : canonicalHeaderKey new.key = canonKey) (entries : List HeaderEntry) :
    (replaceFirst canonKey new entries).filter (fun e => canonicalHeaderKey e.key ≠ canonKey) =
      entries.filter fun e => canonicalHeaderKey e.key ≠ canonKey := by
  induction entries with
  | nil => simp [replaceFirst, named]
  | cons e rest ih =>
    by_cases same : canonicalHeaderKey e.key = canonKey
    · simp [replaceFirst, same, named, List.filter_filter]
    · simpa [replaceFirst, same] using ih

theorem findIdx_replaceFirst (named : canonicalHeaderKey new.key = canonKey) (entries : List HeaderEntry) :
    (replaceFirst canonKey new entries).findIdx (fun e => canonicalHeaderKey e.key = canonKey) =
      entries.findIdx fun e => canonicalHeaderKey e.key = canonKey := by
  induction entries with
  | nil => simp [replaceFirst, named, List.findIdx_cons]
  | cons e rest ih =>
    by_cases same : canonicalHeaderKey e.key = canonKey
    · simp [replaceFirst, same, named, List.findIdx_cons]
    · simp [replaceFirst, same, List.findIdx_cons, ih]

end ReplaceFirst

theorem ordered_header_set_del_get (h : OrderedHeader) (k v k' : String) :
    ((h.set k v).entries.filter fun e => canonicalHeaderKey e.key = canonicalHeaderKey k) = [⟨k, v⟩] ∧
      ((h.set k v).entries.filter fun e => canonicalHeaderKey e.key ≠ canonicalHeaderKey k) =
        (h.entries.filter fun e => canonicalHeaderKey e.key ≠ canonicalHeaderKey k) ∧
      ((h.set k v).entries.findIdx fun e => canonicalHeaderKey e.key = canonicalHeaderKey k) =
        (h.entries.findIdx fun e => canonicalHeaderKey e.key = canonicalHeaderKey k) ∧
      (h.del k).entries = (h.entries.filter fun e => canonicalHeaderKey e.key ≠ canonicalHeaderKey k) ∧
      h.get k' = ((h.entries.find? fun e => canonicalHeaderKey e.key = canonicalHeaderKey k').map (·.value)).getD "" := by
  rw [OrderedHeader.set_entries]
  have named : canonicalHeaderKey (⟨k, v⟩ : HeaderEntry).key = canonicalHeaderKey k := rfl
  exact ⟨filter_replaceFirst _ named _, filter_not_replaceFirst _ named _, findIdx_replaceFirst _ named _,
    OrderedHeader.del_entries h k, getLoop_eq _ _⟩

/-- `Set` on a header holding the name twice, in two casings, keeps one entry where the first was. -/
example : ((⟨[⟨"accept", "a"⟩, ⟨"X-Id", "1"⟩, ⟨"ACCEPT", "b"⟩]⟩ : OrderedHeader).set "Accept" "c").entries =
    [⟨"Accept", "c"⟩, ⟨"X-Id", "1"⟩] := by
  decide

/-! `ToHTTPHeader`, and `http.Header.Get` on the map it returns. -/

/-- `h.ToHTTPHeader()`: the loop of `ApplyToRequest`, into a map of its own. -/
def OrderedHeader.toHTTPHeader (h : OrderedHeader) : Header :=
  h.applyToRequest

/-- `h.Get(key)` on an `http.Header`, which is `textproto.MIMEHeader(h).Get`: the first value under
    the canonical form of `key`, or `""`. -/
def Header.mimeGet (h : Header) (key : String) : String :=
  ((h.get (canonicalHeaderKey key)).head?).getD ""

theorem Header.get_foldl_entryAppend (hdr : Header) (entries : List HeaderEntry) (key : String) :
    (entries.foldl (fun hdr e => hdr.append e.key e.value) hdr).get key =
      hdr.get key ++ (entries.filter (·.key = key)).map (·.value) := by
  induction entries generalizing hdr with
  | nil => simp
  | cons e rest ih =>
    rw [List.foldl_cons, ih, Header.get_append, List.filter_cons]
    by_cases same : key = e.key
    · simp [same]
    · simp [same, Ne.symm same]

theorem OrderedHeader.toHTTPHeader_get (h : OrderedHeader) (key : String) :
    h.toHTTPHeader.get key = (h.entries.filter (·.key = key)).map (·.value) := by
  rw [OrderedHeader.toHTTPHeader, OrderedHeader.applyToRequest, Header.get_foldl_entryAppend]
  simp [Header.get, Header.empty]

/-- `ToHTTPHeader` files each entry under its key as added, in order. `http.Header.Get`
    canonicalises the name it looks up, so on the result it agrees with `Get` when every key was
    added in canonical form, and finds nothing under a name none of whose entries was added in
    that form. -/
theorem to_http_header_keeps_raw_keys (h : OrderedHeader) (k : String) :
    (∀ key, h.toHTTPHeader.get key = (h.entries.filter (·.key = key)).map (·.value)) ∧
      ((∀ e ∈ h.entries, canonicalHeaderKey e.key = e.key) → h.toHTTPHeader.mimeGet k = h.get k) ∧
      ((∀ e ∈ h.entries, e.key ≠ canonicalHeaderKey k) → h.toHTTPHeader.mimeGet k = "") := by
  refine ⟨h.toHTTPHeader_get, fun canonical => ?_, fun absent => ?_⟩
  · have same : (h.entries.filter fun e => e.key = canonicalHeaderKey k) =
        h.entries.filter fun e => canonicalHeaderKey e.key = canonicalHeaderKey k :=
      List.filter_congr fun e member => by rw [canonical e member]
    rw [Header.mimeGet, h.toHTTPHeader_get, same, List.head?_map, List.filter_head?, OrderedHeader.get, getLoop_eq]
  · rw [Header.mimeGet, h.toHTTPHeader_get, List.filter_eq_nil_iff.mpr (by simpa using absent)]
    rfl

theorem chrome_accept_language_lost_to_header_get :
    chromeOrderedHeaders.toHTTPHeader.mimeGet "Accept-Language" = "" ∧
      chromeOrderedHeaders.get "Accept-Language" = "en-US,en;q=0.9" :=
  ⟨(to_http_header_keeps_raw_keys chromeOrderedHeaders "Accept-Language").2.2 (by decide), by decide⟩

end SessionEngine.Client
