import Mathlib.Data.List.DropRight
import Mathlib.Data.List.Infix
import SessionEngine.Proxy.Rotation
import SessionEngine.Encoding.Quote

namespace SessionEngine.Proxy

open SessionEngine.Encoding

/-! `ProxyManager.LoadProxies`: the file is read by a `bufio.Scanner` splitting with `ScanLines`,
    each line is trimmed by `strings.TrimSpace`, and blank lines and comments are skipped. The
    file is read as its characters (valid UTF-8); the scanner's limit counts their bytes. -/

/-- `bufio.MaxScanTokenSize`: the scanner's buffer holds at most this many bytes. -/
def maxScanTokenSize : Nat := 64 * 1024

/-- The bytes a line takes in the scanner's buffer. -/
def byteSize : List Char → Nat
  | [] => 0
  | c :: line => c.utf8Size + byteSize line

/-- `dropCR`: a carriage return ending the line. -/
def dropCR (line : List Char) : List Char :=
  if line.getLast? = some '\r' then line.dropLast else line

/-- The tokens of repeated `Scan` calls with `ScanLines`, `line` holding what the buffer has
    read of the current line. A line of `maxScanTokenSize` bytes or more fills the buffer with no
    newline in it, and `Scan` stops with `ErrTooLong` (`none`); at the end of the file a last line
    with no newline is a token unless it is empty. -/
def scanLinesFrom (line : List Char) : List Char → Option (List (List Char))
  | [] => if maxScanTokenSize ≤ byteSize line then none else if line = [] then some [] else some [dropCR line]
  | c :: rest =>
    if maxScanTokenSize ≤ byteSize line then none
    else if c = '\n' then (scanLinesFrom [] rest).map (dropCR line :: ·)
    else scanLinesFrom (line ++ [c]) rest

def scanLines (text : List Char) : Option (List (List Char)) :=
  scanLinesFrom [] text

/-- `unicode.IsSpace`: in Latin-1 the six ASCII spaces, U+0085 and U+00A0; above it the other
    runes of the `White_Space` property. -/
def isSpace (c : Char) : Bool :=
  if c.toNat ≤ 0xFF then
    c.toNat == 0x09 || c.toNat == 0x0A || c.toNat == 0x0B || c.toNat == 0x0C || c.toNat == 0x0D ||
      c.toNat == 0x20 || c.toNat == 0x85 || c.toNat == 0xA0
  else
    c.toNat == 0x1680 || (0x2000 ≤ c.toNat && c.toNat ≤ 0x200A) || c.toNat == 0x2028 || c.toNat == 0x2029 ||
      c.toNat == 0x202F || c.toNat == 0x205F || c.toNat == 0x3000

/-- `strings.TrimSpace` on the runes of a valid UTF-8 string: `TrimRightFunc(TrimLeftFunc(s,
    unicode.IsSpace), unicode.IsSpace)`, which its ASCII fast path agrees with. -/
def trimSpace (line : List Char) : List Char :=
  (line.dropWhile isSpace).rdropWhile isSpace

/-- The condition on which the loop of `LoadProxies` skips a trimmed line: `line == ""` or
    `strings.HasPrefix(line, "#")`. -/
def skipLine (line : List Char) : Bool :=
  line.isEmpty || line.head? == some '#'

/-- The addresses the loop of `LoadProxies` appends to `loaded`. -/
def keptLines (lines : List (List Char)) : List String :=
  ((lines.map trimSpace).filter fun line => !skipLine line).map String.mk

/-- The errors `LoadProxies` returns: `os.Open` failing, with the text of its error, and the
    scanner's `ErrTooLong`. -/
inductive LoadError where
  | open (err : String)
  | tooLong
  deriving DecidableEq, Repr

/-- The text of the error `LoadProxies(filename)` returns; `%q` is `strconv.Quote`. -/
def LoadError.message (t : PrintTable) (filename : String) : LoadError → List UInt8
  | .open err => goBytes "proxy: open " ++ quote t (goBytes filename) ++ goBytes (": " ++ err)
  | .tooLong => goBytes "proxy: read " ++ quote t (goBytes filename) ++ goBytes ": bufio.Scanner: token too long"

/-- `LoadProxies`, given what `os.Open` gives: the text of the file, or its error. Only a file read
    to its end reaches the locked section, which installs the addresses and resets the index. -/
def ProxyManager.loadProxiesFile (pm : ProxyManager) (file : Except String (List Char)) :
    Except LoadError ProxyManager :=
  match file with
  | .error err => .error (.open err)
  | .ok text =>
    match scanLines text with
    | none => .error .tooLong
    | some lines => .ok (pm.loadProxies (keptLines lines))

/-- `Count`. -/
def ProxyManager.count (pm : ProxyManager) : Nat :=
  pm.proxies.length

/-- A file of `lines`, each ended by a newline. -/
def renderLines (lines : List (List Char)) : List Char :=
  lines.flatMap (· ++ ['\n'])

/-- An address that `LoadProxies` reads back as written: not empty, unchanged by `TrimSpace`, no
    comment, on one line, and short enough for the scanner. -/
def ProxyLine (p : String) : Prop :=
  p.data ≠ [] ∧ trimSpace p.data = p.data ∧ p.data.head? ≠ some '#' ∧ '\n' ∉ p.data ∧
    byteSize p.data < maxScanTokenSize

instance : DecidablePred ProxyLine :=
  fun _ => inferInstanceAs (Decidable (_ ∧ _))

/-- A comment, a blank line and a carriage return are dropped; the addresses keep their order. -/
example : (ProxyManager.mk ["old"] 3).loadProxiesFile (.ok " a:1 \r\n# b:2\n\n  c:3".data) =
    .ok ⟨["a:1", "c:3"], 0⟩ := by
  rfl

section Scanner

@[simp] theorem byteSize_nil : byteSize [] = 0 := rfl

@[simp] theorem byteSize_cons (c : Char) (line : List Char) : byteSize (c :: line) = c.utf8Size + byteSize line :=
  rfl

@[simp] theorem byteSize_append (a b : List Char) : byteSize (a ++ b) = byteSize a + byteSize b := by
  induction a with
  | nil => simp
  | cons c a ih => simp [ih, Nat.add_assoc]

theorem byteSize_infix_le {a b : List Char} (within : a <:+: b) : byteSize a ≤ byteSize b := by
  obtain ⟨s, t, rfl⟩ := within
  simp only [byteSize_append]
  omega

theorem dropCR_prefixes (line : List Char) : dropCR line <+: line := by
  unfold dropCR
  split
  · exact List.dropLast_prefix line
  · exact List.prefix_refl line

theorem scanLinesFrom_line (rest : List Char) :
    ∀ (acc line : List Char), '\n' ∉ line →
      scanLinesFrom acc (line ++ '\n' :: rest) =
        if byteSize (acc ++ line) < maxScanTokenSize then (scanLinesFrom [] rest).map (dropCR (acc ++ line) :: ·)
        else none
  | acc, [], _ => by
    simp only [List.nil_append, List.append_nil, scanLinesFrom, if_true]
    split_ifs <;> first | rfl | omega
  | acc, c :: line, noNewline => by
    have other : c ≠ '\n' := fun same => noNewline (same ▸ List.mem_cons_self c line)
    rw [List.cons_append, scanLinesFrom, if_neg other,
      scanLinesFrom_line rest (acc ++ [c]) line fun member => noNewline (List.mem_cons_of_mem c member),
      List.append_assoc, List.singleton_append]
    have sizes := byteSize_append acc (c :: line)
    split_ifs <;> first | rfl | omega

theorem scanLines_renderLines :
    ∀ lines : List (List Char), (∀ line ∈ lines, '\n' ∉ line) →
      scanLines (renderLines lines) =
        if lines.all (byteSize · < maxScanTokenSize) then some (lines.map dropCR) else none
  | [], _ => rfl
  | line :: lines, noNewline => by
    have rest := scanLines_renderLines lines fun l member => noNewline l (List.mem_cons_of_mem line member)
    unfold scanLines renderLines at *
    rw [List.flatMap_cons, List.append_assoc, List.singleton_append,
      scanLinesFrom_line _ [] line (noNewline line (List.mem_cons_self line lines)), rest]
    simp only [List.nil_append, List.all_cons, decide_eq_true_eq, Bool.and_eq_true, List.map_cons]
    split_ifs <;> simp_all

theorem scanLinesFrom_fits :
    ∀ (acc text : List Char) {lines : List (List Char)}, '\n' ∉ acc → scanLinesFrom acc text = some lines →
      ∀ line ∈ lines, '\n' ∉ line ∧ byteSize line < maxScanTokenSize
  | acc, [], lines, noNewline, scanned, line, member => by
    unfold scanLinesFrom at scanned
    split_ifs at scanned with full empty
    · cases scanned; cases member
    · cases scanned
      rw [List.mem_singleton.mp member]
      exact ⟨fun inside => noNewline ((dropCR_prefixes acc).subset inside),
        Nat.lt_of_le_of_lt (byteSize_infix_le (dropCR_prefixes acc).isInfix) (Nat.lt_of_not_le full)⟩
  | acc, c :: rest, lines, noNewline, scanned, line, member => by
    unfold scanLinesFrom at scanned
    split_ifs at scanned with full newline
    · obtain ⟨tail, scannedRest, rfl⟩ := Option.map_eq_some'.mp scanned
      rcases List.mem_cons.mp member with rfl | later
      · exact ⟨fun inside => noNewline ((dropCR_prefixes acc).subset inside),
          Nat.lt_of_le_of_lt (byteSize_infix_le (dropCR_prefixes acc).isInfix) (Nat.lt_of_not_le full)⟩
      · exact scanLinesFrom_fits [] rest (List.not_mem_nil _) scannedRest line later
    · refine scanLinesFrom_fits (acc ++ [c]) rest (fun inside => ?_) scanned line member
      rcases List.mem_append.mp inside with old | new
      · exact noNewline old
      · exact newline (List.mem_singleton.mp new).symm

end Scanner

section Trim

theorem trimSpace_infix_self (line : List Char) : trimSpace line <:+: line :=
  (List.rdropWhile_prefix _ _).isInfix.trans (List.dropWhile_suffix _).isInfix

theorem trimSpace_eq_self {line : List Char} (head : ∀ c, line.head? = some c → isSpace c = false)
    (last : ∀ c, line.getLast? = some c → isSpace c = false) : trimSpace line = line := by
  have front : line.dropWhile isSpace = line := by
    cases line with
    | nil => rfl
    | cons c rest => rw [List.dropWhile_cons, if_neg (by simp [head c rfl])]
  rw [trimSpace, front, List.rdropWhile_eq_self_iff]
  intro nonempty
  simp [last _ (List.getLast?_eq_getLast line nonempty)]

theorem trimSpace_head {line : List Char} {c : Char} (first : (trimSpace line).head? = some c) :
    isSpace c = false := by
  obtain ⟨rest, same⟩ := (List.rdropWhile_prefix isSpace (line.dropWhile isSpace))
  have head := List.head?_dropWhile_not isSpace line
  rw [← same] at head
  unfold trimSpace at first
  rw [List.head?_append_of_ne_nil _ (List.ne_nil_of_mem (List.mem_of_mem_head? first)), first] at head
  simpa using head

theorem trimSpace_last {line : List Char} {c : Char} (final : (trimSpace line).getLast? = some c) :
    isSpace c = false := by
  have nonempty := List.ne_nil_of_mem (List.mem_of_mem_getLast? final)
  have last := List.rdropWhile_last_not isSpace (line.dropWhile isSpace) nonempty
  rw [List.getLast?_eq_getLast _ nonempty, Option.some.injEq] at final
  unfold trimSpace at final
  rw [final] at last
  simpa using last

theorem trimSpace_idem (line : List Char) : trimSpace (trimSpace line) = trimSpace line :=
  trimSpace_eq_self (fun _ => trimSpace_head) fun _ => trimSpace_last

theorem isSpace_cr : isSpace '\r' = true := by decide

theorem dropCR_trimSpace {line : List Char} (trimmed : trimSpace line = line) : dropCR line = line := by
  unfold dropCR
  split
  · rename_i last
    rw [← trimmed] at last
    have := trimSpace_last last
    rw [isSpace_cr] at this
    cases this
  · rfl

theorem trimSpace_dropCR (line : List Char) : trimSpace (dropCR line) = trimSpace line := by
  unfold dropCR
  split
  · rename_i last
    obtain ⟨init, rfl⟩ := List.getLast?_eq_some_iff.mp last
    rw [List.dropLast_concat, trimSpace, trimSpace, List.dropWhile_append]
    split
    · rename_i gone
      rw [List.isEmpty_iff.mp gone, List.dropWhile_cons, if_pos isSpace_cr]
      simp
    · rw [List.rdropWhile_concat, if_pos isSpace_cr]
  · rfl

end Trim

section Load

variable {pm pm' : ProxyManager}

theorem keptLines_proxyLine {lines : List (List Char)}
    (fits : ∀ line ∈ lines, '\n' ∉ line ∧ byteSize line < maxScanTokenSize) : ∀ p ∈ keptLines lines, ProxyLine p := by
  intro p member
  simp only [keptLines, List.mem_map, List.mem_filter, skipLine, Bool.not_or, Bool.and_eq_true, Bool.not_eq_true',
    List.isEmpty_eq_false, beq_eq_false_iff_ne] at member
  obtain ⟨_, ⟨⟨line, inLines, rfl⟩, nonempty, noComment⟩, rfl⟩ := member
  have within := trimSpace_infix_self line
  exact ⟨nonempty, trimSpace_idem line, noComment, fun inside => (fits line inLines).1 (within.subset inside),
    Nat.lt_of_le_of_lt (byteSize_infix_le within) (fits line inLines).2⟩

theorem load_rendered_lines (pm : ProxyManager) (lines : List (List Char)) (noNewline : ∀ line ∈ lines, '\n' ∉ line) :
    pm.loadProxiesFile (.ok (renderLines lines)) =
      if lines.all (byteSize · < maxScanTokenSize) then
        .ok ⟨((lines.map trimSpace).filter fun line => !skipLine line).map String.mk, 0⟩
      else .error .tooLong := by
  rw [ProxyManager.loadProxiesFile, scanLines_renderLines lines noNewline]
  split_ifs
  · simp only [ProxyManager.loadProxies, keptLines, List.map_map, Function.comp_def, trimSpace_dropCR]
  · rfl

theorem load_rendered_lines_comment_and_blank :
    (∀ line ∈ [" a:1\r".data, "# b:2".data, "  ".data], '\n' ∉ line) ∧
      (ProxyManager.mk [] 0).loadProxiesFile (.ok (renderLines [" a:1\r".data, "# b:2".data, "  ".data])) =
        .ok ⟨["a:1"], 0⟩ := by
  refine ⟨by decide, ?_⟩
  rw [load_rendered_lines ⟨[], 0⟩ _ (by decide)]
  rfl

theorem keptLines_cons (line : List Char) (lines : List (List Char)) :
    keptLines (line :: lines) =
      if skipLine (trimSpace line) then keptLines lines else ⟨trimSpace line⟩ :: keptLines lines := by
  unfold keptLines
  rw [List.map_cons, List.filter_cons]
  split_ifs <;> simp_all

theorem keptLines_proxyLines :
    ∀ ps : List String, (∀ p ∈ ps, ProxyLine p) → keptLines (ps.map fun p => dropCR p.data) = ps
  | [], _ => rfl
  | p :: ps, wellFormed => by
    obtain ⟨nonempty, trimmed, noComment, -⟩ := wellFormed p (List.mem_cons_self p ps)
    have kept : skipLine p.data = false := by simp [skipLine, nonempty, noComment]
    rw [List.map_cons, keptLines_cons, dropCR_trimSpace trimmed, trimmed, kept, if_neg Bool.false_ne_true,
      keptLines_proxyLines ps fun q member => wellFormed q (List.mem_cons_of_mem p member)]

theorem loadProxiesFile_renderLines {pm : ProxyManager} {ps : List String} (wellFormed : ∀ p ∈ ps, ProxyLine p) :
    pm.loadProxiesFile (.ok (renderLines (ps.map String.data))) = .ok ⟨ps, 0⟩ := by
  have noNewline : ∀ line ∈ ps.map String.data, '\n' ∉ line := by
    simp only [List.mem_map]
    rintro _ ⟨p, member, rfl⟩
    exact (wellFormed p member).2.2.2.1
  have fits : (ps.map String.data).all (byteSize · < maxScanTokenSize) := by
    simpa using fun p member => (wellFormed p member).2.2.2.2
  rw [ProxyManager.loadProxiesFile, scanLines_renderLines _ noNewline, if_pos fits, List.map_map]
  show Except.ok (pm.loadProxies (keptLines (ps.map fun p => dropCR p.data))) = _
  rw [keptLines_proxyLines ps wellFormed]
  rfl

theorem proxy_file_round_trip (pm : ProxyManager) (ps : List String) (wellFormed : ∀ p ∈ ps, ProxyLine p) :
    pm.loadProxiesFile (.ok (renderLines (ps.map String.data))) = .ok ⟨ps, 0⟩ :=
  loadProxiesFile_renderLines wellFormed

theorem proxy_file_round_trip_two :
    (∀ p ∈ ["10.0.0.1:8080", "http://u:p@h:3128"], ProxyLine p) ∧
      (ProxyManager.mk ["x"] 1).loadProxiesFile (.ok (renderLines (["10.0.0.1:8080", "http://u:p@h:3128"].map String.data))) =
        .ok ⟨["10.0.0.1:8080", "http://u:p@h:3128"], 0⟩ :=
  ⟨by decide, proxy_file_round_trip ⟨["x"], 1⟩ _ (by decide)⟩

theorem loaded_proxies_well_formed {text : List Char} (loaded : pm.loadProxiesFile (.ok text) = .ok pm') :
    pm'.index = 0 ∧ ∀ p ∈ pm'.proxies, ProxyLine p := by
  rw [ProxyManager.loadProxiesFile] at loaded
  cases scanned : scanLines text with
  | none => rw [scanned] at loaded; cases loaded
  | some lines =>
    rw [scanned, Except.ok.injEq] at loaded
    subst loaded
    exact ⟨rfl, keptLines_proxyLine (scanLinesFrom_fits [] text (List.not_mem_nil _) scanned)⟩

theorem loaded_proxies_well_formed_crlf :
    (ProxyManager.mk [] 0).loadProxiesFile (.ok "\t a:1 \r\n#c\r\n b:2 ".data) = .ok ⟨["a:1", "b:2"], 0⟩ ∧
      (ProxyManager.mk ["a:1", "b:2"] 0).index = 0 ∧ ∀ p ∈ (ProxyManager.mk ["a:1", "b:2"] 0).proxies, ProxyLine p :=
  ⟨rfl, @loaded_proxies_well_formed ⟨[], 0⟩ _ "\t a:1 \r\n#c\r\n b:2 ".data rfl⟩

end Load

end SessionEngine.Proxy
