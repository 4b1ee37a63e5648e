import IotcRa8p1.Kvs.QuickSort
import IotcRa8p1.Lib.CString
import Mathlib.Data.List.Pairwise

/-!
# The canonical headers of a signed request (`sigv4.c`)

`generateCanonicalAndSignedHeaders` cuts the header text into keys and values, sorts them by key and writes the
canonical headers and the list of signed headers into the processing buffer.  A pointer into the header text is
what is left of the text from there; what the buffer holds is the list of bytes written so far, with the room left.

The sort compares keys up to the length of the shorter one, so a key that begins another counts as equal to it.
`canonicalHeaders_perm` is the point of a canonical form: without two such keys, the order of the header lines
does not matter.
-/

namespace IotcRa8p1.Kvs.SigV4Headers

open QuickSort CString

/-! ### The comparison -/

/-- `strncmp`, for two strings and the number of bytes to compare; `[]` is a string at its end. -/
def strncmp : List UInt8 → List UInt8 → ℕ → Int
  | a :: as, b :: bs, n + 1 =>
    if a ≠ b then (a.toNat : Int) - b.toNat else if a = 0 then 0 else strncmp as bs n
  | _, _, _ => 0

/-- `SigV4KeyValuePair_t` -/
structure SigV4KeyValuePair where
  key : List UInt8
  value : List UInt8
  deriving DecidableEq

/-- `cmpHeaderField` -/
def cmpHeaderField (first second : SigV4KeyValuePair) : Int :=
  let lenSmall := if first.key.length ≤ second.key.length then first.key.length else second.key.length
  strncmp first.key second.key lenSmall

/-! ### The header text -/

inductive SigV4Status where
  | success
  | invalidParameter
  | insufficientMemory
  | invalidHttpHeaders
  | maxHeaderPairCountExceeded
  deriving DecidableEq

/-- `SIGV4_MAX_HTTP_HEADER_COUNT` -/
def sigv4MaxHttpHeaderCount : ℕ := 100

/-- `SIGV4_HTTP_X_AMZ_CONTENT_SHA256_HEADER` -/
def sigv4HttpXAmzContentSha256Header : List UInt8 := lit "x-amz-content-sha256"

/-- `CanonicalContext_t`, with what is written to `pBufProcessing` up to the cursor. -/
structure CanonicalContext where
  headersLoc : List SigV4KeyValuePair
  written : List UInt8
  bufRemaining : ℕ
  hashPayload : Option (List UInt8)
  deriving DecidableEq

/-- The variables of `parseHeaderKeyValueEntries`. -/
structure Parse where
  headersLoc : List SigV4KeyValuePair
  key : List UInt8
  keyFlag : Bool
  keyOrValStart : List UInt8
  hashPayload : Option (List UInt8)

/-- The bytes from `pKeyOrValStartLoc` to the current place. -/
def Parse.slice (p : Parse) (cur : List UInt8) : List UInt8 :=
  p.keyOrValStart.take (p.keyOrValStart.length - cur.length)

/-- A value has ended: store it, and `storeHashedPayloadLocation`. -/
def Parse.addValue (p : Parse) (cur next : List UInt8) : Parse :=
  { p with
    headersLoc := p.headersLoc ++ [⟨p.key, p.slice cur⟩]
    hashPayload := if p.key = sigv4HttpXAmzContentSha256Header then some (p.slice cur) else p.hashPayload
    keyOrValStart := next
    keyFlag := true }

/-- The loop of `parseHeaderKeyValueEntries`. -/
def parseLoop (canonicalFlag : Bool) : List UInt8 → Parse → SigV4Status × Parse
  | [], p => (.success, p)
  | c :: cur, p =>
    if p.headersLoc.length = sigv4MaxHttpHeaderCount then (.maxHeaderPairCountExceeded, p)
    else if p.keyFlag = true ∧ c = 58 then
      parseLoop canonicalFlag cur { p with key := p.slice (c :: cur), keyOrValStart := cur, keyFlag := false }
    else if p.keyFlag = false ∧ canonicalFlag = false ∧ c = 13 ∧ cur.head? = some 10 then
      parseLoop canonicalFlag cur (p.addValue (c :: cur) cur.tail)
    else if p.keyFlag = false ∧ canonicalFlag = true ∧ c = 10 then
      parseLoop canonicalFlag cur (p.addValue (c :: cur) cur)
    else parseLoop canonicalFlag cur p

/-- `parseHeaderKeyValueEntries` -/
def parseHeaderKeyValueEntries (headers : List UInt8) (canonicalFlag : Bool) (ctx : CanonicalContext) :
    SigV4Status × CanonicalContext :=
  let r := parseLoop canonicalFlag headers ⟨[], [], true, headers, ctx.hashPayload⟩
  let ctx := { ctx with headersLoc := r.2.headersLoc, hashPayload := r.2.hashPayload }
  if r.2.headersLoc.length = 0 ∨ r.2.keyFlag = false then (.invalidHttpHeaders, ctx) else (r.1, ctx)

/-! ### What is written -/

/-- `isWhitespace` -/
def isWhitespace (c : UInt8) : Bool := c == 32 || c == 9

/-- `isTrimmableSpace`, for the byte and those behind it. -/
def isTrimmableSpace (c : UInt8) (behind : List UInt8) (trimmedLength : ℕ) : Bool :=
  isWhitespace c && match behind with
    | [] => true
    | next :: _ => isWhitespace next || trimmedLength == 0

/-- `lowercaseCharacter` -/
def lowercaseCharacter (c : UInt8) : UInt8 := if 65 ≤ c ∧ c ≤ 90 then c + 32 else c

/-- The loop of `copyHeaderStringToCanonicalBuffer`, with the bytes it has copied. -/
def copyLoop (canonicalFlag : Bool) (separator : UInt8) (bufRemaining : ℕ) :
    List UInt8 → List UInt8 → SigV4Status × List UInt8
  | [], copied => (.success, copied)
  | c :: data, copied =>
    if canonicalFlag = false ∧ isTrimmableSpace c data copied.length = true then
      copyLoop canonicalFlag separator bufRemaining data copied
    else if bufRemaining - copied.length ≤ 1 then (.insufficientMemory, copied)
    else copyLoop canonicalFlag separator bufRemaining data
      (copied ++ [if separator = 10 then c else lowercaseCharacter c])

/-- `copyHeaderStringToCanonicalBuffer` -/
def copyHeaderStringToCanonicalBuffer (data : List UInt8) (canonicalFlag : Bool) (separator : UInt8)
    (ctx : CanonicalContext) : SigV4Status × CanonicalContext :=
  match copyLoop canonicalFlag separator ctx.bufRemaining data [] with
  | (.success, []) => (.invalidParameter, ctx)
  | (.success, copied) =>
    (.success, { ctx with
      written := ctx.written ++ copied ++ [separator], bufRemaining := ctx.bufRemaining - copied.length - 1 })
  | (status, _) => (status, ctx)

/-- The loop of `appendCanonicalizedHeaders`. -/
def appendCanonicalizedHeaders (canonicalFlag : Bool) :
    List SigV4KeyValuePair → CanonicalContext → SigV4Status × CanonicalContext
  | [], ctx => (.success, ctx)
  | header :: headers, ctx =>
    match copyHeaderStringToCanonicalBuffer header.key canonicalFlag 58 ctx with
    | (.success, ctx) =>
      match copyHeaderStringToCanonicalBuffer header.value canonicalFlag 10 ctx with
      | (.success, ctx) => appendCanonicalizedHeaders canonicalFlag headers ctx
      | r => r
    | r => r

/-- The loop of `appendSignedHeaders`. -/
def signedLoop (canonicalFlag : Bool) :
    List SigV4KeyValuePair → CanonicalContext → SigV4Status × CanonicalContext
  | [], ctx => (.success, ctx)
  | header :: headers, ctx =>
    match copyHeaderStringToCanonicalBuffer header.key canonicalFlag 59 ctx with
    | (.success, ctx) => signedLoop canonicalFlag headers ctx
    | r => r

/-- `appendSignedHeaders`, with the bytes of the signed headers when it succeeds. -/
def appendSignedHeaders (canonicalFlag : Bool) (ctx : CanonicalContext) :
    SigV4Status × CanonicalContext × List UInt8 :=
  let r := signedLoop canonicalFlag ctx.headersLoc ctx
  if r.1 = .success then
    (r.1, { r.2 with written := r.2.written.dropLast ++ [10] }, (r.2.written.drop ctx.written.length).dropLast)
  else (r.1, r.2, [])

/-- `writeLineToCanonicalRequest` -/
def writeLineToCanonicalRequest (line : List UInt8) (ctx : CanonicalContext) : SigV4Status × CanonicalContext :=
  if ctx.bufRemaining < line.length + 1 then (.insufficientMemory, ctx)
  else (.success, { ctx with
    written := ctx.written ++ line ++ [10], bufRemaining := ctx.bufRemaining - (line.length + 1) })

/-- What `generateCanonicalAndSignedHeaders` does with the sorted headers. -/
def appendHeaders (ctx : CanonicalContext) : SigV4Status × CanonicalContext × List UInt8 :=
  let w := appendCanonicalizedHeaders false ctx.headersLoc ctx
  if w.1 ≠ .success then (w.1, w.2, [])
  else if w.2.bufRemaining < 1 then (.insufficientMemory, w.2, [])
  else appendSignedHeaders false
    { w.2 with written := w.2.written ++ [10], bufRemaining := w.2.bufRemaining - 1 }

/-- `generateCanonicalAndSignedHeaders`; `none` is a fault of the sort. -/
def generateCanonicalAndSignedHeaders (headers : List UInt8) (canonicalFlag : Bool) (ctx : CanonicalContext) :
    Option (SigV4Status × CanonicalContext × List UInt8) :=
  let r := parseHeaderKeyValueEntries headers canonicalFlag ctx
  if r.1 ≠ .success then some (r.1, r.2, [])
  else if canonicalFlag = true then
    let w := writeLineToCanonicalRequest headers r.2
    if w.1 ≠ .success then some (w.1, w.2, []) else some (appendSignedHeaders canonicalFlag w.2)
  else
    (quickSort cmpHeaderField r.2.headersLoc.length r.2.headersLoc).map fun sorted =>
      appendHeaders { r.2 with headersLoc := sorted }

/-! ### The comparison is a strict order -/

theorem strncmp_comm (as : List UInt8) : ∀ (bs : List UInt8) (n : ℕ), strncmp as bs n = -strncmp bs as n := by
  induction as with
  | nil =>
    intro bs n
    cases bs <;> rfl
  | cons a as ih =>
    intro bs n
    cases bs with
    | nil => rfl
    | cons b bs =>
      cases n with
      | zero => rfl
      | succ n =>
        rw [strncmp, strncmp]
        by_cases hab : a = b
        · subst hab
          rw [if_neg (not_not_intro rfl), if_neg (not_not_intro rfl)]
          split_ifs
          · rfl
          · exact ih bs n
        · rw [if_pos hab, if_pos (Ne.symm hab), Int.neg_sub]

theorem strncmp_trans (as : List UInt8) : ∀ bs cs : List UInt8, strncmp as bs (min as.length bs.length) < 0 →
    strncmp bs cs (min bs.length cs.length) < 0 → strncmp as cs (min as.length cs.length) < 0 := by
  induction as with
  | nil =>
    intro bs cs hab
    exact absurd hab (Int.lt_irrefl 0)
  | cons a as ih =>
    intro bs cs hab hbc
    cases bs with
    | nil => exact absurd hab (Int.lt_irrefl 0)
    | cons b bs =>
      cases cs with
      | nil => exact absurd hbc (Int.lt_irrefl 0)
      | cons c cs =>
        rw [List.length_cons, List.length_cons, Nat.succ_min_succ, strncmp] at hab hbc ⊢
        have hle : ∀ {x y : UInt8}, x = y → (x.toNat : Int) = y.toNat := fun h => by rw [h]
        by_cases h1 : a = b
        · by_cases h2 : b = c
          · subst h1 h2
            rw [if_neg (not_not_intro rfl)] at hab hbc ⊢
            by_cases hzero : a = 0
            · rw [if_pos hzero] at hab
              exact absurd hab (Int.lt_irrefl 0)
            · rw [if_neg hzero] at hab hbc ⊢
              exact ih bs cs hab hbc
          · subst h1
            rw [if_pos h2] at hbc ⊢
            exact hbc
        · by_cases h2 : b = c
          · subst h2
            rw [if_pos h1] at hab ⊢
            exact hab
          · rw [if_pos h1] at hab
            rw [if_pos h2] at hbc
            have hac : a ≠ c := by
              rintro rfl
              omega
            rw [if_pos hac]
            omega

theorem cmpHeaderField_eq (first second : SigV4KeyValuePair) :
    cmpHeaderField first second = strncmp first.key second.key (min first.key.length second.key.length) := by
  rw [cmpHeaderField, Nat.min_def]

theorem cmpHeaderField_comm (first second : SigV4KeyValuePair) :
    cmpHeaderField first second = -cmpHeaderField second first := by
  rw [cmpHeaderField_eq, cmpHeaderField_eq, strncmp_comm, Nat.min_comm]

theorem cmpHeaderField_strictOrder : StrictOrder cmpHeaderField where
  asymm first second h := by
    rw [cmpHeaderField_comm second first]
    omega
  trans first second third h h' := by
    rw [cmpHeaderField_eq] at h h' ⊢
    exact strncmp_trans _ _ _ h h'

/-! ### Header lines -/

/-- A header line. -/
def line (header : SigV4KeyValuePair) : List UInt8 := header.key ++ 58 :: (header.value ++ [13, 10])

/-- The key holds no colon and the value no carriage return. -/
def WellFormed (header : SigV4KeyValuePair) : Prop := 58 ∉ header.key ∧ 13 ∉ header.value

theorem parseLoop_key {key : List UInt8} (hkey : 58 ∉ key) (rest : List UInt8) {p : Parse} (hflag : p.keyFlag = true)
    (hcount : p.headersLoc.length ≠ sigv4MaxHttpHeaderCount) :
    parseLoop false (key ++ rest) p = parseLoop false rest p := by
  induction key with
  | nil => rfl
  | cons c key ih =>
    have hc : c ≠ 58 := fun h => hkey (h ▸ List.mem_cons_self)
    rw [List.cons_append, parseLoop, if_neg hcount, if_neg (fun h => hc h.2), if_neg (by rw [hflag]; simp),
      if_neg (by simp)]
    exact ih fun h => hkey (List.mem_cons_of_mem _ h)

theorem parseLoop_value {value : List UInt8} (hvalue : 13 ∉ value) (rest : List UInt8) {p : Parse}
    (hflag : p.keyFlag = false) (hcount : p.headersLoc.length ≠ sigv4MaxHttpHeaderCount) :
    parseLoop false (value ++ rest) p = parseLoop false rest p := by
  induction value with
  | nil => rfl
  | cons c value ih =>
    have hc : c ≠ 13 := fun h => hvalue (h ▸ List.mem_cons_self)
    rw [List.cons_append, parseLoop, if_neg hcount, if_neg (by rw [hflag]; simp), if_neg (fun h => hc h.2.2.1),
      if_neg (by simp)]
    exact ih fun h => hvalue (List.mem_cons_of_mem _ h)

/-- What a header line does to `pHashPayloadLoc`. -/
def storeHashedPayload (hash : Option (List UInt8)) (header : SigV4KeyValuePair) : Option (List UInt8) :=
  if header.key = sigv4HttpXAmzContentSha256Header then some header.value else hash

/-- **A header line** is cut into its key and value. -/
theorem parseLoop_line {header : SigV4KeyValuePair} (hwf : WellFormed header) (rest : List UInt8)
    {headers : List SigV4KeyValuePair} {key : List UInt8} {hash : Option (List UInt8)}
    (hcount : headers.length + 1 < sigv4MaxHttpHeaderCount) :
    parseLoop false (line header ++ rest) ⟨headers, key, true, line header ++ rest, hash⟩ =
      parseLoop false rest ⟨headers ++ [header], header.key, true, rest, storeHashedPayload hash header⟩ := by
  have hne : headers.length ≠ sigv4MaxHttpHeaderCount := by omega
  have hne' : (headers ++ [header]).length ≠ sigv4MaxHttpHeaderCount := by
    rw [List.length_append, List.length_singleton]
    omega
  have hslice : ∀ before after : List UInt8,
      (before ++ after).take ((before ++ after).length - after.length) = before := by
    intro before after
    rw [List.length_append, Nat.add_sub_cancel, List.take_left]
  have htext : line header ++ rest = header.key ++ 58 :: (header.value ++ 13 :: 10 :: rest) := by
    simp only [line, List.append_assoc, List.cons_append, List.nil_append]
  rw [htext, parseLoop_key hwf.1 _ rfl hne, parseLoop, if_neg hne, if_pos ⟨rfl, rfl⟩, Parse.slice, hslice,
    parseLoop_value hwf.2 _ rfl hne, parseLoop, if_neg hne, if_neg (by simp), if_pos ⟨rfl, rfl, rfl, rfl⟩,
    Parse.addValue, Parse.slice, hslice, List.tail_cons, parseLoop, if_neg hne', if_neg (by simp), if_neg (by simp), if_neg (by simp)]
  rfl

theorem parseLoop_lines {lines : List SigV4KeyValuePair} (hwf : ∀ header ∈ lines, WellFormed header)
    {rest : List UInt8} (hrest : 58 ∉ rest) (headers : List SigV4KeyValuePair) (key : List UInt8) (hash : Option (List UInt8))
    (hcount : headers.length + lines.length < sigv4MaxHttpHeaderCount) :
    ∃ key', parseLoop false (lines.flatMap line ++ rest) ⟨headers, key, true, lines.flatMap line ++ rest, hash⟩ =
      (.success, ⟨headers ++ lines, key', true, rest, lines.foldl storeHashedPayload hash⟩) := by
  induction lines generalizing headers key hash with
  | nil =>
    refine ⟨key, ?_⟩
    have h := parseLoop_key hrest [] (p := ⟨headers, key, true, rest, hash⟩) rfl (by
      have : headers.length + 0 < sigv4MaxHttpHeaderCount := hcount
      show headers.length ≠ sigv4MaxHttpHeaderCount
      omega)
    rw [List.append_nil] at h
    rw [List.flatMap_nil, List.nil_append, h, List.append_nil]
    rfl
  | cons header lines ih =>
    rw [List.length_cons] at hcount
    obtain ⟨key', hloop⟩ := ih (fun h hh => hwf h (List.mem_cons_of_mem _ hh)) (headers ++ [header]) header.key
      (storeHashedPayload hash header) (by rw [List.length_append, List.length_singleton]; omega)
    refine ⟨key', ?_⟩
    rw [List.flatMap_cons, List.append_assoc, parseLoop_line (hwf header List.mem_cons_self) _ (by omega), hloop,
      List.append_assoc, List.singleton_append, List.foldl_cons]

/-- **Parsing.**  Of well-formed lines, fewer than a hundred, the keys and values are found as they are. -/
theorem parseHeaderKeyValueEntries_lines {lines : List SigV4KeyValuePair} (hwf : ∀ header ∈ lines, WellFormed header)
    {rest : List UInt8} (hrest : 58 ∉ rest) (hsome : lines ≠ []) (hcount : lines.length < sigv4MaxHttpHeaderCount)
    (ctx : CanonicalContext) :
    parseHeaderKeyValueEntries (lines.flatMap line ++ rest) false ctx = (.success, { ctx with
      headersLoc := lines, hashPayload := lines.foldl storeHashedPayload ctx.hashPayload }) := by
  obtain ⟨key, hloop⟩ := parseLoop_lines hwf hrest [] [] ctx.hashPayload (by rw [List.length_nil]; omega)
  rw [parseHeaderKeyValueEntries, hloop]
  dsimp only
  rw [List.nil_append, if_neg]
  simpa using hsome

/-! ### The order of the lines -/

/-- No two headers have keys that compare equal. -/
def Distinct (lines : List SigV4KeyValuePair) : Prop := lines.Pairwise fun a b => cmpHeaderField a b ≠ 0

theorem cmpHeaderField_ne_symm {a b : SigV4KeyValuePair} (h : cmpHeaderField a b ≠ 0) : cmpHeaderField b a ≠ 0 := by
  rw [cmpHeaderField_comm b a]
  omega

theorem Distinct.eq_of_cmp {lines : List SigV4KeyValuePair} (h : Distinct lines) {a b : SigV4KeyValuePair}
    (ha : a ∈ lines) (hb : b ∈ lines) (hab : cmpHeaderField a b = 0) : a = b := by
  have hsymm : Std.Symm fun a b => cmpHeaderField a b ≠ 0 := ⟨fun _ _ => cmpHeaderField_ne_symm⟩
  by_contra hne
  exact h.forall ha hb hne hab

theorem cmpHeaderField_of_key_eq {a b : SigV4KeyValuePair} (h : a.key = b.key) : cmpHeaderField a b = 0 := by
  have hneg := strncmp_comm b.key b.key (min b.key.length b.key.length)
  rw [cmpHeaderField_eq, h]
  omega

/-- Of headers with distinct keys at most one is the hash of the payload. -/
theorem Distinct.foldl_perm {lines lines' : List SigV4KeyValuePair} (h : Distinct lines) (hperm : lines.Perm lines')
    (hash : Option (List UInt8)) :
    lines.foldl storeHashedPayload hash = lines'.foldl storeHashedPayload hash := by
  refine hperm.foldl_eq' (fun a ha b hb hash => ?_) hash
  simp only [storeHashedPayload]
  by_cases hakey : a.key = sigv4HttpXAmzContentSha256Header
  · by_cases hbkey : b.key = sigv4HttpXAmzContentSha256Header
    · rw [h.eq_of_cmp ha hb (cmpHeaderField_of_key_eq (hakey.trans hbkey.symm))]
    · rw [if_pos hakey, if_neg hbkey, if_neg hbkey, if_pos hakey]
  · rw [if_neg hakey, if_neg hakey]

/-- The sort of headers with distinct keys puts the keys in ascending order, whatever order they come in. -/
theorem quickSort_perm {lines lines' : List SigV4KeyValuePair} (h : Distinct lines) (hperm : lines.Perm lines')
    (hsome : lines ≠ []) (hcount : lines.length < sigv4MaxHttpHeaderCount) :
    ∃ sorted, sorted.Perm lines ∧ sorted.Pairwise (fun a b => cmpHeaderField a b < 0) ∧
      quickSort cmpHeaderField lines.length lines = some sorted ∧
      quickSort cmpHeaderField lines'.length lines' = some sorted := by
  have hpos : 0 < lines.length := List.length_pos_iff.mpr hsome
  obtain ⟨a, hsort, ha⟩ :=
    quickSort_arranged cmpHeaderField hpos (log_hundred (Nat.le_of_lt hcount)) (Nat.le_refl _)
  obtain ⟨b, hsort', hb⟩ := quickSort_arranged cmpHeaderField (a := lines') (hperm.length_eq ▸ hpos)
    (log_hundred (hperm.length_eq ▸ Nat.le_of_lt hcount)) (Nat.le_refl _)
  have hab : a = b := by
    refine (ha.perm.trans (hperm.trans hb.perm.symm)).eq_of_pairwise (fun x y hx hy hyx hxy => ?_)
      (ha.sorted cmpHeaderField_strictOrder) (hb.sorted cmpHeaderField_strictOrder)
    refine h.eq_of_cmp (ha.perm.mem_iff.mp hx) (hperm.mem_iff.mpr (hb.perm.mem_iff.mp hy)) ?_
    rw [cmpHeaderField_comm y x] at hyx
    omega
  have hdistinct : Distinct a := (ha.perm.pairwise_iff cmpHeaderField_ne_symm).mpr h
  refine ⟨a, ha.perm, ?_, hsort, hab ▸ hsort'⟩
  refine ((ha.sorted cmpHeaderField_strictOrder).and hdistinct).imp fun {x y} hxy => ?_
  have hcomm := cmpHeaderField_comm y x
  omega

/-- **A canonical form.**  Header texts with the same lines in any order give the same result, that of the lines in
ascending order of their keys: the same status, the same canonical headers and the same signed headers. -/
theorem canonicalHeaders_perm {lines lines' : List SigV4KeyValuePair} (hperm : lines.Perm lines')
    (hwf : ∀ header ∈ lines, WellFormed header) (hdistinct : Distinct lines) (hsome : lines ≠ [])
    (hcount : lines.length < sigv4MaxHttpHeaderCount) {rest : List UInt8} (hrest : 58 ∉ rest) (ctx : CanonicalContext) :
    ∃ sorted out, sorted.Perm lines ∧ sorted.Pairwise (fun a b => cmpHeaderField a b < 0) ∧
      out = appendHeaders { ctx with
        headersLoc := sorted, hashPayload := lines.foldl storeHashedPayload ctx.hashPayload } ∧
      generateCanonicalAndSignedHeaders (lines.flatMap line ++ rest) false ctx = some out ∧
      generateCanonicalAndSignedHeaders (lines'.flatMap line ++ rest) false ctx = some out := by
  obtain ⟨sorted, hsorted, hascending, hsort, hsort'⟩ := quickSort_perm hdistinct hperm hsome hcount
  have hparse := parseHeaderKeyValueEntries_lines hwf hrest hsome hcount ctx
  have hparse' := parseHeaderKeyValueEntries_lines (fun header hh => hwf header (hperm.mem_iff.mpr hh)) hrest
    (fun hnil => hsome (hperm.trans (hnil ▸ List.Perm.refl _)).eq_nil) (hperm.length_eq ▸ hcount) ctx
  rw [← hdistinct.foldl_perm hperm] at hparse'
  refine ⟨sorted, _, hsorted, hascending, rfl, ?_, ?_⟩
  · rw [generateCanonicalAndSignedHeaders, hparse]
    dsimp only
    rw [if_neg (not_not_intro rfl), if_neg Bool.false_ne_true, hsort]
    rfl
  · rw [generateCanonicalAndSignedHeaders, hparse']
    dsimp only
    rw [if_neg (not_not_intro rfl), if_neg Bool.false_ne_true, hsort']
    rfl

/-- Two headers as the board sends them. -/
def sampleHeaders : List SigV4KeyValuePair := [⟨lit "User-Agent", lit " kvs"⟩, ⟨lit "Host", lit " a.b "⟩]

theorem canonicalHeaders_perm_sample :
    ∃ sorted out, sorted.Perm sampleHeaders ∧ sorted.Pairwise (fun a b => cmpHeaderField a b < 0) ∧
      out = appendHeaders { headersLoc := sorted, written := [], bufRemaining := 2048, hashPayload := none } ∧
      generateCanonicalAndSignedHeaders (sampleHeaders.flatMap line ++ [13, 10]) false ⟨[], [], 2048, none⟩ = some out ∧
      generateCanonicalAndSignedHeaders (sampleHeaders.reverse.flatMap line ++ [13, 10]) false ⟨[], [], 2048, none⟩ =
        some out :=
  canonicalHeaders_perm (List.reverse_perm sampleHeaders).symm (by unfold WellFormed; decide +kernel)
    (by unfold Distinct; decide +kernel) (by decide) (by decide) (by decide) ⟨[], [], 2048, none⟩

example : (generateCanonicalAndSignedHeaders (sampleHeaders.flatMap line) false ⟨[], [], 2048, none⟩).map (·.2.1.written) =
    some (lit "host:a.b" ++ [10] ++ lit "user-agent:kvs" ++ [10, 10] ++ lit "host;user-agent" ++ [10]) := by
  decide +kernel

end IotcRa8p1.Kvs.SigV4Headers
