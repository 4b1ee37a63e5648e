import IotcRa8p1.App.SigV4
import IotcRa8p1.Lib.Urlencoded

/-!
# The AssumeRole request (`iotc_file_upload.c`)

`sts_assume_role` posts a form with the role ARN and the session name, signs it and takes three strings out
of the response.  `urlencode_arn` escapes colons and slashes, and stops when its buffer is nearly full; the
session name goes into the form as it is.

`assumeRole_faithful_iff` says for which ARNs and session names the form decodes to them.
-/

namespace IotcRa8p1.App.AssumeRole

open CString SigV4 Urlencoded

/-! ### `urlencode_arn` -/

/-- `':'` -/
abbrev colon : UInt8 := 58

/-- The loop of `urlencode_arn` when `o` bytes have been written. -/
def urlencodeArn (outSize : ℕ) : List UInt8 → ℕ → List UInt8
  | [], _ => []
  | c :: arn, o =>
    if o + 4 < outSize then
      if c = colon then lit "%3A" ++ urlencodeArn outSize arn (o + 3)
      else if c = slash then lit "%2F" ++ urlencodeArn outSize arn (o + 3)
      else c :: urlencodeArn outSize arn (o + 1)
    else []

/-- What it escapes: `:` as `3A` and `/` as `2F`. -/
def arnEscapes : Escapes := fun c =>
  if c = colon then some (51, 65) else if c = slash then some (50, 70) else none

theorem arnEscapes_sound : arnEscapes.Sound := by
  intro c a b h
  rw [arnEscapes] at h
  split_ifs at h with h1 h2
  · obtain ⟨rfl, rfl⟩ := Prod.mk.inj (Option.some.inj h)
    subst h1
    decide
  · obtain ⟨rfl, rfl⟩ := Prod.mk.inj (Option.some.inj h)
    subst h2
    decide

/-- One turn of the loop. -/
theorem urlencodeArn_cons {outSize o : ℕ} (h : o + 4 < outSize) (c : UInt8) (arn : List UInt8) :
    urlencodeArn outSize (c :: arn) o =
      escapeByte arnEscapes c ++ urlencodeArn outSize arn (o + (escapeByte arnEscapes c).length) := by
  rw [urlencodeArn, if_pos h, escapeByte, arnEscapes]
  split_ifs with h1 h2
  · rfl
  · rfl
  · rfl

theorem escapeByte_length (c : UInt8) : (escapeByte arnEscapes c).length ≤ 3 := by
  rw [escapeByte]
  cases arnEscapes c with
  | none => show 1 ≤ 3; decide
  | some p => show 3 ≤ 3; decide

/-- **The loop** escapes a first part of the ARN, and all of it when its last character finds room. -/
theorem urlencodeArn_eq (outSize : ℕ) (arn : List UInt8) (o : ℕ) :
    ∃ k, urlencodeArn outSize arn o = escape arnEscapes (arn.take k) ∧
      (arn.take k = arn ↔
        arn = [] ∨ o + (escape arnEscapes arn.dropLast).length + 4 < outSize) := by
  induction arn generalizing o with
  | nil => exact ⟨0, rfl, by simp⟩
  | cons c arn ih =>
    by_cases h : o + 4 < outSize
    · obtain ⟨k, hk, hall⟩ := ih (o + (escapeByte arnEscapes c).length)
      refine ⟨k + 1, ?_, ?_⟩
      · rw [urlencodeArn_cons h, hk, List.take_succ_cons, escape_cons]
      · rw [List.take_succ_cons, List.cons.injEq, hall]
        cases arn with
        | nil => simpa [escape] using h
        | cons d arn =>
          rw [List.dropLast_cons_cons, escape_cons, List.length_append, ← Nat.add_assoc]
          simp
    · refine ⟨0, ?_, ?_⟩
      · rw [urlencodeArn, if_neg h]
        rfl
      · simp only [List.take_zero, reduceCtorEq, false_or, false_iff]
        omega

/-- The NUL behind it is in the buffer. -/
theorem urlencodeArn_length {outSize o : ℕ} (arn : List UInt8) (ho : o < outSize) :
    o + (urlencodeArn outSize arn o).length < outSize := by
  induction arn generalizing o with
  | nil => exact ho
  | cons c arn ih =>
    by_cases h : o + 4 < outSize
    · have hc := escapeByte_length c
      have hrest := ih (o := o + (escapeByte arnEscapes c).length) (by omega)
      rw [urlencodeArn_cons h, List.length_append]
      omega
    · rw [urlencodeArn, if_neg h]
      exact ho

/-! ### `sts_assume_role` -/

/-- The members of `struct aws_creds`. -/
inductive CredField where
  | akid
  | secret
  | token
  deriving DecidableEq

/-- What the calls have left in the members, `none` for NULL. -/
abbrev RawCreds := CredField → Option (List UInt8)

/-- No member is NULL. -/
def RawCreds.whole (out : RawCreds) : Option AwsCreds :=
  match out .akid, out .secret, out .token with
  | some akid, some secret, some token => some ⟨akid, secret, token⟩
  | _, _, _ => none

/-- `xml_field_dup`, when `pvPortMalloc` answers `malloc`. -/
def xmlFieldDup (xml tag : List UInt8) (malloc : Bool) : Option (List UInt8) :=
  match strstr xml (lit "<" ++ tag ++ lit ">") with
  | none => none
  | some start =>
    let start := start.drop (tag.length + 2)
    match strstr start (lit "</" ++ tag ++ lit ">") with
    | none => none
    | some rest => if malloc = true then some (start.take (start.length - rest.length)) else none

def CredField.tag : CredField → List UInt8
  | .akid => lit "AccessKeyId"
  | .secret => lit "SecretAccessKey"
  | .token => lit "SessionToken"

/-- What works of the calls: `sha256_hex`, those of `sigv4_build`, `fu_https_request` with the status and the
text it leaves, and the allocations of `xml_field_dup`. -/
structure StsAnswer where
  sha256 : Bool
  sign : SignAnswer
  https : Option (ℕ × List UInt8)
  dup : CredField → Bool

/-- The members of `*out` behind the response. -/
def StsAnswer.fields (io : StsAnswer) : RawCreds := fun f =>
  match io.https with
  | some (_, text) => xmlFieldDup text f.tag (io.dup f)
  | none => none

/-- The POST that is sent. -/
structure StsRequest where
  host : List UInt8
  body : List UInt8
  payloadHash : List UInt8
  signed : Signed
  token : List UInt8

/-- The return value, the request if one was sent, and `*out` before a `creds_free`. -/
structure StsRun where
  rc : ℤ
  sent : Option StsRequest
  out : RawCreds

/-- The text of `body`. -/
def stsText (arnEnc sessionName : List UInt8) : List UInt8 :=
  lit "Action=AssumeRole&Version=2011-06-15&RoleArn=" ++ arnEnc ++ lit "&RoleSessionName=" ++
    sessionName

def stsBody (roleArn sessionName : List UInt8) : List UInt8 :=
  snprintf 512 (stsText (urlencodeArn 256 roleArn 0) sessionName)

/-- `sts_assume_role` -/
def stsAssumeRole (crypto : Crypto) (t : SigningTime) (io : StsAnswer) (c : AwsCreds)
    (region roleArn sessionName : List UInt8) : StsRun :=
  let body := stsBody roleArn sessionName
  if io.sha256 = false then ⟨-5, none, fun _ => none⟩
  else
    match Caller.assumeRole.sign crypto t io.sign region body c with
    | .error rc => ⟨rc, none, fun _ => none⟩
    | .ok signed =>
      let request : StsRequest :=
        ⟨Caller.assumeRole.host region, body, crypto.sha256Hex body, signed, c.token⟩
      match io.https with
      | none => ⟨-1, some request, fun _ => none⟩
      | some (status, _) =>
        if status ≠ 200 then ⟨-13, some request, fun _ => none⟩
        else if io.fields.whole = none then ⟨-74, some request, io.fields⟩
        else ⟨0, some request, io.fields⟩

/-! ### The form -/

/-- The form that is sent decodes to the ARN and the session name, and the hash in the header is signed and is
that of the form. -/
structure Faithful (crypto : Crypto) (t : SigningTime) (io : StsAnswer) (c : AwsCreds)
    (region roleArn sessionName : List UInt8) (request : StsRequest) : Prop where
  roleArn : values (lit "RoleArn") request.body = [roleArn]
  sessionName : values (lit "RoleSessionName") request.body = [sessionName]
  hash : request.payloadHash = crypto.sha256Hex request.body
  signed : Caller.assumeRole.sign crypto t io.sign region request.body c = .ok request.signed

def ErrorOrFaithful (crypto : Crypto) (t : SigningTime) (io : StsAnswer) (c : AwsCreds)
    (region roleArn sessionName : List UInt8) : Prop :=
  let run := stsAssumeRole crypto t io c region roleArn sessionName
  run.rc ≠ 0 ∨ ∃ request, run.sent = some request ∧
    Faithful crypto t io c region roleArn sessionName request

/-- Everything works and the response has the three strings. -/
def StsAnswer.good (io : StsAnswer) : Bool :=
  io.sha256 && io.sign.good && io.https.any (fun r => r.1 = 200) && io.fields.whole.isSome

/-- The ARN finds room in `arn_enc` and all of it in `body`, and both strings mean what they say in a form. -/
structure FormOk (roleArn sessionName : List UInt8) : Prop where
  arnFits : (escape arnEscapes roleArn.dropLast).length < 252
  bodyFits : (escape arnEscapes roleArn).length + sessionName.length < 450
  arn : literal roleArn = true ∧ ampersand ∉ roleArn
  session : literal sessionName = true ∧ ampersand ∉ sessionName

theorem stsText_eq (e s : List UInt8) :
    stsText e s = lit "Action=AssumeRole" ++ ampersand :: (lit "Version=2011-06-15" ++
      ampersand :: (lit "RoleArn=" ++ (e ++ ampersand :: (lit "RoleSessionName=" ++ s)))) := by
  have hstart : lit "Action=AssumeRole&Version=2011-06-15&RoleArn=" = lit "Action=AssumeRole" ++
      ampersand :: (lit "Version=2011-06-15" ++ ampersand :: lit "RoleArn=") := by decide
  have hmid : lit "&RoleSessionName=" = ampersand :: lit "RoleSessionName=" := by decide
  rw [stsText, hstart, hmid]
  simp only [List.append_assoc, List.cons_append]

/-- Only the session name can be cut off in `body`. -/
theorem stsBody_eq (roleArn sessionName : List UInt8) :
    ∃ m, stsBody roleArn sessionName =
        stsText (urlencodeArn 256 roleArn 0) (sessionName.take m) ∧
      (sessionName.take m = sessionName ↔
        (urlencodeArn 256 roleArn 0).length + sessionName.length < 450) := by
  have hlen : 0 + (urlencodeArn 256 roleArn 0).length < 256 :=
    urlencodeArn_length roleArn (by decide)
  rw [stsBody]
  generalize urlencodeArn 256 roleArn 0 = e at hlen ⊢
  have hstart : (lit "Action=AssumeRole&Version=2011-06-15&RoleArn=" ++ e ++
      lit "&RoleSessionName=").length = e.length + 62 := by
    have h1 : (lit "Action=AssumeRole&Version=2011-06-15&RoleArn=").length = 45 := rfl
    have h2 : (lit "&RoleSessionName=").length = 17 := rfl
    rw [List.length_append, List.length_append, h1, h2]
    omega
  refine ⟨449 - e.length, ?_, ?_⟩
  · rw [stsText, snprintf, List.take_append, List.take_of_length_le (by omega), hstart,
      show 512 - 1 - (e.length + 62) = 449 - e.length by omega]
    rfl
  · rw [List.take_eq_self_iff]
    omega

/-- The first two fields have other names. -/
theorem values_stsText {name : List UInt8} (haction : lit "Action" ≠ name)
    (hversion : lit "Version" ≠ name) (e s : List UInt8) :
    values name (stsText e s) = values name
      (lit "RoleArn=" ++ (e ++ ampersand :: (lit "RoleSessionName=" ++ s))) := by
  have h1 : pair (lit "Action=AssumeRole") = (lit "Action", lit "AssumeRole") := by decide
  have h2 : pair (lit "Version=2011-06-15") = (lit "Version", lit "2011-06-15") := by decide
  rw [stsText_eq]
  rw [values_of_parse ((parse_cons (by decide) (by decide) _).trans (by rw [h1])), if_neg haction]
  rw [values_of_parse ((parse_cons (by decide) (by decide) _).trans (by rw [h2])), if_neg hversion]

/-- A field whose name is known, before characters that are not. -/
theorem pair_open {start name : List UInt8} (hstart : start = name ++ [equals])
    (hname : equals ∉ name) (hliteral : literal name = true) (value : List UInt8) :
    pair (start ++ value) = (name, decode value) := by
  rw [hstart, List.append_assoc, List.singleton_append, pair_field hname, decode_of_literal hliteral]

theorem values_roleArn (e s : List UInt8) :
    values (lit "RoleArn") (stsText e s) = decode (e.takeWhile (· ≠ ampersand)) ::
      values (lit "RoleArn")
        (((e ++ ampersand :: (lit "RoleSessionName=" ++ s)).dropWhile (· ≠ ampersand)).drop 1) := by
  have hpair := pair_open (show lit "RoleArn=" = lit "RoleArn" ++ [equals] by decide) (by decide)
    (by decide) (e.takeWhile (· ≠ ampersand))
  rw [values_stsText (by decide) (by decide)]
  rw [values_of_parse ((parse_open (by decide) (by decide) _).trans
    (by rw [takeWhile_append_ampersand, hpair])), if_pos rfl]

/-- With no ampersand in the ARN, the session name follows it. -/
theorem values_sessionName {name e : List UInt8} (he : ampersand ∉ e) (s : List UInt8) :
    values name (lit "RoleArn=" ++ (e ++ ampersand :: (lit "RoleSessionName=" ++ s))) =
      (if lit "RoleArn" = name then [decode e] else []) ++
        ((if lit "RoleSessionName" = name then [decode (s.takeWhile (· ≠ ampersand))] else []) ++
          values name ((s.dropWhile (· ≠ ampersand)).drop 1)) := by
  have harn := pair_open (show lit "RoleArn=" = lit "RoleArn" ++ [equals] by decide) (by decide)
    (by decide) e
  have hsession := pair_open (show lit "RoleSessionName=" = lit "RoleSessionName" ++ [equals] by
    decide) (by decide) (by decide) (s.takeWhile (· ≠ ampersand))
  have hfield : ampersand ∉ lit "RoleArn=" ++ e := by
    rw [List.mem_append, not_or]
    exact ⟨by decide, he⟩
  rw [← List.append_assoc]
  rw [values_of_parse ((parse_cons hfield (by simp [lit, ascii]) _).trans (by rw [harn]))]
  rw [values_of_parse ((parse_open (by decide) (by decide) s).trans (by rw [hsession]))]
  split_ifs <;> rfl

theorem ampersand_notMem_escape {arn : List UInt8} (h : ampersand ∉ arn) :
    ampersand ∉ escape arnEscapes arn := by
  intro hmem
  have htake := takeWhile_escape arnEscapes_sound (by decide) arn
  rw [takeWhile_ampersand h] at htake
  rw [← htake] at hmem
  exact absurd (List.mem_takeWhile_imp hmem) (by simp)

/-- What is cut and decoded is the string only if nothing was cut. -/
theorem whole_of_decode {s : List UInt8} {k : ℕ}
    (h : decode ((s.take k).takeWhile (· ≠ ampersand)) = s) :
    s.take k = s ∧ literal s = true ∧ ampersand ∉ s := by
  have hwhile := List.takeWhile_prefix (· ≠ ampersand) (l := s.take k)
  have htake := List.take_prefix k s
  obtain ⟨heq, hliteral⟩ := eq_of_decode_take (hwhile.trans htake) h
  have hmem : ampersand ∉ s := fun hs => by
    rw [← heq] at hs
    exact absurd (List.mem_takeWhile_imp hs) (by simp)
  rw [heq] at hwhile
  exact ⟨htake.eq_of_length_le hwhile.length_le, hliteral, hmem⟩

/-- **The form** decodes to the ARN and the session name. -/
theorem form_iff (roleArn sessionName : List UInt8) :
    (values (lit "RoleArn") (stsBody roleArn sessionName) = [roleArn] ∧
      values (lit "RoleSessionName") (stsBody roleArn sessionName) = [sessionName]) ↔
      FormOk roleArn sessionName := by
  obtain ⟨m, hbody, hcut⟩ := stsBody_eq roleArn sessionName
  obtain ⟨k, hk, hstop⟩ := urlencodeArn_eq 256 roleArn 0
  have hfits : (roleArn = [] ∨ 0 + (escape arnEscapes roleArn.dropLast).length + 4 < 256) ↔
      (escape arnEscapes roleArn.dropLast).length < 252 := by
    constructor
    · rintro (rfl | h)
      · decide
      · omega
    · exact fun h => Or.inr (by omega)
  rw [hfits] at hstop
  rw [hbody]
  rw [hk] at hcut ⊢
  -- the session name of a form whose ARN is whole
  have hsession (harn : roleArn.take k = roleArn) (hamp : ampersand ∉ roleArn) :
      values (lit "RoleSessionName")
          (stsText (escape arnEscapes (roleArn.take k)) (sessionName.take m)) =
        decode ((sessionName.take m).takeWhile (· ≠ ampersand)) ::
          values (lit "RoleSessionName")
            (((sessionName.take m).dropWhile (· ≠ ampersand)).drop 1) := by
    rw [values_stsText (by decide) (by decide), harn,
      values_sessionName (ampersand_notMem_escape hamp), if_neg (by decide), if_pos rfl]
    rfl
  constructor
  · rintro ⟨h1, h2⟩
    rw [values_roleArn, takeWhile_escape arnEscapes_sound (by decide),
      decode_escape arnEscapes_sound] at h1
    obtain ⟨harn, hliteral, hamp⟩ := whole_of_decode (List.cons.inj h1).1
    rw [hsession harn hamp] at h2
    obtain ⟨hwhole, hliteral', hamp'⟩ := whole_of_decode (List.cons.inj h2).1
    rw [harn] at hcut
    exact ⟨hstop.mp harn, hcut.mp hwhole, ⟨hliteral, hamp⟩, ⟨hliteral', hamp'⟩⟩
  · intro h
    have harn := hstop.mpr h.arnFits
    rw [harn] at hcut
    have hwhole := hcut.mpr h.bodyFits
    have hdrop : sessionName.dropWhile (· ≠ ampersand) = [] := by
      rw [List.dropWhile_eq_nil_iff]
      exact fun c hc => by simpa using ne_of_mem_of_not_mem hc h.session.2
    constructor
    · rw [values_stsText (by decide) (by decide), harn, hwhole,
        values_sessionName (ampersand_notMem_escape h.arn.2), if_pos rfl, if_neg (by decide), hdrop,
        decode_escape arnEscapes_sound, decode_of_literal h.arn.1]
      rfl
    · rw [hsession harn h.arn.2, hwhole, takeWhile_ampersand h.session.2,
        decode_of_literal h.session.1, hdrop]
      rfl

section

variable {crypto : Crypto} {t : SigningTime} {io : StsAnswer} {c : AwsCreds}
  {region roleArn sessionName : List UInt8}

variable (crypto t c region roleArn sessionName) in
/-- **What `sts_assume_role` returns and sends** when everything works. -/
theorem stsAssumeRole_good (hio : io.good = true) :
    ∃ signed,
      Caller.assumeRole.sign crypto t io.sign region (stsBody roleArn sessionName) c = .ok signed ∧
      stsAssumeRole crypto t io c region roleArn sessionName =
        ⟨0, some ⟨Caller.assumeRole.host region, stsBody roleArn sessionName,
          crypto.sha256Hex (stsBody roleArn sessionName), signed, c.token⟩, io.fields⟩ := by
  simp only [StsAnswer.good, Bool.and_eq_true] at hio
  obtain ⟨⟨⟨hsha, hsign⟩, hhttps⟩, hfields⟩ := hio
  obtain ⟨signed, hok⟩ : ∃ signed, Caller.assumeRole.sign crypto t io.sign region
      (stsBody roleArn sessionName) c = .ok signed := sigv4Build_succeeds hsign
  refine ⟨signed, hok, ?_⟩
  rw [stsAssumeRole, hsha, hok]
  cases hr : io.https with
  | none =>
    rw [hr] at hhttps
    contradiction
  | some r =>
    have hstatus : r.1 = 200 := by simpa [hr] using hhttps
    have hwhole := Option.isSome_iff_ne_none.mp hfields
    simp [hstatus, hwhole]

/-- When something does not work it returns an error. -/
theorem stsAssumeRole_bad (hio : io.good = false) :
    (stsAssumeRole crypto t io c region roleArn sessionName).rc < 0 := by
  rw [stsAssumeRole]
  cases hsha : io.sha256 with
  | false => show (-5 : ℤ) < 0; decide
  | true =>
    cases hsign : io.sign.good with
    | false =>
      obtain ⟨rc, herr, hneg⟩ : ∃ rc, Caller.assumeRole.sign crypto t io.sign region
          (stsBody roleArn sessionName) c = .error rc ∧ rc < 0 := sigv4Build_error hsign
      simp only [herr]
      exact hneg
    | true =>
      obtain ⟨signed, hok⟩ : ∃ signed, Caller.assumeRole.sign crypto t io.sign region
          (stsBody roleArn sessionName) c = .ok signed := sigv4Build_succeeds hsign
      simp only [hok]
      cases hr : io.https with
      | none => show (-1 : ℤ) < 0; decide
      | some r =>
        by_cases hstatus : r.1 = 200
        · cases hwhole : io.fields.whole with
          | none => simp [hstatus]
          | some w => simp [StsAnswer.good, hsha, hsign, hr, hstatus, hwhole] at hio
        · simp [hstatus]

/-- **A faithful form.**  For every ARN and every session name, `sts_assume_role` returns an error, or sends a
form that decodes to both under the hash of it, exactly when something does not work or they are as `FormOk`
says. -/
theorem assumeRole_faithful_iff (crypto : Crypto) (t : SigningTime) (io : StsAnswer) (c : AwsCreds)
    (region roleArn sessionName : List UInt8) :
    ErrorOrFaithful crypto t io c region roleArn sessionName ↔
      io.good = false ∨ FormOk roleArn sessionName := by
  rw [ErrorOrFaithful]
  cases hio : io.good with
  | false => exact iff_of_true (Or.inl (stsAssumeRole_bad hio).ne) (Or.inl rfl)
  | true =>
    obtain ⟨signed, hok, hrun⟩ := stsAssumeRole_good crypto t c region roleArn sessionName hio
    rw [hrun, ← form_iff]
    constructor
    · rintro (h | ⟨request, hsent, h⟩)
      · exact absurd rfl h
      · obtain rfl := Option.some.inj hsent
        exact Or.inr ⟨h.roleArn, h.sessionName⟩
    · rintro (h | ⟨harn, hsession⟩)
      · contradiction
      · exact Or.inr ⟨_, rfl, harn, hsession, rfl, hok⟩

end

/-! ### A role name with a plus sign -/

def plusArn : List UInt8 := lit "arn:aws:iam::123456789012:role/iot+upload"

/-- A response with the three strings. -/
def sampleAnswer : StsAnswer where
  sha256 := true
  sign := ⟨true, true, fun _ => true⟩
  https := some (200, lit "<AccessKeyId>A</AccessKeyId><SecretAccessKey>S</SecretAccessKey>" ++
    lit "<SessionToken>T</SessionToken>")
  dup _ := true

/-- The form names the role "iot upload". -/
theorem assumeRole_garbles_plus :
    ¬ ∀ (crypto : Crypto) (t : SigningTime) (io : StsAnswer) (c : AwsCreds)
      (region roleArn sessionName : List UInt8),
      ErrorOrFaithful crypto t io c region roleArn sessionName := by
  intro h
  obtain ⟨crypto⟩ := crypto_nonempty
  have hgood : sampleAnswer.good = true := by decide +kernel
  obtain ⟨signed, -, hrun⟩ := stsAssumeRole_good crypto sampleTime sampleCreds (lit "us-east-1")
    plusArn (lit "device-1") hgood
  rcases h crypto sampleTime sampleAnswer sampleCreds (lit "us-east-1") plusArn (lit "device-1") with
    herr | ⟨request, hsent, hfaithful⟩
  · rw [hrun] at herr
    exact absurd rfl herr
  · rw [hrun] at hsent
    obtain rfl := Option.some.inj hsent
    have harn : values (lit "RoleArn") (stsBody plusArn (lit "device-1")) = [plusArn] :=
      hfaithful.roleArn
    exact absurd harn (by decide +kernel)

end IotcRa8p1.App.AssumeRole
