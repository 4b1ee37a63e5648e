import IotcRa8p1.App.Time
import IotcRa8p1.Lib.CString
import Mathlib.Data.Nat.Digits.Lemmas

/-!
# AWS Signature V4 on the device (`iotc_file_upload.c`)

`sigv4_build` formats the canonical request, the string to sign, the seed of the signing key and the
header value into buffers of fixed sizes and does not look at what `snprintf` returns; its callers format
the host the same way.  The formats are one definition each: the code applies them through `snprintf`,
`Complete` compares with the same formats applied to one another as they are.

SHA-256 and HMAC-SHA-256 are functions into 32 bytes.  A C string is the list of its characters.
`sigv4Build_complete_iff` says for which lengths nothing is cut.
-/

namespace IotcRa8p1.App.SigV4

open CString Time

/-! ### Strings and digests -/

/-- `struct aws_creds`, with all three strings. -/
structure AwsCreds where
  akid : List UInt8
  secret : List UInt8
  token : List UInt8
  deriving DecidableEq

structure Crypto where
  sha256 : List UInt8 → List UInt8
  hmac : List UInt8 → List UInt8 → List UInt8
  sha256_length : ∀ data, (sha256 data).length = 32
  hmac_length : ∀ key msg, (hmac key msg).length = 32

theorem crypto_nonempty : Nonempty Crypto :=
  ⟨⟨fun _ => List.replicate 32 0, fun _ _ => List.replicate 32 0, fun _ => rfl, fun _ _ => rfl⟩⟩

/-- `hexd` -/
def hexd (n : ℕ) : UInt8 := (lit "0123456789abcdef").getD n 0

/-- `to_hex` -/
def toHex (bytes : List UInt8) : List UInt8 :=
  bytes.flatMap fun b : UInt8 => [hexd (b >>> 4).toNat, hexd (b &&& 0xF).toNat]

theorem toHex_length (bytes : List UInt8) : (toHex bytes).length = 2 * bytes.length := by
  induction bytes with
  | nil => rfl
  | cons b bytes ih =>
    rw [toHex, List.flatMap_cons, List.length_append, ← toHex, ih, List.length_cons]
    simp only [List.length_cons, List.length_nil]
    omega

/-- What `sha256_hex` leaves in its buffer. -/
def Crypto.sha256Hex (crypto : Crypto) (data : List UInt8) : List UInt8 := toHex (crypto.sha256 data)

theorem Crypto.sha256Hex_length (crypto : Crypto) (data : List UInt8) :
    (crypto.sha256Hex data).length = 64 := by
  rw [Crypto.sha256Hex, toHex_length, crypto.sha256_length]

/-! ### Date and time -/

/-- `%0wd` of a number that is not negative. -/
def padded (w n : ℕ) : List UInt8 :=
  let digits := (Nat.digits 10 n).reverse.map fun d => UInt8.ofNat (48 + d)
  List.replicate (w - digits.length) 48 ++ digits

theorem padded_length {w n : ℕ} (h : n < 10 ^ w) : (padded w n).length = w := by
  have hdigits := (Nat.digits_length_le_iff (b := 10) (k := w) (by decide) n).mpr h
  simp only [padded, List.length_append, List.length_replicate, List.length_map, List.length_reverse]
  omega

/-- `gmtime_r`: the fields of `struct tm` in their ranges, and the seconds since 1970 that POSIX computes
from them. -/
structure Gmtime (now : ℤ) where
  tmYear : ℤ
  tmYday : ℤ
  tmMon : ℕ
  tmMday : ℕ
  tmHour : ℕ
  tmMin : ℕ
  tmSec : ℕ
  yday : 0 ≤ tmYday ∧ tmYday ≤ 365
  mon : tmMon < 12
  mday : 1 ≤ tmMday ∧ tmMday ≤ 31
  hour : tmHour < 24
  min : tmMin < 60
  sec : tmSec < 60
  posix : tmSec + tmMin * 60 + tmHour * 3600 + tmYday * 86400 + (tmYear - 70) * 31536000 +
    (tmYear - 69) / 4 * 86400 - (tmYear - 1) / 100 * 86400 + (tmYear + 299) / 400 * 86400 = now

/-- What `iotc_time_sync` can have made of the clock. -/
inductive ClockState : TimeState → Prop where
  | boot : ClockState ⟨0, false⟩
  | sync {t : TimeState} (ans : SntpAnswers) (tick : ℕ) (htick : tick < 2 ^ 32) (ht : ClockState t) :
      ClockState (iotcTimeSync t ans tick).2

theorem transmitSeconds_lt (pkt : ByteMem.Mem) : transmitSeconds pkt < 2 ^ 32 := by
  have h0 := (pkt 40).toNat_lt
  have h1 := (pkt 41).toNat_lt
  have h2 := (pkt 42).toNat_lt
  have h3 := (pkt 43).toNat_lt
  rw [transmitSeconds]
  omega

/-- The offset lies between the greatest uptime before 1970 and the last second of NTP. -/
theorem ClockState.epoch {t : TimeState} (h : ClockState t) :
    -4294968 < t.epochAtBoot ∧ t.epochAtBoot < 2 ^ 31 - 2 ^ 23 := by
  induction h with
  | boot => decide
  | @sync t ans tick htick ht ih =>
    obtain ⟨-, hsecs, heq⟩ | ⟨-, heq⟩ := iotcTimeSync_cases t ans tick
    · have hlt := transmitSeconds_lt ans.pkt
      rw [heq]
      simp only [sntpUnixOffset, configTickRateHz] at hsecs ⊢
      omega
    · rw [heq]
      exact ih

/-- When a request is signed: the clock, the tick counter as `iotc_time_now` reads it, and what
`gmtime_r` makes of the time. -/
structure SigningTime where
  clock : TimeState
  tick : ℕ
  tm : Gmtime (iotcTimeNow clock tick)
  reached : ClockState clock
  tick_lt : tick < 2 ^ 32

/-- The years have four digits. -/
theorem SigningTime.year (t : SigningTime) : 69 ≤ t.tm.tmYear ∧ t.tm.tmYear < 170 := by
  obtain ⟨hlow, hhigh⟩ := t.reached.epoch
  have htick := t.tick_lt
  have hnow : -4294968 < iotcTimeNow t.clock t.tick ∧ iotcTimeNow t.clock t.tick < 2 ^ 31 := by
    rw [iotcTimeNow]
    split_ifs
    · decide
    · simp only [configTickRateHz]
      omega
  have hposix := t.tm.posix
  have hyday := t.tm.yday
  have hhour := t.tm.hour
  have hmin := t.tm.min
  have hsec := t.tm.sec
  omega

/-! ### The formats -/

/-- `SIGNED_HEADERS` -/
def signedHeaders : List UInt8 := lit "host;x-amz-content-sha256;x-amz-date;x-amz-security-token"

variable {now : ℤ}

def dateOf (tm : Gmtime now) : List UInt8 :=
  padded 4 (tm.tmYear + 1900).toNat ++ padded 2 (tm.tmMon + 1) ++ padded 2 tm.tmMday

def amzTsOf (date : List UInt8) (tm : Gmtime now) : List UInt8 :=
  date ++ lit "T" ++ padded 2 tm.tmHour ++ padded 2 tm.tmMin ++ padded 2 tm.tmSec ++ lit "Z"

/-- A line of the canonical headers. -/
def headerLine (name value : List UInt8) : List UInt8 := name ++ lit ":" ++ value ++ lit "\n"

def canonicalHeaders (host payloadHash amzTs token : List UInt8) : List UInt8 :=
  headerLine (lit "host") host ++ headerLine (lit "x-amz-content-sha256") payloadHash ++
    headerLine (lit "x-amz-date") amzTs ++ headerLine (lit "x-amz-security-token") token

/-- The query string between the path and the headers is empty. -/
def canonicalRequest (method path host payloadHash amzTs token : List UInt8) : List UInt8 :=
  method ++ lit "\n" ++ path ++ lit "\n\n" ++ canonicalHeaders host payloadHash amzTs token ++
    lit "\n" ++ signedHeaders ++ lit "\n" ++ payloadHash

def credentialScope (date region service : List UInt8) : List UInt8 :=
  date ++ lit "/" ++ region ++ lit "/" ++ service ++ lit "/aws4_request"

def stringToSign (amzTs scope canonHash : List UInt8) : List UInt8 :=
  lit "AWS4-HMAC-SHA256\n" ++ amzTs ++ lit "\n" ++ scope ++ lit "\n" ++ canonHash

def keySeed (secret : List UInt8) : List UInt8 := lit "AWS4" ++ secret

/-- The signing key, derived from the seed, on the string to sign. -/
def signature (crypto : Crypto) (seed date region service toSign : List UInt8) : List UInt8 :=
  let k1 := crypto.hmac seed date
  let k2 := crypto.hmac k1 region
  let k1 := crypto.hmac k2 service
  let k2 := crypto.hmac k1 (lit "aws4_request")
  toHex (crypto.hmac k2 toSign)

def authorization (akid scope sig : List UInt8) : List UInt8 :=
  lit "AWS4-HMAC-SHA256 Credential=" ++ akid ++ lit "/" ++ scope ++ lit ", SignedHeaders=" ++
    signedHeaders ++ lit ", Signature=" ++ sig

/-! ### `sigv4_build` -/

/-- What works of the calls: `pvPortMalloc`, `mbedtls_sha256`, and the five of `hmac_sha256`. -/
structure SignAnswer where
  malloc : Bool
  sha256 : Bool
  hmac : Fin 5 → Bool

def SignAnswer.good (io : SignAnswer) : Bool :=
  io.malloc && io.sha256 && io.hmac 0 && io.hmac 1 && io.hmac 2 && io.hmac 3 && io.hmac 4

/-- `method`, `path`, `service` and `region` of a call. -/
structure Target where
  method : List UInt8
  path : List UInt8
  service : List UInt8
  region : List UInt8

/-- The strings in the buffers of a call that succeeds; `canon` is hashed and freed. -/
structure Signed where
  amzTs : List UInt8
  canon : List UInt8
  toSign : List UInt8
  seed : List UInt8
  authVal : List UInt8
  deriving DecidableEq

/-- `sigv4_build` -/
def sigv4Build (crypto : Crypto) (tm : Gmtime now) (io : SignAnswer) (r : Target)
    (host payloadHash : List UInt8) (c : AwsCreds) (authSize : ℕ) : Except ℤ Signed :=
  let date := snprintf 9 (dateOf tm)
  let amzTs := snprintf 17 (amzTsOf date tm)
  let canonSize := 512 + c.token.length
  if io.malloc = false then .error (-12)
  else
    let canon := snprintf canonSize
      (canonicalRequest r.method r.path host payloadHash amzTs c.token)
    if io.sha256 = false then .error (-5)
    else
      let canonHash := crypto.sha256Hex canon
      let scope := snprintf 80 (credentialScope date r.region r.service)
      let toSign := snprintf 256 (stringToSign amzTs scope canonHash)
      let seed := snprintf 64 (keySeed c.secret)
      if io.hmac 0 = false ∨ io.hmac 1 = false ∨ io.hmac 2 = false ∨ io.hmac 3 = false ∨
          io.hmac 4 = false then .error (-5)
      else
        let sig := signature crypto seed date r.region r.service toSign
        .ok ⟨amzTs, canon, toSign, seed, snprintf authSize (authorization c.akid scope sig)⟩

/-- The strings of Signature V4, none of them cut. -/
def completeStrings (crypto : Crypto) (tm : Gmtime now) (r : Target)
    (host payloadHash : List UInt8) (c : AwsCreds) : Signed :=
  let date := dateOf tm
  let amzTs := amzTsOf date tm
  let canon := canonicalRequest r.method r.path host payloadHash amzTs c.token
  let scope := credentialScope date r.region r.service
  let toSign := stringToSign amzTs scope (crypto.sha256Hex canon)
  let seed := keySeed c.secret
  ⟨amzTs, canon, toSign, seed,
    authorization c.akid scope (signature crypto seed date r.region r.service toSign)⟩

/-! ### Lengths -/

theorem dateOf_length (t : SigningTime) : (dateOf t.tm).length = 8 := by
  have hyear := t.year
  have hmon := t.tm.mon
  have hmday := t.tm.mday
  have h4 : (padded 4 (t.tm.tmYear + 1900).toNat).length = 4 := padded_length (by omega)
  have h2 : (padded 2 (t.tm.tmMon + 1)).length = 2 := padded_length (by omega)
  have h2' : (padded 2 t.tm.tmMday).length = 2 := padded_length (by omega)
  rw [dateOf, List.length_append, List.length_append, h4, h2, h2']

theorem amzTsOf_length (t : SigningTime) {date : List UInt8} (hdate : date.length = 8) :
    (amzTsOf date t.tm).length = 16 := by
  have hhour := t.tm.hour
  have hmin := t.tm.min
  have hsec := t.tm.sec
  have h1 : (padded 2 t.tm.tmHour).length = 2 := padded_length (by omega)
  have h2 : (padded 2 t.tm.tmMin).length = 2 := padded_length (by omega)
  have h3 : (padded 2 t.tm.tmSec).length = 2 := padded_length (by omega)
  simp [amzTsOf, hdate, h1, h2, h3]

theorem signedHeaders_length : signedHeaders.length = 57 := by decide

theorem headerLine_length (name value : List UInt8) :
    (headerLine name value).length = name.length + value.length + 2 := by
  simp [headerLine]
  omega

theorem canonicalHeaders_length {host payloadHash amzTs token : List UInt8}
    (hhash : payloadHash.length = 64) (hts : amzTs.length = 16) :
    (canonicalHeaders host payloadHash amzTs token).length = host.length + token.length + 142 := by
  simp [canonicalHeaders, headerLine_length, hhash, hts]
  omega

theorem canonicalRequest_length (method path host token : List UInt8) {payloadHash amzTs : List UInt8}
    (hhash : payloadHash.length = 64) (hts : amzTs.length = 16) :
    (canonicalRequest method path host payloadHash amzTs token).length =
      method.length + path.length + host.length + token.length + 268 := by
  simp [canonicalRequest, canonicalHeaders_length hhash hts, signedHeaders_length, hhash]
  omega

theorem credentialScope_length {date : List UInt8} (region service : List UInt8) (hdate : date.length = 8) :
    (credentialScope date region service).length = region.length + service.length + 23 := by
  simp [credentialScope, hdate]
  omega

theorem stringToSign_length {amzTs scope canonHash : List UInt8} (hts : amzTs.length = 16)
    (hhash : canonHash.length = 64) :
    (stringToSign amzTs scope canonHash).length = scope.length + 99 := by
  simp [stringToSign, hts, hhash]
  omega

theorem keySeed_length (secret : List UInt8) : (keySeed secret).length = secret.length + 4 := by
  simp [keySeed]
  omega

theorem signature_length (crypto : Crypto) (seed date region service toSign : List UInt8) :
    (signature crypto seed date region service toSign).length = 64 := by
  rw [signature, toHex_length, crypto.hmac_length]

theorem authorization_length (akid scope : List UInt8) {sig : List UInt8} (hsig : sig.length = 64) :
    (authorization akid scope sig).length = akid.length + scope.length + 178 := by
  simp [authorization, signedHeaders_length, hsig]
  omega

/-! ### What is cut -/

/-- The strings of a call fit into the buffers: the canonical request into 512 bytes and the token, the seed
into 64, the header value into 256. -/
structure TargetFits (r : Target) (host : List UInt8) (c : AwsCreds) : Prop where
  canon : r.method.length + r.path.length + host.length ≤ 243
  seed : c.secret.length ≤ 59
  auth : c.akid.length + r.region.length + r.service.length ≤ 54

theorem sigv4Build_error {crypto : Crypto} {tm : Gmtime now} {io : SignAnswer} {r : Target}
    {host payloadHash : List UInt8} {c : AwsCreds} {authSize : ℕ} (hio : io.good = false) :
    ∃ rc, sigv4Build crypto tm io r host payloadHash c authSize = .error rc ∧ rc < 0 := by
  dsimp only [sigv4Build]
  split_ifs with h1 h2 h3
  · exact ⟨_, rfl, by decide⟩
  · exact ⟨_, rfl, by decide⟩
  · exact ⟨_, rfl, by decide⟩
  · simp only [not_or, Bool.not_eq_false] at h1 h2 h3
    obtain ⟨h30, h31, h32, h33, h34⟩ := h3
    rw [SignAnswer.good, h1, h2, h30, h31, h32, h33, h34] at hio
    contradiction

theorem sigv4Build_succeeds {crypto : Crypto} {tm : Gmtime now} {io : SignAnswer} {r : Target}
    {host payloadHash : List UInt8} {c : AwsCreds} {authSize : ℕ} (hio : io.good = true) :
    ∃ signed, sigv4Build crypto tm io r host payloadHash c authSize = .ok signed := by
  simp only [SignAnswer.good, Bool.and_eq_true] at hio
  obtain ⟨⟨⟨⟨⟨⟨hmalloc, hsha⟩, h0⟩, h1⟩, h2⟩, h3⟩, h4⟩ := hio
  simp only [sigv4Build, hmalloc, hsha, h0, h1, h2, h3, h4]
  exact ⟨_, rfl⟩

/-- **What a call that succeeds leaves.**  Date, time stamp, scope and string to sign are never cut. -/
theorem sigv4Build_ok (crypto : Crypto) (t : SigningTime) {io : SignAnswer} (hio : io.good = true)
    {r : Target} (hregion : r.region.length < 24) (hservice : r.service.length < 4)
    (host payloadHash : List UInt8) (c : AwsCreds) (authSize : ℕ) :
    let amzTs := amzTsOf (dateOf t.tm) t.tm
    let scope := credentialScope (dateOf t.tm) r.region r.service
    let canon := snprintf (512 + c.token.length)
      (canonicalRequest r.method r.path host payloadHash amzTs c.token)
    let toSign := stringToSign amzTs scope (crypto.sha256Hex canon)
    let seed := snprintf 64 (keySeed c.secret)
    sigv4Build crypto t.tm io r host payloadHash c authSize =
      .ok ⟨amzTs, canon, toSign, seed, snprintf authSize (authorization c.akid scope
        (signature crypto seed (dateOf t.tm) r.region r.service toSign))⟩ := by
  have hdate := dateOf_length t
  have hts := amzTsOf_length t hdate
  have hscope := credentialScope_length r.region r.service hdate
  simp only [SignAnswer.good, Bool.and_eq_true] at hio
  obtain ⟨⟨⟨⟨⟨⟨hmalloc, hsha⟩, h0⟩, h1⟩, h2⟩, h3⟩, h4⟩ := hio
  have hcutDate : snprintf 9 (dateOf t.tm) = dateOf t.tm := snprintf_of_lt (by omega)
  have hcutTs : snprintf 17 (amzTsOf (dateOf t.tm) t.tm) = amzTsOf (dateOf t.tm) t.tm :=
    snprintf_of_lt (by omega)
  have hcutScope : snprintf 80 (credentialScope (dateOf t.tm) r.region r.service) =
      credentialScope (dateOf t.tm) r.region r.service := snprintf_of_lt (by omega)
  have hcutSign (canon : List UInt8) : snprintf 256 (stringToSign (amzTsOf (dateOf t.tm) t.tm)
        (credentialScope (dateOf t.tm) r.region r.service) (crypto.sha256Hex canon)) =
      stringToSign (amzTsOf (dateOf t.tm) t.tm)
        (credentialScope (dateOf t.tm) r.region r.service) (crypto.sha256Hex canon) :=
    snprintf_of_lt (by rw [stringToSign_length hts (crypto.sha256Hex_length canon)]; omega)
  simp only [sigv4Build, hcutDate, hcutTs, hcutScope, hcutSign, hmalloc, hsha, h0, h1, h2, h3, h4]
  rfl

/-- **Whole strings.**  With a host that is given, a call that succeeds leaves the strings of Signature V4
exactly when they fit. -/
theorem sigv4Build_complete_iff (crypto : Crypto) (t : SigningTime) {io : SignAnswer}
    (hio : io.good = true) {r : Target} (hregion : r.region.length < 24)
    (hservice : r.service.length < 4) (host : List UInt8) {payloadHash : List UInt8}
    (hhash : payloadHash.length = 64) (c : AwsCreds) :
    sigv4Build crypto t.tm io r host payloadHash c 256 =
      .ok (completeStrings crypto t.tm r host payloadHash c) ↔ TargetFits r host c := by
  have hdate := dateOf_length t
  have hts := amzTsOf_length t hdate
  have hcanon := canonicalRequest_length r.method r.path host c.token hhash hts
  have hscope := credentialScope_length r.region r.service hdate
  have hseed := keySeed_length c.secret
  have hauth {sig : List UInt8} (hsig : sig.length = 64) := authorization_length c.akid
    (credentialScope (dateOf t.tm) r.region r.service) hsig
  rw [sigv4Build_ok crypto t hio hregion hservice]
  simp only [completeStrings, Except.ok.injEq, Signed.mk.injEq, true_and]
  constructor
  · rintro ⟨h1, h2, h3, h4⟩
    have hlen1 := (snprintf_eq_self (by omega) _).mp h1
    have hlen3 := (snprintf_eq_self (by decide) _).mp h3
    -- the seed and the string to sign are whole, so the header value is cut from the right one
    rw [h1, h3] at h4
    have hlen4 := (snprintf_eq_self (by decide) _).mp h4
    rw [hauth (signature_length ..)] at hlen4
    exact ⟨by omega, by omega, by omega⟩
  · rintro ⟨h1, h3, h4⟩
    have hcutCanon := snprintf_of_lt (show (canonicalRequest r.method r.path host payloadHash
      (amzTsOf (dateOf t.tm) t.tm) c.token).length < 512 + c.token.length by omega)
    have hcutSeed := snprintf_of_lt (show (keySeed c.secret).length < 64 by omega)
    rw [hcutCanon, hcutSeed]
    refine ⟨rfl, rfl, rfl, snprintf_of_lt ?_⟩
    rw [hauth (signature_length ..)]
    omega

/-! ### The callers -/

/-- `'/'` -/
abbrev slash : UInt8 := 47

/-- `'.'` -/
abbrev dot : UInt8 := 46

/-- `split_url`: host and path. -/
def splitUrl (url : List UInt8) (hostSize : ℕ) : Option (List UInt8 × List UInt8) :=
  let p := match strstr url (lit "://") with
    | some p => p.drop 3
    | none => url
  let hlen := match strchr p slash with
    | some rest => p.length - rest.length
    | none => p.length
  if hlen = 0 ∨ hostSize ≤ hlen then none
  else some (p.take hlen, (strchr p slash).getD (lit "/"))

/-- `region_from_creds_host` -/
def regionFromCredsHost (host : List UInt8) (outSize : ℕ) : Option (List UInt8) :=
  match strstr host (lit ".iot.") with
  | none => none
  | some start =>
    let start := start.drop 5
    match strchr start dot with
    | none => none
    | some rest =>
      let n := start.length - rest.length
      if outSize ≤ n then none else some (start.take n)

/-- `region` in `iotc_fu_upload`. -/
def regionOfUrl (url : List UInt8) : List UInt8 :=
  ((splitUrl url 128).bind fun r => regionFromCredsHost r.1 24).getD (lit "us-east-1")

theorem regionFromCredsHost_length {host region : List UInt8} {outSize : ℕ}
    (h : regionFromCredsHost host outSize = some region) : region.length < outSize := by
  rw [regionFromCredsHost] at h
  cases h1 : strstr host (lit ".iot.") with
  | none => simp [h1] at h
  | some start =>
    rw [h1] at h
    dsimp only at h
    cases h2 : strchr (start.drop 5) dot with
    | none => simp [h2] at h
    | some rest =>
      rw [h2] at h
      dsimp only at h
      split_ifs at h with hn
      obtain rfl := Option.some.inj h
      rw [List.length_take]
      omega

theorem regionOfUrl_length (url : List UInt8) : (regionOfUrl url).length < 24 := by
  rw [regionOfUrl]
  cases h : (splitUrl url 128).bind fun r => regionFromCredsHost r.1 24 with
  | none =>
    show (lit "us-east-1").length < 24
    decide
  | some region =>
    obtain ⟨r, -, hr⟩ := Option.bind_eq_some_iff.mp h
    exact regionFromCredsHost_length hr

/-- `key_char_ok` -/
def keyCharOk (c : UInt8) : Bool :=
  (65 ≤ c && c ≤ 90) || (97 ≤ c && c ≤ 122) || (48 ≤ c && c ≤ 57) || c = 45 || c = 95 || c = 46 ||
    c = 126 || c = 47

/-- `key_is_clean` -/
def keyIsClean (s : List UInt8) : Bool := s.all keyCharOk

/-- The text of `object_key`. -/
def objectKey (clientId relPath : List UInt8) : List UInt8 :=
  lit "/device-uploads/" ++ clientId ++ lit "/" ++ relPath

/-- The test of `rel_path` at the top of `iotc_fu_upload`. -/
def relPathOk (relPath : List UInt8) : Bool := keyIsClean relPath && relPath.head? ≠ some slash

/-- The test of `object_key`. -/
def objectKeyOk (clientId relPath : List UInt8) : Bool :=
  decide ((objectKey clientId relPath).length < 192) && keyIsClean (objectKey clientId relPath)

/-- Who calls `sigv4_build`: `iotc_fu_upload` or `sts_assume_role`. -/
inductive Caller where
  | upload (bucket clientId relPath : List UInt8)
  | assumeRole
  deriving DecidableEq

/-- What the caller has checked before. -/
def Caller.letsThrough : Caller → Bool
  | .upload _ clientId relPath => relPathOk relPath && objectKeyOk clientId relPath
  | .assumeRole => true

def Caller.target (region : List UInt8) : Caller → Target
  | .upload _ clientId relPath => ⟨lit "PUT", objectKey clientId relPath, lit "s3", region⟩
  | .assumeRole => ⟨lit "POST", lit "/", lit "sts", region⟩

/-- The name of the host. -/
def Caller.hostName (region : List UInt8) : Caller → List UInt8
  | .upload bucket _ _ => bucket ++ lit ".s3." ++ region ++ lit ".amazonaws.com"
  | .assumeRole => lit "sts." ++ region ++ lit ".amazonaws.com"

/-- The size of `s3_host` and of `sts_host`. -/
def Caller.hostSize : Caller → ℕ
  | .upload .. => 192
  | .assumeRole => 48

/-- `s3_host` and `sts_host` -/
def Caller.host (caller : Caller) (region : List UInt8) : List UInt8 :=
  snprintf caller.hostSize (caller.hostName region)

/-- `sigv4_build` as the caller calls it; `data` is the file or the request body. -/
def Caller.sign (caller : Caller) (crypto : Crypto) (t : SigningTime) (io : SignAnswer)
    (region data : List UInt8) (c : AwsCreds) : Except ℤ Signed :=
  sigv4Build crypto t.tm io (caller.target region) (caller.host region) (crypto.sha256Hex data) c 256

/-- An error, or host and strings are those of Signature V4. -/
def Caller.ErrorOrComplete (caller : Caller) (crypto : Crypto) (t : SigningTime) (io : SignAnswer)
    (region data : List UInt8) (c : AwsCreds) : Prop :=
  (∃ rc, caller.sign crypto t io region data c = .error rc) ∨
    (caller.host region = caller.hostName region ∧
      caller.sign crypto t io region data c = .ok (completeStrings crypto t.tm
        (caller.target region) (caller.hostName region) (crypto.sha256Hex data) c))

/-- Bucket and region leave room in `s3_host`, host and object key in the canonical request, the secret in the
seed, key id and region in the header value. -/
def Caller.Fits (caller : Caller) (region : List UInt8) (c : AwsCreds) : Prop :=
  match caller with
  | .upload bucket clientId relPath =>
    bucket.length + region.length ≤ 173 ∧
      bucket.length + region.length + (objectKey clientId relPath).length ≤ 222 ∧
      c.secret.length ≤ 59 ∧ c.akid.length + region.length ≤ 52
  | .assumeRole => c.secret.length ≤ 59 ∧ c.akid.length + region.length ≤ 51

instance (caller : Caller) (region : List UInt8) (c : AwsCreds) : Decidable (caller.Fits region c) :=
  match caller with
  | .upload .. => inferInstanceAs (Decidable (_ ∧ _ ∧ _ ∧ _))
  | .assumeRole => inferInstanceAs (Decidable (_ ∧ _))

/-- The buffers of a caller in one. -/
theorem Caller.fits_iff (caller : Caller) {region : List UInt8} (hregion : region.length < 24)
    (c : AwsCreds) :
    caller.Fits region c ↔ (caller.hostName region).length < caller.hostSize ∧
      TargetFits (caller.target region) (caller.hostName region) c := by
  have hput : (lit "PUT").length = 3 := rfl
  have hs3 : (lit "s3").length = 2 := rfl
  have hpost : (lit "POST").length = 4 := rfl
  have hroot : (lit "/").length = 1 := rfl
  have hsts : (lit "sts").length = 3 := rfl
  cases caller with
  | upload bucket clientId relPath =>
    have hhost : (Caller.hostName region (.upload bucket clientId relPath)).length =
        bucket.length + region.length + 18 := by
      simp [Caller.hostName]
      omega
    rw [hhost]
    simp only [Caller.Fits, Caller.hostSize]
    constructor
    · rintro ⟨h1, h2, h3, h4⟩
      exact ⟨by omega, by rw [Caller.target, hhost]; dsimp only; omega, h3,
        by rw [Caller.target]; dsimp only; omega⟩
    · rintro ⟨h1, h2, h3, h4⟩
      rw [Caller.target, hhost] at h2
      rw [Caller.target] at h4
      dsimp only at h2 h4
      exact ⟨by omega, by omega, h3, by omega⟩
  | assumeRole =>
    have hhost : (Caller.hostName region .assumeRole).length = region.length + 18 := by
      simp [Caller.hostName]
      omega
    rw [hhost]
    simp only [Caller.Fits, Caller.hostSize]
    constructor
    · rintro ⟨h3, h4⟩
      exact ⟨by omega, by rw [Caller.target, hhost]; dsimp only; omega, h3,
        by rw [Caller.target]; dsimp only; omega⟩
    · rintro ⟨h1, h2, h3, h4⟩
      rw [Caller.target] at h4
      dsimp only at h4
      exact ⟨h3, by omega⟩

/-- When every call works, a request is signed, and its strings are whole exactly when they fit. -/
theorem Caller.complete_iff (caller : Caller) (crypto : Crypto) (t : SigningTime) {io : SignAnswer}
    (hio : io.good = true) {region : List UInt8} (hregion : region.length < 24)
    (data : List UInt8) (c : AwsCreds) :
    caller.ErrorOrComplete crypto t io region data c ↔ caller.Fits region c := by
  have hservice : (caller.target region).service.length < 4 := by
    cases caller with
    | upload _ _ _ => show (lit "s3").length < 4; decide
    | assumeRole => show (lit "sts").length < 4; decide
  have htarget : (caller.target region).region.length < 24 := by
    cases caller with
    | upload _ _ _ => exact hregion
    | assumeRole => exact hregion
  have hhash := crypto.sha256Hex_length data
  have hhost : caller.host region = caller.hostName region ↔
      (caller.hostName region).length < caller.hostSize := by
    have hpos : 0 < caller.hostSize := by
      cases caller with
      | upload _ _ _ => show 0 < 192; decide
      | assumeRole => show 0 < 48; decide
    exact snprintf_eq_self hpos _
  have hiff := sigv4Build_complete_iff crypto t hio htarget hservice (caller.hostName region) hhash c
  rw [caller.fits_iff hregion, ← hhost]
  constructor
  · rintro (⟨rc, herr⟩ | ⟨hwhole, hok⟩)
    · rw [Caller.sign, sigv4Build_ok crypto t hio htarget hservice] at herr
      contradiction
    · rw [Caller.sign, hwhole] at hok
      exact ⟨hwhole, hiff.mp hok⟩
  · rintro ⟨hwhole, hfits⟩
    right
    rw [Caller.sign, hwhole]
    exact ⟨rfl, hiff.mpr hfits⟩

/-- **Signature V4 over whole strings.**  Whatever the uploads and the AssumeRole requests sign, they get an
error or the complete strings exactly when a call fails or the strings fit. -/
theorem sign_complete_iff (caller : Caller) (crypto : Crypto) (t : SigningTime) (io : SignAnswer)
    (url data : List UInt8) (c : AwsCreds) :
    caller.ErrorOrComplete crypto t io (regionOfUrl url) data c ↔
      io.good = false ∨ caller.Fits (regionOfUrl url) c := by
  cases hio : io.good with
  | false =>
    obtain ⟨rc, herr, -⟩ := sigv4Build_error hio
    exact iff_of_true (Or.inl ⟨rc, herr⟩) (Or.inl rfl)
  | true =>
    rw [caller.complete_iff crypto t hio (regionOfUrl_length url)]
    simp

/-! ### A long device name -/

def sampleTime : SigningTime where
  clock := ⟨0, false⟩
  tick := 0
  tm :=
    { tmYear := 70, tmYday := 0, tmMon := 0, tmMday := 1, tmHour := 0, tmMin := 0, tmSec := 0
      yday := by decide
      mon := by decide
      mday := by decide
      hour := by decide
      min := by decide
      sec := by decide
      posix := by decide }
  reached := .boot
  tick_lt := by decide

/-- A snapshot of a device whose name has 128 characters, for a bucket whose name has 63. -/
def longUpload : Caller :=
  .upload (List.replicate 63 98) (List.replicate 128 99) (lit "snap-1700000000.png")

def sampleUrl : List UInt8 :=
  lit "https://c1.credentials.iot.us-east-1.amazonaws.com/role-aliases/a/credentials"

def sampleCreds : AwsCreds :=
  ⟨List.replicate 20 65, List.replicate 40 115, List.replicate 800 116⟩

/-- Its canonical request is cut: its last characters, those of the payload hash, are not hashed. -/
theorem sign_cuts_request :
    ¬ ∀ (caller : Caller) (crypto : Crypto) (t : SigningTime) (io : SignAnswer)
      (url data : List UInt8) (c : AwsCreds), caller.letsThrough = true →
        caller.ErrorOrComplete crypto t io (regionOfUrl url) data c := by
  intro h
  obtain ⟨crypto⟩ := crypto_nonempty
  have hall := h longUpload crypto sampleTime ⟨true, true, fun _ => true⟩ sampleUrl [0] sampleCreds
    (by decide +kernel)
  rw [Caller.complete_iff _ _ _ rfl (regionOfUrl_length sampleUrl)] at hall
  exact absurd hall (by decide +kernel)

end IotcRa8p1.App.SigV4
