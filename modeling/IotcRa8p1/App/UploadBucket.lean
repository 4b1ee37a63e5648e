import IotcRa8p1.App.UploadResult
import IotcRa8p1.Lib.Machine

/-!
# Whose bucket an upload goes to (`iotc_file_upload.c`)

The identity lists buckets.  The hook keeps the name of one and, when it belongs to the customer, the ARN of
its role; an upload exchanges its credentials for those of the role exactly when an ARN is kept.

A machine takes identities and uploads in any order.  `chosen` is the entry that should have been kept, so
that the law for an upload can speak about the entry and not about what the hook made of it.
-/

namespace IotcRa8p1.App.FileUpload

open CString Heaps SigV4 AssumeRole Machine CJson

variable {J S N : Type} [Reader J] [Builder S N]

/-! ### The choice -/

/-- The entry has a name. -/
def named (entry : J) : Bool := isString (bucketName entry)

/-- The first entry of the platform that has a name, else the first that has a name. -/
def preferred (entries : List J) : Option J :=
  (entries.find? fun it => named it && !customerOwned it).or (entries.find? named)

def bucketEntries (buckets : Option J) : List J := if isArray buckets = true then children buckets else []

/-- **The loop** with an entry in hand keeps it unless one of the platform follows. -/
theorem chooseLoop_eq (chosen : Option J) (entries : List J) :
    chooseLoop chosen entries = (entries.find? fun it => named it && !customerOwned it).or
      (chosen.or (entries.find? named)) := by
  induction entries generalizing chosen with
  | nil => simp [chooseLoop]
  | cons it rest ih =>
    rw [chooseLoop, show isString (bucketName it) = named it from rfl]
    cases hname : named it with
    | false =>
      rw [if_pos rfl, ih, List.find?_cons_of_neg (by simp [hname]),
        List.find?_cons_of_neg (by simp [hname])]
    | true =>
      rw [if_neg (by decide)]
      dsimp only
      cases howned : customerOwned it with
      | false =>
        rw [if_pos rfl, List.find?_cons_of_pos (by simp [hname, howned]), Option.some_or]
      | true =>
        rw [if_neg (by decide), ih, List.find?_cons_of_neg (by simp [howned]),
          List.find?_cons_of_pos hname]
        cases chosen with
        | none => rfl
        | some entry => rfl

theorem chosenBucket_eq (buckets : Option J) : chosenBucket buckets = preferred (bucketEntries buckets) := by
  rw [chosenBucket, bucketEntries]
  split_ifs
  · exact chooseLoop_eq none _
  · rfl

/-! ### Identities and uploads -/

structure BucketState (J : Type) where
  fu : Fu
  chosen : Option J

def BucketState.start : BucketState J := ⟨⟨none, none, none⟩, none⟩

/-- An identity that arrives, with what `cJSON_Parse` makes of it, or an upload. -/
inductive BucketAct (J S : Type) where
  | identity (root : Option J) (io : HookAnswer)
  | upload (mc : Option MqttConfig) (a : Args) (io : Answers J S)

/-- The entry that an identity should choose; one that cannot be parsed changes nothing. -/
def chosenBy (s : BucketState J) : Option J → Option J
  | none => s.chosen
  | some root => preferred (bucketEntries (identityBuckets root))

def bucketStep (s : BucketState J) : BucketAct J S → Option (BucketState J)
  | .identity root io => some ⟨iotcFuIdentityHook s.fu root io, chosenBy s root⟩
  | .upload .. => some s

/-- With whose credentials a PUT is sent. -/
def Event.putBy : Event S N → Option (Owner × AwsCreds)
  | .put o c _ _ _ _ _ _ => some (o, c)
  | _ => none

/-- Every PUT is sent with the credentials that an AssumeRole for the entry's own ARN has given, and an upload
without a PUT is refused. -/
structure ByRole (entry : J) (io : Answers J S) (run : Run S N) : Prop where
  put : ∀ {before e after o c}, run.log = before ++ e :: after → e.putBy = some (o, c) →
    o = .role ∧ io.sts.fields.whole = some c ∧ ∃ arn request, roleArnOf entry = some arn ∧
      .assumeRole arn (some request) 0 ∈ before
  own : ∀ {arn request rc}, .assumeRole arn request rc ∈ run.log → roleArnOf entry = some arn
  refused : (∀ e ∈ run.log, e.putBy = none) → run.rc ≠ 0

/-- The law of a step: an identity leaves the name of the entry it should choose, when it can be kept; an
upload to a bucket of the customer goes by its role. -/
def BucketLaw (crypto : Crypto) (s : BucketState J) (act : BucketAct J S) (t : BucketState J) : Prop :=
  match act with
  | .identity none _ => t = s
  | .identity (some _) io => t.fu.bucket =
      if io.bucket = true then t.chosen.bind fun entry => getStringValue (bucketName entry) else none
  | .upload mc a io => ∀ entry, s.chosen = some entry → customerOwned entry = true →
      ByRole entry io (iotcFuUpload crypto mc s.fu a io)

/-- The upload sends its PUT. -/
def Sends (mc : Option MqttConfig) (fu : Fu) (a : Args) (io : Answers J S) : Prop :=
  ∃ job, prepare mc fu a = .ok job ∧ io.fetch.good job.url = true ∧ io.sent job = true

/-- With a bucket of the customer the ARN of a role is kept, or the upload does not send its PUT. -/
def RoleKept (s : BucketState J) : BucketAct J S → Prop
  | .identity .. => True
  | .upload mc a io => ∀ entry, s.chosen = some entry → customerOwned entry = true →
      s.fu.roleArn ≠ none ∨ ¬ Sends mc s.fu a io

/-- What is kept is from the chosen entry. -/
structure BucketInv (s : BucketState J) : Prop where
  bucket : ∀ {name}, s.fu.bucket = some name →
    ∃ entry, s.chosen = some entry ∧ getStringValue (bucketName entry) = some name
  roleArn : ∀ {arn}, s.fu.roleArn = some arn →
    ∃ entry, s.chosen = some entry ∧ roleArnOf entry = some arn

theorem dupOrNull_eq_some {s : Option (List UInt8)} {malloc : Bool} {bytes : List UInt8}
    (h : dupOrNull s malloc = some bytes) : s = some bytes := by
  rw [dupOrNull] at h
  split_ifs at h
  exact h

/-- What the hook keeps of an identity that can be parsed. -/
theorem iotcFuIdentityHook_kept (fu : Fu) (root : J) (io : HookAnswer) :
    (iotcFuIdentityHook fu (some root) io).bucket =
        dupOrNull ((preferred (bucketEntries (identityBuckets root))).bind fun entry =>
          getStringValue (bucketName entry)) io.bucket ∧
      ∀ arn, (iotcFuIdentityHook fu (some root) io).roleArn = some arn →
        ∃ entry, preferred (bucketEntries (identityBuckets root)) = some entry ∧
          roleArnOf entry = some arn := by
  rw [iotcFuIdentityHook, ← chosenBucket_eq]
  cases chosenBucket (identityBuckets root) with
  | none =>
    have hnone : dupOrNull none io.bucket = none := by
      rw [dupOrNull]
      split_ifs
      · rfl
      · rfl
    exact ⟨hnone.symm, fun arn h => by contradiction⟩
  | some entry =>
    refine ⟨rfl, fun arn h => ⟨entry, rfl, ?_⟩⟩
    dsimp only at h
    split_ifs at h
    exact dupOrNull_eq_some h

theorem bucketInv_start : BucketInv (.start : BucketState J) :=
  ⟨fun h => by contradiction, fun h => by contradiction⟩

theorem bucketInv_step {s t : BucketState J} {act : BucketAct J S} (hs : BucketInv s)
    (hstep : bucketStep s act = some t) : BucketInv t := by
  cases act with
  | upload mc a io =>
    obtain rfl := Option.some.inj hstep
    exact hs
  | identity root io =>
    obtain rfl := Option.some.inj hstep
    cases root with
    | none => exact hs
    | some root =>
      obtain ⟨hbucket, hrole⟩ := iotcFuIdentityHook_kept s.fu root io
      constructor
      · intro name hname
        have hname' : (iotcFuIdentityHook s.fu (some root) io).bucket = some name := hname
        rw [hbucket] at hname'
        exact Option.bind_eq_some_iff.mp (dupOrNull_eq_some hname')
      · exact fun {arn} harn => hrole arn harn

/-! ### An upload to a bucket of the customer -/

section

variable {crypto : Crypto} {io : Answers J S} {job : Job} {c : AwsCreds} {o : Owner}

omit [Reader J]

theorem announce_isPublish {e : Event S N} (he : e ∈ (announce job io).2) : e.isPublish = true := by
  rw [announce] at he
  cases hmsg : announceMessage job io.json with
  | none =>
    rw [hmsg] at he
    exact absurd he List.not_mem_nil
  | some msg =>
    rw [hmsg] at he
    dsimp only [iotcMqttClientPublish] at he
    split_ifs at he
    · rw [List.mem_singleton.mp he]
      rfl
    · exact absurd he List.not_mem_nil

theorem afterPut_isPublish {e : Event S N} (he : e ∈ (afterPut job io).2) : e.isPublish = true := by
  by_cases hput : io.put = some 200
  · rw [afterPut_ok hput] at he
    exact announce_isPublish he
  · rw [(afterPut_stops job hput).2] at he
    exact absurd he List.not_mem_nil

/-- What is logged from the PUT on: a PUT with the credentials that are given, and messages. -/
theorem mem_putAndAnnounce {e : Event S N} (he : e ∈ (putAndAnnounce crypto job o c io).2) :
    e.putBy = some (o, c) ∨ e.isPublish = true := by
  cases hsent : io.sent job with
  | false =>
    rw [(putAndAnnounce_notSent crypto c o hsent).2] at he
    exact absurd he List.not_mem_nil
  | true =>
    obtain ⟨signed, hrun⟩ := putAndAnnounce_sent crypto c o hsent
    rw [hrun] at he
    rcases List.mem_cons.mp he with he | he
    · left
      rw [he]
      rfl
    · exact Or.inr (afterPut_isPublish he)

theorem putAndAnnounce_putBy {e : Event S N} {p : Owner × AwsCreds}
    (he : e ∈ (putAndAnnounce crypto job o c io).2) (hput : e.putBy = some p) : p = (o, c) := by
  rcases mem_putAndAnnounce he with h | h
  · exact Option.some.inj (hput.symm.trans h)
  · cases e with
    | publish topic msg accepted => contradiction
    | assumeRole arn request rc => contradiction
    | put o c host path payloadHash contentType signed status => contradiction

/-- Without a PUT there is an error. -/
theorem putAndAnnounce_refused
    (h : ∀ e ∈ (putAndAnnounce crypto job o c io).2, e.putBy = none) :
    io.sent job = false ∧ (putAndAnnounce crypto job o c io).1 ≠ 0 := by
  cases hsent : io.sent job with
  | false => exact ⟨rfl, (putAndAnnounce_notSent crypto c o hsent).1⟩
  | true =>
    obtain ⟨signed, hrun⟩ := putAndAnnounce_sent crypto c o hsent
    rw [hrun] at h
    exact absurd (h _ List.mem_cons_self) (by simp [Event.putBy])

end

section

variable {crypto : Crypto} {io : Answers J S} {job : Job} {c : AwsCreds} {m : Mem}

/-- With an ARN kept, the upload goes by the role. -/
theorem withCredentials_byRole {entry : J} {arn : List UInt8} (hrole : job.roleArn = some arn)
    (harn : roleArnOf entry = some arn) : ByRole entry io (withCredentials crypto job c io m) := by
  rw [withCredentials, hrole]
  dsimp only
  cases hsts : io.sts.good with
  | false =>
    have hneg : (stsAssumeRole crypto io.stsTime io.sts c (regionOfUrl job.url) arn job.clientId).rc < 0 :=
      stsAssumeRole_bad hsts
    rw [stsAssumeRole_out hsts]
    constructor
    · intro before e after o' c' hlog hput
      have he : e ∈ before ++ e :: after := by simp
      rw [← hlog] at he
      rw [List.mem_singleton.mp he] at hput
      contradiction
    · intro arn' request rc he
      obtain ⟨rfl, -⟩ := Event.assumeRole.inj (List.mem_singleton.mp he)
      exact harn
    · exact fun _ => hneg.ne
  | true =>
    have hgood := hsts
    simp only [StsAnswer.good, Bool.and_eq_true] at hgood
    obtain ⟨c', hc'⟩ := Option.isSome_iff_exists.mp hgood.2
    obtain ⟨signed, -, hrun⟩ := stsAssumeRole_good crypto io.stsTime c (regionOfUrl job.url) arn
      job.clientId hsts
    simp only [hrun, hc']
    constructor
    · intro before e after o' c'' hlog hput
      cases before with
      | nil =>
        obtain ⟨rfl, -⟩ := List.cons.inj hlog
        contradiction
      | cons first before =>
        rw [List.cons_append] at hlog
        obtain ⟨rfl, hrest⟩ := List.cons.inj hlog
        have he : e ∈ before ++ e :: after := by simp
        rw [← hrest] at he
        obtain ⟨rfl, rfl⟩ := Prod.mk.inj (putAndAnnounce_putBy he hput)
        exact ⟨rfl, hc', arn, _, harn, List.mem_cons_self⟩
    · intro arn' request rc he
      rcases List.mem_cons.mp he with he | he
      · obtain ⟨rfl, -⟩ := Event.assumeRole.inj he
        exact harn
      · rcases mem_putAndAnnounce he with h | h
        · contradiction
        · contradiction
    · exact fun hno => (putAndAnnounce_refused fun e he => hno e (List.mem_cons_of_mem _ he)).2

omit [Builder S N] in
theorem byRole_of_nil {entry : J} {run : Run S N} (hlog : run.log = []) (hrc : run.rc ≠ 0) :
    ByRole entry io run := by
  constructor
  · intro before e after o' c' h
    rw [hlog] at h
    exact absurd h.symm (by simp)
  · intro arn request rc he
    rw [hlog] at he
    exact absurd he List.not_mem_nil
  · exact fun _ => hrc

/-- With no ARN kept, only an upload that sends no PUT is as it should be. -/
theorem withCredentials_byRole_iff {entry : J} (hrole : job.roleArn = none) :
    ByRole entry io (withCredentials crypto job c io m) ↔ io.sent job = false := by
  rw [withCredentials, hrole]
  constructor
  · intro h
    cases hsent : io.sent job with
    | false => rfl
    | true =>
      obtain ⟨signed, hrun⟩ := putAndAnnounce_sent crypto c .provider hsent
      rw [hrun] at h
      have hput := h.put (List.nil_append _).symm rfl
      exact absurd hput.1 (by decide)
  · intro hsent
    obtain ⟨hrc, hlog⟩ := putAndAnnounce_notSent crypto c .provider hsent
    exact byRole_of_nil hlog hrc

/-- **An upload to a bucket of the customer** goes by its role exactly when an ARN is kept or nothing is
sent. -/
theorem upload_byRole_iff {s : BucketState J} (hs : BucketInv s) {entry : J}
    (hchosen : s.chosen = some entry) (mc : Option MqttConfig) (a : Args) :
    ByRole entry io (iotcFuUpload crypto mc s.fu a io) ↔
      s.fu.roleArn ≠ none ∨ ¬ Sends mc s.fu a io := by
  cases hprep : prepare mc s.fu a with
  | error rc =>
    rw [iotcFuUpload_refused hprep]
    refine iff_of_true (byRole_of_nil rfl (prepare_error hprep)) (Or.inr ?_)
    rintro ⟨job, hjob, -⟩
    rw [hprep] at hjob
    contradiction
  | ok job =>
    have hsends : Sends mc s.fu a io ↔ io.fetch.good job.url = true ∧ io.sent job = true := by
      constructor
      · rintro ⟨job', hjob, h⟩
        obtain rfl := Except.ok.inj (hprep.symm.trans hjob)
        exact h
      · exact fun h => ⟨job, hprep, h⟩
    rw [hsends]
    cases hcreds : io.fetch.good job.url with
    | false =>
      obtain ⟨rc, m, hfetch, hrc⟩ := fetchCredentials_bad hcreds
      rw [iotcFuUpload_noCreds hprep hfetch]
      exact iff_of_true (byRole_of_nil rfl hrc) (Or.inr (by simp))
    | true =>
      obtain ⟨c, m, hfetch⟩ := fetchCredentials_good hcreds
      rw [iotcFuUpload_creds hprep hfetch]
      obtain ⟨-, -, hjob, -, -⟩ := prepare_ok hprep
      -- the law does not look at the memory
      have hmem {run : Run S N} {m' : Mem} : ByRole entry io { run with mem := m' } ↔ ByRole entry io run :=
        ⟨fun h => ⟨h.put, h.own, h.refused⟩, fun h => ⟨h.put, h.own, h.refused⟩⟩
      rw [hmem]
      cases hkept : s.fu.roleArn with
      | none =>
        rw [withCredentials_byRole_iff (hjob.trans hkept)]
        simp
      | some arn =>
        obtain ⟨entry', hentry, harn⟩ := hs.roleArn hkept
        obtain rfl := Option.some.inj (hchosen.symm.trans hentry)
        exact iff_of_true (withCredentials_byRole (hjob.trans hkept) harn) (Or.inl (by simp))

end

/-! ### Every run -/

theorem bucketLaw_iff {crypto : Crypto} {s t : BucketState J} {act : BucketAct J S} (hs : BucketInv s)
    (hstep : bucketStep s act = some t) : BucketLaw crypto s act t ↔ RoleKept s act := by
  cases act with
  | identity root io =>
    obtain rfl := Option.some.inj hstep
    cases root with
    | none => exact iff_of_true rfl trivial
    | some root =>
      refine iff_of_true ?_ trivial
      exact (iotcFuIdentityHook_kept s.fu root io).1
  | upload mc a io =>
    constructor
    · exact fun h entry hchosen howned =>
        (upload_byRole_iff hs hchosen mc a).mp (h entry hchosen howned)
    · exact fun h entry hchosen howned =>
        (upload_byRole_iff hs hchosen mc a).mpr (h entry hchosen howned)

/-- **Buckets.**  In every run of identities and uploads the hook keeps the preferred entry's name and uploads
to buckets of the customer go by the entry's role, exactly when no PUT is sent to such a bucket while no ARN
is kept. -/
theorem buckets_lawful_iff (crypto : Crypto) (acts : List (BucketAct J S)) :
    AllSteps bucketStep (BucketLaw crypto) acts .start ↔ Meets bucketStep RoleKept acts .start := by
  have hinv : ∀ {s t : BucketState J} {act : BucketAct J S}, BucketInv s → RoleKept s act →
      bucketStep s act = some t → BucketInv t := fun hs _ hstep => bucketInv_step hs hstep
  have hlaw : ∀ {s t : BucketState J} {act : BucketAct J S}, BucketInv s → bucketStep s act = some t →
      (BucketLaw crypto s act t ↔ RoleKept s act) := fun hs hstep => bucketLaw_iff hs hstep
  exact allSteps_iff_meets hinv hlaw bucketInv_start

/-! ### A bucket of the customer without a role -/

/-- A bucket of the customer whose `rarn` is missing. -/
def rolelessEntry : Json := .object [(lit "bn", .string (lit "uploads")), (lit "ca", .bool true)]

/-- An identity with that bucket. -/
def rolelessIdentity : Json :=
  .object [(lit "d", .object [(lit "p", .object [
    (lit "topics", .object [(lit "fu", .string (lit "iot/fu"))]),
    (lit "fs", .object [(lit "buckets", .array [rolelessEntry])])])])]

/-- The file goes to the customer's bucket with the provider's credentials. -/
theorem buckets_skip_missing_role :
    ¬ ∀ (crypto : Crypto) (acts : List (BucketAct Json Nodes)),
      AllSteps bucketStep (BucketLaw crypto) acts .start := by
  intro h
  obtain ⟨crypto⟩ := crypto_nonempty
  have hrun := h crypto [.identity (some rolelessIdentity) ⟨true, true, true⟩,
    .upload (some sampleConfig) sampleArgs (sampleAnswers true)]
  have hlaw := ((hrun _ rfl).2 _ rfl).1
  have hinv := bucketInv_step bucketInv_start
    (show bucketStep .start (.identity (some rolelessIdentity) ⟨true, true, true⟩ : BucketAct Json Nodes) = some _
      from rfl)
  have hkept := (bucketLaw_iff hinv rfl).mp hlaw
  rcases hkept rolelessEntry rfl rfl with hrole | hsends
  · exact hrole rfl
  · refine hsends ⟨sampleJob, rfl, ?_, ?_⟩
    · decide +kernel
    · decide +kernel

end IotcRa8p1.App.FileUpload
