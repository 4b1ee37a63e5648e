import IotcRa8p1.App.UploadAnnounce

/-!
# What an upload reports (`iotc_file_upload.c`)

`iotc_fu_upload` answers 0 when the file is in the bucket and the announce is on its way.  The announce goes
through `iotc_mqtt_client_publish`, which returns nothing.

`upload_truthful_iff` says for which answers of the network and the heap the return value is right, and that
the credentials are released on every path.
-/

namespace IotcRa8p1.App.FileUpload

open CString Heaps SigV4 AssumeRole CJson

variable {J S N : Type} [Builder S N]

/-! ### The blocks of the credentials -/

theorem Mem.store_good {m : Mem} (hm : m.Good ()) {o : Owner} (ho : ∀ f, m.held (o, f) = none)
    (out : RawCreds) : (m.store o out).Good () := by
  have hakid := hm.keep (ho .akid) (out .akid).isSome
  have hsecret := hakid.keep (x := (o, .secret))
    (by rw [Pointers.keep_of_ne (by simp), ho]) (out .secret).isSome
  exact hsecret.keep (x := (o, .token))
    (by rw [Pointers.keep_of_ne (by simp), Pointers.keep_of_ne (by simp), ho]) (out .token).isSome

theorem Mem.store_of_ne (m : Mem) {o p : Owner} (h : p ≠ o) (out : RawCreds) (f : CredField) :
    (m.store o out).held (p, f) = m.held (p, f) := by
  have hne (g : CredField) : (p, f) ≠ (o, g) := fun heq => h (congrArg Prod.fst heq)
  rw [Mem.store, Pointers.keep_of_ne (hne _), Pointers.keep_of_ne (hne _), Pointers.keep_of_ne (hne _)]

theorem Mem.credsFree_good {m : Mem} (hm : m.Good ()) (o : Owner) : (m.credsFree o).Good () :=
  ((hm.release _).release _).release _

/-- `creds_free` leaves no pointer of its structure. -/
theorem Mem.credsFree_held (m : Mem) (o p : Owner) (f : CredField) :
    (m.credsFree o).held (p, f) = if p = o then none else m.held (p, f) := by
  rw [Mem.credsFree, Pointers.release_held, Pointers.release_held, Pointers.release_held]
  by_cases h : p = o
  · subst h
    rw [if_pos rfl]
    cases f with
    | akid => simp
    | secret => simp
    | token => simp
  · have hne (g : CredField) : (p, f) ≠ (o, g) := fun heq => h (congrArg Prod.fst heq)
    rw [if_neg h, if_neg (hne _), if_neg (hne _), if_neg (hne _)]

/-- The credentials fetch leaves pointers only when it succeeds. -/
theorem fetchCredentials_mem [Reader J] (url : List UInt8) (io : FetchAnswer J) :
    (fetchCredentials url io .empty).2.Good () ∧
      (∀ f, (fetchCredentials url io .empty).2.held (.role, f) = none) ∧
      ∀ rc, (fetchCredentials url io .empty).1 = .error rc →
        ∀ f, (fetchCredentials url io .empty).2.held (.provider, f) = none := by
  have hstart : Pointers.Good () (.empty : Mem) := Pointers.good_empty ()
  have hstore := Mem.store_good hstart (o := .provider) (fun _ => rfl) io.fields
  have hrole (f : CredField) : (Mem.store .empty .provider io.fields).held (.role, f) = none := by
    rw [Mem.store_of_ne _ (by decide)]
    rfl
  dsimp only [fetchCredentials]
  cases splitUrl url 128 with
  | none => exact ⟨hstart, fun _ => rfl, fun _ _ _ => rfl⟩
  | some r =>
    cases io.https with
    | none => exact ⟨hstart, fun _ => rfl, fun _ _ _ => rfl⟩
    | some answer =>
      obtain ⟨status, root⟩ := answer
      by_cases hstatus : status = 200
      · simp only [hstatus, ne_eq, not_true_eq_false, if_false]
        cases io.fields.whole with
        | none =>
          refine ⟨Mem.credsFree_good hstore _, fun f => ?_, fun _ _ f => ?_⟩
          · rw [Mem.credsFree_held, if_neg (by decide), hrole]
          · rw [Mem.credsFree_held, if_pos rfl]
        | some c => exact ⟨hstore, hrole, fun rc h => by contradiction⟩
      · simp only [ne_eq, hstatus, not_false_eq_true, if_true]
        exact ⟨hstart, fun _ => rfl, fun _ _ _ => rfl⟩

theorem withCredentials_good (crypto : Crypto) (job : Job) (c : AwsCreds) (io : Answers J S) {m : Mem}
    (hm : m.Good ()) (hrole : ∀ f, m.held (.role, f) = none) :
    (withCredentials crypto job c io m).mem.Good () := by
  rw [withCredentials]
  cases job.roleArn with
  | none => exact hm
  | some roleArn =>
    dsimp only
    generalize stsAssumeRole crypto io.stsTime io.sts c (regionOfUrl job.url) roleArn
      job.clientId = sts
    have hstore := Mem.store_good hm hrole sts.out
    cases sts.out.whole with
    | none => exact Mem.credsFree_good hstore _
    | some c => exact hstore

section

variable [Reader J] {crypto : Crypto} {mc : Option MqttConfig} {fu : Fu} {a : Args} {io : Answers J S} {job : Job}
  {rc : ℤ} {m : Mem} {c : AwsCreds}

theorem iotcFuUpload_refused (h : prepare mc fu a = .error rc) :
    iotcFuUpload crypto mc fu a io = ⟨rc, [], .empty⟩ := by
  rw [iotcFuUpload, h]

theorem iotcFuUpload_noCreds (h : prepare mc fu a = .ok job)
    (hfetch : fetchCredentials job.url io.fetch .empty = (.error rc, m)) :
    iotcFuUpload crypto mc fu a io = ⟨rc, [], m⟩ := by
  simp only [iotcFuUpload, h, hfetch]

theorem iotcFuUpload_creds (h : prepare mc fu a = .ok job)
    (hfetch : fetchCredentials job.url io.fetch .empty = (.ok c, m)) :
    iotcFuUpload crypto mc fu a io = { withCredentials crypto job c io m with
      mem := ((withCredentials crypto job c io m).mem.credsFree .provider).credsFree .role } := by
  simp only [iotcFuUpload, h, hfetch]

/-- **Released once.**  Every block allocated for credentials is released exactly once, on every path. -/
theorem iotcFuUpload_released : ∀ b ∈ (iotcFuUpload crypto mc fu a io).mem.blocks, b.frees = [()] := by
  cases hprep : prepare mc fu a with
  | error rc =>
    rw [iotcFuUpload_refused hprep]
    exact (Pointers.good_empty ()).released fun _ => rfl
  | ok job =>
    obtain ⟨hgood, hrole, herror⟩ := fetchCredentials_mem job.url io.fetch
    rcases hfetch : fetchCredentials job.url io.fetch .empty with ⟨rc | c, m⟩
    · rw [hfetch] at hgood hrole herror
      rw [iotcFuUpload_noCreds hprep hfetch]
      refine hgood.released fun ⟨o, f⟩ => ?_
      cases o with
      | provider => exact herror rc rfl f
      | role => exact hrole f
    · rw [hfetch] at hgood hrole
      rw [iotcFuUpload_creds hprep hfetch]
      have hrun := withCredentials_good crypto job c io hgood hrole
      refine (Mem.credsFree_good (Mem.credsFree_good hrun .provider) .role).released fun ⟨o, f⟩ => ?_
      rw [Mem.credsFree_held, Mem.credsFree_held]
      cases o with
      | provider => rfl
      | role => rfl

end

/-! ### What a truthful result is -/

/-- A PUT that was answered 200. -/
def Event.stored : Event S N → Bool
  | .put _ _ _ _ _ _ _ status => status = some 200
  | _ => false

/-- A message handed to the connected MQTT client. -/
def Event.isPublish : Event S N → Bool
  | .publish .. => true
  | _ => false

/-- The client has accepted a message on the topic that names the file. -/
def Announced [Reader (S × N)] (fu : Fu) (a : Args) (log : List (Event S N)) : Prop :=
  ∃ topic msg relPath, fu.topic = some topic ∧ a.relPath = some relPath ∧
    .publish topic msg true ∈ log ∧ announcedUrl msg = some relPath

structure Truthful [Reader (S × N)] (fu : Fu) (a : Args) (run : Run S N) : Prop where
  zero : run.rc = 0 ↔ (∃ e ∈ run.log, e.stored = true) ∧ Announced fu a run.log
  order : ∀ {before e after}, run.log = before ++ e :: after → e.isPublish = true →
    ∃ put ∈ before, put.stored = true
  released : ∀ b ∈ run.mem.blocks, b.frees = [()]

/-! ### How far an upload gets -/

def FetchAnswer.good [Reader J] (url : List UInt8) (io : FetchAnswer J) : Bool :=
  (splitUrl url 128).isSome && io.https.any (fun r => r.1 = 200) && io.fields.whole.isSome

/-- The PUT is built and sent. -/
def Answers.sent (job : Job) (io : Answers J S) : Bool :=
  objectKeyOk job.clientId job.relPath && io.sha256 && io.sign.good

/-- It is answered 200. -/
def Answers.putOk (job : Job) (io : Answers J S) : Bool := io.sent job && decide (io.put = some 200)

/-- The credentials are there, those of the role when there is one, and the PUT is answered 200. -/
def Answers.stored [Reader J] (job : Job) (io : Answers J S) : Bool :=
  io.fetch.good job.url && (job.roleArn.isNone || io.sts.good) && io.putOk job

theorem prepare_error {mc : Option MqttConfig} {fu : Fu} {a : Args} {rc : ℤ}
    (h : prepare mc fu a = .error rc) : rc ≠ 0 := by
  rw [prepare] at h
  repeat' split at h
  all_goals first | contradiction | (cases h; decide)

section

variable {crypto : Crypto} {io : Answers J S} {job : Job} {c : AwsCreds} {o : Owner} {m : Mem}

theorem fetchCredentials_good [Reader J] {url : List UInt8} {io : FetchAnswer J} (h : io.good url = true) :
    ∃ c m, fetchCredentials url io .empty = (.ok c, m) := by
  simp only [FetchAnswer.good, Bool.and_eq_true] at h
  obtain ⟨⟨hurl, hhttps⟩, hwhole⟩ := h
  obtain ⟨r, hr⟩ := Option.isSome_iff_exists.mp hurl
  obtain ⟨c, hc⟩ := Option.isSome_iff_exists.mp hwhole
  cases hanswer : io.https with
  | none =>
    rw [hanswer] at hhttps
    contradiction
  | some answer =>
    have hstatus : answer.1 = 200 := by simpa [hanswer] using hhttps
    exact ⟨c, Mem.store .empty .provider io.fields, by simp [fetchCredentials, hr, hanswer, hstatus, hc]⟩

theorem fetchCredentials_bad [Reader J] {url : List UInt8} {io : FetchAnswer J} (h : io.good url = false) :
    ∃ rc m, fetchCredentials url io .empty = (.error rc, m) ∧ rc ≠ 0 := by
  dsimp only [fetchCredentials]
  cases hurl : splitUrl url 128 with
  | none => exact ⟨_, _, rfl, by decide⟩
  | some r =>
    cases hanswer : io.https with
    | none => exact ⟨_, _, rfl, by decide⟩
    | some answer =>
      by_cases hstatus : answer.1 = 200
      · cases hwhole : io.fields.whole with
        | none => exact ⟨-74, _, if_neg (not_not.mpr hstatus), by decide⟩
        | some c =>
          rw [FetchAnswer.good, hurl, hanswer, hwhole] at h
          simp [hstatus] at h
      · exact ⟨-13, _, if_pos hstatus, by decide⟩

/-- What `sts_assume_role` leaves when it returns an error. -/
theorem stsAssumeRole_out {crypto : Crypto} {t : SigningTime} {io : StsAnswer} {c : AwsCreds}
    {region roleArn sessionName : List UInt8} (h : io.good = false) :
    (stsAssumeRole crypto t io c region roleArn sessionName).out.whole = none := by
  have hneg : (stsAssumeRole crypto t io c region roleArn sessionName).rc < 0 := stsAssumeRole_bad h
  dsimp only [stsAssumeRole] at hneg ⊢
  by_cases hsha : io.sha256 = false
  · rw [if_pos hsha]
    rfl
  · rw [if_neg hsha] at hneg ⊢
    cases hsign : Caller.assumeRole.sign crypto t io.sign region (stsBody roleArn sessionName) c with
    | error rc => rfl
    | ok signed =>
      rw [hsign] at hneg
      cases hanswer : io.https with
      | none => rfl
      | some answer =>
        rw [hanswer] at hneg
        dsimp only at hneg ⊢
        by_cases hstatus : answer.1 = 200
        · by_cases hfields : io.fields.whole = none
          · rw [if_neg (not_not.mpr hstatus), if_pos hfields]
            exact hfields
          · rw [if_neg (not_not.mpr hstatus), if_neg hfields] at hneg
            exact absurd (show (0 : ℤ) < 0 from hneg) (by decide)
        · rw [if_pos hstatus]
          rfl

variable (crypto c o) in
/-- What is sent, and what remains behind it. -/
theorem putAndAnnounce_sent (h : io.sent job = true) :
    ∃ signed, putAndAnnounce crypto job o c io = ((afterPut job io).1,
      .put o c (job.caller.host (regionOfUrl job.url)) (objectKey job.clientId job.relPath)
        (crypto.sha256Hex job.data) job.contentType signed io.put :: (afterPut job io).2) := by
  simp only [Answers.sent, Bool.and_eq_true] at h
  obtain ⟨⟨hkey, hsha⟩, hsign⟩ := h
  obtain ⟨signed, hok⟩ : ∃ signed, job.caller.sign crypto io.time io.sign (regionOfUrl job.url)
      job.data c = .ok signed := sigv4Build_succeeds hsign
  exact ⟨signed, by simp only [putAndAnnounce, hkey, hsha, hok, Bool.true_eq_false, if_false]⟩

variable (crypto c o) in
/-- Before that it stops with an error. -/
theorem putAndAnnounce_notSent (h : io.sent job = false) :
    (putAndAnnounce crypto job o c io).1 ≠ 0 ∧ (putAndAnnounce crypto job o c io).2 = [] := by
  rw [putAndAnnounce]
  by_cases hkey : objectKeyOk job.clientId job.relPath = false
  · rw [if_pos hkey]
    exact ⟨show (-22 : ℤ) ≠ 0 by decide, rfl⟩
  · rw [if_neg hkey]
    by_cases hsha : io.sha256 = false
    · rw [if_pos hsha]
      exact ⟨show (-5 : ℤ) ≠ 0 by decide, rfl⟩
    · have hsign : io.sign.good = false := by
        rw [Answers.sent, Bool.eq_true_of_not_eq_false hkey, Bool.eq_true_of_not_eq_false hsha] at h
        exact h
      obtain ⟨rc, herr, hneg⟩ : ∃ rc, job.caller.sign crypto io.time io.sign (regionOfUrl job.url)
        job.data c = .error rc ∧ rc < 0 := sigv4Build_error hsign
      rw [if_neg hsha, herr]
      exact ⟨hneg.ne, rfl⟩

theorem afterPut_ok (h : io.put = some 200) : afterPut job io = announce job io := by
  rw [afterPut, h]
  exact if_neg (by decide)

variable (job) in
theorem afterPut_stops (h : io.put ≠ some 200) : (afterPut job io).1 ≠ 0 ∧ (afterPut job io).2 = [] := by
  rw [afterPut]
  cases hanswer : io.put with
  | none => exact ⟨show (-1 : ℤ) ≠ 0 by decide, rfl⟩
  | some status =>
    have hstatus : status ≠ 200 := fun hs => h (by rw [hanswer, hs])
    dsimp only
    rw [if_pos hstatus]
    exact ⟨show (-13 : ℤ) ≠ 0 by decide, rfl⟩

variable (crypto c o) in
/-- The file is in the bucket: what remains is the announce. -/
theorem putAndAnnounce_ok (h : io.putOk job = true) :
    ∃ put, put.stored = true ∧ put.isPublish = false ∧
      putAndAnnounce crypto job o c io = ((announce job io).1, put :: (announce job io).2) := by
  simp only [Answers.putOk, Bool.and_eq_true, decide_eq_true_eq] at h
  obtain ⟨hsent, hput⟩ := h
  obtain ⟨signed, hrun⟩ := putAndAnnounce_sent crypto c o hsent
  rw [afterPut_ok hput] at hrun
  refine ⟨_, ?_, ?_, hrun⟩
  · exact decide_eq_true hput
  · rfl

variable (crypto c o) in
theorem putAndAnnounce_stops (h : io.putOk job = false) :
    (putAndAnnounce crypto job o c io).1 ≠ 0 ∧
      ∀ e ∈ (putAndAnnounce crypto job o c io).2, e.stored = false ∧ e.isPublish = false := by
  cases hsent : io.sent job with
  | false =>
    obtain ⟨hrc, hlog⟩ := putAndAnnounce_notSent crypto c o hsent
    rw [hlog]
    exact ⟨hrc, fun e he => absurd he List.not_mem_nil⟩
  | true =>
    have hput : io.put ≠ some 200 := by
      rw [Answers.putOk, hsent, Bool.true_and] at h
      exact of_decide_eq_false h
    obtain ⟨signed, hrun⟩ := putAndAnnounce_sent crypto c o hsent
    obtain ⟨hrc, hlog⟩ := afterPut_stops job hput
    rw [hrun, hlog]
    refine ⟨hrc, fun e he => ?_⟩
    rw [List.mem_singleton.mp he]
    exact ⟨decide_eq_false hput, rfl⟩

theorem withCredentials_ok (hrole : (job.roleArn.isNone || io.sts.good) = true)
    (h : io.putOk job = true) :
    ∃ before put, put.stored = true ∧ (∀ e ∈ before ++ [put], e.isPublish = false) ∧
      (withCredentials crypto job c io m).rc = (announce job io).1 ∧
      (withCredentials crypto job c io m).log = before ++ put :: (announce job io).2 := by
  rw [withCredentials]
  cases hrarn : job.roleArn with
  | none =>
    obtain ⟨put, hstored, hpublish, hrun⟩ := putAndAnnounce_ok crypto c .provider h
    refine ⟨[], put, hstored, fun e he => ?_, by rw [hrun], by rw [hrun]; rfl⟩
    rwa [List.mem_singleton.mp he]
  | some roleArn =>
    rw [hrarn] at hrole
    obtain ⟨signed, -, hsts⟩ := stsAssumeRole_good crypto io.stsTime c (regionOfUrl job.url) roleArn
      job.clientId hrole
    have hwhole : io.sts.fields.whole.isSome = true := by
      simp only [Option.isNone_some, Bool.false_or, StsAnswer.good, Bool.and_eq_true] at hrole
      exact hrole.2
    obtain ⟨c', hc'⟩ := Option.isSome_iff_exists.mp hwhole
    obtain ⟨put, hstored, hpublish, hrun⟩ := putAndAnnounce_ok crypto c' .role h
    simp only [hsts, hc']
    refine ⟨[_], put, hstored, fun e he => ?_, by rw [hrun], by rw [hrun]; rfl⟩
    rcases List.mem_append.mp he with he | he
    · rw [List.mem_singleton.mp he]
      rfl
    · rwa [List.mem_singleton.mp he]

theorem withCredentials_stops
    (h : ((job.roleArn.isNone || io.sts.good) && io.putOk job) = false) :
    (withCredentials crypto job c io m).rc ≠ 0 ∧
      ∀ e ∈ (withCredentials crypto job c io m).log, e.stored = false ∧ e.isPublish = false := by
  rw [withCredentials]
  cases hrarn : job.roleArn with
  | none =>
    rw [hrarn, Option.isNone_none, Bool.true_or, Bool.true_and] at h
    exact putAndAnnounce_stops crypto c .provider h
  | some roleArn =>
    rw [hrarn, Option.isNone_some, Bool.false_or] at h
    dsimp only
    cases hsts : io.sts.good with
    | false =>
      rw [stsAssumeRole_out hsts]
      refine ⟨(stsAssumeRole_bad hsts).ne, fun e he => ?_⟩
      rw [List.mem_singleton.mp he]
      exact ⟨rfl, rfl⟩
    | true =>
      rw [hsts, Bool.true_and] at h
      have hgood := hsts
      simp only [StsAnswer.good, Bool.and_eq_true] at hgood
      obtain ⟨c', hc'⟩ := Option.isSome_iff_exists.mp hgood.2
      obtain ⟨signed, -, hrun⟩ := stsAssumeRole_good crypto io.stsTime c (regionOfUrl job.url) roleArn
        job.clientId hsts
      obtain ⟨hrc, hlog⟩ := putAndAnnounce_stops crypto c' .role h
      simp only [hrun, hc']
      refine ⟨hrc, fun e he => ?_⟩
      rcases List.mem_cons.mp he with he | he
      · rw [he]
        exact ⟨rfl, rfl⟩
      · exact hlog e he

end

section

variable [Reader J] {mc : Option MqttConfig} {fu : Fu} {a : Args} {io : Answers J S} {job : Job}

/-- **The file is in the bucket.**  What the upload returns and logs behind the PUT is the announce. -/
theorem iotcFuUpload_stored (crypto : Crypto) (hprep : prepare mc fu a = .ok job)
    (h : io.stored job = true) :
    ∃ before put, put.stored = true ∧ (∀ e ∈ before ++ [put], e.isPublish = false) ∧
      (iotcFuUpload crypto mc fu a io).rc = (announce job io).1 ∧
      (iotcFuUpload crypto mc fu a io).log = before ++ put :: (announce job io).2 := by
  simp only [Answers.stored, Bool.and_eq_true] at h
  obtain ⟨⟨hcreds, hrole⟩, hput⟩ := h
  obtain ⟨c, m, hfetch⟩ := fetchCredentials_good hcreds
  rw [iotcFuUpload_creds hprep hfetch]
  exact withCredentials_ok hrole hput

/-- **The file is not in the bucket.**  The upload returns an error and announces nothing. -/
theorem iotcFuUpload_stops (crypto : Crypto)
    (h : ∀ job, prepare mc fu a = .ok job → io.stored job = false) :
    (iotcFuUpload crypto mc fu a io).rc ≠ 0 ∧
      ∀ e ∈ (iotcFuUpload crypto mc fu a io).log, e.stored = false ∧ e.isPublish = false := by
  cases hprep : prepare mc fu a with
  | error rc =>
    rw [iotcFuUpload_refused hprep]
    exact ⟨prepare_error hprep, fun e he => absurd he List.not_mem_nil⟩
  | ok job =>
    have hstored := h job hprep
    cases hcreds : io.fetch.good job.url with
    | false =>
      obtain ⟨rc, m, hfetch, hrc⟩ := fetchCredentials_bad hcreds
      rw [iotcFuUpload_noCreds hprep hfetch]
      exact ⟨hrc, fun e he => absurd he List.not_mem_nil⟩
    | true =>
      obtain ⟨c, m, hfetch⟩ := fetchCredentials_good hcreds
      rw [iotcFuUpload_creds hprep hfetch]
      rw [Answers.stored, hcreds, Bool.true_and] at hstored
      exact withCredentials_stops hstored

end

/-! ### The announce -/

theorem prepare_ok {mc : Option MqttConfig} {fu : Fu} {a : Args} {job : Job}
    (h : prepare mc fu a = .ok job) :
    fu.topic = some job.topic ∧ fu.bucket = some job.bucket ∧ job.roleArn = fu.roleArn ∧
      a.relPath = some job.relPath ∧ relPathOk job.relPath = true := by
  rw [prepare] at h
  split at h
  · split at h
    · split_ifs at h with hok
      cases h
      rw [not_or, Bool.not_eq_false] at hok
      exact ⟨‹_›, ‹_›, rfl, ‹_›, hok.2⟩
    · contradiction
  · contradiction

theorem relPathOk_clean {relPath : List UInt8} (h : relPathOk relPath = true) :
    keyIsClean relPath = true := (Bool.and_eq_true_iff.mp h).1

/-! ### When the result is truthful -/

/-- The client accepts the message and it names the file, when there is one to hand over. -/
def Answers.delivered (io : Answers J S) : Bool := io.connected && io.publish && io.json.named

variable [Reader (S × N)]

/-- The return value behind the PUT. -/
theorem announce_rc (hdoc : Builder.Documented S) (job : Job) (io : Answers J S) :
    (announce job io).1 = 0 ↔ io.json.printed = true := by
  rw [announce, ← announceMessage_isSome hdoc job]
  cases announceMessage job io.json with
  | none => exact iff_of_false (show (-12 : ℤ) ≠ 0 by decide) (by simp)
  | some msg => exact iff_of_true rfl rfl

/-- What the client has accepted behind the PUT. -/
theorem mem_announce (hdoc : Builder.Documented S) {job : Job} (hpath : keyIsClean job.relPath = true)
    (io : Answers J S) (fuTopic : Option (List UInt8)) :
    (∃ topic msg, fuTopic = some topic ∧ Event.publish topic msg true ∈ (announce job io).2 ∧
      announcedUrl msg = some job.relPath) ↔
      fuTopic = some job.topic ∧ io.json.printed = true ∧ io.delivered = true := by
  rw [announce, ← announceMessage_isSome hdoc job]
  cases hmsg : announceMessage job io.json with
  | none => simp
  | some msg =>
    dsimp only
    rw [Answers.delivered, Bool.and_eq_true, ← announcedUrl_iff hdoc hpath hmsg, iotcMqttClientPublish]
    cases io.connected with
    | false => simp
    | true =>
      cases io.publish with
      | false => simp
      | true =>
        constructor
        · rintro ⟨topic, msg', htopic, hmem, hurl⟩
          rw [if_pos rfl, List.mem_singleton, Event.publish.injEq] at hmem
          obtain ⟨rfl, rfl, -⟩ := hmem
          exact ⟨htopic, rfl, rfl, hurl⟩
        · rintro ⟨htopic, -, -, hurl⟩
          exact ⟨_, _, htopic, List.mem_singleton_self _, hurl⟩

/-- What comes behind a first part comes behind all of it. -/
theorem prefix_of_notMem {α : Type*} {p : α → Bool} {xs ys before after : List α} {e : α}
    (hxs : ∀ x ∈ xs, p x = false) (h : xs ++ ys = before ++ e :: after) (he : p e = true) :
    xs <+: before := by
  rcases List.append_eq_append_iff.mp h with ⟨mid, hbefore, -⟩ | ⟨mid, hxs', hrest⟩
  · exact ⟨mid, hbefore.symm⟩
  · cases mid with
    | nil => exact ⟨[], by rw [hxs', List.append_nil, List.append_nil]⟩
    | cons x mid =>
      obtain ⟨rfl, -⟩ := List.cons.inj hrest
      rw [hxs e (by rw [hxs']; simp)] at he
      contradiction

variable [Reader J]

section

variable {crypto : Crypto} {mc : Option MqttConfig} {fu : Fu} {a : Args} {io : Answers J S} {job : Job}

/-- With the file in the bucket the result is truthful when there is no message or it is delivered. -/
theorem truthful_stored_iff (hdoc : Builder.Documented S) (hprep : prepare mc fu a = .ok job)
    (h : io.stored job = true) :
    Truthful fu a (iotcFuUpload crypto mc fu a io) ↔
      (io.json.printed = true → io.delivered = true) := by
  obtain ⟨before, put, hput, hbefore, hrc, hlog⟩ := iotcFuUpload_stored crypto hprep h
  obtain ⟨htopic, -, -, hpath, hclean⟩ := prepare_ok hprep
  rw [List.append_cons] at hlog
  have hmem {e : Event S N} (hpub : e.isPublish = true) :
      e ∈ (iotcFuUpload crypto mc fu a io).log ↔ e ∈ (announce job io).2 := by
    rw [hlog, List.mem_append]
    refine or_iff_right fun he => ?_
    rw [hbefore e he] at hpub
    contradiction
  have hann : Announced fu a (iotcFuUpload crypto mc fu a io).log ↔
      io.json.printed = true ∧ io.delivered = true := by
    have hlast := mem_announce hdoc (relPathOk_clean hclean) io fu.topic
    rw [and_iff_right htopic] at hlast
    rw [← hlast]
    constructor
    · rintro ⟨topic, msg, relPath, ht, hr, he, hurl⟩
      obtain rfl := Option.some.inj (hpath.symm.trans hr)
      exact ⟨topic, msg, ht, (hmem rfl).mp he, hurl⟩
    · rintro ⟨topic, msg, ht, he, hurl⟩
      exact ⟨topic, msg, job.relPath, ht, hpath, (hmem rfl).mpr he, hurl⟩
  have hstored : ∃ e ∈ (iotcFuUpload crypto mc fu a io).log, e.stored = true :=
    ⟨put, by rw [hlog]; simp, hput⟩
  have hzero : (iotcFuUpload crypto mc fu a io).rc = 0 ↔ io.json.printed = true := by
    rw [hrc, announce_rc hdoc]
  constructor
  · intro ht hprinted
    exact (hann.mp (ht.zero.mp (hzero.mpr hprinted)).2).2
  · intro himp
    refine ⟨?_, ?_, iotcFuUpload_released⟩
    · rw [hzero, hann, and_iff_right hstored]
      exact ⟨fun hprinted => ⟨hprinted, himp hprinted⟩, And.left⟩
    · intro pre e after heq hpub
      have hpre := prefix_of_notMem hbefore (hlog.symm.trans heq) hpub
      exact ⟨put, hpre.subset (by simp), hput⟩

/-- Without the file in the bucket it is truthful. -/
theorem truthful_stops (h : ∀ job, prepare mc fu a = .ok job → io.stored job = false) :
    Truthful fu a (iotcFuUpload crypto mc fu a io) := by
  obtain ⟨hrc, hlog⟩ := iotcFuUpload_stops crypto h
  refine ⟨iff_of_false hrc ?_, ?_, iotcFuUpload_released⟩
  · rintro ⟨⟨e, he, hstored⟩, -⟩
    rw [(hlog e he).1] at hstored
    contradiction
  · intro before e after heq hpub
    rw [(hlog e (by rw [heq]; simp)).2] at hpub
    contradiction

end

/-- The file is in the bucket and there is a message for the announce. -/
def Announcing (mc : Option MqttConfig) (fu : Fu) (a : Args) (io : Answers J S) : Prop :=
  ∃ job, prepare mc fu a = .ok job ∧ io.stored job = true ∧ io.json.printed = true

/-- **Truthful results.**  The return value says whether the file is stored and announced, nothing is
announced before it is stored, and the credentials are released once, exactly when an upload that gets to
hand over its announce has it accepted by the connected client, with the path in it. -/
theorem upload_truthful_iff (hdoc : Builder.Documented S) (crypto : Crypto) (mc : Option MqttConfig) (fu : Fu)
    (a : Args) (io : Answers J S) :
    Truthful fu a (iotcFuUpload crypto mc fu a io) ↔
      (Announcing mc fu a io → io.delivered = true) := by
  by_cases h : ∃ job, prepare mc fu a = .ok job ∧ io.stored job = true
  · obtain ⟨job, hprep, hstored⟩ := h
    rw [truthful_stored_iff hdoc hprep hstored]
    constructor
    · rintro himp ⟨-, -, -, hprinted⟩
      exact himp hprinted
    · exact fun himp hprinted => himp ⟨job, hprep, hstored, hprinted⟩
  · have hstops : ∀ job, prepare mc fu a = .ok job → io.stored job = false := fun job hprep =>
      Bool.eq_false_of_not_eq_true fun hstored => h ⟨job, hprep, hstored⟩
    refine iff_of_true (truthful_stops hstops) ?_
    rintro ⟨job, hprep, hstored, -⟩
    rw [hstops job hprep] at hstored
    contradiction

/-! ### A connection that drops before the announce -/

def sampleConfig : MqttConfig where
  fsCredsUrl := some sampleUrl
  clientId := some (lit "device-1")

def sampleFu : Fu where
  topic := some (lit "iot/fu")
  bucket := some (lit "uploads")
  roleArn := none

def sampleArgs : Args where
  relPath := some (lit "snap-1700000000.png")
  data := some [137, 80, 78, 71]
  contentType := some (lit "image/png")
  cfJson := none

def sampleJob : Job where
  topic := lit "iot/fu"
  bucket := lit "uploads"
  roleArn := none
  url := sampleUrl
  clientId := lit "device-1"
  relPath := lit "snap-1700000000.png"
  data := [137, 80, 78, 71]
  contentType := lit "image/png"
  cfJson := none

/-- What the credentials provider answers. -/
def sampleProvider : Json :=
  .object [(lit "credentials", .object [(lit "accessKeyId", .string (lit "AKID")),
    (lit "secretAccessKey", .string (lit "secret")), (lit "sessionToken", .string (lit "token"))])]

/-- Everything works, on a heap with nothing in it; the connection may drop behind the PUT. -/
def sampleAnswers (connected : Bool) : Answers Json Nodes where
  stsTime := sampleTime
  time := sampleTime
  fetch := ⟨some (200, some sampleProvider), fun _ => true⟩
  sts := sampleAnswer
  sha256 := true
  sign := ⟨true, true, fun _ => true⟩
  put := some 200
  json := ⟨[], true, true, true, true, none, true, true, true, true, true, true⟩
  connected := connected
  publish := true

/-- The text of the announce. -/
example : (announceMessage sampleJob (sampleAnswers true).json).map Message.text =
    some (lit "\x7b\"d\":[\x7b\"d\":\x7b\"url\":\"snap-1700000000.png\"\x7d\x7d]\x7d") := by
  decide +kernel

/-- With the connection the result is truthful. -/
theorem upload_truthful_connected : ∃ crypto : Crypto,
    Truthful sampleFu sampleArgs
      (iotcFuUpload crypto (some sampleConfig) sampleFu sampleArgs (sampleAnswers true)) := by
  obtain ⟨crypto⟩ := crypto_nonempty
  exact ⟨crypto, (upload_truthful_iff Nodes.documented crypto (some sampleConfig) sampleFu sampleArgs
    (sampleAnswers true)).mpr fun _ => rfl⟩

/-- Without it the file is stored, nothing is announced, and the upload returns 0. -/
theorem upload_reports_dropped_announce :
    ¬ ∀ (crypto : Crypto) (mc : Option MqttConfig) (fu : Fu) (a : Args) (io : Answers Json Nodes),
      Truthful fu a (iotcFuUpload crypto mc fu a io) := by
  intro h
  obtain ⟨crypto⟩ := crypto_nonempty
  have hprep : prepare (some sampleConfig) sampleFu sampleArgs = .ok sampleJob := rfl
  have hstored : (sampleAnswers false).stored sampleJob = true := by decide +kernel
  have htruthful := h crypto (some sampleConfig) sampleFu sampleArgs (sampleAnswers false)
  rw [truthful_stored_iff Nodes.documented hprep hstored] at htruthful
  exact absurd (htruthful rfl) (by decide)

end IotcRa8p1.App.FileUpload
