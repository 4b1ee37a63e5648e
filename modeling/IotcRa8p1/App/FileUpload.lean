import IotcRa8p1.App.AssumeRole
import IotcRa8p1.Lib.CJson
import IotcRa8p1.Lib.Heaps

/-!
# File upload (`iotc_file_upload.c`)

`iotc_fu_identity_hook` keeps the announce topic, a bucket and its role ARN from the identity.
`iotc_fu_upload` fetches credentials, exchanges them by AssumeRole when there is a role ARN, puts the file
into the bucket and announces it on the topic.

What the network, the heap and mbedTLS answer to a call is an argument of it; the functions of cJSON may be any.  A
run gives the return value, the requests and announces in order, and the blocks allocated for credentials.
-/

namespace IotcRa8p1.App.FileUpload

open CString Heaps SigV4 AssumeRole CJson

variable {J S N : Type} [Reader J] [Builder S N]

/-! ### The identity hook -/

/-- `fu_topic`, `fu_bucket` and `fu_role_arn`. -/
structure Fu where
  topic : Option (List UInt8)
  bucket : Option (List UInt8)
  roleArn : Option (List UInt8)
  deriving DecidableEq

/-- `dup_or_null`, when `pvPortMalloc` answers `malloc`. -/
def dupOrNull (s : Option (List UInt8)) (malloc : Bool) : Option (List UInt8) :=
  if malloc = true then s else none

def bucketName (entry : J) : Option J := getObjectItem (some entry) ['b', 'n']

def customerOwned (entry : J) : Bool := isTrue (getObjectItem (some entry) ['c', 'a'])

def roleArnOf (entry : J) : Option (List UInt8) :=
  getStringValue (getObjectItem (some entry) ['r', 'a', 'r', 'n'])

/-- The loop over `buckets`, with `chosen` so far. -/
def chooseLoop : Option J → List J → Option J
  | chosen, [] => chosen
  | chosen, it :: rest =>
    if isString (bucketName it) = false then chooseLoop chosen rest
    else
      let chosen := chosen.getD it
      if customerOwned it = false then some it else chooseLoop (some chosen) rest

/-- `chosen` behind the loop. -/
def chosenBucket (buckets : Option J) : Option J :=
  if isArray buckets = true then chooseLoop none (children buckets) else none

/-- What the three allocations answer. -/
structure HookAnswer where
  topic : Bool
  bucket : Bool
  roleArn : Bool
  deriving DecidableEq

/-- `buckets` in the identity. -/
def identityBuckets (root : J) : Option J :=
  getObjectItem (getObjectItem (getObjectItem (getObjectItem (some root) ['d']) ['p']) ['f', 's'])
    ['b', 'u', 'c', 'k', 'e', 't', 's']

/-- `fu` in the identity. -/
def identityTopic (root : J) : Option J :=
  getObjectItem (getObjectItem (getObjectItem (getObjectItem (some root) ['d']) ['p'])
    ['t', 'o', 'p', 'i', 'c', 's']) ['f', 'u']

/-- `iotc_fu_identity_hook`; `root` is what `cJSON_Parse` gives. -/
def iotcFuIdentityHook (fu : Fu) (root : Option J) (io : HookAnswer) : Fu :=
  match root with
  | none => fu
  | some root =>
    let topic := if isString (identityTopic root) = true
      then dupOrNull (getStringValue (identityTopic root)) io.topic else none
    match chosenBucket (identityBuckets root) with
    | none => ⟨topic, none, none⟩
    | some chosen =>
      ⟨topic, dupOrNull (getStringValue (bucketName chosen)) io.bucket,
        if customerOwned chosen = true then dupOrNull (roleArnOf chosen) io.roleArn else none⟩

/-! ### Before the first request -/

/-- `aws.fs_creds_url` and `client_id` of `IotclMqttConfig`. -/
structure MqttConfig where
  fsCredsUrl : Option (List UInt8)
  clientId : Option (List UInt8)

/-- The arguments of `iotc_fu_upload`, `none` for NULL. -/
structure Args where
  relPath : Option (List UInt8)
  data : Option (List UInt8)
  contentType : Option (List UInt8)
  cfJson : Option (List UInt8)

/-- What an upload works with once the arguments are checked. -/
structure Job where
  topic : List UInt8
  bucket : List UInt8
  roleArn : Option (List UInt8)
  url : List UInt8
  clientId : List UInt8
  relPath : List UInt8
  data : List UInt8
  contentType : List UInt8
  cfJson : Option (List UInt8)

/-- `iotc_fu_available` -/
def iotcFuAvailable (mc : Option MqttConfig) (fu : Fu) : Bool :=
  (mc.bind MqttConfig.fsCredsUrl).isSome && (mc.bind MqttConfig.clientId).isSome &&
    fu.topic.isSome && fu.bucket.isSome

/-- `iotc_fu_upload` up to the credentials. -/
def prepare (mc : Option MqttConfig) (fu : Fu) (a : Args) : Except ℤ Job :=
  match mc.bind MqttConfig.fsCredsUrl, mc.bind MqttConfig.clientId, fu.topic, fu.bucket with
  | some url, some clientId, some topic, some bucket =>
    match a.relPath, a.data with
    | some relPath, some data =>
      if data = [] ∨ relPathOk relPath = false then .error (-22)
      else .ok ⟨topic, bucket, fu.roleArn, url, clientId, relPath, data,
        a.contentType.getD (lit "application/octet-stream"), a.cfJson⟩
    | _, _ => .error (-22)
  | _, _, _, _ => .error (-95)

/-- The strings it works with are there exactly when `iotc_fu_available` says so. -/
theorem prepare_available (mc : Option MqttConfig) (fu : Fu) (a : Args) :
    prepare mc fu a = .error (-95) ↔ iotcFuAvailable mc fu = false := by
  rw [prepare, iotcFuAvailable]
  cases mc.bind MqttConfig.fsCredsUrl with
  | none => simp
  | some url =>
    cases mc.bind MqttConfig.clientId with
    | none => simp
    | some clientId =>
      cases fu.topic with
      | none => simp
      | some topic =>
        cases fu.bucket with
        | none => simp
        | some bucket =>
          refine iff_of_false ?_ (by simp)
          dsimp only
          repeat' split
          all_goals simp

/-! ### Credentials in memory -/

/-- `provider_creds` and `role_creds`. -/
inductive Owner where
  | provider
  | role
  deriving DecidableEq

/-- The blocks allocated for credentials, and the pointers in the two structures. -/
abbrev Mem := Pointers Unit (Owner × CredField)

/-- The three members as a call leaves them: each a new block, or NULL. -/
def Mem.store (m : Mem) (o : Owner) (out : RawCreds) : Mem :=
  ((m.keep () (o, .akid) (out .akid).isSome).keep () (o, .secret) (out .secret).isSome).keep ()
    (o, .token) (out .token).isSome

/-- `creds_free` -/
def Mem.credsFree (m : Mem) (o : Owner) : Mem :=
  ((m.release () (o, .akid)).release () (o, .secret)).release () (o, .token)

/-! ### The requests -/

/-- `fetch_credentials`: the response with what `cJSON_Parse` makes of its body, and the allocations. -/
structure FetchAnswer (J : Type) where
  https : Option (ℕ × Option J)
  dup : CredField → Bool

def CredField.member : CredField → List Char
  | .akid => ['a', 'c', 'c', 'e', 's', 's', 'K', 'e', 'y', 'I', 'd']
  | .secret => ['s', 'e', 'c', 'r', 'e', 't', 'A', 'c', 'c', 'e', 's', 's', 'K', 'e', 'y']
  | .token => ['s', 'e', 's', 's', 'i', 'o', 'n', 'T', 'o', 'k', 'e', 'n']

/-- The members of `*out` behind the response. -/
def FetchAnswer.fields (io : FetchAnswer J) : RawCreds := fun f =>
  match io.https with
  | some (_, root) =>
    dupOrNull (getStringValue (getObjectItem
      (getObjectItem root ['c', 'r', 'e', 'd', 'e', 'n', 't', 'i', 'a', 'l', 's'])
      (CredField.member f))) (io.dup f)
  | none => none

/-- `fetch_credentials` -/
def fetchCredentials (url : List UInt8) (io : FetchAnswer J) (m : Mem) : Except ℤ AwsCreds × Mem :=
  match splitUrl url 128 with
  | none => (.error (-22), m)
  | some _ =>
    match io.https with
    | none => (.error (-1), m)
    | some (status, _) =>
      if status ≠ 200 then (.error (-13), m)
      else
        match io.fields.whole with
        | none => (.error (-74), (m.store .provider io.fields).credsFree .provider)
        | some c => (.ok c, m.store .provider io.fields)

/-- A message, and the tree that it was printed from. -/
structure Message (S N : Type) where
  text : List UInt8
  heap : S
  root : Option N

/-- The requests and announces of a run: an AssumeRole, a PUT with the credentials and their owner, and a
message handed to the connected MQTT client. -/
inductive Event (S N : Type) where
  | assumeRole (roleArn : List UInt8) (request : Option StsRequest) (rc : ℤ)
  | put (owner : Owner) (c : AwsCreds) (host path payloadHash contentType : List UInt8)
      (signed : Signed) (status : Option ℕ)
  | publish (topic : List UInt8) (msg : Message S N) (accepted : Bool)

/-- The heap of cJSON when the announce is built, what `iotcl_iso_timestamp_now` answers, and which of the
calls get memory: `cJSON_CreateObject` three times, `cJSON_AddArrayToObject`, `cJSON_Parse` of the
classification, the calls that add a member, and `cJSON_PrintUnformatted`. -/
structure JsonAnswer (S : Type) where
  heap : S
  root : Bool
  arr : Bool
  item : Bool
  drec : Bool
  now : Option (List UInt8)
  addDt : Bool
  cf : Bool
  addCf : Bool
  addUrl : Bool
  addD : Bool
  print : Bool

/-- The time stamp of the announce. -/
def addTime (io : JsonAnswer S) (item : Option N) (s : S) : S :=
  match io.now with
  | some tsIso => (addStringToObject item ['d', 't'] tsIso io.addDt s).2
  | none => s

/-- Its classification, as JSON or else as a string. -/
def addClassification (job : Job) (io : JsonAnswer S) (drec : Option N) (s : S) : S :=
  match job.cfJson with
  | none => s
  | some cfJson =>
    match parse cfJson io.cf s with
    | (some cf, s) => addItemToObject drec ['c', 'f'] (some cf) io.addCf s
    | (none, s) => (addStringToObject drec ['c', 'f'] cfJson io.addCf s).2

/-- What goes into the four nodes of the announce, and its text. -/
def tieAnnounce (job : Job) (io : JsonAnswer S) (root arr item drec : Option N) (s : S) : Option (Message S N) :=
  let s := addTime io item s
  let s := addClassification job io drec s
  let s := (addStringToObject drec ['u', 'r', 'l'] job.relPath io.addUrl s).2
  let s := addItemToObject item ['d'] drec io.addD s
  let s := addItemToArray arr item s
  (printUnformatted root io.print s).map fun text => ⟨text, s, root⟩

/-- The message of the announce, when it could be printed. -/
def announceMessage (job : Job) (io : JsonAnswer S) : Option (Message S N) :=
  let root := createObject io.root io.heap
  let arr := addArrayToObject root.1 ['d'] io.arr root.2
  let item := createObject io.item arr.2
  let drec := createObject io.drec item.2
  tieAnnounce job io root.1 arr.1 item.1 drec.1 drec.2

/-- What the calls of an upload answer; `connected` is `s_connected` as the publish tests it, `publish`
whether `MQTT_Publish` succeeds. -/
structure Answers (J S : Type) where
  stsTime : SigningTime
  time : SigningTime
  fetch : FetchAnswer J
  sts : StsAnswer
  sha256 : Bool
  sign : SignAnswer
  put : Option ℕ
  json : JsonAnswer S
  connected : Bool
  publish : Bool

/-- `iotc_mqtt_client_publish` -/
def iotcMqttClientPublish (topic : List UInt8) (msg : Message S N) (io : Answers J S) : List (Event S N) :=
  if io.connected = true then [.publish topic msg io.publish] else []

/-- The announce on the fu topic. -/
def announce (job : Job) (io : Answers J S) : ℤ × List (Event S N) :=
  match announceMessage job io.json with
  | none => (-12, [])
  | some msg => (0, iotcMqttClientPublish job.topic msg io)

/-- Behind the PUT. -/
def afterPut (job : Job) (io : Answers J S) : ℤ × List (Event S N) :=
  match io.put with
  | none => (-1, [])
  | some status => if status ≠ 200 then (-13, []) else announce job io

def Job.caller (job : Job) : Caller := .upload job.bucket job.clientId job.relPath

/-- From `s3_host` to the end. -/
def putAndAnnounce (crypto : Crypto) (job : Job) (o : Owner) (c : AwsCreds) (io : Answers J S) :
    ℤ × List (Event S N) :=
  if objectKeyOk job.clientId job.relPath = false then (-22, [])
  else if io.sha256 = false then (-5, [])
  else
    match job.caller.sign crypto io.time io.sign (regionOfUrl job.url) job.data c with
    | .error rc => (rc, [])
    | .ok signed =>
      ((afterPut job io).1,
        .put o c (job.caller.host (regionOfUrl job.url)) (objectKey job.clientId job.relPath)
          (crypto.sha256Hex job.data) job.contentType signed io.put :: (afterPut job io).2)

/-- The return value, what was sent in order, and the memory behind it. -/
structure Run (S N : Type) where
  rc : ℤ
  log : List (Event S N)
  mem : Mem

/-- Behind the credentials, up to the label `out`. -/
def withCredentials (crypto : Crypto) (job : Job) (c : AwsCreds) (io : Answers J S) (m : Mem) : Run S N :=
  match job.roleArn with
  | none =>
    let r := putAndAnnounce crypto job .provider c io
    ⟨r.1, r.2, m⟩
  | some roleArn =>
    let sts := stsAssumeRole crypto io.stsTime io.sts c (regionOfUrl job.url) roleArn job.clientId
    let e := Event.assumeRole roleArn sts.sent sts.rc
    match sts.out.whole with
    -- the members are NULL on every other error path
    | none => ⟨sts.rc, [e], (m.store .role sts.out).credsFree .role⟩
    | some c =>
      let r := putAndAnnounce crypto job .role c io
      ⟨r.1, e :: r.2, m.store .role sts.out⟩

/-- `iotc_fu_upload` -/
def iotcFuUpload (crypto : Crypto) (mc : Option MqttConfig) (fu : Fu) (a : Args) (io : Answers J S) :
    Run S N :=
  match prepare mc fu a with
  | .error rc => ⟨rc, [], .empty⟩
  | .ok job =>
    match fetchCredentials job.url io.fetch .empty with
    | (.error rc, m) => ⟨rc, [], m⟩
    | (.ok c, m) =>
      let run := withCredentials crypto job c io m
      { run with mem := (run.mem.credsFree .provider).credsFree .role }

end IotcRa8p1.App.FileUpload
