import IotcRa8p1.Lib.CJson
import IotcRa8p1.Lib.Heaps

/-!
# The identity strings of `kvs_webrtc_task.c`

`iotc_kvs_identity_hook` takes five strings from the identity response and `iotc_kvs_set_credentials` two from
the configuration; both free what they duplicated before, duplicate the new strings and then publish the
pointers.  The KVS task waits until both are published and reads the credentials, and the signaling
controller it starts reads the other five and keeps all of them.

A step is one access to a shared pointer.  The net thread may call either function again at any time; an MQTT
reconnect shows here as such calls.  What `pvPortMalloc`, the clock and the initialisation of the SDK answer
is the `Bool` of the action.  `origin` says for each allocation in which call it was made.  The response is read
through the functions of cJSON, which may be any.
-/

namespace IotcRa8p1.Kvs.Identity

open CString Heaps CJson

/-! ### The fields of `carn` and `url` -/

/-- `':'` -/
def colon : UInt8 := 58

/-- `'/'` -/
def slash : UInt8 := 47

/-- What follows the first colons. -/
def afterColons : ℕ → List UInt8 → Option (List UInt8)
  | 0, p => some p
  | _ + 1, [] => none
  | n + 1, c :: p => if c = colon then afterColons n p else afterColons (n + 1) p

/-- The 4th colon field of the ARN, when it ends with a colon and is not empty. -/
def regionOf (carn : List UInt8) : Option (List UInt8) :=
  match afterColons 3 carn with
  | none => none
  | some p =>
    if colon ∈ p ∧ p.takeWhile (· ≠ colon) ≠ [] then some (p.takeWhile (· ≠ colon)) else none

/-- From `channel/` to the next slash. -/
def channelOf (carn : List UInt8) : Option (List UInt8) :=
  (strstr carn (ascii ['c', 'h', 'a', 'n', 'n', 'e', 'l', '/'])).map fun p =>
    (p.drop 8).takeWhile (· ≠ slash)

/-- The hostname of the URL, when a slash follows. -/
def endpointOf (url : List UInt8) : Option (List UInt8) :=
  let https := ascii ['h', 't', 't', 'p', 's', ':', '/', '/']
  let host := if https.isPrefixOf url = true then url.drop 8 else url
  if slash ∈ host then some (host.takeWhile (· ≠ slash)) else none

/-- From `/role-aliases/` to `/credentials`. -/
def roleAliasOf (url : List UInt8) : Option (List UInt8) :=
  (strstr url
    (ascii ['/', 'r', 'o', 'l', 'e', '-', 'a', 'l', 'i', 'a', 's', 'e', 's', '/'])).map fun p =>
      let ra := p.drop 14
      match strstr ra (ascii ['/', 'c', 'r', 'e', 'd', 'e', 'n', 't', 'i', 'a', 'l', 's']) with
      | some e => ra.take (ra.length - e.length)
      | none => ra

/-! ### State -/

/-- The strings, each with a static `s_..` that owns it and a global `pcKvs..` that publishes it. -/
inductive Name where
  | region
  | channel
  | endpoint
  | roleAlias
  | thing
  | cert
  | key
  deriving DecidableEq

/-- What is published together. -/
inductive Group where
  | identity
  | credentials
  deriving DecidableEq

/-- In the order in which the functions go through them. -/
def Group.names : Group → List Name
  | .identity => [.region, .channel, .endpoint, .roleAlias, .thing]
  | .credentials => [.cert, .key]

/-- A call that is past its first checks: the strings it is to duplicate. -/
structure Call where
  group : Group
  text : Name → Option (List UInt8)

/-- The next instruction of the net thread. -/
inductive NetPc where
  | idle
  /-- `prv_free_null` -/
  | free (c : Call) (todo : List Name)
  /-- `prv_strdup_len`, or the test that nothing is missing -/
  | dup (c : Call) (todo : List Name)
  /-- a store to `pcKvs..`, or to the ready flag -/
  | publish (c : Call) (todo : List Name)

/-- The next instruction of `prv_kvs_task`. -/
inductive KvsPc where
  | wait
  | mediaInit
  /-- `AppCommon_Init` -/
  | cert
  | key
  | signalingInit
  /-- the log line before the start -/
  | logChannel
  | logRegion
  | start
  | ended
  deriving DecidableEq

/-- `SignalingController_Task` keeps the pointer, or reads the string once. -/
inductive Access where
  | keep
  | use
  deriving DecidableEq

structure St where
  blocks : Blocks Unit
  /-- the call each block was made in -/
  origin : List ℕ
  /-- the number of calls so far -/
  calls : ℕ
  /-- `s_region` and the like -/
  statics : Name → Option ℕ
  /-- `pcKvsAwsRegion` and the like; `none` is the empty string they start with -/
  published : Name → Option ℕ
  /-- `s_config_ready`, `s_creds_ready` -/
  ready : Group → Bool
  net : NetPc
  kvs : KvsPc
  /-- the controller, once it is started: what it has still to read before it listens -/
  controller : Option (List (Name × Access))
  /-- the pointers in the context and in `connectInfo` -/
  held : Name → Option ℕ

def boot : St where
  blocks := []
  origin := []
  calls := 0
  statics _ := none
  published _ := none
  ready _ := false
  net := .idle
  kvs := .wait
  controller := none
  held _ := none

/-! ### The net thread -/

variable {J : Type} [Reader J]

/-- `iotc_kvs_identity_hook`, up to the check of `carn` and `url`. -/
def identityHook (json : Option J) (clientId : Option (List UInt8)) : Option Call :=
  let d := getObjectItem json ['d']
  let p := getObjectItem d ['p']
  let vs := getObjectItem p ['v', 's']
  let vs := if isObject vs = true then vs else getObjectItem d ['v', 's']
  if isObject vs = true then
    match getStringValue (getObjectItem vs ['c', 'a', 'r', 'n']),
      getStringValue (getObjectItem vs ['u', 'r', 'l']) with
    | some carn, some url =>
      some ⟨.identity, fun
        | .region => regionOf carn
        | .channel => channelOf carn
        | .endpoint => endpointOf url
        | .roleAlias => roleAliasOf url
        | .thing => clientId
        | _ => none⟩
    | _, _ => none
  else none

/-- `iotc_kvs_set_credentials`, up to the check for NULL. -/
def setCredentials (cert key : Option (List UInt8)) : Option Call :=
  if cert.isSome = true ∧ key.isSome = true then
    some ⟨.credentials, fun
      | .cert => cert
      | .key => key
      | _ => none⟩
  else none

/-- A call gets past its first checks, or returns. -/
def begin (s : St) : Option Call → St
  | some c => { s with net := .free c c.group.names, calls := s.calls + 1 }
  | none => s

/-- The call returns early: the ARN has no region, or at the end a string is missing. -/
def abandons (s : St) : Option Group :=
  match s.net with
  | .dup c (.region :: _) => if c.text .region = none then some c.group else none
  | .dup c [] => if ∃ n ∈ c.group.names, s.statics n = none then some c.group else none
  | _ => none

/-- `s_.. = prv_strdup_len (..)` -/
def strdup (s : St) (n : Name) : St :=
  { s with
    blocks := alloc s.blocks ()
    origin := s.origin ++ [s.calls]
    statics := Function.update s.statics n (some s.blocks.length) }

/-- One instruction of the net thread. -/
def netStep (s : St) (ok : Bool) : Option St :=
  match s.net with
  | .idle => none
  | .free c (n :: todo) =>
    some { s with
      blocks := free s.blocks () (s.statics n)
      statics := Function.update s.statics n none
      net := .free c todo }
  | .free c [] => some { s with net := .dup c c.group.names }
  | .dup c (n :: todo) =>
    if (abandons s).isSome = true then some { s with net := .idle }
    else if (c.text n).isSome = true ∧ ok = true then some { strdup s n with net := .dup c todo }
    else some { s with net := .dup c todo }
  | .dup c [] =>
    if (abandons s).isSome = true then some { s with net := .idle }
    else some { s with net := .publish c c.group.names }
  | .publish c (n :: todo) =>
    some { s with
      published := Function.update s.published n (s.statics n)
      net := .publish c todo }
  | .publish c [] => some { s with ready := Function.update s.ready c.group true, net := .idle }

/-! ### The consumers -/

/-- Keep the published pointer. -/
def keep (s : St) (n : Name) : St := { s with held := Function.update s.held n (s.published n) }

/-- What `SignalingController_Task` reads before it listens. -/
def connectInfo : List (Name × Access) :=
  [(.region, .keep), (.region, .use), (.channel, .keep), (.channel, .use), (.endpoint, .keep),
    (.endpoint, .use), (.thing, .keep), (.thing, .use), (.roleAlias, .keep), (.roleAlias, .use)]

/-- One instruction of `prv_kvs_task`. -/
def kvsStep (s : St) (ok : Bool) : Option St :=
  match s.kvs with
  | .wait =>
    if s.ready .identity = true ∧ s.ready .credentials = true ∧ ok = true then
      some { s with kvs := .mediaInit }
    else some s
  -- the context is cleared before each attempt
  | .mediaInit =>
    some { s with held := fun _ => none, kvs := if ok = true then .cert else .mediaInit }
  | .cert => some { keep s .cert with kvs := .key }
  | .key => some { keep s .key with kvs := .signalingInit }
  | .signalingInit => some { s with kvs := if ok = true then .logChannel else .mediaInit }
  | .logChannel => some { s with kvs := .logRegion }
  | .logRegion => some { s with kvs := .start }
  -- the task deletes itself, whether the controller was created or not
  | .start => some { s with controller := if ok = true then some connectInfo else none, kvs := .ended }
  | .ended => none

/-- One read of the controller; while it listens, `GetIceServerList` reads the region. -/
def controllerStep (s : St) : Option St :=
  match s.controller with
  | none => none
  | some [] => some s
  | some ((n, .keep) :: todo) => some { keep s n with controller := some todo }
  | some ((_, .use) :: todo) => some { s with controller := some todo }

inductive Action (J : Type) where
  | identityHook (json : Option J) (clientId : Option (List UInt8))
  | setCredentials (cert key : Option (List UInt8))
  | net (ok : Bool)
  | kvs (ok : Bool)
  | controller

def step (s : St) : Action J → Option St
  | .identityHook json clientId =>
    match s.net with
    | .idle => some (begin s (identityHook json clientId))
    | _ => none
  | .setCredentials cert key =>
    match s.net with
    | .idle => some (begin s (setCredentials cert key))
    | _ => none
  | .net ok => netStep s ok
  | .kvs ok => kvsStep s ok
  | .controller => controllerStep s

end IotcRa8p1.Kvs.Identity
