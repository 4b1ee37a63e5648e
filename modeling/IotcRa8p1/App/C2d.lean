import IotcRa8p1.Lib.Machine
import IotcRa8p1.Kvs.Identity

/-!
# The download URL of a cloud message (`iotcl_c2d.c`)

An OTA or module message has an array `urls`.  `iotcl_c2d_get_ota_url` gives the URL of an entry,
`iotcl_c2d_get_ota_url_hostname` and `iotcl_c2d_get_ota_url_resource` the two parts of it.  The hostname is
allocated at the first call and kept in the event.

The event has a tree as cJSON gives it, over any functions that read it, and what `iotcl_malloc` answers is part of
the call.  What is only logged is left out.
-/

namespace IotcRa8p1.App.C2d

open CString Machine CJson
open Kvs.Identity (slash)

variable {J : Type} [Reader J]

/-! ### The accessors -/

/-- The message types that `iotcl_c2d_parse_json` lets through. -/
inductive EventType where
  | deviceCommand
  | deviceOta
  | moduleCommand
  | deviceCommand112
  | deviceCommand113
  deriving DecidableEq

/-- `IotclC2dEventDataTag` -/
structure EventData (J : Type) where
  root : J
  type : EventType
  hostname : Option (List UInt8)

/-- The event handed to the callback. -/
def eventOf (root : J) (type : EventType) : EventData J := ⟨root, type, none⟩

/-- `HTTPS_PREFIX` -/
def httpsPrefix : List UInt8 := ascii ['h', 't', 't', 'p', 's', ':', '/', '/']

/-- `iotcl_c2d_validate_data_and_type` -/
def validateDataAndType (data : EventData J) (expectedType : EventType) : Bool :=
  decide (data.type = expectedType) ||
    decide (expectedType = .deviceOta) && decide (data.type = .moduleCommand)

/-- `iotcl_c2d_get_string_value` -/
def getString (target : J) (name : List Char) : Option (List UInt8) :=
  getStringValue (getObjectItemCaseSensitive (some target) name)

/-- A child that is a string with the prefix. -/
def httpsChild (child : J) : Option (List UInt8) :=
  match getStringValue (some child) with
  | some value => if httpsPrefix.isPrefixOf value = true then some value else none
  | none => none

/-- `iotcl_c2d_url_from_array_item` -/
def urlFromArrayItem (item : J) : Option (List UInt8) :=
  if isString (some item) = true then getStringValue (some item)
  else
    match getString item ['u', 'r', 'l'] with
    | some url => some url
    | none => (children (some item)).findSome? httpsChild

/-- `iotcl_c2d_get_ota_url_array_item` -/
def getOtaUrlArrayItem (data : EventData J) (index : ℤ) : Option J :=
  if validateDataAndType data .deviceOta = false then none
  else
    let urls := getObjectItemCaseSensitive (some data.root) ['u', 'r', 'l', 's']
    if urls.isNone = true ∨ isArray urls = false then none
    else if index < 0 ∨ index < getArraySize urls then getArrayItem urls index
    else none

/-- `iotcl_c2d_get_ota_url` -/
def getOtaUrl (data : EventData J) (index : ℤ) : Option (List UInt8) :=
  if validateDataAndType data .deviceOta = false then none
  else (getOtaUrlArrayItem data index).bind urlFromArrayItem

/-- `resource_start`, behind the test for the prefix. -/
def resourceStart (url : List UInt8) : Option (List UInt8) :=
  if (strstr url httpsPrefix).isNone = true then none
  else strstr (url.drop httpsPrefix.length) [slash]

/-- The bytes from `host_start` to `resource_start`. -/
def hostnameBefore (url resource : List UInt8) : List UInt8 :=
  let host := url.drop httpsPrefix.length
  host.take (host.length - resource.length)

/-- `iotcl_c2d_get_ota_url_hostname`, with the event behind it. -/
def getOtaUrlHostname (data : EventData J) (index : ℤ) (malloc : Bool) :
    Option (List UInt8) × EventData J :=
  if validateDataAndType data .deviceOta = false then (none, data)
  else
    match data.hostname with
    | some hostname => (some hostname, data)
    | none =>
      match (getOtaUrlArrayItem data index).bind urlFromArrayItem with
      | none => (none, data)
      | some url =>
        match resourceStart url with
        | none => (none, data)
        | some resource =>
          if malloc = true then
            (some (hostnameBefore url resource),
              { data with hostname := some (hostnameBefore url resource) })
          else (none, data)

/-- `iotcl_c2d_get_ota_url_resource` -/
def getOtaUrlResource (data : EventData J) (index : ℤ) : Option (List UInt8) :=
  if validateDataAndType data .deviceOta = false then none
  else ((getOtaUrlArrayItem data index).bind urlFromArrayItem).bind resourceStart

/-! ### Histories of calls -/

inductive Call where
  | url (index : ℤ)
  | hostname (index : ℤ) (malloc : Bool)
  | resource (index : ℤ)
  deriving DecidableEq

def callStep (data : EventData J) : Call → Option (EventData J)
  | .url _ => some data
  | .hostname index malloc => some (getOtaUrlHostname data index malloc).2
  | .resource _ => some data

/-- The two parts make up the URL, and a URL without the prefix has neither. -/
structure Lossless (data : EventData J) : Prop where
  whole : ∀ index malloc hostname resource,
    (getOtaUrlHostname data index malloc).1 = some hostname →
    getOtaUrlResource data index = some resource →
    getOtaUrl data index = some (httpsPrefix ++ hostname ++ resource)
  refused : ∀ index malloc url, getOtaUrl data index = some url → ¬ httpsPrefix <+: url →
    (getOtaUrlHostname data index malloc).1 = none ∧ getOtaUrlResource data index = none

/-- The URLs of the entries. -/
def urls (data : EventData J) : List (List UInt8) :=
  if validateDataAndType data .deviceOta = false then []
  else
    let urls := getObjectItemCaseSensitive (some data.root) ['u', 'r', 'l', 's']
    if urls.isNone = true ∨ isArray urls = false then []
    else (List.range (getArraySize urls).toNat).filterMap fun i : ℕ => (getArrayItem urls i).bind urlFromArrayItem

variable (J) in
/-- `cJSON_GetArrayItem` gives NULL for a negative index. -/
def RefusesNegative : Prop := ∀ (array : Option J) (index : ℤ), index < 0 → getArrayItem array index = none

/-- The text between offset 8 and the next slash of a URL with the prefix anywhere in it. -/
def hostnameIn (url : List UInt8) : Option (List UInt8) :=
  (resourceStart url).map (hostnameBefore url)

/-- When one of the URLs can be split, all of them start with the prefix, and all that can be split have the
same hostname. -/
def OneHost (urls : List (List UInt8)) : Prop :=
  ∀ u ∈ urls, ∀ hostname ∈ hostnameIn u, ∀ v ∈ urls,
    httpsPrefix <+: v ∧ ∀ other ∈ hostnameIn v, other = hostname

instance (urls : List (List UInt8)) : Decidable (OneHost urls) :=
  inferInstanceAs (Decidable (∀ u ∈ urls, ∀ hostname ∈ hostnameIn u, ∀ v ∈ urls, _))

/-! ### What the accessors read -/

/-- The URL of an entry, as all three accessors find it. -/
def itemUrl (data : EventData J) (index : ℤ) : Option (List UInt8) :=
  (getOtaUrlArrayItem data index).bind urlFromArrayItem

theorem itemUrl_of_invalid {data : EventData J} (h : validateDataAndType data .deviceOta = false)
    (index : ℤ) : itemUrl data index = none := by
  rw [itemUrl, getOtaUrlArrayItem, if_pos h]
  rfl

theorem valid_of_itemUrl {data : EventData J} {index : ℤ} {url : List UInt8}
    (h : itemUrl data index = some url) : ¬ validateDataAndType data .deviceOta = false := by
  intro hvalid
  rw [itemUrl_of_invalid hvalid] at h
  contradiction

theorem getOtaUrl_eq (data : EventData J) (index : ℤ) : getOtaUrl data index = itemUrl data index := by
  rw [getOtaUrl]
  split_ifs with hvalid
  · exact (itemUrl_of_invalid hvalid index).symm
  · rfl

theorem getOtaUrlResource_eq (data : EventData J) (index : ℤ) :
    getOtaUrlResource data index = (itemUrl data index).bind resourceStart := by
  rw [getOtaUrlResource]
  split_ifs with hvalid
  · rw [itemUrl_of_invalid hvalid index]
    rfl
  · rfl

/-- The hostname is the one kept in the event, or that of the entry. -/
theorem getOtaUrlHostname_eq (data : EventData J) (index : ℤ) (malloc : Bool) :
    getOtaUrlHostname data index malloc =
      if validateDataAndType data .deviceOta = false then (none, data)
      else
        match data.hostname, (itemUrl data index).bind hostnameIn with
        | some hostname, _ => (some hostname, data)
        | none, none => (none, data)
        | none, some hostname =>
          if malloc = true then (some hostname, { data with hostname := some hostname })
          else (none, data) := by
  rw [getOtaUrlHostname, ← itemUrl]
  by_cases hvalid : validateDataAndType data .deviceOta = false
  · rw [if_pos hvalid, if_pos hvalid]
  · rw [if_neg hvalid, if_neg hvalid]
    cases hkept : data.hostname with
    | some hostname => rfl
    | none =>
      cases hurl : itemUrl data index with
      | none => rfl
      | some url =>
        simp only [Option.bind_some, hostnameIn]
        cases hresource : resourceStart url <;> rfl

theorem mem_urls_iff (hnegative : RefusesNegative J) {data : EventData J} {url : List UInt8} :
    url ∈ urls data ↔ ∃ index, itemUrl data index = some url := by
  unfold urls itemUrl getOtaUrlArrayItem
  by_cases hvalid : validateDataAndType data .deviceOta = false
  · simp [hvalid]
  simp only [if_neg hvalid]
  generalize getObjectItemCaseSensitive (some data.root) ['u', 'r', 'l', 's'] = array
  by_cases harray : array.isNone = true ∨ isArray array = false
  · simp only [if_pos harray, List.not_mem_nil, Option.bind_none, reduceCtorEq, exists_false]
  simp only [if_neg harray, List.mem_filterMap, List.mem_range]
  constructor
  · rintro ⟨i, hlt, hurl⟩
    have hin : (i : ℤ) < getArraySize array := by omega
    exact ⟨i, by rwa [if_pos (Or.inr hin)]⟩
  · rintro ⟨index, hurl⟩
    by_cases hneg : index < 0
    · rw [if_pos (Or.inl hneg), hnegative _ _ hneg] at hurl
      contradiction
    by_cases hin : index < getArraySize array
    · rw [if_pos (Or.inr hin)] at hurl
      refine ⟨index.toNat, by omega, ?_⟩
      rwa [Int.toNat_of_nonneg (Int.not_lt.mp hneg)]
    · rw [if_neg (not_or.mpr ⟨hneg, hin⟩)] at hurl
      contradiction

/-- A URL with the prefix is put together again from its parts. -/
theorem append_parts {url hostname resource : List UInt8} (hbegins : httpsPrefix <+: url)
    (hhost : hostnameIn url = some hostname) (hresource : resourceStart url = some resource) :
    httpsPrefix ++ hostname ++ resource = url := by
  rw [hostnameIn, hresource, Option.map_some] at hhost
  obtain rfl := Option.some.inj hhost
  obtain ⟨rest, rfl⟩ := hbegins
  rw [resourceStart] at hresource
  split_ifs at hresource
  rw [List.append_assoc, hostnameBefore, take_append_strstr hresource, List.drop_left]

/-! ### The kept hostname -/

/-- The kept hostname is that of some entry. -/
def Kept (data : EventData J) : Prop :=
  ∀ hostname, data.hostname = some hostname → ∃ url ∈ urls data, hostnameIn url = some hostname

theorem kept_eventOf (root : J) (type : EventType) : Kept (eventOf root type) := by
  intro hostname h
  simp [eventOf] at h

/-- The event behind a call. -/
theorem getOtaUrlHostname_data (hnegative : RefusesNegative J) (data : EventData J) (index : ℤ) (malloc : Bool) :
    (getOtaUrlHostname data index malloc).2 = data ∨
      ∃ url ∈ urls data, ∃ hostname, hostnameIn url = some hostname ∧
        (getOtaUrlHostname data index malloc).2 = { data with hostname := some hostname } := by
  rw [getOtaUrlHostname_eq]
  by_cases hvalid : validateDataAndType data .deviceOta = false
  · rw [if_pos hvalid]
    exact Or.inl rfl
  · rw [if_neg hvalid]
    cases hkept : data.hostname with
    | some hostname => exact Or.inl rfl
    | none =>
      cases hhost : (itemUrl data index).bind hostnameIn with
      | none => exact Or.inl rfl
      | some hostname =>
        cases malloc with
        | false => exact Or.inl rfl
        | true =>
          obtain ⟨url, hurl, hin⟩ := Option.bind_eq_some_iff.mp hhost
          exact Or.inr ⟨url, (mem_urls_iff hnegative).mpr ⟨index, hurl⟩, hostname, hin, rfl⟩

/-- The answer is the kept hostname or that of the entry. -/
theorem getOtaUrlHostname_some {data : EventData J} {index : ℤ} {malloc : Bool} {hostname : List UInt8}
    (h : (getOtaUrlHostname data index malloc).1 = some hostname) :
    data.hostname = some hostname ∨ ∃ url, itemUrl data index = some url ∧
      hostnameIn url = some hostname := by
  rw [getOtaUrlHostname_eq] at h
  by_cases hvalid : validateDataAndType data .deviceOta = false
  · rw [if_pos hvalid] at h
    contradiction
  · rw [if_neg hvalid] at h
    cases hkept : data.hostname with
    | some kept =>
      rw [hkept] at h
      exact Or.inl h
    | none =>
      cases hhost : (itemUrl data index).bind hostnameIn with
      | none =>
        rw [hkept, hhost] at h
        contradiction
      | some found =>
        rw [hkept, hhost] at h
        cases malloc with
        | false => contradiction
        | true =>
          obtain rfl := Option.some.inj h
          exact Or.inr (Option.bind_eq_some_iff.mp hhost)

theorem kept_step (hnegative : RefusesNegative J) {data data' : EventData J} {call : Call} (hkept : Kept data)
    (hstep : callStep data call = some data') : urls data' = urls data ∧ Kept data' := by
  cases call with
  | url index | resource index =>
    obtain rfl := Option.some.inj hstep
    exact ⟨rfl, hkept⟩
  | hostname index malloc =>
    obtain rfl := Option.some.inj hstep
    obtain hdata | ⟨url, hmem, hostname, hin, hdata⟩ := getOtaUrlHostname_data hnegative data index malloc
    · rw [hdata]
      exact ⟨rfl, hkept⟩
    · rw [hdata]
      refine ⟨rfl, fun other hother => ⟨url, hmem, ?_⟩⟩
      rw [hin]
      exact hother

/-! ### The split -/

/-- One host is enough. -/
theorem lossless_of_oneHost (hnegative : RefusesNegative J) {data : EventData J} (hone : OneHost (urls data))
    (hkept : Kept data) :
    Lossless data := by
  -- a hostname that an accessor gives is that of some entry
  have hanswer {index : ℤ} {malloc : Bool} {hostname : List UInt8}
      (h : (getOtaUrlHostname data index malloc).1 = some hostname) :
      ∃ url ∈ urls data, hostnameIn url = some hostname := by
    obtain hdata | ⟨url, hurl, hin⟩ := getOtaUrlHostname_some h
    · exact hkept hostname hdata
    · exact ⟨url, (mem_urls_iff hnegative).mpr ⟨index, hurl⟩, hin⟩
  constructor
  · intro index malloc hostname resource hhost hresource
    obtain ⟨u, hu, hin⟩ := hanswer hhost
    rw [getOtaUrlResource_eq] at hresource
    obtain ⟨v, hv, hstart⟩ := Option.bind_eq_some_iff.mp hresource
    obtain ⟨hbegins, hsame⟩ := hone u hu hostname hin v ((mem_urls_iff hnegative).mpr ⟨index, hv⟩)
    have hother : hostnameIn v = some (hostnameBefore v resource) := by
      rw [hostnameIn, hstart]
      rfl
    rw [getOtaUrl_eq, hv, ← hsame _ hother, append_parts hbegins hother hstart]
  · intro index malloc v hv hnot
    rw [getOtaUrl_eq] at hv
    -- no entry has a hostname
    have hnone (u : List UInt8) (hu : u ∈ urls data) : hostnameIn u = none := by
      cases hin : hostnameIn u with
      | none => rfl
      | some hostname =>
        exact absurd (hone u hu hostname hin v ((mem_urls_iff hnegative).mpr ⟨index, hv⟩)).1 hnot
    constructor
    · cases hhost : (getOtaUrlHostname data index malloc).1 with
      | none => rfl
      | some hostname =>
        obtain ⟨u, hu, hin⟩ := hanswer hhost
        rw [hnone u hu] at hin
        contradiction
    · have hin := hnone v ((mem_urls_iff hnegative).mpr ⟨index, hv⟩)
      rw [getOtaUrlResource_eq, hv]
      exact Option.map_eq_none_iff.mp hin

/-- A call for an entry with a hostname keeps it. -/
theorem getOtaUrlHostname_keeps {data : EventData J} {index : ℤ} {url hostname : List UInt8}
    (hnone : data.hostname = none) (hurl : itemUrl data index = some url)
    (hin : hostnameIn url = some hostname) :
    (getOtaUrlHostname data index true).2 = { data with hostname := some hostname } := by
  rw [getOtaUrlHostname_eq, if_neg (valid_of_itemUrl hurl), hnone, hurl, Option.bind_some, hin]
  rfl

/-- And the next ones get it, whatever their entry. -/
theorem getOtaUrlHostname_kept {data : EventData J} {index i : ℤ} {url hostname : List UInt8}
    (hkept : data.hostname = some hostname) (hurl : itemUrl data i = some url) (malloc : Bool) :
    (getOtaUrlHostname data index malloc).1 = some hostname := by
  rw [getOtaUrlHostname_eq, if_neg (valid_of_itemUrl hurl), hkept]

/-- And it is needed. -/
theorem oneHost_of_lossless (hnegative : RefusesNegative J) {data : EventData J} (hnone : data.hostname = none)
    (h : ∀ calls data', runs callStep calls data = some data' → Lossless data') :
    OneHost (urls data) := by
  intro u hu hostname hin v hv
  obtain ⟨i, hi⟩ := (mem_urls_iff hnegative).mp hu
  obtain ⟨j, hj⟩ := (mem_urls_iff hnegative).mp hv
  have hrun : runs callStep [.hostname i true] data =
      some { data with hostname := some hostname } := by
    rw [runs_cons, callStep, getOtaUrlHostname_keeps hnone hi hin]
    rfl
  have hlossless := h _ _ hrun
  have hj' : itemUrl { data with hostname := some hostname } j = some v := hj
  have hhost : (getOtaUrlHostname { data with hostname := some hostname } j true).1 = some hostname :=
    getOtaUrlHostname_kept rfl hj' true
  have hurl : getOtaUrl { data with hostname := some hostname } j = some v :=
    (getOtaUrl_eq _ j).trans hj'
  have hbegins : httpsPrefix <+: v := by
    by_contra hnot
    have hrefused := (hlossless.refused j true v hurl hnot).1
    rw [hhost] at hrefused
    contradiction
  refine ⟨hbegins, fun other hother => ?_⟩
  obtain ⟨resource, hresource, -⟩ := Option.map_eq_some_iff.mp hother
  have hres : getOtaUrlResource { data with hostname := some hostname } j = some resource := by
    rw [getOtaUrlResource_eq]
    exact Option.bind_eq_some_iff.mpr ⟨v, hj', hresource⟩
  have hwhole := hlossless.whole j true hostname resource hhost hres
  rw [hurl] at hwhole
  have hparts := (append_parts hbegins hother hresource).trans (Option.some.inj hwhole)
  exact List.append_cancel_left (List.append_cancel_right hparts)

/-- **The split of a URL.**  In every history of calls for an event the parts make up the URL, and a URL
without the prefix is refused, exactly when its URLs have one host. -/
theorem split_lossless_iff (hnegative : RefusesNegative J) (root : J) (type : EventType) :
    (∀ calls data, runs callStep calls (eventOf root type) = some data → Lossless data) ↔
      OneHost (urls (eventOf root type)) := by
  constructor
  · exact oneHost_of_lossless hnegative rfl
  · intro hone calls data hrun
    have hmeets : Meets callStep (fun _ _ => True) calls (eventOf root type) :=
      meets_of_forall (fun _ _ _ => trivial) _
    have hinv : urls data = urls (eventOf root type) ∧ Kept data :=
      runs_invariant (I := fun data => urls data = urls (eventOf root type) ∧ Kept data)
        (fun hs _ hstep => ⟨(kept_step hnegative hs.2 hstep).1.trans hs.1, (kept_step hnegative hs.2 hstep).2⟩)
        ⟨rfl, kept_eventOf root type⟩ hmeets hrun
    exact lossless_of_oneHost hnegative (hinv.1 ▸ hone) hinv.2

example : ¬ OneHost [httpsPrefix ++ ascii ['a', '/'], httpsPrefix ++ ascii ['b', '/']] := by decide

theorem refusesNegative_json : RefusesNegative Json := fun _ _ h => if_pos h

/-- Two entries of one host, one of them an object. -/
def oneHostRoot : Json :=
  .object [(lit "urls", .array [.string (lit "https://a/x"), .object [(lit "url", .string (lit "https://a/y"))]])]

/-- After a call for the second entry the hostname is kept, and the split is lossless. -/
theorem split_lossless_oneHost : ∃ data,
    runs callStep [.hostname 1 true, .resource 0] (eventOf oneHostRoot .moduleCommand) = some data ∧
      data.hostname = some (lit "a") ∧ Lossless data := by
  have hlossless := (split_lossless_iff refusesNegative_json oneHostRoot .moduleCommand).mpr (by decide)
  exact ⟨_, rfl, by decide, hlossless [.hostname 1 true, .resource 0] _ rfl⟩

/-- A URL of another scheme that has the prefix in its query. -/
def queryRoot : Json :=
  .object [(lit "urls", .array [.string (lit "http://a/?u=https://")])]

theorem split_otherScheme : ¬ ∀ (root : Json) type calls data,
    runs callStep calls (eventOf root type) = some data → Lossless data := by
  intro h
  have hrefused := (h queryRoot .deviceOta [] _ rfl).refused 0 true _ rfl (by decide)
  exact absurd hrefused.2 (by decide)

end IotcRa8p1.App.C2d
