import IotcRa8p1.App.FileUpload

/-!
# The announce of an upload (`iotc_file_upload.c`)

The announce is a tree of four nodes that are made first and tied together afterwards.  No call is checked: what
could not be made is missing in the message.  `announcedUrl_iff` says when the message names the file, of any functions
of cJSON that do what is documented.
-/

namespace IotcRa8p1.App.FileUpload

open CString SigV4 AssumeRole CJson

variable {S N : Type} [Builder S N]

/-- A path that passes the test has no NUL in it. -/
theorem cstr_of_keyIsClean {s : List UInt8} (h : keyIsClean s = true) : cstr s = s := by
  apply cstr_of_clean
  intro c hc hzero
  have hok := List.all_eq_true.mp h c hc
  rw [hzero] at hok
  exact absurd hok (by decide)

/-- The path in the announce, `d[0].d.url`. -/
def announcedUrl [Reader (S × N)] (msg : Message S N) : Option (List UInt8) :=
  let root := msg.root.map (msg.heap, ·)
  getStringValue (getObjectItem (getObjectItem (getArrayItem (getObjectItem root ['d']) 0) ['d']) ['u', 'r', 'l'])

/-- The nodes of the announce, with what they hold. -/
structure Built (s : S) (root : N) (arr item drec : Option N) (xs : List N) (im dm : List (List UInt8 × N)) :
    Prop where
  root_node : node s root = some (.object (arr.toList.map fun a => (ascii ['d'], a)))
  arr_node : ∀ a, arr = some a → node s a = some (.array xs)
  item_node : ∀ i, item = some i → node s i = some (.object im)
  drec_node : ∀ d, drec = some d → node s d = some (.object dm)
  root_item : item ≠ some root
  root_drec : drec ≠ some root
  item_drec : ∀ i, item = some i → drec ≠ some i

section

variable {s s' : S} {root : N} {arr item drec : Option N} {xs : List N} {im dm : List (List UInt8 × N)}

/-- A node that holds something else is another one. -/
theorem ne_of_node {p q : N} {v w : Node N} (hp : node s p = some v) (hq : node s q = some w) (h : v ≠ w) :
    p ≠ q := by
  rintro rfl
  exact h (Option.some.inj (hp.symm.trans hq))

theorem Built.keeps (h : Built s root arr item drec xs im dm) (hkeeps : Keeps s s') :
    Built s' root arr item drec xs im dm where
  root_node := hkeeps _ _ h.root_node
  arr_node a ha := hkeeps _ _ (h.arr_node a ha)
  item_node i hi := hkeeps _ _ (h.item_node i hi)
  drec_node d hd := hkeeps _ _ (h.drec_node d hd)
  root_item := h.root_item
  root_drec := h.root_drec
  item_drec := h.item_drec

/-- The array gets other entries. -/
theorem Built.setArr {a : N} {xs' : List N} (h : Built s root (some a) item drec xs im dm)
    (hnode : node s' a = some (.array xs')) (hkeeps : KeepsBut a s s') :
    Built s' root (some a) item drec xs' im dm := by
  have ha := h.arr_node a rfl
  refine ⟨hkeeps _ _ (ne_of_node h.root_node ha nofun) h.root_node, fun b hb => ?_, fun i hi => ?_, fun d hd => ?_,
    h.root_item, h.root_drec, h.item_drec⟩
  · rw [← Option.some.inj hb]
    exact hnode
  · exact hkeeps _ _ (ne_of_node (h.item_node i hi) ha nofun) (h.item_node i hi)
  · exact hkeeps _ _ (ne_of_node (h.drec_node d hd) ha nofun) (h.drec_node d hd)

/-- The entry gets other members. -/
theorem Built.setItem {i : N} {im' : List (List UInt8 × N)} (h : Built s root arr (some i) drec xs im dm)
    (hnode : node s' i = some (.object im')) (hkeeps : KeepsBut i s s') :
    Built s' root arr (some i) drec xs im' dm := by
  have hi := h.item_node i rfl
  refine ⟨hkeeps _ _ (fun heq => h.root_item (congrArg some heq.symm)) h.root_node, fun a ha => ?_, fun j hj => ?_,
    fun d hd => ?_, h.root_item, h.root_drec, h.item_drec⟩
  · exact hkeeps _ _ (ne_of_node (h.arr_node a ha) hi nofun) (h.arr_node a ha)
  · rw [← Option.some.inj hj]
    exact hnode
  · exact hkeeps _ _ (fun heq => h.item_drec i rfl (heq ▸ hd)) (h.drec_node d hd)

/-- The record gets other members. -/
theorem Built.setDrec {d : N} {dm' : List (List UInt8 × N)} (h : Built s root arr item (some d) xs im dm)
    (hnode : node s' d = some (.object dm')) (hkeeps : KeepsBut d s s') :
    Built s' root arr item (some d) xs im dm' := by
  have hd := h.drec_node d rfl
  refine ⟨hkeeps _ _ (fun heq => h.root_drec (congrArg some heq.symm)) h.root_node, fun a ha => ?_, fun i hi => ?_,
    fun e he => ?_, h.root_item, h.root_drec, h.item_drec⟩
  · exact hkeeps _ _ (ne_of_node (h.arr_node a ha) hd nofun) (h.arr_node a ha)
  · exact hkeeps _ _ (fun heq => h.item_drec i hi (congrArg some heq.symm)) (h.item_node i hi)
  · rw [← Option.some.inj he]
    exact hnode

/-! ### Building it -/

variable [Reader (S × N)]

variable (hdoc : Builder.Documented S)
include hdoc

/-- The four nodes, before anything is in them. -/
theorem built_start (heap : S) (okArr okItem okDrec : Bool) :
    ∃ root, (createObject true heap).1 = some root ∧
      let arr := addArrayToObject (some root) ['d'] okArr (createObject true heap).2
      let item := createObject okItem arr.2
      let drec := createObject okDrec item.2
      arr.1.isSome = okArr ∧ item.1.isSome = okItem ∧ drec.1.isSome = okDrec ∧
        Built drec.2 root arr.1 item.1 drec.1 [] [] [] := by
  obtain ⟨hroot, -⟩ := hdoc.createObject_new true heap
  obtain ⟨root, hr⟩ := Option.isSome_iff_exists.mp hroot.isSome
  refine ⟨root, hr, ?_⟩
  intro arr item drec
  obtain ⟨harr, happends⟩ := hdoc.addArrayToObject_object ['d'] okArr (hroot.new root hr).2
  obtain ⟨hitem, hkeeps⟩ := hdoc.createObject_new okItem arr.2
  obtain ⟨hdrec, hkeeps'⟩ := hdoc.createObject_new okDrec item.2
  -- a new node is none of those that are there
  have hfresh {s : S} {p q : N} {v : Node N} (hp : node s p = some v) (hq : node s q = none) : q ≠ p := by
    rintro rfl
    rw [hp] at hq
    contradiction
  refine ⟨harr.isSome, hitem.isSome, hdrec.isSome, ?_, fun a ha => ?_, fun i hi => ?_, fun d hd => ?_, fun hi => ?_,
    fun hd => ?_, fun i hi hd => ?_⟩
  · exact hkeeps' _ _ (hkeeps _ _ happends.object)
  · exact hkeeps' _ _ (hkeeps _ _ (harr.new a ha).2)
  · exact hkeeps' _ _ (hitem.new i hi).2
  · exact (hdrec.new d hd).2
  · exact hfresh happends.object (hitem.new root hi).1 rfl
  · exact hfresh (hkeeps _ _ happends.object) (hdrec.new root hd).1 rfl
  · exact hfresh (hitem.new i hi).2 (hdrec.new i hd).1 rfl

/-- The time stamp goes under a name of its own. -/
theorem Built.addTime (h : Built s root arr item drec xs im dm) (io : JsonAnswer S) :
    ∃ dt : List (List UInt8 × N), (∀ m ∈ dt, m.1 = ascii ['d', 't']) ∧
      Built (addTime io item s) root arr item drec xs (im ++ dt) dm := by
  unfold FileUpload.addTime
  cases io.now with
  | none => exact ⟨[], nofun, by rwa [List.append_nil]⟩
  | some tsIso =>
    cases item with
    | none => exact ⟨[], nofun, by rw [List.append_nil]; exact h.keeps (hdoc.addStringToObject_null _ _ _ _)⟩
    | some i =>
      obtain ⟨-, happends⟩ := hdoc.addStringToObject_object ['d', 't'] tsIso io.addDt (h.item_node i rfl)
      refine ⟨_, fun m hm => ?_, h.setItem happends.object happends.keeps⟩
      obtain ⟨q, -, rfl⟩ := List.mem_map.mp hm
      rfl

/-- So does the classification. -/
theorem Built.addClassification (h : Built s root arr item drec xs im dm) (job : Job) (io : JsonAnswer S) :
    ∃ cf : List (List UInt8 × N), (∀ m ∈ cf, m.1 = ascii ['c', 'f']) ∧
      Built (addClassification job io drec s) root arr item drec xs im (dm ++ cf) := by
  unfold FileUpload.addClassification
  cases job.cfJson with
  | none => exact ⟨[], nofun, by rwa [List.append_nil]⟩
  | some cfJson =>
    obtain ⟨hkeeps, hnew⟩ := hdoc.parse_new cfJson io.cf s
    have h' := h.keeps hkeeps
    rcases hparse : parse cfJson io.cf s with ⟨cf, t⟩
    rw [hparse] at hnew h'
    dsimp only at hnew h' ⊢
    rw [hparse]
    cases drec with
    | none =>
      refine ⟨[], nofun, ?_⟩
      rw [List.append_nil]
      cases cf with
      | none => exact h'.keeps (hdoc.addStringToObject_null _ _ _ _)
      | some c => exact h'.keeps (hdoc.addItemToObject_null _ _ _ _ _ (Or.inl rfl))
    | some d =>
      have happends : ∃ q : Option N, Appends t (match cf with
          | some cf => addItemToObject (some d) ['c', 'f'] (some cf) io.addCf t
          | none => (addStringToObject (some d) ['c', 'f'] cfJson io.addCf t).2) d dm ['c', 'f'] q := by
        cases cf with
        | none => exact ⟨_, (hdoc.addStringToObject_object ['c', 'f'] cfJson io.addCf (h'.drec_node d rfl)).2⟩
        | some c =>
          have hne : c ≠ d := by
            rintro rfl
            have hnone := hnew c rfl
            rw [h.drec_node c rfl] at hnone
            contradiction
          exact ⟨_, hdoc.addItemToObject_object ['c', 'f'] io.addCf (h'.drec_node d rfl) hne⟩
      obtain ⟨q, happends⟩ := happends
      refine ⟨q.toList.map fun q => (ascii ['c', 'f'], q), fun m hm => ?_, ?_⟩
      · obtain ⟨q, -, rfl⟩ := List.mem_map.mp hm
        rfl
      · cases cf with
        | none => exact h'.setDrec happends.object happends.keeps
        | some c => exact h'.setDrec happends.object happends.keeps

/-- The path becomes a string of the record. -/
theorem Built.addUrl (h : Built s root arr item drec xs im dm) (relPath : List UInt8) (ok : Bool) :
    ∃ url : Option N, (drec.isSome = true → url.isSome = ok) ∧
      (∀ u, url = some u →
        node (addStringToObject drec ['u', 'r', 'l'] relPath ok s).2 u = some (.string (cstr relPath))) ∧
      Built (addStringToObject drec ['u', 'r', 'l'] relPath ok s).2 root arr item drec xs im
        (dm ++ url.toList.map fun u => (ascii ['u', 'r', 'l'], u)) := by
  cases drec with
  | none =>
    refine ⟨none, nofun, nofun, ?_⟩
    rw [Option.toList_none, List.map_nil, List.append_nil]
    exact h.keeps (hdoc.addStringToObject_null _ _ _ _)
  | some d =>
    obtain ⟨hurl, happends⟩ := hdoc.addStringToObject_object ['u', 'r', 'l'] relPath ok (h.drec_node d rfl)
    exact ⟨_, fun _ => hurl.isSome, fun u hu => (hurl.new u hu).2, h.setDrec happends.object happends.keeps⟩

/-- The strings stay as they are. -/
def KeepsStrings (s s' : S) : Prop := ∀ u text, node s u = some (.string text) → node s' u = some (.string text)

/-- The record goes into the entry. -/
theorem Built.addDrec (h : Built s root arr item drec xs im dm) (ok : Bool) :
    Built (addItemToObject item ['d'] drec ok s) root arr item drec xs
        (im ++ (if ok then drec else none).toList.map fun d => (ascii ['d'], d)) dm ∧
      KeepsStrings s (addItemToObject item ['d'] drec ok s) := by
  cases item with
  | none =>
    have hkeeps := hdoc.addItemToObject_null none drec ['d'] ok s (Or.inl rfl)
    obtain ⟨h1, h2, -, h4, h5, h6, h7⟩ := h.keeps hkeeps
    exact ⟨⟨h1, h2, nofun, h4, h5, h6, h7⟩, fun u text hu => hkeeps u _ hu⟩
  | some i =>
    cases drec with
    | none =>
      have hkeeps := hdoc.addItemToObject_null (some i) none ['d'] ok s (Or.inr rfl)
      refine ⟨?_, fun u text hu => hkeeps u _ hu⟩
      rw [ite_self, Option.toList_none, List.map_nil, List.append_nil]
      exact h.keeps hkeeps
    | some d =>
      have hne : d ≠ i := by
        rintro rfl
        exact h.item_drec d rfl rfl
      have happends := hdoc.addItemToObject_object ['d'] ok (h.item_node i rfl) hne
      refine ⟨h.setItem happends.object happends.keeps, fun u text hu => ?_⟩
      exact happends.keeps u _ (ne_of_node hu (h.item_node i rfl) nofun) hu

/-- The entry goes into the array. -/
theorem Built.addItem (h : Built s root arr item drec [] im dm) :
    Built (addItemToArray arr item s) root arr item drec item.toList im dm ∧
      KeepsStrings s (addItemToArray arr item s) := by
  cases arr with
  | none =>
    have hkeeps := hdoc.addItemToArray_null none item s (Or.inl rfl)
    obtain ⟨h1, -, h3, h4, h5, h6, h7⟩ := h.keeps hkeeps
    exact ⟨⟨h1, nofun, h3, h4, h5, h6, h7⟩, fun u text hu => hkeeps u _ hu⟩
  | some a =>
    cases item with
    | none =>
      have hkeeps := hdoc.addItemToArray_null (some a) none s (Or.inr rfl)
      exact ⟨h.keeps hkeeps, fun u text hu => hkeeps u _ hu⟩
    | some i =>
      have hne : i ≠ a := ne_of_node (h.item_node i rfl) (h.arr_node a rfl) nofun
      obtain ⟨hnode, hkeeps⟩ := hdoc.addItemToArray_array (h.arr_node a rfl) hne
      exact ⟨h.setArr hnode hkeeps, fun u text hu => hkeeps u _ (ne_of_node hu (h.arr_node a rfl) nofun) hu⟩

/-! ### Reading it -/

/-- A member behind members of other names. -/
theorem getObjectItem_behind {p : N} (others : List (List UInt8 × N)) {name : List Char} {q : Option N}
    (hnode : node s p = some (.object (others ++ q.toList.map fun q => (ascii name, q))))
    (hothers : ∀ m ∈ others, sameName m.1 name = false) (hname : sameName (ascii name) name = true) :
    getObjectItem (some (s, p)) name = q.map (s, ·) := by
  have hnone : (others.find? fun m => sameName m.1 name) = none :=
    List.find?_eq_none.mpr fun m hm => by simp [hothers m hm]
  rw [hdoc.getObjectItem_object name hnode, List.find?_append, hnone, Option.none_or]
  cases q with
  | none => rfl
  | some q => simp [hname]

/-- What a reader finds under `d[0].d.url`. -/
theorem Built.announcedUrl {dt cf : List (List UInt8 × N)} {record url : Option N} {path : List UInt8}
    (h : Built s root arr item drec item.toList (dt ++ record.toList.map fun d => (ascii ['d'], d))
      (cf ++ url.toList.map fun u => (ascii ['u', 'r', 'l'], u)))
    (hdt : ∀ m ∈ dt, m.1 = ascii ['d', 't']) (hcf : ∀ m ∈ cf, m.1 = ascii ['c', 'f'])
    (hrecord : ∀ d, record = some d → drec = some d) (hurl : ∀ u, url = some u → node s u = some (.string path))
    (text : List UInt8) :
    announcedUrl ⟨text, s, some root⟩ =
      if arr.isSome && item.isSome && record.isSome && url.isSome then some path else none := by
  have hroot : getObjectItem (some (s, root)) ['d'] = arr.map (s, ·) :=
    getObjectItem_behind hdoc [] h.root_node nofun (by decide)
  rw [FileUpload.announcedUrl, Option.map_some, hroot]
  cases arr with
  | none => simp [hdoc.getArrayItem_null, hdoc.getObjectItem_null, hdoc.getStringValue_null]
  | some a =>
    have harr : getArrayItem (some (s, a)) 0 = item.map (s, ·) := by
      rw [show (0 : ℤ) = (0 : ℕ) from rfl, hdoc.getArrayItem_array 0 (h.arr_node a rfl)]
      cases item <;> rfl
    rw [Option.map_some, harr]
    cases item with
    | none => simp [hdoc.getObjectItem_null, hdoc.getStringValue_null]
    | some i =>
      have hitem : getObjectItem (some (s, i)) ['d'] = record.map (s, ·) :=
        getObjectItem_behind hdoc dt (h.item_node i rfl) (fun m hm => by rw [hdt m hm]; decide) (by decide)
      rw [Option.map_some, hitem]
      cases record with
      | none => simp [hdoc.getObjectItem_null, hdoc.getStringValue_null]
      | some d =>
        have hd : getObjectItem (some (s, d)) ['u', 'r', 'l'] = url.map (s, ·) :=
          getObjectItem_behind hdoc cf (h.drec_node d (hrecord d rfl)) (fun m hm => by rw [hcf m hm]; decide)
            (by decide)
        rw [Option.map_some, hd]
        cases url with
        | none => simp [hdoc.getStringValue_null]
        | some u => simp [hdoc.getStringValue_string (hurl u rfl)]

/-! ### The message -/

/-- The announce is printed. -/
def JsonAnswer.printed (io : JsonAnswer S) : Bool := io.root && io.print

/-- Nothing that carries the path is missing. -/
def JsonAnswer.named (io : JsonAnswer S) : Bool := io.arr && io.item && io.drec && io.addUrl && io.addD

theorem announceMessage_isSome (job : Job) (io : JsonAnswer S) : (announceMessage job io).isSome = io.printed := by
  have hprint := hdoc.printUnformatted_isSome (createObject io.root io.heap).1 io.print
  rw [(hdoc.createObject_new io.root io.heap).1.isSome] at hprint
  rw [announceMessage, tieAnnounce, Option.isSome_map]
  exact hprint _

theorem tieAnnounce_url {job : Job} {io : JsonAnswer S} {msg : Message S N}
    (hbuilt : Built s root arr item drec [] [] [])
    (h : tieAnnounce job io (some root) arr item drec s = some msg) :
    announcedUrl msg =
      if arr.isSome && item.isSome && drec.isSome && io.addUrl && io.addD then some (cstr job.relPath) else none := by
  obtain ⟨text, -, rfl⟩ := Option.map_eq_some_iff.mp h
  obtain ⟨dt, hdt, hbuilt⟩ := hbuilt.addTime hdoc io
  obtain ⟨cf, hcf, hbuilt⟩ := hbuilt.addClassification hdoc job io
  obtain ⟨url, hurl, hpath, hbuilt⟩ := hbuilt.addUrl hdoc job.relPath io.addUrl
  obtain ⟨hbuilt, hkeeps⟩ := hbuilt.addDrec hdoc io.addD
  obtain ⟨hbuilt, hkeeps'⟩ := hbuilt.addItem hdoc
  have hrecord : ∀ d, (if io.addD = true then drec else none) = some d → drec = some d :=
    fun d hd => (Option.ite_none_right_eq_some.mp hd).2
  rw [hbuilt.announcedUrl hdoc hdt hcf hrecord (fun u hu => hkeeps' u _ (hkeeps u _ (hpath u hu))) text]
  cases drec with
  | none => simp
  | some d =>
    rw [hurl rfl]
    cases io.addD with
    | false => simp
    | true => simp

/-- **The message** names the file when nothing that carries the path is missing. -/
theorem announcedUrl_iff {job : Job} (hpath : keyIsClean job.relPath = true) {io : JsonAnswer S} {msg : Message S N}
    (h : announceMessage job io = some msg) : announcedUrl msg = some job.relPath ↔ io.named = true := by
  have hprinted := announceMessage_isSome hdoc job io
  rw [h, Option.isSome_some, JsonAnswer.printed, eq_comm, Bool.and_eq_true] at hprinted
  obtain ⟨root, hroot, harr, hitem, hdrec, hbuilt⟩ := built_start hdoc io.heap io.arr io.item io.drec
  simp only [announceMessage, hprinted.1, hroot] at h
  rw [tieAnnounce_url hdoc hbuilt h, harr, hitem, hdrec, ← JsonAnswer.named, cstr_of_keyIsClean hpath]
  split_ifs with hnamed
  · exact iff_of_true rfl hnamed
  · exact iff_of_false nofun hnamed

end

end IotcRa8p1.App.FileUpload
