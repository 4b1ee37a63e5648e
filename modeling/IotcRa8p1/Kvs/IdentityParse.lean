import IotcRa8p1.Kvs.Lifetime

/-!
# What `iotc_kvs_identity_hook` publishes

The comment over the function gives the formats of the ARN and of the URL, `carnOf` and `urlOf`.  The four
fields are found by counting colons, and by searching for `channel/`, `/role-aliases/` and `/credentials`.

`Store` adds to the state the text of every block, so that what is published can be compared with the fields.
`identityHook_publishes` is that a hook which runs to its end publishes exactly them, from wherever the runs
before have led and however the consumers run beside it.
-/

namespace IotcRa8p1.Kvs.Identity

open CString Machine Heaps CJson

/-! ### The formats -/

/-- `arn:aws:kinesisvideo:<region>:<acct>:channel/<name>/<ts>` -/
def carnOf (region acct name ts : List UInt8) : List UInt8 :=
  lit "arn:aws:kinesisvideo:" ++ region ++ colon :: acct ++ lit ":channel/" ++ name ++ slash :: ts

/-- `https://<endpoint>/role-aliases/<alias>/credentials` -/
def urlOf (endpoint roleAlias : List UInt8) : List UInt8 :=
  lit "https://" ++ endpoint ++ lit "/role-aliases/" ++ roleAlias ++ lit "/credentials"

/-- The text of one field: something, and no delimiter in it. -/
structure Field (text : List UInt8) : Prop where
  nonempty : text ≠ []
  colon : colon ∉ text
  slash : slash ∉ text

/-- `'.'` -/
def dot : UInt8 := 46

/-- A host name with more than one label. -/
structure HostName (text : List UInt8) : Prop extends Field text where
  dotted : dot ∈ text

/-! ### The fields are found -/

/-- A colon is counted behind text without one. -/
theorem afterColons_field {text : List UInt8} (h : colon ∉ text) (n : ℕ) (rest : List UInt8) :
    afterColons (n + 1) (text ++ colon :: rest) = afterColons n rest := by
  induction text with
  | nil => rw [List.nil_append, afterColons, if_pos rfl]
  | cons c text ih =>
    have hc : c ≠ colon := fun hc => h (hc ▸ List.mem_cons_self)
    rw [List.cons_append, afterColons, if_neg hc, ih fun hmem => h (List.mem_cons_of_mem _ hmem)]

/-- The text before the first delimiter. -/
theorem takeWhile_field {d : UInt8} {text : List UInt8} (h : d ∉ text) (rest : List UInt8) :
    (text ++ d :: rest).takeWhile (· ≠ d) = text := by
  have hall : ∀ c ∈ text, decide (c ≠ d) = true := fun c hc => decide_eq_true fun hcd => h (hcd ▸ hc)
  rw [List.takeWhile_append_of_pos hall, List.takeWhile_cons_of_neg (by simp), List.append_nil]

variable {region acct name ts endpoint roleAlias : List UInt8}

theorem regionOf_carnOf (hregion : Field region) : regionOf (carnOf region acct name ts) = some region := by
  have hcarn : carnOf region acct name ts = lit "arn" ++ colon :: (lit "aws" ++ colon ::
      (lit "kinesisvideo" ++ colon :: (region ++ colon :: (acct ++ lit ":channel/" ++ name ++ slash :: ts)))) := by
    simp only [carnOf, List.append_assoc, List.cons_append]
    rfl
  have hcolons : afterColons 3 (carnOf region acct name ts) =
      some (region ++ colon :: (acct ++ lit ":channel/" ++ name ++ slash :: ts)) := by
    rw [hcarn, afterColons_field (by decide), afterColons_field (by decide), afterColons_field (by decide),
      afterColons]
  have hmem : colon ∈ region ++ colon :: (acct ++ lit ":channel/" ++ name ++ slash :: ts) :=
    List.mem_append_right _ List.mem_cons_self
  simp only [regionOf, hcolons, takeWhile_field hregion.colon]
  rw [if_pos ⟨hmem, hregion.nonempty⟩]

/-- The first slash of the ARN is the one of `channel/`. -/
theorem channelOf_carnOf (hregion : Field region) (hacct : Field acct) (hname : Field name) :
    channelOf (carnOf region acct name ts) = some name := by
  have hcarn : carnOf region acct name ts =
      (lit "arn:aws:kinesisvideo:" ++ region ++ colon :: acct ++ [colon]) ++
        (lit "channel" ++ slash :: (name ++ slash :: ts)) := by
    simp only [carnOf, List.append_assoc, List.cons_append]
    rfl
  have hbefore : slash ∉ lit "arn:aws:kinesisvideo:" ++ region ++ colon :: acct ++ [colon] := by
    simp only [List.mem_append, List.mem_cons, not_or]
    exact ⟨⟨⟨by decide, hregion.slash⟩, by decide, hacct.slash⟩, by decide, List.not_mem_nil⟩
  have hfound := strstr_first hbefore (by decide : slash ∉ lit "channel") (name ++ slash :: ts)
  have hdrop : (lit "channel" ++ slash :: (name ++ slash :: ts)).drop 8 = name ++ slash :: ts := rfl
  show (strstr (carnOf region acct name ts) (lit "channel" ++ [slash])).map _ = some name
  rw [hcarn, hfound, Option.map_some, hdrop, takeWhile_field hname.slash]

/-- The scheme is skipped. -/
theorem endpointOf_https (host : List UInt8) : endpointOf (lit "https://" ++ host) =
    if slash ∈ host then some (host.takeWhile (· ≠ slash)) else none := by
  have hprefix : (ascii ['h', 't', 't', 'p', 's', ':', '/', '/']).isPrefixOf (lit "https://" ++ host) = true :=
    List.isPrefixOf_iff_prefix.mpr (List.prefix_append _ _)
  simp only [endpointOf, hprefix, if_true]
  rfl

theorem endpointOf_urlOf (hendpoint : HostName endpoint) :
    endpointOf (urlOf endpoint roleAlias) = some endpoint := by
  have hurl : urlOf endpoint roleAlias =
      lit "https://" ++ (endpoint ++ slash :: (lit "role-aliases/" ++ roleAlias ++ lit "/credentials")) := by
    simp only [urlOf, List.append_assoc]
    rfl
  have hmem : slash ∈ endpoint ++ slash :: (lit "role-aliases/" ++ roleAlias ++ lit "/credentials") :=
    List.mem_append_right _ List.mem_cons_self
  rw [hurl, endpointOf_https, if_pos hmem, takeWhile_field hendpoint.slash]

/-- `/role-aliases/` does not stand at the second slash of `https://`, as the host has a dot. -/
theorem not_prefix_host (hendpoint : HostName endpoint) (rest : List UInt8) :
    ¬ lit "/role-aliases/" <+: slash :: (endpoint ++ slash :: rest) := by
  intro hprefix
  have hlit : lit "/role-aliases/" = slash :: (lit "role-aliases" ++ slash :: []) := rfl
  rw [hlit, List.cons_prefix_cons] at hprefix
  obtain ⟨tail, htail⟩ := hprefix.2
  -- both sides up to their first slash
  have hhost := congrArg (List.takeWhile (· ≠ slash)) htail
  rw [List.append_assoc, List.cons_append, takeWhile_field (by decide), takeWhile_field hendpoint.slash] at hhost
  have hdot := hendpoint.dotted
  rw [← hhost] at hdot
  exact absurd hdot (by decide)

theorem roleAliasOf_urlOf (hendpoint : HostName endpoint) (hroleAlias : Field roleAlias) :
    roleAliasOf (urlOf endpoint roleAlias) = some roleAlias := by
  have hurl : urlOf endpoint roleAlias = lit "https:" ++ slash :: slash :: (endpoint ++
      slash :: (lit "role-aliases/" ++ (roleAlias ++ lit "/credentials"))) := by
    simp only [urlOf, List.append_assoc]
    rfl
  have hsecond : ¬ lit "/role-aliases/" <+: slash :: slash :: (endpoint ++
      slash :: (lit "role-aliases/" ++ (roleAlias ++ lit "/credentials"))) := by
    rintro ⟨tail, htail⟩
    exact absurd (List.cons.inj (List.cons.inj htail).2).1 (by decide)
  have hfound : strstr (urlOf endpoint roleAlias) (lit "/role-aliases/") =
      some (lit "/role-aliases/" ++ (roleAlias ++ lit "/credentials")) := by
    have hskip {before : List UInt8} (h : slash ∉ before) (hay : List UInt8) :
        strstr (before ++ hay) (lit "/role-aliases/") = strstr hay (lit "/role-aliases/") :=
      strstr_skip h hay _
    rw [hurl, hskip (by decide), strstr_cons_of_not_prefix hsecond,
      strstr_cons_of_not_prefix (not_prefix_host hendpoint _), hskip hendpoint.slash]
    exact strstr_prefix (lit "/role-aliases/") (roleAlias ++ lit "/credentials")
  have hend : strstr (roleAlias ++ lit "/credentials") (lit "/credentials") = some (lit "/credentials") := by
    have hskip : strstr (roleAlias ++ lit "/credentials") (lit "/credentials") =
        strstr (lit "/credentials") (lit "/credentials") := strstr_skip hroleAlias.slash _ _
    rw [hskip]
    exact strstr_prefix (lit "/credentials") []
  have hdrop : (lit "/role-aliases/" ++ (roleAlias ++ lit "/credentials")).drop 14 =
      roleAlias ++ lit "/credentials" := rfl
  have hsearch : ascii ['/', 'r', 'o', 'l', 'e', '-', 'a', 'l', 'i', 'a', 's', 'e', 's', '/'] =
      lit "/role-aliases/" := rfl
  have hstop : ascii ['/', 'c', 'r', 'e', 'd', 'e', 'n', 't', 'i', 'a', 'l', 's'] = lit "/credentials" := rfl
  simp only [roleAliasOf, hsearch, hstop, hfound, Option.map_some, hdrop, hend]
  rw [List.length_append, Nat.add_sub_cancel, List.take_left]

/-! ### The call -/

variable {J : Type} [Reader J]

/-- The `vs` block of a response. -/
def vsBlock (json : Option J) : Option J :=
  let d := getObjectItem json ['d']
  let vs := getObjectItem (getObjectItem d ['p']) ['v', 's']
  if isObject vs = true then vs else getObjectItem d ['v', 's']

/-- A response with an ARN and a URL. -/
structure Carries (json : Option J) (carn url : List UInt8) : Prop where
  vs : isObject (vsBlock json) = true
  carn : getStringValue (getObjectItem (vsBlock json) ['c', 'a', 'r', 'n']) = some carn
  url : getStringValue (getObjectItem (vsBlock json) ['u', 'r', 'l']) = some url

/-- A call that has a text for every string it is to duplicate. -/
def Call.Complete (c : Call) (text : Name → List UInt8) : Prop :=
  ∀ n ∈ c.group.names, c.text n = some (text n)

/-- The strings of the identity. -/
def identityTexts (region name endpoint roleAlias thing : List UInt8) : Name → List UInt8
  | .region => region
  | .channel => name
  | .endpoint => endpoint
  | .roleAlias => roleAlias
  | .thing => thing
  | _ => []

/-- The hook gets past its first checks with exactly the fields. -/
theorem identityHook_complete {json : Option J} (thing : List UInt8) (hregion : Field region)
    (hacct : Field acct) (hname : Field name) (hendpoint : HostName endpoint) (hroleAlias : Field roleAlias)
    (hjson : Carries json (carnOf region acct name ts) (urlOf endpoint roleAlias)) :
    ∃ c, identityHook json (some thing) = some c ∧ c.group = .identity ∧
      c.Complete (identityTexts region name endpoint roleAlias thing) := by
  obtain ⟨hvs, hcarn, hurl⟩ := hjson
  simp only [vsBlock] at hvs hcarn hurl
  simp only [identityHook, hvs, hcarn, hurl, if_true]
  refine ⟨_, rfl, rfl, fun n hn => ?_⟩
  cases n with
  | region => exact regionOf_carnOf hregion
  | channel => exact channelOf_carnOf hregion hacct hname
  | endpoint => exact endpointOf_urlOf hendpoint
  | roleAlias => exact roleAliasOf_urlOf hendpoint hroleAlias
  | thing => rfl
  | cert => exact absurd hn (by decide : Name.cert ∉ Group.identity.names)
  | key => exact absurd hn (by decide : Name.key ∉ Group.identity.names)

/-! ### The texts of the blocks -/

/-- What `prv_strdup_len` copies in a step. -/
def copied (s : St) : Action J → Option (List UInt8)
  | .net true =>
    match s.net with
    | .dup c (n :: _) => if (abandons s).isSome = true then none else c.text n
    | _ => none
  | _ => none

/-- The state, and the text of every block. -/
structure Store where
  st : St
  texts : List (List UInt8)

def Store.boot : Store := ⟨Identity.boot, []⟩

def Store.step (s : Store) (a : Action J) : Option Store :=
  (Identity.step s.st a).map fun st => ⟨st, s.texts ++ (copied s.st a).toList⟩

/-- The texts are no part of what the program does. -/
theorem runs_store (as : List (Action J)) (s : Store) :
    (runs Store.step as s).map Store.st = runs Identity.step as s.st := by
  induction as generalizing s with
  | nil => rfl
  | cons a as ih =>
    rw [runs_cons, runs_cons, Store.step]
    cases Identity.step s.st a with
    | none => rfl
    | some st => exact ih _

/-! ### A call on its way -/

/-- The static owns a string of the text. -/
def Owned (s : Store) (n : Name) (text : List UInt8) : Prop :=
  ∃ b, s.st.statics n = some b ∧ Live s.st.blocks b ∧ s.texts[b]? = some text

/-- The global publishes a string of the text. -/
def Publishes (s : Store) (n : Name) (text : List UInt8) : Prop :=
  ∃ b, s.st.published n = some b ∧ Live s.st.blocks b ∧ s.texts[b]? = some text

/-- What a complete call has done where it is. -/
def Progress (c : Call) (text : Name → List UInt8) (s : Store) : Prop :=
  match s.st.net with
  | .idle => s.st.ready c.group = true ∧ ∀ n ∈ c.group.names, Publishes s n (text n)
  | .free c' _ => c' = c
  | .dup c' todo => c' = c ∧ todo ⊆ c.group.names ∧ ∀ n ∈ c.group.names, n ∉ todo → Owned s n (text n)
  | .publish c' todo => c' = c ∧ ∀ n ∈ c.group.names,
      Owned s n (text n) ∧ (n ∉ todo → s.st.published n = s.st.statics n)

/-- Every block has a text. -/
def Store.Tracked (s : Store) : Prop := s.texts.length = s.st.blocks.length

/-- The instructions that are left. -/
def NetPc.left : NetPc → ℕ
  | .idle => 0
  | .free c todo => todo.length + 2 * c.group.names.length + 3
  | .dup c todo => todo.length + c.group.names.length + 2
  | .publish _ todo => todo.length + 1

section call

variable {c : Call} {text : Name → List UInt8} {n : Name} {todo : List Name} {s : Store}

/-- A string more. -/
theorem Owned.strdup (h : Owned s n (text n)) {m : Name} (hnm : n ≠ m) (added : List UInt8) {net : NetPc} :
    Owned ⟨{ Identity.strdup s.st m with net := net }, s.texts ++ [added]⟩ n (text n) := by
  obtain ⟨b, hb, hlive, htext⟩ := h
  refine ⟨b, (Function.update_of_ne hnm ..).trans hb, hlive.alloc (), ?_⟩
  rw [List.getElem?_append_left (List.getElem?_eq_some_iff.mp htext).1, htext]

/-- The new string is the one that was copied. -/
theorem owned_strdup (h : s.Tracked) (m : Name) (added : List UInt8) {net : NetPc} :
    Owned ⟨{ Identity.strdup s.st m with net := net }, s.texts ++ [added]⟩ m added := by
  refine ⟨s.st.blocks.length, Function.update_self .., live_alloc_new s.st.blocks (), ?_⟩
  rw [← h, List.getElem?_append_right (Nat.le_refl _), Nat.sub_self]
  rfl

/-- A complete call is not abandoned. -/
theorem Progress.not_abandons (h : Progress c text s) (hc : c.Complete text) {todo : List Name}
    (hnet : s.st.net = .dup c todo) : (abandons s.st).isSome = false := by
  rw [Progress, hnet] at h
  obtain ⟨-, hsub, howned⟩ := h
  rw [Option.isSome_eq_false_iff, Option.isNone_iff_eq_none]
  cases todo with
  | nil =>
    simp only [abandons, hnet]
    refine if_neg ?_
    rintro ⟨m, hm, hnone⟩
    obtain ⟨b, hb, -⟩ := howned m hm List.not_mem_nil
    exact Option.some_ne_none b (hb.symm.trans hnone)
  | cons m todo =>
    have htext := hc m (hsub List.mem_cons_self)
    cases m with
    | region =>
      simp only [abandons, hnet]
      exact if_neg fun hnone => Option.some_ne_none _ (htext.symm.trans hnone)
    | _ => simp only [abandons, hnet]

variable (J) in
/-- The next instruction of the call. -/
theorem Progress.net (h : Progress c text s) (hc : c.Complete text) (htracked : s.Tracked)
    (hidle : s.st.net ≠ .idle) :
    ∃ s', s.step (.net true : Action J) = some s' ∧ Progress c text s' ∧ s'.st.net.left + 1 = s.st.net.left := by
  have hprogress := h
  rw [Progress] at h
  cases hnet : s.st.net with
  | idle => exact absurd hnet hidle
  | free c' todo =>
    simp only [hnet] at h
    subst h
    cases todo with
    | nil =>
      refine ⟨⟨{ s.st with net := .dup c' c'.group.names }, s.texts ++ []⟩, ?_, ?_, ?_⟩
      · simp [Store.step, Identity.step, netStep, copied, hnet]
      · exact ⟨rfl, List.Subset.refl _, fun m hm hnot => absurd hm hnot⟩
      · simp only [NetPc.left, List.length_nil]
        omega
    | cons m todo =>
      refine ⟨⟨{ s.st with
          blocks := free s.st.blocks () (s.st.statics m)
          statics := Function.update s.st.statics m none
          net := .free c' todo }, s.texts ++ []⟩, ?_, rfl, ?_⟩
      · simp [Store.step, Identity.step, netStep, copied, hnet]
      · simp only [NetPc.left, List.length_cons]
        omega
  | dup c' todo =>
    simp only [hnet] at h
    obtain ⟨rfl, hsub, howned⟩ := h
    have hnot := hprogress.not_abandons hc hnet
    cases todo with
    | nil =>
      refine ⟨⟨{ s.st with net := .publish c' c'.group.names }, s.texts ++ []⟩, ?_, ?_, ?_⟩
      · simp [Store.step, Identity.step, netStep, copied, hnet, hnot]
      · rw [List.append_nil]
        exact ⟨rfl, fun m hm => ⟨howned m hm List.not_mem_nil, fun hm' => absurd hm hm'⟩⟩
      · simp only [NetPc.left, List.length_nil]
        omega
    | cons m todo =>
      have htext := hc m (hsub List.mem_cons_self)
      refine ⟨⟨{ Identity.strdup s.st m with net := .dup c' todo }, s.texts ++ [text m]⟩, ?_, ?_, ?_⟩
      · simp [Store.step, Identity.step, netStep, copied, hnet, hnot, htext]
      · refine ⟨rfl, fun k hk => hsub (List.mem_cons_of_mem _ hk), fun k hk hknot => ?_⟩
        by_cases hkm : k = m
        · subst hkm
          exact owned_strdup htracked k (text k)
        · exact (howned k hk (by simp [hkm, hknot])).strdup hkm (text m)
      · simp only [NetPc.left, List.length_cons]
        omega
  | publish c' todo =>
    simp only [hnet] at h
    obtain ⟨rfl, hnames⟩ := h
    cases todo with
    | nil =>
      refine ⟨⟨{ s.st with ready := Function.update s.st.ready c'.group true, net := .idle }, s.texts ++ []⟩,
        ?_, ?_, rfl⟩
      · simp [Store.step, Identity.step, netStep, copied, hnet]
      · rw [List.append_nil]
        refine ⟨Function.update_self .., fun m hm => ?_⟩
        obtain ⟨⟨b, hb, hlive, htext⟩, hpub⟩ := hnames m hm
        exact ⟨b, (hpub List.not_mem_nil).trans hb, hlive, htext⟩
    | cons m todo =>
      refine ⟨⟨{ s.st with
          published := Function.update s.st.published m (s.st.statics m)
          net := .publish c' todo }, s.texts ++ []⟩, ?_, ?_, ?_⟩
      · simp [Store.step, Identity.step, netStep, copied, hnet]
      · rw [List.append_nil]
        refine ⟨rfl, fun k hk => ⟨(hnames k hk).1, fun hknot => ?_⟩⟩
        show Function.update s.st.published m (s.st.statics m) k = s.st.statics k
        by_cases hkm : k = m
        · rw [hkm, Function.update_self]
        · rw [Function.update_of_ne hkm]
          exact (hnames k hk).2 (by simp [hkm, hknot])
      · simp only [NetPc.left, List.length_cons]

end call

/-! ### Steps -/

section steps

variable {s s' : St}

theorem kvsStep_frame {ok : Bool} (hs : kvsStep s ok = some s') :
    ∃ held kvs controller, s' = { s with held := held, kvs := kvs, controller := controller } := by
  unfold kvsStep at hs
  cases hk : s.kvs with
  | wait =>
    simp only [hk] at hs
    split_ifs at hs
    · exact ⟨_, _, _, (Option.some.inj hs).symm⟩
    · exact ⟨_, _, _, (Option.some.inj hs).symm⟩
  | ended => simp [hk] at hs
  | _ =>
    simp only [hk] at hs
    exact ⟨_, _, _, (Option.some.inj hs).symm⟩

theorem controllerStep_frame (hs : controllerStep s = some s') :
    ∃ held kvs controller, s' = { s with held := held, kvs := kvs, controller := controller } := by
  unfold controllerStep at hs
  split at hs
  · exact nomatch hs
  · exact ⟨_, _, _, (Option.some.inj hs).symm⟩
  · exact ⟨_, _, _, (Option.some.inj hs).symm⟩
  · exact ⟨_, _, _, (Option.some.inj hs).symm⟩

theorem begin_blocks (s : St) (c : Option Call) : (begin s c).blocks = s.blocks := by
  cases c with
  | none => rfl
  | some c => rfl

omit [Reader J] in
/-- Only `prv_strdup_len` copies. -/
theorem copied_eq_none (h : ∀ c n todo, s.net ≠ .dup c (n :: todo)) (ok : Bool) :
    copied s (.net ok : Action J) = none := by
  cases ok with
  | false => rfl
  | true =>
    show (match s.net with
      | .dup c (n :: _) => if (abandons s).isSome = true then none else c.text n
      | _ => none) = none
    split
    · rename_i c n todo hnet
      exact absurd hnet (h c n todo)
    · rfl

omit [Reader J] in
theorem netStep_length {ok : Bool} (hs : netStep s ok = some s') :
    s'.blocks.length = s.blocks.length + (copied s (.net ok : Action J)).toList.length := by
  unfold netStep at hs
  cases hnet : s.net with
  | idle => simp [hnet] at hs
  | free c todo =>
    rw [copied_eq_none (by simp [hnet])]
    cases todo with
    | nil =>
      simp only [hnet] at hs
      obtain rfl := Option.some.inj hs
      rfl
    | cons n todo =>
      simp only [hnet] at hs
      obtain rfl := Option.some.inj hs
      exact length_free ..
  | publish c todo =>
    rw [copied_eq_none (by simp [hnet])]
    cases todo with
    | nil =>
      simp only [hnet] at hs
      obtain rfl := Option.some.inj hs
      rfl
    | cons n todo =>
      simp only [hnet] at hs
      obtain rfl := Option.some.inj hs
      rfl
  | dup c todo =>
    cases todo with
    | nil =>
      rw [copied_eq_none (by simp [hnet])]
      simp only [hnet] at hs
      split_ifs at hs
      · obtain rfl := Option.some.inj hs
        rfl
      · obtain rfl := Option.some.inj hs
        rfl
    | cons n todo =>
      simp only [hnet] at hs
      split_ifs at hs with ha htext
      · obtain rfl := Option.some.inj hs
        have hcopied : copied s (.net ok : Action J) = none := by cases ok <;> simp [copied, hnet, ha]
        rw [hcopied]
        rfl
      · obtain rfl := Option.some.inj hs
        obtain ⟨htext, rfl⟩ := htext
        obtain ⟨text, htext⟩ := Option.isSome_iff_exists.mp htext
        have hcopied : copied s (.net true : Action J) = some text := by simp [copied, hnet, ha, htext]
        rw [hcopied]
        exact List.length_append
      · obtain rfl := Option.some.inj hs
        have hcopied : copied s (.net ok : Action J) = none := by
          cases ok with
          | false => rfl
          | true =>
            cases hn : c.text n with
            | none => simp [copied, hnet, hn]
            | some text => exact absurd ⟨by rw [hn]; rfl, rfl⟩ htext
        rw [hcopied]
        rfl

theorem step_length {a : Action J} (hs : step s a = some s') :
    s'.blocks.length = s.blocks.length + (copied s a).toList.length := by
  cases a with
  | identityHook json clientId => rw [(step_identityHook hs).2, begin_blocks]; rfl
  | setCredentials cert key => rw [(step_setCredentials hs).2, begin_blocks]; rfl
  | net ok => exact netStep_length hs
  | kvs ok =>
    obtain ⟨_, _, _, rfl⟩ := kvsStep_frame hs
    rfl
  | controller =>
    obtain ⟨_, _, _, rfl⟩ := controllerStep_frame hs
    rfl

end steps

theorem Store.step_tracked {s s' : Store} {a : Action J} (h : s.Tracked) (hs : s.step a = some s') :
    s'.Tracked := by
  obtain ⟨st, hst, rfl⟩ := Option.map_eq_some_iff.mp hs
  show (s.texts ++ (copied s.st a).toList).length = st.blocks.length
  rw [List.length_append, step_length hst, h]

theorem Store.runs_tracked {as : List (Action J)} {s : Store} (hrun : runs Store.step as .boot = some s) :
    s.Tracked :=
  runs_invariant (fun h _ hs => step_tracked h hs) (rfl : Store.boot.Tracked)
    (meets_of_forall (fun _ _ _ => trivial) _) hrun

/-! ### The hook runs to its end -/

/-- An instruction of the running call that finds memory, or one of a consumer. -/
def Action.Beside : Action J → Prop
  | .net ok => ok = true
  | .kvs _ => True
  | .controller => True
  | _ => False

section call

variable {c : Call} {text : Name → List UInt8} {s s' : Store}

theorem Progress.step {a : Action J} (h : Progress c text s) (hc : c.Complete text) (htracked : s.Tracked)
    (ha : a.Beside) (hs : s.step a = some s') : Progress c text s' := by
  cases a with
  | net ok =>
    obtain rfl : ok = true := ha
    by_cases hidle : s.st.net = .idle
    · simp [Store.step, Identity.step, netStep, hidle] at hs
    · obtain ⟨t, ht, hprogress, -⟩ := h.net J hc htracked hidle
      exact Option.some.inj (ht.symm.trans hs) ▸ hprogress
  | kvs ok =>
    obtain ⟨st, hst, rfl⟩ := Option.map_eq_some_iff.mp hs
    obtain ⟨_, _, _, rfl⟩ := kvsStep_frame hst
    show Progress c text ⟨_, s.texts ++ []⟩
    rw [List.append_nil]
    exact h
  | controller =>
    obtain ⟨st, hst, rfl⟩ := Option.map_eq_some_iff.mp hs
    obtain ⟨_, _, _, rfl⟩ := controllerStep_frame hst
    show Progress c text ⟨_, s.texts ++ []⟩
    rw [List.append_nil]
    exact h
  | identityHook json clientId => exact ha.elim
  | setCredentials cert key => exact ha.elim

/-- The instructions that are left lead to the end. -/
theorem Progress.ends (h : Progress c text s) (hc : c.Complete text) (htracked : s.Tracked) :
    ∃ t, runs Store.step (List.replicate s.st.net.left (.net true : Action J)) s = some t ∧ t.st.net = .idle := by
  induction hleft : s.st.net.left generalizing s with
  | zero =>
    refine ⟨s, rfl, ?_⟩
    cases hnet : s.st.net with
    | idle => rfl
    | _ => simp [hnet, NetPc.left] at hleft
  | succ k ih =>
    have hidle : s.st.net ≠ .idle := by
      intro hidle
      rw [hidle] at hleft
      exact nomatch hleft
    obtain ⟨u, hu, hprogress, hlt⟩ := h.net J hc htracked hidle
    obtain ⟨t, ht, hend⟩ := ih hprogress (Store.step_tracked htracked hu) (by omega)
    exact ⟨t, runs_cons_eq_some.mpr ⟨u, hu, ht⟩, hend⟩

end call

/-- A complete call that has begun. -/
theorem begin_progress (s : Store) {c : Call} (text : Name → List UInt8) :
    Progress c text ⟨begin s.st (some c), s.texts ++ []⟩ := rfl

/-- **The parse undoes the documented format.**  After any history that has left no call running, a hook with
an ARN and a URL of the format begins a call; whatever the consumers do beside it, it can be run to its end,
and where it has ended the fields and the client id are published, and the identity is ready. -/
theorem identityHook_publishes {region acct name ts endpoint roleAlias : List UInt8} (thing : List UInt8)
    (hregion : Field region) (hacct : Field acct) (hname : Field name) (hendpoint : HostName endpoint)
    (hroleAlias : Field roleAlias) {json : Option J}
    (hjson : Carries json (carnOf region acct name ts) (urlOf endpoint roleAlias))
    {history : List (Action J)} {s : Store} (hhistory : runs Store.step history .boot = some s)
    (hidle : s.st.net = .idle) :
    ∃ begun, s.step (.identityHook json (some thing)) = some begun ∧
      ∀ (as : List (Action J)) (t : Store), (∀ a ∈ as, a.Beside) → runs Store.step as begun = some t →
        (∃ k u, runs Store.step (List.replicate k (.net true : Action J)) t = some u ∧ u.st.net = .idle) ∧
        (t.st.net = .idle → t.st.ready .identity = true ∧ Publishes t .region region ∧
          Publishes t .channel name ∧ Publishes t .endpoint endpoint ∧ Publishes t .roleAlias roleAlias ∧
          Publishes t .thing thing) := by
  obtain ⟨c, hhook, hgroup, hc⟩ :=
    identityHook_complete thing hregion hacct hname hendpoint hroleAlias hjson
  have hbegun : s.step (.identityHook json (some thing)) = some ⟨begin s.st (some c), s.texts ++ []⟩ := by
    rw [Store.step, step, hidle, ← hhook]
    rfl
  have htracked := Store.step_tracked (Store.runs_tracked hhistory) hbegun
  refine ⟨_, hbegun, fun as t hbeside hrun => ?_⟩
  have hmeets : Meets Store.step (fun _ a => a.Beside) as ⟨begin s.st (some c), s.texts ++ []⟩ :=
    meets_of_forall (fun a ha _ => hbeside a ha) _
  obtain ⟨htracked, hprogress⟩ :=
    runs_invariant (I := fun s => s.Tracked ∧ Progress c (identityTexts region name endpoint roleAlias thing) s)
      (fun h ha hs => ⟨Store.step_tracked h.1 hs, h.2.step hc h.1 ha hs⟩)
      ⟨htracked, begin_progress s _⟩ hmeets hrun
  refine ⟨⟨t.st.net.left, hprogress.ends hc htracked⟩, fun hend => ?_⟩
  rw [Progress, hend, hgroup] at hprogress
  obtain ⟨hready, hnames⟩ := hprogress
  exact ⟨hready, hnames .region (by decide), hnames .channel (by decide), hnames .endpoint (by decide),
    hnames .roleAlias (by decide), hnames .thing (by decide)⟩

/-- A response of the format whose fields are the words that are searched for. -/
def markers : Json :=
  let vs : Json := .object [
    (lit "carn", .string (carnOf (lit "us-east-1") (lit "1") (lit "channel") (lit "2"))),
    (lit "url", .string (urlOf (lit "credentials.role-aliases") (lit "credentials")))]
  .object [(lit "d", .object [(lit "p", .object [(lit "vs", vs)])])]

/-- They come behind another identity. -/
theorem identityHook_publishes_markers :
    ∃ s t k, runs Store.step (.identityHook (some identity) (some (ascii ['t'])) ::
        List.replicate 18 (.net true)) .boot = some s ∧
      runs Store.step (.identityHook (some markers) (some (lit "t")) :: List.replicate k (.net true)) s = some t ∧
      Publishes t .channel (lit "channel") ∧ Publishes t .endpoint (lit "credentials.role-aliases") ∧
      Publishes t .roleAlias (lit "credentials") := by
  obtain ⟨begun, hbegun, hall⟩ := identityHook_publishes (lit "t")
    (⟨by decide, by decide, by decide⟩ : Field (lit "us-east-1"))
    (⟨by decide, by decide, by decide⟩ : Field (lit "1"))
    (⟨by decide, by decide, by decide⟩ : Field (lit "channel"))
    (⟨⟨by decide, by decide, by decide⟩, by decide⟩ : HostName (lit "credentials.role-aliases"))
    (⟨by decide, by decide, by decide⟩ : Field (lit "credentials"))
    (⟨rfl, rfl, rfl⟩ : Carries (some markers) (carnOf _ _ _ (lit "2")) (urlOf _ _))
    (rfl : runs Store.step (.identityHook (some identity) (some (ascii ['t'])) ::
      List.replicate 18 (.net true)) .boot = some _) rfl
  obtain ⟨k, t, hrun, hend⟩ := (hall [] begun (fun _ h => nomatch h) rfl).1
  have hbeside : ∀ a ∈ List.replicate k (.net true : Action Json), a.Beside := by
    intro a ha
    rw [List.eq_of_mem_replicate ha]
    exact rfl
  obtain ⟨-, -, hchannel, hendpoint, hroleAlias, -⟩ := (hall _ t hbeside hrun).2 hend
  exact ⟨_, t, k, rfl, runs_cons_eq_some.mpr ⟨begun, hbegun, hrun⟩, hchannel, hendpoint, hroleAlias⟩

end IotcRa8p1.Kvs.Identity
