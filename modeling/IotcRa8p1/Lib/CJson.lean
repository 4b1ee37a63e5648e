import IotcRa8p1.Lib.CString
import Mathlib.Data.Int.Notation

/-!
# The interface of cJSON

A program that uses cJSON is modelled over any `Reader`, the functions that read a tree of nodes, and any `Builder`,
those that build one in memory.  A node is a value of a type of its own, and `none` is NULL.  What the functions do is
left open; a result that rests on it names `Builder.Documented`.

Two instances are here to run a program on: `Json`, a tree written down, and `Nodes`, a memory that trees are built in.
-/

namespace IotcRa8p1.CJson

open CString

/-- The functions that read a tree, under their names; `children` is what `cJSON_ArrayForEach` goes through. -/
class Reader (J : Type) where
  getObjectItem : Option J → List Char → Option J
  getObjectItemCaseSensitive : Option J → List Char → Option J
  getArraySize : Option J → ℤ
  getArrayItem : Option J → ℤ → Option J
  children : Option J → List J
  isString : Option J → Bool
  isArray : Option J → Bool
  isObject : Option J → Bool
  isTrue : Option J → Bool
  getStringValue : Option J → Option (List UInt8)

export Reader (getObjectItem getObjectItemCaseSensitive getArraySize getArrayItem children isString isArray isObject
  isTrue getStringValue)

/-- `tolower` -/
def lower (c : UInt8) : UInt8 := if 65 ≤ c ∧ c ≤ 90 then c + 32 else c

/-- The names that `cJSON_GetObjectItem` takes for the same, whatever the case of their letters. -/
def sameName (key : List UInt8) (name : List Char) : Bool := (cstr key).map lower == (ascii name).map lower

/-! ### Building -/

/-- What a node is, with the nodes right below it. -/
inductive Node (N : Type) where
  | string (text : List UInt8)
  | array (items : List N)
  | object (members : List (List UInt8 × N))
  | other

/-- The functions that build trees.  The `Bool` of a call is whether it gets the memory it asks for. -/
class Builder (S : Type) (N : outParam Type) where
  node : S → N → Option (Node N)
  createObject : Bool → S → Option N × S
  addArrayToObject : Option N → List Char → Bool → S → Option N × S
  addStringToObject : Option N → List Char → List UInt8 → Bool → S → Option N × S
  addItemToObject : Option N → List Char → Option N → Bool → S → S
  addItemToArray : Option N → Option N → S → S
  parse : List UInt8 → Bool → S → Option N × S
  printUnformatted : Option N → Bool → S → Option (List UInt8)

export Builder (node createObject addArrayToObject addStringToObject addItemToObject addItemToArray parse
  printUnformatted)

section

variable {S N : Type} [Builder S N]

/-- The nodes stay as they are. -/
def Keeps (s s' : S) : Prop := ∀ k v, node s k = some v → node s' k = some v

/-- All nodes but one do. -/
def KeepsBut (p : N) (s s' : S) : Prop := ∀ k v, k ≠ p → node s k = some v → node s' k = some v

/-- A call gives a new node, if it gets memory. -/
structure Creates (s : S) (ok : Bool) (r : Option N × S) (v : Node N) : Prop where
  isSome : r.1.isSome = ok
  new : ∀ q, r.1 = some q → node s q = none ∧ node r.2 q = some v

/-- A call appends a member to an object, if there is one to append. -/
structure Appends (s s' : S) (p : N) (members : List (List UInt8 × N)) (name : List Char) (q : Option N) : Prop where
  object : node s' p = some (.object (members ++ q.toList.map fun q => (ascii name, q)))
  keeps : KeepsBut p s s'

end

/-- What the documentation says: a call makes its node, or appends to its object or array, if it gets memory, and
changes nothing else; with NULL for the object, the array or the item it changes nothing; and reading finds what is
there. -/
structure Builder.Documented (S : Type) {N : Type} [Builder S N] [Reader (S × N)] : Prop where
  createObject_new : ∀ ok (s : S), Creates s ok (createObject ok s) (.object []) ∧ Keeps s (createObject ok s).2
  addArrayToObject_object : ∀ {s : S} {p members} name ok, node s p = some (.object members) →
    Creates s ok (addArrayToObject (some p) name ok s) (.array []) ∧
      Appends s (addArrayToObject (some p) name ok s).2 p members name (addArrayToObject (some p) name ok s).1
  addStringToObject_object : ∀ {s : S} {p members} name text ok, node s p = some (.object members) →
    Creates s ok (addStringToObject (some p) name text ok s) (.string (cstr text)) ∧
      Appends s (addStringToObject (some p) name text ok s).2 p members name
        (addStringToObject (some p) name text ok s).1
  addStringToObject_null : ∀ name text ok (s : S), Keeps s (addStringToObject none name text ok s).2
  addItemToObject_object : ∀ {s : S} {p q members} name ok, node s p = some (.object members) → q ≠ p →
    Appends s (addItemToObject (some p) name (some q) ok s) p members name (if ok then some q else none)
  addItemToObject_null : ∀ (object item : Option N) name ok (s : S), object = none ∨ item = none →
    Keeps s (addItemToObject object name item ok s)
  addItemToArray_array : ∀ {s : S} {p q items}, node s p = some (.array items) → q ≠ p →
    node (addItemToArray (some p) (some q) s) p = some (.array (items ++ [q])) ∧
      KeepsBut p s (addItemToArray (some p) (some q) s)
  addItemToArray_null : ∀ (array item : Option N) (s : S), array = none ∨ item = none →
    Keeps s (addItemToArray array item s)
  parse_new : ∀ text ok (s : S), Keeps s (parse text ok s).2 ∧ ∀ p, (parse text ok s).1 = some p → node s p = none
  printUnformatted_isSome : ∀ (root : Option N) ok (s : S), (printUnformatted root ok s).isSome = (root.isSome && ok)
  getObjectItem_null : ∀ name, getObjectItem (none : Option (S × N)) name = none
  getObjectItem_object : ∀ {s : S} {p members} name, node s p = some (.object members) →
    getObjectItem (some (s, p)) name = (members.find? fun m => sameName m.1 name).map fun m => (s, m.2)
  getArrayItem_null : ∀ index, getArrayItem (none : Option (S × N)) index = none
  getArrayItem_array : ∀ {s : S} {p items} (index : ℕ), node s p = some (.array items) →
    getArrayItem (some (s, p)) index = items[index]?.map fun q => (s, q)
  getStringValue_null : getStringValue (none : Option (S × N)) = none
  getStringValue_string : ∀ {s : S} {p text}, node s p = some (.string text) → getStringValue (some (s, p)) = some text

/-! ### A tree written down -/

inductive Json where
  | null
  | bool (b : Bool)
  | number
  | string (s : List UInt8)
  | array (xs : List Json)
  | object (members : List (List UInt8 × Json))

namespace Json

/-- The first member whose name is taken for the one that is asked for. -/
def member (same : List UInt8 → Bool) : Option Json → Option Json
  | some (.object members) => (members.find? fun m => same m.1).map Prod.snd
  | _ => none

/-- What hangs below a node. -/
def children : Option Json → List Json
  | some (.array xs) => xs
  | some (.object members) => members.map Prod.snd
  | _ => []

def isString : Option Json → Bool
  | some (.string _) => true
  | _ => false

def isArray : Option Json → Bool
  | some (.array _) => true
  | _ => false

def isObject : Option Json → Bool
  | some (.object _) => true
  | _ => false

def isTrue : Option Json → Bool
  | some (.bool b) => b
  | _ => false

def getStringValue : Option Json → Option (List UInt8)
  | some (.string s) => some (cstr s)
  | _ => none

instance : Reader Json where
  getObjectItem json name := member (sameName · name) json
  getObjectItemCaseSensitive json name := member (fun key => cstr key == ascii name) json
  getArraySize json := (children json).length
  getArrayItem json index := if index < 0 then none else (children json)[index.toNat]?
  children := children
  isString := isString
  isArray := isArray
  isObject := isObject
  isTrue := isTrue
  getStringValue := getStringValue

end Json

/-! ### A memory that trees are built in -/

/-- The nodes by their addresses; none is given back. -/
abbrev Nodes : Type := List (Node ℕ)

namespace Nodes

/-- A new node, as a member of an object if it is to be one. -/
def create (s : Nodes) (v : Node ℕ) : Option ℕ × Nodes := (some s.length, s ++ [v])

def addMember (s : Nodes) (object : Option ℕ) (name : List Char) (item : ℕ) : Nodes :=
  match object with
  | none => s
  | some p =>
    match s[p]? with
    | some (.object members) => s.set p (.object (members ++ [(ascii name, item)]))
    | _ => s

def createMember (object : Option ℕ) (name : List Char) (ok : Bool) (s : Nodes) (v : Node ℕ) : Option ℕ × Nodes :=
  if object.isSome ∧ ok then (some s.length, addMember (s ++ [v]) object name s.length) else (none, s)

def addItem (array item : Option ℕ) (s : Nodes) : Nodes :=
  match array, item with
  | some p, some q =>
    match s[p]? with
    | some (.array items) => s.set p (.array (items ++ [q]))
    | _ => s
  | _, _ => s

/-- The text of a tree of at most this depth, for strings that nothing has to be escaped in. -/
def print (s : Nodes) : ℕ → ℕ → List UInt8
  | 0, _ => []
  | depth + 1, p =>
    let quoted (text : List UInt8) : List UInt8 := ascii ['"'] ++ text ++ ascii ['"']
    match s[p]? with
    | some (.string text) => quoted text
    | some (.array items) =>
      ascii ['['] ++ ((items.map (print s depth)).intersperse (ascii [','])).flatten ++ ascii [']']
    | some (.object members) =>
      ascii ['\x7b'] ++ ((members.map fun m => quoted m.1 ++ ascii [':'] ++ print s depth m.2).intersperse
        (ascii [','])).flatten ++ ascii ['\x7d']
    | _ => []

/-- No text is taken for JSON. -/
instance : Builder Nodes ℕ where
  node s k := s[k]?
  createObject ok s := if ok then create s (.object []) else (none, s)
  addArrayToObject object name ok s := createMember object name ok s (.array [])
  addStringToObject object name text ok s := createMember object name ok s (.string (cstr text))
  addItemToObject object name item ok s :=
    match item with
    | some q => if ok then addMember s object name q else s
    | none => s
  addItemToArray := addItem
  parse _ _ s := (none, s)
  printUnformatted root ok s := if ok then root.map (print s s.length) else none

/-- What hangs below a node. -/
def items (s : Nodes) (p : ℕ) : List ℕ :=
  match s[p]? with
  | some (.array items) => items
  | some (.object members) => members.map Prod.snd
  | _ => []

def member (same : List UInt8 → Bool) (s : Nodes) (p : ℕ) : Option (Nodes × ℕ) :=
  match s[p]? with
  | some (.object members) => (members.find? fun m => same m.1).map fun m => (s, m.2)
  | _ => none

def children (o : Option (Nodes × ℕ)) : List (Nodes × ℕ) := o.elim [] fun t => (items t.1 t.2).map (t.1, ·)

def read (o : Option (Nodes × ℕ)) : Option (Node ℕ) := o.bind fun t => t.1[t.2]?

/-- `true` and `false` are not built here. -/
instance : Reader (Nodes × ℕ) where
  getObjectItem o name := o.bind fun t => member (sameName · name) t.1 t.2
  getObjectItemCaseSensitive o name := o.bind fun t => member (fun key => cstr key == ascii name) t.1 t.2
  getArraySize o := (children o).length
  getArrayItem o index := if index < 0 then none else (children o)[index.toNat]?
  children := children
  isString o := (read o).any fun v => match v with | .string _ => true | _ => false
  isArray o := (read o).any fun v => match v with | .array _ => true | _ => false
  isObject o := (read o).any fun v => match v with | .object _ => true | _ => false
  isTrue _ := false
  getStringValue o := (read o).bind fun v => match v with | .string text => some text | _ => none

theorem keeps_refl (s : Nodes) : Keeps s s := fun _ _ h => h

theorem node_append {s : Nodes} {k : ℕ} {v : Node ℕ} (w : Node ℕ) (h : s[k]? = some v) : (s ++ [w])[k]? = some v := by
  rw [List.getElem?_append_left (List.getElem?_eq_some_iff.mp h).1, h]

theorem addMember_appends {s : Nodes} {p q : ℕ} {members : List (List UInt8 × ℕ)} (name : List Char)
    (h : node s p = some (.object members)) : Appends s (addMember s (some p) name q) p members name (some q) := by
  have hread : s[p]? = some (.object members) := h
  have hset : addMember s (some p) name q = s.set p (.object (members ++ [(ascii name, q)])) := by
    simp only [addMember, hread]
  rw [hset]
  refine ⟨List.getElem?_set_self (List.getElem?_eq_some_iff.mp hread).1, fun k v hne hk => ?_⟩
  exact (List.getElem?_set_ne (Ne.symm hne)).trans hk

theorem appends_none {s : Nodes} {p : ℕ} {members : List (List UInt8 × ℕ)} (name : List Char)
    (h : node s p = some (.object members)) : Appends s s p members name none := by
  refine ⟨?_, fun _ _ _ hk => hk⟩
  rw [Option.toList_none, List.map_nil, List.append_nil]
  exact h

theorem createMember_spec {s : Nodes} {p : ℕ} {members : List (List UInt8 × ℕ)} (name : List Char) (ok : Bool)
    (v : Node ℕ) (h : node s p = some (.object members)) :
    Creates s ok (createMember (some p) name ok s v) v ∧
      Appends s (createMember (some p) name ok s v).2 p members name (createMember (some p) name ok s v).1 := by
  cases ok with
  | false => exact ⟨⟨rfl, nofun⟩, appends_none name h⟩
  | true =>
    have hp : node (s ++ [v]) p = some (.object members) := node_append v h
    have happends := addMember_appends (q := s.length) name hp
    have hne : s.length ≠ p := Ne.symm (Nat.ne_of_lt (List.getElem?_eq_some_iff.mp h).1)
    refine ⟨⟨rfl, fun q hq => ?_⟩, happends.object, fun k w hk hread => happends.keeps k w hk (node_append v hread)⟩
    obtain rfl := Option.some.inj hq
    exact ⟨List.getElem?_eq_none le_rfl, happends.keeps _ _ hne List.getElem?_concat_length⟩

theorem addItem_spec {s : Nodes} {p q : ℕ} {items : List ℕ} (h : node s p = some (.array items)) :
    node (addItem (some p) (some q) s) p = some (.array (items ++ [q])) ∧
      KeepsBut p s (addItem (some p) (some q) s) := by
  have hread : s[p]? = some (.array items) := h
  have hset : addItem (some p) (some q) s = s.set p (.array (items ++ [q])) := by
    simp only [addItem, hread]
  rw [hset]
  refine ⟨List.getElem?_set_self (List.getElem?_eq_some_iff.mp hread).1, fun k v hne hk => ?_⟩
  exact (List.getElem?_set_ne (Ne.symm hne)).trans hk

/-- The memory does what is documented. -/
theorem documented : Builder.Documented Nodes where
  createObject_new ok s := by
    cases ok with
    | false => exact ⟨⟨rfl, nofun⟩, keeps_refl s⟩
    | true =>
      refine ⟨⟨rfl, fun q hq => ?_⟩, fun _ _ h => node_append _ h⟩
      obtain rfl := Option.some.inj hq
      exact ⟨List.getElem?_eq_none le_rfl, List.getElem?_concat_length⟩
  addArrayToObject_object name ok h := createMember_spec name ok _ h
  addStringToObject_object name _ ok h := createMember_spec name ok _ h
  addStringToObject_null _ _ _ s := keeps_refl s
  addItemToObject_object name ok h _ := by
    cases ok with
    | false => exact appends_none name h
    | true => exact addMember_appends name h
  addItemToObject_null object item name ok s h := by
    have hsame : addItemToObject object name item ok s = s := by
      rcases h with rfl | rfl
      · cases item with
        | none => rfl
        | some q => cases ok <;> rfl
      · rfl
    rw [hsame]
    exact keeps_refl s
  addItemToArray_array h _ := addItem_spec h
  addItemToArray_null array item s h := by
    have hsame : addItemToArray array item s = s := by
      rcases h with rfl | rfl
      · rfl
      · cases array with
        | none => rfl
        | some p => rfl
    rw [hsame]
    exact keeps_refl s
  parse_new _ _ s := ⟨keeps_refl s, nofun⟩
  printUnformatted_isSome root ok s := by cases ok <;> cases root <;> rfl
  getObjectItem_null _ := rfl
  getObjectItem_object name h := by
    have hread := h
    simp only [node] at hread
    simp only [getObjectItem, Option.bind_some, member, hread]
  getArrayItem_null index := by
    show (if index < 0 then none else ([] : List (Nodes × ℕ))[index.toNat]?) = none
    split_ifs
    · rfl
    · rfl
  getArrayItem_array index h := by
    have hread := h
    simp only [node] at hread
    have hnonneg : ¬((index : ℤ) < 0) := by omega
    simp only [getArrayItem, if_neg hnonneg, children, Option.elim_some, items, hread, Int.toNat_natCast,
      List.getElem?_map]
  getStringValue_null := rfl
  getStringValue_string h := by
    have hread := h
    simp only [node] at hread
    simp only [getStringValue, read, Option.bind_some, hread]

end Nodes

end IotcRa8p1.CJson
