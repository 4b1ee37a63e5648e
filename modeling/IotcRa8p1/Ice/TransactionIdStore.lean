import Mathlib.Data.Multiset.AddSub
import Mathlib.Data.List.ReduceOption

/-!
# The store of transaction IDs (`transaction_id_store.c`)

The IDs of the requests to a STUN server that are under way, in an array of slots.  As a store it is a multiset of
bounded size (`transactionIdStore_refines`): an ID that goes in twice takes two slots, and leaves twice.
-/

namespace IotcRa8p1.Ice

variable {τ : Type}

/-- `TransactionIdStoreResult_t`, for arguments that are no NULL -/
inductive TransactionIdStoreResult where
  | ok
  | badParam
  | idNotFound
  | storeFull
  deriving DecidableEq, Repr

/-- `TransactionIdStore_t`; a slot that is not in use is `none`. -/
abbrev TransactionIdStore (τ : Type) := List (Option τ)

namespace TransactionIdStore

/-- `TransactionIdStore_Init` -/
def init (numTransactionIdSlots : ℕ) : Except TransactionIdStoreResult (TransactionIdStore τ) :=
  if numTransactionIdSlots = 0 then .error .badParam else .ok (List.replicate numTransactionIdSlots none)

/-- `TransactionIdStore_Insert`: the loop to the first slot that is not in use -/
def insert (transactionId : τ) : TransactionIdStore τ → TransactionIdStoreResult × TransactionIdStore τ
  | [] => (.storeFull, [])
  | none :: slots => (.ok, some transactionId :: slots)
  | some t :: slots => ((insert transactionId slots).1, some t :: (insert transactionId slots).2)

/-- `TransactionIdStore_HasId` -/
def hasId [DecidableEq τ] (transactionId : τ) : TransactionIdStore τ → TransactionIdStoreResult
  | [] => .idNotFound
  | none :: slots => hasId transactionId slots
  | some t :: slots => if t = transactionId then .ok else hasId transactionId slots

/-- `TransactionIdStore_Remove` -/
def remove [DecidableEq τ] (transactionId : τ) :
    TransactionIdStore τ → TransactionIdStoreResult × TransactionIdStore τ
  | [] => (.idNotFound, [])
  | none :: slots => ((remove transactionId slots).1, none :: (remove transactionId slots).2)
  | some t :: slots =>
    if t = transactionId then (.ok, none :: slots)
    else ((remove transactionId slots).1, some t :: (remove transactionId slots).2)

end TransactionIdStore

inductive StoreCall (τ : Type) where
  | insert (transactionId : τ)
  | hasId (transactionId : τ)
  | remove (transactionId : τ)

/-- A call, with its result. -/
def storeCall [DecidableEq τ] (s : TransactionIdStore τ) :
    StoreCall τ → TransactionIdStoreResult × TransactionIdStore τ
  | .insert t => TransactionIdStore.insert t s
  | .hasId t => (TransactionIdStore.hasId t s, s)
  | .remove t => TransactionIdStore.remove t s

/-- The results of calls one after the other. -/
def storeAnswers [DecidableEq τ] (s : TransactionIdStore τ) : List (StoreCall τ) → List TransactionIdStoreResult
  | [] => []
  | c :: cs => (storeCall s c).1 :: storeAnswers (storeCall s c).2 cs

/-- What a call does to a multiset of at most `n` IDs. -/
def multisetCall [DecidableEq τ] (n : ℕ) (m : Multiset τ) :
    StoreCall τ → TransactionIdStoreResult × Multiset τ
  | .insert t => if m.card < n then (.ok, t ::ₘ m) else (.storeFull, m)
  | .hasId t => (if t ∈ m then .ok else .idNotFound, m)
  | .remove t => if t ∈ m then (.ok, m.erase t) else (.idNotFound, m)

def multisetAnswers [DecidableEq τ] (n : ℕ) (m : Multiset τ) :
    List (StoreCall τ) → List TransactionIdStoreResult
  | [] => []
  | c :: cs => (multisetCall n m c).1 :: multisetAnswers n (multisetCall n m c).2 cs

namespace TransactionIdStore

/-- The IDs in the slots. -/
def contents (s : TransactionIdStore τ) : Multiset τ := (s.reduceOption : List τ)

theorem contents_none (s : TransactionIdStore τ) : contents (none :: s) = contents s := by
  rw [contents, contents, List.reduceOption_cons_of_none]

theorem contents_some (t : τ) (s : TransactionIdStore τ) : contents (some t :: s) = t ::ₘ contents s := by
  rw [contents, contents, List.reduceOption_cons_of_some, Multiset.cons_coe]

theorem card_contents_le (s : TransactionIdStore τ) : (contents s).card ≤ s.length := by
  rw [contents, Multiset.coe_card]
  exact List.reduceOption_length_le s

theorem insert_contents [DecidableEq τ] (t : τ) (s : TransactionIdStore τ) :
    ((TransactionIdStore.insert t s).1, contents (TransactionIdStore.insert t s).2) =
        multisetCall s.length (contents s) (.insert t) ∧
      (TransactionIdStore.insert t s).2.length = s.length := by
  induction s with
  | nil => exact ⟨rfl, rfl⟩
  | cons o s ih =>
    cases o with
    | none =>
      have hlt : (contents s).card < s.length + 1 := Nat.lt_succ_of_le (card_contents_le s)
      refine ⟨?_, rfl⟩
      show ((.ok : TransactionIdStoreResult), contents (some t :: s)) = _
      rw [contents_some, multisetCall, contents_none, List.length_cons, if_pos hlt]
    | some u =>
      obtain ⟨h, hlen⟩ := ih
      refine ⟨?_, congrArg Nat.succ hlen⟩
      show ((TransactionIdStore.insert t s).1, contents (some u :: (TransactionIdStore.insert t s).2)) = _
      rw [multisetCall] at h ⊢
      rw [contents_some, contents_some, List.length_cons, Multiset.card_cons]
      by_cases hfull : (contents s).card < s.length
      · rw [if_pos hfull] at h
        obtain ⟨h1, h2⟩ := Prod.mk.inj h
        rw [if_pos (Nat.succ_lt_succ hfull), h1, h2, Multiset.cons_swap]
      · rw [if_neg hfull] at h
        obtain ⟨h1, h2⟩ := Prod.mk.inj h
        rw [if_neg fun hlt => hfull (Nat.lt_of_succ_lt_succ hlt), h1, h2]

theorem hasId_contents [DecidableEq τ] (t : τ) (s : TransactionIdStore τ) :
    TransactionIdStore.hasId t s = if t ∈ contents s then .ok else .idNotFound := by
  induction s with
  | nil => rfl
  | cons o s ih =>
    cases o with
    | none => rw [contents_none, ← ih, hasId]
    | some u =>
      rw [contents_some, hasId, ih]
      by_cases hu : u = t
      · rw [if_pos hu, if_pos (hu ▸ Multiset.mem_cons_self u _)]
      · rw [if_neg hu]
        simp only [Multiset.mem_cons, Ne.symm hu, false_or]

theorem remove_contents [DecidableEq τ] (t : τ) (s : TransactionIdStore τ) :
    ((TransactionIdStore.remove t s).1, contents (TransactionIdStore.remove t s).2) =
        multisetCall s.length (contents s) (.remove t) ∧
      (TransactionIdStore.remove t s).2.length = s.length := by
  induction s with
  | nil => exact ⟨rfl, rfl⟩
  | cons o s ih =>
    obtain ⟨h, hlen⟩ := ih
    rw [multisetCall] at h
    cases o with
    | none =>
      refine ⟨?_, congrArg Nat.succ hlen⟩
      show ((TransactionIdStore.remove t s).1, contents (none :: (TransactionIdStore.remove t s).2)) = _
      rw [multisetCall, contents_none, contents_none]
      exact h
    | some u =>
      rw [multisetCall, contents_some, remove]
      by_cases hu : u = t
      · subst hu
        rw [if_pos rfl, if_pos (Multiset.mem_cons_self u _), contents_none, Multiset.erase_cons_head]
        exact ⟨rfl, rfl⟩
      · rw [if_neg hu]
        refine ⟨?_, congrArg Nat.succ hlen⟩
        dsimp only
        rw [contents_some]
        by_cases hmem : t ∈ contents s
        · rw [if_pos hmem] at h
          obtain ⟨h1, h2⟩ := Prod.mk.inj h
          rw [if_pos (Multiset.mem_cons_of_mem hmem), h1, h2, Multiset.erase_cons_tail _ (fun h => hu h)]
        · rw [if_neg hmem] at h
          obtain ⟨h1, h2⟩ := Prod.mk.inj h
          have hno : t ∉ u ::ₘ contents s := fun hin =>
            (Multiset.mem_cons.mp hin).elim (fun h => hu h.symm) hmem
          rw [if_neg hno, h1, h2]

/-- A call of the store is the call of its contents. -/
theorem storeCall_contents [DecidableEq τ] (s : TransactionIdStore τ) (c : StoreCall τ) :
    ((storeCall s c).1, contents (storeCall s c).2) = multisetCall s.length (contents s) c ∧
      (storeCall s c).2.length = s.length := by
  cases c with
  | insert t => exact insert_contents t s
  | hasId t => exact ⟨congrArg (·, contents s) (hasId_contents t s), rfl⟩
  | remove t => exact remove_contents t s

theorem storeAnswers_contents [DecidableEq τ] (cs : List (StoreCall τ)) (s : TransactionIdStore τ) :
    storeAnswers s cs = multisetAnswers s.length (contents s) cs := by
  induction cs generalizing s with
  | nil => rfl
  | cons c cs ih =>
    obtain ⟨hcall, hlen⟩ := storeCall_contents s c
    rw [storeAnswers, multisetAnswers, ih, hlen, ← hcall]

end TransactionIdStore

/-- **The store is a bounded multiset.**  Whatever is called in whatever order, a store of `n` slots answers as a
multiset of at most `n` IDs does. -/
theorem transactionIdStore_refines [DecidableEq τ] (n : ℕ) (cs : List (StoreCall τ)) :
    (TransactionIdStore.init n).map (fun s : TransactionIdStore τ => storeAnswers s cs) =
      if n = 0 then .error .badParam else .ok (multisetAnswers n 0 cs) := by
  rw [TransactionIdStore.init]
  by_cases hn : n = 0
  · rw [if_pos hn, if_pos hn]
    rfl
  · rw [if_neg hn, if_neg hn]
    show Except.ok (storeAnswers _ cs) = _
    have hempty : TransactionIdStore.contents (List.replicate n (none : Option τ)) = 0 := by
      rw [TransactionIdStore.contents, List.reduceOption_replicate_none]
      rfl
    rw [TransactionIdStore.storeAnswers_contents, List.length_replicate, hempty]

end IotcRa8p1.Ice
