import IotcRa8p1.Ice.Nomination

/-!
# The list of candidate pairs (`ice_api_private.c`)

The agent keeps its pairs in an array, sorted by priority.  A new pair goes in front of the pairs that it is not
behind, into a slot whose other fields stay as they were; of these `succeeded` is read when the channel of a relay has
been bound.
-/

namespace IotcRa8p1.Ice

open Machine Stun

variable {τ : Type}

/-- A slot of `pCandidatePairs`. -/
structure ListedPair (τ : Type) where
  priority : UInt64
  relay : Bool
  pair : CheckedPair τ

/-- `isControlling`, `pCandidatePairs` with all of its slots, and `numCandidatePairs` -/
structure PairList (τ : Type) where
  isControlling : Bool
  slots : List (ListedPair τ)
  num : ℕ

/-- `Ice_ComputeCandidatePairPriority` -/
def computeCandidatePairPriority (localCandidatePriority remoteCandidatePriority : UInt32) (isControlling : Bool) :
    UInt64 :=
  let controlling : UInt64 := (if isControlling then localCandidatePriority else remoteCandidatePriority).toUInt64
  let controlled : UInt64 := (if isControlling then remoteCandidatePriority else localCandidatePriority).toUInt64
  4294967296 * (if controlled ≤ controlling then controlled else controlling) +
    2 * (if controlled ≤ controlling then controlling else controlled) + if controlled < controlling then 1 else 0

/-- Both agents give a pair the same priority. -/
theorem computeCandidatePairPriority_symm (p q : UInt32) (isControlling : Bool) :
    computeCandidatePairPriority p q isControlling = computeCandidatePairPriority q p (!isControlling) := by
  cases isControlling <;> rfl

/-- The search of `Ice_AddCandidatePair`: the first pair that the new one is not behind. -/
def PairList.index (s : PairList τ) (priority : UInt64) : ℕ :=
  (s.slots.take s.num).findIdx fun q => q.priority ≤ priority

/-- The pairs from the index on move by one; the slot at the index keeps what is not written to it. -/
def insertPair (s : PairList τ) (priority : UInt64) (relay : Bool) (transactionId : τ) :
    Except IceResult (PairList τ) :=
  if s.num = s.slots.length then .error .maxCandidatePairThreshold
  else
    match s.slots[s.index priority]? with
    | none => .error .maxCandidatePairThreshold
    | some old =>
      let pair : CheckedPair τ := { old.pair with
        state := if relay then .createPermission else .waiting, connectivityCheckFlags := {}, transactionId }
      .ok ⟨s.isControlling, s.slots.take (s.index priority) ++ ⟨priority, relay, pair⟩ ::
        ((s.slots.drop (s.index priority)).take (s.num - s.index priority) ++ s.slots.drop (s.num + 1)), s.num + 1⟩

/-- `Ice_AddCandidatePair` -/
def addCandidatePair (s : PairList τ) (localPriority remotePriority : UInt32) (relay : Bool) (transactionId : τ) :
    Except IceResult (PairList τ) :=
  insertPair s (computeCandidatePairPriority localPriority remotePriority s.isControlling) relay transactionId

/-- `Ice_HandleTurnCreatePermissionSuccessResponse`, as what it does to the pair -/
def onPermission (pair : CheckedPair τ) (draw : IceResult × τ) : CheckedPair τ :=
  if pair.state ≠ .createPermission ∧ pair.state ≠ .succeeded then pair
  else if draw.1 ≠ .ok then { pair with transactionId := draw.2 }
  else { pair with transactionId := draw.2, state := .channelBind }

/-- `Ice_HandleTurnChannelBindSuccessResponse`, as what it does to the pair -/
def onChannelBound (pair : CheckedPair τ) (draw : IceResult × τ) : CheckedPair τ :=
  if pair.state ≠ .channelBind then pair
  else if draw.1 ≠ .ok then { pair with transactionId := draw.2 }
  else { pair with transactionId := draw.2, state := if pair.succeeded then .succeeded else .waiting }

/-- `Ice_CreateNextPairRequest`, as what it leaves of the pair; a request to a TURN server changes nothing. -/
def onNextRequest (isControlling : Bool) (pair : CheckedPair τ) : CheckedPair τ :=
  ((nextPairRequest isControlling pair).map Prod.snd).getD pair

/-- A pair is added, its next request is written, or a message arrives for it. -/
inductive PairEvent (τ : Type) where
  | add (localPriority remotePriority : UInt32) (relay : Bool) (transactionId : τ)
  | send (i : ℕ) (isControlling : Bool)
  | request (i : ℕ) (isControlling free useCandidate : Bool) (draw : IceResult × τ)
  | response (i : ℕ) (isControlling : Bool) (transactionId : τ) (address : StunAttributeAddress) (otherIp : Bool)
      (draw : IceResult × τ)
  | permission (i : ℕ) (draw : IceResult × τ)
  | channelBound (i : ℕ) (draw : IceResult × τ)

/-- One of the listed pairs changes. -/
def PairList.change (s : PairList τ) (i : ℕ) (f : CheckedPair τ → CheckedPair τ) : Option (PairList τ) :=
  match s.slots[i]? with
  | none => none
  | some q => if i < s.num then some { s with slots := s.slots.set i { q with pair := f q.pair } } else none

def pairStep [DecidableEq τ] (s : PairList τ) : PairEvent τ → Option (PairList τ)
  | .add localPriority remotePriority relay transactionId =>
    (addCandidatePair s localPriority remotePriority relay transactionId).toOption
  | .send i isControlling => s.change i (onNextRequest isControlling)
  | .request i isControlling free useCandidate draw =>
    s.change i fun pair => (onBindingRequest isControlling free pair { useCandidateFlag := useCandidate } draw).1
  | .response i isControlling transactionId address otherIp draw =>
    s.change i fun pair => (onConnectivityCheckResponse isControlling pair transactionId
      { peerTransportAddress := address } otherIp draw).1
  | .permission i draw => s.change i (onPermission · draw)
  | .channelBound i draw => s.change i (onChannelBound · draw)

/-- A pair goes into the slot of one that has succeeded. -/
def InFront (s : PairList τ) : PairEvent τ → Prop
  | .add localPriority remotePriority _ _ =>
    ∃ q, s.slots[s.index (computeCandidatePairPriority localPriority remotePriority s.isControlling)]? = some q ∧
      q.pair.succeeded = true
  | _ => False

instance decidableInFront (s : PairList τ) : (e : PairEvent τ) → Decidable (InFront s e)
  | .add localPriority remotePriority _ _ =>
    match h : s.slots[s.index (computeCandidatePairPriority localPriority remotePriority s.isControlling)]? with
    | none => .isFalse fun ⟨q, hq, _⟩ => by
      rw [h] at hq
      cases hq
    | some q => decidable_of_iff (q.pair.succeeded = true)
        ⟨fun hs => ⟨q, h, hs⟩, fun ⟨_, hq, hs⟩ => by rwa [← Option.some.inj (h.symm.trans hq)] at hs⟩
  | .send _ _ => .isFalse id
  | .request _ _ _ _ _ => .isFalse id
  | .response _ _ _ _ _ _ => .isFalse id
  | .permission _ _ => .isFalse id
  | .channelBound _ _ => .isFalse id

theorem nextPairRequest_succeeded {isControlling : Bool} {pair p : CheckedPair τ} {r : Request τ}
    (h : nextPairRequest isControlling pair = some (r, p)) : p.succeeded = pair.succeeded := by
  obtain ⟨state, ⟨f1, f2, f3, f4⟩, succeeded, tid⟩ := pair
  cases state <;> cases isControlling <;> cases f2 <;>
    simp [nextPairRequest, checkRequest] at h <;> obtain ⟨rfl, rfl⟩ := h <;> rfl

/-- What has succeeded has been checked. -/
def Checked (pair : CheckedPair τ) : Prop :=
  (pair.state = .succeeded ∨ pair.succeeded = true) → pair.connectivityCheckFlags.successful

theorem Checked.nextRequest {pair : CheckedPair τ} (h : Checked pair) (isControlling : Bool) :
    Checked (onNextRequest isControlling pair) := by
  unfold onNextRequest
  cases hnext : nextPairRequest isControlling pair with
  | none => exact h
  | some next =>
    obtain ⟨r, p⟩ := next
    obtain ⟨-, -, hstate, -, hsuccessful, hpair⟩ := nextPairRequest_cases hnext
    have hsucceeded : p.succeeded = pair.succeeded := nextPairRequest_succeeded hnext
    intro hs
    rw [Option.map_some, Option.getD_some] at hs ⊢
    rw [hstate, hsucceeded] at hs
    exact hsuccessful (h hs)

theorem Checked.request {pair : CheckedPair τ} (h : Checked pair) (isControlling free useCandidate : Bool)
    (draw : IceResult × τ) :
    Checked (onBindingRequest isControlling free pair { useCandidateFlag := useCandidate } draw).1 := by
  obtain ⟨state, ⟨f1, f2, f3, f4⟩, succeeded, tid⟩ := pair
  unfold Checked at h ⊢
  cases useCandidate <;> cases isControlling <;> cases free <;> cases f1 <;> cases f2 <;> cases f3 <;> cases f4 <;>
    simp_all [onBindingRequest, ConnectivityCheckFlags.successful]
  all_goals split_ifs <;> simp_all

theorem Checked.response [DecidableEq τ] {pair : CheckedPair τ} (h : Checked pair) (isControlling : Bool)
    (transactionId : τ) (info : IceStunDeserializedPacketInfo) (otherIp : Bool) (draw : IceResult × τ) :
    Checked (onConnectivityCheckResponse isControlling pair transactionId info otherIp draw).1 := by
  obtain ⟨state, ⟨f1, f2, f3, f4⟩, succeeded, tid⟩ := pair
  unfold Checked at h ⊢
  rw [onConnectivityCheckResponse]
  by_cases h1 : info.errorCode ≠ 0
  · rw [if_pos h1]
    exact h
  rw [if_neg h1]
  by_cases h2 : tid ≠ transactionId
  · rw [if_pos h2]
    exact h
  rw [if_neg h2]
  by_cases h3 : draw.1 ≠ .ok
  · rw [if_pos h3]
    exact h
  rw [if_neg h3]
  cases f1 <;> cases f2 <;> cases f3 <;> cases f4 <;> simp_all [ConnectivityCheckFlags.successful]
  all_goals split_ifs <;> simp_all

theorem Checked.permission {pair : CheckedPair τ} (h : Checked pair) (draw : IceResult × τ) :
    Checked (onPermission pair draw) := by
  unfold onPermission
  split_ifs
  · exact h
  · exact h
  · rintro (hs | hs)
    · cases hs
    · exact h (.inr hs)

theorem Checked.channelBound {pair : CheckedPair τ} (h : Checked pair) (draw : IceResult × τ) :
    Checked (onChannelBound pair draw) := by
  unfold onChannelBound
  split_ifs with h1 h2 h3
  · exact h
  · exact h
  · exact fun _ => h (.inr h3)
  · rintro (hs | hs)
    · cases hs
    · exact h (.inr hs)

/-! ### The list stays sorted -/

/-- The priorities of the slots. -/
def PairList.priorities (s : PairList τ) : List UInt64 := s.slots.map ListedPair.priority

/-- Sorted in every run; what has succeeded has been checked in those that meet the condition. -/
structure PairList.Sound (guarded : Prop) (s : PairList τ) : Prop where
  num : s.num ≤ s.slots.length
  sorted : (s.priorities.take s.num).Pairwise (· ≥ ·)
  checked : guarded → ∀ q ∈ s.slots, Checked q.pair

variable {guarded : Prop}

theorem PairList.Sound.change {s s' : PairList τ} {i : ℕ} {f : CheckedPair τ → CheckedPair τ} (h : s.Sound guarded)
    (hf : ∀ pair, Checked pair → Checked (f pair)) (hchange : s.change i f = some s') : s'.Sound guarded := by
  unfold PairList.change at hchange
  cases hq : s.slots[i]? with
  | none =>
    rw [hq] at hchange
    cases hchange
  | some q =>
    rw [hq] at hchange
    dsimp only at hchange
    split_ifs at hchange with hi
    obtain ⟨hlt, hget⟩ := List.getElem?_eq_some_iff.mp hq
    rw [← Option.some.inj hchange]
    refine ⟨?_, ?_, ?_⟩
    · show s.num ≤ (s.slots.set i _).length
      rw [List.length_set]
      exact h.num
    · have hsame : (s.slots.set i { q with pair := f q.pair }).map ListedPair.priority = s.priorities := by
        apply List.ext_getElem?
        intro j
        rw [PairList.priorities, List.getElem?_map, List.getElem?_map]
        by_cases hj : i = j
        · subst hj
          rw [List.getElem?_set_self hlt, hq]
          rfl
        · rw [List.getElem?_set_ne hj]
      show (((s.slots.set i _).map ListedPair.priority).take s.num).Pairwise _
      rw [hsame]
      exact h.sorted
    · intro hg q' hq'
      rcases List.mem_or_eq_of_mem_set hq' with hq' | rfl
      · exact h.checked hg q' hq'
      · exact hf q.pair (h.checked hg q (hget ▸ List.getElem_mem hlt))

theorem PairList.index_le (s : PairList τ) (priority : UInt64) : s.index priority ≤ s.num :=
  (List.findIdx_le_length).trans (List.length_take_le _ _)

/-- Where the new pair goes: behind the ones that it is behind, in front of the others. -/
theorem PairList.Sound.index_split {s : PairList τ} (h : s.Sound guarded) (priority : UInt64) :
    (∀ p ∈ s.priorities.take (s.index priority), priority < p) ∧
      ∀ p ∈ (s.priorities.drop (s.index priority)).take (s.num - s.index priority), p ≤ priority := by
  have hnum := h.num
  have hlen : s.priorities.length = s.slots.length := List.length_map _
  have hlisted : (s.slots.take s.num).length = s.num := by rw [List.length_take, Nat.min_eq_left hnum]
  refine ⟨fun p hp => ?_, fun p hp => ?_⟩
  · obtain ⟨j, hj, rfl⟩ := List.mem_iff_getElem.mp hp
    rw [List.length_take] at hj
    have hlt : j < s.index priority := by omega
    have hno := List.not_of_lt_findIdx hlt
    rw [List.getElem_take] at hno
    simp only [PairList.priorities, List.getElem_take, List.getElem_map]
    simpa using hno
  · obtain ⟨j, hj, rfl⟩ := List.mem_iff_getElem.mp hp
    rw [List.length_take, List.length_drop] at hj
    have hlt : s.index priority < (s.slots.take s.num).length := by omega
    have hyes : (s.slots.take s.num)[s.index priority].priority ≤ priority :=
      of_decide_eq_true (List.findIdx_getElem (w := hlt))
    rw [List.getElem_take] at hyes
    rw [List.getElem_take, List.getElem_drop]
    rcases Nat.eq_zero_or_pos j with rfl | hpos
    · simpa only [PairList.priorities, List.getElem_map, Nat.add_zero] using hyes
    · have hle := List.pairwise_iff_getElem.mp h.sorted (s.index priority) (s.index priority + j)
        (by rw [List.length_take]; omega) (by rw [List.length_take]; omega) (by omega)
      rw [List.getElem_take, List.getElem_take] at hle
      refine UInt64.le_trans hle ?_
      simpa only [PairList.priorities, List.getElem_map] using hyes

/-- A pair whose slot held none that has succeeded starts unchecked and not succeeded. -/
theorem PairList.Sound.insert {s s' : PairList τ} {priority : UInt64} {relay : Bool} {transactionId : τ}
    (h : s.Sound guarded) (hfront : guarded → ¬∃ q, s.slots[s.index priority]? = some q ∧ q.pair.succeeded = true)
    (hadd : insertPair s priority relay transactionId = .ok s') : s'.Sound guarded := by
  rw [insertPair] at hadd
  by_cases hfull : s.num = s.slots.length
  · rw [if_pos hfull] at hadd
    cases hadd
  rw [if_neg hfull] at hadd
  cases hold : s.slots[s.index priority]? with
  | none =>
    rw [hold] at hadd
    cases hadd
  | some old =>
    rw [hold] at hadd
    have hs' := Except.ok.inj hadd
    have hindex := s.index_le priority
    have hnum := h.num
    obtain ⟨hbefore, hafter⟩ := h.index_split priority
    rw [← hs']
    refine ⟨?_, ?_, fun hg q hq => ?_⟩
    · simp only [List.length_append, List.length_cons, List.length_take, List.length_drop]
      omega
    · have hlen : s.priorities.length = s.slots.length := List.length_map _
      have htake : ((s.priorities.take (s.index priority) ++ priority ::
          (s.priorities.drop (s.index priority)).take (s.num - s.index priority)) ++
          s.priorities.drop (s.num + 1)).take (s.num + 1) = s.priorities.take (s.index priority) ++ priority ::
          (s.priorities.drop (s.index priority)).take (s.num - s.index priority) := by
        apply List.take_left'
        simp only [List.length_append, List.length_cons, List.length_take, List.length_drop]
        omega
      rw [PairList.priorities]
      simp only [List.map_append, List.map_cons, List.map_take, List.map_drop]
      rw [List.append_assoc, List.cons_append] at htake
      show ((s.priorities.take _ ++ priority ::
        ((s.priorities.drop _).take _ ++ s.priorities.drop _)).take _).Pairwise _
      rw [htake]
      refine List.pairwise_append.mpr ⟨?_, List.pairwise_cons.mpr ⟨hafter, ?_⟩, ?_⟩
      · have hpart := h.sorted.sublist (List.take_sublist (s.index priority) _)
        rwa [List.take_take, Nat.min_eq_left hindex] at hpart
      · have hpart := h.sorted.sublist (List.drop_sublist (s.index priority) _)
        rwa [List.drop_take] at hpart
      · intro a ha b hb
        have habove : priority ≤ a := UInt64.le_of_lt (hbefore a ha)
        rcases List.mem_cons.mp hb with rfl | hb
        · exact habove
        · exact UInt64.le_trans (hafter b hb) habove
    · rcases List.mem_append.mp hq with hq | hq
      · exact h.checked hg q (List.mem_of_mem_take hq)
      rcases List.mem_cons.mp hq with rfl | hq
      · rintro (hs | hs)
        · cases relay <;> cases hs
        · exact absurd ⟨old, hold, hs⟩ (hfront hg)
      rcases List.mem_append.mp hq with hq | hq
      · exact h.checked hg q (List.mem_of_mem_drop (List.mem_of_mem_take hq))
      · exact h.checked hg q (List.mem_of_mem_drop hq)

theorem PairList.Sound.step [DecidableEq τ] {s s' : PairList τ} {e : PairEvent τ} (h : s.Sound guarded)
    (hfront : guarded → ¬InFront s e) (hstep : pairStep s e = some s') : s'.Sound guarded := by
  cases e with
  | add localPriority remotePriority relay transactionId =>
    have hadd : addCandidatePair s localPriority remotePriority relay transactionId = .ok s' := by
      rw [pairStep] at hstep
      cases hadd : addCandidatePair s localPriority remotePriority relay transactionId with
      | error e =>
        rw [hadd] at hstep
        cases hstep
      | ok t =>
        rw [hadd] at hstep
        exact congrArg Except.ok (Option.some.inj hstep)
    exact h.insert hfront hadd
  | send i isControlling => exact h.change (fun _ hc => hc.nextRequest isControlling) hstep
  | request i isControlling free useCandidate draw =>
    exact h.change (fun _ hc => hc.request isControlling free useCandidate draw) hstep
  | response i isControlling transactionId address otherIp draw =>
    exact h.change (fun _ hc => hc.response isControlling transactionId _ otherIp draw) hstep
  | permission i draw => exact h.change (fun _ hc => hc.permission draw) hstep
  | channelBound i draw => exact h.change (fun _ hc => hc.channelBound draw) hstep

theorem PairList.Sound.runs [DecidableEq τ] {s s' : PairList τ} {es : List (PairEvent τ)} (h : s.Sound guarded)
    (hfront : Meets pairStep (fun s e => guarded → ¬InFront s e) es s) (hrun : runs pairStep es s = some s') :
    s'.Sound guarded :=
  runs_invariant (fun h hok hstep => PairList.Sound.step h hok hstep) h hfront hrun

/-! ### A slot that keeps `succeeded` -/

/-- Where the new pair stands, and what its slot keeps. -/
theorem insertPair_slot {s s' : PairList τ} {priority : UInt64} {relay : Bool} {transactionId : τ}
    (hnum : s.num ≤ s.slots.length) (h : insertPair s priority relay transactionId = .ok s') :
    ∃ old q, s.slots[s.index priority]? = some old ∧ s'.slots[s.index priority]? = some q ∧
      s.index priority < s'.num ∧ q.pair = { old.pair with
        state := if relay then .createPermission else .waiting, connectivityCheckFlags := {}, transactionId } := by
  rw [insertPair] at h
  by_cases hfull : s.num = s.slots.length
  · rw [if_pos hfull] at h
    cases h
  rw [if_neg hfull] at h
  cases hold : s.slots[s.index priority]? with
  | none =>
    rw [hold] at h
    cases h
  | some old =>
    rw [hold] at h
    have hindex := s.index_le priority
    have hlen : (s.slots.take (s.index priority)).length = s.index priority := by
      rw [List.length_take]
      omega
    rw [← Except.ok.inj h]
    refine ⟨old, ⟨priority, relay, _⟩, rfl, ?_, Nat.lt_succ_of_le hindex, rfl⟩
    rw [List.getElem?_append_right (by rw [hlen]), hlen, Nat.sub_self]
    rfl

/-- A change of a listed pair. -/
theorem PairList.change_slot {s : PairList τ} {i : ℕ} {q : ListedPair τ} (hq : s.slots[i]? = some q) (hi : i < s.num)
    (f : CheckedPair τ → CheckedPair τ) :
    ∃ s', s.change i f = some s' ∧ s'.num = s.num ∧ s'.slots[i]? = some { q with pair := f q.pair } := by
  have hlt : i < s.slots.length := (List.getElem?_eq_some_iff.mp hq).1
  refine ⟨{ s with slots := s.slots.set i { q with pair := f q.pair } }, ?_, rfl, List.getElem?_set_self hlt⟩
  rw [PairList.change, hq]
  exact if_pos hi

/-- The events that make a relay's new pair usable: it is added, its permission is created, its channel is bound. -/
def bindRelay (s : PairList τ) (localPriority remotePriority : UInt32) (transactionId t t' : τ) :
    List (PairEvent τ) :=
  let i := s.index (computeCandidatePairPriority localPriority remotePriority s.isControlling)
  [.add localPriority remotePriority true transactionId, .permission i (.ok, t), .channelBound i (.ok, t')]

/-- In front of a pair that has succeeded, a relay's pair succeeds with its channel, without any check. -/
theorem bindRelay_unchecked [DecidableEq τ] {s : PairList τ} (hroom : s.num < s.slots.length)
    (localPriority remotePriority : UInt32) (transactionId t t' : τ)
    (hfront : InFront s (.add localPriority remotePriority true transactionId)) :
    ∃ s' q, runs pairStep (bindRelay s localPriority remotePriority transactionId t t') s = some s' ∧
      s'.slots[s.index (computeCandidatePairPriority localPriority remotePriority s.isControlling)]? = some q ∧
      q.pair.state = .succeeded ∧ q.pair.connectivityCheckFlags = {} := by
  obtain ⟨kept, hkept, hsucceeded⟩ := hfront
  obtain ⟨s1, hadd⟩ : ∃ s1, addCandidatePair s localPriority remotePriority true transactionId = .ok s1 := by
    rw [addCandidatePair, insertPair, if_neg (Nat.ne_of_lt hroom), hkept]
    exact ⟨_, rfl⟩
  obtain ⟨old, q, hold, hq, hi, hpair⟩ := insertPair_slot hroom.le hadd
  obtain rfl := Option.some.inj (hold.symm.trans hkept)
  obtain ⟨s2, hpermission, hnum2, hq2⟩ := PairList.change_slot hq hi (onPermission · (.ok, t))
  obtain ⟨s3, hbound, -, hq3⟩ := PairList.change_slot hq2 (hnum2 ▸ hi) (onChannelBound · (.ok, t'))
  have hstep : pairStep s (.add localPriority remotePriority true transactionId) = some s1 := by
    rw [pairStep, hadd]
    rfl
  refine ⟨s3, _, ?_, hq3, ?_, ?_⟩
  · rw [bindRelay, runs_cons, hstep, Option.bind_some, runs_cons, pairStep, hpermission, Option.bind_some, runs_cons,
      pairStep, hbound]
    rfl
  · simp [hpair, onPermission, onChannelBound, hsucceeded]
  · simp [hpair, onPermission, onChannelBound, hsucceeded]

/-- **The pair list.**  From an empty list on, whatever pairs are added, whatever requests are written and whatever
messages arrive for them, the pairs stay sorted by priority; where no pair takes the slot of one that has succeeded, a
pair that has succeeded has been checked; a relay's pair that does take such a slot succeeds with its channel, without
a check. -/
theorem pairList_sound [DecidableEq τ] {s s' : PairList τ} (es : List (PairEvent τ)) (hempty : s.num = 0)
    (hblank : ∀ q ∈ s.slots, q.pair.succeeded = false ∧ q.pair.state ≠ .succeeded)
    (hrun : runs pairStep es s = some s') :
    (s'.priorities.take s'.num).Pairwise (· ≥ ·) ∧
      (Meets pairStep (fun s e => ¬InFront s e) es s →
        ∀ q ∈ s'.slots, q.pair.state = .succeeded → q.pair.connectivityCheckFlags.successful) ∧
      ∀ localPriority remotePriority transactionId t t', s'.num < s'.slots.length →
        InFront s' (.add localPriority remotePriority true transactionId) →
        ∃ s'' q, runs pairStep (bindRelay s' localPriority remotePriority transactionId t t') s' = some s'' ∧
          s''.slots[s'.index (computeCandidatePairPriority localPriority remotePriority s'.isControlling)]? = some q ∧
          q.pair.state = .succeeded ∧ q.pair.connectivityCheckFlags = {} := by
  have hstart : ∀ guarded, s.Sound guarded := by
    refine fun guarded => ⟨by omega, ?_, fun _ q hq => ?_⟩
    · rw [hempty]
      exact List.Pairwise.nil
    · obtain ⟨h1, h2⟩ := hblank q hq
      rintro (hs | hs)
      · exact absurd hs h2
      · rw [h1] at hs
        cases hs
  have h : s'.Sound False := (hstart False).runs (meets_of_forall (fun _ _ _ hno => hno.elim) s) hrun
  refine ⟨h.sorted, fun hfront q hq hs => ?_, fun localPriority remotePriority transactionId t t' hroom hin => ?_⟩
  · have h' : s'.Sound True := (hstart True).runs (hfront.mono fun _ _ _ hok _ => hok) hrun
    exact h'.checked trivial q hq (.inl hs)
  · exact bindRelay_unchecked hroom localPriority remotePriority transactionId t t' hin

/-- Room for two pairs. -/
def twoSlots : PairList ℕ := ⟨false, List.replicate 2 ⟨0, false, ⟨.invalid, {}, false, 0⟩⟩, 0⟩

/-- The controlled agent lists a pair and checks it; the other side nominates it and answers. -/
def checkOne : List (PairEvent ℕ) :=
  [.add 5 5 false 1, .send 0 false, .request 0 false true true (.ok, 0), .response 0 false 1 noAddress false (.ok, 2)]

theorem pairList_sound_checkOne : ∃ s, runs pairStep checkOne twoSlots = some s ∧
    s.slots.head?.map (·.pair.state) = some .succeeded ∧
    (∀ q ∈ s.slots, q.pair.state = .succeeded → q.pair.connectivityCheckFlags.successful) ∧
    ∃ s' q, runs pairStep (bindRelay s 7 7 3 4 5) s = some s' ∧
      s'.slots[s.index (computeCandidatePairPriority 7 7 s.isControlling)]? = some q ∧
      q.pair.state = .succeeded ∧ q.pair.connectivityCheckFlags = {} := by
  obtain ⟨s, hrun⟩ := Option.isSome_iff_exists.mp (show (runs pairStep checkOne twoSlots).isSome by decide)
  have hrest : (runs pairStep checkOne twoSlots).map (fun s => (s.slots.head?.map (·.pair.state),
      decide (s.num < s.slots.length), decide (InFront s (.add 7 7 true 3)))) =
    some (some .succeeded, true, true) := by decide
  rw [hrun] at hrest
  simp only [Option.map_some, Option.some.injEq, Prod.mk.injEq, decide_eq_true_eq] at hrest
  obtain ⟨hhead, hroom, hfront⟩ := hrest
  have hblank : ∀ q ∈ twoSlots.slots, q.pair.succeeded = false ∧ q.pair.state ≠ .succeeded := by
    simp [twoSlots]
  obtain ⟨-, hchecked, hunchecked⟩ := pairList_sound checkOne rfl hblank hrun
  exact ⟨s, hrun, hhead, hchecked (by decide), hunchecked 7 7 3 4 5 hroom hfront⟩

end IotcRa8p1.Ice
