import IotcRa8p1.Ice.StunPacket
import IotcRa8p1.Lib.Machine
import Mathlib.Logic.Function.Basic

/-!
# Nominating a candidate pair (`ice_api_private.c`)

The two agents of a session, each with its pairs of candidates.  Requests and responses go over UDP: a packet that was
sent may arrive never, once or many times, and in any order.  Of what a packet says the agents read here the flag of a
nomination and the address in a response.
-/

namespace IotcRa8p1.Ice

open Machine Stun

/-- `IceCandidatePairState_t` -/
inductive CandidatePairState where
  | invalid
  | frozen
  | waiting
  | valid
  | nominated
  | succeeded
  | createPermission
  | channelBind
  deriving DecidableEq, Repr

/-- `connectivityCheckFlags` -/
structure ConnectivityCheckFlags where
  requestSent : Bool := false
  responseReceived : Bool := false
  requestReceived : Bool := false
  responseSent : Bool := false
  deriving DecidableEq, Repr

/-- `ICE_STUN_CONNECTIVITY_CHECK_SUCCESSFUL` -/
def ConnectivityCheckFlags.successful (f : ConnectivityCheckFlags) : Bool :=
  f.requestSent && f.responseReceived && f.requestReceived && f.responseSent

/-- What the check and the nomination use of `IceCandidatePair_t`, for a local candidate that is no relay. -/
structure CheckedPair (τ : Type) where
  state : CandidatePairState
  connectivityCheckFlags : ConnectivityCheckFlags
  succeeded : Bool
  transactionId : τ
  deriving DecidableEq, Repr

/-- What they use of `IceContext_t`. -/
structure Agent (ι τ : Type) where
  isControlling : Bool
  pairs : ι → CheckedPair τ
  nominatedPair : Option ι

/-- A binding request. -/
structure Request (τ : Type) where
  transactionId : τ
  useCandidate : Bool
  deriving DecidableEq, Repr

variable {ι τ : Type}

/-- The pair of `Ice_HandleStunBindingRequest`, whether it is the agent's nominated one from now on, and the result.
`free` is that no pair is nominated yet; `draw` is the answer of `randomFxn`. -/
def onBindingRequest (isControlling free : Bool) (pair : CheckedPair τ) (info : IceStunDeserializedPacketInfo)
    (draw : IceResult × τ) : CheckedPair τ × Bool × IceHandleStunPacketResult :=
  if info.errorCode ≠ 0 then (pair, false, .nonZeroErrorCode)
  else
    let state : CandidatePairState := if ¬isControlling ∧ info.useCandidateFlag then .nominated else pair.state
    let flags : ConnectivityCheckFlags :=
      { pair.connectivityCheckFlags with requestReceived := true, responseSent := true }
    if ¬flags.requestSent then
      ({ pair with state, connectivityCheckFlags := { flags with requestSent := true } }, false, .sendTriggeredCheck)
    else if ¬flags.successful then
      ({ pair with state, connectivityCheckFlags := flags }, false, .sendResponseForRemoteRequest)
    else if ¬isControlling then
      if state = .nominated then
        ({ pair with state := .succeeded, connectivityCheckFlags := flags }, true, .sendResponseForRemoteRequest)
      else ({ pair with state := .valid, connectivityCheckFlags := flags }, false, .sendResponseForRemoteRequest)
    else if free then
      ({ pair with state := .nominated, connectivityCheckFlags := flags, transactionId := draw.2 }, true,
        if draw.1 = .ok then .sendResponseAndStartNomination else .randomErrorCode)
    else ({ pair with state, connectivityCheckFlags := flags }, false, .sendResponseForRemoteRequest)

/-- The pair of `Ice_HandleConnectivityCheckResponse`, in the same way.  `otherIp` is that both candidates are server
reflexive and the response shows another address. -/
def onConnectivityCheckResponse [DecidableEq τ] (isControlling : Bool) (pair : CheckedPair τ) (transactionId : τ)
    (info : IceStunDeserializedPacketInfo) (otherIp : Bool) (draw : IceResult × τ) :
    CheckedPair τ × Bool × IceHandleStunPacketResult :=
  if info.errorCode ≠ 0 then (pair, false, .nonZeroErrorCode)
  else if pair.transactionId ≠ transactionId then (pair, false, .matchingTransactionIdNotFound)
  else if draw.1 ≠ .ok then ({ pair with transactionId := draw.2 }, false, .randomErrorCode)
  else
    let flags : ConnectivityCheckFlags := { pair.connectivityCheckFlags with responseReceived := true }
    let pair : CheckedPair τ := { pair with transactionId := draw.2, connectivityCheckFlags := flags }
    if flags.successful then
      if pair.state = .nominated then
        ({ pair with state := .succeeded, succeeded := true }, false, .candidatePairReady)
      else if ¬isControlling then ({ pair with state := .valid }, false, .validCandidatePair)
      else ({ pair with state := .nominated }, true, .startNomination)
    else
      (pair, false, if info.peerTransportAddress.family = 0 then .addressAttributeNotFound
        else if otherIp then .foundPeerReflexiveCandidate else .ok)

/-- The agent with one of its pairs changed. -/
def Agent.put [DecidableEq ι] (a : Agent ι τ) (i : ι) (pair : CheckedPair τ) (nominate : Bool) : Agent ι τ :=
  { a with pairs := Function.update a.pairs i pair, nominatedPair := if nominate then some i else a.nominatedPair }

/-- `Ice_HandleStunBindingRequest`, for a packet that was accepted and belongs to a pair -/
def handleStunBindingRequest [DecidableEq ι] (a : Agent ι τ) (i : ι) (info : IceStunDeserializedPacketInfo)
    (draw : IceResult × τ) : Agent ι τ × IceHandleStunPacketResult :=
  let (pair, nominate, result) := onBindingRequest a.isControlling a.nominatedPair.isNone (a.pairs i) info draw
  (a.put i pair nominate, result)

/-- `Ice_HandleConnectivityCheckResponse`, for a packet that was accepted and belongs to a pair -/
def handleConnectivityCheckResponse [DecidableEq ι] [DecidableEq τ] (a : Agent ι τ) (i : ι) (transactionId : τ)
    (info : IceStunDeserializedPacketInfo) (otherIp : Bool) (draw : IceResult × τ) :
    Agent ι τ × IceHandleStunPacketResult :=
  let (pair, nominate, result) :=
    onConnectivityCheckResponse a.isControlling (a.pairs i) transactionId info otherIp draw
  (a.put i pair nominate, result)

/-- `Ice_CreateRequestForConnectivityCheck`, as what it does to the pair -/
def checkRequest (pair : CheckedPair τ) : Option (Request τ × CheckedPair τ) :=
  if pair.connectivityCheckFlags.responseReceived then none
  else
    some (⟨pair.transactionId, false⟩,
      { pair with connectivityCheckFlags := { pair.connectivityCheckFlags with requestSent := true } })

/-- `Ice_CreateNextPairRequest` for a pair that is no relay, as what it does to the pair -/
def nextPairRequest (isControlling : Bool) (pair : CheckedPair τ) : Option (Request τ × CheckedPair τ) :=
  match pair.state with
  | .waiting => checkRequest pair
  | .nominated => if isControlling then some (⟨pair.transactionId, true⟩, pair) else checkRequest pair
  | _ => none

/-! ### The two agents -/

inductive Side where
  | controlling
  | controlled
  deriving DecidableEq, Repr

def Side.other : Side → Side
  | .controlling => .controlled
  | .controlled => .controlling

/-- The agents, the packets sent to each side so far, and the transaction IDs drawn so far. -/
structure Session (ι τ : Type) where
  agents : Side → Agent ι τ
  requests : List (Side × ι × Request τ)
  responses : List (Side × ι × τ)
  drawn : List τ

/-- A side writes the next request of a pair, or a packet reaches it; a packet takes nothing from the ones sent. -/
inductive SessionEvent (ι τ : Type) where
  | send (side : Side) (i : ι)
  | request (side : Side) (i : ι) (r : Request τ) (draw : τ)
  | response (side : Side) (i : ι) (transactionId : τ) (address : StunAttributeAddress) (otherIp : Bool) (draw : τ)

/-- One event.  `randomFxn` gives IDs that were not drawn before. -/
def sessionStep [DecidableEq ι] [DecidableEq τ] (s : Session ι τ) : SessionEvent ι τ → Option (Session ι τ)
  | .send side i =>
    (nextPairRequest (s.agents side).isControlling ((s.agents side).pairs i)).map fun (r, pair) =>
      { s with
        agents := Function.update s.agents side ((s.agents side).put i pair false)
        requests := (side.other, i, r) :: s.requests }
  | .request side i r draw =>
    if (side, i, r) ∈ s.requests ∧ draw ∉ s.drawn then
      some { s with
        agents := Function.update s.agents side
          (handleStunBindingRequest (s.agents side) i { useCandidateFlag := r.useCandidate } (.ok, draw)).1
        responses := (side.other, i, r.transactionId) :: s.responses
        drawn := draw :: s.drawn }
    else none
  | .response side i transactionId address otherIp draw =>
    if (side, i, transactionId) ∈ s.responses ∧ draw ∉ s.drawn then
      some { s with
        agents := Function.update s.agents side (handleConnectivityCheckResponse (s.agents side) i transactionId
          { peerTransportAddress := address } otherIp (.ok, draw)).1
        drawn := draw :: s.drawn }
    else none

/-- The pair of a side. -/
def Session.pair (s : Session ι τ) (side : Side) (i : ι) : CheckedPair τ := (s.agents side).pairs i

/-- A session in which nothing has been sent yet. -/
structure Session.Fresh (s : Session ι τ) : Prop where
  controlling : (s.agents .controlling).isControlling = true
  controlled : (s.agents .controlled).isControlling = false
  waiting : ∀ side i, (s.pair side i).state = .waiting
  flags : ∀ side i, (s.pair side i).connectivityCheckFlags = {}
  drawn : ∀ side i, (s.pair side i).transactionId ∈ s.drawn
  requests : s.requests = []
  responses : s.responses = []

/-- A connectivity check that reaches this pair of the controlled agent once it has succeeded. -/
def Late (i : ι) (s : Session ι τ) : SessionEvent ι τ → Prop
  | .request .controlled j r _ => j = i ∧ r.useCandidate = false ∧ (s.pair .controlled i).state = .succeeded
  | _ => False

instance decidableLate [DecidableEq ι] (i : ι) (s : Session ι τ) : (e : SessionEvent ι τ) → Decidable (Late i s e)
  | .request .controlled j r _ =>
    inferInstanceAs (Decidable (j = i ∧ r.useCandidate = false ∧ (s.pair .controlled i).state = .succeeded))
  | .request .controlling _ _ _ => inferInstanceAs (Decidable False)
  | .send _ _ => inferInstanceAs (Decidable False)
  | .response _ _ _ _ _ _ => inferInstanceAs (Decidable False)

/-! ### One pair -/

section pair

variable {pair p : CheckedPair τ} {draw : IceResult × τ} {uc : Bool}

theorem onBindingRequest_controlled {free : Bool}
    (h : (onBindingRequest false free pair { useCandidateFlag := uc } draw).1 = p) :
    (uc = false ∧ p.state = pair.state ∨ uc = true ∧ p.state = .nominated ∨
      p.state = .succeeded ∧ p.connectivityCheckFlags.successful ∧ (uc = true ∨ pair.state = .nominated) ∨
      uc = false ∧ p.state = .valid ∧ p.connectivityCheckFlags.successful ∧ pair.state ≠ .nominated) ∧
    p.transactionId = pair.transactionId ∧
    p.connectivityCheckFlags.responseReceived = pair.connectivityCheckFlags.responseReceived ∧
    (pair.connectivityCheckFlags.successful → p.connectivityCheckFlags.successful) := by
  obtain ⟨state, ⟨f1, f2, f3, f4⟩, succeeded, tid⟩ := pair
  subst h
  cases uc <;> cases f1 <;> cases f2 <;> cases f3 <;> cases f4 <;>
    simp [onBindingRequest, ConnectivityCheckFlags.successful]
  all_goals split_ifs <;> simp_all

theorem onBindingRequest_controlling {free : Bool}
    (h : (onBindingRequest true free pair { useCandidateFlag := uc } draw).1 = p) :
    (p.state = pair.state ∧ p.transactionId = pair.transactionId ∨
      p.state = .nominated ∧ p.connectivityCheckFlags.successful ∧ p.transactionId = draw.2) ∧
    (pair.connectivityCheckFlags.successful → p.connectivityCheckFlags.successful) := by
  obtain ⟨state, ⟨f1, f2, f3, f4⟩, succeeded, tid⟩ := pair
  subst h
  cases free <;> cases f1 <;> cases f2 <;> cases f3 <;> cases f4 <;>
    simp [onBindingRequest, ConnectivityCheckFlags.successful]

theorem onConnectivityCheckResponse_cases [DecidableEq τ] {isControlling otherIp : Bool} {transactionId : τ}
    {address : StunAttributeAddress} {draw : τ}
    (h : (onConnectivityCheckResponse isControlling pair transactionId { peerTransportAddress := address } otherIp
      (.ok, draw)).1 = p) :
    p = pair ∨ pair.transactionId = transactionId ∧ p.transactionId = draw ∧
      (pair.connectivityCheckFlags.successful → p.connectivityCheckFlags.successful) ∧
      (p.state = pair.state ∨ p.connectivityCheckFlags.successful ∧
        (pair.state = .nominated ∧ p.state = .succeeded ∨
          pair.state ≠ .nominated ∧ p.state = if isControlling then .nominated else .valid)) := by
  obtain ⟨state, ⟨f1, f2, f3, f4⟩, succeeded, tid⟩ := pair
  subst h
  by_cases htid : tid = transactionId
  · right
    cases isControlling <;> cases f1 <;> cases f2 <;> cases f3 <;> cases f4 <;>
      simp [onConnectivityCheckResponse, ConnectivityCheckFlags.successful, htid]
    all_goals split_ifs <;> simp_all
  · left
    simp [onConnectivityCheckResponse, htid]

theorem nextPairRequest_cases {isControlling : Bool} {r : Request τ}
    (h : nextPairRequest isControlling pair = some (r, p)) :
    r.transactionId = pair.transactionId ∧ p.transactionId = pair.transactionId ∧ p.state = pair.state ∧
      p.connectivityCheckFlags.responseReceived = pair.connectivityCheckFlags.responseReceived ∧
      (pair.connectivityCheckFlags.successful → p.connectivityCheckFlags.successful) ∧
      (r.useCandidate = true ∧ isControlling = true ∧ pair.state = .nominated ∨
        r.useCandidate = false ∧ pair.connectivityCheckFlags.responseReceived = false ∧
          (pair.state = .waiting ∨ isControlling = false)) := by
  obtain ⟨state, ⟨f1, f2, f3, f4⟩, succeeded, tid⟩ := pair
  cases state <;> cases isControlling <;> cases f2 <;>
    simp [nextPairRequest, checkRequest] at h <;> obtain ⟨rfl, rfl⟩ := h <;>
    simp [ConnectivityCheckFlags.successful]

theorem successful_received {f : ConnectivityCheckFlags} (h : f.successful) : f.responseReceived = true := by
  simp only [ConnectivityCheckFlags.successful, Bool.and_eq_true] at h
  exact h.1.1.2

end pair

end IotcRa8p1.Ice
