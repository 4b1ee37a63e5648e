import IotcRa8p1.Ice.Nomination

/-!
# The two sides agree on a nominated pair

`Agreed` is what holds of a pair after every event of a session, for the agents and for the packets under way; the
nomination is agreed on because the controlling agent waits for an answer to nothing else (`Agreed.only`).
-/

namespace IotcRa8p1.Ice

open Machine Stun

variable {ι τ : Type}

/-! ### The invariant of a pair -/

/-- What the controlled agent's pair is once it is nominated.  Only a late check leads to the third. -/
def Kept (inOrder : Prop) (state : CandidatePairState) : Prop :=
  state = .nominated ∨ state = .succeeded ∨ ¬inOrder ∧ state = .valid

structure Agreed (inOrder : Prop) (i : ι) (s : Session ι τ) : Prop where
  controlling : (s.agents .controlling).isControlling = true
  controlled : (s.agents .controlled).isControlling = false
  chosen : (s.pair .controlling i).state = .waiting ∨
    ((s.pair .controlling i).state = .nominated ∨ (s.pair .controlling i).state = .succeeded) ∧
      (s.pair .controlling i).connectivityCheckFlags.successful
  /-- A nomination is only sent for a nominated pair. -/
  nominating : ∀ r, (.controlled, i, r) ∈ s.requests → r.useCandidate = true →
    (s.pair .controlling i).state ≠ .waiting
  /-- What the controlling agent waits for an answer to is a nomination. -/
  only : (s.pair .controlling i).state ≠ .waiting → ∀ r, (.controlled, i, r) ∈ s.requests →
    r.transactionId = (s.pair .controlling i).transactionId → r.useCandidate = true
  answered : ∀ t, (.controlling, i, t) ∈ s.responses → ∃ r, (.controlled, i, r) ∈ s.requests ∧
    r.transactionId = t ∧ (r.useCandidate = true → Kept inOrder (s.pair .controlled i).state)
  agreed : (s.pair .controlling i).state = .succeeded → Kept inOrder (s.pair .controlled i).state
  nominated : (s.pair .controlled i).state = .nominated ∨ (s.pair .controlled i).state = .succeeded →
    (s.pair .controlling i).state ≠ .waiting
  settled : (s.pair .controlled i).state = .succeeded ∨ (s.pair .controlled i).state = .valid →
    (s.pair .controlled i).connectivityCheckFlags.successful
  asked : ∀ t, (.controlled, i, t) ∈ s.responses → ∃ r, (.controlling, i, r) ∈ s.requests ∧ r.transactionId = t
  /-- The controlled agent asks no more once it has an answer. -/
  unanswered : ∀ r, (.controlling, i, r) ∈ s.requests → r.transactionId = (s.pair .controlled i).transactionId →
    (s.pair .controlled i).connectivityCheckFlags.responseReceived = false
  drawn : ∀ side, (s.pair side i).transactionId ∈ s.drawn
  drawnRequests : ∀ side r, (side, i, r) ∈ s.requests → r.transactionId ∈ s.drawn

theorem Session.Fresh.agreed {s : Session ι τ} (h : s.Fresh) (inOrder : Prop) (i : ι) : Agreed inOrder i s where
  controlling := h.controlling
  controlled := h.controlled
  chosen := .inl (h.waiting _ i)
  nominating r hr := by rw [h.requests] at hr; cases hr
  only hne := absurd (h.waiting _ i) hne
  answered t ht := by rw [h.responses] at ht; cases ht
  agreed hs := by rw [h.waiting] at hs; cases hs
  nominated hs := by rw [h.waiting] at hs; rcases hs with hs | hs <;> cases hs
  settled hs := by rw [h.waiting] at hs; rcases hs with hs | hs <;> cases hs
  asked t ht := by rw [h.responses] at ht; cases ht
  unanswered r hr := by rw [h.requests] at hr; cases hr
  drawn side := h.drawn side i
  drawnRequests side r hr := by rw [h.requests] at hr; cases hr

/-- What happens to another pair. -/
theorem Agreed.congr {inOrder : Prop} {i : ι} {s s' : Session ι τ} (h : Agreed inOrder i s)
    (hrole : ∀ side, (s'.agents side).isControlling = (s.agents side).isControlling)
    (hpair : ∀ side, s'.pair side i = s.pair side i)
    (hrequests : ∀ side r, (side, i, r) ∈ s'.requests ↔ (side, i, r) ∈ s.requests)
    (hresponses : ∀ side t, (side, i, t) ∈ s'.responses ↔ (side, i, t) ∈ s.responses)
    (hdrawn : ∀ t ∈ s.drawn, t ∈ s'.drawn) : Agreed inOrder i s' := by
  constructor <;> simp only [hrole, hpair, hrequests, hresponses]
  · exact h.controlling
  · exact h.controlled
  · exact h.chosen
  · exact h.nominating
  · exact h.only
  · exact h.answered
  · exact h.agreed
  · exact h.nominated
  · exact h.settled
  · exact h.asked
  · exact h.unanswered
  · exact fun side => hdrawn _ (h.drawn side)
  · exact fun side r hr => hdrawn _ (h.drawnRequests side r hr)

/-! ### One event -/

/-- The event changes this pair of this side, to this. -/
structure Moved (side : Side) (i : ι) (p : CheckedPair τ) (s s' : Session ι τ) : Prop where
  pair : s'.pair side i = p
  others : ∀ x j, x ≠ side ∨ j ≠ i → s'.pair x j = s.pair x j
  roles : ∀ x, (s'.agents x).isControlling = (s.agents x).isControlling

theorem moved_put [DecidableEq ι] {side : Side} {i : ι} {p : CheckedPair τ} {nominate : Bool} {s s' : Session ι τ}
    (h : s'.agents = Function.update s.agents side ((s.agents side).put i p nominate)) : Moved side i p s s' := by
  constructor
  · rw [Session.pair, h, Function.update_self]
    show Function.update (s.agents side).pairs i p i = p
    rw [Function.update_self]
  · intro x j hne
    rw [Session.pair, h, Session.pair]
    by_cases hx : x = side
    · subst hx
      have hj : j ≠ i := hne.resolve_left fun h => h rfl
      rw [Function.update_self]
      show Function.update (s.agents x).pairs i p j = _
      rw [Function.update_of_ne hj]
    · rw [Function.update_of_ne hx]
  · intro x
    rw [h]
    by_cases hx : x = side
    · subst hx
      rw [Function.update_self]
      rfl
    · rw [Function.update_of_ne hx]

variable {inOrder : Prop} {i j : ι} {side : Side} {r : Request τ} {p : CheckedPair τ} {s s' : Session ι τ}

theorem cons_mem_of_ne {α : Type} {x y : Side} {a b : α} {l : List (Side × ι × α)} (h : j ≠ i) :
    (x, i, a) ∈ (y, j, b) :: l ↔ (x, i, a) ∈ l := by
  rw [List.mem_cons]
  refine or_iff_right fun heq => h ?_
  exact (congrArg (fun e : Side × ι × α => e.2.1) heq).symm

theorem entry_eq {α : Type} {x y : Side} {a b : α} (h : (x, i, a) = (y, j, b)) : a = b :=
  congrArg (fun e : Side × ι × α => e.2.2) h

theorem Agreed.send_controlling (h : Agreed inOrder i s) (hmoved : Moved .controlling i p s s')
    (hnext : nextPairRequest true (s.pair .controlling i) = some (r, p))
    (hrequests : s'.requests = (.controlled, i, r) :: s.requests) (hresponses : s'.responses = s.responses)
    (hdrawn : s'.drawn = s.drawn) : Agreed inOrder i s' := by
  obtain ⟨hr, htid, hstate, -, hsuccessful, hkind⟩ := nextPairRequest_cases hnext
  have hd : s'.pair .controlled i = s.pair .controlled i := hmoved.others _ _ (.inl (by decide))
  constructor <;>
    simp only [hmoved.roles, hmoved.pair, hd, hrequests, hresponses, hdrawn, hstate, htid, List.mem_cons]
  · exact h.controlling
  · exact h.controlled
  · exact h.chosen.imp_right fun hc => ⟨hc.1, hsuccessful hc.2⟩
  · rintro r' (heq | hold) huc
    · obtain rfl := entry_eq heq
      rcases hkind with ⟨-, -, hnominated⟩ | ⟨hno, -⟩
      · rw [hnominated]
        decide
      · rw [huc] at hno
        cases hno
    · exact h.nominating r' hold huc
  · rintro hne r' (heq | hold) ht
    · obtain rfl := entry_eq heq
      rcases hkind with ⟨huc, -, -⟩ | ⟨-, -, hwaiting | hrole⟩
      · exact huc
      · exact absurd hwaiting hne
      · cases hrole
    · exact h.only hne r' hold ht
  · intro t ht
    obtain ⟨r', hr', htid', hkept⟩ := h.answered t ht
    exact ⟨r', .inr hr', htid', hkept⟩
  · exact h.agreed
  · exact h.nominated
  · exact h.settled
  · intro t ht
    obtain ⟨r', hr', htid'⟩ := h.asked t ht
    exact ⟨r', .inr hr', htid'⟩
  · rintro r' (heq | hold) ht
    · cases congrArg Prod.fst heq
    · exact h.unanswered r' hold ht
  · intro x
    cases x with
    | controlling => rw [hmoved.pair, htid]; exact h.drawn .controlling
    | controlled => rw [hd]; exact h.drawn .controlled
  · rintro x r' (heq | hold)
    · obtain rfl := entry_eq heq
      rw [hr]
      exact h.drawn .controlling
    · exact h.drawnRequests x r' hold

theorem Agreed.send_controlled (h : Agreed inOrder i s) (hmoved : Moved .controlled i p s s')
    (hnext : nextPairRequest false (s.pair .controlled i) = some (r, p))
    (hrequests : s'.requests = (.controlling, i, r) :: s.requests) (hresponses : s'.responses = s.responses)
    (hdrawn : s'.drawn = s.drawn) : Agreed inOrder i s' := by
  obtain ⟨hr, htid, hstate, hreceived, hsuccessful, hkind⟩ := nextPairRequest_cases hnext
  have hc : s'.pair .controlling i = s.pair .controlling i := hmoved.others _ _ (.inl (by decide))
  constructor <;>
    simp only [hmoved.roles, hmoved.pair, hc, hrequests, hresponses, hdrawn, hstate, htid, List.mem_cons]
  · exact h.controlling
  · exact h.controlled
  · exact h.chosen
  · rintro r' (heq | hold) huc
    · cases congrArg Prod.fst heq
    · exact h.nominating r' hold huc
  · rintro hne r' (heq | hold) ht
    · cases congrArg Prod.fst heq
    · exact h.only hne r' hold ht
  · intro t ht
    obtain ⟨r', hr', htid', hkept⟩ := h.answered t ht
    exact ⟨r', .inr hr', htid', hkept⟩
  · exact h.agreed
  · exact h.nominated
  · exact fun hs => hsuccessful (h.settled hs)
  · intro t ht
    obtain ⟨r', hr', htid'⟩ := h.asked t ht
    exact ⟨r', .inr hr', htid'⟩
  · rintro r' (heq | hold) ht
    · rcases hkind with ⟨-, hrole, -⟩ | ⟨-, hno, -⟩
      · cases hrole
      · exact hreceived.trans hno
    · exact hreceived.trans (h.unanswered r' hold ht)
  · intro x
    cases x with
    | controlling => rw [hc]; exact h.drawn .controlling
    | controlled => rw [hmoved.pair, htid]; exact h.drawn .controlled
  · rintro x r' (heq | hold)
    · obtain rfl := entry_eq heq
      rw [hr]
      exact h.drawn .controlled
    · exact h.drawnRequests x r' hold

theorem Agreed.request_controlling {free uc : Bool} {draw : τ} (h : Agreed inOrder i s)
    (hmoved : Moved .controlling i p s s')
    (hp : (onBindingRequest true free (s.pair .controlling i) { useCandidateFlag := uc } (.ok, draw)).1 = p)
    (hr : (.controlling, i, r) ∈ s.requests) (hfresh : draw ∉ s.drawn) (hrequests : s'.requests = s.requests)
    (hresponses : s'.responses = (.controlled, i, r.transactionId) :: s.responses)
    (hdrawn : s'.drawn = draw :: s.drawn) : Agreed inOrder i s' := by
  obtain ⟨hcases, hsuccessful⟩ := onBindingRequest_controlling hp
  have hd : s'.pair .controlled i = s.pair .controlled i := hmoved.others _ _ (.inl (by decide))
  have hne : (s.pair .controlling i).state ≠ .waiting → p.state ≠ .waiting := by
    rcases hcases with ⟨hstate, -⟩ | ⟨hstate, -⟩ <;> rw [hstate]
    · exact id
    · exact fun _ => by decide
  constructor <;> simp only [hmoved.roles, hmoved.pair, hd, hrequests, hresponses, hdrawn, List.mem_cons]
  · exact h.controlling
  · exact h.controlled
  · rcases hcases with ⟨hstate, -⟩ | ⟨hstate, hall, -⟩
    · rw [hstate]
      exact h.chosen.imp_right fun hc => ⟨hc.1, hsuccessful hc.2⟩
    · exact .inr ⟨.inl hstate, hall⟩
  · exact fun r' hr' huc => hne (h.nominating r' hr' huc)
  · intro hne' r' hr' ht
    rcases hcases with ⟨hstate, htid⟩ | ⟨-, -, htid⟩
    · exact h.only (hstate ▸ hne') r' hr' (ht.trans htid)
    · have hmem := h.drawnRequests _ r' hr'
      rw [ht, htid] at hmem
      exact absurd hmem hfresh
  · rintro t (heq | hold)
    · cases congrArg Prod.fst heq
    · exact h.answered t hold
  · intro hs
    rcases hcases with ⟨hstate, -⟩ | ⟨hstate, -⟩
    · exact h.agreed (hstate ▸ hs)
    · rw [hstate] at hs
      cases hs
  · exact fun hs => hne (h.nominated hs)
  · exact h.settled
  · rintro t (heq | hold)
    · obtain rfl := entry_eq heq
      exact ⟨r, hr, rfl⟩
    · exact h.asked t hold
  · exact h.unanswered
  · intro x
    cases x with
    | controlling =>
      rw [hmoved.pair]
      rcases hcases with ⟨-, htid⟩ | ⟨-, -, htid⟩ <;> rw [htid]
      · exact .inr (h.drawn .controlling)
      · exact .inl rfl
    | controlled => rw [hd]; exact .inr (h.drawn .controlled)
  · exact fun x r' hr' => .inr (h.drawnRequests x r' hr')

theorem Agreed.request_controlled {free : Bool} {draw : τ} (h : Agreed inOrder i s)
    (hmoved : Moved .controlled i p s s')
    (hp : (onBindingRequest false free (s.pair .controlled i) { useCandidateFlag := r.useCandidate }
      (.ok, draw)).1 = p)
    (hr : (.controlled, i, r) ∈ s.requests)
    (hlate : inOrder → ¬(r.useCandidate = false ∧ (s.pair .controlled i).state = .succeeded))
    (hrequests : s'.requests = s.requests)
    (hresponses : s'.responses = (.controlling, i, r.transactionId) :: s.responses)
    (hdrawn : s'.drawn = draw :: s.drawn) : Agreed inOrder i s' := by
  obtain ⟨hcases, htid, hreceived, hsuccessful⟩ := onBindingRequest_controlled hp
  have hc : s'.pair .controlling i = s.pair .controlling i := hmoved.others _ _ (.inl (by decide))
  have hkept : Kept inOrder (s.pair .controlled i).state → Kept inOrder p.state := by
    intro hk
    rcases hcases with ⟨-, hstate⟩ | ⟨-, hstate⟩ | ⟨hstate, -⟩ | ⟨huc, hstate, -, hne⟩
    · rwa [hstate]
    · exact .inl hstate
    · exact .inr (.inl hstate)
    · rcases hk with hk | hk | ⟨hno, -⟩
      · exact absurd hk hne
      · exact .inr (.inr ⟨fun hin => hlate hin ⟨huc, hk⟩, hstate⟩)
      · exact .inr (.inr ⟨hno, hstate⟩)
  have hnominated : r.useCandidate = true → Kept inOrder p.state := by
    intro huc
    rcases hcases with ⟨hno, -⟩ | ⟨-, hstate⟩ | ⟨hstate, -⟩ | ⟨hno, -⟩
    · rw [huc] at hno
      cases hno
    · exact .inl hstate
    · exact .inr (.inl hstate)
    · rw [huc] at hno
      cases hno
  constructor <;> simp only [hmoved.roles, hmoved.pair, hc, hrequests, hresponses, hdrawn, List.mem_cons]
  · exact h.controlling
  · exact h.controlled
  · exact h.chosen
  · exact h.nominating
  · exact h.only
  · rintro t (heq | hold)
    · obtain rfl := entry_eq heq
      exact ⟨r, hr, rfl, hnominated⟩
    · obtain ⟨r', hr', htid', hold'⟩ := h.answered t hold
      exact ⟨r', hr', htid', fun huc => hkept (hold' huc)⟩
  · exact fun hs => hkept (h.agreed hs)
  · intro hs
    rcases hcases with ⟨-, hstate⟩ | ⟨huc, -⟩ | ⟨-, -, huc | hstate⟩ | ⟨-, hstate, -⟩
    · exact h.nominated (hstate ▸ hs)
    · exact h.nominating r hr huc
    · exact h.nominating r hr huc
    · exact h.nominated (.inl hstate)
    · rw [hstate] at hs
      rcases hs with hs | hs <;> cases hs
  · intro hs
    rcases hcases with ⟨-, hstate⟩ | ⟨-, hstate⟩ | ⟨-, hall, -⟩ | ⟨-, -, hall, -⟩
    · exact hsuccessful (h.settled (hstate ▸ hs))
    · rw [hstate] at hs
      rcases hs with hs | hs <;> cases hs
    · exact hall
    · exact hall
  · rintro t (heq | hold)
    · cases congrArg Prod.fst heq
    · exact h.asked t hold
  · exact fun r' hr' ht => hreceived.trans (h.unanswered r' hr' (ht.trans htid))
  · intro x
    cases x with
    | controlling => rw [hc]; exact .inr (h.drawn .controlling)
    | controlled => rw [hmoved.pair, htid]; exact .inr (h.drawn .controlled)
  · exact fun x r' hr' => .inr (h.drawnRequests x r' hr')

variable [DecidableEq τ] {t draw : τ} {address : StunAttributeAddress} {otherIp : Bool}

theorem Agreed.response_controlling (h : Agreed inOrder i s) (hmoved : Moved .controlling i p s s')
    (hp : (onConnectivityCheckResponse true (s.pair .controlling i) t { peerTransportAddress := address } otherIp
      (.ok, draw)).1 = p)
    (ht : (.controlling, i, t) ∈ s.responses) (hfresh : draw ∉ s.drawn) (hrequests : s'.requests = s.requests)
    (hresponses : s'.responses = s.responses) (hdrawn : s'.drawn = draw :: s.drawn) : Agreed inOrder i s' := by
  have hcases := onConnectivityCheckResponse_cases hp
  have hd : s'.pair .controlled i = s.pair .controlled i := hmoved.others _ _ (.inl (by decide))
  have hne : (s.pair .controlling i).state ≠ .waiting → p.state ≠ .waiting := by
    rcases hcases with rfl | ⟨-, -, -, hstate | ⟨-, ⟨-, hstate⟩ | ⟨-, hstate⟩⟩⟩
    · exact id
    · rw [hstate]
      exact id
    · rw [hstate]
      exact fun _ => by decide
    · rw [hstate, if_pos rfl]
      exact fun _ => by decide
  constructor <;> simp only [hmoved.roles, hmoved.pair, hd, hrequests, hresponses, hdrawn, List.mem_cons]
  · exact h.controlling
  · exact h.controlled
  · rcases hcases with rfl | ⟨-, -, hsuccessful, hstate | ⟨hall, ⟨-, hstate⟩ | ⟨-, hstate⟩⟩⟩
    · exact h.chosen
    · rw [hstate]
      exact h.chosen.imp_right fun hc => ⟨hc.1, hsuccessful hc.2⟩
    · exact .inr ⟨.inr hstate, hall⟩
    · rw [if_pos rfl] at hstate
      exact .inr ⟨.inl hstate, hall⟩
  · exact fun r' hr' huc => hne (h.nominating r' hr' huc)
  · intro hne' r' hr' htid'
    rcases hcases with rfl | ⟨-, htid, -⟩
    · exact h.only hne' r' hr' htid'
    · have hmem := h.drawnRequests _ r' hr'
      rw [htid', htid] at hmem
      exact absurd hmem hfresh
  · exact h.answered
  · intro hs
    rcases hcases with rfl | ⟨htid, -, -, hstate | ⟨-, ⟨hbefore, -⟩ | ⟨-, hstate⟩⟩⟩
    · exact h.agreed hs
    · exact h.agreed (hstate ▸ hs)
    -- the answer that settles the pair is one to a nomination
    · obtain ⟨r', hr', htid', hkept⟩ := h.answered t ht
      have hne' : (s.pair .controlling i).state ≠ .waiting := by
        rw [hbefore]
        decide
      exact hkept (h.only hne' r' hr' (htid'.trans htid.symm))
    · rw [hstate, if_pos rfl] at hs
      cases hs
  · exact fun hs => hne (h.nominated hs)
  · exact h.settled
  · exact h.asked
  · exact h.unanswered
  · intro x
    cases x with
    | controlling =>
      rw [hmoved.pair]
      rcases hcases with rfl | ⟨-, htid, -⟩
      · exact .inr (h.drawn .controlling)
      · exact .inl htid
    | controlled => rw [hd]; exact .inr (h.drawn .controlled)
  · exact fun x r' hr' => .inr (h.drawnRequests x r' hr')

theorem Agreed.response_controlled (h : Agreed inOrder i s) (hmoved : Moved .controlled i p s s')
    (hp : (onConnectivityCheckResponse false (s.pair .controlled i) t { peerTransportAddress := address } otherIp
      (.ok, draw)).1 = p)
    (ht : (.controlled, i, t) ∈ s.responses) (hfresh : draw ∉ s.drawn) (hrequests : s'.requests = s.requests)
    (hresponses : s'.responses = s.responses) (hdrawn : s'.drawn = draw :: s.drawn) : Agreed inOrder i s' := by
  have hc : s'.pair .controlling i = s.pair .controlling i := hmoved.others _ _ (.inl (by decide))
  rcases onConnectivityCheckResponse_cases hp with rfl | ⟨hmatch, htid, hsuccessful, hcases⟩
  · refine h.congr hmoved.roles ?_ (by rw [hrequests]; exact fun _ _ => Iff.rfl)
      (by rw [hresponses]; exact fun _ _ => Iff.rfl) fun t ht => hdrawn ▸ List.mem_cons_of_mem _ ht
    intro x
    cases x with
    | controlling => exact hc
    | controlled => exact hmoved.pair
  -- the agent was still waiting for an answer, so that its pair was not settled
  have hunsettled : (s.pair .controlled i).state ≠ .succeeded ∧ (s.pair .controlled i).state ≠ .valid := by
    obtain ⟨r', hr', htid'⟩ := h.asked t ht
    have hno := h.unanswered r' hr' (htid'.trans hmatch.symm)
    refine ⟨fun hs => ?_, fun hs => ?_⟩
    · rw [successful_received (h.settled (.inl hs))] at hno
      cases hno
    · rw [successful_received (h.settled (.inr hs))] at hno
      cases hno
  have hkept : Kept inOrder (s.pair .controlled i).state → Kept inOrder p.state := by
    rintro (hk | hk | ⟨-, hk⟩)
    · rcases hcases with hstate | ⟨-, ⟨-, hstate⟩ | ⟨hne, -⟩⟩
      · exact .inl (hstate.trans hk)
      · exact .inr (.inl hstate)
      · exact absurd hk hne
    · exact absurd hk hunsettled.1
    · exact absurd hk hunsettled.2
  constructor <;> simp only [hmoved.roles, hmoved.pair, hc, hrequests, hresponses, hdrawn, List.mem_cons]
  · exact h.controlling
  · exact h.controlled
  · exact h.chosen
  · exact h.nominating
  · exact h.only
  · intro t' ht'
    obtain ⟨r', hr', htid', hold'⟩ := h.answered t' ht'
    exact ⟨r', hr', htid', fun huc => hkept (hold' huc)⟩
  · exact fun hs => hkept (h.agreed hs)
  · intro hs
    rcases hcases with hstate | ⟨-, ⟨hbefore, -⟩ | ⟨-, hstate⟩⟩
    · exact h.nominated (hstate ▸ hs)
    · exact h.nominated (.inl hbefore)
    · rw [hstate] at hs
      rcases hs with hs | hs <;> cases hs
  · intro hs
    rcases hcases with hstate | ⟨hall, -⟩
    · exact hsuccessful (h.settled (hstate ▸ hs))
    · exact hall
  · exact h.asked
  · intro r' hr' htid'
    have hmem := h.drawnRequests _ r' hr'
    rw [htid', htid] at hmem
    exact absurd hmem hfresh
  · intro x
    cases x with
    | controlling => rw [hc]; exact .inr (h.drawn .controlling)
    | controlled => rw [hmoved.pair]; exact .inl htid
  · exact fun x r' hr' => .inr (h.drawnRequests x r' hr')

theorem Agreed.step [DecidableEq ι] {e : SessionEvent ι τ} (h : Agreed inOrder i s) (hok : inOrder → ¬Late i s e)
    (hstep : sessionStep s e = some s') : Agreed inOrder i s' := by
  cases e with
  | send side j =>
    rw [sessionStep, Option.map_eq_some_iff] at hstep
    obtain ⟨⟨r, p⟩, hnext, hs'⟩ := hstep
    have hmoved : Moved side j p s s' := by
      rw [← hs']
      exact moved_put rfl
    subst hs'
    by_cases hij : j = i
    · subst hij
      cases side with
      | controlling =>
        rw [h.controlling] at hnext
        exact h.send_controlling hmoved hnext rfl rfl rfl
      | controlled =>
        rw [h.controlled] at hnext
        exact h.send_controlled hmoved hnext rfl rfl rfl
    · exact h.congr hmoved.roles (fun x => hmoved.others x i (.inr (Ne.symm hij))) (fun _ _ => cons_mem_of_ne hij)
        (fun _ _ => Iff.rfl) fun _ ht => ht
  | request side j r draw =>
    rw [sessionStep] at hstep
    split_ifs at hstep with hcond
    obtain ⟨hr, hfresh⟩ := hcond
    have hs' := Option.some.inj hstep
    have hmoved : Moved side j (onBindingRequest (s.agents side).isControlling (s.agents side).nominatedPair.isNone
        (s.pair side j) { useCandidateFlag := r.useCandidate } (.ok, draw)).1 s s' := by
      rw [← hs']
      exact moved_put rfl
    subst hs'
    by_cases hij : j = i
    · subst hij
      cases side with
      | controlling =>
        rw [h.controlling] at hmoved
        exact h.request_controlling hmoved rfl hr hfresh rfl rfl rfl
      | controlled =>
        rw [h.controlled] at hmoved
        exact h.request_controlled hmoved rfl hr (fun hin hlate => hok hin ⟨rfl, hlate⟩) rfl rfl rfl
    · exact h.congr hmoved.roles (fun x => hmoved.others x i (.inr (Ne.symm hij))) (fun _ _ => Iff.rfl)
        (fun _ _ => cons_mem_of_ne hij) fun _ ht => List.mem_cons_of_mem _ ht
  | response side j t address otherIp draw =>
    rw [sessionStep] at hstep
    split_ifs at hstep with hcond
    obtain ⟨ht, hfresh⟩ := hcond
    have hs' := Option.some.inj hstep
    have hmoved : Moved side j (onConnectivityCheckResponse (s.agents side).isControlling (s.pair side j) t
        { peerTransportAddress := address } otherIp (.ok, draw)).1 s s' := by
      rw [← hs']
      exact moved_put rfl
    subst hs'
    by_cases hij : j = i
    · subst hij
      cases side with
      | controlling =>
        rw [h.controlling] at hmoved
        exact h.response_controlling hmoved rfl ht hfresh rfl rfl rfl
      | controlled =>
        rw [h.controlled] at hmoved
        exact h.response_controlled hmoved rfl ht hfresh rfl rfl rfl
    · exact h.congr hmoved.roles (fun x => hmoved.others x i (.inr (Ne.symm hij))) (fun _ _ => Iff.rfl)
        (fun _ _ => Iff.rfl) fun _ ht => List.mem_cons_of_mem _ ht

theorem agreed_of_runs [DecidableEq ι] {es : List (SessionEvent ι τ)} (hstart : s.Fresh)
    (hrun : runs sessionStep es s = some s') (i : ι)
    (hok : Meets sessionStep (fun s e => inOrder → ¬Late i s e) es s) : Agreed inOrder i s' :=
  runs_invariant (fun h hok hstep => h.step hok hstep) (hstart.agreed inOrder i) hok hrun

/-- **The two sides agree on a nominated pair.**  However the packets of a session are lost, repeated and mixed up: a
pair that has succeeded has been checked in full on its side; once it has succeeded for the controlled agent it is
nominated or has succeeded for the controlling one; once it has succeeded for the controlling agent, the controlled
one has taken the nomination, and it still holds it where no late check of that pair took it back to valid. -/
theorem nomination_agreed [DecidableEq ι] (es : List (SessionEvent ι τ)) (hstart : s.Fresh)
    (hrun : runs sessionStep es s = some s') (i : ι) :
    (∀ side, (s'.pair side i).state = .succeeded → (s'.pair side i).connectivityCheckFlags.successful) ∧
    ((s'.pair .controlled i).state = .succeeded →
      (s'.pair .controlling i).state = .nominated ∨ (s'.pair .controlling i).state = .succeeded) ∧
    ((s'.pair .controlling i).state = .succeeded →
      ((s'.pair .controlled i).state = .nominated ∨ (s'.pair .controlled i).state = .succeeded ∨
        (s'.pair .controlled i).state = .valid) ∧
      (Meets sessionStep (fun s e => ¬Late i s e) es s → (s'.pair .controlled i).state ≠ .valid)) := by
  have h : Agreed False i s' :=
    agreed_of_runs hstart hrun i (meets_of_forall (fun _ _ _ hno => hno.elim) s)
  refine ⟨?_, fun hs => ?_, fun hs => ⟨?_, fun hmeets hvalid => ?_⟩⟩
  · rintro (_ | _) hs
    · rcases h.chosen with hwaiting | ⟨-, hall⟩
      · rw [hwaiting] at hs
        cases hs
      · exact hall
    · exact h.settled (.inl hs)
  · rcases h.chosen with hwaiting | ⟨hchosen, -⟩
    · exact absurd hwaiting (h.nominated (.inr hs))
    · exact hchosen
  · rcases h.agreed hs with hk | hk | ⟨-, hk⟩
    · exact .inl hk
    · exact .inr (.inl hk)
    · exact .inr (.inr hk)
  · have h' : Agreed True i s' := agreed_of_runs hstart hrun i (hmeets.mono fun _ _ _ hok _ => hok)
    rcases h'.agreed hs with hk | hk | ⟨hno, -⟩
    · rw [hvalid] at hk
      cases hk
    · rw [hvalid] at hk
      cases hk
    · exact hno trivial

/-- A session of one pair. -/
def onePair : Session Unit ℕ where
  agents
    | .controlling => ⟨true, fun _ => ⟨.waiting, {}, false, 1⟩, none⟩
    | .controlled => ⟨false, fun _ => ⟨.waiting, {}, false, 2⟩, none⟩
  requests := []
  responses := []
  drawn := [1, 2]

/-- Both sides check, then the controlling one nominates. -/
def nominate : List (SessionEvent Unit ℕ) :=
  [.send .controlling (), .request .controlled () ⟨1, false⟩ 3, .response .controlling () 1 noAddress false 4,
    .send .controlled (), .request .controlling () ⟨2, false⟩ 5, .response .controlled () 2 noAddress false 6,
    .send .controlling (), .request .controlled () ⟨5, true⟩ 7, .response .controlling () 5 noAddress false 8]

theorem onePair_fresh : onePair.Fresh where
  controlling := rfl
  controlled := rfl
  waiting side _ := by cases side <;> rfl
  flags side _ := by cases side <;> rfl
  drawn side _ := by cases side <;> simp [Session.pair, onePair]
  requests := rfl
  responses := rfl

theorem nomination_agreed_onePair : ∃ s, runs sessionStep nominate onePair = some s ∧
    (s.pair .controlling ()).state = .succeeded ∧ (s.pair .controlled ()).state ≠ .valid := by
  obtain ⟨s, hrun⟩ := Option.isSome_iff_exists.mp (show (runs sessionStep nominate onePair).isSome from rfl)
  have hs : (runs sessionStep nominate onePair).map (fun s => (s.pair .controlling ()).state) =
    some .succeeded := rfl
  rw [hrun] at hs
  have hmeets : Meets sessionStep (fun s e => ¬Late () s e) nominate onePair := by decide
  have hstate := Option.some.inj hs
  exact ⟨s, hrun, hstate, ((nomination_agreed nominate onePair_fresh hrun ()).2.2 hstate).2 hmeets⟩

/-- A check from the start that arrives once more takes the succeeded pair of the controlled agent back. -/
example : (runs sessionStep (nominate ++ [.request .controlled () ⟨1, false⟩ 9]) onePair).map
    (fun s => ((s.pair .controlling ()).state, (s.pair .controlled ()).state)) = some (.succeeded, .valid) := rfl

end IotcRa8p1.Ice
