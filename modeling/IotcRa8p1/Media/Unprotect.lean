import IotcRa8p1.Lib.Machine
import IotcRa8p1.Media.Rdbx

/-!
# What the receiving side accepts (`srtp.c`, `rdbx.c`)

An SRTP packet carries 16 bits of its index; the receiver guesses the rest from the highest index it has accepted.
`srtp_unprotect` looks the guess up in the replay database, checks the packet under it and only then adds it.

The machine is the stream of one SSRC: packets of both kinds arrive in any order, old ones again, forged ones
among them, and the rollover counter may be set from outside.  Whether a packet is authentic under an index
(`opens`) is the environment's choice.  `Inv` says that the databases hold what was accepted.

The theorems ask for a window below 2^15: `srtp_stream_init` refuses any other (0 stands for 128).
-/

namespace IotcRa8p1.Media.Unprotect

open Machine SlidingWindow Rdbx

/-! ### The index of a packet -/

/-- `seq_num_median` -/
def seqNumMedian : ℕ := 2 ^ 15

/-- `seq_num_max` -/
def seqNumMax : ℕ := 2 ^ 16

/-- `srtp_index_guess`: the guess and its difference to `local`. -/
def srtpIndexGuess (localIndex s : ℕ) : ℕ × ℤ :=
  let localRoc := localIndex / 2 ^ 16 % 2 ^ 32
  let localSeq := localIndex % 2 ^ 16
  if localSeq < seqNumMedian then
    if (s : ℤ) - localSeq > seqNumMedian then
      ((localRoc + (2 ^ 32 - 1)) % 2 ^ 32 * 2 ^ 16 + s, (s : ℤ) - localSeq - seqNumMax)
    else (localRoc * 2 ^ 16 + s, (s : ℤ) - localSeq)
  else
    if (localSeq : ℤ) - seqNumMedian > s then
      ((localRoc + 1) % 2 ^ 32 * 2 ^ 16 + s, (s : ℤ) - localSeq + seqNumMax)
    else (localRoc * 2 ^ 16 + s, (s : ℤ) - localSeq)

/-- `srtp_rdbx_estimate_index` -/
def srtpRdbxEstimateIndex (rdbx : SrtpRdbx) (s : ℕ) : ℕ × ℤ :=
  if rdbx.index > seqNumMedian then srtpIndexGuess rdbx.index s else (s, (s : ℤ) - rdbx.index)

/-- `srtp_estimate_index` -/
def srtpEstimateIndex (rdbx : SrtpRdbx) (roc seq : ℕ) : SrtpErrStatus × ℕ × ℤ :=
  let est := roc * 2 ^ 16 + seq
  if est > rdbx.index ∧ est - rdbx.index > seqNumMedian then (.pktIdxAdv, est, 0)
  else if est < rdbx.index ∧ rdbx.index - est > seqNumMedian then (.pktIdxOld, est, 0)
  else (.ok, est, (est : ℤ) - rdbx.index)

/-- `srtp_stream_ctx_t`, the part that decides about replays. -/
structure SrtpStreamCtx where
  rtpRdbx : SrtpRdbx
  rtcpRdb : SrtpRdb
  pendingRoc : UInt32
  deriving DecidableEq

/-- `srtp_get_est_pkt_index` -/
def srtpGetEstPktIndex (stream : SrtpStreamCtx) (seq : ℕ) : SrtpErrStatus × ℕ × ℤ :=
  if stream.pendingRoc ≠ 0 then srtpEstimateIndex stream.rtpRdbx stream.pendingRoc.toNat seq
  else
    let r := srtpRdbxEstimateIndex stream.rtpRdbx seq
    (.ok, r.1, r.2)

/-! ### The packets -/

/-- `srtp_stream_clone`: the databases of a new stream, with the template's window size. -/
def srtpStreamClone (window : ℕ) : Option SrtpStreamCtx :=
  (srtpRdbxInit window).map fun rdbx => ⟨rdbx, srtpRdbInit, 0⟩

/-- `srtp_unprotect`, with the index under which a packet is accepted; `opens` is all that stands between the
check of the replay database and its update. -/
def srtpUnprotect (window : ℕ) (stream : Option SrtpStreamCtx) (seq : ℕ) (opens : ℕ → Bool) :
    SrtpErrStatus × Option ℕ × Option SrtpStreamCtx :=
  match stream with
  | none =>
    if opens seq = false then (.authFail, none, none)
    else
      match srtpStreamClone window with
      | none => (.badParam, none, none)
      | some new => (.ok, some seq, some { new with rtpRdbx := srtpRdbxAddIndex new.rtpRdbx seq })
  | some stream =>
    let r := srtpGetEstPktIndex stream seq
    if r.1 ≠ .ok ∧ r.1 ≠ .pktIdxAdv then (r.1, none, some stream)
    else if r.1 = .pktIdxAdv then
      if opens r.2.1 = false then (.authFail, none, some stream)
      else
        let rdbx := srtpRdbxSetRocSeq stream.rtpRdbx (r.2.1 / 2 ^ 16 % 2 ^ 32) (r.2.1 % 2 ^ 16)
        (.ok, some r.2.1, some { stream with rtpRdbx := srtpRdbxAddIndex rdbx 0, pendingRoc := 0 })
    else if srtpRdbxCheck stream.rtpRdbx r.2.2 ≠ .ok then (srtpRdbxCheck stream.rtpRdbx r.2.2, none, some stream)
    else if opens r.2.1 = false then (.authFail, none, some stream)
    else (.ok, some r.2.1, some { stream with rtpRdbx := srtpRdbxAddIndex stream.rtpRdbx r.2.2 })

/-- `srtp_unprotect_rtcp`: the packet carries its whole index. -/
def srtpUnprotectRtcp (window : ℕ) (stream : Option SrtpStreamCtx) (seqNum : ℕ) (opens : ℕ → Bool) :
    SrtpErrStatus × Option ℕ × Option SrtpStreamCtx :=
  let rdb := stream.elim srtpRdbInit (·.rtcpRdb)
  if srtpRdbCheck rdb seqNum ≠ .ok then (srtpRdbCheck rdb seqNum, none, stream)
  else if opens seqNum = false then (.authFail, none, stream)
  else
    match stream.orElse fun _ => srtpStreamClone window with
    | none => (.badParam, none, none)
    | some stream => (.ok, some seqNum, some { stream with rtcpRdb := srtpRdbAddIndex stream.rtcpRdb seqNum })

/-! ### The stream of one source -/

/-- What arrives or is asked for. -/
inductive Action where
  | rtp (seq : UInt16) (opens : ℕ → Bool)
  | rtcp (seqNum : BitVec 31) (opens : ℕ → Bool)
  | setRoc (roc : UInt32)

/-- The stream, and the indices accepted so far. -/
structure Receiver where
  stream : Option SrtpStreamCtx
  rtp : List ℕ
  rtcp : List ℕ
  deriving DecidableEq

variable {window : ℕ}

def step (window : ℕ) (s : Receiver) : Action → Option Receiver
  | .rtp seq opens =>
    let r := srtpUnprotect window s.stream seq.toNat opens
    some { s with stream := r.2.2, rtp := s.rtp ++ r.2.1.toList }
  | .rtcp seqNum opens =>
    let r := srtpUnprotectRtcp window s.stream seqNum.toNat opens
    some { s with stream := r.2.2, rtcp := s.rtcp ++ r.2.1.toList }
  | .setRoc roc => some { s with stream := s.stream.map fun stream => { stream with pendingRoc := roc } }

/-- Nothing has arrived. -/
def start : Receiver := ⟨none, [], []⟩

/-- The 48 bits of the index are not used up. -/
def InRange (s : Receiver) (_ : Action) : Prop :=
  ∀ stream ∈ s.stream, stream.rtpRdbx.index + 2 ^ 16 ≤ 2 ^ 48

instance (s : Receiver) (a : Action) : Decidable (InRange s a) :=
  inferInstanceAs (Decidable (∀ stream ∈ s.stream, stream.rtpRdbx.index + 2 ^ 16 ≤ 2 ^ 48))

/-! ### The guess -/

/-- **The guess** is the index plus the difference, which lies within half the numbers of a cycle, and any index
that near is guessed. -/
theorem srtpRdbxEstimateIndex_spec (rdbx : SrtpRdbx) (s : ℕ) (hs : s < 2 ^ 16)
    (hrange : rdbx.index + 2 ^ 16 ≤ 2 ^ 48) :
    ((srtpRdbxEstimateIndex rdbx s).1 : ℤ) = rdbx.index + (srtpRdbxEstimateIndex rdbx s).2 ∧
      (srtpRdbxEstimateIndex rdbx s).2 < 2 ^ 16 ∧
      ∀ i : ℕ, i % 2 ^ 16 = s → rdbx.index < i + 2 ^ 15 → i < rdbx.index + 2 ^ 15 →
        (srtpRdbxEstimateIndex rdbx s).1 = i := by
  rw [srtpRdbxEstimateIndex]
  have hmedian : seqNumMedian = 2 ^ 15 := rfl
  have hmax : seqNumMax = 2 ^ 16 := rfl
  by_cases hlate : rdbx.index > seqNumMedian
  · rw [if_pos hlate, srtpIndexGuess, hmedian, hmax]
    rw [hmedian] at hlate
    have hroc : rdbx.index / 2 ^ 16 % 2 ^ 32 = rdbx.index / 2 ^ 16 := Nat.mod_eq_of_lt (by omega)
    rw [hroc]
    by_cases hlow : rdbx.index % 2 ^ 16 < 2 ^ 15
    · rw [if_pos hlow]
      by_cases hfar : (s : ℤ) - (rdbx.index % 2 ^ 16 : ℕ) > (2 ^ 15 : ℕ)
      · rw [if_pos hfar]
        have hprev : (rdbx.index / 2 ^ 16 + (2 ^ 32 - 1)) % 2 ^ 32 = rdbx.index / 2 ^ 16 - 1 := by omega
        rw [hprev]
        dsimp only
        exact ⟨by omega, by omega, fun i hi habove hbelow => by omega⟩
      · rw [if_neg hfar]
        dsimp only
        exact ⟨by omega, by omega, fun i hi habove hbelow => by omega⟩
    · rw [if_neg hlow]
      by_cases hfar : ((rdbx.index % 2 ^ 16 : ℕ) : ℤ) - (2 ^ 15 : ℕ) > s
      · rw [if_pos hfar]
        have hnext : (rdbx.index / 2 ^ 16 + 1) % 2 ^ 32 = rdbx.index / 2 ^ 16 + 1 := Nat.mod_eq_of_lt (by omega)
        rw [hnext]
        dsimp only
        exact ⟨by omega, by omega, fun i hi habove hbelow => by omega⟩
      · rw [if_neg hfar]
        dsimp only
        exact ⟨by omega, by omega, fun i hi habove hbelow => by omega⟩
  · rw [if_neg hlate]
    rw [hmedian] at hlate
    dsimp only
    exact ⟨by omega, by omega, fun i hi habove hbelow => by omega⟩

/-! ### The databases hold what was accepted -/

/-- The indices of a list. -/
def seenIn (l : List ℕ) : ℤ → Prop := fun i => ∃ e ∈ l, (e : ℤ) = i

theorem seenIn_nil : seenIn [] = fun _ => False := by
  funext i
  rw [seenIn]
  simp

theorem seenIn_append (l : List ℕ) (e : ℕ) : seenIn (l ++ [e]) = fun i : ℤ => i = e ∨ seenIn l i := by
  funext i
  rw [seenIn, eq_iff_iff]
  constructor
  · rintro ⟨x, hx, rfl⟩
    rcases List.mem_append.mp hx with hx | hx
    · exact .inr ⟨x, hx, rfl⟩
    · exact .inl (by rw [List.mem_singleton.mp hx])
  · rintro (rfl | ⟨x, hx, rfl⟩)
    · exact ⟨e, List.mem_append_right l List.mem_cons_self, rfl⟩
    · exact ⟨x, List.mem_append_left [e] hx, rfl⟩

theorem seenIn_natCast {l : List ℕ} {i : ℕ} : seenIn l i ↔ i ∈ l := by
  rw [seenIn]
  constructor
  · rintro ⟨e, he, hei⟩
    obtain rfl : e = i := by omega
    exact he
  · exact fun hi => ⟨i, hi, rfl⟩

/-- The highest index accepted. -/
def highest (l : List ℕ) : ℕ := l.foldl max 0

theorem highest_append (l : List ℕ) (e : ℕ) : highest (l ++ [e]) = max (highest l) e := by
  rw [highest, List.foldl_append]
  rfl

/-- `bitvector_get_length` of the mask of a window. -/
def maskLength (window : ℕ) : ℕ := (window + 31) / 32 * 32

/-- The database of RTP holds the indices accepted. -/
structure HoldsRtp (window : ℕ) (rdbx : SrtpRdbx) (rtp : List ℕ) : Prop where
  holds : Holds rdbx (seenIn rtp)
  length : rdbx.bitmask.length = maskLength window
  index : rdbx.index = highest rtp
  nodup : rtp.Nodup

/-- The database of RTCP holds the indices accepted. -/
structure HoldsRtcp (rdb : SrtpRdb) (rtcp : List ℕ) : Prop where
  holds : Rdb.Holds rdb (seenIn rtcp)
  windowStart : rdb.windowStart = highest rtcp - (rdbBitsInBitmask - 1)
  highest : highest rtcp < 2 ^ 31
  nodup : rtcp.Nodup

/-- What a stream knows. -/
structure Knows (window : ℕ) (stream : SrtpStreamCtx) (s : Receiver) : Prop where
  rtp : HoldsRtp window stream.rtpRdbx s.rtp
  rtcp : HoldsRtcp stream.rtcpRdb s.rtcp

/-- Without a stream nothing was accepted. -/
def Inv (window : ℕ) (s : Receiver) : Prop :=
  match s.stream with
  | none => s.rtp = [] ∧ s.rtcp = []
  | some stream => Knows window stream s

theorem holdsRtcp_nil : HoldsRtcp srtpRdbInit [] :=
  ⟨seenIn_nil ▸ srtpRdbInit_holds, rfl, by decide, List.nodup_nil⟩

theorem srtpStreamClone_eq {new : SrtpStreamCtx} (h : srtpStreamClone window = some new) :
    HoldsRtp window new.rtpRdbx [] ∧ HoldsRtcp new.rtcpRdb [] := by
  obtain ⟨rdbx, hinit, rfl⟩ := Option.map_eq_some_iff.mp h
  obtain ⟨hholds, hindex, hlength⟩ := srtpRdbxInit_holds hinit
  exact ⟨⟨seenIn_nil ▸ hholds, hlength, hindex, List.nodup_nil⟩, holdsRtcp_nil⟩

theorem nodup_concat {l : List ℕ} (h : l.Nodup) {e : ℕ} (hnew : e ∉ l) : (l ++ [e]).Nodup :=
  List.nodup_append.mpr ⟨h, List.pairwise_singleton _ e, fun a ha b hb hab =>
    hnew (by rwa [← List.mem_singleton.mp hb, ← hab])⟩

/-- An index is added that the check accepted. -/
theorem HoldsRtp.add {rdbx : SrtpRdbx} {rtp : List ℕ} (h : HoldsRtp window rdbx rtp) (est : ℕ) (delta : ℤ)
    (hest : (est : ℤ) = rdbx.index + delta) (hdelta : delta < 2 ^ 16) (hroom : rdbx.index + 2 ^ 16 ≤ 2 ^ 48)
    (hcheck : srtpRdbxCheck rdbx delta = .ok) : HoldsRtp window (srtpRdbxAddIndex rdbx delta) (rtp ++ [est]) := by
  obtain ⟨hcovered, hnew⟩ := (h.holds.check delta).mp hcheck
  obtain ⟨hholds, hindex, hlength⟩ := h.holds.addIndex delta hdelta (by omega) (by omega)
  rw [← hest, seenIn_natCast] at hnew
  refine ⟨?_, hlength.trans h.length, ?_, nodup_concat h.nodup hnew⟩
  · rw [seenIn_append, hest]
    exact hholds
  · rw [hindex, highest_append, h.index]
    have hindex' := h.index
    omega

theorem HoldsRtp.le_index {rdbx : SrtpRdbx} {rtp : List ℕ} (h : HoldsRtp window rdbx rtp) {e : ℕ} (he : e ∈ rtp) :
    e ≤ rdbx.index := by
  have hbelow := h.holds.tracks.below e (seenIn_natCast.mpr he)
  omega

/-- The rollover counter jumps ahead, by more than the window. -/
theorem HoldsRtp.jump {rdbx : SrtpRdbx} {rtp : List ℕ} (h : HoldsRtp window rdbx rtp) (hwindow : window < 2 ^ 15)
    {est : ℕ} (hfar : rdbx.index + 2 ^ 15 < est) (hroom : est < 2 ^ 48) :
    HoldsRtp window (srtpRdbxAddIndex (srtpRdbxSetRocSeq rdbx (est / 2 ^ 16 % 2 ^ 32) (est % 2 ^ 16)) 0)
      (rtp ++ [est]) := by
  have hlength := h.length
  rw [maskLength] at hlength
  have hest : est / 2 ^ 16 % 2 ^ 32 * 2 ^ 16 + est % 2 ^ 16 = est := by omega
  obtain ⟨hholds, hset⟩ := h.holds.setRocSeq (est / 2 ^ 16 % 2 ^ 32) (est % 2 ^ 16) (by omega) (by omega)
  rw [hset, hest] at hholds ⊢
  have hpos := h.holds.pos
  have hpos' : (bitvectorSetToZero rdbx.bitmask).length = rdbx.bitmask.length := rfl
  obtain ⟨hholds', hindex, hlength'⟩ := hholds.addIndex 0 (by omega) (by dsimp only; omega) (by
    dsimp only
    omega)
  have hnew : est ∉ rtp := fun hmem => by
    have := h.le_index hmem
    omega
  have hindex' := h.index
  refine ⟨?_, hlength'.trans h.length, ?_, nodup_concat h.nodup hnew⟩
  · rw [seenIn_append]
    dsimp only at hholds'
    rw [Int.add_zero] at hholds'
    exact hholds'
  · rw [hindex, highest_append]
    dsimp only
    omega

/-- An index is added that the check of RTCP accepted. -/
theorem HoldsRtcp.add {rdb : SrtpRdb} {rtcp : List ℕ} (h : HoldsRtcp rdb rtcp) {seqNum : ℕ} (hseq : seqNum < 2 ^ 31)
    (hcheck : srtpRdbCheck rdb seqNum = .ok) : HoldsRtcp (srtpRdbAddIndex rdb seqNum) (rtcp ++ [seqNum]) := by
  have hbits : rdbBitsInBitmask = 128 := rfl
  have hstart := h.windowStart
  have hhighest := h.highest
  obtain ⟨hcovered, hnew⟩ := (h.holds.check seqNum (by omega)).mp hcheck
  obtain ⟨hholds, hwindow⟩ := h.holds.addIndex seqNum (by omega) (by omega)
  rw [seenIn_natCast] at hnew
  refine ⟨?_, ?_, ?_, ?_⟩
  · rw [seenIn_append]
    exact hholds
  · rw [hwindow, highest_append]
    omega
  · rw [highest_append]
    omega
  · exact nodup_concat h.nodup hnew

/-! ### Every run -/

theorem srtpGetEstPktIndex_spec {stream : SrtpStreamCtx} {seq : ℕ} (hseq : seq < 2 ^ 16)
    (hrange : stream.rtpRdbx.index + 2 ^ 16 ≤ 2 ^ 48) :
    ((srtpGetEstPktIndex stream seq).1 = .ok →
      ((srtpGetEstPktIndex stream seq).2.1 : ℤ) = stream.rtpRdbx.index + (srtpGetEstPktIndex stream seq).2.2 ∧
        (srtpGetEstPktIndex stream seq).2.2 < 2 ^ 16) ∧
      ((srtpGetEstPktIndex stream seq).1 = .pktIdxAdv →
        stream.rtpRdbx.index + 2 ^ 15 < (srtpGetEstPktIndex stream seq).2.1 ∧
          (srtpGetEstPktIndex stream seq).2.1 < 2 ^ 48) := by
  rw [srtpGetEstPktIndex]
  by_cases hroc : stream.pendingRoc ≠ 0
  · rw [if_pos hroc, srtpEstimateIndex]
    have hmedian : seqNumMedian = 2 ^ 15 := rfl
    have hlt := stream.pendingRoc.toNat_lt
    rw [hmedian]
    split_ifs
    · refine ⟨fun hno => (by cases hno), fun _ => ?_⟩
      dsimp only
      omega
    · constructor <;> intro hno <;> cases hno
    · refine ⟨fun _ => ?_, fun hno => by cases hno⟩
      dsimp only
      omega
  · rw [if_neg hroc]
    obtain ⟨hest, hdelta, -⟩ := srtpRdbxEstimateIndex_spec stream.rtpRdbx seq hseq hrange
    exact ⟨fun _ => ⟨hest, hdelta⟩, fun hno => by cases hno⟩

/-- What a packet does to the stream: nothing, or it is accepted by a new stream, by a jump or by the check. -/
theorem srtpUnprotect_cases (window : ℕ) (stream : Option SrtpStreamCtx) (seq : ℕ) (opens : ℕ → Bool) :
    (∃ status, srtpUnprotect window stream seq opens = (status, none, stream)) ∨
    (∃ new, stream = none ∧ srtpStreamClone window = some new ∧ srtpUnprotect window stream seq opens =
      (.ok, some seq, some { new with rtpRdbx := srtpRdbxAddIndex new.rtpRdbx seq })) ∨
    (∃ st est delta, stream = some st ∧ srtpGetEstPktIndex st seq = (.pktIdxAdv, est, delta) ∧
      srtpUnprotect window stream seq opens = (.ok, some est, some { st with
        rtpRdbx := srtpRdbxAddIndex (srtpRdbxSetRocSeq st.rtpRdbx (est / 2 ^ 16 % 2 ^ 32) (est % 2 ^ 16)) 0
        pendingRoc := 0 })) ∨
    ∃ st est delta, stream = some st ∧ srtpGetEstPktIndex st seq = (.ok, est, delta) ∧
      srtpRdbxCheck st.rtpRdbx delta = .ok ∧ srtpUnprotect window stream seq opens =
        (.ok, some est, some { st with rtpRdbx := srtpRdbxAddIndex st.rtpRdbx delta }) := by
  cases stream with
  | none =>
    rw [srtpUnprotect]
    split_ifs
    · exact .inl ⟨_, rfl⟩
    · cases hclone : srtpStreamClone window with
      | none => exact .inl ⟨_, rfl⟩
      | some new => exact .inr (.inl ⟨new, rfl, rfl, rfl⟩)
  | some st =>
    rw [srtpUnprotect]
    dsimp only
    rcases hest : srtpGetEstPktIndex st seq with ⟨status, est, delta⟩
    split_ifs with hbad hadv hopens hcheck hopens
    · exact .inl ⟨_, rfl⟩
    · exact .inl ⟨_, rfl⟩
    · exact .inr (.inr (.inl ⟨st, est, delta, rfl, hadv ▸ hest, rfl⟩))
    · exact .inl ⟨_, rfl⟩
    · exact .inl ⟨_, rfl⟩
    · have hok : status = .ok := by
        by_contra hno
        exact hbad ⟨hno, hadv⟩
      exact .inr (.inr (.inr ⟨st, est, delta, rfl, hok ▸ hest, not_not.mp hcheck, rfl⟩))

/-- What a packet of RTCP does to the stream. -/
theorem srtpUnprotectRtcp_cases (window : ℕ) (stream : Option SrtpStreamCtx) (seqNum : ℕ) (opens : ℕ → Bool) :
    (∃ status, srtpUnprotectRtcp window stream seqNum opens = (status, none, stream)) ∨
    ∃ st, (stream.orElse fun _ => srtpStreamClone window) = some st ∧
      srtpRdbCheck (stream.elim srtpRdbInit (·.rtcpRdb)) seqNum = .ok ∧ srtpUnprotectRtcp window stream seqNum opens =
        (.ok, some seqNum, some { st with rtcpRdb := srtpRdbAddIndex st.rtcpRdb seqNum }) := by
  rw [srtpUnprotectRtcp]
  split_ifs with hcheck hopens
  · exact .inl ⟨_, rfl⟩
  · exact .inl ⟨_, rfl⟩
  · cases hstream : stream.orElse fun _ => srtpStreamClone window with
    | none =>
      cases stream with
      | none => exact .inl ⟨_, rfl⟩
      | some st => cases hstream
    | some st => exact .inr ⟨st, rfl, not_not.mp hcheck, rfl⟩

theorem Inv.of_some {s : Receiver} {stream : SrtpStreamCtx} (h : Inv window s) (hstream : s.stream = some stream) :
    Knows window stream s := by
  rw [Inv, hstream] at h
  exact h

theorem Inv.of_none {s : Receiver} (h : Inv window s) (hstream : s.stream = none) : s.rtp = [] ∧ s.rtcp = [] := by
  rw [Inv, hstream] at h
  exact h

theorem step_inv (hwindow : window < 2 ^ 15) {s s' : Receiver} {a : Action} (h : Inv window s) (hrange : InRange s a)
    (hstep : step window s a = some s') : Inv window s' := by
  cases a with
  | rtp seq opens =>
    obtain rfl := Option.some.inj hstep
    have hseq : seq.toNat < 2 ^ 16 := seq.toNat_lt
    obtain ⟨status, hr⟩ | ⟨new, hstream, hclone, hr⟩ | ⟨st, est, delta, hstream, hest, hr⟩ |
      ⟨st, est, delta, hstream, hest, hcheck, hr⟩ := srtpUnprotect_cases window s.stream seq.toNat opens
    · rw [hr]
      dsimp only
      rw [Option.toList_none, List.append_nil]
      exact h
    · obtain ⟨hrtp, hrtcp⟩ := srtpStreamClone_eq hclone
      have hadd := hrtp.add seq.toNat seq.toNat (by rw [hrtp.index]; exact (Int.zero_add _).symm) (by omega)
        (by rw [hrtp.index]; decide) ((hrtp.holds.check _).mpr ⟨by have := hrtp.holds.pos; omega, by simp [seenIn]⟩)
      obtain ⟨hrtpnil, hrtcpnil⟩ := h.of_none hstream
      rw [hr]
      dsimp only
      rw [hrtpnil]
      exact ⟨hadd, hrtcpnil ▸ hrtcp⟩
    · have hknows := h.of_some hstream
      have hspec := (srtpGetEstPktIndex_spec hseq (hrange st hstream)).2
      rw [hest] at hspec
      obtain ⟨hfar, hroom⟩ := hspec rfl
      rw [hr]
      exact ⟨hknows.rtp.jump hwindow hfar hroom, hknows.rtcp⟩
    · have hknows := h.of_some hstream
      have hspec := (srtpGetEstPktIndex_spec hseq (hrange st hstream)).1
      rw [hest] at hspec
      obtain ⟨hindex, hdelta⟩ := hspec rfl
      rw [hr]
      exact ⟨hknows.rtp.add est delta hindex hdelta (hrange st hstream) hcheck, hknows.rtcp⟩
  | rtcp seqNum opens =>
    obtain rfl := Option.some.inj hstep
    have hseq : seqNum.toNat < 2 ^ 31 := seqNum.isLt
    obtain ⟨status, hr⟩ | ⟨st, hst, hcheck, hr⟩ := srtpUnprotectRtcp_cases window s.stream seqNum.toNat opens
    · rw [hr]
      dsimp only
      rw [Option.toList_none, List.append_nil]
      exact h
    · rw [hr]
      cases hstream : s.stream with
      | none =>
        rw [hstream] at hst hcheck
        obtain ⟨hrtp, hrtcp⟩ := srtpStreamClone_eq hst
        obtain ⟨hrtpnil, hrtcpnil⟩ := h.of_none hstream
        have hnew : st.rtcpRdb = srtpRdbInit := by
          obtain ⟨rdbx, -, rfl⟩ := Option.map_eq_some_iff.mp hst
          rfl
        dsimp only
        rw [hrtcpnil]
        exact ⟨hrtpnil ▸ hrtp, hrtcp.add hseq (hnew ▸ hcheck)⟩
      | some stream =>
        rw [hstream] at hst hcheck
        obtain rfl := Option.some.inj hst
        have hknows := h.of_some hstream
        exact ⟨hknows.rtp, hknows.rtcp.add hseq hcheck⟩
  | setRoc roc =>
    obtain rfl := Option.some.inj hstep
    cases hstream : s.stream with
    | none =>
      rw [Inv]
      exact h.of_none hstream
    | some stream =>
      rw [Inv]
      have hknows := h.of_some hstream
      exact ⟨hknows.rtp, hknows.rtcp⟩

theorem reached_inv (hwindow : window < 2 ^ 15) {as : List Action} {s : Receiver}
    (hmeets : Meets (step window) InRange as start) (hrun : runs (step window) as start = some s) : Inv window s :=
  runs_invariant (fun hinv hrange hstep => step_inv hwindow hinv hrange hstep)
    (show Inv window start from ⟨rfl, rfl⟩) hmeets hrun

/-- **No replay.**  In every run no packet is accepted twice, neither of RTP nor of RTCP. -/
theorem unprotect_once (hwindow : window < 2 ^ 15) {as : List Action} {s : Receiver}
    (hmeets : Meets (step window) InRange as start) (hrun : runs (step window) as start = some s) :
    s.rtp.Nodup ∧ s.rtcp.Nodup := by
  have hinv := reached_inv hwindow hmeets hrun
  cases hstream : s.stream with
  | none =>
    obtain ⟨hrtp, hrtcp⟩ := hinv.of_none hstream
    rw [hrtp, hrtcp]
    exact ⟨List.nodup_nil, List.nodup_nil⟩
  | some stream => exact ⟨(hinv.of_some hstream).rtp.nodup, (hinv.of_some hstream).rtcp.nodup⟩

/-- The packets of a run that the next theorems are about: an old one, a forged one, RTCP and a second RTP packet. -/
def sampleActions : List Action :=
  [.rtp 65535 fun _ => true, .rtp 65535 fun _ => true, .rtcp 1 fun _ => true, .rtp 7 fun _ => false,
    .rtp 0 fun _ => true]

def sampleReceiver : Receiver := (runs (step 128) sampleActions start).getD start

theorem runs_sample : runs (step 128) sampleActions start = some sampleReceiver := by decide +kernel

theorem sampleActions_meets : Meets (step 128) InRange sampleActions start := by decide +kernel

theorem unprotect_once_sample : sampleReceiver.rtp.Nodup ∧ sampleReceiver.rtcp.Nodup :=
  unprotect_once (by decide) sampleActions_meets runs_sample

/-! ### Genuine packets -/

theorem HoldsRtp.check_iff {rdbx : SrtpRdbx} {rtp : List ℕ} (h : HoldsRtp window rdbx rtp) {i : ℕ} :
    srtpRdbxCheck rdbx ((i : ℤ) - rdbx.index) = .ok ↔ i ∉ rtp ∧ highest rtp < i + maskLength window := by
  have hindex := h.index
  have hlength := h.length
  rw [h.holds.check, Fresh, show (rdbx.index : ℤ) + (i - rdbx.index) = i by omega, seenIn_natCast, and_comm]
  refine and_congr_right fun _ => ?_
  omega

/-- **Genuine packets get through.**  In every reached state, a packet that is authentic under its index and within
half a cycle of the highest one accepted is taken for what it is; it is refused only as a repetition or as older
than the window. -/
theorem unprotect_genuine (hwindow : window < 2 ^ 15) {as : List Action} {s : Receiver}
    (hmeets : Meets (step window) InRange as start) (hrun : runs (step window) as start = some s)
    (stream : SrtpStreamCtx) (hstream : s.stream = some stream) (hroc : stream.pendingRoc = 0)
    (hrange : highest s.rtp + 2 ^ 16 ≤ 2 ^ 48) {i : ℕ} (hnear : highest s.rtp < i + 2 ^ 15)
    (hnear' : i < highest s.rtp + 2 ^ 15) {opens : ℕ → Bool} (hopens : opens i = true) :
    ((srtpUnprotect window s.stream (i % 2 ^ 16) opens).1 = .ok ↔
        i ∉ s.rtp ∧ highest s.rtp < i + maskLength window) ∧
      ((srtpUnprotect window s.stream (i % 2 ^ 16) opens).1 = .ok →
        (srtpUnprotect window s.stream (i % 2 ^ 16) opens).2.1 = some i) := by
  have hknows := (reached_inv hwindow hmeets hrun).of_some hstream
  have hindex := hknows.rtp.index
  obtain ⟨hest, -, hguess⟩ := srtpRdbxEstimateIndex_spec stream.rtpRdbx (i % 2 ^ 16) (by omega) (by omega)
  have hi := hguess i rfl (by omega) (by omega)
  have hget : srtpGetEstPktIndex stream (i % 2 ^ 16) = (.ok, i, (i : ℤ) - stream.rtpRdbx.index) := by
    have hdelta : (srtpRdbxEstimateIndex stream.rtpRdbx (i % 2 ^ 16)).2 = (i : ℤ) - stream.rtpRdbx.index := by
      rw [hi] at hest
      omega
    unfold srtpGetEstPktIndex
    dsimp only
    rw [if_neg (not_not_intro hroc), hi, hdelta]
  rw [← hknows.rtp.check_iff, hstream, srtpUnprotect]
  dsimp only
  rw [hget]
  by_cases hcheck : srtpRdbxCheck stream.rtpRdbx ((i : ℤ) - stream.rtpRdbx.index) = .ok
  · simp [hcheck, hopens]
  · simp [hcheck]

/-- The same of RTCP, whose packets carry their whole index. -/
theorem unprotectRtcp_genuine (hpos : 0 < window) (hwindow : window < 2 ^ 15) {as : List Action} {s : Receiver}
    (hmeets : Meets (step window) InRange as start) (hrun : runs (step window) as start = some s) {i : ℕ}
    (hi : i < 2 ^ 31) {opens : ℕ → Bool} (hopens : opens i = true) :
    (srtpUnprotectRtcp window s.stream i opens).1 = .ok ↔ i ∉ s.rtcp ∧ highest s.rtcp < i + rdbBitsInBitmask := by
  have hinv := reached_inv hwindow hmeets hrun
  have hbits : rdbBitsInBitmask = 128 := rfl
  have hknows : HoldsRtcp (s.stream.elim srtpRdbInit (·.rtcpRdb)) s.rtcp := by
    cases hstream : s.stream with
    | none =>
      rw [(hinv.of_none hstream).2]
      exact holdsRtcp_nil
    | some stream => exact (hinv.of_some hstream).rtcp
  have hstart := hknows.windowStart
  have hhighest := hknows.highest
  have hcheck : srtpRdbCheck (s.stream.elim srtpRdbInit (·.rtcpRdb)) i = .ok ↔
      i ∉ s.rtcp ∧ highest s.rtcp < i + rdbBitsInBitmask := by
    rw [hknows.holds.check i (by omega), Fresh, seenIn_natCast, and_comm]
    refine and_congr_right fun _ => ?_
    omega
  have hsome : ∃ st, (s.stream.orElse fun _ => srtpStreamClone window) = some st := by
    cases s.stream with
    | none => exact ⟨_, by rw [Option.orElse_none, srtpStreamClone, srtpRdbxInit, if_neg (by omega)]; rfl⟩
    | some stream => exact ⟨stream, rfl⟩
  obtain ⟨st, hst⟩ := hsome
  have hauthentic : ¬ opens i = false := by
    rw [hopens]
    decide
  rw [← hcheck, srtpUnprotectRtcp]
  by_cases hok : srtpRdbCheck (s.stream.elim srtpRdbInit (·.rtcpRdb)) i = .ok
  · rw [if_neg (not_not_intro hok), if_neg hauthentic, hst]
    exact iff_of_true rfl hok
  · rw [if_pos hok]

/-- The next packets of the run above: a repetition of RTP, a new one of RTCP. -/
theorem unprotect_genuine_sample :
    (srtpUnprotect 128 sampleReceiver.stream (65535 % 2 ^ 16) fun _ => true).1 ≠ .ok :=
  fun h => ((unprotect_genuine (by decide) sampleActions_meets runs_sample (sampleReceiver.stream.get
    (by decide +kernel)) (by simp) (by decide +kernel) (by decide +kernel) (i := 65535) (by decide +kernel)
    (by decide +kernel) rfl).1.mp h).1 (by decide +kernel)

theorem unprotectRtcp_genuine_sample :
    (srtpUnprotectRtcp 128 sampleReceiver.stream 2 fun _ => true).1 = .ok :=
  (unprotectRtcp_genuine (by decide) (by decide) sampleActions_meets runs_sample (by decide) rfl).mpr (by decide +kernel)

end IotcRa8p1.Media.Unprotect
