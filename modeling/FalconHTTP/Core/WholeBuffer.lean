import FalconHTTP.Client.HttpClient

/-!
# Sending a whole buffer

`Connection::sendAll` and `HttpClient::send` have the same loop: they offer the socket what is left
of a buffer, add what it took to an unsigned counter, and stop at the first result that is not
positive. `sendLoop` is that loop with the arithmetic of `size_t`, against surroundings that answer
each call, and with its calls recorded.

As long as no call takes more than it is offered, the counter counts what was taken and never wraps.
So the loop runs as `Sends` says, and `WholeBuffer` is read off that: the loop ends, every call
offers exactly what is left, what was taken is a prefix of the buffer, and it is all of it exactly
when the loop reports success.
-/

namespace FalconHTTP

variable {σ : Type}

/-! ### The loop, call by call -/

/-- `static_cast<std::size_t>` of a signed value. -/
def toSize (n : ℤ) : ℕ :=
  (n % sizeRange).toNat

theorem toSize_of_lt {n : ℤ} (hn : 0 ≤ n) (hlt : n < sizeRange) : toSize n = n.toNat := by
  rw [toSize, Int.emod_eq_of_lt hn hlt]

/-- One call of `Socket::send`. -/
structure SendCall where
  /-- The offset in the buffer of the first byte offered. -/
  offset : ℕ
  /-- The number of bytes offered. -/
  length : ℕ
  /-- The result. -/
  result : ℤ

/-- The loop over a buffer of the given length, with its calls; `none` when the fuel runs out. -/
def sendLoop (send : ℕ → ℕ → σ → ℤ × σ) (length : ℕ) :
    ℕ → ℕ → σ → Option (Bool × List SendCall × σ)
  | 0, _, _ => none
  | fuel + 1, totalSent, s =>
    if totalSent < length then
      let request := toSize (length - totalSent)
      let (sent, s) := send totalSent request s
      if sent ≤ 0 then some (false, [⟨totalSent, request, sent⟩], s)
      else
        (sendLoop send length fuel ((totalSent + toSize sent) % sizeRange) s).map fun ran ↦
          (ran.1, ⟨totalSent, request, sent⟩ :: ran.2.1, ran.2.2)
    else some (true, [], s)

/-- The runs of the loop over a buffer, from an offset on: the calls, and what it reports. -/
inductive Sends (data : Bytes) : ℕ → List SendCall → Bool → Prop
  /-- Nothing is left. -/
  | done : Sends data data.length [] true
  /-- A call fails. -/
  | failed {offset : ℕ} {result : ℤ} (hoffset : offset < data.length) (hresult : result ≤ 0) :
      Sends data offset [⟨offset, data.length - offset, result⟩] false
  /-- A call takes some of what is left. -/
  | took {offset count : ℕ} {calls : List SendCall} {ok : Bool} (hcount : 0 < count)
      (hle : offset + count ≤ data.length) (hrest : Sends data (offset + count) calls ok) :
      Sends data offset (⟨offset, data.length - offset, count⟩ :: calls) ok

section Loop

variable {send : ℕ → ℕ → σ → ℤ × σ} {length totalSent fuel : ℕ} {s : σ}

theorem sendLoop_of_le (hle : length ≤ totalSent) :
    sendLoop send length (fuel + 1) totalSent s = some (true, [], s) :=
  if_neg (Nat.not_lt.2 hle)

/-- While something is left, all of it is offered. -/
theorem toSize_sub (hlength : length < sizeRange) (hlt : totalSent < length) :
    toSize (length - totalSent) = length - totalSent := by
  rw [toSize_of_lt (by omega) (by omega)]
  omega

/-- A turn whose call fails. -/
theorem sendLoop_of_failed (hlength : length < sizeRange) (hlt : totalSent < length) {result : ℤ}
    {s' : σ} (hsend : send totalSent (length - totalSent) s = (result, s')) (hresult : result ≤ 0) :
    sendLoop send length (fuel + 1) totalSent s =
      some (false, [⟨totalSent, length - totalSent, result⟩], s') := by
  rw [sendLoop, if_pos hlt, toSize_sub hlength hlt]
  simp only [hsend, if_pos hresult]

/-- A turn whose call takes some of what it is offered: the counter does not wrap. -/
theorem sendLoop_of_took (hlength : length < sizeRange) (hlt : totalSent < length) {count : ℕ}
    {s' : σ} (hsend : send totalSent (length - totalSent) s = ((count : ℤ), s'))
    (hcount : 0 < count) (hle : totalSent + count ≤ length) :
    sendLoop send length (fuel + 1) totalSent s =
      (sendLoop send length fuel (totalSent + count) s').map fun ran ↦
        (ran.1, ⟨totalSent, length - totalSent, count⟩ :: ran.2.1, ran.2.2) := by
  have hpositive : ¬ (count : ℤ) ≤ 0 := by omega
  have hcounter : (totalSent + toSize count) % sizeRange = totalSent + count := by
    rw [toSize_of_lt (by omega) (by omega), Int.toNat_natCast, Nat.mod_eq_of_lt (by omega)]
  rw [sendLoop, if_pos hlt, toSize_sub hlength hlt]
  simp only [hsend, if_neg hpositive, hcounter]

end Loop

/-- **The loop ends**, with a run that is legal, when no call takes more than it is offered. -/
theorem exists_sends (send : ℕ → ℕ → σ → ℤ × σ)
    (hsend : ∀ offset length s, (send offset length s).1 ≤ length) {data : Bytes}
    (hdata : data.length < sizeRange) {totalSent : ℕ} (hle : totalSent ≤ data.length) (s : σ) :
    ∃ ok calls s', (∀ fuel, data.length - totalSent < fuel →
      sendLoop send data.length fuel totalSent s = some (ok, calls, s')) ∧
      Sends data totalSent calls ok := by
  induction hleft : data.length - totalSent using Nat.strong_induction_on
    generalizing totalSent s with
  | _ left ih =>
    rcases Nat.eq_or_lt_of_le hle with rfl | hlt
    · refine ⟨true, [], s, fun fuel hfuel ↦ ?_, .done⟩
      obtain ⟨fuel, rfl⟩ := Nat.exists_eq_add_one.2 (Nat.zero_lt_of_lt hfuel)
      exact sendLoop_of_le (Nat.le_refl _)
    rcases hcall : send totalSent (data.length - totalSent) s with ⟨result, s₁⟩
    have hresult : result ≤ (data.length - totalSent : ℕ) := by
      have := hsend totalSent (data.length - totalSent) s
      rwa [hcall] at this
    rcases Int.lt_or_le 0 result with hpos | hneg
    · obtain ⟨count, rfl⟩ := Int.eq_ofNat_of_zero_le (Int.le_of_lt hpos)
      have hcount : 0 < count := by omega
      have hsum : totalSent + count ≤ data.length := by omega
      obtain ⟨ok, calls, s', hrun, hsends⟩ := ih _ (by omega) hsum s₁ rfl
      refine ⟨ok, _, s', fun fuel hfuel ↦ ?_, .took hcount hsum hsends⟩
      obtain ⟨fuel, rfl⟩ := Nat.exists_eq_add_one.2 (Nat.zero_lt_of_lt hfuel)
      rw [sendLoop_of_took hdata hlt hcall hcount hsum, hrun fuel (by omega)]
      rfl
    · refine ⟨false, _, s₁, fun fuel hfuel ↦ ?_, .failed hlt hneg⟩
      obtain ⟨fuel, rfl⟩ := Nat.exists_eq_add_one.2 (Nat.zero_lt_of_lt hfuel)
      exact sendLoop_of_failed hdata hlt hcall hneg

/-! ### What a run sends -/

/-- The bytes that calls took, in order. -/
def accepted (data : Bytes) (calls : List SendCall) : Bytes :=
  calls.flatMap fun call ↦ (data.drop call.offset).take call.result.toNat

/-- The buffer is sent whole or not at all beyond a prefix. -/
structure WholeBuffer (data : Bytes) (ok : Bool) (calls : List SendCall) : Prop where
  /-- Every call offers exactly what is left of the buffer. -/
  offers_rest : ∀ call ∈ calls, call.offset + call.length = data.length
  /-- It starts where the calls before it have stopped: no gap, no repetition. -/
  contiguous : ∀ before call after, calls = before ++ call :: after →
    call.offset = (accepted data before).length
  /-- What was taken is a prefix of the buffer. -/
  prefix_data : accepted data calls <+: data
  /-- Success is reported exactly when that is the whole buffer. -/
  ok_iff : ok = true ↔ accepted data calls = data
  /-- A call that fails is the last one, and reported. -/
  stops : ∀ before call after, calls = before ++ call :: after → call.result ≤ 0 →
    after = [] ∧ ok = false

namespace Sends

variable {data : Bytes} {start : ℕ} {calls : List SendCall} {ok : Bool}

/-- What is taken from an offset on is what is there. -/
theorem take_append_of_took (data : Bytes) (offset count : ℕ) :
    (data.drop offset).take count ++ data.drop (offset + count) = data.drop offset := by
  rw [← List.drop_drop, List.take_append_drop]

theorem accepted_took (offset length count : ℕ) (calls : List SendCall) :
    accepted data (⟨offset, length, count⟩ :: calls) =
      (data.drop offset).take count ++ accepted data calls := by
  rw [accepted, List.flatMap_cons, Int.toNat_natCast, accepted]

theorem offers_rest (h : Sends data start calls ok) :
    ∀ call ∈ calls, call.offset + call.length = data.length := by
  induction h with
  | done => exact fun _ hcall ↦ absurd hcall List.not_mem_nil
  | failed hoffset _ => exact List.forall_mem_singleton.2 (Nat.add_sub_cancel' hoffset.le)
  | @took offset count calls ok hcount hle hrest ih =>
    exact List.forall_mem_cons.2 ⟨Nat.add_sub_cancel' (show offset ≤ data.length by omega), ih⟩

theorem prefix_drop (h : Sends data start calls ok) :
    accepted data calls <+: data.drop start ∧
      (ok = true ↔ accepted data calls = data.drop start) := by
  induction h with
  | done =>
    rw [List.drop_length]
    exact ⟨List.prefix_refl _, iff_of_true rfl rfl⟩
  | @failed offset result hoffset hresult =>
    have hnil : accepted data [⟨offset, data.length - offset, result⟩] = [] := by
      simp [accepted, Int.toNat_of_nonpos hresult]
    rw [hnil]
    refine ⟨List.nil_prefix, iff_of_false Bool.false_ne_true fun heq ↦ ?_⟩
    have hlen := congrArg List.length heq
    rw [List.length_nil, List.length_drop] at hlen
    omega
  | @took offset count calls ok hcount hle hrest ih =>
    have hsplit := take_append_of_took data offset count
    rw [accepted_took]
    constructor
    · obtain ⟨rest, hrest⟩ := ih.1
      exact ⟨rest, by rw [List.append_assoc, hrest, hsplit]⟩
    · rw [ih.2]
      constructor
      · intro heq
        rw [heq, hsplit]
      · intro heq
        exact List.append_cancel_left (heq.trans hsplit.symm)

theorem contiguous (h : Sends data start calls ok) {before after : List SendCall} {call : SendCall}
    (hcalls : calls = before ++ call :: after) :
    call.offset = start + (accepted data before).length := by
  induction h generalizing before with
  | done => exact absurd hcalls (by simp)
  | failed hoffset hresult =>
    obtain ⟨rfl, hrest⟩ := List.append_eq_singleton_iff.1 hcalls.symm |>.resolve_right (by simp)
    obtain ⟨rfl, -⟩ := List.cons.inj hrest
    rfl
  | @took offset count calls ok hcount hle hrest ih =>
    cases before with
    | nil =>
      obtain ⟨rfl, -⟩ := List.cons.inj hcalls
      rfl
    | cons first before =>
      obtain ⟨rfl, hrest⟩ := List.cons.inj hcalls
      rw [ih hrest, accepted_took, List.length_append, List.length_take, List.length_drop]
      omega

theorem stops (h : Sends data start calls ok) {before after : List SendCall} {call : SendCall}
    (hcalls : calls = before ++ call :: after) (hresult : call.result ≤ 0) :
    after = [] ∧ ok = false := by
  induction h generalizing before with
  | done => exact absurd hcalls (by simp)
  | failed hoffset _ =>
    obtain ⟨rfl, hrest⟩ := List.append_eq_singleton_iff.1 hcalls.symm |>.resolve_right (by simp)
    obtain ⟨-, rfl⟩ := List.cons.inj hrest
    exact ⟨rfl, rfl⟩
  | @took offset count calls ok hcount hle hrest ih =>
    cases before with
    | nil =>
      obtain ⟨rfl, -⟩ := List.cons.inj hcalls
      have hpositive : 0 < (count : ℤ) := Int.natCast_pos.2 hcount
      exact absurd hresult (Int.not_le.2 hpositive)
    | cons first before => exact ih (List.cons.inj hcalls).2

/-- **What a run from the start of the buffer sends.** -/
theorem wholeBuffer (h : Sends data 0 calls ok) : WholeBuffer data ok calls where
  offers_rest := h.offers_rest
  contiguous _ _ _ hcalls := (h.contiguous hcalls).trans (Nat.zero_add _)
  prefix_data := h.prefix_drop.1
  ok_iff := h.prefix_drop.2
  stops _ _ _ hcalls hresult := h.stops hcalls hresult

end Sends

/-! ### The two loops -/

/-- `Socket::send` on a part of a buffer. -/
def Socket.sendAt (socket : Socket) (data : Bytes) (offset length : ℕ) (endpoint : Endpoint) :
    ℤ × Endpoint :=
  socket.send ((data.drop offset).take length) endpoint

/-- A send takes at most what it is offered. -/
theorem Socket.send_le (socket : Socket) (data : Bytes) (endpoint : Endpoint) :
    (socket.send data endpoint).1 ≤ data.length := by
  have hlength : (0 : ℤ) ≤ data.length := Int.natCast_nonneg _
  rw [send]
  split
  · show (-1 : ℤ) ≤ data.length
    omega
  · rw [Endpoint.send]
    split
    · exact Int.le_refl _
    · split
      · rename_i hresult
        exact Int.le_trans hresult hlength
      · exact Int.ofNat_le.2 (Nat.min_le_right _ _)

/-- A send takes some of what it is offered, or fails and takes nothing. -/
theorem Socket.send_spec (socket : Socket) {data : Bytes} (hdata : data ≠ [])
    (endpoint : Endpoint) :
    (∃ count endpoint', 0 < count ∧ socket.send data endpoint = (Int.ofNat count, endpoint') ∧
      endpoint.Took (data.take count) endpoint') ∨
    ∃ result endpoint', result ≤ 0 ∧ socket.send data endpoint = (result, endpoint') ∧
      endpoint.Took [] endpoint' := by
  rw [send]
  rcases socket.fd with - | fd
  · exact Or.inr ⟨-1, endpoint, by decide, rfl, Endpoint.Took.nil endpoint⟩
  · exact endpoint.send_spec hdata

/-- **The loop of the model is the loop with machine arithmetic**, on any endpoint, and the endpoint
has what the calls took. -/
theorem Socket.sendLoop_sendAt (socket : Socket) {data : Bytes} (hdata : data.length < sizeRange)
    {fuel totalSent : ℕ} (hle : totalSent ≤ data.length) (hfuel : data.length ≤ totalSent + fuel)
    (endpoint : Endpoint) :
    ∃ calls, sendLoop (socket.sendAt data) data.length (fuel + 1) totalSent endpoint =
        some ((socket.writeLoop data fuel totalSent endpoint).1, calls,
          (socket.writeLoop data fuel totalSent endpoint).2) ∧
      (socket.writeLoop data fuel totalSent endpoint).2.sent =
        endpoint.sent ++ accepted data calls := by
  induction fuel generalizing totalSent endpoint with
  | zero => exact ⟨[], sendLoop_of_le hfuel, (List.append_nil _).symm⟩
  | succ fuel ih =>
    rw [writeLoop]
    rcases Nat.eq_or_lt_of_le hle with rfl | hlt
    · rw [if_neg (Nat.lt_irrefl _)]
      exact ⟨[], sendLoop_of_le (Nat.le_refl _), (List.append_nil _).symm⟩
    have hrest : data.drop totalSent ≠ [] := by
      rw [ne_eq, List.drop_eq_nil_iff]
      omega
    have hoffer : socket.sendAt data totalSent (data.length - totalSent) endpoint =
        socket.send (data.drop totalSent) endpoint := by
      rw [sendAt, List.take_of_length_le (by rw [List.length_drop])]
    rw [if_pos hlt]
    rcases socket.send_spec hrest endpoint with
      ⟨count, endpoint₁, hcount, hsend, htook⟩ | ⟨result, endpoint₁, hresult, hsend, htook⟩
    · have hcountLe : count ≤ data.length - totalSent := by
        have := socket.send_le (data.drop totalSent) endpoint
        rw [hsend, List.length_drop] at this
        exact Int.ofNat_le.1 this
      have hsum : totalSent + count ≤ data.length := by omega
      obtain ⟨calls, hrun, hsent⟩ := ih hsum (by omega) endpoint₁
      have hpositive : ¬ Int.ofNat count ≤ 0 := Int.not_le.2 (Int.natCast_pos.2 hcount)
      simp only [hsend, if_neg hpositive]
      refine ⟨⟨totalSent, data.length - totalSent, count⟩ :: calls, ?_, ?_⟩
      · rw [sendLoop_of_took hdata hlt (hoffer.trans hsend) hcount (by omega), hrun]
        rfl
      · rw [Sends.accepted_took, ← List.append_assoc, ← htook.sent]
        exact hsent
    · simp only [hsend, if_pos hresult]
      refine ⟨_, sendLoop_of_failed hdata hlt (hoffer.trans hsend) hresult, ?_⟩
      rw [htook.sent]
      simp [accepted, Int.toNat_of_nonpos hresult]

/-- The loop over a buffer, with its calls. -/
def Socket.sendBuffer (socket : Socket) (data : Bytes) (endpoint : Endpoint) :
    Option (Bool × List SendCall × Endpoint) :=
  sendLoop (socket.sendAt data) data.length (data.length + 1) 0 endpoint

/-- A send loop of the source: its run is that of `sendBuffer`, and sends the whole buffer or a
prefix. -/
theorem Socket.writeLoop_wholeBuffer (socket : Socket) {data : Bytes}
    (hdata : data.length < sizeRange) (endpoint : Endpoint) :
    ∃ calls, socket.sendBuffer data endpoint =
        some ((socket.writeLoop data data.length 0 endpoint).1, calls,
          (socket.writeLoop data data.length 0 endpoint).2) ∧
      WholeBuffer data (socket.writeLoop data data.length 0 endpoint).1 calls ∧
      (socket.writeLoop data data.length 0 endpoint).2.sent =
        endpoint.sent ++ accepted data calls := by
  obtain ⟨calls, hrun, hsent⟩ := socket.sendLoop_sendAt hdata (Nat.zero_le _)
    (Nat.le_add_left data.length 0) endpoint
  have hoffered : ∀ offset length (s : Endpoint),
      (socket.sendAt data offset length s).1 ≤ length := by
    intro offset length s
    exact Int.le_trans (socket.send_le _ s) (Int.ofNat_le.2 (List.length_take_le _ _))
  obtain ⟨ok, calls', endpoint', hends, hsends⟩ := exists_sends (socket.sendAt data) hoffered hdata
    (Nat.zero_le _) endpoint
  obtain ⟨rfl, hrest⟩ := Prod.mk.inj (Option.some.inj
    ((hends (data.length + 1) (Nat.lt_succ_self _)).symm.trans hrun))
  obtain ⟨rfl, -⟩ := Prod.mk.inj hrest
  exact ⟨calls', hrun, hsends.wholeBuffer, hsent⟩

/-- **Whole-buffer sending.** The loop ends after at most one turn more than there are bytes, and it
sends the whole buffer or reports a failure, for every buffer and all surroundings in which no call
takes more than it is offered. `Connection::sendAll` is this loop, and so is the send loop of
`HttpClient::send`, which returns no response when the loop fails. -/
theorem sendLoop_law {M : Type} [FiniteMap M Bytes Bytes] :
    (∀ send : ℕ → ℕ → σ → ℤ × σ, (∀ offset length s, (send offset length s).1 ≤ length) →
      ∀ data : Bytes, data.length < sizeRange → ∀ s, ∃ ok calls s',
        (∀ fuel, data.length < fuel → sendLoop send data.length fuel 0 s = some (ok, calls, s')) ∧
          WholeBuffer data ok calls) ∧
    (∀ (connection : Connection) (data : Bytes) (endpoint : Endpoint), data.length < sizeRange →
      ∃ ok calls endpoint', connection.sendAll data endpoint = (ok, endpoint') ∧
        connection.socket.sendBuffer data endpoint = some (ok, calls, endpoint') ∧
        WholeBuffer data ok calls ∧ endpoint'.sent = endpoint.sent ++ accepted data calls) ∧
    ∀ (options : ClientOptions) (peer : Peer) (method : HttpMethod) (host : Bytes) (port : UInt16)
      (path body : Bytes) (headers : M), HttpClient.Ready peer →
      (HttpClient.buildRequest method host port path body headers).length < sizeRange →
      ∃ ok calls endpoint',
        (HttpClient.send options peer method host port path body headers).2 = endpoint' ∧
        (ok = false → (HttpClient.send options peer method host port path body headers).1 = none) ∧
        peer.socket.sendBuffer (HttpClient.buildRequest method host port path body headers)
          peer.endpoint = some (ok, calls, endpoint') ∧
        WholeBuffer (HttpClient.buildRequest method host port path body headers) ok calls ∧
        endpoint'.sent = peer.endpoint.sent ++
          accepted (HttpClient.buildRequest method host port path body headers) calls := by
  refine ⟨fun send hsend data hdata s ↦ ?_, fun connection data endpoint hdata ↦ ?_, ?_⟩
  · obtain ⟨ok, calls, s', hends, hsends⟩ := exists_sends send hsend hdata (Nat.zero_le _) s
    exact ⟨ok, calls, s', hends, hsends.wholeBuffer⟩
  · obtain ⟨calls, hrun, hwhole, hsent⟩ := connection.socket.writeLoop_wholeBuffer hdata endpoint
    exact ⟨_, calls, _, rfl, hrun, hwhole, hsent⟩
  · intro options peer method host port path body headers hready hlength
    obtain ⟨calls, hrun, hwhole, hsent⟩ := peer.socket.writeLoop_wholeBuffer hlength peer.endpoint
    have hsend := HttpClient.send_of_ready hready options method host port path body headers
      (Prod.eta _).symm
    rw [hsend]
    refine ⟨_, calls, _, rfl, fun hfailed ↦ ?_, hrun, hwhole, hsent⟩
    rw [hfailed]
    rfl

/-- A socket that takes three bytes, then fails. -/
def shortSend : ℕ → ℕ → List ℤ → ℤ × List ℤ := fun _ length results ↦
  (min (results.headD 0) length, results.tail)

/-- The loop reports a failure, after the first three bytes. -/
theorem sendLoop_law_shortSend :
    ∃ calls s', sendLoop shortSend 5 6 0 [3, -1] = some (false, calls, s') ∧
      WholeBuffer (ascii "hello") false calls := by
  obtain ⟨hloop, -⟩ := sendLoop_law (σ := List ℤ) (M := BytesMap)
  obtain ⟨ok, calls, s', hends, hwhole⟩ := hloop shortSend
    (fun _ _ _ ↦ Int.min_le_right _ _) (ascii "hello") (by decide +kernel) [3, -1]
  have hrun := hends 6 (by decide +kernel)
  have hfailed : (sendLoop shortSend 5 6 0 [3, -1]).map Prod.fst = some false := by decide +kernel
  have hlength : (ascii "hello").length = 5 := rfl
  rw [hlength] at hrun
  rw [hrun] at hfailed
  obtain rfl := Option.some.inj hfailed
  exact ⟨calls, s', hrun, hwhole⟩

end FalconHTTP
