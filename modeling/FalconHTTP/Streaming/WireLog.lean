import FalconHTTP.Streaming.SseConnection

/-!
# The wire log of a stream

What a stream puts on the wire when its socket may fail at any byte: the preamble, the frames of the
sends that returned `true`, in order, and then at most one part of a write that failed. From then
on, and from a `close` on, the stream is `Over`: it is not alive, its sends return `false`, and
nothing more is written.

The program that uses the stream is arbitrary, except that it keeps the connection where it is.
-/

namespace FalconHTTP

/-- A call, and the state it was made in. -/
abbrev SseCall := SseOp × SseConnection × Endpoint

/-- The event a call delivered: that of a send that returned `true`. -/
def deliveredEvent (c : SseCall) : Option (Bytes × Bytes) :=
  match c.1 with
  | .send event data =>
    if (c.2.1.send event data c.2.2).1 then some (event, data) else none
  | _ => none

/-- The call is a send on a live stream whose write failed after a part of the frame. -/
def FailedAfter (c : SseCall) (part : Bytes) : Prop :=
  ∃ event data, c.1 = .send event data ∧ c.2.1.alive = true ∧
    (c.2.1.send event data c.2.2).1 = false ∧
    (c.2.1.send event data c.2.2).2.2.sent = c.2.2.sent ++ part ∧
    part <+: SseConnection.eventFrame event data ∧ part ≠ SseConnection.eventFrame event data

/-- The stream is over: from a state on, the calls find it dead, and nothing is written. -/
structure Over (s : SseConnection × Endpoint) (calls : List SseCall)
    (final : SseConnection × Endpoint) : Prop where
  /-- Every call finds the stream dead. -/
  dead : ∀ c ∈ calls, c.2.1.alive = false
  /-- Every send returns `false`. -/
  refused : ∀ c ∈ calls, ∀ event data, c.1 = .send event data →
    (c.2.1.send event data c.2.2).1 = false
  /-- It is dead at the end. -/
  not_alive : final.1.alive = false
  /-- Nothing was written. -/
  silent : final.2.sent = s.2.sent

/-! ### Dead streams -/

/-- Whatever is called, a dead stream stays dead and writes nothing. -/
theorem sseCall_of_not_alive (op : SseOp) {s : SseConnection × Endpoint}
    (hdead : s.1.alive = false) :
    (sseCall op s).2.1.alive = false ∧ (sseCall op s).2.2.sent = s.2.sent := by
  obtain ⟨sse, endpoint⟩ := s
  cases op with
  | send event data =>
    have hcall : sseCall (.send event data) (sse, endpoint) = (false, sse, endpoint) :=
      SseConnection.send_of_not_alive hdead event data endpoint
    rw [hcall]
    exact ⟨hdead, rfl⟩
  | isConnected => exact ⟨hdead, rfl⟩
  | close => exact ⟨rfl, SseConnection.sent_close sse endpoint⟩
  | moveAway => exact ⟨hdead, rfl⟩

/-- **A dead stream is over.** -/
theorem over_of_not_alive (p : StreamProgram) {s : SseConnection × Endpoint}
    (hdead : s.1.alive = false) : Over s (p.calls sseCall s) (p.run sseCall s).2 := by
  obtain ⟨hlast, hsent⟩ := Interaction.run_invariant (p := p) (h := sseCall)
    (I := fun t ↦ t.1.alive = false ∧ t.2.sent = s.2.sent)
    (fun op t ht ↦ ⟨(sseCall_of_not_alive op ht.1).1, (sseCall_of_not_alive op ht.1).2.trans ht.2⟩)
    ⟨hdead, rfl⟩
  have hcalls := Interaction.calls_invariant (p := p) (h := sseCall)
    (I := fun t ↦ t.1.alive = false) (fun op t ht ↦ (sseCall_of_not_alive op ht).1) hdead
  refine ⟨hcalls, fun c hc event data _ ↦ ?_, hlast, hsent⟩
  rw [SseConnection.send_of_not_alive (hcalls c hc)]

/-- A stream that is over delivers nothing. -/
theorem Over.delivered_eq_nil {s final : SseConnection × Endpoint} {calls : List SseCall}
    (h : Over s calls final) : calls.filterMap deliveredEvent = [] := by
  refine List.filterMap_eq_nil_iff.2 fun c hc ↦ ?_
  obtain ⟨op, t⟩ := c
  cases op with
  | send event data => exact if_neg (by simp [h.refused _ hc event data rfl])
  | isConnected => rfl
  | close => rfl
  | moveAway => rfl

/-- A failed send and a `close` leave the stream dead. -/
theorem not_alive_of_ends {c : SseCall}
    (h : c.1 = .close ∨ ∃ event data, c.1 = .send event data ∧
      (c.2.1.send event data c.2.2).1 = false) : (sseCall c.1 c.2).2.1.alive = false := by
  obtain ⟨op, sse, endpoint⟩ := c
  rcases h with rfl | ⟨event, data, rfl, hfailed⟩
  · rfl
  · show (sse.send event data endpoint).2.1.alive = false
    rcases halive : sse.alive with - | -
    · rw [SseConnection.send_of_not_alive halive]
      exact halive
    · obtain ⟨accepted, endpoint', hsend, -, -⟩ :=
        SseConnection.send_of_alive halive event data endpoint
      rw [hsend] at hfailed ⊢
      exact hfailed

/-! ### Live streams -/

/-- A send that delivers its event: the whole frame was written, and the stream stays alive. -/
structure Delivered (event data : Bytes) (s : SseConnection × Endpoint) : Prop where
  /-- The event counts as delivered. -/
  event_eq : deliveredEvent (.send event data, s) = some (event, data)
  /-- The stream stays alive. -/
  alive : (sseCall (.send event data) s).2.1.alive = true
  /-- The frame was written. -/
  sent : (sseCall (.send event data) s).2.2.sent =
    s.2.sent ++ SseConnection.eventFrame event data

/-- A send that fails: a part of the frame was written, and the stream is dead. -/
structure Lost (event data part : Bytes) (s : SseConnection × Endpoint) : Prop where
  /-- Nothing counts as delivered. -/
  event_eq : deliveredEvent (.send event data, s) = none
  /-- The stream is dead. -/
  not_alive : (sseCall (.send event data) s).2.1.alive = false
  /-- The part was written. -/
  sent : (sseCall (.send event data) s).2.2.sent = s.2.sent ++ part
  /-- It is the part of a failed write. -/
  failed : FailedAfter (.send event data, s) part

/-- **One send** on a live stream delivers its event or fails. -/
theorem delivered_or_lost {s : SseConnection × Endpoint} (halive : s.1.alive = true)
    (event data : Bytes) : Delivered event data s ∨ ∃ part, Lost event data part s := by
  obtain ⟨sse, endpoint⟩ := s
  obtain ⟨accepted, endpoint', hsend, hprefix, htook⟩ :=
    SseConnection.send_of_alive halive event data endpoint
  have hcall : sseCall (.send event data) (sse, endpoint) =
      (decide (accepted = SseConnection.eventFrame event data),
        { sse with alive := decide (accepted = SseConnection.eventFrame event data) },
        endpoint') := hsend
  have hresult : (sse.send event data endpoint).1 =
      decide (accepted = SseConnection.eventFrame event data) := congrArg Prod.fst hsend
  by_cases hwhole : accepted = SseConnection.eventFrame event data
  · refine Or.inl ⟨if_pos (hresult.trans (decide_eq_true hwhole)), ?_, ?_⟩
    · rw [hcall]
      exact decide_eq_true hwhole
    · rw [hcall, ← hwhole]
      exact htook.sent
  · have hfailed := hresult.trans (decide_eq_false hwhole)
    have hsent : (sse.send event data endpoint).2.2.sent = endpoint.sent ++ accepted := by
      rw [hsend]
      exact htook.sent
    refine Or.inr ⟨accepted, if_neg (by simp [hfailed]), ?_, hsent, event, data, rfl, halive,
      hfailed, hsent, hprefix, hwhole⟩
    rw [hcall]
    exact decide_eq_false hwhole

/-- **The log of a live stream**, whatever its socket does. -/
theorem run_log {p : StreamProgram} (hp : p.CallsOnly SseOp.Keeps)
    {s : SseConnection × Endpoint} (halive : s.1.alive = true) :
    ∃ part, (p.run sseCall s).2.2.sent =
        s.2.sent ++ frames ((p.calls sseCall s).filterMap deliveredEvent) ++ part ∧
      (part = [] ∨ ∃ c ∈ p.calls sseCall s, FailedAfter c part) := by
  induction p generalizing s with
  | done result => exact ⟨[], by simp [frames], Or.inl rfl⟩
  | call op next ih =>
    rw [Interaction.run_call, Interaction.calls_call]
    -- a later call of the rest is a later call of the whole
    have hlater : ∀ {part : Bytes}, (part = [] ∨
          ∃ c ∈ (next (sseCall op s).1).calls sseCall (sseCall op s).2, FailedAfter c part) →
        part = [] ∨ ∃ c ∈ (op, s) :: (next (sseCall op s).1).calls sseCall (sseCall op s).2,
          FailedAfter c part := by
      rintro part (hnil | ⟨c, hc, hfailed⟩)
      · exact Or.inl hnil
      · exact Or.inr ⟨c, List.mem_cons_of_mem _ hc, hfailed⟩
    cases op with
    | send event data =>
      rcases delivered_or_lost halive event data with hdelivered | ⟨part, hlost⟩
      · obtain ⟨part, hsent, hpart⟩ := ih _ (hp.2 _) hdelivered.alive
        refine ⟨part, hsent.trans ?_, hlater hpart⟩
        rw [List.filterMap_cons_some hdelivered.event_eq, hdelivered.sent]
        simp [frames]
      · -- the part that was written is the last thing on the wire
        have hover := over_of_not_alive (next (sseCall (.send event data) s).1) hlost.not_alive
        refine ⟨part, ?_, Or.inr ⟨_, List.mem_cons_self, hlost.failed⟩⟩
        rw [List.filterMap_cons_none hlost.event_eq, hover.delivered_eq_nil]
        exact hover.silent.trans (hlost.sent.trans (by simp [frames]))
    | isConnected =>
      obtain ⟨part, hsent, hpart⟩ := ih _ (hp.2 _) halive
      exact ⟨part, hsent, hlater hpart⟩
    | close =>
      have hover := over_of_not_alive (next (sseCall .close s).1) (s := (sseCall .close s).2) rfl
      have hdelivered : deliveredEvent (.close, s) = none := rfl
      refine ⟨[], ?_, Or.inl rfl⟩
      rw [List.filterMap_cons_none hdelivered, hover.delivered_eq_nil]
      exact hover.silent.trans ((SseConnection.sent_close s.1 s.2).trans (by simp [frames]))
    | moveAway => exact absurd rfl hp.1

/-! ### The whole stream -/

/-- **The wire log.** On any socket, a stream has written its preamble, the frames of the sends that
returned `true`, and at most one proper part of a frame whose write failed; or it never came alive
and has written a proper part of its preamble. From the call on that leaves it dead, a failed send
and a `close` among them, it is over. -/
theorem wireLog {M : Type} [FiniteMap M Bytes Bytes] (connection : Connection) (extraHeaders : M)
    (endpoint : Endpoint) (p : StreamProgram) (hp : p.CallsOnly SseOp.Keeps) :
    let stream := SseConnection.new connection extraHeaders endpoint
    let calls := p.calls sseCall stream
    let final := (p.run sseCall stream).2
    ((stream.1.alive = true ∧ ∃ part,
          final.2.sent = endpoint.sent ++ SseConnection.preamble extraHeaders ++
            frames (calls.filterMap deliveredEvent) ++ part ∧
          (part = [] ∨ ∃ c ∈ calls, FailedAfter c part)) ∨
        (Over stream calls final ∧ ∃ part,
          final.2.sent = endpoint.sent ++ part ∧
          part <+: SseConnection.preamble extraHeaders ∧
          part ≠ SseConnection.preamble extraHeaders)) ∧
      (∀ c ∈ calls, (c.1 = .close ∨ ∃ event data, c.1 = .send event data ∧
          (c.2.1.send event data c.2.2).1 = false) → (sseCall c.1 c.2).2.1.alive = false) ∧
      ∀ before c after, calls = before ++ c :: after →
        (sseCall c.1 c.2).2.1.alive = false → Over (sseCall c.1 c.2).2 after final := by
  intro stream calls final
  obtain ⟨accepted, endpoint', hnew, hprefix, htook⟩ :=
    SseConnection.new_spec connection extraHeaders endpoint
  have hstream : stream =
      (⟨connection, decide (accepted = SseConnection.preamble extraHeaders)⟩, endpoint') := hnew
  refine ⟨?_, fun c _ ↦ not_alive_of_ends, fun before c after hcalls hdead ↦ ?_⟩
  · by_cases hwhole : accepted = SseConnection.preamble extraHeaders
    · have halive : stream.1.alive = true := by
        rw [hstream]
        exact decide_eq_true hwhole
      have hbefore : stream.2.sent = endpoint.sent ++ SseConnection.preamble extraHeaders := by
        rw [hstream, ← hwhole]
        exact htook.sent
      obtain ⟨part, hsent, hpart⟩ := run_log hp halive
      exact Or.inl ⟨halive, part, hsent.trans (by rw [hbefore]), hpart⟩
    · have hdead : stream.1.alive = false := by
        rw [hstream]
        exact decide_eq_false hwhole
      have hover := over_of_not_alive p hdead
      refine Or.inr ⟨hover, accepted, hover.silent.trans ?_, hprefix, hwhole⟩
      rw [hstream]
      exact htook.sent
  · obtain ⟨rest, hrest, hrun⟩ := Interaction.exists_rest hcalls
    have hover := over_of_not_alive rest hdead
    rw [hrest, hrun] at hover
    exact hover

/-- A handler that sends an event, closes its stream and sends another one. -/
def closingProgram : StreamProgram :=
  .call (.send [] (ascii "a")) fun _ ↦ .call .close fun _ ↦ .call (.send [] (ascii "b")) fun _ ↦
    .done (.ok ())

/-- A socket that takes the preamble and four bytes more. -/
def shortEndpoint : Endpoint :=
  { incoming := [], ending := .eof, sendResults := [1000, 4, -1], sent := [], closed := false }

theorem wireLog_closingProgram :
    (closingProgram.run sseCall
      (SseConnection.new ⟨⟨some 3⟩⟩ (∅ : BytesMap) shortEndpoint)).2.2.sent =
        SseConnection.preamble (∅ : BytesMap) ++ ascii "data" := by
  have hlog := wireLog ⟨⟨some 3⟩⟩ (∅ : BytesMap) shortEndpoint closingProgram
    ⟨by simp [SseOp.Keeps], fun _ ↦ ⟨by simp [SseOp.Keeps], fun _ ↦ ⟨by simp [SseOp.Keeps],
      fun _ ↦ trivial⟩⟩⟩
  -- the first send fails, so the stream is over after it
  exact (hlog.2.2 [] _ _ rfl (by decide +kernel)).silent.trans (by decide +kernel)

end FalconHTTP
