import FalconHTTP.HTTP.Message

/-!
# Headers as a map from names in any case

Requests and responses store a header under its lowercase name. After any sequence of `setHeader`
calls they answer as the map does in which the last call with a name wins, whatever the case of the
name in the call and in the question (`LastWriteWins`, `headers_law`).

`EqIgnoringCase` says letter by letter what is ignored; `toLowerAscii_eq_iff` is the link to the
normal form that the code compares.
-/

namespace FalconHTTP

open FiniteMap

variable {M : Type} [FiniteMap M Bytes Bytes]

/-! ### Equality of names -/

/-- Two bytes are equal, or one is a capital letter and the other its small letter. -/
def SameLetter (c d : UInt8) : Prop :=
  c = d ∨ (65 ≤ c.toNat ∧ c.toNat ≤ 90 ∧ d.toNat = c.toNat + 32) ∨
    (65 ≤ d.toNat ∧ d.toNat ≤ 90 ∧ c.toNat = d.toNat + 32)

/-- Two names are equal when the case of ASCII letters is ignored. -/
def EqIgnoringCase (a b : Bytes) : Prop :=
  List.Forall₂ SameLetter a b

/-- The value of a byte in lowercase. -/
theorem toNat_toLower (c : UInt8) :
    (toLower c).toNat = if 65 ≤ c.toNat ∧ c.toNat ≤ 90 then c.toNat + 32 else c.toNat := by
  rw [toLower]
  split
  · rw [UInt8.toNat_add, Nat.mod_eq_of_lt]
    · rfl
    · show c.toNat + 32 < 256
      omega
  · rfl

theorem toLower_eq_iff {c d : UInt8} : toLower c = toLower d ↔ SameLetter c d := by
  rw [SameLetter, ← UInt8.toNat_inj, ← UInt8.toNat_inj, toNat_toLower, toNat_toLower]
  split
  · split
    · omega
    · omega
  · split
    · omega
    · omega

/-- **Names are equal ignoring case when their lowercase forms are equal.** -/
theorem toLowerAscii_eq_iff {a b : Bytes} :
    toLowerAscii a = toLowerAscii b ↔ EqIgnoringCase a b := by
  induction a generalizing b with
  | nil =>
    cases b with
    | nil => exact iff_of_true rfl .nil
    | cons d b => exact iff_of_false (by simp [toLowerAscii]) (by simp [EqIgnoringCase])
  | cons c a ih =>
    cases b with
    | nil => exact iff_of_false (by simp [toLowerAscii]) (by simp [EqIgnoringCase])
    | cons d b =>
      rw [EqIgnoringCase, List.forall₂_cons, ← toLower_eq_iff]
      show toLower c :: toLowerAscii a = toLower d :: toLowerAscii b ↔ _
      rw [List.cons.injEq, ih, EqIgnoringCase]

/-! ### The last call with a name -/

/-- The value that a name was last set to, ignoring case. -/
def lastValue (set : List (Bytes × Bytes)) (name : Bytes) : Option Bytes :=
  (set.reverse.find? fun e ↦ toLowerAscii name = toLowerAscii e.1).map Prod.snd

/-- A name that was set has a last value. -/
theorem exists_lastValue {set : List (Bytes × Bytes)} {e : Bytes × Bytes} (he : e ∈ set) :
    ∃ value, lastValue set e.1 = some value := by
  refine Option.isSome_iff_exists.1 ?_
  rw [lastValue, Option.isSome_map, List.find?_isSome]
  exact ⟨e, List.mem_reverse.2 he, by simp⟩

/-- The case of the name does not matter. -/
theorem lastValue_congr {set : List (Bytes × Bytes)} {a b : Bytes}
    (h : toLowerAscii a = toLowerAscii b) : lastValue set a = lastValue set b := by
  rw [lastValue, h, lastValue]

/-- A last value was set under its name. -/
theorem mem_of_lastValue {set : List (Bytes × Bytes)} {name value : Bytes}
    (h : lastValue set name = some value) :
    ∃ e ∈ set, toLowerAscii e.1 = toLowerAscii name ∧ e.2 = value := by
  obtain ⟨e, hfind, rfl⟩ := Option.map_eq_some_iff.1 h
  have hname : toLowerAscii name = toLowerAscii e.1 := by simpa using List.find?_some hfind
  exact ⟨e, List.mem_reverse.1 (List.mem_of_find?_eq_some hfind), hname.symm, rfl⟩

/-- A call that no later one repeats the name of gives the last value. -/
theorem lastValue_append_cons {before after : List (Bytes × Bytes)} {e : Bytes × Bytes}
    {name : Bytes} (he : toLowerAscii name = toLowerAscii e.1)
    (hafter : ∀ d ∈ after, toLowerAscii name ≠ toLowerAscii d.1) :
    lastValue (before ++ e :: after) name = some e.2 := by
  have hnone : after.reverse.find? (fun d ↦ toLowerAscii name = toLowerAscii d.1) = none :=
    List.find?_eq_none.2 fun d hd ↦ by simpa using hafter d (List.mem_reverse.1 hd)
  rw [lastValue, List.reverse_append, List.reverse_cons, List.append_assoc, List.find?_append,
    hnone, Option.none_or, List.singleton_append, List.find?_cons_of_pos (by simpa using he)]
  rfl

namespace HeaderMap

/-- A lookup after a sequence of calls. -/
theorem find?_setHeaders (headers : HeaderMap M) (set : List (Bytes × Bytes)) (name : Bytes) :
    (headers.setHeaders set).find? name = (lastValue set name).or (headers.find? name) := by
  have hset := find?_put_item (M := M) (fun e : Bytes × Bytes ↦ toLowerAscii e.1) Prod.snd
  rw [find?, map_setHeaders, find?_foldl hset, find?, lastValue]

/-- A lookup after a sequence of calls on a map without headers. -/
theorem find?_empty_setHeaders (set : List (Bytes × Bytes)) (name : Bytes) :
    (HeaderMap.empty.setHeaders set : HeaderMap M).find? name = lastValue set name := by
  rw [find?_setHeaders, find?_empty, Option.or_none]

/-- The stored entries are the lookups of lowercase names. -/
theorem mem_entries_iff {headers : HeaderMap M} {name value : Bytes} :
    (name, value) ∈ entries headers.map ↔
      toLowerAscii name = name ∧ headers.find? name = some value := by
  rw [mem_entries]
  constructor
  · intro h
    have hlower := headers.lower h
    exact ⟨hlower, by rw [find?, hlower]; exact h⟩
  · rintro ⟨hlower, h⟩
    rwa [find?, hlower] at h

/-- No two stored names are equal ignoring case. -/
theorem pairwise_entries (headers : HeaderMap M) :
    (entries headers.map).Pairwise fun d e ↦ ¬ EqIgnoringCase d.1 e.1 := by
  have hkeys : (entries headers.map).Pairwise fun d e ↦ d.1 ≠ e.1 :=
    List.pairwise_map.1 (nodup_keys headers.map)
  refine hkeys.imp_of_mem fun {d e} hd he hne heq ↦ hne ?_
  rw [← (mem_entries_iff.1 hd).1, ← (mem_entries_iff.1 he).1]
  exact toLowerAscii_eq_iff.2 heq

end HeaderMap

/-! ### The law -/

/-- What a message answers about its headers, and stores, after a sequence of calls: the last call
with a name wins, ignoring case, and each name is stored once, in lowercase. -/
structure LastWriteWins (calls : List (Bytes × Bytes)) (hasHeader : Bytes → Bool)
    (header : Bytes → Bytes) (stored : List (Bytes × Bytes)) : Prop where
  /-- A name is present when some call used it. -/
  hasHeader_iff : ∀ name, hasHeader name = true ↔ ∃ call ∈ calls, EqIgnoringCase call.1 name
  /-- Its value is that of the last call that did. -/
  header_eq : ∀ name before call after, calls = before ++ call :: after →
    EqIgnoringCase call.1 name → (∀ c ∈ after, ¬ EqIgnoringCase c.1 name) → header name = call.2
  /-- A stored name is its own lowercase form. -/
  lower : ∀ entry ∈ stored, toLowerAscii entry.1 = entry.1
  /-- No two stored names are equal. -/
  distinct : stored.Pairwise fun d e ↦ ¬ EqIgnoringCase d.1 e.1

/-- The header map that both messages have obeys the law. -/
theorem HeaderMap.lastWriteWins {headers : HeaderMap M} {calls : List (Bytes × Bytes)}
    (h : headers = HeaderMap.empty.setHeaders calls) :
    LastWriteWins calls headers.hasHeader headers.header (entries headers.map) where
  hasHeader_iff name := by
    rw [h, hasHeader, find?_empty_setHeaders]
    constructor
    · intro hsome
      obtain ⟨value, hvalue⟩ := Option.isSome_iff_exists.1 hsome
      obtain ⟨call, hcall, hname, -⟩ := mem_of_lastValue hvalue
      exact ⟨call, hcall, toLowerAscii_eq_iff.1 hname⟩
    · rintro ⟨call, hcall, hname⟩
      obtain ⟨value, hvalue⟩ := exists_lastValue hcall
      rw [← lastValue_congr (toLowerAscii_eq_iff.2 hname), hvalue]
      rfl
  header_eq name before call after hcalls hname hafter := by
    rw [h, header, find?_empty_setHeaders, hcalls,
      lastValue_append_cons (toLowerAscii_eq_iff.2 hname).symm
        fun c hc heq ↦ hafter c hc (toLowerAscii_eq_iff.1 heq.symm)]
    rfl
  lower entry hentry := (mem_entries_iff.1 hentry).1
  distinct := headers.pairwise_entries

/-- The case of the name in a call does not matter. -/
theorem HeaderMap.setHeader_congr (headers : HeaderMap M) {a b : Bytes} (h : EqIgnoringCase a b)
    (value : Bytes) : headers.setHeader a value = headers.setHeader b value := by
  simp only [setHeader, toLowerAscii_eq_iff.2 h]

/-- Two sequences of calls that differ in the case of names only. -/
def SameCalls (calls calls' : List (Bytes × Bytes)) : Prop :=
  List.Forall₂ (fun call call' ↦ EqIgnoringCase call.1 call'.1 ∧ call.2 = call'.2) calls calls'

/-- A request after a sequence of `setHeader` calls. -/
def HttpRequest.setHeaders (request : HttpRequest M) (calls : List (Bytes × Bytes)) :
    HttpRequest M :=
  calls.foldl (fun request call ↦ request.setHeader call.1 call.2) request

/-- A response after a sequence of `setHeader` calls. -/
def HttpResponse.setHeaders (response : HttpResponse M) (calls : List (Bytes × Bytes)) :
    HttpResponse M :=
  calls.foldl (fun response call ↦ response.setHeader call.1 call.2) response

/-- The calls change the header map of a request, and nothing else. -/
theorem HttpRequest.setHeaders_eq (request : HttpRequest M) (calls : List (Bytes × Bytes)) :
    request.setHeaders calls = { request with headers := request.headers.setHeaders calls } := by
  induction calls generalizing request with
  | nil => rfl
  | cons call calls ih => exact ih (request.setHeader call.1 call.2)

/-- The calls change the header map of a response, and nothing else. -/
theorem HttpResponse.setHeaders_eq (response : HttpResponse M) (calls : List (Bytes × Bytes)) :
    response.setHeaders calls = { response with headers := response.headers.setHeaders calls } := by
  induction calls generalizing response with
  | nil => rfl
  | cons call calls ih => exact ih (response.setHeader call.1 call.2)

/-- Calls that differ in the case of names leave the same header map. -/
theorem SameCalls.setHeaders_eq {calls calls' : List (Bytes × Bytes)} (h : SameCalls calls calls')
    (headers : HeaderMap M) : headers.setHeaders calls = headers.setHeaders calls' := by
  induction h generalizing headers with
  | nil => rfl
  | @cons call call' _ _ hcall hrest ih =>
    have hset : headers.setHeader call.1 call.2 = headers.setHeader call'.1 call'.2 := by
      rw [headers.setHeader_congr hcall.1, hcall.2]
    exact (ih _).trans (congrArg (HeaderMap.setHeaders · _) hset)

/-- **Headers are a case-insensitive map in which the last write wins.** After every sequence of
`setHeader` calls, a new request and a new response answer by the law, and sequences that differ in
the case of names leave the same request, and the same response, whatever it was before. -/
theorem headers_law :
    (∀ calls : List (Bytes × Bytes),
      let request := (HttpRequest.new : HttpRequest M).setHeaders calls
      LastWriteWins calls request.hasHeader request.header (entries request.headers.map)) ∧
      (∀ (status : HttpStatus) (calls : List (Bytes × Bytes)),
        let response := (HttpResponse.new status : HttpResponse M).setHeaders calls
        LastWriteWins calls response.hasHeader response.header (entries response.headers.map)) ∧
      ∀ calls calls' : List (Bytes × Bytes), SameCalls calls calls' →
        (∀ request : HttpRequest M, request.setHeaders calls = request.setHeaders calls') ∧
          ∀ response : HttpResponse M, response.setHeaders calls = response.setHeaders calls' := by
  refine ⟨fun calls ↦ ?_, fun status calls ↦ ?_, fun calls calls' hsame ↦ ⟨?_, ?_⟩⟩
  · exact HeaderMap.lastWriteWins (congrArg HttpRequest.headers (HttpRequest.setHeaders_eq _ calls))
  · exact HeaderMap.lastWriteWins
      (congrArg HttpResponse.headers (HttpResponse.setHeaders_eq _ calls))
  · intro request
    rw [request.setHeaders_eq, request.setHeaders_eq, hsame.setHeaders_eq]
  · intro response
    rw [response.setHeaders_eq, response.setHeaders_eq, hsame.setHeaders_eq]

/-- Two spellings of a name, on a response. -/
theorem headers_law_spellings :
    (HttpResponse.new .ok : HttpResponse BytesMap).setHeaders
        [(ascii "X-Id", ascii "1"), (ascii "x-ID", ascii "2")] =
      (HttpResponse.new .ok).setHeaders [(ascii "x-id", ascii "1"), (ascii "x-id", ascii "2")] := by
  refine (headers_law.2.2 _ _ ?_).2 _
  have hfirst : EqIgnoringCase (ascii "X-Id") (ascii "x-id") := toLowerAscii_eq_iff.1 rfl
  have hsecond : EqIgnoringCase (ascii "x-ID") (ascii "x-id") := toLowerAscii_eq_iff.1 rfl
  exact .cons ⟨hfirst, rfl⟩ (.cons ⟨hsecond, rfl⟩ .nil)

end FalconHTTP
