import FalconHTTP.Client.ResponseRoundTrip

/-!
# Response splitting

What a reader that knows nothing of the handler's intentions makes of a serialized response: it
looks for the first blank line, takes what precedes it line by line, and what follows it as the
body. The serializer writes names and values as they are, so the reader sees the lines that were
meant, and the body, exactly when no header that is written carries a CR LF
(`serialize_readsAs_iff`).

A CR or an LF alone does no harm to this reader, and the two headers that the serializer computes
itself are safe whatever the handler stored for them.
-/

namespace FalconHTTP

open Occurrence Lines FiniteMap HttpClient

variable {M : Type} [FiniteMap M Bytes Bytes]

/-- **Which responses cannot be split**: the serialized response reads as its status line, one line
for each stored header that is written, the two computed lines, and its body, exactly when no header
that is written has a CR LF in its name or in its value. -/
theorem serialize_readsAs_iff (response : HttpResponse M) :
    ReadsAs 13 10 (HttpSerializer.serialize response)
        (statusLine response.status :: (responseEntries response).map headerLine) response.body ↔
      ∀ name value, find? response.headers.map name = some value → isComputed name = false →
        indexOf? crlf name = none ∧ indexOf? crlf value = none := by
  have hne : ∀ l ∈ (responseEntries response).map headerLine, l ≠ [] := by
    intro l hl
    obtain ⟨e, -, rfl⟩ := List.mem_map.1 hl
    exact headerLine_ne_nil e
  rw [serialize_eq, readsAs_iff cr_ne_lf hne, List.forall_mem_cons, List.forall_mem_map]
  constructor
  · rintro ⟨-, hlines⟩ name value hfind hkept
    exact (clean_headerLine_iff (name, value)).1
      (hlines (name, value) (mem_responseEntries.2 (Or.inl ⟨hfind, hkept⟩)))
  · intro hsafe
    refine ⟨clean_of_notMem (cr_notMem_statusLine response.status), fun e he ↦ ?_⟩
    rcases mem_responseEntries.1 he with ⟨hfind, hkept⟩ | rfl | rfl
    · exact (clean_headerLine_iff e).2 (hsafe e.1 e.2 hfind hkept)
    · exact (plain_contentLength response.body.length).clean
    · exact plain_connection.clean

/-- A response that redirects to a location taken from a decoded query parameter. -/
def redirectTo (parameter : Bytes) : HttpResponse BytesMap :=
  ((HttpResponse.new .found).setHeader (ascii "Location") (UrlDecoder.decode parameter)).setBody
    (ascii "moved")

/-- A parameter that decodes to the end of the head and a body of its own. -/
def splittingParameter : Bytes :=
  ascii "/%0d%0a%0d%0aforged"

/-- The response that is written is not the one that was meant. -/
theorem redirectTo_splittingParameter :
    ¬ ReadsAs 13 10 (HttpSerializer.serialize (redirectTo splittingParameter))
      (statusLine .found :: (responseEntries (redirectTo splittingParameter)).map headerLine)
      (redirectTo splittingParameter).body := by
  rintro ⟨i, hfind, hbody, -⟩
  have hblank : indexOf? blankLine (HttpSerializer.serialize (redirectTo splittingParameter)) =
      some 31 := by decide +kernel
  obtain rfl := Option.some.inj (hfind.symm.trans hblank)
  exact absurd hbody (by decide +kernel)

end FalconHTTP
