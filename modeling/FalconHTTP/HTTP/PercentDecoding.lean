import FalconHTTP.HTTP.Parser

/-!
# Percent-decoding piece by piece

The decoder looks two bytes ahead of a `%`. So it decodes a text piece by piece wherever the text is
not cut inside an escape (`decode_append`), and it copies what has no escape and no plus
(`decode_eq_self`).

Together: a malformed escape is copied, wherever it stands, and the text around it is decoded as if
it were not there (`decode_pieces`).
-/

namespace FalconHTTP

namespace UrlDecoder

/-! ### One turn of the decoder -/

/-- A hex digit, in either case. -/
def IsHexDigit (c : UInt8) : Prop :=
  (hexDigitToValue c).isSome = true

instance (c : UInt8) : Decidable (IsHexDigit c) :=
  inferInstanceAs (Decidable (_ = _))

/-- The text after a percent sign starts with two hex digits. -/
def StartsPair (text : Bytes) : Prop :=
  ∃ high low, IsHexDigit high ∧ IsHexDigit low ∧ [high, low] <+: text

@[simp] theorem decode_nil : decode [] = [] := rfl

@[simp] theorem decode_plus (text : Bytes) : decode (43 :: text) = 32 :: decode text := by
  rw [decode.eq_def]
  exact if_pos rfl

theorem decode_literal {c : UInt8} (hplus : c ≠ 43) (hpercent : c ≠ 37) (text : Bytes) :
    decode (c :: text) = c :: decode text := by
  rw [decode.eq_def]
  exact (if_neg hplus).trans (if_neg hpercent)

/-- An escape is the byte that its digits denote. -/
theorem decode_escape {high low h l : UInt8} (hhigh : hexDigitToValue high = some h)
    (hlow : hexDigitToValue low = some l) (text : Bytes) :
    decode (37 :: high :: low :: text) = (h <<< 4 ||| l) :: decode text := by
  rw [decode, if_neg (by decide), if_pos rfl]
  simp only [hhigh, hlow]

/-- A percent sign without two hex digits after it is literal. -/
theorem decode_percent {text : Bytes} (h : ¬ StartsPair text) :
    decode (37 :: text) = 37 :: decode text := by
  rw [decode.eq_def]
  simp only [show (37 : UInt8) ≠ 43 by decide, if_false, if_true]
  split
  · rename_i high low text
    split
    · rename_i hhigh hlow
      have hpair : IsHexDigit high ∧ IsHexDigit low := by
        rw [IsHexDigit, IsHexDigit, hhigh, hlow]
        exact ⟨rfl, rfl⟩
      exact absurd ⟨high, low, hpair.1, hpair.2, List.prefix_append [high, low] text⟩ h
    · rfl
  · rfl

/-! ### Cutting a text -/

/-- The text stops inside what could still become an escape: it ends with a percent sign, or with a
percent sign and one hex digit. -/
def EndsInEscape (text : Bytes) : Prop :=
  [37] <:+ text ∨ ∃ c ∈ text, IsHexDigit c ∧ [37, c] <:+ text

instance (text : Bytes) : Decidable (EndsInEscape text) :=
  inferInstanceAs (Decidable (_ ∨ _))

/-- A text that ends with one that stops inside an escape does so too. -/
theorem EndsInEscape.append {text : Bytes} (h : EndsInEscape text) (before : Bytes) :
    EndsInEscape (before ++ text) := by
  have hsuffix : text <:+ before ++ text := List.suffix_append before text
  rcases h with h | ⟨c, hmem, hc, h⟩
  · exact Or.inl (h.trans hsuffix)
  · exact Or.inr ⟨c, hsuffix.mem hmem, hc, h.trans hsuffix⟩

/-- More text does not make an escape of the percent sign that starts a text, if that text does not
stop inside an escape. -/
theorem not_startsPair_append {text : Bytes} (hcut : ¬ EndsInEscape (37 :: text))
    (h : ¬ StartsPair text) (rest : Bytes) : ¬ StartsPair (text ++ rest) := by
  rintro ⟨high, low, hhigh, hlow, hprefix⟩
  rcases text with - | ⟨c, - | ⟨d, text⟩⟩
  · exact hcut (Or.inl (List.suffix_refl _))
  · obtain ⟨rfl, -⟩ := List.cons_prefix_cons.1 hprefix
    exact hcut (Or.inr ⟨high, List.mem_cons_of_mem _ List.mem_cons_self, hhigh,
      List.suffix_refl _⟩)
  · obtain ⟨rfl, htail⟩ := List.cons_prefix_cons.1 hprefix
    obtain ⟨rfl, -⟩ := List.cons_prefix_cons.1 htail
    exact h ⟨high, low, hhigh, hlow, List.prefix_append [high, low] text⟩

/-- **A text is decoded piece by piece** when it is not cut inside an escape. -/
theorem decode_append {u : Bytes} (hcut : ¬ EndsInEscape u) (v : Bytes) :
    decode (u ++ v) = decode u ++ decode v := by
  induction u using decode.induct with
  | case1 => rfl
  | case2 text ih =>
    rw [List.cons_append, decode_plus, decode_plus, ih fun h ↦ hcut (h.append [43])]
    rfl
  | case3 high low text h l hlow hhigh _ ih =>
    show decode (37 :: high :: low :: (text ++ v)) = _
    rw [decode_escape hhigh hlow, decode_escape hhigh hlow,
      ih fun h ↦ hcut (h.append [37, high, low])]
    rfl
  | case4 high low text hpair _ ih =>
    have hnot : ¬ StartsPair (high :: low :: text) := by
      rintro ⟨c, d, hc, hd, hprefix⟩
      obtain ⟨rfl, htail⟩ := List.cons_prefix_cons.1 hprefix
      obtain ⟨rfl, -⟩ := List.cons_prefix_cons.1 htail
      obtain ⟨h, hh⟩ := Option.isSome_iff_exists.1 hc
      obtain ⟨l, hl⟩ := Option.isSome_iff_exists.1 hd
      exact hpair h l hh hl
    rw [List.cons_append, decode_percent hnot, decode_percent (not_startsPair_append hcut hnot v),
      ih fun h ↦ hcut (h.append [37])]
    rfl
  | case5 text hshort _ ih =>
    have hnot : ¬ StartsPair text := by
      rintro ⟨high, low, -, -, rest, rfl⟩
      exact hshort high low rest rfl
    rw [List.cons_append, decode_percent hnot, decode_percent (not_startsPair_append hcut hnot v),
      ih fun h ↦ hcut (h.append [37])]
    rfl
  | case6 c text hplus hpercent ih =>
    rw [List.cons_append, decode_literal hplus hpercent, decode_literal hplus hpercent,
      ih fun h ↦ hcut (h.append [c])]
    rfl

/-! ### Text that is copied -/

/-- The text has no plus, and no percent sign with two hex digits after it. -/
structure Verbatim (text : Bytes) : Prop where
  /-- No plus. -/
  plus_notMem : 43 ∉ text
  /-- No escape. -/
  no_escape : ∀ high ∈ text, ∀ low ∈ text, IsHexDigit high → IsHexDigit low →
    ¬ [37, high, low] <:+: text

theorem Verbatim.of_cons {c : UInt8} {text : Bytes} (h : Verbatim (c :: text)) : Verbatim text where
  plus_notMem hmem := h.plus_notMem (List.mem_cons_of_mem c hmem)
  no_escape high hmemHigh low hmemLow hhigh hlow hoccurs :=
    h.no_escape high (List.mem_cons_of_mem c hmemHigh) low (List.mem_cons_of_mem c hmemLow) hhigh
      hlow (hoccurs.trans (List.suffix_cons c text).isInfix)

/-- The first percent sign of a text that is copied does not start an escape. -/
theorem Verbatim.not_startsPair {text : Bytes} (h : Verbatim (37 :: text)) : ¬ StartsPair text := by
  rintro ⟨high, low, hhigh, hlow, hprefix⟩
  have hescape : [37, high, low] <:+: 37 :: text :=
    (List.cons_prefix_cons.2 ⟨rfl, hprefix⟩ : [37, high, low] <+: 37 :: text).isInfix
  exact h.no_escape high (hescape.mem (by simp)) low (hescape.mem (by simp)) hhigh hlow hescape

/-- **Text without an escape and without a plus is copied.** -/
theorem decode_eq_self {text : Bytes} (h : Verbatim text) : decode text = text := by
  induction text with
  | nil => rfl
  | cons c text ih =>
    have hplus : c ≠ 43 := by
      rintro rfl
      exact h.plus_notMem List.mem_cons_self
    rcases eq_or_ne c 37 with rfl | hpercent
    · rw [decode_percent h.not_startsPair, ih h.of_cons]
    · rw [decode_literal hplus hpercent, ih h.of_cons]

/-- **Percent-decoding is compositional.** A text that is not cut inside an escape is decoded piece
by piece; text without a plus and without a percent sign before two hex digits is copied; and such
text between two others, when neither cut is inside an escape, does not affect how they are
decoded. -/
theorem decode_pieces :
    (∀ u v : Bytes, ¬ EndsInEscape u → decode (u ++ v) = decode u ++ decode v) ∧
      (∀ text : Bytes, Verbatim text → decode text = text) ∧
      ∀ u text v : Bytes, ¬ EndsInEscape u → Verbatim text → ¬ EndsInEscape text →
        decode (u ++ text ++ v) = decode u ++ text ++ decode v := by
  refine ⟨fun u v hu ↦ decode_append hu v, fun text ↦ decode_eq_self, ?_⟩
  intro u text v hu htext hcut
  rw [List.append_assoc, decode_append hu, decode_append hcut, decode_eq_self htext,
    List.append_assoc]

/-- A malformed escape between an escape and a truncated one. -/
theorem decode_pieces_malformed :
    decode (ascii "a%20" ++ ascii "%4%G" ++ ascii "+%2") =
      decode (ascii "a%20") ++ ascii "%4%G" ++ decode (ascii "+%2") :=
  decode_pieces.2.2 (ascii "a%20") (ascii "%4%G") (ascii "+%2") (by decide +kernel)
    ⟨by decide +kernel, by decide +kernel⟩ (by decide +kernel)

end UrlDecoder

end FalconHTTP
