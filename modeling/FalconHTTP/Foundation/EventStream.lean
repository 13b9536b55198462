import Mathlib.Data.List.Infix
import FalconHTTP.Foundation.Decimal

/-!
# Reading event streams

An event stream is read line by line. A line ends at CR LF, at LF or at CR; a line that is not ended
yet has not been read. A line `name: value` is a field, a line without a colon is a field with an
empty value, and a line that starts with a colon is a comment, which is a field with an empty name
here. The empty line dispatches the event that the fields before it have built up, unless they built
up no data.

* `lines` splits a text, and `lines_append_lf`, `lines_prefix` say how the lines of a longer text
  extend those of a shorter one;
* `Reader.readLine` is what one line does, and `read` folds it over the lines of a text;
* `foldl_readLine_data` is the rule for `data` fields, `foldl_readLine_of_harmless` the rule for
  lines that can neither dispatch nor touch the type and the identifier.

The reader works on bytes: none of its decisions depends on how they decode.
-/

namespace EventStream

/-! ### Lines -/

/-- The lines that end in a text, where `line` is what is already there of the first one, and
`afterCr` says that a CR has just ended the line before. -/
def linesFrom : List UInt8 → Bool → List UInt8 → List (List UInt8)
  | _, _, [] => []
  | line, afterCr, c :: text =>
    if c = 13 then line :: linesFrom [] true text
    else if c = 10 then
      -- the LF of a CR LF ends nothing
      if afterCr then linesFrom line false text else line :: linesFrom [] false text
    else linesFrom (line ++ [c]) false text

/-- The lines that end in a text. -/
def lines (text : List UInt8) : List (List UInt8) :=
  linesFrom [] false text

variable {line text s t : List UInt8} {afterCr : Bool}

/-- A byte that ends no line. -/
theorem linesFrom_cons {c : UInt8} (hcr : c ≠ 13) (hlf : c ≠ 10) :
    linesFrom line afterCr (c :: text) = linesFrom (line ++ [c]) false text := by
  rw [linesFrom, if_neg hcr, if_neg hlf]

/-- Bytes that end no line. -/
theorem linesFrom_append (hcr : 13 ∉ s) (hlf : 10 ∉ s) :
    linesFrom line false (s ++ t) = linesFrom (line ++ s) false t := by
  induction s generalizing line with
  | nil => rw [List.nil_append, List.append_nil]
  | cons c s ih =>
    rw [List.mem_cons, not_or] at hcr hlf
    rw [List.cons_append, linesFrom_cons (Ne.symm hcr.1) (Ne.symm hlf.1), ih hcr.2 hlf.2,
      List.append_assoc]
    rfl

/-- A text without line ends, and the LF after it, are one line. -/
theorem lines_of_notMem (hcr : 13 ∉ s) (hlf : 10 ∉ s) : lines (s ++ [10]) = [s] := by
  rw [lines, linesFrom_append hcr hlf]
  rfl

/-- What precedes a text belongs to its first line. -/
theorem linesFrom_prepend (before : List UInt8) :
    linesFrom (before ++ line) afterCr text =
      (linesFrom line afterCr text).modifyHead (before ++ ·) := by
  induction text generalizing line afterCr with
  | nil => rfl
  | cons c text ih =>
    rw [linesFrom, linesFrom]
    split
    · rfl
    split
    · split
      · exact ih
      · rfl
    · rw [List.append_assoc]
      exact ih

/-- A text ended by LF has a line. -/
theorem lines_lf_ne_nil (text : List UInt8) : lines (text ++ [10]) ≠ [] := by
  have hfrom : ∀ (line : List UInt8) (afterCr : Bool), text ≠ [] ∨ afterCr = false →
      linesFrom line afterCr (text ++ [10]) ≠ [] := by
    induction text with
    | nil =>
      rintro line afterCr (hne | rfl)
      · exact absurd rfl hne
      · simp [linesFrom]
    | cons c text ih =>
      rintro line afterCr -
      rw [List.cons_append, linesFrom]
      split
      · simp
      split
      · split
        · exact ih line false (Or.inr rfl)
        · simp
      · exact ih _ false (Or.inr rfl)
  exact hfrom [] false (Or.inr rfl)

/-- **An LF ends a line for good**: the lines after it are those of the text after it. -/
theorem linesFrom_append_lf (hcr : afterCr = true → line = []) :
    linesFrom line afterCr (s ++ 10 :: t) =
      linesFrom line afterCr (s ++ [10]) ++ lines t := by
  induction s generalizing line afterCr with
  | nil =>
    cases afterCr with
    | true =>
      obtain rfl := hcr rfl
      rfl
    | false => rfl
  | cons c s ih =>
    rw [List.cons_append, List.cons_append, linesFrom, linesFrom]
    split
    · rw [List.cons_append, ih fun _ ↦ rfl]
    split
    · split
      · exact ih (by simp)
      · rw [List.cons_append, ih (by simp)]
    · exact ih (by simp)

theorem lines_append_lf : lines (s ++ 10 :: t) = lines (s ++ [10]) ++ lines t :=
  linesFrom_append_lf (by simp)

/-- **Lines are read for good**: the lines of a longer text start with those of a shorter one. -/
theorem linesFrom_prefix : linesFrom line afterCr s <+: linesFrom line afterCr (s ++ t) := by
  induction s generalizing line afterCr with
  | nil => exact List.nil_prefix
  | cons c s ih =>
    rw [List.cons_append, linesFrom, linesFrom]
    split
    · exact List.cons_prefix_cons.2 ⟨rfl, ih⟩
    split
    · split
      · exact ih
      · exact List.cons_prefix_cons.2 ⟨rfl, ih⟩
    · exact ih

theorem lines_prefix : lines s <+: lines (s ++ t) :=
  linesFrom_prefix

/-- No line contains a line end. -/
theorem notMem_of_mem_linesFrom (hline : 13 ∉ line ∧ 10 ∉ line) {l : List UInt8}
    (hl : l ∈ linesFrom line afterCr text) : 13 ∉ l ∧ 10 ∉ l := by
  induction text generalizing line afterCr with
  | nil => exact absurd hl List.not_mem_nil
  | cons c text ih =>
    rw [linesFrom] at hl
    split at hl
    · rcases List.mem_cons.1 hl with rfl | hl'
      · exact hline
      · exact ih (by simp) hl'
    rename_i hcr
    split at hl
    · split at hl
      · exact ih hline hl
      · rcases List.mem_cons.1 hl with rfl | hl'
        · exact hline
        · exact ih (by simp) hl'
    · rename_i hlf
      refine ih ⟨?_, ?_⟩ hl
      · simpa [hline.1] using Ne.symm hcr
      · simpa [hline.2] using Ne.symm hlf

theorem notMem_of_mem_lines {l : List UInt8} (hl : l ∈ lines text) : 13 ∉ l ∧ 10 ∉ l :=
  notMem_of_mem_linesFrom (by simp) hl

/-! ### Fields -/

/-- The bytes of an ASCII word. -/
def word (s : String) : List UInt8 :=
  s.toList.map fun c ↦ UInt8.ofNat c.toNat

/-- What a line says. -/
inductive Field
  /-- A line of the event's data. -/
  | data
  /-- The event's type. -/
  | event
  /-- The event's identifier. -/
  | id
  /-- The time to wait before reconnecting. -/
  | retry
  /-- Anything else, which is ignored. -/
  | other
  deriving DecidableEq

/-- The name of a line: what precedes its first colon. -/
def nameOf (line : List UInt8) : List UInt8 :=
  line.takeWhile (· != 58)

/-- The value of a line: what follows its first colon, without one leading space. -/
def valueOf (line : List UInt8) : List UInt8 :=
  match (line.dropWhile (· != 58)).drop 1 with
  | 32 :: value => value
  | value => value

/-- The field a line sets. -/
def fieldOf (line : List UInt8) : Field :=
  if nameOf line = word "data" then .data
  else if nameOf line = word "event" then .event
  else if nameOf line = word "id" then .id
  else if nameOf line = word "retry" then .retry
  else .other

private theorem ne_colon {name : List UInt8} (hname : 58 ∉ name) :
    ∀ c ∈ name, (c != 58) = true :=
  fun _ hc ↦ by simpa using ne_of_mem_of_not_mem hc hname

/-- A line `name: value` reads back its two halves. -/
theorem nameOf_append {name value : List UInt8} (hname : 58 ∉ name) :
    nameOf (name ++ 58 :: 32 :: value) = name := by
  rw [nameOf, List.takeWhile_append_of_pos (ne_colon hname)]
  simp

theorem valueOf_append {name value : List UInt8} (hname : 58 ∉ name) :
    valueOf (name ++ 58 :: 32 :: value) = value := by
  rw [valueOf, List.dropWhile_append_of_pos (ne_colon hname)]
  simp

/-- The value is a part of the line. -/
theorem valueOf_subset (line : List UInt8) : valueOf line ⊆ line := by
  have hdrop : (line.dropWhile (· != 58)).drop 1 ⊆ line :=
    List.Subset.trans (List.drop_subset _ _) (List.dropWhile_sublist _).subset
  rw [valueOf]
  split
  · rename_i value hvalue
    rw [hvalue] at hdrop
    exact List.Subset.trans (List.subset_cons_self _ _) hdrop
  · exact hdrop

/-! ### The reader -/

/-- A dispatched event. -/
structure Event where
  /-- Its type. -/
  type : List UInt8
  /-- Its data. -/
  data : List UInt8
  /-- The identifier in force when it was dispatched. -/
  lastEventId : List UInt8
  deriving DecidableEq

/-- The type of an event without one. -/
def defaultType : List UInt8 :=
  word "message"

/-- A reader between two lines. -/
structure Reader where
  /-- The type built up for the next event. -/
  eventType : List UInt8
  /-- The data built up for the next event. -/
  data : List UInt8
  /-- The identifier in force. -/
  lastEventId : List UInt8
  /-- The reconnection time, once one was set. -/
  reconnectionTime : Option ℕ
  /-- The events dispatched so far. -/
  dispatched : List Event

namespace Reader

/-- Before the first line. -/
def start : Reader where
  eventType := []
  data := []
  lastEventId := []
  reconnectionTime := none
  dispatched := []

/-- The data of an event is what was built up, without the LF at its end. -/
def eventData (r : Reader) : List UInt8 :=
  if r.data.getLast? = some 10 then r.data.dropLast else r.data

/-- What the empty line does. -/
def dispatch (r : Reader) : Reader :=
  if r.data = [] then { r with eventType := [] }
  else
    { r with
      eventType := []
      data := []
      dispatched := r.dispatched ++
        [⟨if r.eventType = [] then defaultType else r.eventType, r.eventData, r.lastEventId⟩] }

/-- What a line does. -/
def readLine (r : Reader) (line : List UInt8) : Reader :=
  if line = [] then r.dispatch
  else
    match fieldOf line with
    | .data => { r with data := r.data ++ valueOf line ++ [10] }
    | .event => { r with eventType := valueOf line }
    | .id => if 0 ∈ valueOf line then r else { r with lastEventId := valueOf line }
    | .retry =>
      if valueOf line ≠ [] ∧ (valueOf line).all Decimal.isDigit then
        { r with reconnectionTime := some (Decimal.value (valueOf line)) }
      else r
    | .other => r

end Reader

/-- Read a text from the start. -/
def read (text : List UInt8) : Reader :=
  (lines text).foldl Reader.readLine .start

/-- A line that neither dispatches nor sets anything but data. -/
def Harmless (line : List UInt8) : Prop :=
  line ≠ [] ∧ (fieldOf line = .data ∨ fieldOf line = .other)

instance (line : List UInt8) : Decidable (Harmless line) :=
  inferInstanceAs (Decidable (_ ∧ _))

namespace Reader

variable {r : Reader} {ls : List (List UInt8)}

/-- Every line keeps what has been dispatched. -/
theorem dispatched_prefix_readLine (r : Reader) (line : List UInt8) :
    r.dispatched <+: (r.readLine line).dispatched := by
  rw [readLine]
  split
  · rw [dispatch]
    split
    · exact List.prefix_rfl
    · exact List.prefix_append _ _
  · split
    · exact List.prefix_rfl
    · exact List.prefix_rfl
    · split <;> exact List.prefix_rfl
    · split <;> exact List.prefix_rfl
    · exact List.prefix_rfl

theorem dispatched_prefix_foldl (r : Reader) (ls : List (List UInt8)) :
    r.dispatched <+: (ls.foldl readLine r).dispatched := by
  induction ls generalizing r with
  | nil => exact List.prefix_rfl
  | cons l ls ih => exact (dispatched_prefix_readLine r l).trans (ih (r.readLine l))

/-- A line that is not empty dispatches nothing, and what is built up stays built up. -/
theorem readLine_of_ne_nil {line : List UInt8} (hline : line ≠ []) (r : Reader) :
    (r.readLine line).dispatched = r.dispatched ∧ r.data <+: (r.readLine line).data := by
  rw [readLine, if_neg hline]
  split
  · exact ⟨rfl, (List.prefix_append _ _).trans (List.prefix_append _ _)⟩
  · exact ⟨rfl, List.prefix_rfl⟩
  · split <;> exact ⟨rfl, List.prefix_rfl⟩
  · split <;> exact ⟨rfl, List.prefix_rfl⟩
  · exact ⟨rfl, List.prefix_rfl⟩

/-- **Without an empty line nothing is dispatched.** -/
theorem dispatched_foldl (hls : ∀ l ∈ ls, l ≠ []) (r : Reader) :
    (ls.foldl readLine r).dispatched = r.dispatched := by
  induction ls generalizing r with
  | nil => rfl
  | cons l ls ih =>
    rw [List.foldl_cons, ih fun m hm ↦ hls m (List.mem_cons_of_mem _ hm)]
    exact (readLine_of_ne_nil (hls l List.mem_cons_self) r).1

/-- **An empty line dispatches** when data has been built up. -/
theorem dispatched_foldl_ne_nil (hls : [] ∈ ls) {r : Reader} (hdata : r.data ≠ []) :
    (ls.foldl readLine r).dispatched ≠ [] := by
  induction ls generalizing r with
  | nil => exact absurd hls List.not_mem_nil
  | cons l ls ih =>
    rw [List.foldl_cons]
    rcases eq_or_ne l [] with rfl | hne
    · have hdispatch : (r.readLine []).dispatched ≠ [] := by
        rw [readLine, if_pos rfl, dispatch, if_neg hdata]
        simp
      exact fun hnil ↦ hdispatch (List.prefix_nil.1 (hnil ▸ dispatched_prefix_foldl _ ls))
    · refine ih ((List.mem_cons.1 hls).resolve_left fun h ↦ hne h.symm) fun hnil ↦ hdata ?_
      exact List.prefix_nil.1 (hnil ▸ (readLine_of_ne_nil hne r).2)

/-- What a harmless line leaves alone. -/
theorem readLine_of_harmless {line : List UInt8} (hline : Harmless line) (r : Reader) :
    ∃ data, r.readLine line = { r with data := r.data ++ data } := by
  rw [readLine, if_neg hline.1]
  rcases hline.2 with hdata | hother
  · rw [hdata]
    exact ⟨valueOf line ++ [10], by simp⟩
  · rw [hother]
    exact ⟨[], by simp⟩

/-- **Harmless lines only build up data.** -/
theorem foldl_readLine_of_harmless (hls : ∀ l ∈ ls, Harmless l) (r : Reader) :
    ∃ data, ls.foldl readLine r = { r with data := r.data ++ data } := by
  induction ls generalizing r with
  | nil => exact ⟨[], by simp⟩
  | cons l ls ih =>
    obtain ⟨data, hl⟩ := readLine_of_harmless (hls l List.mem_cons_self) r
    obtain ⟨data', hrest⟩ := ih (fun m hm ↦ hls m (List.mem_cons_of_mem _ hm))
      { r with data := r.data ++ data }
    exact ⟨data ++ data', by rw [List.foldl_cons, hl, hrest, List.append_assoc]⟩

/-- **Harmless lines and an empty one** dispatch one event, of the type that was built up. -/
theorem dispatched_of_harmless (hls : ∀ l ∈ ls, Harmless l) {r : Reader} (hdata : r.data ≠ []) :
    ∃ data, ((ls ++ [[]]).foldl readLine r).dispatched = r.dispatched ++
      [⟨if r.eventType = [] then defaultType else r.eventType, data, r.lastEventId⟩] := by
  obtain ⟨data, hfold⟩ := foldl_readLine_of_harmless hls r
  rw [List.foldl_append, hfold, List.foldl_cons, List.foldl_nil, readLine, if_pos rfl, dispatch,
    if_neg (by simp [hdata])]
  exact ⟨_, rfl⟩

/-- A line of data. -/
theorem readLine_data (value : List UInt8) (r : Reader) :
    r.readLine (word "data" ++ 58 :: 32 :: value) =
      { r with data := r.data ++ (value ++ [10]) } := by
  have hname : nameOf (word "data" ++ 58 :: 32 :: value) = word "data" :=
    nameOf_append (by decide +kernel)
  have hvalue : valueOf (word "data" ++ 58 :: 32 :: value) = value :=
    valueOf_append (by decide +kernel)
  rw [readLine, if_neg (by simp), fieldOf, if_pos hname, hvalue, List.append_assoc]

/-- **Lines of data** are built up with an LF after each. -/
theorem foldl_readLine_data (values : List (List UInt8)) (r : Reader) :
    (values.map (word "data" ++ 58 :: 32 :: ·)).foldl readLine r =
      { r with data := r.data ++ values.flatMap (· ++ [10]) } := by
  induction values generalizing r with
  | nil => simp
  | cons value values ih =>
    rw [List.map_cons, List.foldl_cons, readLine_data, ih, List.flatMap_cons, List.append_assoc]

/-- A line that sets the type. -/
theorem readLine_event (value : List UInt8) (r : Reader) :
    r.readLine (word "event" ++ 58 :: 32 :: value) = { r with eventType := value } := by
  have hname : nameOf (word "event" ++ 58 :: 32 :: value) = word "event" :=
    nameOf_append (by decide +kernel)
  have hvalue : valueOf (word "event" ++ 58 :: 32 :: value) = value :=
    valueOf_append (by decide +kernel)
  have hfield : fieldOf (word "event" ++ 58 :: 32 :: value) = .event := by
    rw [fieldOf, hname]
    rfl
  rw [readLine, if_neg (by simp), hfield, hvalue]

/-- **Types contain no line ends**, because no line does. -/
theorem notMem_type_foldl (hls : ∀ l ∈ ls, 13 ∉ l ∧ 10 ∉ l) {r : Reader}
    (htype : 13 ∉ r.eventType ∧ 10 ∉ r.eventType)
    (hdispatched : ∀ e ∈ r.dispatched, 13 ∉ e.type ∧ 10 ∉ e.type) :
    ∀ e ∈ (ls.foldl readLine r).dispatched, 13 ∉ e.type ∧ 10 ∉ e.type := by
  induction ls generalizing r with
  | nil => exact hdispatched
  | cons l ls ih =>
    have hl := hls l List.mem_cons_self
    have hvalue : 13 ∉ valueOf l ∧ 10 ∉ valueOf l :=
      ⟨fun h ↦ hl.1 (valueOf_subset l h), fun h ↦ hl.2 (valueOf_subset l h)⟩
    have hdefault : 13 ∉ defaultType ∧ 10 ∉ defaultType := by decide +kernel
    rw [List.foldl_cons]
    refine ih (fun m hm ↦ hls m (List.mem_cons_of_mem _ hm)) ?_ ?_
    · rw [readLine]
      split
      · rw [dispatch]
        split <;> exact ⟨List.not_mem_nil, List.not_mem_nil⟩
      · split
        · exact htype
        · exact hvalue
        · split <;> exact htype
        · split <;> exact htype
        · exact htype
    · rcases eq_or_ne l [] with rfl | hne
      · rw [readLine, if_pos rfl, dispatch]
        split
        · exact hdispatched
        · refine List.forall_mem_append.2 ⟨hdispatched, List.forall_mem_singleton.2 ?_⟩
          show 13 ∉ (if r.eventType = [] then defaultType else r.eventType) ∧
            10 ∉ (if r.eventType = [] then defaultType else r.eventType)
          split
          · exact hdefault
          · exact htype
      · rw [(readLine_of_ne_nil hne r).1]
        exact hdispatched

end Reader

theorem notMem_type_read {text : List UInt8} {e : Event} (he : e ∈ (read text).dispatched) :
    13 ∉ e.type ∧ 10 ∉ e.type :=
  Reader.notMem_type_foldl (fun _ hl ↦ notMem_of_mem_lines hl) (by simp [Reader.start])
    (by simp [Reader.start]) e he

end EventStream
