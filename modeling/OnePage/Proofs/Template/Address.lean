import OnePage.Proofs.Template.Lookup
import OnePage.Proofs.Text.Numeral

/-!
# Addresses

Every value inside of the data can be reached by steps, each into an object by a key or into an
array by an index.  Written down with periods between them, the steps are an address, and a
placeholder with that content asks for that value.

* `Step`, `Step.follow?`, `node?` — where steps lead.
* `lookup_eq_some_iff` — a path finds a value exactly if it is written from steps that lead there,
  by induction on the path.
* `eq_of_segments_eq` — there is one way to read a path as steps that lead anywhere.
* `resolve_placeholder` — what becomes of a single placeholder that asks for data.
* **`resolve_address`** — an address resolves to its value; whatever is found has exactly one
  sequence of steps; and everything else is missed and stays, among it every numeral that is not
  canonical or out of range.
-/

namespace OnePage

namespace Template

open Json (Value Encoder)

/-! ## Steps -/

/-- A step from a value to one directly inside of it. -/
inductive Step where
  /-- Into an object. -/
  | key (name : Text)
  /-- Into an array. -/
  | index (i : Nat)
deriving DecidableEq

namespace Step

/-- How a step is written: a key as it is, an index as its numeral. -/
def segment : Step → Text
  | key name => name
  | index i => Numeral.ofNat i

/-- Where a step leads, if it leads anywhere. -/
def follow? : Step → Value → Option Value
  | key name, .object members => Keyed.get? members name
  | index i, .array items => items[i]?
  | _, _ => none

/-- An index has no more digits than are read.  No array that fits into memory is long enough for
any other. -/
def IsShort : Step → Prop
  | key _ => True
  | index i => i < 10 ^ Numeral.digitLimit

end Step

/-- The value that steps lead to. -/
def node? : Value → List Step → Option Value
  | value, [] => some value
  | value, step :: steps => (step.follow? value).bind fun next => node? next steps

variable {data v w : Value} {step step' : Step} {steps steps' : List Step} {segment : Text}
  {path : List Text}

lemma node?_cons_eq_some : node? data (step :: steps) = some v ↔
    ∃ next, step.follow? data = some next ∧ node? next steps = some v :=
  Option.bind_eq_some_iff

/-- A step is told by how it is written and by the value that it is taken from. -/
lemma Step.eq_of_segment_eq (h : step.follow? data = some v) (h' : step'.follow? data = some w)
    (heq : step.segment = step'.segment) : step = step' := by
  cases data with
  | object members =>
    cases step with
    | index i => simp [follow?] at h
    | key name => cases step' with
      | index i => simp [follow?] at h'
      | key name' => exact congrArg key heq
  | array items =>
    cases step with
    | key name => simp [follow?] at h
    | index i => cases step' with
      | key name => simp [follow?] at h'
      | index i' => exact congrArg index (Numeral.ofNat_injective heq)
  | _ => cases step <;> simp [follow?] at h

/-- **There is one way to read a path** as steps that lead anywhere. -/
lemma eq_of_segments_eq (h : node? data steps = some v) (h' : node? data steps' = some w)
    (heq : steps.map Step.segment = steps'.map Step.segment) : steps = steps' := by
  induction steps generalizing data steps' with
  | nil => exact (List.map_eq_nil_iff.1 heq.symm).symm
  | cons step steps ih =>
    cases steps' with
    | nil => simp at heq
    | cons step' steps' =>
      obtain ⟨hsegment, hrest⟩ := List.cons.inj heq
      obtain ⟨next, hnext, hsteps⟩ := node?_cons_eq_some.1 h
      obtain ⟨next', hnext', hsteps'⟩ := node?_cons_eq_some.1 h'
      obtain rfl := Step.eq_of_segment_eq hnext hnext' hsegment
      obtain rfl : next = next' := Option.some.inj (hnext.symm.trans hnext')
      rw [ih hsteps hsteps' hrest]

/-! ## Paths -/

/-- A single segment finds a value exactly if it is written from a step that leads there. -/
lemma lookup_singleton_eq_some_iff : lookup data [segment] = .ok (some v) ↔
    ∃ step : Step, step.segment = segment ∧ step.IsShort ∧ step.follow? data = some v := by
  cases data with
  | object members =>
    have hlookup : lookup (.object members) [segment] = .ok (Keyed.get? members segment) := by
      cases hvalue : Keyed.get? members segment <;> simp [lookup, hvalue]
    rw [hlookup, Except.ok.injEq]
    constructor
    · intro h
      exact ⟨.key segment, rfl, trivial, h⟩
    · rintro ⟨step, rfl, -, hfollow⟩
      cases step with
      | key name => exact hfollow
      | index i => simp [Step.follow?] at hfollow
  | array items =>
    constructor
    · intro h
      cases hcanonical : Numeral.isCanonical segment with
      | false => simp [lookup, hcanonical] at h
      | true =>
        obtain ⟨i, rfl⟩ := Numeral.isCanonical_iff.1 hcanonical
        by_cases hshort : i < 10 ^ Numeral.digitLimit
        · rw [lookup, if_pos hcanonical, Numeral.read_ofNat hshort] at h
          refine ⟨.index i, rfl, hshort, ?_⟩
          cases hitem : items[i]? with
          | none => simp [hitem] at h
          | some value => simpa [Step.follow?, hitem, lookup] using h
        · have hlong : Numeral.digitLimit < (Numeral.ofNat i).length := by
            rw [← not_le, Numeral.length_ofNat_le_iff (by decide)]
            exact hshort
          have hread : Numeral.read (Numeral.ofNat i) = .error _ := if_pos hlong
          simp [lookup, hcanonical, hread] at h
    · rintro ⟨step, rfl, hshort, hfollow⟩
      cases step with
      | key name => simp [Step.follow?] at hfollow
      | index i =>
        have hitem : items[i]? = some v := hfollow
        rw [Step.segment, lookup, if_pos (Numeral.isCanonical_ofNat i), Numeral.read_ofNat hshort]
        simp [hitem, lookup]
  | _ =>
    refine iff_of_false (by simp [lookup]) ?_
    rintro ⟨step, -, -, hfollow⟩
    cases step <;> simp [Step.follow?] at hfollow

/-- **A path finds a value** exactly if it is written from steps that lead there. -/
lemma lookup_eq_some_iff : lookup data path = .ok (some v) ↔
    ∃ steps : List Step, steps.map Step.segment = path ∧ (∀ step ∈ steps, step.IsShort) ∧
      node? data steps = some v := by
  induction path generalizing data with
  | nil => simp [lookup, node?, List.map_eq_nil_iff]
  | cons segment path ih =>
    have hfirst : lookup data (segment :: path) = .ok (some v) ↔
        ∃ next, lookup data [segment] = .ok (some next) ∧ lookup next path = .ok (some v) := by
      rw [lookup_cons]
      cases lookup data [segment] with
      | error fault => simp
      | ok found => cases found <;> simp
    rw [hfirst]
    constructor
    · rintro ⟨next, hnext, hrest⟩
      obtain ⟨step, rfl, hshort, hfollow⟩ := lookup_singleton_eq_some_iff.1 hnext
      obtain ⟨steps, rfl, hshorts, hsteps⟩ := ih.1 hrest
      exact ⟨step :: steps, rfl, by simpa using ⟨hshort, hshorts⟩,
        node?_cons_eq_some.2 ⟨next, hfollow, hsteps⟩⟩
    · rintro ⟨steps, hpath, hshorts, hsteps⟩
      cases steps with
      | nil => simp at hpath
      | cons step steps =>
        obtain ⟨rfl, rfl⟩ := List.cons.inj hpath
        obtain ⟨next, hfollow, hrest⟩ := node?_cons_eq_some.1 hsteps
        exact ⟨next, lookup_singleton_eq_some_iff.2 ⟨step, rfl, hshorts step (by simp), hfollow⟩,
          ih.2 ⟨steps, rfl, fun s hs => hshorts s (by simp [hs]), hrest⟩⟩

/-- No segment of digits is longer than numerals that are read. -/
def HasShortNumerals (path : List Text) : Prop :=
  ∀ segment ∈ path, segment.all CodePoint.isDigit → segment.length ≤ Numeral.digitLimit

/-- Then a path finds a value or misses. -/
lemma HasShortNumerals.lookup_eq_none (hshort : HasShortNumerals path)
    (hmiss : ∀ v, lookup data path ≠ .ok (some v)) : lookup data path = .ok none := by
  cases hlookup : lookup data path with
  | error fault =>
    obtain ⟨front, segment, rest, items, rfl, -, hcanonical, hlength, hlong⟩ :=
      lookup_eq_error_iff.1 hlookup
    obtain ⟨-, hdigits, -⟩ := Numeral.isCanonical_eq_true_iff.1 hcanonical
    have hbound := hshort segment (by simp) (List.all_eq_true.2 hdigits)
    omega
  | ok found =>
    cases found with
    | none => rfl
    | some v => exact absurd hlookup (hmiss v)

/-- What is behind a front is looked up in what the front finds. -/
lemma lookup_append {front rest : List Text} (h : lookup data front = .ok (some v)) :
    lookup data (front ++ rest) = lookup v rest := by
  induction front generalizing data with
  | nil =>
    obtain rfl : data = v := by simpa [lookup] using h
    rfl
  | cons segment front ih =>
    rw [List.cons_append, lookup_cons]
    rw [lookup_cons] at h
    split at h
    · simp at h
    · simp at h
    · exact ih h

/-- **At an array**, whatever is not the numeral of an index in range is missed. -/
lemma lookup_array_eq_none {items : List Value} {rest : List Text}
    (h : Numeral.isCanonical segment = false ∨
      items.length ≤ Numeral.value segment ∧ segment.length ≤ Numeral.digitLimit) :
    lookup (.array items) (segment :: rest) = .ok none := by
  rw [lookup]
  cases hcanonical : Numeral.isCanonical segment with
  | false => rfl
  | true =>
    obtain ⟨hrange, hlength⟩ := h.resolve_left (by simp [hcanonical])
    have hread : Numeral.read segment = .ok (Numeral.value segment) := if_neg (by omega)
    have hitem : items[Numeral.value segment]? = none := List.getElem?_eq_none hrange
    simp [hread, hitem]

/-- Neither a leading zero nor a sign nor the digits of other scripts make a numeral. -/
example : ∀ segment ∈ ["01", "+1", "-1", "", "\u0661"],
    Numeral.isCanonical (Text.ofString segment) = false := by decide

/-! ## Placeholders -/

/-- The content of a placeholder asks for data: it does not begin like that of a component, and it
is not the name of a slot. -/
structure AsksForData (content : Text) : Prop where
  /-- It does not begin with the word for components. -/
  component : ¬ Token.componentHeading <+: content
  /-- It is not the name of a slot. -/
  slot : ∀ slot : Slot, content ≠ slot.name

lemma AsksForData.classify {content : Text} (h : AsksForData content) (raw : Text) :
    Token.classify raw content =
      .data raw (Text.splitOn (CodePoint.ofChar '.') content) := by
  rw [Token.classify, Text.after?_eq_none_iff.2 h.component, Slot.ofName?, if_neg (h.slot _),
    if_neg (h.slot _)]

variable {sources : Sources} {content : Text}

/-- **A single placeholder that asks for data** gives way to its value, or stays and is reported. -/
lemma resolve_placeholder (hcontent : IsContent content) (hdata : AsksForData content) :
    resolve sources (placeholder content) =
      (lookupText sources.encoder sources.data
        (Text.splitOn (CodePoint.ofChar '.') content)).map fun
          | some text => ⟨text, []⟩
          | none => ⟨placeholder content, [placeholder content]⟩ := by
  have hscan := scan_placeholder hcontent []
  rw [List.append_nil, scan_nil, hdata.classify] at hscan
  rw [resolve, hscan, resolveTokens, Token.replacement, resolveTokens]
  cases lookupText sources.encoder sources.data
      (Text.splitOn (CodePoint.ofChar '.') content) with
  | error fault => rfl
  | ok found => cases found <;> simp [Except.map, bind, Except.bind, pure, Except.pure, Token.text]

/-! ## Addresses -/

/-- The address that steps make up. -/
def address (steps : List Step) : Text := Text.join "." (steps.map Step.segment)

/-- A key in which nothing could be mistaken for the end of a segment or of a placeholder. -/
def Step.IsClear : Step → Prop
  | key name => CodePoint.ofChar '.' ∉ name ∧ closeBrace ∉ name
  | index _ => True

lemma Step.IsClear.notMem (h : step.IsClear) :
    CodePoint.ofChar '.' ∉ step.segment ∧ closeBrace ∉ step.segment := by
  cases step with
  | key name => exact h
  | index i =>
    constructor <;> intro hmem <;> exact absurd (Numeral.isDigit_of_mem_ofNat hmem) (by decide)

/-- An address is taken apart into its segments again. -/
lemma splitOn_address (hsteps : steps ≠ []) (hclear : ∀ step ∈ steps, step.IsClear) :
    Text.splitOn (CodePoint.ofChar '.') (address steps) = steps.map Step.segment := by
  refine Text.splitOn_join (by simpa using hsteps) fun part hpart => ?_
  obtain ⟨step, hstep, rfl⟩ := List.mem_map.1 hpart
  exact (hclear step hstep).notMem.1

lemma isContent_address (hne : address steps ≠ []) (hclear : ∀ step ∈ steps, step.IsClear) :
    IsContent (address steps) := by
  refine ⟨hne, fun hmem => ?_⟩
  rcases Text.mem_join hmem with hperiod | ⟨part, hpart, hmem⟩
  · revert hperiod
    decide
  · obtain ⟨step, hstep, rfl⟩ := List.mem_map.1 hpart
    exact (hclear step hstep).notMem.2 hmem

/-- **Addresses resolve, uniquely.**  Steps that lead to a value make up an address that resolves to
the text of the value, if it can be written at all.  A path finds a value only if it is written from
steps that lead there, and from no others that lead anywhere.  A path that is not written from such
steps misses, and a placeholder with it stays.  In particular a segment misses at an array unless it
is the canonical numeral of an index in range. -/
theorem resolve_address (sources : Sources) :
    (∀ steps v, steps ≠ [] → node? sources.data steps = some v →
      (∀ step ∈ steps, step.IsShort) → (∀ step ∈ steps, step.IsClear) →
      address steps ≠ [] → AsksForData (address steps) →
      resolve sources (placeholder (address steps)) =
        ((Json.embed sources.encoder v).map fun text => ⟨text, []⟩).mapError .unwritable) ∧
    (∀ path v, lookup sources.data path = .ok (some v) →
      ∃ steps, steps.map Step.segment = path ∧ node? sources.data steps = some v ∧
        ∀ others, others.map Step.segment = path → (node? sources.data others).isSome →
          others = steps) ∧
    (∀ path, HasShortNumerals path →
      (∀ steps, (node? sources.data steps).isSome → steps.map Step.segment ≠ path) →
      lookup sources.data path = .ok none ∧
        ∀ content, IsContent content → AsksForData content →
          Text.splitOn (CodePoint.ofChar '.') content = path →
          resolve sources (placeholder content) =
            .ok ⟨placeholder content, [placeholder content]⟩) ∧
    ∀ front items segment rest, lookup sources.data front = .ok (some (.array items)) →
      Numeral.isCanonical segment = false ∨
        items.length ≤ Numeral.value segment ∧ segment.length ≤ Numeral.digitLimit →
      lookup sources.data (front ++ segment :: rest) = .ok none := by
  refine ⟨?_, ?_, ?_, ?_⟩
  · intro steps v hsteps hnode hshort hclear hne hdata
    have hlookup : lookup sources.data (steps.map Step.segment) = .ok (some v) :=
      lookup_eq_some_iff.2 ⟨steps, rfl, hshort, hnode⟩
    rw [resolve_placeholder (isContent_address hne hclear) hdata, splitOn_address hsteps hclear,
      lookupText, hlookup]
    cases hwritten : Json.embed sources.encoder v <;>
      simp [Except.map, Except.mapError, bind, Except.bind, pure, Except.pure, hwritten]
  · intro path v hlookup
    obtain ⟨steps, rfl, -, hnode⟩ := lookup_eq_some_iff.1 hlookup
    refine ⟨steps, rfl, hnode, fun others hothers hsome => ?_⟩
    obtain ⟨w, hw⟩ := Option.isSome_iff_exists.1 hsome
    exact eq_of_segments_eq hw hnode hothers
  · intro path hshort hnone
    have hmiss : lookup sources.data path = .ok none := by
      refine hshort.lookup_eq_none fun v hlookup => ?_
      obtain ⟨steps, hsteps, -, hnode⟩ := lookup_eq_some_iff.1 hlookup
      exact hnone steps (by simp [hnode]) hsteps
    refine ⟨hmiss, fun content hcontent hdata hsplit => ?_⟩
    rw [resolve_placeholder hcontent hdata, hsplit, lookupText, hmiss]
    rfl
  · intro front items segment rest hfront hsegment
    rw [lookup_append hfront]
    exact lookup_array_eq_none hsegment

/-- An object in an array in an object, with keys that hold a hyphen or nothing. -/
def nested : Value :=
  .object [("a", .object [("x-y", .array [.null, .object [("", .string "v")]])])]

/-- The steps to the string in it. -/
def nestedSteps : List Step := [.key "a", .key "x-y", .index 1, .key ""]

/-- The string is found under its address, and nothing is found where its index has a leading
zero. -/
theorem resolve_address_nested :
    address nestedSteps = "a.x-y.1." ∧
      resolve ⟨nested, [], .usual⟩ (placeholder (address nestedSteps)) = .ok ⟨"v", []⟩ ∧
      lookup nested ["a", "x-y", "01", ""] = .ok none := by
  have haddress : address nestedSteps = "a.x-y.1." := by decide
  have hshort : ∀ step ∈ nestedSteps, step.IsShort := by
    have hone : 1 < 10 ^ Numeral.digitLimit := Nat.one_lt_pow (by decide) (by decide)
    simpa [nestedSteps, Step.IsShort] using hone
  have hclear : ∀ step ∈ nestedSteps, step.IsClear := by
    simp only [nestedSteps, List.mem_cons, List.not_mem_nil, or_false, forall_eq_or_imp, forall_eq,
      Step.IsClear]
    decide
  have hdata : AsksForData (address nestedSteps) := by
    rw [haddress]
    exact ⟨by decide, fun slot => by cases slot <;> decide⟩
  obtain ⟨hresolve, -, -, hmiss⟩ := resolve_address ⟨nested, [], .usual⟩
  refine ⟨haddress, ?_, ?_⟩
  · exact hresolve nestedSteps (.string "v") (by simp [nestedSteps]) rfl hshort hclear
      (by rw [haddress]; decide) hdata
  · exact hmiss ["a", "x-y"] _ "01" [""] rfl (.inl (by decide))

end Template

end OnePage
