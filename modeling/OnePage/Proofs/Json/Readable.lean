import OnePage.Json.Reader
import OnePage.Proofs.Keyed
import OnePage.Proofs.Outcome
import OnePage.Proofs.Text.Numeral

/-!
# What the reader gives

Not every value comes out of the reader: a name has one value in an object, however often it is
written, whole numbers have no more digits than may be read, and containers lie only so deep.

* `Value.IsReadable` — the values that can come out of the reader.
* **`isReadable_of_readValue`** — whatever is read is such a value, and so is every value in it:
  `Value.IsPartOf.isReadable`.
-/

namespace OnePage

namespace Json

/-! ## Readable values -/

/-- **The values that the reader gives**, with no more than so many containers inside each other. -/
inductive Value.IsReadable : Nat → Value → Prop
  | null {room} : IsReadable room .null
  | bool {room} (b : Bool) : IsReadable room (.bool b)
  | whole {room} {n : Int} (h : n.natAbs < 10 ^ Numeral.digitLimit) :
    IsReadable room (.number (.whole n))
  | real {room} (x : Float) : IsReadable room (.number (.real x))
  | string {room} (text : Text) : IsReadable room (.string text)
  | array {room} {items : List Value} (h : ∀ item ∈ items, IsReadable room item) :
    IsReadable (room + 1) (.array items)
  | object {room} {members : List (Text × Value)} (hkeys : (Keyed.keys members).Nodup)
    (h : ∀ member ∈ members, IsReadable room member.2) : IsReadable (room + 1) (.object members)

/-- More room does no harm. -/
lemma Value.IsReadable.mono {v : Value} {room more : Nat} (h : v.IsReadable room)
    (hle : room ≤ more) : v.IsReadable more := by
  induction h generalizing more with
  | null => exact .null
  | bool b => exact .bool b
  | whole hn => exact .whole hn
  | real x => exact .real x
  | string text => exact .string text
  | array _ ih =>
    obtain ⟨more, rfl⟩ := Nat.exists_eq_add_of_lt hle
    exact .array fun item hitem => ih item hitem (by omega)
  | object hkeys _ ih =>
    obtain ⟨more, rfl⟩ := Nat.exists_eq_add_of_lt hle
    exact .object hkeys fun member hmember => ih member hmember (by omega)

/-- **A value in another one**: the value itself, or a value in one of its items or members. -/
inductive Value.IsPartOf (v : Value) : Value → Prop
  | self : IsPartOf v v
  | item {items : List Value} {item : Value} (hitem : item ∈ items) (h : IsPartOf v item) :
    IsPartOf v (.array items)
  | member {members : List (Text × Value)} {member : Text × Value} (hmember : member ∈ members)
    (h : IsPartOf v member.2) : IsPartOf v (.object members)

/-- Every part of a readable value is readable. -/
lemma Value.IsPartOf.isReadable {v w : Value} {room : Nat} (hpart : v.IsPartOf w)
    (h : w.IsReadable room) : v.IsReadable room := by
  induction hpart generalizing room with
  | self => exact h
  | item hitem _ ih =>
    cases h with
    | array hitems => exact (ih (hitems _ hitem)).mono (Nat.le_succ _)
  | member hmember _ ih =>
    cases h with
    | object _ hmembers => exact (ih (hmembers _ hmember)).mono (Nat.le_succ _)

/-! ## Numbers and words -/

/-- A whole number that is read has no more digits than are allowed. -/
lemma natAbs_lt_of_readDigits {negative : Bool} {whole rest left : Text} {n : Int}
    (hwhole : ∀ c ∈ whole, c.isDigit)
    (h : readDigits negative whole rest = .ok (.whole n, left)) :
    n.natAbs < 10 ^ Numeral.digitLimit := by
  rw [readDigits] at h
  simp only at h
  split at h
  · rw [Numeral.read] at h
    split at h
    · cases h
    · next m hread =>
      split at hread
      · cases hread
      · next hlength =>
        obtain rfl := Except.ok.inj hread
        have hvalue : Numeral.value whole < 10 ^ Numeral.digitLimit :=
          (Numeral.value_lt hwhole).trans_le (Nat.pow_le_pow_right (by decide) (not_lt.1 hlength))
        obtain ⟨hn, -⟩ := Prod.mk.inj (Except.ok.inj h)
        obtain rfl := Number.whole.inj hn
        cases negative <;> simpa using hvalue
  · cases h

lemma natAbs_lt_of_readNumber {text left : Text} {n : Int}
    (h : readNumber text = .ok (.whole n, left)) : n.natAbs < 10 ^ Numeral.digitLimit := by
  have hrun (digits : Text) : ∀ c ∈ digits.takeWhile CodePoint.isDigit, c.isDigit :=
    fun c => List.mem_takeWhile_imp
  rw [readNumber.eq_def] at h
  split at h
  split at h
  · split at h
    · next hzero => exact natAbs_lt_of_readDigits (by simp [hzero]; decide) h
    · split at h
      · exact natAbs_lt_of_readDigits (hrun _) h
      · cases h
  · cases h

lemma isReadable_of_readNumber {text left : Text} {n : Number} {room : Nat}
    (h : readNumber text = .ok (n, left)) : (Value.number n).IsReadable room := by
  cases n with
  | whole n => exact .whole (natAbs_lt_of_readNumber h)
  | real x => exact .real x

lemma isReadable_of_readWord? {text left : Text} {v : Value} {room : Nat}
    (h : readWord? text = some (v, left)) : v.IsReadable room := by
  have hwords : ∀ entry ∈ words, entry.2.IsReadable room := by
    simp only [words, List.forall_mem_cons]
    exact ⟨.null, .bool _, .bool _, .real _, .real _, .real _, by simp⟩
  obtain ⟨⟨word, value⟩, hmem, hfound⟩ := List.exists_of_findSome?_eq_some h
  obtain ⟨left, -, heq⟩ := Option.map_eq_some_iff.1 hfound
  obtain ⟨rfl, rfl⟩ := Prod.mk.inj heq
  exact hwords _ hmem

/-! ## Containers -/

section Container

variable {item : PartReader Value} {p : Value → Prop}

/-- What holds of everything that is read as an item holds of the items of an array. -/
lemma forall_mem_of_readItems (hitem : ∀ text v left, item text = .ok (v, left) → p v)
    {budget : Nat} {text left : Text} {items : List Value}
    (h : readItems item budget text = .ok (items, left)) : ∀ v ∈ items, p v := by
  induction budget generalizing text left items with
  | zero => cases h
  | succ budget ih =>
    rw [readItems] at h
    obtain ⟨⟨value, rest⟩, hvalue, h⟩ := except_bind_eq_ok.1 h
    simp only at h
    split at h
    · cases h
    · split at h
      · obtain ⟨rfl, -⟩ := Prod.mk.inj (Except.ok.inj h)
        simpa using hitem _ _ _ hvalue
      · split at h
        · obtain ⟨⟨others, left⟩, hothers, h⟩ := except_bind_eq_ok.1 h
          obtain ⟨rfl, -⟩ := Prod.mk.inj (Except.ok.inj h)
          have hrest := ih hothers
          exact List.forall_mem_cons.2 ⟨hitem _ _ _ hvalue, hrest⟩
        · cases h

/-- The same for the members of an object. -/
lemma forall_mem_of_readMembers (hitem : ∀ text v left, item text = .ok (v, left) → p v)
    {budget : Nat} {text left : Text} {members : List (Text × Value)}
    (h : readMembers item budget text = .ok (members, left)) :
    ∀ member ∈ members, p member.2 := by
  induction budget generalizing text left members with
  | zero => cases h
  | succ budget ih =>
    rw [readMembers] at h
    obtain ⟨⟨name, beginning⟩, -, h⟩ := except_bind_eq_ok.1 h
    obtain ⟨⟨value, rest⟩, hvalue, h⟩ := except_bind_eq_ok.1 h
    simp only at h
    split at h
    · cases h
    · split at h
      · obtain ⟨rfl, -⟩ := Prod.mk.inj (Except.ok.inj h)
        simpa using hitem _ _ _ hvalue
      · split at h
        · obtain ⟨⟨others, left⟩, hothers, h⟩ := except_bind_eq_ok.1 h
          obtain ⟨rfl, -⟩ := Prod.mk.inj (Except.ok.inj h)
          have hrest := ih hothers
          exact List.forall_mem_cons.2 ⟨hitem _ _ _ hvalue, hrest⟩
        · cases h

variable {text left : Text} {v : Value} {room : Nat}
  (hitem : ∀ text v left, item text = .ok (v, left) → v.IsReadable room)

include hitem

lemma isReadable_of_readArray (h : readArray item text = .ok (v, left)) :
    v.IsReadable (room + 1) := by
  rw [readArray] at h
  simp only at h
  split at h
  · obtain ⟨rfl, -⟩ := Prod.mk.inj (Except.ok.inj h)
    exact .array (by simp)
  · obtain ⟨⟨items, left⟩, hitems, heq⟩ := except_map_eq_ok.1 h
    obtain ⟨rfl, -⟩ := Prod.mk.inj heq
    exact .array (forall_mem_of_readItems hitem hitems)

lemma isReadable_of_readObject (h : readObject item text = .ok (v, left)) :
    v.IsReadable (room + 1) := by
  rw [readObject] at h
  simp only at h
  split at h
  · obtain ⟨rfl, -⟩ := Prod.mk.inj (Except.ok.inj h)
    exact .object List.nodup_nil (by simp)
  · obtain ⟨⟨pairs, left⟩, hpairs, heq⟩ := except_map_eq_ok.1 h
    obtain ⟨rfl, -⟩ := Prod.mk.inj heq
    exact .object (Keyed.nodup_keys_ofPairs pairs) fun member hmember =>
      forall_mem_of_readMembers hitem hpairs member (Keyed.mem_of_mem_ofPairs hmember)

end Container

lemma depthOfItems_le {items : List Value} {n : Nat} (h : ∀ item ∈ items, item.depth ≤ n) :
    Value.depthOfItems items ≤ n := by
  induction items with
  | nil => exact Nat.zero_le _
  | cons item items ih =>
    rw [List.forall_mem_cons] at h
    exact max_le h.1 (ih h.2)

lemma depthOfMembers_le {members : List (Text × Value)} {n : Nat}
    (h : ∀ member ∈ members, member.2.depth ≤ n) : Value.depthOfMembers members ≤ n := by
  induction members with
  | nil => exact Nat.zero_le _
  | cons member members ih =>
    rw [List.forall_mem_cons] at h
    exact max_le h.1 (ih h.2)

/-- A readable value is no deeper than it may be. -/
lemma Value.IsReadable.depth_le {room : Nat} {v : Value} (h : v.IsReadable room) :
    v.depth ≤ room := by
  induction h with
  | null | bool | whole | real | string => exact Nat.zero_le _
  | array _ ih => exact Nat.succ_le_succ (depthOfItems_le ih)
  | object _ _ ih => exact Nat.succ_le_succ (depthOfMembers_le ih)

/-! ## Documents -/

/-- **Whatever is read is readable.** -/
lemma isReadable_of_readValue {room : Nat} {text left : Text} {v : Value}
    (h : readValue room text = .ok (v, left)) : v.IsReadable room := by
  induction room using Nat.strong_induction_on generalizing text v left with
  | _ room ih =>
    rw [readValue.eq_def] at h
    split at h
    · cases h
    · split_ifs at h
      · obtain ⟨_, -, heq⟩ := except_map_eq_ok.1 h
        obtain ⟨rfl, -⟩ := Prod.mk.inj heq
        exact .string _
      · split at h
        · cases h
        · exact isReadable_of_readArray (fun _ _ _ => ih _ (Nat.lt_succ_self _)) h
      · split at h
        · cases h
        · exact isReadable_of_readObject (fun _ _ _ => ih _ (Nat.lt_succ_self _)) h
      · split at h
        · next hword =>
          obtain rfl := Except.ok.inj h
          exact isReadable_of_readWord? hword
        · obtain ⟨_, hnumber, heq⟩ := except_map_eq_ok.1 h
          obtain ⟨rfl, -⟩ := Prod.mk.inj heq
          exact isReadable_of_readNumber hnumber

/-- A document is one value with nothing but space around it, and without a mark in front. -/
lemma readDocument_eq_ok_iff {room : Nat} {text : Text} {v : Value} :
    readDocument room text = .ok v ↔
      (∀ c ∈ text.head?, c.value ≠ 0xFEFF) ∧
        ∃ rest, readValue room (skipSpace text) = .ok (v, rest) ∧ skipSpace rest = [] := by
  rw [readDocument.eq_def]
  cases text with
  | nil =>
    have hnothing : readValue room (skipSpace []) = .error (.malformed .value []) :=
      readValue.eq_def room []
    simp [hnothing, bind, Except.bind]
  | cons c text =>
    by_cases hmark : c.value = 0xFEFF
    · simp only [if_pos hmark]
      exact iff_of_false nofun fun h => h.1 c rfl hmark
    · simp only [if_neg hmark]
      cases hread : readValue room (skipSpace (c :: text)) with
      | error stop => simp [bind, Except.bind]
      | ok reading =>
        obtain ⟨value, rest⟩ := reading
        have hhead : ∀ d ∈ (c :: text).head?, d.value ≠ 0xFEFF := by simpa using hmark
        cases hrest : skipSpace rest with
        | nil =>
          simp only [bind, Except.bind, hrest]
          constructor
          · intro h
            obtain rfl := Except.ok.inj h
            exact ⟨hhead, rest, rfl, hrest⟩
          · rintro ⟨-, left, hleft, -⟩
            obtain ⟨rfl, -⟩ := Prod.mk.inj (Except.ok.inj hleft)
            rfl
        | cons d left =>
          simp only [bind, Except.bind, hrest]
          refine iff_of_false nofun fun h => ?_
          obtain ⟨-, left, hleft, hnil⟩ := h
          obtain ⟨-, rfl⟩ := Prod.mk.inj (Except.ok.inj hleft)
          rw [hrest] at hnil
          cases hnil

/-- A document is read as a readable value. -/
lemma isReadable_of_read {room : Nat} {text : Text} {v : Value} (h : read room text = .ok v) :
    v.IsReadable room := by
  rw [read] at h
  cases hdocument : readDocument room text with
  | error stop => rw [hdocument] at h; cases stop <;> cases h
  | ok value =>
    rw [hdocument] at h
    obtain rfl := Except.ok.inj h
    obtain ⟨-, rest, hvalue, -⟩ := readDocument_eq_ok_iff.1 hdocument
    exact isReadable_of_readValue hvalue

end Json

end OnePage
