import OnePage.Proofs.Json.Spaceless

/-!
# Data in a page reads back

Arrays and objects are put into a page as JSON, in one of two layouts.  This file says that nothing
is lost: the reader, given what has been put in, comes to the same value again.

* `ReadsAs` — a value is read as it has been written.  An array or object of such values is one
  itself: `readArray_writeItems` and `readObject_writeMembers`.
* **`Value.IsReadable.readsAs`** — every value that the reader gives is read as it has been written.
* `WritesSpaceless` — what a fast encoder is expected to do.
* **`read_embed`** — every array or object in a document is read again from what appears for it in a
  page; and there is no space in that outside of strings.
-/

namespace OnePage

namespace Json

open Decimal (IsFinite)

/-! ## Containers -/

section Container

variable {layout : Layout} {room : Nat} {v : Value}

/-- **A value is read as it has been written**, whatever is behind it that ends a value. -/
def ReadsAs (layout : Layout) (room : Nat) (v : Value) : Prop :=
  ∀ rest, Stops rest → readValue room (write layout v ++ rest) = .ok (v, rest)

lemma ReadsAs.exists_write_eq_cons (h : ReadsAs layout room v) : ∃ c text,
    write layout v = c :: text ∧ isSpace c = false ∧ c ≠ CodePoint.ofChar ']' := by
  have hread := h [] stops_nil
  cases hwrite : write layout v with
  | nil =>
    rw [hwrite, readValue.eq_def] at hread
    cases hread
  | cons c text =>
    rw [hwrite] at hread
    exact ⟨c, text, rfl, head_of_readValue hread⟩

lemma writeItems_cons (layout : Layout) (item : Value) (items : List Value) :
    ∃ rest, writeItems layout (item :: items) = write layout item ++ rest := by
  cases items with
  | nil => exact ⟨[], (List.append_nil _).symm⟩
  | cons next items => exact ⟨_, rfl⟩

section Items

variable {items : List Value} (h : ∀ item ∈ items, ReadsAs layout room item)

include h

/-- Items take up at least as much text as there are of them. -/
lemma length_le_length_writeItems : items.length ≤ (writeItems layout items).length := by
  induction items with
  | nil => exact Nat.zero_le _
  | cons item items ih =>
    obtain ⟨c, text, hwrite, -⟩ := (h item (by simp)).exists_write_eq_cons
    have hrest := ih fun item hitem => h item (by simp [hitem])
    cases items with
    | nil => simp [writeItems, hwrite]
    | cons next items =>
      rw [writeItems, hwrite]
      simp only [List.length_cons, List.length_append] at hrest ⊢
      omega

/-- Items begin with neither space nor the bracket that ends them. -/
lemma exists_writeItems_eq_cons (hne : items ≠ []) : ∃ c text,
    writeItems layout items = c :: text ∧ isSpace c = false ∧ c ≠ CodePoint.ofChar ']' := by
  obtain ⟨item, others, rfl⟩ := List.exists_cons_of_ne_nil hne
  obtain ⟨c, text, hwrite, hc⟩ := (h item (by simp)).exists_write_eq_cons
  obtain ⟨rest, hitems⟩ := writeItems_cons layout item others
  exact ⟨c, text ++ rest, by rw [hitems, hwrite, List.cons_append], hc⟩

/-- **Items are read as they have been written.** -/
lemma readItems_writeItems (hne : items ≠ []) {budget : Nat} (hbudget : items.length ≤ budget)
    (rest : Text) : readItems (readValue room) budget
      (writeItems layout items ++ CodePoint.ofChar ']' :: rest) = .ok (items, rest) := by
  induction items generalizing budget with
  | nil => exact absurd rfl hne
  | cons item items ih =>
    obtain ⟨budget, rfl⟩ := Nat.exists_eq_add_of_le' (Nat.lt_of_lt_of_le (Nat.succ_pos _) hbudget)
    have hitem := h item (by simp)
    rw [readItems]
    cases items with
    | nil =>
      have hread := hitem (CodePoint.ofChar ']' :: rest) (stops_cons _ _ (by decide))
      have hskip := skipSpace_cons (c := CodePoint.ofChar ']') (by decide) rest
      rw [writeItems, hread]
      simp only [bind, Except.bind, hskip, if_true]
      rfl
    | cons next items =>
      have hothers : ∀ item ∈ next :: items, ReadsAs layout room item :=
        fun item hitem => h item (by simp [List.mem_cons.1 hitem])
      set behind := writeItems layout (next :: items) ++ CodePoint.ofChar ']' :: rest with hbehind
      have hread := hitem (CodePoint.ofChar ',' :: behind) (stops_cons _ _ (by decide))
      have hskip := skipSpace_cons (c := CodePoint.ofChar ',') (by decide) behind
      have hskip' : skipSpace behind = behind := by
        obtain ⟨c, text, hwrite, hc, -⟩ := exists_writeItems_eq_cons hothers (by simp)
        rw [hbehind, hwrite, List.cons_append, skipSpace_cons hc]
      have hrest := ih hothers (by simp) (Nat.le_of_succ_le_succ hbudget)
      have htext : writeItems layout (item :: next :: items) ++ CodePoint.ofChar ']' :: rest =
          write layout item ++ CodePoint.ofChar ',' :: behind := by
        rw [writeItems, List.append_assoc, List.cons_append]
      have hcomma : CodePoint.ofChar ',' ≠ CodePoint.ofChar ']' := by decide
      rw [htext, hread]
      simp only [bind, Except.bind, hskip, if_neg hcomma, if_true, hskip', hrest]
      rfl

/-- So is an array. -/
lemma readArray_writeItems (rest : Text) : readArray (readValue room)
    (writeItems layout items ++ CodePoint.ofChar ']' :: rest) = .ok (.array items, rest) := by
  by_cases hne : items = []
  · subst hne
    have hskip := skipSpace_cons (c := CodePoint.ofChar ']') (by decide) rest
    rw [writeItems, List.nil_append, readArray]
    simp only [hskip]
    rfl
  · obtain ⟨c, text, hwrite, hspace, hend⟩ := exists_writeItems_eq_cons h hne
    have hskip : skipSpace (writeItems layout items ++ CodePoint.ofChar ']' :: rest) =
        writeItems layout items ++ CodePoint.ofChar ']' :: rest := by
      rw [hwrite, List.cons_append, skipSpace_cons hspace]
    have hfull : Text.after? "]" (writeItems layout items ++ CodePoint.ofChar ']' :: rest) =
        none := by
      rw [hwrite]
      exact if_neg (Ne.symm hend)
    have hlength := length_le_length_writeItems h
    have hbudget : items.length ≤
        (writeItems layout items ++ CodePoint.ofChar ']' :: rest).length + 1 := by
      simp only [List.length_append]
      omega
    have hread := readItems_writeItems h hne hbudget rest
    rw [readArray]
    simp only [hskip, hfull, hread]
    rfl

end Items

section Members

variable (hlayout : layout.asciiOnly = false)

include hlayout

/-- The name of a member is read as it has been written, up to its colon. -/
lemma readName_writeString (key : Text) {text : Text} (htext : skipSpace text = text) :
    readName (writeString layout key ++ CodePoint.ofChar ':' :: text) = .ok (key, text) := by
  have hskip := skipSpace_cons (c := CodePoint.ofChar ':') (by decide) text
  have hwrite : writeString layout key ++ CodePoint.ofChar ':' :: text =
      CodePoint.ofChar '"' :: (key.flatMap (writeCodePoint layout) ++
        CodePoint.ofChar '"' :: CodePoint.ofChar ':' :: text) := by
    simp [writeString]
  rw [hwrite, readName]
  simp only [if_true, readString_writeString hlayout, bind, Except.bind, hskip, htext]
  rfl

variable {members : List (Text × Value)}

omit hlayout in
lemma length_le_length_writeMembers (layout : Layout) (members : List (Text × Value)) :
    members.length ≤ (writeMembers layout members).length := by
  induction members with
  | nil => exact Nat.zero_le _
  | cons member members ih =>
    cases members with
    | nil =>
      simp only [writeMembers, List.length_append, List.length_cons, List.length_nil]
      omega
    | cons next members =>
      rw [writeMembers]
      simp only [List.length_cons, List.length_append] at ih ⊢
      omega

omit hlayout in
/-- Members begin with the quote of their first name. -/
lemma exists_writeMembers_eq_cons (layout : Layout) (hne : members ≠ []) :
    ∃ text, writeMembers layout members = CodePoint.ofChar '"' :: text := by
  obtain ⟨⟨key, value⟩, others, rfl⟩ := List.exists_cons_of_ne_nil hne
  cases others <;> exact ⟨_, rfl⟩

variable (h : ∀ member ∈ members, ReadsAs layout room member.2)

include h

/-- **Members are read as they have been written.** -/
lemma readMembers_writeMembers (hne : members ≠ []) {budget : Nat}
    (hbudget : members.length ≤ budget) (rest : Text) :
    readMembers (readValue room) budget
      (writeMembers layout members ++ CodePoint.ofChar '}' :: rest) = .ok (members, rest) := by
  induction members generalizing budget with
  | nil => exact absurd rfl hne
  | cons member members ih =>
    obtain ⟨budget, rfl⟩ := Nat.exists_eq_add_of_le' (Nat.lt_of_lt_of_le (Nat.succ_pos _) hbudget)
    obtain ⟨key, value⟩ := member
    have hvalue : ReadsAs layout room value := h (key, value) (by simp)
    have hskipped (text : Text) : skipSpace (write layout value ++ text) =
        write layout value ++ text := by
      obtain ⟨c, start, hwrite, hc, -⟩ := hvalue.exists_write_eq_cons
      rw [hwrite, List.cons_append, skipSpace_cons hc]
    rw [readMembers]
    cases members with
    | nil =>
      have hread := hvalue (CodePoint.ofChar '}' :: rest) (stops_cons _ _ (by decide))
      have hskip := skipSpace_cons (c := CodePoint.ofChar '}') (by decide) rest
      have hname := readName_writeString hlayout key
        (hskipped (CodePoint.ofChar '}' :: rest))
      rw [writeMembers, List.append_assoc, List.cons_append, hname]
      simp only [bind, Except.bind, hread, hskip, if_true]
      rfl
    | cons next members =>
      have hothers : ∀ member ∈ next :: members, ReadsAs layout room member.2 :=
        fun member hmember => h member (by simp [List.mem_cons.1 hmember])
      set behind := writeMembers layout (next :: members) ++ CodePoint.ofChar '}' :: rest
        with hbehind
      have hread := hvalue (CodePoint.ofChar ',' :: behind) (stops_cons _ _ (by decide))
      have hskip := skipSpace_cons (c := CodePoint.ofChar ',') (by decide) behind
      have hskip' : skipSpace behind = behind := by
        obtain ⟨text, hwrite⟩ :=
          exists_writeMembers_eq_cons layout (List.cons_ne_nil next members)
        rw [hbehind, hwrite, List.cons_append, skipSpace_cons (by decide)]
      have hrest := ih hothers (by simp) (Nat.le_of_succ_le_succ hbudget)
      have htext : writeMembers layout ((key, value) :: next :: members) ++
          CodePoint.ofChar '}' :: rest = writeString layout key ++ CodePoint.ofChar ':' ::
            (write layout value ++ CodePoint.ofChar ',' :: behind) := by
        simp [writeMembers, hbehind]
      have hname := readName_writeString hlayout key (hskipped (CodePoint.ofChar ',' :: behind))
      have hcomma : CodePoint.ofChar ',' ≠ CodePoint.ofChar '}' := by decide
      rw [htext, hname]
      simp only [bind, Except.bind, hread, hskip, if_neg hcomma, if_true, hskip', hrest]
      rfl

/-- So is an object, if its names are different. -/
lemma readObject_writeMembers (hkeys : (Keyed.keys members).Nodup) (rest : Text) :
    readObject (readValue room)
      (writeMembers layout members ++ CodePoint.ofChar '}' :: rest) =
        .ok (.object members, rest) := by
  by_cases hne : members = []
  · subst hne
    have hskip := skipSpace_cons (c := CodePoint.ofChar '}') (by decide) rest
    rw [writeMembers, List.nil_append, readObject]
    simp only [hskip]
    rfl
  · obtain ⟨text, hwrite⟩ := exists_writeMembers_eq_cons layout hne
    have hskip : skipSpace (writeMembers layout members ++ CodePoint.ofChar '}' :: rest) =
        writeMembers layout members ++ CodePoint.ofChar '}' :: rest := by
      rw [hwrite, List.cons_append, skipSpace_cons (by decide)]
    have hfull : Text.after? r"}" (writeMembers layout members ++ CodePoint.ofChar '}' :: rest) =
        none := by
      rw [hwrite]
      rfl
    have hlength := length_le_length_writeMembers layout members
    have hbudget : members.length ≤
        (writeMembers layout members ++ CodePoint.ofChar '}' :: rest).length + 1 := by
      simp only [List.length_append]
      omega
    have hread := readMembers_writeMembers hlayout h hne hbudget rest
    rw [readObject]
    simp only [hskip, hfull, hread, Except.map, Keyed.ofPairs_of_nodup hkeys]

end Members

/-- **A readable value is read as it has been written**, if its doubles are numbers. -/
lemma Value.IsReadable.readsAs (hlayout : layout.asciiOnly = false) (h : v.IsReadable room)
    (hfinite : ∀ x, .real x ∈ v.numbers → IsFinite x) : ReadsAs layout room v := by
  induction h with
  | null =>
    intro rest _
    rw [readValue.eq_def]
    rfl
  | bool b =>
    intro rest _
    rw [readValue.eq_def]
    cases b <;> rfl
  | whole hn =>
    intro rest hrest
    exact readValue_of_readNumber (readNumber_whole hrest hn)
  | real x =>
    intro rest hrest
    have hx : IsFinite x := hfinite x (by simp [Value.numbers])
    exact readValue_of_readNumber (readNumber_render hrest hx layout.style)
  | string text =>
    intro rest _
    have hwrite : write layout (.string text) ++ rest = CodePoint.ofChar '"' ::
        (text.flatMap (writeCodePoint layout) ++ CodePoint.ofChar '"' :: rest) := by
      simp [write, writeString]
    rw [hwrite, readValue.eq_def]
    simp only [if_true, readString_writeString hlayout, Except.map]
  | @array room items _ ih =>
    intro rest _
    have hitems : ∀ item ∈ items, ReadsAs layout room item := fun item hitem =>
      ih item hitem fun x hx => hfinite x (Value.mem_numbersOfItems hitem hx)
    have hwrite : write layout (.array items) ++ rest = CodePoint.ofChar '[' ::
        (writeItems layout items ++ CodePoint.ofChar ']' :: rest) := by
      simp [write]
    have hquote : CodePoint.ofChar '[' ≠ CodePoint.ofChar '"' := by decide
    rw [hwrite, readValue.eq_def]
    simp only [if_neg hquote, if_true, readArray_writeItems hitems]
  | @object room members hkeys _ ih =>
    intro rest _
    have hmembers : ∀ member ∈ members, ReadsAs layout room member.2 := fun member hmember =>
      ih member hmember fun x hx => hfinite x (Value.mem_numbersOfMembers hmember hx)
    have hwrite : write layout (.object members) ++ rest = CodePoint.ofChar '{' ::
        (writeMembers layout members ++ CodePoint.ofChar '}' :: rest) := by
      simp [write]
    have hquote : CodePoint.ofChar '{' ≠ CodePoint.ofChar '"' := by decide
    have hbracket : CodePoint.ofChar '{' ≠ CodePoint.ofChar '[' := by decide
    rw [hwrite, readValue.eq_def]
    simp only [if_neg hquote, if_neg hbracket, if_true,
      readObject_writeMembers hlayout hmembers hkeys]

end Container

/-! ## Values in a page -/

/-- **A fast encoder that writes without space**, whatever it takes. -/
def WritesSpaceless (encode : Value → Option Text) : Prop :=
  ∀ v text, encode v = some text → ∃ layout : Layout, layout.IsSpaceless ∧ text = write layout v

lemma IsCompact.writesSpaceless {encode : Value → Option Text} (h : IsCompact encode) :
    WritesSpaceless encode :=
  fun _ _ hv => ⟨_, .compact, h.eq_write hv⟩

section Encoder

variable {encoder : Encoder} {v : Value} (hcontainer : v.isContainer)

include hcontainer

/-- What appears in a page is written in a layout without space. -/
lemma exists_layout_of_embed (hfast : ∀ encode ∈ encoder.fast?, WritesSpaceless encode)
    {written : Text} (h : embed encoder v = .ok written) :
    ∃ layout : Layout, layout.IsSpaceless ∧ written = write layout v := by
  rw [embed_of_isContainer hcontainer] at h
  split at h
  · next text hencode =>
    obtain rfl := Except.ok.inj h
    obtain ⟨encode, hmem, hv⟩ := Option.bind_eq_some_iff.1 hencode
    exact hfast encode hmem v _ hv
  · rw [Encoder.standardText] at h
    split_ifs at h
    exact ⟨_, .standard, (Except.ok.inj h).symm⟩

/-- A value that the standard encoder follows appears in a page, whatever the fast one makes of
it. -/
lemma exists_embed_eq_ok (hdepth : v.depth ≤ encoder.room) :
    ∃ written, embed encoder v = .ok written := by
  rw [embed_of_isContainer hcontainer]
  split
  · exact ⟨_, rfl⟩
  · exact ⟨_, if_pos hdepth⟩

end Encoder

/-- A container that is read as it has been written is read as a document of its own. -/
lemma ReadsAs.read_write {room : Nat} {layout : Layout} {v : Value} (h : ReadsAs layout room v)
    (hcontainer : v.isContainer) : read room (write layout v) = .ok v := by
  obtain ⟨c, text, hwrite, hspace, -⟩ := h.exists_write_eq_cons
  have hmark : c.value ≠ 0xFEFF := by
    have hhead : (write layout v).head? = some (CodePoint.ofChar '[') ∨
        (write layout v).head? = some (CodePoint.ofChar '{') := by
      cases v with
      | array items => exact .inl (by rw [write]; rfl)
      | object members => exact .inr (by rw [write]; rfl)
      | _ => cases hcontainer
    rw [hwrite] at hhead
    rcases hhead with hhead | hhead <;> rw [Option.some.inj hhead] <;> decide
  have hread := h [] stops_nil
  rw [List.append_nil] at hread
  have hdocument : readDocument room (write layout v) = .ok v := by
    refine readDocument_eq_ok_iff.2 ⟨by simpa [hwrite] using hmark, [], ?_, rfl⟩
    rw [hwrite, skipSpace_cons hspace, ← hwrite, hread]
  rw [read, hdocument]
  rfl

/-- **What is put into a page reads back.**  Every array or object in a document that has been read
appears in a page, if the standard encoder follows as many containers inside each other as the
reader does.  What appears is read as the same value again, if all of its doubles are finite, and
there is no space in it outside of strings.  The fast encoder may take what it likes. -/
theorem read_embed {room : Nat} {text : Text} {document v : Value}
    (hread : read room text = .ok document) (hpart : v.IsPartOf document)
    (hcontainer : v.isContainer) (hfinite : ∀ x, .real x ∈ v.numbers → IsFinite x)
    {encoder : Encoder} (hfast : ∀ encode ∈ encoder.fast?, WritesSpaceless encode) :
    (room ≤ encoder.room → ∃ written, embed encoder v = .ok written) ∧
    ∀ written, embed encoder v = .ok written → read room written = .ok v ∧
      ∀ c ∈ outside false written, isSpace c = false := by
  have hreadable : v.IsReadable room := hpart.isReadable (isReadable_of_read hread)
  refine ⟨fun hroom => exists_embed_eq_ok hcontainer (hreadable.depth_le.trans hroom),
    fun written hwritten => ?_⟩
  obtain ⟨layout, hlayout, rfl⟩ := exists_layout_of_embed hcontainer hfast hwritten
  have hreads : ReadsAs layout room v := hreadable.readsAs hlayout.asciiOnly hfinite
  have htight := hlayout.isTight_write v [] (by simp [outside])
  rw [List.append_nil] at htight
  exact ⟨hreads.read_write hcontainer, htight⟩

/-- Numbers of several kinds and a string with something to escape. -/
def row : Value :=
  .array [.number (.whole (-12)), .number (.real 0.1), .number (.real (-2.5e-7)), .string "\"\n"]

/-- A document with these numbers in it. -/
def sheet : Value := .object [("row", row), ("", .null)]

lemma ofFloat_row : Decimal.Exact.ofFloat 0.1 = .finite false 7205759403792794 (-56) ∧
    Decimal.Exact.ofFloat (-2.5e-7) = .finite true 4722366482869645 (-74) := by
  decide +kernel

/-- The numbers of the document are read back from either layout. -/
theorem read_embed_row :
    read usualNesting r#"{"row":[-12,0.1,-2.5e-07,"\"\n"],"":null}"# = .ok sheet ∧
      embed ⟨some encodeCompact, usualNesting⟩ row = .ok r#"[-12,0.1,-2.5e-7,"\"\n"]"# ∧
      ∀ fast? ∈ [none, some encodeCompact], ∃ written,
        embed ⟨fast?, usualNesting⟩ row = .ok written ∧ read usualNesting written = .ok row ∧
          ∀ c ∈ outside false written, isSpace c = false := by
  have hreal : ∀ x, Number.real x ∈ row.numbers → x = 0.1 ∨ x = -2.5e-7 := by
    intro x hx
    simpa [row, Value.numbers, Value.numbersOfItems] using hx
  have hfinite (x : Float) (hx : .real x ∈ row.numbers) : IsFinite x := by
    rcases hreal x hx with rfl | rfl
    · exact ⟨_, _, _, ofFloat_row.1⟩
    · exact ⟨_, _, _, ofFloat_row.2⟩
  have hsheet : ReadsAs .standard usualNesting sheet := by
    refine Value.IsReadable.readsAs rfl (.object (by decide) ?_) hfinite
    simp only [List.forall_mem_cons]
    refine ⟨.array ?_, .null, by simp⟩
    have hsmall : (-12 : Int).natAbs < 10 ^ Numeral.digitLimit :=
      (by decide : 12 ≤ Numeral.digitLimit).trans_lt (Nat.lt_pow_self (by decide))
    simp only [List.forall_mem_cons]
    exact ⟨.whole hsmall, .real _, .real _, .string _, by simp⟩
  have hwrite : write .standard sheet =
      r#"{"row":[-12,0.1,-2.5e-07,"\"\n"],"":null}"# := by decide +kernel
  have hread := hsheet.read_write rfl
  rw [hwrite] at hread
  have hmember : (("row" : Text), row) ∈ [(("row" : Text), row), ("", .null)] := by simp
  have hpart : row.IsPartOf sheet := .member hmember .self
  refine ⟨hread, by decide +kernel, fun fast? hfast? => ?_⟩
  have hfast : ∀ encode ∈ (⟨fast?, usualNesting⟩ : Encoder).fast?, WritesSpaceless encode := by
    rintro encode hencode
    rcases List.mem_pair.1 hfast? with rfl | rfl
    · cases hencode
    · obtain rfl := Option.some.inj hencode
      exact isCompact_encodeCompact.writesSpaceless
  obtain ⟨hwritten, hback⟩ := read_embed hread hpart rfl hfinite hfast
  obtain ⟨written, hwritten⟩ := hwritten le_rfl
  exact ⟨written, hwritten, hback written hwritten⟩

end Json

end OnePage
