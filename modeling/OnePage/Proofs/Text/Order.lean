import OnePage.Storage.Node
import Mathlib.Data.List.Sort

/-!
# The order of names

Directories list their entries in an order that can be told from the entries, and leaving some of
them out does not change the order of the others.

* `Text.le_total`, `Text.le_trans` and `Text.le_antisymm` — texts can be compared by their code
  points; `Text.sort_congr` — so there is only one way to sort them.
* **`filter_mergeSort`** — whether a list is sorted first or some of its elements are left out
  first makes no difference.
* `Storage.Entries.listedBefore_total` and `Storage.Entries.listedBefore_trans` — so can entries.
-/

namespace OnePage

namespace Text

lemma le_total (s t : Text) : le s t || le t s := by
  induction s generalizing t with
  | nil => simp [le]
  | cons a s ih =>
    cases t with
    | nil => simp [le]
    | cons b t =>
      have hrest := ih t
      rcases Nat.lt_trichotomy a.value b.value with hlt | heq | hlt
      · simp [le, hlt]
      · have hsame : a = b := by
          cases a
          cases b
          simpa using heq
        subst hsame
        simpa [le] using hrest
      · simp [le, hlt]

lemma le_trans {s t u : Text} (h : le s t) (h' : le t u) : le s u := by
  induction s generalizing t u with
  | nil => simp [le]
  | cons a s ih =>
    cases t with
    | nil => simp [le] at h
    | cons b t =>
      cases u with
      | nil => simp [le] at h'
      | cons c u =>
        simp only [le, Bool.or_eq_true, decide_eq_true_eq, Bool.and_eq_true, beq_iff_eq] at h h' ⊢
        rcases h with hlt | ⟨rfl, hrest⟩
        · rcases h' with hlt' | ⟨rfl, -⟩
          · exact .inl (hlt.trans hlt')
          · exact .inl hlt
        · rcases h' with hlt' | ⟨rfl, hrest'⟩
          · exact .inl hlt'
          · exact .inr ⟨rfl, ih hrest hrest'⟩

lemma le_antisymm {s t : Text} (h : le s t) (h' : le t s) : s = t := by
  induction s generalizing t with
  | nil =>
    cases t with
    | nil => rfl
    | cons b t => simp [le] at h'
  | cons a s ih =>
    cases t with
    | nil => simp [le] at h
    | cons b t =>
      simp only [le, Bool.or_eq_true, decide_eq_true_eq, Bool.and_eq_true, beq_iff_eq] at h h'
      rcases h with hlt | ⟨rfl, hrest⟩
      · rcases h' with hlt' | ⟨rfl, -⟩
        · omega
        · omega
      · rcases h' with hlt | ⟨-, hrest'⟩
        · omega
        · rw [ih hrest hrest']

/-- **Sorting forgets the order** that there was before. -/
lemma sort_congr {texts other : List Text} (h : texts.Perm other) : sort texts = sort other := by
  have htrans : ∀ s t u : Text, le s t → le t u → le s u := fun _ _ _ => le_trans
  have hsorted (texts : List Text) : (sort texts).Pairwise fun s t => le s t = true :=
    List.pairwise_mergeSort htrans le_total texts
  have hperm : (sort texts).Perm (sort other) :=
    (List.mergeSort_perm texts le).trans (h.trans (List.mergeSort_perm other le).symm)
  exact hperm.eq_of_pairwise (fun _ _ _ _ => le_antisymm) (hsorted texts) (hsorted other)

end Text

/-- There is one way to split a list into elements of which a condition holds and elements of which
it does not. -/
lemma append_inj_of_forall {α : Type} {q : α → Bool} {first first' rest rest' : List α}
    (h : first ++ rest = first' ++ rest') (hfirst : ∀ a ∈ first, q a) (hfirst' : ∀ a ∈ first', q a)
    (hrest : ∀ a ∈ rest, ¬ q a) (hrest' : ∀ a ∈ rest', ¬ q a) : first = first' ∧ rest = rest' := by
  have hfilter : first = first' := by
    simpa [List.filter_eq_self.2 hfirst, List.filter_eq_self.2 hfirst',
      List.filter_eq_nil_iff.2 hrest, List.filter_eq_nil_iff.2 hrest'] using
        congrArg (List.filter q) h
  subst hfilter
  exact ⟨rfl, List.append_cancel_left h⟩

/-- **Sorting and leaving out** can be done in either order. -/
lemma filter_mergeSort {α : Type} {before : α → α → Bool} (p : α → Bool)
    (htrans : ∀ a b c, before a b → before b c → before a c)
    (htotal : ∀ a b, before a b || before b a) (l : List α) :
    (l.mergeSort before).filter p = (l.filter p).mergeSort before := by
  induction l with
  | nil => simp
  | cons a l ih =>
    obtain ⟨front, rest, hwith, hwithout, hfront⟩ := List.mergeSort_cons htrans htotal a l
    rw [hwithout, List.filter_append] at ih
    rw [hwith, List.filter_append]
    by_cases ha : p a
    · -- both lists are split where the element goes
      rw [List.filter_cons_of_pos ha, List.filter_cons_of_pos ha]
      obtain ⟨front', rest', hwith', hwithout', hfront'⟩ :=
        List.mergeSort_cons htrans htotal a (l.filter p)
      rw [hwithout'] at ih
      have hafter {first last : List α} {whole : List α}
          (h : (a :: whole).mergeSort before = first ++ a :: last) : ∀ b ∈ last, before a b := by
        have hsorted := List.pairwise_mergeSort htrans htotal (a :: whole)
        rw [h] at hsorted
        exact (List.pairwise_cons.1 (List.pairwise_append.1 hsorted).2.1).1
      obtain ⟨hsame, hsame'⟩ := append_inj_of_forall (q := fun b => !before a b) ih
        (fun b hb => hfront b (List.mem_filter.1 hb).1) hfront'
        (fun b hb => by simpa using hafter hwith b (List.mem_filter.1 hb).1)
        (fun b hb => by simpa using hafter hwith' b hb)
      rw [hwith', hsame, hsame']
    · rw [List.filter_cons_of_neg ha, List.filter_cons_of_neg ha, ih]

namespace Storage.Entries

lemma listedBefore_total (a b : Entry Node) : listedBefore a b || listedBefore b a := by
  rw [listedBefore, listedBefore]
  cases a.made <;> cases b.made <;> simp [Text.le_total, Nat.le_total]

lemma listedBefore_trans (a b c : Entry Node) (h : listedBefore a b) (h' : listedBefore b c) :
    listedBefore a c := by
  rw [listedBefore] at h h' ⊢
  cases ha : a.made <;> cases hb : b.made <;> cases hc : c.made <;> simp_all
  · exact Text.le_trans h h'
  · exact h.trans h'

end Storage.Entries

end OnePage
