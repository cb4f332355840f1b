import OnePage.Keyed
import Mathlib.Data.List.Induction
import Mathlib.Data.List.Perm.Basic

/-!
# Lookup in keyed lists

* `Keyed.get?_eq_some_iff` — what is found are the entries, as long as the keys are distinct; so the
  order does not matter (`Keyed.get?_perm`).
* `Keyed.nodup_keys_ofPairs`, `Keyed.mem_of_mem_ofPairs` and `Keyed.ofPairs_of_nodup` — what putting
  pairs in one after the other comes to.
-/

namespace OnePage

namespace Keyed

variable {α : Type} {key : Text} {value : α} {entries other : Keyed α} {pairs : List (Text × α)}

/-! ## Finding a value -/

lemma has_iff_mem_keys : entries.has key = true ↔ key ∈ entries.keys := by
  rw [has, get?, keys]
  induction entries with
  | nil => simp
  | cons entry entries ih =>
    rw [List.lookup_cons, List.map_cons, List.mem_cons]
    by_cases h : key = entry.1
    · simp [h]
    · have hne : (key == entry.1) = false := beq_false_of_ne h
      rw [hne, ih, or_iff_right h]

lemma mem_of_get? (h : entries.get? key = some value) : (key, value) ∈ entries := by
  obtain ⟨front, rest, rfl, -⟩ := List.lookup_eq_some_iff.1 h
  simp

/-- **Distinct keys** have the values that they are listed with. -/
lemma get?_eq_some_iff (hdistinct : entries.keys.Nodup) :
    entries.get? key = some value ↔ (key, value) ∈ entries := by
  refine ⟨mem_of_get?, fun hmem => ?_⟩
  obtain ⟨front, rest, rfl⟩ := List.append_of_mem hmem
  refine List.lookup_eq_some_iff.2 ⟨front, rest, rfl, fun entry hentry => ?_⟩
  rw [keys, List.map_append, List.nodup_append] at hdistinct
  have hne : entry.1 ≠ key := hdistinct.2.2 entry.1 (List.mem_map_of_mem hentry) key (by simp)
  simpa using hne.symm

/-- They are found in any order. -/
lemma get?_perm (h : entries.Perm other) (hdistinct : entries.keys.Nodup) (key : Text) :
    entries.get? key = other.get? key := by
  have hother : other.keys.Nodup := (h.map Prod.fst).nodup_iff.1 hdistinct
  refine Option.ext fun value => ?_
  rw [get?_eq_some_iff hdistinct, get?_eq_some_iff hother, h.mem_iff]

/-! ## Putting pairs in -/

lemma mem_of_mem_put {pair : Text × α} (h : pair ∈ put key value entries) :
    pair = (key, value) ∨ pair ∈ entries := by
  induction entries with
  | nil => exact .inl (List.mem_singleton.1 h)
  | cons entry entries ih =>
    rw [put] at h
    split at h
    · rcases List.mem_cons.1 h with h | h
      · exact .inl h
      · exact .inr (List.mem_cons_of_mem _ h)
    · rcases List.mem_cons.1 h with rfl | h
      · exact .inr List.mem_cons_self
      · exact (ih h).imp_right (List.mem_cons_of_mem _)

lemma put_of_not_mem (h : key ∉ keys entries) :
    put key value entries = entries ++ [(key, value)] := by
  induction entries with
  | nil => rfl
  | cons entry entries ih =>
    simp only [keys, List.map_cons, List.mem_cons, not_or] at h
    rw [put, if_neg (Ne.symm h.1), ih h.2, List.cons_append]

lemma nodup_keys_put (h : (keys entries).Nodup) : (keys (put key value entries)).Nodup := by
  induction entries with
  | nil => simp [put, keys]
  | cons entry entries ih =>
    simp only [keys, List.map_cons, List.nodup_cons] at h
    rw [put]
    split
    · next hkey => simpa only [keys, List.map_cons, List.nodup_cons, ← hkey] using h
    · next hkey =>
      simp only [keys, List.map_cons, List.nodup_cons]
      refine ⟨fun hmem => ?_, ih h.2⟩
      obtain ⟨pair, hpair, heq⟩ := List.mem_map.1 hmem
      rcases mem_of_mem_put hpair with rfl | hold
      · exact hkey heq.symm
      · exact h.1 (heq ▸ List.mem_map_of_mem hold)

/-- Pairs that are put in have different keys. -/
lemma nodup_keys_ofPairs (pairs : List (Text × α)) : (keys (ofPairs pairs)).Nodup := by
  induction pairs using List.reverseRecOn with
  | nil => exact List.nodup_nil
  | append_singleton pairs pair ih =>
    rw [ofPairs, List.foldl_append]
    exact nodup_keys_put ih

/-- No other pairs are there than have been put in. -/
lemma mem_of_mem_ofPairs {pair : Text × α} (h : pair ∈ ofPairs pairs) : pair ∈ pairs := by
  induction pairs using List.reverseRecOn with
  | nil => exact h
  | append_singleton pairs last ih =>
    rw [ofPairs, List.foldl_append] at h
    rcases mem_of_mem_put h with rfl | h
    · simp
    · exact List.mem_append_left _ (ih h)

/-- Pairs with different keys stay as they are. -/
lemma ofPairs_of_nodup (h : (keys pairs).Nodup) : ofPairs pairs = pairs := by
  induction pairs using List.reverseRecOn with
  | nil => rfl
  | append_singleton pairs last ih =>
    rw [keys, List.map_append, List.nodup_append] at h
    have hlast : last.1 ∉ keys (ofPairs pairs) := by
      rw [ih h.1]
      exact fun hmem => h.2.2 _ hmem _ (by simp) rfl
    have hput : ofPairs (pairs ++ [last]) = put last.1 last.2 (ofPairs pairs) := by
      rw [ofPairs, List.foldl_append]
      rfl
    rw [hput, put_of_not_mem hlast, ih h.1]

end Keyed

end OnePage
