import Mathlib.Data.List.AList

/-!
# `Base.StdMap` — `std::map` as a finite association

`std::map<K, V>` on top of Mathlib's `AList`, whose type carries the fact that no key occurs twice. Only
the operations C++ code reaches for are named, each with one lookup lemma, so clients never unfold them:

* `find` — `m.find(k)`, with `none` for `end()`;
* `assign` — `m[k] = v`, and `erase` — `m.erase(k)`;
* `valueAt`/`touch` — the two halves of reading through `m[k]`: the value seen, and the default entry that
  `operator[]` leaves behind when `k` was absent.
-/

/-- `std::map<K, V>`. -/
abbrev StdMap (K V : Type) := AList (fun _ : K => V)

namespace StdMap

variable {K V : Type} [DecidableEq K]

def find (m : StdMap K V) (k : K) : Option V := m.lookup k

def assign (m : StdMap K V) (k : K) (v : V) : StdMap K V := AList.insert k v m

def erase (m : StdMap K V) (k : K) : StdMap K V := AList.erase k m

/-- What `m[k]` evaluates to: the value bound to `k`, or a value-initialised one. -/
def valueAt [Inhabited V] (m : StdMap K V) (k : K) : V := (m.find k).getD default

/-- The map after `m[k]` was evaluated: `operator[]` inserts a default entry for an absent key. -/
def touch [Inhabited V] (m : StdMap K V) (k : K) : StdMap K V :=
  match m.find k with
  | some _ => m
  | none   => m.assign k default

@[simp] theorem find_empty (k : K) : (∅ : StdMap K V).find k = none := AList.lookup_empty k

theorem find_assign (m : StdMap K V) (k k' : K) (v : V) :
    (m.assign k v).find k' = if k' = k then some v else m.find k' := by
  unfold find assign
  by_cases h : k' = k
  · rw [if_pos h, h, AList.lookup_insert]
  · rw [if_neg h, AList.lookup_insert_ne h]

theorem find_erase (m : StdMap K V) (k k' : K) :
    (m.erase k).find k' = if k' = k then none else m.find k' := by
  unfold find erase
  by_cases h : k' = k
  · rw [if_pos h, h, AList.lookup_erase]
  · rw [if_neg h, AList.lookup_erase_ne h]

/-! ### Keys -/

theorem mem_keys {m : StdMap K V} {k : K} : k ∈ m.keys ↔ m.find k ≠ none := by
  unfold find
  rw [Ne, AList.lookup_eq_none, not_not]
  exact AList.mem_keys

/-- Binding an absent key adds it. -/
theorem keys_assign_new {m : StdMap K V} {k : K} (h : k ∉ m.keys) (v : V) :
    (m.assign k v).keys = k :: m.keys := by
  unfold assign
  rw [AList.keys_insert, List.erase_of_not_mem h]

/-- Erasing an absent key removes none. -/
theorem keys_erase_absent {m : StdMap K V} {k : K} (h : k ∉ m.keys) : (m.erase k).keys = m.keys := by
  unfold erase
  rw [AList.keys_erase, List.erase_of_not_mem h]

omit [DecidableEq K] in
/-- **Pigeonhole.** Distinct keys of the map that meet a condition are no more than the map has. -/
theorem length_le_countP {m : StdMap K V} {ks : List K} {p : K → Prop} [DecidablePred p] (hd : ks.Nodup)
    (hks : ∀ k ∈ ks, k ∈ m.keys ∧ p k) : ks.length ≤ m.keys.countP (fun k => p k) := by
  rw [List.countP_eq_length_filter]
  apply hd.length_le_of_subset
  intro k hk
  obtain ⟨hmem, hp⟩ := hks k hk
  exact List.mem_filter.mpr ⟨hmem, decide_eq_true hp⟩

omit [DecidableEq K] in
/-- How many of some distinct names are keys can be counted on either side. -/
theorem countP_keys_mem {m : StdMap K V} {ks : List K} {p q : K → Bool} (hd : ks.Nodup)
    (hp : ∀ k, p k = true ↔ k ∈ ks) (hq : ∀ k, q k = true ↔ k ∈ m.keys) : m.keys.countP p = ks.countP q := by
  rw [List.countP_eq_length_filter, List.countP_eq_length_filter]
  apply List.Perm.length_eq
  rw [List.perm_ext_iff_of_nodup (m.keys_nodup.filter _) (hd.filter _)]
  intro k
  rw [List.mem_filter, List.mem_filter, hp, hq]
  exact and_comm

section Index

variable [Inhabited V]

theorem find_touch (m : StdMap K V) (k k' : K) :
    (m.touch k).find k' = if k' = k then some (m.valueAt k) else m.find k' := by
  unfold touch valueAt
  cases hk : m.find k with
  | some v =>
      by_cases h : k' = k
      · rw [if_pos h, h, hk, Option.getD_some]
      · rw [if_neg h]
  | none => rw [find_assign, Option.getD_none]

/-- A probe of a key that is there leaves no trace. -/
theorem touch_present {m : StdMap K V} {k : K} (h : m.find k ≠ none) : m.touch k = m := by
  obtain ⟨v, hv⟩ := Option.ne_none_iff_exists'.mp h
  unfold touch
  rw [hv]

/-- A default entry is indistinguishable from an absent one through `operator[]`. -/
@[simp] theorem valueAt_touch (m : StdMap K V) (k k' : K) : (m.touch k).valueAt k' = m.valueAt k' := by
  unfold valueAt
  rw [find_touch]
  by_cases h : k' = k
  · rw [if_pos h, h, Option.getD_some, valueAt]
  · rw [if_neg h]

theorem valueAt_assign (m : StdMap K V) (k k' : K) (v : V) :
    (m.assign k v).valueAt k' = if k' = k then v else m.valueAt k' := by
  unfold valueAt
  rw [find_assign]
  by_cases h : k' = k
  · rw [if_pos h, if_pos h, Option.getD_some]
  · rw [if_neg h, if_neg h]

/-- A probe before an assignment leaves no trace. -/
theorem assign_touch (m : StdMap K V) (k : K) (v : V) : (m.touch k).assign k v = m.assign k v := by
  unfold touch
  cases m.find k with
  | some _ => rfl
  | none => exact AList.insert_insert m

@[simp] theorem valueAt_empty (k : K) : (∅ : StdMap K V).valueAt k = default := by
  rw [valueAt, find_empty, Option.getD_none]

end Index

end StdMap
