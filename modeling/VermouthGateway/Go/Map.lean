import Mathlib.Data.Finmap
import Mathlib.Data.Finset.Sort

/-!
# Go maps

A Go map is a finite map; Mathlib's `Finmap` gives it extensional equality and
the lookup, insertion and deletion lemmas.  Added here are the two things a
Go program does with a map beyond these: reading a missing key as the zero
value, and ranging over the keys in an order the runtime chooses.

* `GoMap.get` reads a key, missing keys as the given zero value.
* `GoMap.mapValues` converts the values, as an encoder or decoder does.
* `RangeOrder` is a choice of iteration order for every map of one type.  The
  order is a parameter of the code that ranges, so that a statement about all
  orders quantifies over it.
-/

namespace VermouthGateway

/-- A Go `map[κ]ν`. -/
abbrev GoMap (κ ν : Type) := Finmap fun _ : κ => ν

namespace GoMap

variable {κ ν μ : Type} [DecidableEq κ]

/-- `m[k]`, with the zero value for a missing key. -/
def get (m : GoMap κ ν) (k : κ) (zero : ν) : ν := (m.lookup k).getD zero

@[simp] theorem get_insert_self (m : GoMap κ ν) (k : κ) (v zero : ν) :
    get (m.insert k v) k zero = v := by
  simp [get, Finmap.lookup_insert]

theorem get_of_lookup {m : GoMap κ ν} {k : κ} {v zero : ν}
    (h : m.lookup k = some v) : m.get k zero = v := by
  simp [get, h]

/-- Reading only the keys that are there is looking them up. -/
theorem ite_mem_get (m : GoMap κ ν) (k : κ) (zero : ν) (f : ν → μ) :
    (if k ∈ m then some (f (m.get k zero)) else none) = (m.lookup k).map f := by
  by_cases hk : k ∈ m
  · obtain ⟨v, hv⟩ := Finmap.mem_iff.mp hk
    rw [if_pos hk, get_of_lookup hv, hv, Option.map_some]
  · rw [if_neg hk, Finmap.lookup_eq_none.mpr hk, Option.map_none]

theorem lookup_insert_eq (m : GoMap κ ν) (k k' : κ) (v : ν) :
    (m.insert k v).lookup k' = if k' = k then some v else m.lookup k' := by
  by_cases hk : k' = k
  · subst hk
    simp [Finmap.lookup_insert]
  · rw [if_neg hk, Finmap.lookup_insert_of_ne m hk]

theorem lookup_erase_eq (m : GoMap κ ν) (k k' : κ) :
    (m.erase k).lookup k' = if k' = k then none else m.lookup k' := by
  by_cases hk : k' = k
  · subst hk
    simp [Finmap.lookup_erase]
  · rw [if_neg hk, Finmap.lookup_erase_ne hk]

/-- An entry that is left is one of another key, as it was. -/
theorem lookup_erase_eq_some_iff {m : GoMap κ ν} {k k' : κ} {v : ν} :
    (m.erase k).lookup k' = some v ↔ k' ≠ k ∧ m.lookup k' = some v := by
  rw [lookup_erase_eq]
  by_cases hk : k' = k
  · simp [hk]
  · simp [hk]

theorem lookup_union_eq (m m' : GoMap κ ν) (k : κ) :
    (m ∪ m').lookup k = (m.lookup k).or (m'.lookup k) := by
  by_cases hk : k ∈ m
  · rw [Finmap.lookup_union_left hk]
    obtain ⟨v, hv⟩ := Finmap.mem_iff.mp hk
    simp [hv]
  · rw [Finmap.lookup_union_right hk, Finmap.lookup_eq_none.mpr hk, Option.none_or]

/-- A write that is repeated for some keys acts on each of them. -/
theorem lookup_foldl_write {write : GoMap κ ν → κ → GoMap κ ν} {v : Option ν}
    (hwrite : ∀ m key k, (write m key).lookup k = if k = key then v else m.lookup k)
    (keys : List κ) (m : GoMap κ ν) (k : κ) :
    (keys.foldl write m).lookup k = if k ∈ keys then v else m.lookup k := by
  induction keys generalizing m with
  | nil => rw [List.foldl_nil, if_neg List.not_mem_nil]
  | cons key keys ih =>
      rw [List.foldl_cons, ih, hwrite]
      by_cases hlater : k ∈ keys
      · rw [if_pos hlater, if_pos (List.mem_cons_of_mem key hlater)]
      · by_cases hk : k = key
        · rw [if_neg hlater, if_pos hk, if_pos (hk ▸ List.mem_cons_self)]
        · have hnot : k ∉ key :: keys := fun h => (List.mem_cons.mp h).elim hk hlater
          rw [if_neg hlater, if_neg hk, if_neg hnot]

/-- Writing one value under each of some keys. -/
theorem lookup_foldl_insert (keys : List κ) (v : ν) (m : GoMap κ ν) (k : κ) :
    (keys.foldl (fun m key => m.insert key v) m).lookup k =
      if k ∈ keys then some v else m.lookup k :=
  lookup_foldl_write (fun m key k => lookup_insert_eq m key k v) keys m k

/-- Deleting some keys. -/
theorem lookup_foldl_erase (keys : List κ) (m : GoMap κ ν) (k : κ) :
    (keys.foldl (fun m key => m.erase key) m).lookup k =
      if k ∈ keys then none else m.lookup k :=
  lookup_foldl_write lookup_erase_eq keys m k

/-- Writing some entries leaves the other keys alone. -/
theorem lookup_insertAll_of_notMem {entries : List (κ × ν)} {k : κ}
    (hk : k ∉ entries.map Prod.fst) (m : GoMap κ ν) :
    (entries.foldl (fun m a => m.insert a.1 a.2) m).lookup k = m.lookup k := by
  induction entries generalizing m with
  | nil => rfl
  | cons a entries ih =>
      rw [List.map_cons, List.mem_cons, not_or] at hk
      rw [List.foldl_cons, ih hk.2, lookup_insert_eq, if_neg hk.1]

/-- Entries of different keys are all there after they are written. -/
theorem lookup_insertAll_of_mem {entries : List (κ × ν)} {k : κ} {v : ν}
    (hnodup : (entries.map Prod.fst).Nodup) (hmem : (k, v) ∈ entries) (m : GoMap κ ν) :
    (entries.foldl (fun m a => m.insert a.1 a.2) m).lookup k = some v := by
  induction entries generalizing m with
  | nil => exact absurd hmem List.not_mem_nil
  | cons a entries ih =>
      rw [List.map_cons, List.nodup_cons] at hnodup
      rw [List.foldl_cons]
      rcases List.mem_cons.mp hmem with rfl | hlater
      · rw [lookup_insertAll_of_notMem hnodup.1, lookup_insert_eq, if_pos rfl]
      · exact ih hnodup.2 hlater _

/-- Writing back the value a key already has changes nothing. -/
theorem insert_lookup_self {m : GoMap κ ν} {k : κ} {v : ν}
    (h : m.lookup k = some v) : m.insert k v = m := by
  apply Finmap.ext_lookup
  intro k'
  rw [lookup_insert_eq]
  split
  · next hk => rw [hk, h]
  · rfl

/-- Convert every value. -/
def mapValues (f : ν → μ) (m : GoMap κ ν) : GoMap κ μ where
  entries := m.entries.map fun entry => ⟨entry.1, f entry.2⟩
  nodupKeys := by
    rw [← Multiset.nodup_keys, Multiset.keys, Multiset.map_map]
    exact Multiset.nodup_keys.mpr m.nodupKeys

@[simp] theorem lookup_mapValues (f : ν → μ) (m : GoMap κ ν) (k : κ) :
    (mapValues f m).lookup k = (m.lookup k).map f := by
  induction m using Finmap.induction_on with
  | H list => exact List.dlookup_map₂ (f := fun _ v => f v) k

end GoMap

/-- An iteration order for every map from `κ` to `ν`: some list of exactly the
keys of the map, each once. -/
structure RangeOrder (κ ν : Type) where
  keys : GoMap κ ν → List κ
  nodup : ∀ m, (keys m).Nodup
  mem_keys : ∀ m k, k ∈ keys m ↔ k ∈ m

/-- Ranging in increasing key order. -/
def RangeOrder.sorted (κ ν : Type) [LinearOrder κ] : RangeOrder κ ν where
  keys m := m.keys.sort (· ≤ ·)
  nodup m := Finset.sort_nodup m.keys (· ≤ ·)
  mem_keys m k := by rw [Finset.mem_sort, Finmap.mem_keys]

@[simp] theorem RangeOrder.keys_empty {κ ν : Type} (order : RangeOrder κ ν) :
    order.keys ∅ = [] := by
  apply List.eq_nil_iff_forall_not_mem.mpr
  intro k hk
  exact Finmap.notMem_empty ((order.mem_keys ∅ k).mp hk)

end VermouthGateway
