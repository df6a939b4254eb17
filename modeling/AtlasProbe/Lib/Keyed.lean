import Mathlib.Data.List.Nodup

/-!
# Lists with distinct keys

A list of entries is a finite map if no two entries have the same key.  To replace an entry by one
with its key, or to append an entry with a new key, keeps the keys distinct.
-/

namespace AtlasProbe.Keyed

open List

variable {α κ : Type*} {key : α → κ} {l : List α} {x y z : α} {i : ℕ}

/-- To replace an entry by one with the same key does not change the keys. -/
lemma map_set (hi : l[i]? = some y) (hkey : key x = key y) : (l.set i x).map key = l.map key := by
  obtain ⟨hlt, hy⟩ := List.getElem?_eq_some_iff.mp hi
  rw [List.map_set, hkey, ← hy, ← List.getElem_map key (h := by simpa using hlt),
    List.set_getElem_self]

/-- What a list holds when an entry has been replaced by one with the same key. -/
lemma mem_set_iff (hnodup : (l.map key).Nodup) (hi : l[i]? = some y) (hkey : key x = key y) :
    z ∈ l.set i x ↔ z = x ∨ z ∈ l ∧ key z ≠ key x := by
  obtain ⟨hlt, hy⟩ := List.getElem?_eq_some_iff.mp hi
  have hne : ∀ j (hj : j < l.length), key l[j] = key x → j = i := by
    intro j hj h
    rw [hkey, ← hy] at h
    have hj' : j < (l.map key).length := by simpa using hj
    have hlt' : i < (l.map key).length := by simpa using hlt
    have heq : (l.map key)[j] = (l.map key)[i] := by simpa using h
    exact hnodup.getElem_inj_iff.mp heq
  constructor
  · intro hz
    obtain ⟨j, hj, rfl⟩ := getElem_of_mem hz
    rw [length_set] at hj
    by_cases hij : i = j
    · subst hij
      exact .inl (getElem_set_self _)
    · rw [getElem_set_ne hij]
      exact .inr ⟨getElem_mem hj, fun h => hij (hne j hj h).symm⟩
  · rintro (rfl | ⟨hz, hzx⟩)
    · exact mem_set hlt z
    · obtain ⟨j, hj, rfl⟩ := getElem_of_mem hz
      have hij : i ≠ j := by
        rintro rfl
        exact hzx (hy ▸ hkey.symm)
      have hj' : j < (l.set i x).length := by simpa using hj
      have hmem := getElem_mem hj'
      rwa [getElem_set_ne hij] at hmem

/-- An entry with a new key can be appended. -/
lemma nodup_append (hnodup : (l.map key).Nodup) (hx : ∀ y ∈ l, key y ≠ key x) :
    ((l ++ [x]).map key).Nodup := by
  rw [map_append, map_singleton, ← concat_eq_append]
  refine hnodup.concat fun h => ?_
  obtain ⟨y, hy, hkey⟩ := mem_map.mp h
  exact hx y hy hkey

/-- An entry is the only one with its key. -/
lemma filter_eq_singleton [DecidableEq κ] (hnodup : (l.map key).Nodup) (hx : x ∈ l) :
    l.filter (fun y => decide (key y = key x)) = [x] := by
  have hall : ∀ y ∈ l.filter (fun y => decide (key y = key x)), y = x := by
    intro y hy
    rw [mem_filter, decide_eq_true_eq] at hy
    exact inj_on_of_nodup_map hnodup hy.1 hx hy.2
  have hmem : x ∈ l.filter (fun y => decide (key y = key x)) := by
    rw [mem_filter]
    exact ⟨hx, decide_eq_true rfl⟩
  have hfilter : (l.filter fun y => decide (key y = key x)).Nodup :=
    (List.Nodup.of_map key hnodup).filter _
  exact (List.Perm.eq_singleton
    ((perm_ext_iff_of_nodup hfilter (nodup_singleton x)).mpr fun y => by
      rw [mem_singleton]
      exact ⟨hall y, fun h => h ▸ hmem⟩))

end AtlasProbe.Keyed
