import Mathlib.Data.List.Chain
import Mathlib.Data.List.Nodup
import Mathlib.Data.List.Perm.Basic

/-!
# Circular doubly linked lists

Nodes are addresses with two links that may be null.  A list of nodes is a ring (`IsRing`) if each
node is linked with the next one in both directions, and the last one with the first.  A ring can be
read from any of its nodes on (`IsRing.rotate`), so it is enough to know what happens to a ring when
a node is put behind its first node (`IsRing.insert`) and when its first node is taken out
(`IsRing.remove`).
-/

namespace AtlasProbe.Ring

open List

variable {α : Type*} {next prev next' prev' : α → Option α} {a q : α} {l : List α}

/-- The node `b` follows `a`, and `a` precedes `b`. -/
def Linked (next prev : α → Option α) (a b : α) : Prop := next a = some b ∧ prev b = some a

/-- The nodes of the list, all different, are linked into a circle. -/
def IsRing (next prev : α → Option α) : List α → Prop
  | [] => True
  | a :: l => (a :: l).Nodup ∧ (a :: l ++ [a]).IsChain (Linked next prev)

lemma IsRing.nodup (h : IsRing next prev l) : l.Nodup := by
  cases l with
  | nil => exact nodup_nil
  | cons a l => exact h.1

/-! ### Reading a ring from another node on -/

lemma IsRing.rotate (h : IsRing next prev (a :: l)) : IsRing next prev (l ++ [a]) := by
  cases l with
  | nil => exact h
  | cons b l =>
    obtain ⟨hnodup, hchain⟩ := h
    rw [cons_append, cons_append, isChain_cons_cons] at hchain
    refine ⟨perm_append_singleton a (b :: l) |>.nodup_iff.mpr hnodup, ?_⟩
    refine hchain.2.append (isChain_singleton b) ?_
    intro x hx y hy
    rw [← cons_append, getLast?_concat] at hx
    cases hx
    cases hy
    exact hchain.1

lemma IsRing.rotate_append {m : List α} (h : IsRing next prev (l ++ m)) :
    IsRing next prev (m ++ l) := by
  induction l generalizing m with
  | nil => rwa [append_nil]
  | cons a l ih =>
    have hrotate : IsRing next prev (l ++ m ++ [a]) := IsRing.rotate h
    rw [append_assoc] at hrotate
    have hmoved := ih hrotate
    rwa [append_assoc] at hmoved

/-- Every node of a ring can be its first. -/
lemma IsRing.exists_cons (h : IsRing next prev l) (ha : a ∈ l) :
    ∃ m, IsRing next prev (a :: m) ∧ (a :: m).Perm l := by
  obtain ⟨front, back, rfl⟩ := append_of_mem ha
  have hperm : (a :: back ++ front).Perm (front ++ a :: back) := perm_append_comm
  exact ⟨back ++ front, h.rotate_append, hperm⟩

/-! ### The neighbours of the first node -/

lemma IsRing.next_eq (h : IsRing next prev (a :: l)) : next a = some (l.headD a) := by
  cases l with
  | nil => exact (isChain_pair.mp h.2).1
  | cons b l => exact (isChain_cons_cons.mp h.2).1.1

lemma IsRing.prev_eq (h : IsRing next prev (a :: l)) : prev a = some (l.getLastD a) := by
  rcases eq_nil_or_concat l with rfl | ⟨l, z, rfl⟩
  · exact (isChain_pair.mp h.2).2
  · rw [concat_eq_append] at h ⊢
    have hlink := (isChain_append.mp h.2).2.2 z
    rw [← cons_append, getLast?_concat] at hlink
    rw [(hlink rfl a rfl).2, getLastD_concat]

/-! ### Changing the links -/

/-- Links between nodes stay where neither the first node's `next` nor the second one's `prev` has
been changed. -/
lemma isChain_of_unchanged (h : l.IsChain (Linked next prev))
    (hnext : ∀ x ∈ l.dropLast, next' x = next x) (hprev : ∀ x ∈ l.tail, prev' x = prev x) :
    l.IsChain (Linked next' prev') := by
  induction l with
  | nil => exact .nil
  | cons a l ih =>
    cases l with
    | nil => exact .singleton a
    | cons b l =>
      rw [isChain_cons_cons] at h ⊢
      refine ⟨⟨?_, ?_⟩, ih h.2 (fun x hx => hnext x (mem_cons_of_mem a hx)) fun x hx =>
        hprev x (mem_of_mem_tail hx)⟩
      · rw [hnext a mem_cons_self, h.1.1]
      · rw [hprev b mem_cons_self, h.1.2]

/-- Links that do not belong to the nodes of a ring can be changed. -/
lemma IsRing.congr (h : IsRing next prev l) (hnext : ∀ x ∈ l, next' x = next x)
    (hprev : ∀ x ∈ l, prev' x = prev x) : IsRing next' prev' l := by
  cases l with
  | nil => trivial
  | cons a l =>
    refine ⟨h.1, isChain_of_unchanged h.2 ?_ ?_⟩
    · rw [dropLast_concat]
      exact hnext
    · intro x hx
      rw [cons_append, tail_cons, mem_append, mem_singleton] at hx
      rcases hx with hx | rfl
      · exact hprev x (mem_cons_of_mem a hx)
      · exact hprev x mem_cons_self

/-- Put the node `q` behind the first node `a`: `q` gets the follower of `a`, the follower gets `q`
as its predecessor, and `a` gets `q` as its follower. -/
lemma IsRing.insert (h : IsRing next prev (a :: l)) (hq : q ∉ a :: l)
    (hnextq : next' q = some (l.headD a)) (hprevq : prev' q = some a) (hnexta : next' a = some q)
    (hprevb : prev' (l.headD a) = some q) (hnext : ∀ x ∈ l, next' x = next x)
    (hprev : ∀ x ∈ a :: l, x ≠ l.headD a → prev' x = prev x) :
    IsRing next' prev' (a :: q :: l) := by
  obtain ⟨hnodup, hchain⟩ := h
  have hnodup' : (a :: q :: l).Nodup :=
    ((List.Perm.swap a q l).nodup_iff).mp (nodup_cons.mpr ⟨hq, hnodup⟩)
  cases l with
  | nil =>
    refine ⟨hnodup', ?_⟩
    exact isChain_cons_cons.mpr ⟨⟨hnexta, hprevq⟩, isChain_pair.mpr ⟨hnextq, hprevb⟩⟩
  | cons b l =>
    refine ⟨hnodup', ?_⟩
    have hab : a ≠ b := fun h => (nodup_cons.mp hnodup).1 (h ▸ mem_cons_self)
    have hb : b ∉ l := (nodup_cons.mp (nodup_cons.mp hnodup).2).1
    have hrest : (b :: l ++ [a]).IsChain (Linked next' prev') := by
      refine isChain_of_unchanged (isChain_cons_cons.mp hchain).2 ?_ ?_
      · rw [dropLast_concat]
        exact hnext
      · intro x hx
        rw [cons_append, tail_cons, mem_append, mem_singleton] at hx
        rcases hx with hx | rfl
        · refine hprev x (by simp [hx]) fun h => hb ?_
          rwa [headD_cons.symm.trans h.symm]
        · exact hprev x mem_cons_self hab
    exact isChain_cons_cons.mpr ⟨⟨hnexta, hprevq⟩, isChain_cons_cons.mpr ⟨⟨hnextq, hprevb⟩, hrest⟩⟩

/-- Take the first node `q` out: its neighbours are linked with each other. -/
lemma IsRing.remove (h : IsRing next prev (q :: a :: l))
    (hnextz : next' ((a :: l).getLastD q) = some a) (hpreva : prev' a = prev q)
    (hnext : ∀ x ∈ a :: l, x ≠ (a :: l).getLastD q → next' x = next x)
    (hprev : ∀ x ∈ l, prev' x = prev x) : IsRing next' prev' (a :: l) := by
  have hprevq := h.prev_eq
  obtain ⟨hnodup, hchain⟩ := h
  have hnodupl := (nodup_cons.mp hnodup).2
  refine ⟨hnodupl, ?_⟩
  rw [cons_append, cons_append, isChain_cons_cons] at hchain
  refine (isChain_of_unchanged hchain.2.left_of_append ?_ hprev).append (isChain_singleton a) ?_
  · intro x hx
    refine hnext x (dropLast_subset _ hx) fun hlast => ?_
    obtain ⟨front, z, hl⟩ := (eq_nil_or_concat (a :: l)).resolve_left (cons_ne_nil a l)
    rw [hl, concat_eq_append] at hnodupl hx hlast
    rw [dropLast_concat] at hx
    rw [getLastD_concat] at hlast
    rw [hlast] at hx
    exact (nodup_append.mp hnodupl).2.2 z hx z (mem_singleton_self z) rfl
  · intro x hx y hy
    cases hy
    have hxlast : (a :: l).getLastD q = x := by
      rw [getLastD_eq_getLast?, Option.mem_def.mp hx]
      rfl
    rw [hxlast] at hnextz hprevq
    exact ⟨hnextz, hpreva.trans hprevq⟩

end AtlasProbe.Ring
