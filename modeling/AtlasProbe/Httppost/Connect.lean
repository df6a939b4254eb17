import Mathlib.Data.List.Infix

/-!
# Connecting to a name

`connect_to_name` resolves a name and goes through the addresses.  The loop variable is `aip`, but
the address that is tried is that of `res`, the start of the list.
-/

namespace AtlasProbe.Httppost

open List

variable {α : Type}

/-- What comes of an address; the errors have their `errno`. -/
inductive Attempt
  | socketError (errno : ℕ)
  | connectError (errno : ℕ)
  | success
  deriving DecidableEq

/-- The address that the socket `s` is connected to, `s_errno`, and the addresses that have been
tried, in order. -/
structure Connecting (α : Type) where
  s : Option α
  sErrno : ℕ
  tried : List α

variable (outcome : α → Attempt)

/-- The loop over `aip` -/
def connectLoop (res : α) : List α → Connecting α → Connecting α
  | [], c => c
  | _ :: aip, c =>
    match outcome res with
    | .success => { c with s := some res, tried := c.tried ++ [res] }
    | .socketError errno | .connectError errno =>
      connectLoop res aip ⟨none, errno, c.tried ++ [res]⟩

/-- `connect_to_name`, with the result of `getaddrinfo`; without one, `errno` is `ENOENT` -/
def connectToName : Option (List α) → Connecting α
  | none => ⟨none, 2, []⟩
  | some [] => ⟨none, 0, []⟩
  | some (res :: next) => connectLoop outcome res (res :: next) ⟨none, 0, []⟩

/-- The addresses are tried in the order of the list, and the first one that accepts is taken. -/
structure Reaches (addrs : List α) (c : Connecting α) : Prop where
  tried : c.tried <+: addrs
  s : c.s = addrs.find? fun a => outcome a = .success

variable {outcome}

/-- Without success there is one failure of `res` for each address of the list. -/
lemma connectLoop_of_ne {res : α} (h : outcome res ≠ .success) (aips : List α) (c : Connecting α)
    (hs : c.s = none) :
    (connectLoop outcome res aips c).s = none ∧
      (connectLoop outcome res aips c).tried = c.tried ++ replicate aips.length res := by
  induction aips generalizing c with
  | nil => exact ⟨hs, (append_nil _).symm⟩
  | cons aip aips ih =>
    rw [connectLoop]
    split
    · next hsuccess => exact absurd hsuccess h
    all_goals
      next errno _ =>
      obtain ⟨hnone, htried⟩ := ih ⟨none, errno, c.tried ++ [res]⟩ rfl
      refine ⟨hnone, htried.trans ?_⟩
      rw [append_assoc, length_cons, replicate_succ, singleton_append]

/-- For every list of addresses and every outcome for each of them, the first address that accepts
is reached if and only if it is the first of the list, or all of the list is one address. -/
theorem connectToName_reaches_iff (outcome : α → Attempt) (res : α) (next : List α) :
    Reaches outcome (res :: next) (connectToName outcome (some (res :: next))) ↔
      outcome res = .success ∨ ∀ a ∈ next, a = res := by
  by_cases hres : outcome res = .success
  · refine iff_of_true ?_ (.inl hres)
    have hloop : connectToName outcome (some (res :: next)) = ⟨some res, 0, [res]⟩ := by
      rw [connectToName, connectLoop, hres]
      rfl
    rw [hloop]
    refine ⟨⟨next, rfl⟩, ?_⟩
    simp [hres]
  · obtain ⟨hnone, htried⟩ := connectLoop_of_ne hres (res :: next) ⟨none, 0, []⟩ rfl
    rw [nil_append] at htried
    constructor
    · intro h
      -- As many addresses have been tried as there are in the list.
      have heq : replicate (res :: next).length res = res :: next :=
        (htried ▸ h.tried).eq_of_length length_replicate
      refine .inr fun a ha => ?_
      exact eq_of_mem_replicate (heq ▸ mem_cons_of_mem res ha)
    · intro h
      have hall : ∀ a ∈ res :: next, a = res := forall_mem_cons.mpr ⟨rfl, h.resolve_left hres⟩
      refine ⟨?_, hnone.trans (find?_eq_none.mpr fun a ha => ?_).symm⟩
      · change (connectLoop outcome res (res :: next) ⟨none, 0, []⟩).tried <+: _
        rw [htried, ← eq_replicate_of_mem hall]
      · rw [hall a ha, decide_eq_true_iff]
        exact hres

/-- The first of two addresses refuses, and is tried again instead of the second. -/
theorem connectToName_second_ignored :
    let outcome : ℕ → Attempt := fun a => if a = 4 then .success else .connectError 111
    connectToName outcome (some [6, 4]) = ⟨none, 111, [6, 6]⟩ ∧
      ¬ Reaches outcome [6, 4] (connectToName outcome (some [6, 4])) :=
  ⟨rfl, fun h => by cases h.s⟩

end AtlasProbe.Httppost
