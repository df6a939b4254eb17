import Mathlib.Data.Nat.Notation
import Mathlib.Tactic.SplitIfs
import AtlasProbe.Lib.StateLogic

/-!
# Programs with a budget

A program is built from primitives that use up a resource, say the room in a buffer.  `Built Prim n
m` says how `m` is built and that it uses at most `n`.  What holds for the primitives then holds for
the program: it keeps a relation between the states before and after, and it does not fail if there
is enough of the resource.  So the text of a program is gone through once, whatever is to be shown
of it.
-/

namespace AtlasProbe

variable {ε σ α β : Type}

/-- The programs that are built from primitives, with a bound on what they use. -/
inductive Built (Prim : ℕ → EStateM ε σ Unit → Prop) : {α : Type} → ℕ → EStateM ε σ α → Prop
  | prim {n : ℕ} {m : EStateM ε σ Unit} : Prim n m → Built Prim n m
  | pure {α : Type} (n : ℕ) (a : α) : Built Prim n (pure a)
  | get : Built Prim 0 get
  | bind {α β : Type} {n k : ℕ} {m : EStateM ε σ α} {f : α → EStateM ε σ β} :
      Built Prim n m → (∀ a, Built Prim k (f a)) → Built Prim (n + k) (m >>= f)
  | mono {α : Type} {n k : ℕ} {m : EStateM ε σ α} : Built Prim n m → n ≤ k → Built Prim k m

/-- How much of a resource is used in a state, and how much there is.  The resource is only counted
in the states that are `ok`. -/
structure Meter (σ : Type) where
  ok : σ → Prop
  used : σ → ℕ
  limit : ℕ

/-- The program does not fail if there is enough left for `n`, and uses at most as much. -/
def Meter.Costs (meter : Meter σ) (n : ℕ) (m : EStateM ε σ α) : Prop :=
  ∀ s, meter.ok s → meter.used s + n ≤ meter.limit →
    Wp m s (fun _ s' => meter.ok s' ∧ meter.used s' ≤ meter.used s + n) fun _ _ => False

namespace Built

variable {Prim : ℕ → EStateM ε σ Unit → Prop} {n : ℕ} {m : EStateM ε σ α}

/-- A part that uses nothing, in front of the rest. -/
lemma before {f : α → EStateM ε σ β} (hm : Built Prim 0 m) (hf : ∀ a, Built Prim n (f a)) :
    Built Prim n (m >>= f) := by
  have hbind := hm.bind hf
  rwa [Nat.zero_add] at hbind

/-- A part that is followed by a value. -/
lemma returns (hm : Built Prim n m) (b : β) : Built Prim n (m >>= fun _ => Pure.pure b) :=
  hm.bind fun _ => .pure 0 b

lemma ite {c : Prop} [Decidable c] {m' : EStateM ε σ α} (hm : Built Prim n m)
    (hm' : Built Prim n m') : Built Prim n (if c then m else m') := by
  split_ifs
  · exact hm
  · exact hm'

/-- A program keeps a relation that its primitives keep. -/
theorem keeps {R : σ → σ → Prop} (hrefl : ∀ s, R s s) (htrans : ∀ s t u, R s t → R t u → R s u)
    (hprim : ∀ n m, Prim n m → Keeps R m) (h : Built Prim n m) : Keeps R m := by
  induction h with
  | prim h => exact hprim _ _ h
  | pure n a => exact keeps_pure hrefl a
  | get => exact keeps_get hrefl
  | bind _ _ ihm ihf => exact ihm.bind htrans ihf
  | mono _ _ ih => exact ih

/-- The costs of the primitives add up. -/
theorem costs {meter : Meter σ} (hprim : ∀ n m, Prim n m → meter.Costs n m) (h : Built Prim n m) :
    meter.Costs n m := by
  induction h with
  | prim h => exact hprim _ _ h
  | pure n a => exact fun _ hok _ => ⟨hok, Nat.le_add_right _ _⟩
  | get => exact fun _ hok _ => ⟨hok, Nat.le_refl _⟩
  | bind _ _ ihm ihf =>
    intro s hok hleft
    refine (ihm s hok (by omega)).bind fun a s' hs' => ?_
    obtain ⟨hok', hle⟩ := hs'
    refine (ihf a s' hok' (by omega)).mono (fun _ s'' hs'' => ⟨hs''.1, ?_⟩) fun _ _ hfalse => hfalse
    omega
  | mono _ hle ih =>
    intro s hok hleft
    refine (ih s hok (by omega)).mono (fun _ s' hs' => ⟨hs'.1, ?_⟩) fun _ _ hfalse => hfalse
    omega

end Built

end AtlasProbe
