import Mathlib.Logic.Basic

/-!
# Pre- and postconditions for computations with state and errors

A computation of type `EStateM ε σ α` runs on a state and ends with a value or with an error, and
with a state in both cases.  `Wp m s Q E` says that the run of `m` on `s` ends with a value and a
state in `Q`, or with an error and a state in `E`.  `Keeps R m` is the special case of a relation
between the states before and after, whichever way `m` ends; for a reflexive and transitive `R` it
is closed under sequencing, which is how an invariant of a whole procedure is read off its parts.
-/

namespace AtlasProbe

variable {ε σ α β : Type} {m n : EStateM ε σ α} {f : α → EStateM ε σ β}

/-- A run goes on behind a part that ends with a value. -/
lemma bind_apply_ok {s s' : σ} {a : α} (h : m s = .ok a s')
    (f : α → EStateM ε σ β) : (m >>= f) s = f a s' := by
  change EStateM.bind m f s = _
  unfold EStateM.bind
  rw [h]

/-- A run ends with the error of its first part. -/
lemma bind_apply_error {s s' : σ} {e : ε} (h : m s = .error e s')
    (f : α → EStateM ε σ β) : (m >>= f) s = .error e s' := by
  change EStateM.bind m f s = _
  unfold EStateM.bind
  rw [h]

/-- Two runs whose first parts agree. -/
lemma bind_apply_congr {s t : σ} (h : m s = n t) (f : α → EStateM ε σ β) :
    (m >>= f) s = (n >>= f) t := by
  change EStateM.bind m f s = EStateM.bind n f t
  unfold EStateM.bind
  rw [h]

/-- The run of `m` on `s` ends with a value in `Q` or with an error in `E`. -/
def Wp (m : EStateM ε σ α) (s : σ) (Q : α → σ → Prop) (E : ε → σ → Prop) : Prop :=
  match m s with
  | .ok a s' => Q a s'
  | .error e s' => E e s'

section Rules

variable {s : σ} {Q Q' : α → σ → Prop} {P : β → σ → Prop} {E E' : ε → σ → Prop}

@[simp]
lemma wp_pure (a : α) : Wp (pure a : EStateM ε σ α) s Q E ↔ Q a s := Iff.rfl

/-- The rule of sequencing. -/
@[simp]
lemma wp_bind (m : EStateM ε σ α) (f : α → EStateM ε σ β) :
    Wp (m >>= f) s P E ↔ Wp m s (fun a s' => Wp (f a) s' P E) E := by
  unfold Wp
  cases h : m s with
  | ok a s' => rw [bind_apply_ok h]
  | error e s' => rw [bind_apply_error h]

@[simp]
lemma wp_get {Q : σ → σ → Prop} : Wp (get : EStateM ε σ σ) s Q E ↔ Q s s := Iff.rfl

@[simp]
lemma wp_modify {Q : PUnit → σ → Prop} (f : σ → σ) :
    Wp (modify f : EStateM ε σ PUnit) s Q E ↔ Q ⟨⟩ (f s) := Iff.rfl

/-- Both branches of a test meet their postcondition. -/
lemma wp_ite {c : Prop} [Decidable c] (hm : c → Wp m s Q E) (hn : ¬ c → Wp n s Q E) :
    Wp (if c then m else n) s Q E := by
  by_cases h : c
  · rw [if_pos h]
    exact hm h
  · rw [if_neg h]
    exact hn h

/-- The rule of consequence. -/
lemma Wp.mono (h : Wp m s Q E) (hQ : ∀ a s', Q a s' → Q' a s')
    (hE : ∀ e s', E e s' → E' e s') : Wp m s Q' E' := by
  unfold Wp at h ⊢
  cases hm : m s with
  | ok a s' => exact hQ a s' (by simpa [hm] using h)
  | error e s' => exact hE e s' (by simpa [hm] using h)

/-- Two postconditions of one run. -/
lemma Wp.and (h : Wp m s Q E) (h' : Wp m s Q' E') :
    Wp m s (fun a s' => Q a s' ∧ Q' a s') (fun e s' => E e s' ∧ E' e s') := by
  unfold Wp at h h' ⊢
  cases hm : m s with
  | ok a s' | error a s' => exact ⟨by simpa [hm] using h, by simpa [hm] using h'⟩

/-- Sequencing with an intermediate condition. -/
lemma Wp.bind (hm : Wp m s Q E) (hf : ∀ a s', Q a s' → Wp (f a) s' P E) :
    Wp (m >>= f) s P E := by
  rw [wp_bind]
  exact hm.mono hf fun _ _ h => h

/-- Sequencing, with an error condition of its own for the first part. -/
lemma Wp.seq (hm : Wp m s Q E') (hE : ∀ e s', E' e s' → E e s')
    (hf : ∀ a s', Q a s' → Wp (f a) s' P E) : Wp (m >>= f) s P E :=
  (hm.mono (fun _ _ h => h) hE).bind hf

/-- The value and the state of a run that ends well. -/
lemma Wp.of_ok {a : α} {s' : σ} (h : Wp m s Q E) (hm : m s = .ok a s') : Q a s' := by
  unfold Wp at h
  simpa [hm] using h

/-- A run that cannot fail. -/
lemma Wp.exists_ok (h : Wp m s Q fun _ _ => False) :
    ∃ a s', m s = .ok a s' ∧ Q a s' := by
  cases hm : m s with
  | ok a s' => exact ⟨a, s', rfl, h.of_ok hm⟩
  | error e s' =>
    unfold Wp at h
    simp [hm] at h

/-- The error and the state of a run that fails. -/
lemma Wp.of_error {e : ε} {s' : σ} (h : Wp m s Q E) (hm : m s = .error e s') : E e s' := by
  unfold Wp at h
  simpa [hm] using h

end Rules

/-! ### Relations between the states before and after -/

/-- Whichever way `m` ends, the state before and the state after are in the relation `R`. -/
def Keeps (R : σ → σ → Prop) (m : EStateM ε σ α) : Prop :=
  ∀ s, Wp m s (fun _ s' => R s s') (fun _ s' => R s s')

section Keeps

variable {R : σ → σ → Prop}

/-- The relation holds if the run ends well. -/
lemma Keeps.ok (h : Keeps R m) (s : σ) :
    Wp m s (fun _ s' => R s s') fun _ _ => True :=
  (h s).mono (fun _ _ h => h) fun _ _ _ => trivial

lemma keeps_pure (hrefl : ∀ s, R s s) (a : α) : Keeps R (pure a : EStateM ε σ α) :=
  fun s => hrefl s

lemma keeps_throw (hrefl : ∀ s, R s s) (e : ε) : Keeps R (throw e : EStateM ε σ α) :=
  fun s => hrefl s

lemma keeps_get (hrefl : ∀ s, R s s) : Keeps R (get : EStateM ε σ σ) := fun s => hrefl s

lemma keeps_modify {f : σ → σ} (h : ∀ s, R s (f s)) :
    Keeps R (modify f : EStateM ε σ PUnit) := h

/-- Sequencing keeps a transitive relation. -/
lemma Keeps.bind (htrans : ∀ s t u, R s t → R t u → R s u) (hm : Keeps R m)
    (hf : ∀ a, Keeps R (f a)) : Keeps R (m >>= f) := by
  intro s
  refine (hm s).bind ?_
  intro a s' hs
  exact (hf a s').mono (fun _ _ h => htrans _ _ _ hs h) fun _ _ h => htrans _ _ _ hs h

lemma Keeps.ite {c : Prop} [Decidable c] (hm : Keeps R m) (hn : Keeps R n) :
    Keeps R (if c then m else n) := by
  by_cases h : c
  · rw [if_pos h]
    exact hm
  · rw [if_neg h]
    exact hn

end Keeps

/-! ### Specifications -/

/-- A specification of `m`: it ends with a value in `Q` and in a state that is in the relation `R`
to the first one, or with an error in `E`, which may depend on the first state. -/
def Spec (R : σ → σ → Prop) (E : σ → ε → σ → Prop) (m : EStateM ε σ α) (Q : α → Prop) : Prop :=
  ∀ s, Wp m s (fun a s' => Q a ∧ R s s') (E s)

section Spec

variable {R : σ → σ → Prop} {E E' : σ → ε → σ → Prop} {Q Q' : α → Prop}

lemma spec_pure (hrefl : ∀ s, R s s) {a : α} (h : Q a) : Spec R E (pure a) Q :=
  fun s => ⟨h, hrefl s⟩

lemma spec_throw {e : ε} (h : ∀ s, E s e s) : Spec R E (throw e) Q := h

/-- The second part of a sequence may rely on what the first part returns. -/
lemma Spec.bind {Q' : β → Prop} (htrans : ∀ s t u, R s t → R t u → R s u)
    (herror : ∀ s t e u, R s t → E t e u → E s e u) (hm : Spec R E m Q)
    (hf : ∀ a, Q a → Spec R E (f a) Q') : Spec R E (m >>= f) Q' := by
  intro s
  refine (hm s).bind ?_
  rintro a t ⟨ha, hst⟩
  refine (hf a ha t).mono ?_ ?_
  · exact fun b u ⟨hb, htu⟩ => ⟨hb, htrans s t u hst htu⟩
  · exact fun e u h => herror s t e u hst h

lemma Spec.ite {c : Prop} [Decidable c] (hm : c → Spec R E m Q) (hn : ¬ c → Spec R E n Q) :
    Spec R E (if c then m else n) Q :=
  fun s => wp_ite (fun h => hm h s) fun h => hn h s

lemma Spec.mono (h : Spec R E m Q) (hQ : ∀ a, Q a → Q' a)
    (hE : ∀ s e s', E s e s' → E' s e s') : Spec R E' m Q' :=
  fun s => (h s).mono (fun a _ ⟨ha, hR⟩ => ⟨hQ a ha, hR⟩) (hE s)

end Spec

/-! ### Computations that ignore a part of the state -/

/-- Change the final state of a run. -/
def mapState (g : σ → σ) : EStateM.Result ε σ α → EStateM.Result ε σ α
  | .ok a s => .ok a (g s)
  | .error e s => .error e (g s)

@[simp]
lemma mapState_ok (g : σ → σ) (a : α) (s : σ) :
    mapState g (.ok a s : EStateM.Result ε σ α) = .ok a (g s) := rfl

@[simp]
lemma mapState_error (g : σ → σ) (e : ε) (s : σ) :
    mapState g (.error e s : EStateM.Result ε σ α) = .error e (g s) := rfl

/-- It does not matter whether the state is changed by `g` before or after the run of `m`. -/
def Commutes (g : σ → σ) (m : EStateM ε σ α) : Prop := ∀ s, m (g s) = mapState g (m s)

section Commutes

variable {g : σ → σ}

lemma commutes_pure (a : α) : Commutes g (pure a : EStateM ε σ α) := fun _ => rfl

lemma commutes_throw (e : ε) : Commutes g (throw e : EStateM ε σ α) := fun _ => rfl

lemma Commutes.bind (hm : Commutes g m) (hf : ∀ a, Commutes g (f a)) : Commutes g (m >>= f) := by
  intro s
  have hs := hm s
  cases h : m s with
  | ok a s' =>
    rw [h] at hs
    rw [bind_apply_ok h, bind_apply_ok hs, hf a s']
  | error e s' =>
    rw [h] at hs
    rw [bind_apply_error h, bind_apply_error hs, mapState_error]

end Commutes

end AtlasProbe
