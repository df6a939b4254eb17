import Mathlib.Data.List.Basic

/-!
# Traces of events

A trace is a list of events with the newest one in front, so that the list behind an event is its
past (`Lawful`).
-/

namespace AtlasProbe.Trace

open List

variable {ε β : Type*}

/-- What the events of a trace contribute, in the order in which they happened. -/
def gather (f : ε → List β) : List ε → List β
  | [] => []
  | e :: past => gather f past ++ f e

/-- Every event of the trace is in the relation `P` to its past. -/
def Lawful (P : ε → List ε → Prop) : List ε → Prop
  | [] => True
  | e :: past => P e past ∧ Lawful P past

variable {f : ε → List β} {P : ε → List ε → Prop} {e : ε} {later past : List ε}

lemma gather_cons_of_nil (h : f e = []) : gather f (e :: past) = gather f past := by
  rw [gather, h, append_nil]

/-- The past comes first. -/
lemma gather_append (later past : List ε) :
    gather f (later ++ past) = gather f past ++ gather f later := by
  induction later with
  | nil => exact (append_nil _).symm
  | cons e later ih => rw [cons_append, gather, ih, append_assoc, gather]

lemma gather_eq_nil (h : ∀ e ∈ past, f e = []) : gather f past = [] := by
  induction past with
  | nil => rfl
  | cons e past ih =>
    rw [gather_cons_of_nil (h e mem_cons_self)]
    exact ih fun d hd => h d (mem_cons_of_mem _ hd)

/-- Events that contribute nothing can be left out. -/
lemma gather_append_of_nil (h : ∀ e ∈ later, f e = []) :
    gather f (later ++ past) = gather f past := by
  rw [gather_append, gather_eq_nil h, append_nil]

/-- The past of a lawful trace is lawful. -/
lemma Lawful.of_append (h : Lawful P (later ++ past)) : Lawful P past := by
  induction later with
  | nil => exact h
  | cons _ later ih => exact ih h.2

end AtlasProbe.Trace
