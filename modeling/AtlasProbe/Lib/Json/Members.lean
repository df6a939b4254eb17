import AtlasProbe.Lib.Json.Print

/-!
# Texts that are parts of objects and arrays

A text that is put together piece by piece is JSON if every piece is a value (`IsValue`), a member
(`StartsMembers`), a further member (`AddsMembers`) or a further element (`AddsElements`), wherever
it stands.  A text may also lead from one place to another (`Leads`).
-/

namespace AtlasProbe.Json

/-! ### Places -/

/-- A place in a text: what the machine may expect there, and what is open. -/
structure Place where
  mode : Mode → Prop
  stack : List Ctx

/-- A text that leads from one place to another, whatever else is open. -/
def Leads (p q : Place) (t : Bytes) : Prop :=
  ∀ st m, p.mode m → ∃ m', q.mode m' ∧ run ⟨m, p.stack ++ st⟩ t = some ⟨m', q.stack ++ st⟩

/-- The place behind a value. -/
def behind (c : List Ctx) : Place := ⟨fun m => m.ends = true, c⟩

/-- The place where an array begins. -/
def inArray (c : List Ctx) : Place := ⟨fun m => m = .first, .array :: c⟩

/-- The place where an object begins. -/
def inObject (c : List Ctx) : Place := ⟨fun m => m = .firstKey, .object :: c⟩

/-- A place where an object may end. -/
def endObject (c : List Ctx) : Place := ⟨fun m => m = .firstKey ∨ m.ends = true, .object :: c⟩

lemma Leads.append {p q r : Place} {t u : Bytes} (h : Leads p q t) (h' : Leads q r u) :
    Leads p r (t ++ u) := by
  intro st m hm
  obtain ⟨m', hm', ht⟩ := h st m hm
  obtain ⟨m'', hm'', hu⟩ := h' st m' hm'
  exact ⟨m'', hm'', (run_append_of_some ht u).trans hu⟩

/-! ### Values -/

section Values

variable {st : List Ctx} {m : Mode} {t u : Bytes} {b : UInt8} {s : State}

/-- A text that is a value, wherever one is expected. -/
def IsValue (t : Bytes) : Prop :=
  ∀ st, ∃ m : Mode, m.ends = true ∧ run ⟨.value, st⟩ t = some ⟨m, st⟩

lemma IsNumber.isValue (h : IsNumber t) : IsValue t := by
  intro st
  obtain ⟨n, hn, hrun⟩ := h.run
  exact ⟨.num n, hn, hrun⟩

/-- A string in quotes. -/
lemma IsContent.isValue (h : IsContent t) : IsValue (34 :: (t ++ [34])) := by
  intro st
  refine ⟨.after, rfl, ?_⟩
  have hopen : step ⟨.value, st⟩ 34 = some ⟨.str false, st⟩ := rfl
  rw [run_cons hopen, run_append_of_some h.run]
  rfl

lemma isValue_true : IsValue [116, 114, 117, 101] := fun _ => ⟨.after, rfl, rfl⟩

/-- A blank in front of a value. -/
lemma IsValue.blank (h : IsValue t) : IsValue (32 :: t) := fun st => h st

end Values

/-! ### Members of objects -/

/-- A text that is one member or more, where a key is expected. -/
def StartsMembers (t : Bytes) : Prop :=
  ∀ st, ∃ m : Mode, m.ends = true ∧ run ⟨.key, .object :: st⟩ t = some ⟨m, .object :: st⟩

/-- A text that is further members, or nothing. -/
def AddsMembers (t : Bytes) : Prop :=
  ∀ st (m : Mode), m.ends = true → ∃ m' : Mode, m'.ends = true ∧
    run ⟨m, .object :: st⟩ t = some ⟨m', .object :: st⟩

section Members

variable {st : List Ctx} {m : Mode} {t u name : Bytes}

lemma addsMembers_nil : AddsMembers [] := fun _ m hm => ⟨m, hm, rfl⟩

lemma AddsMembers.append (h : AddsMembers t) (h' : AddsMembers u) : AddsMembers (t ++ u) :=
  Leads.append (p := behind [.object]) (q := behind [.object]) (r := behind [.object]) h h'

lemma AddsMembers.ite {c : Prop} [Decidable c] (h : AddsMembers t) (h' : AddsMembers u) :
    AddsMembers (if c then t else u) := by
  split
  · exact h
  · exact h'

/-- Members that are there under a condition. -/
lemma AddsMembers.whenever {c : Prop} [Decidable c] (h : c → AddsMembers t) :
    AddsMembers (if c then t else []) := by
  split
  · next hc => exact h hc
  · exact addsMembers_nil

lemma StartsMembers.append (h : StartsMembers t) (h' : AddsMembers u) : StartsMembers (t ++ u) := by
  intro st
  obtain ⟨m, hm, ht⟩ := h st
  obtain ⟨m', hm', hu⟩ := h' st m hm
  exact ⟨m', hm', (run_append_of_some ht u).trans hu⟩

/-- A key, a colon and a value. -/
lemma startsMembers_member (hname : Plain name) (h : IsValue t) :
    StartsMembers (34 :: (name ++ 34 :: 58 :: t)) := by
  intro st
  obtain ⟨m, hm, ht⟩ := h (.object :: st)
  refine ⟨m, hm, ?_⟩
  have hopen : step ⟨.key, .object :: st⟩ 34 = some ⟨.str true, .object :: st⟩ := rfl
  rw [run_cons hopen, run_append_of_some hname.content.run]
  exact ht

lemma IsMember.startsMembers (h : IsMember t) : StartsMembers t := by
  intro st
  obtain ⟨m, hm, hrun⟩ := Gram.run h st
  exact ⟨m, hm, hrun ⟨m, .object :: st⟩ hm rfl⟩

lemma StartsMembers.blank (h : StartsMembers t) : StartsMembers (32 :: t) := fun st => h st

/-- Members behind others. -/
lemma StartsMembers.comma (h : StartsMembers t) : AddsMembers (44 :: t) := by
  intro st m hm
  obtain ⟨m', hm', ht⟩ := h st
  exact ⟨m', hm', (run_ends hm rfl t).trans ht⟩

lemma StartsMembers.run (h : StartsMembers t) (hm : m = .key ∨ m = .firstKey) (st : List Ctx) :
    ∃ m' : Mode, m'.ends = true ∧ Json.run ⟨m, .object :: st⟩ t = some ⟨m', .object :: st⟩ := by
  obtain ⟨m', hm', ht⟩ := h st
  refine ⟨m', hm', ?_⟩
  rcases hm with rfl | rfl
  · exact ht
  · exact run_firstKey ht (Mode.ne_of_ends hm' rfl)

/-- Members in braces. -/
lemma StartsMembers.isValue (h : StartsMembers t) : IsValue (123 :: (t ++ [125])) := by
  intro st
  obtain ⟨m, hm, ht⟩ := h.run (.inr rfl) st
  refine ⟨.after, rfl, ?_⟩
  have hopen : step ⟨.value, st⟩ 123 = some ⟨.firstKey, .object :: st⟩ := rfl
  rw [run_cons hopen, run_append_of_some ht]
  exact run_ends hm rfl []

/-- A blank behind members. -/
lemma addsMembers_blank : AddsMembers [32] := fun _ _ hm => ⟨.after, rfl, run_ends hm rfl []⟩

/-- Members in braces, with blanks. -/
lemma StartsMembers.object (h : StartsMembers t) : IsValue (123 :: 32 :: (t ++ [32, 125])) := by
  have hvalue := (h.blank.append addsMembers_blank).isValue
  rwa [List.append_assoc] at hvalue

end Members

/-! ### Elements of arrays -/

/-- A text that is further elements, or nothing. -/
def AddsElements (t : Bytes) : Prop :=
  ∀ st (m : Mode), m.ends = true → ∃ m' : Mode, m'.ends = true ∧
    run ⟨m, .array :: st⟩ t = some ⟨m', .array :: st⟩

/-- A text that is the elements of an array, or nothing. -/
def IsElements (t : Bytes) : Prop :=
  ∀ st, ∃ m : Mode, (m = .first ∨ m.ends = true) ∧
    run ⟨.first, .array :: st⟩ t = some ⟨m, .array :: st⟩

section Elements

variable {t u : Bytes}

lemma addsElements_nil : AddsElements [] := fun _ m hm => ⟨m, hm, rfl⟩

lemma isElements_nil : IsElements [] := fun _ => ⟨.first, .inl rfl, rfl⟩

lemma AddsElements.append (h : AddsElements t) (h' : AddsElements u) : AddsElements (t ++ u) :=
  Leads.append (p := behind [.array]) (q := behind [.array]) (r := behind [.array]) h h'

lemma AddsElements.flatMap {α : Type*} {l : List α} {f : α → Bytes}
    (h : ∀ x ∈ l, AddsElements (f x)) : AddsElements (l.flatMap f) := by
  induction l with
  | nil => exact addsElements_nil
  | cons x l ih =>
    obtain ⟨hx, hl⟩ := List.forall_mem_cons.1 h
    exact hx.append (ih hl)

/-- A value behind others. -/
lemma IsValue.comma (h : IsValue t) : AddsElements (44 :: t) := by
  intro st m hm
  obtain ⟨m', hm', ht⟩ := h (.array :: st)
  exact ⟨m', hm', (run_ends hm rfl t).trans ht⟩

/-- The first value, and others. -/
lemma IsValue.elements (h : IsValue t) (h' : AddsElements u) : IsElements (t ++ u) := by
  intro st
  obtain ⟨m, hm, ht⟩ := h (.array :: st)
  obtain ⟨m', hm', hu⟩ := h' st m hm
  refine ⟨m', .inr hm', ?_⟩
  rw [run_append_of_some (run_first ht (Mode.ne_of_ends hm rfl)), hu]

/-- Elements in brackets, with a blank in front of the last one. -/
lemma IsElements.isValue (h : IsElements t) : IsValue (91 :: (t ++ [32, 93])) := by
  intro st
  obtain ⟨m, hm, ht⟩ := h st
  refine ⟨.after, rfl, ?_⟩
  have hopen : step ⟨.value, st⟩ 91 = some ⟨.first, .array :: st⟩ := rfl
  rw [run_cons hopen, run_append_of_some ht]
  rcases hm with rfl | hm
  · rfl
  · exact (run_ends hm rfl [93]).trans rfl

lemma IsElements.blank (h : IsElements t) : IsElements (32 :: t) := fun st => h st

end Elements

/-! ### Texts that lead to a place -/

section Places

variable {p q : Place} {c : List Ctx} {m : Mode} {t : Bytes}

/-- An object that has just begun may end. -/
lemma Leads.endObject_of_inObject (h : Leads p (inObject c) t) : Leads p (endObject c) t := by
  intro st m hm
  obtain ⟨m', hm', ht⟩ := h st m hm
  exact ⟨m', .inl hm', ht⟩

/-- Behind a member an object may end. -/
lemma Leads.endObject_of_behind (h : Leads p (behind (.object :: c)) t) :
    Leads p (endObject c) t := by
  intro st m hm
  obtain ⟨m', hm', ht⟩ := h st m hm
  exact ⟨m', .inr hm', ht⟩

/-- A text that is read where an array begins. -/
lemma leads_inArray (hm : q.mode m)
    (h : ∀ st, run ⟨.first, .array :: c ++ st⟩ t = some ⟨m, q.stack ++ st⟩) :
    Leads (inArray c) q t := by
  rintro st _ rfl
  exact ⟨m, hm, h st⟩

/-- A text that is read behind a value. -/
lemma leads_behind {b : UInt8} (hm : q.mode m)
    (h : ∀ st, ((stepAfter (c ++ st) b).bind fun s => run s t) = some ⟨m, q.stack ++ st⟩) :
    Leads (behind c) q (b :: t) := by
  intro st m' hm'
  obtain ⟨s, hs, hrun⟩ := Option.bind_eq_some_iff.mp (h st)
  exact ⟨m, hm, (run_ends hm' hs t).trans hrun⟩

/-- A text with a blank in front that is read where an object may end. -/
lemma leads_endObject (hm : q.mode m)
    (hfirst : ∀ st, run ⟨.firstKey, .object :: c ++ st⟩ t = some ⟨m, q.stack ++ st⟩)
    (hafter : ∀ st, run ⟨.after, .object :: c ++ st⟩ t = some ⟨m, q.stack ++ st⟩) :
    Leads (endObject c) q (32 :: t) := by
  rintro st m' (rfl | hm')
  · exact ⟨m, hm, hfirst st⟩
  · exact ⟨m, hm, (run_ends hm' rfl t).trans (hafter st)⟩

lemma StartsMembers.leads (h : StartsMembers t) :
    Leads (inObject c) (behind (.object :: c)) t := by
  rintro st _ rfl
  exact h.run (.inr rfl) (c ++ st)

lemma AddsMembers.leads (h : AddsMembers t) :
    Leads (behind (.object :: c)) (behind (.object :: c)) t := fun st m hm => h (c ++ st) m hm

/-- A text that leads through an array is its elements. -/
lemma Leads.isElements (h : Leads (inArray []) (behind [.array]) t) : IsElements t := by
  intro st
  obtain ⟨m, hm, ht⟩ := h st .first rfl
  exact ⟨m, .inr hm, ht⟩

end Places

/-- A text that is an object, and a newline. -/
lemma IsValue.isJson {t : Bytes} (h : IsValue t) : IsJson (t ++ [10]) := by
  obtain ⟨m, hm, hrun⟩ := h []
  refine (accepts_iff _).1 ?_
  unfold accepts start
  have hnewline : stepAfter [] 10 = some ⟨.after, []⟩ := rfl
  rw [run_append_of_some hrun, run_ends hm hnewline]
  rfl

end AtlasProbe.Json
