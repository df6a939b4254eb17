import AtlasProbe.Evtdig.QueryList

/-!
# The ring of queries along all calls

Whatever `tdig_init` and `tdig_delete` are called for, the queries that are in use form a ring.  The
counter `activeqry` is the number of these queries and of the calls of `tdig_init` that have failed:
it goes up before the options are checked, and down only for a query whose field `base` is set.
-/

namespace AtlasProbe.Evtdig

open List AtlasProbe.Ring Function
open Option (bind_eq_bind bind_some map_some isSome_some bind)
open QueryCell (base)

/-- The members, from the head of the list on, form a ring of queries with their `base` set. -/
structure Consistent (s : TdigBase) (members : List QueryAddr) : Prop where
  ring : IsRing s.next s.prev members
  head : s.qryHead = members.head?
  base : ∀ a ∈ members, (s.heap a).map base = some true

variable {s : TdigBase} {members : List QueryAddr} {a : QueryAddr}

lemma isSome_of_base (h : (s.heap a).map base = some true) : (s.heap a).isSome := by
  have hsome := congrArg Option.isSome h
  rwa [Option.isSome_map] at hsome

lemma Consistent.isSome (h : Consistent s members) (ha : a ∈ members) : (s.heap a).isSome :=
  isSome_of_base (h.base a ha)

/-- What is stored at an address that is not in the list does not matter. -/
lemma Consistent.update (h : Consistent s members) {qry : QueryAddr} (hqry : qry ∉ members)
    (count : UInt32) (cell : Option QueryCell) :
    Consistent { s with activeqry := count, heap := update s.heap qry cell } members := by
  have hne : ∀ a ∈ members, a ≠ qry := fun a ha h' => hqry (h' ▸ ha)
  refine ⟨h.ring.congr ?_ ?_, h.head, ?_⟩
  · intro a ha
    simp [TdigBase.next, hne a ha]
  · intro a ha
    simp [TdigBase.prev, hne a ha]
  · intro a ha
    simp [hne a ha, h.base a ha]

namespace TdigBase

/-! ### Insertion -/

variable {s : TdigBase} {qry head : QueryAddr} {members l : List QueryAddr} {cell : QueryCell}
  {args : InitArgs}

/-- A query that is allocated becomes the only member of the empty list. -/
lemma insertFirst_consistent (hbase : (s.heap qry).map base = some true) :
    ∃ t, s.insertFirst qry = some t ∧ Consistent t [qry] ∧ t.activeqry = s.activeqry := by
  have hsome := isSome_of_base hbase
  obtain ⟨s₁, h₁, hs₁⟩ := ((Rewired.refl s).setLink hsome (some qry)).2
  obtain ⟨s₂, h₂, hs₂⟩ := (hs₁.setLink hsome (some qry)).1
  refine ⟨{ s₂ with qryHead := some qry }, ?_, ⟨?_, rfl, ?_⟩, hs₂.activeqry⟩
  · simp [insertFirst, h₁, h₂]
  · refine ⟨nodup_singleton qry, isChain_pair.mpr ⟨?_, ?_⟩⟩
    · exact (congrFun hs₂.next_eq qry).trans (update_self ..)
    · exact (congrFun hs₂.prev_eq qry).trans (update_self ..)
  · intro a ha
    rw [mem_singleton.mp ha]
    exact (hs₂.base qry).trans hbase

/-- The first write of an insertion changes the `prev` of the head if it is the only member. -/
lemma exists_insertBehind_first (h : Consistent s (head :: l)) (qry : QueryAddr) :
    ∃ t prev, (if s.prev head = some head then s.setPrev head qry else some s) = some t ∧
      Rewired s s.next prev t ∧ ∀ x, x ≠ l.headD head → prev x = s.prev x := by
  by_cases hprev : s.prev head = some head
  · obtain ⟨t, ht, hrewired⟩ := ((Rewired.refl s).setLink (h.isSome mem_cons_self) (some qry)).2
    have hhead : l.headD head = head := by
      rw [h.ring.prev_eq, Option.some.injEq] at hprev
      cases l with
      | nil => rfl
      | cons b l =>
        rw [getLastD_cons] at hprev
        have hmem : head ∈ b :: l := hprev ▸ getLastD_mem_cons
        exact absurd hmem (nodup_cons.mp h.ring.nodup).1
    rw [if_pos hprev, hhead]
    exact ⟨t, _, ht, hrewired, fun x hx => update_of_ne hx ..⟩
  · rw [if_neg hprev]
    exact ⟨s, _, rfl, .refl s, fun _ _ => rfl⟩

/-- A query that is allocated and no member of the list becomes its second member.  When the list
has one member, its `prev` is written twice. -/
lemma insertBehind_consistent (h : Consistent s (head :: l)) (hqry : qry ∉ head :: l)
    (hbase : (s.heap qry).map base = some true) :
    ∃ t, s.insertBehind head qry = some t ∧ Consistent t (head :: qry :: l) ∧
      t.activeqry = s.activeqry := by
  have hsome := isSome_of_base hbase
  have hhead := h.isSome mem_cons_self
  have hnext := h.ring.next_eq
  have hb : l.headD head ∈ head :: l := by
    cases l with
    | nil => exact mem_cons_self
    | cons b l => exact mem_cons_of_mem _ mem_cons_self
  have hqb : l.headD head ≠ qry := fun h => hqry (h ▸ hb)
  have hqhead : head ≠ qry := fun h => hqry (h ▸ mem_cons_self)
  obtain ⟨s₁, prev₁, h₁, hs₁, hprev₁⟩ := exists_insertBehind_first h qry
  obtain ⟨s₂, h₂, hs₂⟩ := (hs₁.setLink hsome (some (l.headD head))).1
  obtain ⟨s₃, h₃, hs₃⟩ := (hs₂.setLink hsome (some head)).2
  obtain ⟨s₄, h₄, hs₄⟩ := (hs₃.setLink (h.isSome hb) (some qry)).2
  obtain ⟨s₅, h₅, hs₅⟩ := (hs₄.setLink hhead (some qry)).1
  refine ⟨s₅, ?_, ⟨?_, ?_, ?_⟩, hs₅.activeqry⟩
  · have hread₁ := hs₁.readNext hhead
    have hread₃ := hs₃.readNext hhead
    rw [hnext] at hread₁
    rw [update_of_ne hqhead, hnext] at hread₃
    simp only [insertBehind, (Rewired.refl s).readPrev hhead, bind_eq_bind, bind_some,
      h₁, hread₁, h₂, h₃, hread₃, h₄, h₅]
  · rw [hs₅.next_eq, hs₅.prev_eq]
    refine h.ring.insert hqry ?_ ?_ ?_ ?_ ?_ ?_
    · rw [update_of_ne hqhead.symm, update_self]
    · rw [update_of_ne hqb.symm, update_self]
    · exact update_self ..
    · exact update_self ..
    · intro x hx
      have hxhead : x ≠ head := fun h' => (nodup_cons.mp h.ring.nodup).1 (h' ▸ hx)
      have hxqry : x ≠ qry := fun h' => hqry (h' ▸ mem_cons_of_mem _ hx)
      rw [update_of_ne hxhead, update_of_ne hxqry]
    · intro x hx hxb
      have hxqry : x ≠ qry := fun h' => hqry (h' ▸ hx)
      rw [update_of_ne hxb, update_of_ne hxqry, hprev₁ x hxb]
  · exact hs₅.qryHead.trans h.head
  · intro a ha
    rw [hs₅.base a]
    rcases mem_cons.mp ((List.Perm.swap qry head l).mem_iff.mp ha) with rfl | ha
    · exact hbase
    · exact h.base a ha

/-- A query that is allocated and not in the list becomes a member of it. -/
lemma insert_consistent (h : Consistent s members) (hqry : qry ∉ members)
    (hsome : (s.heap qry).isSome) :
    ∃ t members', s.insert qry = some t ∧ Consistent t members' ∧
      members'.Perm (qry :: members) ∧ t.activeqry = s.activeqry := by
  obtain ⟨cell, hcell⟩ := Option.isSome_iff_exists.mp hsome
  -- Setting `base` keeps the links.
  have hmodify := modify_eq hcell ({ · with base := true })
  set s₁ : TdigBase :=
    { s with heap := update s.heap qry (some { cell with base := true }) } with hs₁
  have hbase : (s₁.heap qry).map base = some true := by simp [hs₁]
  have h₁ : Consistent s₁ members := h.update hqry s.activeqry _
  cases members with
  | nil =>
    obtain ⟨t, ht, hconsistent, hactive⟩ := insertFirst_consistent hbase
    refine ⟨t, [qry], ?_, hconsistent, List.Perm.refl _, hactive⟩
    rw [insert, hmodify, bind_eq_bind, bind_some, h₁.head]
    exact ht
  | cons head l =>
    obtain ⟨t, ht, hconsistent, hactive⟩ := insertBehind_consistent h₁ hqry hbase
    refine ⟨t, head :: qry :: l, ?_, hconsistent, List.Perm.swap qry head l, hactive⟩
    rw [insert, hmodify, bind_eq_bind, bind_some, h₁.head]
    exact ht

/-! ### Deletion -/

/-- The neighbours of a member that is not the only one are linked with each other. -/
lemma unlink_ring {a : QueryAddr} (hring : IsRing s.next s.prev (qry :: a :: l))
    (hbase : ∀ x ∈ qry :: a :: l, (s.heap x).map base = some true) :
    ∃ t, s.unlink qry = some t ∧ IsRing t.next t.prev (a :: l) ∧
      t.qryHead = (if s.qryHead = some qry then some a else s.qryHead) ∧
      t.activeqry = s.activeqry ∧
      ∀ x, (t.heap x).map base = (s.heap x).map base := by
  have hsome : ∀ x ∈ qry :: a :: l, (s.heap x).isSome := fun x hx => isSome_of_base (hbase x hx)
  have hnext : s.next qry = some a := hring.next_eq
  have hprev := hring.prev_eq
  set z := (a :: l).getLastD qry with hz
  have hzmem : z ∈ a :: l := by
    rw [hz, getLastD_cons]
    exact getLastD_mem_cons
  obtain ⟨hqry, hnodup⟩ := nodup_cons.mp hring.nodup
  have hqa : qry ≠ a := fun h => hqry (h ▸ mem_cons_self)
  have hqz : qry ≠ z := fun h => hqry (h ▸ hzmem)
  have hqsome := hsome qry mem_cons_self
  obtain ⟨cell, hcell⟩ := Option.isSome_iff_exists.mp hqsome
  obtain ⟨s₁, h₁, hs₁⟩ :=
    ((Rewired.refl s).setLink (hsome a (mem_cons_of_mem _ mem_cons_self)) (some z)).2
  obtain ⟨s₂, h₂, hs₂⟩ := (hs₁.setLink (hsome z (mem_cons_of_mem _ hzmem)) (some a)).1
  have hcellnext : cell.next = some a := by rwa [next, hcell] at hnext
  have hcellprev : cell.prev = some z := by rwa [prev, hcell] at hprev
  have hcellbase : cell.base = true := by
    have h := hbase qry mem_cons_self
    rwa [hcell, map_some, Option.some.injEq] at h
  have hreadPrev : s₁.readPrev qry = some (some z) := by
    rw [hs₁.readPrev hqsome, update_of_ne hqa, hprev]
  have hreadNext₁ : s₁.readNext qry = some (some a) := by rw [hs₁.readNext hqsome, hnext]
  have hreadNext₂ : s₂.readNext qry = some (some a) := by
    rw [hs₂.readNext hqsome, update_of_ne hqz, hnext]
  have hother : ¬(some a = some z ∧ some a = some qry) := by
    rintro ⟨-, h⟩
    exact hqa (Option.some.inj h).symm
  have hunlink : s.unlink qry =
      some (if s₂.qryHead = some qry then { s₂ with qryHead := some a } else s₂) := by
    simp only [unlink, bind_eq_bind, bind_some, hcell, hcellnext, hcellprev,
      hcellbase, if_neg hother, isSome_some, if_true, true_and, h₁,
      hreadPrev, hreadNext₁, h₂, hreadNext₂]
  have hring₂ : IsRing s₂.next s₂.prev (a :: l) := by
    rw [hs₂.next_eq, hs₂.prev_eq]
    refine hring.remove ?_ ?_ ?_ ?_
    · exact update_self ..
    · rw [update_self, hprev]
    · intro x hx hxz
      exact update_of_ne hxz ..
    · intro x hx
      have hxa : x ≠ a := fun h => (nodup_cons.mp hnodup).1 (h ▸ hx)
      exact update_of_ne hxa ..
  refine ⟨_, hunlink, ?_, ?_, ?_, ?_⟩
  all_goals rw [hs₂.qryHead]; split_ifs with hhead
  all_goals first
    | exact hring₂
    | exact hs₂.activeqry
    | exact hs₂.base
    | exact hs₂.qryHead
    | rfl

/-- A member of the list is taken out of it. -/
lemma unlink_consistent (h : Consistent s members) (hqry : qry ∈ members) :
    ∃ t members', s.unlink qry = some t ∧ Consistent t members' ∧ members.Perm (qry :: members') ∧
      t.activeqry = s.activeqry ∧ (t.heap qry).map base = some true := by
  obtain ⟨rest, hring, hperm⟩ := h.ring.exists_cons hqry
  have hbase : ∀ x ∈ qry :: rest, (s.heap x).map base = some true := fun x hx =>
    h.base x (hperm.mem_iff.mp hx)
  cases rest with
  | nil =>
    obtain ⟨cell, hcell⟩ := Option.isSome_iff_exists.mp (h.isSome hqry)
    have hnext := hring.next_eq
    have hprev := hring.prev_eq
    rw [next, hcell, bind_some] at hnext
    rw [prev, hcell, bind_some] at hprev
    have hcellbase : cell.base = true := by
      have h := h.base qry hqry
      rwa [hcell, map_some, Option.some.injEq] at h
    refine ⟨{ s with qryHead := none }, [], ?_, ⟨trivial, rfl, ?_⟩,
      hperm.symm, rfl, h.base qry hqry⟩
    · simp [unlink, hcell, hnext, hprev, hcellbase]
    · simp
  | cons a l =>
    obtain ⟨t, ht, hring', hhead, hactive, hsame⟩ := unlink_ring hring hbase
    have hbase' : ∀ x ∈ a :: l, (t.heap x).map base = some true := fun x hx =>
      (hsame x).trans (hbase x (mem_cons_of_mem _ hx))
    obtain ⟨head, hthead, hmem⟩ : ∃ head, t.qryHead = some head ∧ head ∈ a :: l := by
      obtain ⟨first, tail, rfl⟩ := exists_cons_of_ne_nil (ne_nil_of_mem hqry)
      simp only [h.head, head?_cons, Option.some.injEq] at hhead
      by_cases hfirst : first = qry
      · exact ⟨a, hhead.trans (if_pos hfirst), mem_cons_self⟩
      · have hmem := hperm.mem_iff.mpr (mem_cons_self)
        exact ⟨first, hhead.trans (if_neg hfirst), (mem_cons.mp hmem).resolve_left hfirst⟩
    -- The ring is read from the head on.
    obtain ⟨rest, hring'', hperm'⟩ := hring'.exists_cons hmem
    refine ⟨t, head :: rest, ht, ⟨hring'', hthead, fun x hx => hbase' x (hperm'.mem_iff.mp hx)⟩, ?_,
      hactive, (hsame qry).trans (h.base qry hqry)⟩
    exact hperm.symm.trans (hperm'.symm.cons qry)

/-- A query that is busy is not deleted. -/
lemma tdigDelete_busy (hcell : s.heap qry = some cell) (hqst : cell.qst ≠ .free) :
    s.tdigDelete qry = some (s, 0) := by
  simp [tdigDelete, hcell, hqst]

/-- A member of the list that is not busy is taken out of it and freed. -/
lemma tdigDelete_free (h : Consistent s members) (hqry : qry ∈ members)
    (hcell : s.heap qry = some cell) (hqst : cell.qst = .free) :
    ∃ t members', s.tdigDelete qry = some (t, 1) ∧ Consistent t members' ∧
      members.Perm (qry :: members') ∧ t.activeqry = s.activeqry - 1 := by
  obtain ⟨t, members', hunlink, hconsistent, hperm, hactive, hbase⟩ := unlink_consistent h hqry
  obtain ⟨cell', hcell', hbase'⟩ := Option.map_eq_some_iff.mp hbase
  have hnot : qry ∉ members' := (nodup_cons.mp (hperm.nodup_iff.mp h.ring.nodup)).1
  refine ⟨_, members', ?_, hconsistent.update hnot (s.activeqry - 1) none, hperm, rfl⟩
  simp [tdigDelete, hcell, hqst, hunlink, hcell', hbase', hactive]

/-- A query that has not been put into the list yet is only freed. -/
lemma tdigDelete_fresh (hcell : s.heap qry = some {}) :
    s.tdigDelete qry = some ({ s with heap := update s.heap qry none }, 1) := by
  simp [tdigDelete, unlink, readNext, readPrev, hcell]

/-! ### `tdig_init` -/

lemma allocate_heap_self (s : TdigBase) (qry : QueryAddr) : (s.allocate qry).heap qry = some {} :=
  update_self ..

lemma allocate_consistent (h : Consistent s members) (hqry : qry ∉ members) :
    Consistent (s.allocate qry) members :=
  h.update hqry (s.activeqry + 1) (some {})

/-- A call of `tdig_init` whose checks do not all pass adds to the counter and keeps the list. -/
lemma tdigInit_rejected (h : Consistent s members) (hqry : qry ∉ members)
    (hargs : args.accepted = false) :
    ∃ t, s.tdigInit qry args = some (t, none) ∧ Consistent t members ∧
      t.activeqry = s.activeqry + 1 := by
  have hallocated := allocate_consistent h hqry
  have hdelete := tdigDelete_fresh (s.allocate_heap_self qry)
  have hfreed := hallocated.update hqry (s.activeqry + 1) none
  unfold InitArgs.accepted at hargs
  cases hopts : args.opts.foldlM OptState.step {} with
  | none =>
    refine ⟨_, ?_, hfreed, rfl⟩
    simp only [tdigInit, hopts]
    exact congrArg (bind · _) hdelete
  | some o =>
    rw [hopts] at hargs
    by_cases hprocess : args.argProcess o = true
    · have hcookie : args.cookieOk o = false := by simpa [hprocess] using hargs
      refine ⟨s.allocate qry, ?_, hallocated, rfl⟩
      simp [tdigInit, hopts, hprocess, hcookie]
    · refine ⟨_, ?_, hfreed, rfl⟩
      simp only [tdigInit, hopts] at hprocess ⊢
      simp only [hprocess, Bool.not_false]
      exact congrArg (bind · _) hdelete

/-- A call of `tdig_init` whose checks pass adds the query to the list. -/
lemma tdigInit_accepted (h : Consistent s members) (hqry : qry ∉ members)
    (hargs : args.accepted = true) :
    ∃ t members', s.tdigInit qry args = some (t, some qry) ∧ Consistent t members' ∧
      members'.Perm (qry :: members) ∧ t.activeqry = s.activeqry + 1 := by
  have hsome : ((s.allocate qry).heap qry).isSome := by rw [s.allocate_heap_self qry]; rfl
  obtain ⟨t, members', hinsert, hconsistent, hperm, hactive⟩ :=
    insert_consistent (allocate_consistent h hqry) hqry hsome
  refine ⟨t, members', ?_, hconsistent, hperm, hactive⟩
  unfold InitArgs.accepted at hargs
  cases hopts : args.opts.foldlM OptState.step {} with
  | none => simp [hopts] at hargs
  | some o =>
    simp only [hopts, Bool.and_eq_true] at hargs
    simp [tdigInit, hopts, hargs.1, hargs.2, hinsert]

end TdigBase

/-! ### All calls -/

/-- A call and what it returns.  Between the calls the other functions change the status of queries
that are in use. -/
inductive QueryEvent where
  | init (args : InitArgs) (result : Option QueryAddr)
  | delete (qry : QueryAddr) (result : ℕ)
  | status (qry : QueryAddr) (qst : Status)

/-- The queries that have been initialised and not been deleted since. -/
def live (es : List QueryEvent) : List QueryAddr :=
  es.foldl (fun queries e =>
    match e with
    | .init _ (some qry) => qry :: queries
    | .delete qry 1 => queries.erase qry
    | _ => queries) []

/-- A call of `tdig_init` one of whose checks fails. -/
def QueryEvent.rejected : QueryEvent → Bool
  | .init args _ => !args.accepted
  | _ => false

open QueryEvent (rejected)

/-- The states after all calls: `tdig_init` gets any address that is not in use, and `tdig_delete`
is called for a query that is in use. -/
inductive Reached : List QueryEvent → TdigBase → Prop
  | new : Reached [] tdigBaseNew
  | init {es : List QueryEvent} {s t : TdigBase} {qry : QueryAddr} {args : InitArgs}
      {result : Option QueryAddr} : Reached es s → s.heap qry = none →
      s.tdigInit qry args = some (t, result) → Reached (es ++ [.init args result]) t
  | delete {es : List QueryEvent} {s t : TdigBase} {qry : QueryAddr} {result : ℕ} :
      Reached es s → qry ∈ live es → s.tdigDelete qry = some (t, result) →
      Reached (es ++ [.delete qry result]) t
  | status {es : List QueryEvent} {s t : TdigBase} {qry : QueryAddr} {qst : Status} :
      Reached es s → qry ∈ live es → s.modify qry ({ · with qst := qst }) = some t →
      Reached (es ++ [.status qry qst]) t

lemma live_concat (es : List QueryEvent) (e : QueryEvent) :
    live (es ++ [e]) =
      match e with
      | .init _ (some qry) => qry :: live es
      | .delete qry 1 => (live es).erase qry
      | _ => live es := foldl_append

/-- The members of the ring are the queries in use, and the counter is the number of these queries
and of the calls of `tdig_init` that were rejected. -/
def Counted (es : List QueryEvent) (s : TdigBase) : Prop :=
  ∃ members, Consistent s members ∧ members.Perm (live es) ∧
    s.activeqry = UInt32.ofNat (members.length + es.countP rejected)

section Step

variable {es : List QueryEvent} {s t : TdigBase} {qry : QueryAddr}

/-- An address that is not in use is not in the list. -/
lemma Consistent.notMem {members : List QueryAddr} (h : Consistent s members)
    (hfree : s.heap qry = none) : qry ∉ members := by
  intro hmem
  have hsome := h.isSome hmem
  rw [hfree] at hsome
  exact absurd hsome Bool.false_ne_true

lemma Counted.init {args : InitArgs} {result : Option QueryAddr} (h : Counted es s)
    (hfree : s.heap qry = none) (hinit : s.tdigInit qry args = some (t, result)) :
    Counted (es ++ [.init args result]) t := by
  obtain ⟨members, hconsistent, hperm, hactive⟩ := h
  have hqry := hconsistent.notMem hfree
  -- Either the list or the number of rejected calls grows by one.
  have hnext : ∀ n, n = members.length + es.countP rejected + 1 →
      s.activeqry + 1 = UInt32.ofNat n := by
    rintro n rfl
    rw [hactive, UInt32.ofNat_add _ 1]
    rfl
  by_cases hargs : args.accepted = true
  · obtain ⟨u, members', hu, hconsistent', hperm', hactive'⟩ :=
      TdigBase.tdigInit_accepted hconsistent hqry hargs
    obtain ⟨rfl, rfl⟩ : u = t ∧ some qry = result := by simpa [hu] using hinit
    refine ⟨members', hconsistent', ?_, hactive'.trans (hnext _ ?_)⟩
    · rw [live_concat]
      exact hperm'.trans (hperm.cons qry)
    · rw [hperm'.length_eq]
      simp [rejected, hargs]
      omega
  · rw [Bool.not_eq_true] at hargs
    obtain ⟨u, hu, hconsistent', hactive'⟩ := TdigBase.tdigInit_rejected hconsistent hqry hargs
    obtain ⟨rfl, rfl⟩ : u = t ∧ none = result := by simpa [hu] using hinit
    refine ⟨members, hconsistent', ?_, hactive'.trans (hnext _ ?_)⟩
    · rwa [live_concat]
    · simp [rejected, hargs, Nat.add_assoc]

lemma Counted.delete {result : ℕ} (h : Counted es s) (hqry : qry ∈ live es)
    (hdelete : s.tdigDelete qry = some (t, result)) : Counted (es ++ [.delete qry result]) t := by
  obtain ⟨members, hconsistent, hperm, hactive⟩ := h
  have hmem := hperm.mem_iff.mpr hqry
  obtain ⟨cell, hcell⟩ := Option.isSome_iff_exists.mp (hconsistent.isSome hmem)
  have hcount : (es ++ [QueryEvent.delete qry result]).countP rejected =
      es.countP rejected := by
    rw [countP_append]
    rfl
  by_cases hqst : cell.qst = .free
  · obtain ⟨u, members', hu, hconsistent', hperm', hactive'⟩ :=
      TdigBase.tdigDelete_free hconsistent hmem hcell hqst
    obtain ⟨rfl, rfl⟩ : u = t ∧ 1 = result := by simpa [hu] using hdelete
    refine ⟨members', hconsistent', ?_, ?_⟩
    · rw [live_concat]
      have herase := (hperm'.symm.trans hperm).erase qry
      rwa [erase_cons_head] at herase
    · rw [hactive', hactive, hcount, hperm'.length_eq, length_cons, Nat.add_right_comm,
        UInt32.ofNat_add _ 1]
      exact UInt32.add_sub_cancel ..
  · obtain ⟨rfl, rfl⟩ : s = t ∧ 0 = result := by
      simpa [TdigBase.tdigDelete_busy hcell hqst] using hdelete
    refine ⟨members, hconsistent, ?_, hcount ▸ hactive⟩
    rwa [live_concat]

lemma Counted.status {qst : Status} (h : Counted es s) (hqry : qry ∈ live es)
    (hmodify : s.modify qry ({ · with qst := qst }) = some t) :
    Counted (es ++ [.status qry qst]) t := by
  obtain ⟨members, hconsistent, hperm, hactive⟩ := h
  obtain ⟨cell, hcell⟩ := Option.isSome_iff_exists.mp (hconsistent.isSome (hperm.mem_iff.mpr hqry))
  rw [TdigBase.modify_eq hcell, Option.some.injEq] at hmodify
  subst hmodify
  refine ⟨members, ⟨hconsistent.ring.congr ?_ ?_, hconsistent.head, ?_⟩, ?_, ?_⟩
  · intro a _
    by_cases ha : a = qry
    · simp [TdigBase.next, ha, hcell]
    · simp [TdigBase.next, ha]
  · intro a _
    by_cases ha : a = qry
    · simp [TdigBase.prev, ha, hcell]
    · simp [TdigBase.prev, ha]
  · intro a hmem
    have hbase := hconsistent.base a hmem
    by_cases ha : a = qry
    · subst ha
      simpa [hcell] using hbase
    · simpa [ha] using hbase
  · rwa [live_concat]
  · rw [countP_append]
    exact hactive

end Step

lemma Reached.counted {es : List QueryEvent} (h : Reached es s) : Counted es s := by
  induction h with
  | new => exact ⟨[], ⟨trivial, rfl, by simp⟩, List.Perm.refl _, rfl⟩
  | init _ hfree hinit ih => exact ih.init hfree hinit
  | delete _ hqry hdelete ih => exact ih.delete hqry hdelete
  | status _ hqry hmodify ih => exact ih.status hqry hmodify

/-- After any calls, the queries in use form one ring with the head of the list in it, and neither
function will follow a null pointer or one to a query that has been freed.  The counter `activeqry`
is right as long as no call of `tdig_init` has failed (or a multiple of `2 ^ 32` of them). -/
theorem queries_form_ring {es : List QueryEvent} {s : TdigBase} (h : Reached es s) :
    (∃ members, members.Perm (live es) ∧ IsRing s.next s.prev members ∧
        s.qryHead = members.head?) ∧
      (∀ qry args, s.heap qry = none → (s.tdigInit qry args).isSome) ∧
      (∀ qry ∈ live es, (s.tdigDelete qry).isSome) ∧
      (s.activeqry = UInt32.ofNat (live es).length ↔ es.countP rejected % 2 ^ 32 = 0) := by
  obtain ⟨members, hconsistent, hperm, hactive⟩ := h.counted
  refine ⟨⟨members, hperm, hconsistent.ring, hconsistent.head⟩, ?_, ?_, ?_⟩
  · intro qry args hfree
    have hqry := hconsistent.notMem hfree
    by_cases hargs : args.accepted = true
    · obtain ⟨t, _, ht, -⟩ := TdigBase.tdigInit_accepted hconsistent hqry hargs
      rw [ht, isSome_some]
    · rw [Bool.not_eq_true] at hargs
      obtain ⟨t, ht, -⟩ := TdigBase.tdigInit_rejected hconsistent hqry hargs
      rw [ht, isSome_some]
  · intro qry hqry
    have hmem := hperm.mem_iff.mpr hqry
    obtain ⟨cell, hcell⟩ := Option.isSome_iff_exists.mp (hconsistent.isSome hmem)
    by_cases hqst : cell.qst = .free
    · obtain ⟨t, _, ht, -⟩ := TdigBase.tdigDelete_free hconsistent hmem hcell hqst
      rw [ht, isSome_some]
    · rw [TdigBase.tdigDelete_busy hcell hqst, isSome_some]
  · rw [hactive, hperm.length_eq, ← UInt32.toNat_inj, UInt32.toNat_ofNat', UInt32.toNat_ofNat']
    omega

/-- A command line with a name and a server. -/
def plainArgs : InitArgs where
  opts := [.lookup ⟨ascii "example.org.", by decide⟩]
  server := true
  atlasUnsafe := false
  spooldir := ⟨ascii "/var/spool/ripe-atlas", Libbb.zero_notMem_spool⟩
  before := 0
  urandom := none

/-- Two queries are initialised and the first one is deleted. -/
theorem queries_form_ring_plain :
    ∃ s, Reached [.init plainArgs (some 0), .init plainArgs (some 1), .delete 0 1] s ∧
      s.activeqry = 1 ∧ s.qryHead = some 1 := by
  have h₁ : Reached ([] ++ [.init plainArgs (some 0)]) _ :=
    .init .new (show tdigBaseNew.heap 0 = none from rfl) rfl
  have h₂ : Reached ([.init plainArgs (some 0)] ++ [.init plainArgs (some 1)]) _ :=
    .init h₁ (show TdigBase.heap _ 1 = none from rfl) rfl
  have h₃ : Reached ([.init plainArgs (some 0), .init plainArgs (some 1)] ++ [.delete 0 1]) _ :=
    .delete h₂ (by decide) rfl
  obtain ⟨s, h⟩ :
      ∃ s, Reached [.init plainArgs (some 0), .init plainArgs (some 1), .delete 0 1] s :=
    ⟨_, h₃⟩
  obtain ⟨⟨members, hperm, -, hhead⟩, -, -, hactive⟩ := queries_form_ring h
  refine ⟨s, h, hactive.mpr (by decide), ?_⟩
  rw [hhead, perm_singleton.mp hperm, head?_cons]

/-- A call with an option that is not known leaves a query in the counter but none in the list. -/
theorem queries_rejected_counted :
    ∃ s, Reached [.init { plainArgs with opts := [.unknown] } none] s ∧ s.qryHead = none ∧
      live [.init { plainArgs with opts := [.unknown] } none] = [] ∧ s.activeqry = 1 := by
  have h : Reached ([] ++ [.init { plainArgs with opts := [.unknown] } none]) _ :=
    .init .new (show tdigBaseNew.heap 0 = none from rfl) rfl
  exact ⟨_, h, rfl, rfl, rfl⟩

end AtlasProbe.Evtdig
