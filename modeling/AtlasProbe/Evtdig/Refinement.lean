import AtlasProbe.Evtdig.Session
import AtlasProbe.Lib.Tasks
import AtlasProbe.Lib.Transition

/-!
# A query works off its resolvers

A query is a worker whose tasks are the servers it has to measure: the name of a server is resolved,
then the query waits for a reply, and it pauses before the next attempt.  This holds of every run in
which a send loop that ends with an error has not sent the query before: `noreply_timer` is not
deleted by `free_qry_inst`, and fires in the next query otherwise.
-/

namespace AtlasProbe.Evtdig

open List Tasks

/-! ### Send loops that end well -/

/-- The round of the send loop for the address does not leave the loop. -/
def Addr.usable (resolvConf : Bool) (a : Addr) : Bool :=
  a.socket.isNone && a.bound && (resolvConf || a.allowed) && a.connect.isNone && a.mkDnsBuff.isSome

/-- The send loop sends the query to one of the addresses. -/
def sendsOne (resolvConf : Bool) : List Addr → Bool
  | [] => false
  | a :: as => a.usable resolvConf && (a.send.isNone || sendsOne resolvConf as)

/-- The send loop ends without an error, where `err` is that of the last round. -/
def endsWell (resolvConf : Bool) (err : Bool) : List Addr → Bool
  | [] => !err
  | a :: as => a.usable resolvConf && endsWell resolvConf a.send.isSome as

/-- A start finds the query idle, and no answer to a DNS request makes the send loop send the query
and then end with an error. -/
def Qry.Clean (qry : Qry) : Event → Prop
  | .start _ => qry.qst = .free
  | .dnsAnswer a as =>
    qry.optProto = .udp → sendsOne qry.optResolvConf (a :: as) = true →
      endsWell qry.optResolvConf false (a :: as) = true
  | _ => True

/-- The steps that are clean. -/
def CleanStep (qry : Qry) (e : Event) (qry' : Qry) : Prop := Step qry e qry' ∧ qry.Clean e

/-- The clean steps up to the next start. -/
def CleanStepWithin (qry : Qry) (e : Event) (qry' : Qry) : Prop :=
  CleanStep qry e qry' ∧ e.isStart = false

/-! ### What `printReply` and `free_qry_inst` do -/

/-- The pending calls behind `free_qry_inst`, but for `next_qry_timer`. -/
def Events.freed (proto : Proto) (events : Events) : Events :=
  match proto with
  | .udp => { events with readEvent := false }
  | .tcp => { events with readEvent := false, timer := false, bev := false }

variable {qry : Qry} (answer : Option Bytes) (nslist : List Bytes)

/-- `free_qry_inst` when there is another resolver. -/
lemma freeQryInst_next (hconf : qry.optResolvConf = true) (hlt : qry.resolvI < qry.resolvMax) :
    qry.freeQryInst = { qry with
      err := bufInit
      serverName := qry.nslist[qry.resolvI]?
      qst := .nextQuery
      events := { qry.events.freed qry.optProto with nextQryTimer := true } } := by
  unfold Qry.freeQryInst Events.freed
  cases qry.optProto <;> simp [hconf, hlt, Qry.tuCleanup]

/-- `free_qry_inst` when there is no other resolver. -/
lemma freeQryInst_last (h : qry.optResolvConf = true → qry.resolvMax ≤ qry.resolvI) :
    qry.freeQryInst = { qry with
      err := bufInit
      nslist := []
      qst := if qry.qst = .retransmitQuery then .retransmitQuery else .free
      events := qry.events.freed qry.optProto } := by
  unfold Qry.freeQryInst Events.freed
  have hnot : ¬ (qry.optResolvConf = true ∧ qry.resolvI < qry.resolvMax) :=
    fun ⟨hconf, hlt⟩ => absurd (h hconf) (by omega)
  cases qry.optProto <;> simp [hnot, Qry.tuCleanup]

/-- `printReply` when there is another resolver. -/
lemma printReply_next (hconf : qry.optResolvConf = true) (hlt : qry.resolvI + 1 < qry.resolvMax) :
    qry.printReply answer = { qry with
      err := bufInit
      retry := 0
      resolvI := qry.resolvI + 1
      result := qry.result ++ [qry.element answer]
      serverName := qry.nslist[qry.resolvI + 1]?
      qst := .nextQuery
      events := { qry.events.freed qry.optProto with nextQryTimer := true } } := by
  unfold Qry.printReply Qry.writeOut
  simp only [hconf, if_true, true_and, hlt]
  rw [freeQryInst_next rfl hlt]

/-- `printReply` for the last element. -/
lemma printReply_last (h : qry.optResolvConf = true → qry.resolvMax ≤ qry.resolvI + 1)
    (hqst : qry.qst ≠ .retransmitQuery) :
    qry.printReply answer = { qry with
      err := bufInit
      retry := 0
      resolvI := if qry.optResolvConf then qry.resolvI + 1 else qry.resolvI
      result := []
      written := qry.written ++ [.result (qry.result ++ [qry.element answer])]
      nslist := []
      qst := .free
      events := qry.events.freed qry.optProto } := by
  unfold Qry.printReply Qry.writeOut
  cases hconf : qry.optResolvConf with
  | false =>
    rw [freeQryInst_last (by simp)]
    simp [hqst]
  | true =>
    have hle := h hconf
    simp only [if_true, true_and, Nat.not_lt.2 hle]
    rw [freeQryInst_last (fun _ => hle)]
    simp [hqst]

/-- Another attempt with a resolver. -/
lemma retransmit_resolver (hretry : qry.retry < qry.optRetryMax) (hconf : qry.optResolvConf = true)
    (hlt : qry.resolvI < qry.resolvMax) :
    qry.retransmit = { qry with
      err := bufInit
      retry := qry.retry + 1
      serverName := qry.nslist[qry.resolvI]?
      qst := .nextQuery
      events := { qry.events.freed qry.optProto with nextQryTimer := true } } := by
  unfold Qry.retransmit
  rw [if_pos hretry, freeQryInst_next (by exact hconf) (by exact hlt)]

/-- Another attempt without `--resolv`. -/
lemma retransmit_single (hretry : qry.retry < qry.optRetryMax) (hconf : qry.optResolvConf = false) :
    qry.retransmit = { qry with
      err := bufInit
      retry := qry.retry + 1
      nslist := []
      qst := .retransmitQuery
      events := { qry.events.freed qry.optProto with nextQryTimer := true } } := by
  have hnot {P : Prop} : qry.optResolvConf = true → P := by simp [hconf]
  unfold Qry.retransmit
  rw [if_pos hretry, freeQryInst_last (by exact hnot)]
  rfl

/-! ### The plan of a run -/

/-- What identifies an element of a result: `subid` and `submax`, and the server. -/
abbrev Label : Type := Option (ℕ × ℕ) × Option Bytes

def Element.label (e : Element) : Label := (e.sub, e.target)

/-- The labels of a complete result set. -/
def resolverPlan (nslist : List Bytes) : List Label :=
  nslist.mapIdx fun i name => (some (i + 1, nslist.length), some name)

@[simp]
lemma length_resolverPlan : (resolverPlan nslist).length = nslist.length := length_mapIdx

lemma getElem?_resolverPlan {i : ℕ} (h : i < nslist.length) :
    (resolverPlan nslist)[i]? = some (some (i + 1, nslist.length), nslist[i]?) := by
  unfold resolverPlan
  rw [getElem?_mapIdx, getElem?_eq_getElem h]
  rfl

/-- The label of the next element, if the query is for the current server. -/
def Qry.label (qry : Qry) : Label :=
  (if qry.optResolvConf then some (qry.resolvI + 1, qry.resolvMax) else none, qry.serverName)

/-- A run that has printed the first `k` elements of its plan, and nothing else since the output was
`w`. -/
structure Underway (w : List Line) (plan : List Label) (k : ℕ) (qry : Qry) : Prop where
  written : qry.written = w
  result : qry.result.map Element.label = plan.take k
  index : qry.resolvI = k
  single : qry.optResolvConf = false → plan = [(none, qry.serverName)]
  resolvers : qry.optResolvConf = true → plan = resolverPlan qry.nslist
  count : qry.optResolvConf = true → qry.resolvMax = qry.nslist.length
  server : qry.optResolvConf = true → qry.serverName = qry.nslist[k]?

/-- A run that has written its result. -/
structure Written (w : List Line) (plan : List Label) (qry : Qry) : Prop where
  written : ∃ es, qry.written = w ++ [.result es] ∧ es.map Element.label = plan
  retry : qry.retry = 0
  result : qry.result = []
  index : qry.optResolvConf = true → qry.resolvMax ≤ qry.resolvI

section Underway

variable {w : List Line} {plan : List Label} {k : ℕ} {qry : Qry}

/-- The next element is that of the plan. -/
lemma Underway.label (h : Underway w plan k qry) (hk : k < plan.length) :
    plan[k]? = some qry.label := by
  unfold Qry.label
  cases hconf : qry.optResolvConf with
  | false =>
    rw [h.single hconf] at hk ⊢
    obtain rfl : k = 0 := by simpa using hk
    rfl
  | true =>
    rw [h.resolvers hconf, length_resolverPlan] at hk
    rw [h.resolvers hconf, getElem?_resolverPlan _ hk, h.index, h.count hconf, h.server hconf]
    rfl

/-- The elements after the next one has been added. -/
lemma Underway.result_append (h : Underway w plan k qry) (hk : k < plan.length)
    (htarget : qry.target = qry.serverName) (answer : Option Bytes) :
    (qry.result ++ [qry.element answer]).map Element.label = plan.take (k + 1) := by
  rw [map_append, h.result, take_add_one, h.label hk]
  unfold Element.label Qry.element Qry.label
  rw [htarget]
  rfl

/-- With `--resolv`, the plan has an element for each resolver. -/
lemma Underway.length_plan (h : Underway w plan k qry) (hconf : qry.optResolvConf = true) :
    plan.length = qry.resolvMax := by
  rw [h.count hconf, h.resolvers hconf, length_resolverPlan]

end Underway

/-! ### The abstract worker -/

/-- The calls that are pending in each phase. -/
def pendingEvents (proto : Proto) : Phase → Events
  | .paused => { nextQryTimer := true }
  | .preparing => { dns := 1 }
  | .waiting =>
    match proto with
    | .udp => { noreplyTimer := true, readEvent := true }
    | .tcp => { timer := true, bev := true }
  | .finished => {}

/-- The values of `qst` in each phase. -/
def IsStatus (proto : Proto) : Phase → Status → Prop
  | .paused, qst => qst = .nextQuery ∨ qst = .retransmitQuery
  | .preparing, qst => qst = .dnsResolv
  | .waiting, qst => qst = match proto with
    | .udp => .waitResponse
    | .tcp => .send
  | .finished, qst => qst = .free

/-- The query is a worker that has the elements of the plan as its tasks. -/
structure Refines (w : List Line) (plan : List Label) (c : Bool) {r : ℕ} (qry : Qry)
    (a : Progress plan.length r) : Prop where
  conf : qry.optResolvConf = c
  retryMax : qry.optRetryMax = r
  retry : qry.retry = a.retry
  events : qry.events = pendingEvents qry.optProto a.phase
  status : IsStatus qry.optProto a.phase qry.qst
  dnsip : qry.optProto = .tcp → a.phase = .preparing → qry.dnsip = true
  target : a.Trying → qry.target = qry.serverName
  underway : a.phase ≠ .finished → Underway w plan a.position qry
  finished : a.phase = .finished → Written w plan qry

/-- What is known of a query during an attempt, whatever calls are pending. -/
structure Attempt (w : List Line) (plan : List Label) (c : Bool) {r : ℕ} (qry : Qry)
    (a : Progress plan.length r) : Prop where
  trying : a.Trying
  conf : qry.optResolvConf = c
  retryMax : qry.optRetryMax = r
  retry : qry.retry = a.retry
  target : qry.target = qry.serverName
  underway : Underway w plan a.position qry

/-- The query is that of a worker that has moved on. -/
def Moves (w : List Line) (plan : List Label) (c : Bool) {r : ℕ} (qry : Qry)
    (a : Progress plan.length r) : Prop :=
  ∃ b : Progress plan.length r, Refines w plan c qry b ∧ Move a b

variable {w : List Line} {plan : List Label} {c : Bool} {r : ℕ} {qry : Qry}
  {a : Progress plan.length r}

lemma Refines.attempt (h : Refines w plan c qry a) (ha : a.Trying) : Attempt w plan c qry a :=
  ⟨ha, h.conf, h.retryMax, h.retry, h.target ha, h.underway ha.ne_finished⟩

section Updates

variable (h : Attempt w plan c qry a)

include h

/-- An attempt does not depend on the status, the identifier, the errors and the pending calls. -/
lemma Attempt.update (qst : Status) (qryid : ℕ) (dnsip : Bool) (err : Buf) (events : Events) :
    Attempt w plan c { qry with qst, qryid, dnsip, err, events } a where
  trying := h.trying
  conf := h.conf
  retryMax := h.retryMax
  retry := h.retry
  target := h.target
  underway := { h.underway with }

lemma Attempt.lt : a.position < plan.length :=
  a.position_lt h.trying.ne_finished

/-- A plan with another element is that of a list of resolvers. -/
lemma Attempt.resolvConf (hlt : a.position + 1 < plan.length) : qry.optResolvConf = true := by
  by_contra hconf
  rw [Bool.not_eq_true] at hconf
  have hlength := congrArg length (h.underway.single hconf)
  rw [length_singleton] at hlength
  omega

/-- A call of `printReply` is the end of a task. -/
lemma Attempt.printReply (hqst : qry.qst ≠ .retransmitQuery)
    (hevents : qry.events.freed qry.optProto = {}) (answer : Option Bytes) :
    Moves w plan c (qry.printReply answer) a := by
  have hresult := h.underway.result_append h.lt h.target answer
  by_cases hnext : a.position + 1 < plan.length
  · -- there is another resolver
    have hconf := h.resolvConf hnext
    have hlt : qry.resolvI + 1 < qry.resolvMax := by
      rw [h.underway.index, ← h.underway.length_plan hconf]
      exact hnext
    refine ⟨⟨.paused, 0, a.position + 1, Nat.zero_le r, h.lt, by simp [hnext.ne]⟩, ?_,
      .report h.trying (.inl rfl) rfl rfl⟩
    rw [printReply_next answer hconf hlt, hevents]
    refine ⟨h.conf, h.retryMax, rfl, rfl, .inl rfl, nofun, nofun, fun _ => ?_, nofun⟩
    refine ⟨h.underway.written, hresult, ?_, ?_, h.underway.resolvers, h.underway.count, ?_⟩
    · exact congrArg (· + 1) h.underway.index
    · exact fun hfalse => absurd (hconf.symm.trans hfalse) (by decide)
    · intro _
      exact congrArg (fun k => qry.nslist[k + 1]?) h.underway.index
  · -- this was the last element
    have hlast : a.position + 1 = plan.length := le_antisymm h.lt (Nat.not_lt.1 hnext)
    have hle : qry.optResolvConf = true → qry.resolvMax ≤ qry.resolvI + 1 := by
      intro hconf
      rw [h.underway.index, ← h.underway.length_plan hconf, hlast]
    refine ⟨⟨.finished, 0, plan.length, Nat.zero_le r, le_rfl, by simp⟩, ?_,
      .report h.trying (.inr rfl) rfl hlast.symm⟩
    rw [printReply_last answer hle hqst, hevents]
    refine ⟨h.conf, h.retryMax, rfl, rfl, rfl, nofun, nofun, fun hne => absurd rfl hne, fun _ => ?_⟩
    refine ⟨⟨_, congrArg (· ++ _) h.underway.written, ?_⟩, rfl, rfl, fun hconf => ?_⟩
    · rw [hresult, hlast, take_length]
    · exact (hle hconf).trans_eq (if_pos hconf).symm

/-- A timeout or an error of the connection is the end of an attempt. -/
lemma Attempt.retransmit (hqst : qry.qst ≠ .retransmitQuery)
    (hevents : qry.events.freed qry.optProto = {}) :
    Moves w plan c qry.retransmit a := by
  by_cases hretry : qry.retry < qry.optRetryMax
  · have hle : a.retry + 1 ≤ r := by
      rw [← h.retry, ← h.retryMax]
      exact hretry
    refine ⟨⟨.paused, a.retry + 1, a.position, hle, a.position_le, by simp [h.lt.ne]⟩, ?_,
      .retry h.trying rfl rfl rfl⟩
    have hunderway := h.underway
    by_cases hconf : qry.optResolvConf = true
    · have hlt : qry.resolvI < qry.resolvMax := by
        rw [hunderway.index, ← hunderway.length_plan hconf]
        exact h.lt
      rw [retransmit_resolver hretry hconf hlt, hevents]
      refine ⟨h.conf, h.retryMax, congrArg (· + 1) h.retry, rfl, .inl rfl, nofun, nofun,
        fun _ => ?_, nofun⟩
      refine { hunderway with single := ?_, server := ?_ }
      · exact fun hfalse => absurd (hconf.symm.trans hfalse) (by decide)
      · exact fun _ => congrArg (fun k => qry.nslist[k]?) hunderway.index
    · rw [retransmit_single hretry (Bool.not_eq_true _ ▸ hconf), hevents]
      refine ⟨h.conf, h.retryMax, congrArg (· + 1) h.retry, rfl, .inr rfl, nofun, nofun,
        fun _ => ?_, nofun⟩
      exact { hunderway with
        resolvers := fun htrue => absurd htrue hconf
        count := fun htrue => absurd htrue hconf
        server := fun htrue => absurd htrue hconf }
  · unfold Qry.retransmit
    rw [if_neg hretry]
    exact h.printReply hqst hevents none

/-- The name of the server is resolved, and the query waits for a reply. -/
lemma Attempt.wait (ha : a.phase = .preparing)
    (hevents : qry.events = pendingEvents qry.optProto .waiting)
    (hstatus : IsStatus qry.optProto .waiting qry.qst) :
    Moves w plan c qry a := by
  refine ⟨⟨.waiting, a.retry, a.position, a.retry_le, a.position_le, by simp [h.lt.ne]⟩, ?_,
    .wait ha rfl rfl rfl⟩
  exact ⟨h.conf, h.retryMax, h.retry, hevents, hstatus, nofun, fun _ => h.target,
    fun _ => h.underway, nofun⟩

end Updates

/-! ### The send loop -/

/-- The possible results of a round, for an address that is usable or not. -/
inductive RoundResult (qry : Qry) (send : Option Bytes) : Bool → Round → Prop
  | left (err : Buf) : RoundResult qry send false (.left ({ qry with err }.printReply none))
  | sent (qryid : ℕ) (err : Buf) (h : send = none) :
      RoundResult qry send true (.next { qry with qryid, err, events.noreplyTimer := true } false)
  | failed (qryid : ℕ) (err : Buf) (h : send ≠ none) :
      RoundResult qry send true (.next { qry with qryid, err } true)

lemma roundResult_sendQuery (qry : Qry) (a : Addr) :
    RoundResult qry a.send a.mkDnsBuff.isSome (qry.sendQuery a) := by
  unfold Qry.sendQuery
  cases a.mkDnsBuff with
  | none => exact .left _
  | some id =>
    cases a.send with
    | none => exact .sent id qry.err rfl
    | some e => exact .failed id _ nofun

/-- The texts in `err` do not matter. -/
lemma RoundResult.of_addErr {text : Bytes} {send : Option Bytes} {usable : Bool}
    {round : Round} (h : RoundResult (qry.addErr text) send usable round) :
    RoundResult qry send usable round := by
  cases h with
  | left err => exact .left err
  | sent qryid err h => exact .sent qryid err h
  | failed qryid err h => exact .failed qryid err h

lemma roundResult_connectSocket (qry : Qry) (a : Addr) :
    RoundResult qry a.send (a.connect.isNone && a.mkDnsBuff.isSome) (qry.connectSocket a) := by
  unfold Qry.connectSocket
  cases a.connect with
  | some e => exact .left _
  | none =>
    cases a.getsockname with
    | none => exact roundResult_sendQuery qry a
    | some e => exact (roundResult_sendQuery _ a).of_addErr

/-- A round leaves the loop if the address is not usable, and has a new socket otherwise. -/
lemma roundResult_sendRound (qry : Qry) (a : Addr) :
    ∃ read, RoundResult { qry with events.readEvent := read } a.send (a.usable qry.optResolvConf)
      (qry.sendRound a) ∧ (a.usable qry.optResolvConf = true → read = true) := by
  unfold Qry.sendRound Addr.usable
  cases a.socket with
  | some e => exact ⟨false, .left _, by simp⟩
  | none =>
    refine ⟨true, ?_, fun _ => rfl⟩
    cases a.bound with
    | false => exact .left _
    | true =>
      cases hconf : qry.optResolvConf <;> cases a.allowed
      · exact .left _
      all_goals exact roundResult_connectSocket _ a

/-- The send loop prints a reply or waits, if the timer is not set when it ends with an error. -/
lemma Attempt.sendLoop {err armed read : Bool} {as : List Addr} (h : Attempt w plan c qry a)
    (ha : a.phase = .preparing) (hudp : qry.optProto = .udp) (hqst : qry.qst = .send)
    (hevents : qry.events = { noreplyTimer := armed, readEvent := read })
    (hclean : armed = true ∨ sendsOne qry.optResolvConf as = true →
      endsWell qry.optResolvConf err as = true)
    (hread : err = false → as ≠ [] ∨ armed = true ∧ read = true) :
    Moves w plan c (sendLoop qry err as) a := by
  -- a reply is printed only if the timer is not set
  have hprint {qry' : Qry} (hqry' : Attempt w plan c qry' a) (hudp' : qry'.optProto = .udp)
      (hqst' : qry'.qst = .send) (read' : Bool) (hevents' : qry'.events = { readEvent := read' }) :
      Moves w plan c (qry'.printReply none) a := by
    refine hqry'.printReply ?_ ?_ none
    · rw [hqst']
      decide
    · rw [hudp', hevents']
      rfl
  induction as generalizing qry err armed read with
  | nil =>
    unfold Evtdig.sendLoop
    cases err with
    | true =>
      have hoff : armed = false := by
        by_contra hon
        exact absurd (hclean (.inl (by simpa using hon))) (by simp [endsWell])
      rw [hoff] at hevents
      exact hprint h hudp hqst read hevents
    | false =>
      obtain ⟨rfl, rfl⟩ : armed = true ∧ read = true := by simpa using hread rfl
      refine Attempt.wait (h.update _ _ _ _ _) ha ?_ ?_
      · rw [hevents, hudp]
        rfl
      · rw [hudp]
        rfl
  | cons addr as ih =>
    obtain ⟨read', hround, hread'⟩ := roundResult_sendRound qry addr
    unfold Evtdig.sendLoop
    unfold sendsOne endsWell at hclean
    generalize qry.sendRound addr = round at hround ⊢
    generalize addr.usable qry.optResolvConf = usable at hround hclean hread'
    cases hround with
    | left err' =>
      have hoff : armed = false := by
        by_contra hon
        exact absurd (hclean (.inl (by simpa using hon))) (by simp)
      subst hoff
      exact hprint (h.update _ _ _ _ _) hudp hqst read' (by rw [hevents])
    | sent qryid err' hsend =>
      obtain rfl := hread' rfl
      have hends : endsWell qry.optResolvConf false as = true := by
        simpa [hsend] using hclean (.inr (by simp [hsend]))
      exact ih (h.update _ _ _ _ _) hudp hqst (by rw [hevents]) (fun _ => hends)
        fun _ => .inr ⟨rfl, rfl⟩
    | failed qryid err' hsend =>
      obtain ⟨e, hsend⟩ := Option.ne_none_iff_exists'.1 hsend
      simp only [hsend, Option.isNone_some] at hclean
      exact ih (h.update _ _ _ _ _) hudp hqst (by rw [hevents]) hclean nofun

/-! ### Connections -/

/-- An error of a connection is the end of an attempt. -/
lemma Attempt.tcpReporterr (h : Attempt w plan c qry a) (htcp : qry.optProto = .tcp)
    (hqst : qry.qst ≠ .retransmitQuery) {timer bev : Bool}
    (hevents : qry.events = { timer := timer, bev := bev }) (cause : TuErr) (str : Bytes) :
    Moves w plan c (qry.tcpReporterr cause str) a := by
  refine Attempt.retransmit (h.update _ _ _ _ _) hqst ?_
  change qry.events.freed qry.optProto = {}
  rw [hevents, htcp]
  rfl

/-- `dns_cb` reports an error or waits. -/
lemma Attempt.connectTcp (h : Attempt w plan c qry a) (ha : a.phase = .preparing)
    (htcp : qry.optProto = .tcp) (hevents : qry.events = {}) (addr : Addr) :
    Moves w plan c (qry.connectTcp addr) a := by
  have herror (bev : Bool) (cause : TuErr) (str : Bytes) :
      Moves w plan c ({ qry with
        qst := .send, events := { timer := true, bev := bev } }.tcpReporterr cause str) a :=
    (h.update .send qry.qryid qry.dnsip qry.err { timer := true, bev := bev }).tcpReporterr htcp
      (fun hne => by cases hne) rfl cause str
  unfold Qry.connectTcp
  simp only [hevents]
  split
  · exact herror false _ _
  split
  · exact herror false _ _
  split
  · exact herror false _ _
  cases addr.connect with
  | some e => exact herror true _ _
  | none =>
    refine Attempt.wait (h.update _ _ _ _ _) ha ?_ ?_
    · rw [htcp]
      rfl
    · rw [htcp]
      rfl

/-! ### Simulation -/

/-- The events that come at last: timers and the answers to DNS requests. -/
def Event.awaited : Event → Bool
  | .nextQry _ | .noreply | .dnsError _ | .dnsAnswer _ _ | .timeout => true
  | _ => false

variable {e : Event}

/-- The state of a query behind the second half of `tdig_start`. -/
lemma resolve_eq (hevents : qry.events = {}) :
    qry.resolve = { qry with
      qst := .dnsResolv
      target := qry.serverName
      dnsip := if qry.optProto = .tcp then true else qry.dnsip
      events := { dns := 1 } } := by
  unfold Qry.resolve
  rw [hevents]
  cases qry.optProto <;> rfl

/-- In an attempt, the query is not one to be transmitted again. -/
lemma Refines.qst_ne (h : Refines w plan c qry a) (ha : a.Trying) :
    qry.qst ≠ .retransmitQuery := by
  have hstatus := h.status
  intro hqst
  rw [hqst] at hstatus
  obtain ha | ha := ha
  · rw [ha] at hstatus
    cases hstatus
  · rw [ha] at hstatus
    cases hproto : qry.optProto <;> rw [hproto] at hstatus <;> cases hstatus

lemma Moves.or_stays (h : Moves w plan c qry a) (P : Prop) :
    ∃ b : Progress plan.length r, Refines w plan c qry b ∧ (Move a b ∨ a = b ∧ P) :=
  h.imp fun _ ⟨hb, hmove⟩ => ⟨hb, .inl hmove⟩

section Phases

variable (henabled : qry.Enabled e) (hstart : e.isStart = false)

include henabled hstart

/-! In each phase only a few events are possible. -/

lemma enabled_paused (hevents : qry.events = { nextQryTimer := true }) : ∃ i, e = .nextQry i := by
  cases e <;> simp_all [Qry.Enabled, Event.isStart]

lemma enabled_preparing (hevents : qry.events = { dns := 1 }) :
    (∃ text, e = .dnsError text) ∨ ∃ addr as, e = .dnsAnswer addr as := by
  cases e <;> simp_all [Qry.Enabled, Event.isStart]

lemma enabled_waiting_udp (hevents : qry.events = { noreplyTimer := true, readEvent := true }) :
    e = .noreply ∨ ∃ data, e = .packet data := by
  cases e <;> simp_all [Qry.Enabled, Event.isStart]

lemma enabled_waiting_tcp (hevents : qry.events = { timer := true, bev := true }) :
    e = .timeout ∨ (∃ cause str, e = .connError cause str) ∨ e = .connected ∨ ∃ d, e = .read d := by
  cases e <;> simp_all [Qry.Enabled, Event.isStart]

lemma not_enabled_finished (hevents : qry.events = {}) : False := by
  cases e <;> simp_all [Qry.Enabled, Event.isStart]

variable (h : Refines w plan c qry a)

include h

/-- After a pause the name of the server is resolved. -/
lemma Refines.step_paused (ha : a.phase = .paused) : Moves w plan c (qry.step e) a := by
  have hevents := h.events
  rw [ha] at hevents
  obtain ⟨i, rfl⟩ := enabled_paused henabled hstart hevents
  have hstep : qry.step (.nextQry i) = { qry with events := {} }.resolve := by
    have hstatus := h.status
    rw [ha] at hstatus
    unfold Qry.step Qry.tdigStart
    rw [hevents]
    rcases hstatus with hqst | hqst <;> simp only [hqst] <;> rfl
  have hlt := a.position_lt (by simp [ha])
  refine ⟨⟨.preparing, a.retry, a.position, a.retry_le, a.position_le, by simp [hlt.ne]⟩, ?_,
    .resume ha rfl rfl rfl⟩
  rw [hstep, resolve_eq rfl]
  refine ⟨h.conf, h.retryMax, h.retry, rfl, rfl, fun htcp _ => if_pos htcp, fun _ => rfl,
    fun _ => ?_, nofun⟩
  exact { h.underway (by simp [ha]) with }

/-- The name of the server has been resolved, or could not be. -/
lemma Refines.step_preparing (ha : a.phase = .preparing) (hclean : qry.Clean e) :
    Moves w plan c (qry.step e) a := by
  have hattempt := h.attempt (.inl ha)
  have hqst := h.qst_ne (.inl ha)
  have hevents := h.events
  rw [ha] at hevents
  have htcp (hudp : qry.optProto ≠ .udp) : qry.optProto = .tcp ∧ qry.dnsip = true := by
    have hproto : qry.optProto = .tcp := by
      cases hproto : qry.optProto with
      | udp => exact absurd hproto hudp
      | tcp => rfl
    exact ⟨hproto, h.dnsip hproto ha⟩
  obtain ⟨text, rfl⟩ | ⟨addr, as, rfl⟩ := enabled_preparing henabled hstart hevents
  · dsimp only [Qry.step, Qry.dnsError]
    rw [hevents]
    by_cases hudp : qry.optProto = .udp
    · rw [if_pos hudp]
      exact Attempt.printReply (hattempt.update _ _ _ _ {}) (by exact hqst) (by rw [hudp]; rfl) none
    · obtain ⟨hproto, hdnsip⟩ := htcp hudp
      rw [if_neg hudp, if_pos hdnsip]
      exact (hattempt.update _ _ _ _ {}).tcpReporterr hproto hqst rfl _ _
  · dsimp only [Qry.step, Qry.dnsAnswer]
    rw [hevents]
    by_cases hudp : qry.optProto = .udp
    · rw [if_pos hudp]
      refine Attempt.sendLoop (hattempt.update _ _ _ _ {}) ha hudp rfl rfl ?_ fun _ => .inl nofun
      rintro (hfalse | hsends)
      · cases hfalse
      · exact hclean hudp hsends
    · obtain ⟨hproto, hdnsip⟩ := htcp hudp
      rw [if_neg hudp, if_pos hdnsip]
      exact (hattempt.update _ _ _ _ {}).connectTcp ha hproto rfl addr

/-- A query waits for a reply over UDP. -/
lemma Refines.step_waiting_udp (ha : a.phase = .waiting) (hudp : qry.optProto = .udp) :
    ∃ b : Progress plan.length r,
      Refines w plan c (qry.step e) b ∧ (Move a b ∨ a = b ∧ e.awaited = false) := by
  have hattempt := h.attempt (.inr ha)
  have hqst := h.qst_ne (.inr ha)
  have hevents := h.events
  rw [ha, hudp] at hevents
  obtain rfl | ⟨data, rfl⟩ := enabled_waiting_udp henabled hstart hevents
  · dsimp only [Qry.step, Qry.noreplyCallback]
    rw [hevents]
    exact (Attempt.retransmit (hattempt.update _ _ _ _ { readEvent := true }) hqst
      (by rw [hudp]; rfl)).or_stays _
  · have hsame : ∃ b : Progress plan.length r,
        Refines w plan c qry b ∧ (Move a b ∨ a = b ∧ (Event.packet data).awaited = false) :=
      ⟨a, h, .inr ⟨rfl, rfl⟩⟩
    dsimp only [Qry.step, Qry.readyCallback]
    cases data with
    | none => exact hsame
    | some packet =>
      dsimp only
      split
      · exact hsame
      · rw [hevents]
        exact (Attempt.printReply (hattempt.update _ _ _ _ { readEvent := true }) hqst
          (by rw [hudp]; rfl) (some packet)).or_stays _

/-- A query waits for a reply over TCP. -/
lemma Refines.step_waiting_tcp (ha : a.phase = .waiting) (htcp : qry.optProto = .tcp) :
    ∃ b : Progress plan.length r,
      Refines w plan c (qry.step e) b ∧ (Move a b ∨ a = b ∧ e.awaited = false) := by
  have hattempt := h.attempt (.inr ha)
  have hqst := h.qst_ne (.inr ha)
  have hevents := h.events
  rw [ha, htcp] at hevents
  have hfreed : qry.events.freed qry.optProto = {} := by
    rw [hevents, htcp]
    rfl
  obtain rfl | ⟨cause, str, rfl⟩ | rfl | ⟨d, rfl⟩ := enabled_waiting_tcp henabled hstart hevents
  · dsimp only [Qry.step, Qry.noreplyCallback]
    rw [hevents]
    exact (Attempt.retransmit (hattempt.update _ _ _ _ { bev := true }) hqst
      (by rw [htcp]; rfl)).or_stays _
  · exact (hattempt.tcpReporterr htcp hqst hevents cause str).or_stays _
  · exact ⟨a, h, .inr ⟨rfl, rfl⟩⟩
  · cases d with
    | more => exact ⟨a, h, .inr ⟨rfl, rfl⟩⟩
    | reply packet =>
      exact (hattempt.printReply hqst hfreed (some packet)).or_stays _
    | failed text =>
      exact (Attempt.printReply (hattempt.update _ _ _ (qry.addErr text).err qry.events) hqst
        hfreed none).or_stays _

end Phases

/-- A query works off its plan; a timer or the answer to a DNS request makes it move. -/
theorem simulates (w : List Line) (plan : List Label) (c : Bool) (r : ℕ) :
    Simulates CleanStepWithin Move (Refines w plan c (r := r)) Event.awaited := by
  rintro qry a e _ h ⟨⟨⟨henabled, rfl⟩, hclean⟩, hstart⟩
  cases ha : a.phase with
  | paused => exact (h.step_paused henabled hstart ha).or_stays _
  | preparing => exact (h.step_preparing henabled hstart ha hclean).or_stays _
  | waiting =>
    cases hproto : qry.optProto with
    | udp => exact h.step_waiting_udp henabled hstart ha hproto
    | tcp => exact h.step_waiting_tcp henabled hstart ha hproto
  | finished =>
    have hevents := h.events
    rw [ha] at hevents
    exact (not_enabled_finished henabled hstart hevents).elim

end AtlasProbe.Evtdig
