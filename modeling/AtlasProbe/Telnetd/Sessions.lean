import AtlasProbe.Telnetd.Footprint

/-!
# All sessions together

The code that serves a session writes only events of that session to the log, so that the other
sessions stay in agreement with it (`Ok.others`).  What each handler keeps then holds in every state
that the process can reach (`Reached.ok`).
-/

namespace AtlasProbe.Telnetd

open Function

/-! ### The events of a pass -/

section Keeps

/-- The code that handles a line only logs events of its session. -/
lemma logs_of_handles {α : Type} {m : Serve α} (h : Keeps Handles m) : Keeps Logs m :=
  fun v => (h v).mono (fun _ _ hv => hv.toLogs) fun _ _ hv => hv.toLogs

lemma logs_of_talks {α : Type} {m : Serve α} (h : Keeps Talks m) : Keeps Logs m := by
  have htalks : ∀ v v', Talks v v' → Logs v v' := by
    intro v v' ht
    obtain ⟨new, hlog, hreplies⟩ := ht.log
    refine ⟨ht.id, new, hlog, fun e he => ?_⟩
    obtain ⟨reply, rfl, -⟩ := hreplies e he
    rfl
  exact fun v => (h v).mono (fun _ v' => htalks v v') fun _ v' => htalks v v'

lemma logs_getline2pty (env : LineEnv) : Keeps Logs (getline2pty env) := by
  intro v
  unfold getline2pty
  rw [wp_bind, wp_get]
  rcases v.ts.input.getline2pty with ⟨_ | line, input⟩
  · exact Logs.silent rfl rfl
  · exact Logs.one rfl rfl rfl

lemma logs_serveLines (n : ℕ) (env : ℕ → LineEnv) : Keeps Logs (serveLines n env) := by
  have hline : ∀ env : LineEnv, Keeps Logs (serveLine env) := by
    intro env
    refine (keeps_get Logs.refl).bind Logs.trans fun v => Keeps.ite (keeps_pure Logs.refl _)
      (Keeps.ite (keeps_pure Logs.refl _) ((logs_getline2pty env).bind Logs.trans fun line => ?_))
    cases line with
    | none => exact keeps_pure Logs.refl _
    | some line => exact logs_of_handles (handles_handleLine line env)
  induction n generalizing env with
  | zero => exact keeps_pure Logs.refl _
  | succ n ih =>
    refine (hline (env 0)).bind Logs.trans fun verdict => ?_
    cases verdict with
    | again => exact ih _
    | leave => exact keeps_pure Logs.refl _
    | kill => exact keeps_pure Logs.refl _

lemma keeps_writeSocket (pass : Pass) : Keeps Talks (writeSocket pass) := by
  intro v
  unfold writeSocket
  refine wp_ite (fun _ => Talks.refl v) fun _ => ?_
  cases pass.write with
  | no | again | failed => exact Talks.refl v
  | done count => exact { Talks.refl v with out := fun hout => hout.wrote _ }

lemma logs_readSocket (pass : Pass) : Keeps Logs (readSocket pass) := by
  intro v
  unfold readSocket
  refine wp_ite (fun _ => Logs.refl v) fun _ => ?_
  cases pass.read with
  | no | again | failed => exact Logs.refl v
  | done data => exact wp_ite (fun _ => Logs.refl v) fun _ => Logs.one rfl rfl rfl

lemma logs_killSession (left : Bytes) : Keeps Logs (killSession left) := by
  refine Keeps.bind Logs.trans (keeps_modify fun v => ?_) fun _ =>
    keeps_modify fun v => .one rfl rfl rfl
  split_ifs
  · exact .silent (congrArg Session.id (closeCrontab_eq v left).2.1)
      (closeCrontab_eq v left).2.2.2.1
  · exact Logs.refl v

lemma logs_serveSession (pass : Pass) : Keeps Logs (serveSession pass) := by
  have hup : Keeps Logs (serveUp pass) := by
    refine (keeps_get Logs.refl).bind Logs.trans fun _ => Keeps.ite (keeps_pure Logs.refl _) ?_
    refine (logs_of_talks (keeps_writeSocket pass)).bind Logs.trans fun _ =>
      Keeps.ite (keeps_pure Logs.refl _) ?_
    refine (logs_readSocket pass).bind Logs.trans fun _ => Keeps.ite (keeps_pure Logs.refl _) ?_
    exact (keeps_get Logs.refl).bind Logs.trans fun _ =>
      (logs_serveLines _ pass.lines).bind Logs.trans fun _ => keeps_pure Logs.refl _
  refine hup.bind Logs.trans fun _ => Keeps.ite ?_ (keeps_pure Logs.refl _)
  exact (logs_killSession _).bind Logs.trans fun _ => keeps_pure Logs.refl _

end Keeps

/-! ### One pass -/

section Pass

variable {D : ℕ → Prop} {v : View}

/-- What holds when the session has been freed. -/
structure Freed (D : ℕ → Prop) (v : View) : Prop where
  legal : Trace.Lawful Legal v.log
  atlas : ∀ id, v.atlasTs = some id → lastAuthenticated v.log = some id
  upload : ∀ upload, v.atlasCrontab = some upload →
    ∃ id, v.atlasTs = some id ∧ (id ≠ v.ts.id ∧ D id) ∧ Uploading v.toShared id upload

lemma readSocket_spec (h : ViewOk D v) (pass : Pass) :
    Ensures (readSocket pass) v fun _ v' => ViewOk D v' := by
  unfold readSocket
  refine wp_ite (fun _ => h) fun hsize => ?_
  cases pass.read with
  | no | again | failed => exact h
  | done data =>
    refine wp_ite (fun _ => h) fun _ => ?_
    have hstreams := h.session.read (Nat.lt_of_not_le hsize) data
    refine ⟨⟨trivial, h.legal⟩, ⟨hstreams, ?_, ?_, ?_⟩, h.atlas, fun upload hopen => ?_⟩
    · intro hstate
      exact (Trace.gather_cons_of_nil rfl).trans (h.session.login hstate)
    · intro hstate
      obtain ⟨file, hin⟩ := h.session.password hstate
      exact ⟨file, List.mem_cons_of_mem _ hin⟩
    · intro hstate hin
      rcases List.mem_cons.mp hin with heq | hin
      · cases heq
      · exact h.session.unauthenticated hstate hin
    · obtain ⟨id, hid, huploads, huploading⟩ := h.upload upload hopen
      exact ⟨id, hid, huploads.congr rfl rfl, huploading.path, huploading.length,
        huploading.uploaded.cons rfl rfl⟩

lemma killSession_spec (h : ViewOk D v) (left : Bytes) :
    Ensures (killSession left) v fun _ v' => Freed D v' := by
  unfold killSession
  rw [Ensures, wp_bind, record, wp_modify]
  split_ifs with howner
  · obtain ⟨hclosed, hts, -, hlog, -⟩ := closeCrontab_eq v left
    refine ⟨⟨trivial, ?_⟩, fun _ hatlas => ?_, fun upload hopen => ?_⟩
    · rw [hlog]
      exact h.legal
    · cases hatlas
    · cases hclosed.symm.trans hopen
  · refine ⟨⟨trivial, h.legal⟩, h.atlas, fun upload hopen => ?_⟩
    obtain ⟨id, hid, huploads, huploading⟩ := h.upload upload hopen
    have hne : id ≠ v.ts.id := fun heq => howner (heq ▸ hid)
    unfold Uploads at huploads
    rw [if_neg hne] at huploads
    refine ⟨id, hid, ⟨hne, huploads⟩, huploading.path, huploading.length, ?_⟩
    exact huploading.uploaded.cons (decide_eq_false fun heq => hne heq.symm) rfl

/-- A pass leaves the session in agreement with the log, or frees it. -/
lemma serveSession_spec (h : ViewOk D v) (pass : Pass) :
    Ensures (serveSession pass) v fun freed v' => if freed then Freed D v' else ViewOk D v' := by
  have hup : Ensures (serveUp pass) v fun _ v' => ViewOk D v' := by
    unfold serveUp
    refine wp_ite (fun _ => h) fun _ => ?_
    refine Wp.bind (ensures_of_keeps (keeps_writeSocket pass) fun _ ht => ht) fun _ v₁ ht => ?_
    have hv₁ := h.talks ht
    refine wp_ite (fun _ => hv₁) fun _ => ?_
    refine Wp.bind (readSocket_spec hv₁ pass) fun _ v₂ hv₂ => wp_ite (fun _ => hv₂) fun _ => ?_
    rw [wp_bind]
    exact Wp.bind (serveLines_spec hv₂ _ pass.lines) fun _ _ hv₃ => hv₃
  refine Wp.bind hup fun kill v' hv' => wp_ite (fun _ => ?_) fun _ => hv'
  exact Wp.bind (killSession_spec hv' pass.left) fun _ _ hfreed => hfreed

end Pass

/-! ### The process -/

/-- What holds in every state of the process. -/
structure Ok (s : Process) : Prop where
  legal : Trace.Lawful Legal s.log
  sessions : ∀ id ts, s.sessions id = some ts → ts.id = id ∧ id < s.created ∧ SessionOk ts s.log
  fresh : ∀ e ∈ s.log, e.id < s.created
  atlas : ∀ id, s.atlasTs = some id → lastAuthenticated s.log = some id
  upload : ∀ upload, s.atlasCrontab = some upload → ∃ id ts, s.atlasTs = some id ∧
    s.sessions id = some ts ∧ ts.state = .doCrontab ∧ Uploading s.toShared id upload

/-- The sessions in the state `DO_CRONTAB`. -/
def Process.Uploads (s : Process) (id : ℕ) : Prop :=
  ∃ ts, s.sessions id = some ts ∧ ts.state = .doCrontab

section Process

variable {s : Process} {ts : Session} {v : View} {created id : ℕ}

/-- What the code sees that serves a session. -/
def Process.view (s : Process) (ts : Session) : View := { toShared := s.toShared, ts := ts }

lemma Ok.initial (files : Bytes → Option Bytes) : Ok (.initial files) where
  legal := trivial
  sessions _ _ h := by cases h
  fresh _ h := absurd h List.not_mem_nil
  atlas _ h := by cases h
  upload _ h := by cases h

/-- A session of the process is in agreement with the log. -/
lemma Ok.viewOk (h : Ok s) (hts : s.sessions id = some ts) : ViewOk s.Uploads (s.view ts) := by
  obtain ⟨hid, -, hsession⟩ := h.sessions id ts hts
  refine ⟨h.legal, hsession, h.atlas, fun upload hopen => ?_⟩
  obtain ⟨owner, ts', howner, hts', hstate, huploading⟩ := h.upload upload hopen
  refine ⟨owner, howner, ?_, huploading⟩
  change if owner = ts.id then ts.state = .doCrontab else s.Uploads owner
  split_ifs with heq
  · rw [heq, hid, hts] at hts'
    cases hts'
    exact hstate
  · exact ⟨ts', hts', hstate⟩

/-- So is a new session. -/
lemma Ok.viewOk_new (h : Ok s) : ViewOk s.Uploads (s.view (newSession s.created)) := by
  refine ⟨h.legal, sessionOk_newSession fun e he => (h.fresh e he).ne, h.atlas,
    fun upload hopen => ?_⟩
  obtain ⟨owner, ts', howner, hts', hstate, huploading⟩ := h.upload upload hopen
  refine ⟨owner, howner, uploads_of_ne ⟨?_, ts', hts', hstate⟩ rfl, huploading⟩
  exact (h.sessions owner ts' hts').2.1.ne

section Kept

variable (h : Ok s) (hlogs : Logs (s.view ts) v)

include h hlogs

/-- The other sessions stay in agreement with the log. -/
lemma Ok.others {ts' : Session} (hts' : s.sessions id = some ts') (hne : id ≠ ts.id) :
    SessionOk ts' v.log := by
  obtain ⟨new, hlog, hown⟩ := hlogs.log
  obtain ⟨hid, -, hsession⟩ := h.sessions id ts' hts'
  rw [hlog]
  refine hsession.append fun e he heq => hne ?_
  exact hid.symm.trans (heq.symm.trans (hown e he))

/-- The events of the session that is served do not come from a later one. -/
lemma Ok.fresh_of_logs (hcreated : s.created ≤ created) (hts : ts.id < created) :
    ∀ e ∈ v.log, e.id < created := by
  obtain ⟨new, hlog, hown⟩ := hlogs.log
  intro e he
  rw [hlog] at he
  rcases List.mem_append.mp he with hin | hin
  · rw [hown e hin]
    exact hts
  · exact Nat.lt_of_lt_of_le (h.fresh e hin) hcreated

/-- The process after a session has been served. -/
lemma Ok.served (hv : ViewOk s.Uploads v) (hcreated : s.created ≤ created) (hts : ts.id < created) :
    Ok { toShared := v.toShared
         sessions := update s.sessions ts.id (some v.ts)
         created := created } := by
  have hid : v.ts.id = ts.id := hlogs.id
  refine ⟨hv.legal, ?_, h.fresh_of_logs hlogs hcreated hts, hv.atlas, fun upload hopen => ?_⟩
  · intro id ts' hts'
    by_cases heq : id = ts.id
    · subst heq
      cases (update_self ..).symm.trans hts'
      exact ⟨hid, hts, hv.session⟩
    · have hold := (update_of_ne heq ..).symm.trans hts'
      obtain ⟨hid', hlt, -⟩ := h.sessions id ts' hold
      exact ⟨hid', Nat.lt_of_lt_of_le hlt hcreated, h.others hlogs hold heq⟩
  · obtain ⟨owner, howner, huploads, huploading⟩ := hv.upload upload hopen
    unfold Uploads at huploads
    split_ifs at huploads with heq
    · refine ⟨owner, v.ts, howner, ?_, huploads, huploading⟩
      rw [heq, hid]
      exact update_self ..
    · obtain ⟨ts', hts', hstate⟩ := huploads
      refine ⟨owner, ts', howner, ?_, hstate, huploading⟩
      exact (update_of_ne (fun hne => heq (hne.trans hid.symm)) ..).trans hts'

/-- The process after a session has been freed. -/
lemma Ok.freed (hv : Freed s.Uploads v) (hts : ts.id < s.created) :
    Ok { toShared := v.toShared
         sessions := update s.sessions ts.id none
         created := s.created } := by
  have hid : v.ts.id = ts.id := hlogs.id
  refine ⟨hv.legal, ?_, h.fresh_of_logs hlogs le_rfl hts, hv.atlas, fun upload hopen => ?_⟩
  · intro id ts' hts'
    by_cases heq : id = ts.id
    · subst heq
      cases (update_self ..).symm.trans hts'
    · have hold := (update_of_ne heq ..).symm.trans hts'
      obtain ⟨hid', hlt, -⟩ := h.sessions id ts' hold
      exact ⟨hid', hlt, h.others hlogs hold heq⟩
  · obtain ⟨owner, howner, ⟨hne, ts', hts', hstate⟩, huploading⟩ := hv.upload upload hopen
    refine ⟨owner, ts', howner, ?_, hstate, huploading⟩
    exact (update_of_ne (fun heq => hne (heq.trans hid.symm)) ..).trans hts'

end Kept

end Process

/-- The greeting only talks. -/
lemma keeps_greet (probe : Bytes) : Keeps Talks (greet probe) := by
  have hprobe : Reply.probe (snprintf 80 probe) ≠ .crontabBusy := nofun
  exact (keeps_add2sock (by decide)).bind Talks.trans fun _ =>
    (keeps_add2sock hprobe).bind Talks.trans fun _ => keeps_add2sock (by decide)

/-- What holds in every state that the process can reach. -/
lemma Reached.ok {s : Process} (h : Reached s) : Ok s := by
  induction h with
  | initial files => exact .initial files
  | @accept s t probe _ haccept ih =>
    unfold Process.accept at haccept
    cases hgreet : greet probe (s.view (newSession s.created)) with
    | error e v =>
      rw [Process.view] at hgreet
      simp only [hgreet, reduceCtorEq] at haccept
    | ok _ v =>
      have htalks : Talks (s.view (newSession s.created)) v := (keeps_greet probe _).of_ok hgreet
      have hlogs : Logs (s.view (newSession s.created)) v :=
        (logs_of_talks (keeps_greet probe) _).of_ok hgreet
      rw [Process.view] at hgreet
      simp only [hgreet, Option.some.injEq] at haccept
      subst haccept
      exact ih.served hlogs (ih.viewOk_new.talks htalks) (Nat.le_succ _) (Nat.lt_succ_self _)
  | @serve s t id ts pass _ hts hserve ih =>
    unfold Process.serve at hserve
    obtain ⟨hid, hlt, -⟩ := ih.sessions id ts hts
    cases hpass : serveSession pass (s.view ts) with
    | error e v =>
      rw [Process.view] at hpass
      simp only [hpass, reduceCtorEq] at hserve
    | ok freed v =>
      have hlogs : Logs (s.view ts) v := (logs_serveSession pass _).of_ok hpass
      have hv := (serveSession_spec (ih.viewOk hts) pass).of_ok hpass
      rw [Process.view] at hpass
      simp only [hpass, Option.some.injEq] at hserve
      subst hserve
      cases freed with
      | true => exact ih.freed hlogs hv (hid ▸ hlt)
      | false => exact ih.served hlogs hv le_rfl (hid ▸ hlt)

end AtlasProbe.Telnetd
