import AtlasProbe.Telnetd.History

/-!
# What the handlers do

Each function that serves a session keeps the session and the log in agreement (`ViewOk`): the log
stays legal, the buffers fit what has been logged, the Atlas session is the one that has
authenticated last, and an open crontab belongs to it (`handleLine_spec`, `serveLines_spec`).
-/

namespace AtlasProbe.Telnetd

open List

/-! ### Agreement -/

/-- What holds at every point of the code. -/
structure Core (v : View) : Prop where
  legal : Trace.Lawful Legal v.log
  streams : Streams v.ts v.log
  atlas : ∀ id, v.atlasTs = some id → lastAuthenticated v.log = some id

/-- The open crontab has the lines that the session has sent for it. -/
structure Uploading (s : Shared) (id : ℕ) (upload : Upload) : Prop where
  path : upload.path = s.atlasDirname ++ crontabNewSuf
  length : s.atlasDirname.length + crontabNewSuf.length + 1 ≤ nameSize
  uploaded : Uploaded id s.atlasDirname upload.contents s.log

/-- The session is in the state `DO_CRONTAB`: the one that is served, or one of the others in that
state, which are given by `D`. -/
def Uploads (D : ℕ → Prop) (ts : Session) (id : ℕ) : Prop :=
  if id = ts.id then ts.state = .doCrontab else D id

/-- What holds between two lines. -/
structure ViewOk (D : ℕ → Prop) (v : View) : Prop where
  legal : Trace.Lawful Legal v.log
  session : SessionOk v.ts v.log
  atlas : ∀ id, v.atlasTs = some id → lastAuthenticated v.log = some id
  upload : ∀ upload, v.atlasCrontab = some upload →
    ∃ id, v.atlasTs = some id ∧ Uploads D v.ts id ∧ Uploading v.toShared id upload

/-- What holds while the Atlas session carries out a command. -/
structure Commanding (v : View) : Prop extends Core v where
  owner : v.atlasTs = some v.ts.id
  closed : v.atlasCrontab = none

/-- What holds while the Atlas session fills a crontab, which may have been given up. -/
structure Filling (v : View) : Prop extends Core v where
  owner : v.atlasTs = some v.ts.id
  uploading : ∀ upload, v.atlasCrontab = some upload → Uploading v.toShared v.ts.id upload

/-- The code ensures `Q`, unless it aborts. -/
abbrev Ensures {α : Type} (m : Serve α) (v : View) (Q : α → View → Prop) : Prop :=
  Wp m v Q fun _ _ => True

/-! ### Replies -/

/-- What a function does that only sends replies and changes files. -/
structure Talks (v v' : View) : Prop where
  id : v'.ts.id = v.ts.id
  state : v'.ts.state = v.ts.state
  input : v'.ts.input = v.ts.input
  out : v.ts.out.Valid → v'.ts.out.Valid
  atlasTs : v'.atlasTs = v.atlasTs
  atlasCrontab : v'.atlasCrontab = v.atlasCrontab
  atlasDirname : v'.atlasDirname = v.atlasDirname
  log : ∃ new, v'.log = new ++ v.log ∧
    ∀ e ∈ new, ∃ reply, e = .reply v.ts.id reply ∧ reply ≠ .crontabBusy

lemma Talks.refl (v : View) : Talks v v where
  id := rfl
  state := rfl
  input := rfl
  out h := h
  atlasTs := rfl
  atlasCrontab := rfl
  atlasDirname := rfl
  log := ⟨[], rfl, nofun⟩

lemma Talks.trans (u v w : View) (h : Talks u v) (h' : Talks v w) : Talks u w where
  id := h'.id.trans h.id
  state := h'.state.trans h.state
  input := h'.input.trans h.input
  out hout := h'.out (h.out hout)
  atlasTs := h'.atlasTs.trans h.atlasTs
  atlasCrontab := h'.atlasCrontab.trans h.atlasCrontab
  atlasDirname := h'.atlasDirname.trans h.atlasDirname
  log := by
    obtain ⟨new, hnew, hreplies⟩ := h.log
    obtain ⟨new', hnew', hreplies'⟩ := h'.log
    refine ⟨new' ++ new, by rw [hnew', hnew, append_assoc], fun e he => ?_⟩
    rcases mem_append.mp he with hin | hin
    · rw [← h.id]
      exact hreplies' e hin
    · exact hreplies e hin

lemma keeps_add2sock {reply : Reply} (h : reply ≠ .crontabBusy) : Keeps Talks (add2sock reply) := by
  intro v
  unfold add2sock
  rw [wp_bind, wp_get]
  cases hadd : v.ts.out.add2sock reply.text.length with
  | none => exact Talks.refl v
  | some out =>
    refine ⟨rfl, rfl, rfl, fun hout => (hout.add2sock hadd).1, rfl, rfl, rfl, ?_⟩
    refine ⟨[.reply v.ts.id reply], rfl, fun e he => ⟨reply, ?_, h⟩⟩
    exact mem_singleton.mp he

/-- A change to the files does not matter. -/
lemma keeps_files (f : View → Bytes → Option Bytes) :
    Keeps Talks (modify fun v => { v with files := f v } : Serve PUnit) :=
  keeps_modify fun v => { Talks.refl v with }

lemma keeps_updateCron (env : LineEnv) : Keeps Talks (updateCron env) := by
  refine (keeps_get Talks.refl).bind Talks.trans fun v => Keeps.ite ?_ ?_
  · exact keeps_add2sock nofun
  · cases env.update with
    | done => exact keeps_files _
    | ioError | createFailed => exact keeps_add2sock nofun

lemma keeps_doOneoff (line : Bytes) (env : LineEnv) : Keeps Talks (doOneoff line env) := by
  refine Keeps.ite (keeps_add2sock nofun) (Keeps.ite (keeps_add2sock nofun) ?_)
  split
  · exact keeps_add2sock nofun
  · exact keeps_add2sock nofun
  · refine Keeps.bind Talks.trans (keeps_files _) fun _ => ?_
    refine Keeps.ite (keeps_add2sock nofun) (Keeps.ite ?_ ?_)
    · exact Keeps.bind Talks.trans (keeps_files _) fun _ => keeps_add2sock nofun
    · exact Keeps.bind Talks.trans (keeps_files _) fun _ => keeps_files _

/-- The events of a function that only talks. -/
lemma Talks.exists_new {v v' : View} (h : Talks v v') :
    ∃ new, v'.log = new ++ v.log ∧ (∀ e ∈ new, e.quiet) ∧
      (Trace.Lawful Legal v.log → Trace.Lawful Legal (new ++ v.log)) ∧
      ∀ id, ∀ e ∈ new, e.cuts id = false ∧ e.cronlines id = [] := by
  obtain ⟨new, hnew, hreplies⟩ := h.log
  refine ⟨new, hnew, ?_, ?_, ?_⟩
  · intro e he
    obtain ⟨reply, rfl, -⟩ := hreplies e he
    rfl
  · intro hlegal
    clear hnew
    induction new with
    | nil => exact hlegal
    | cons e new ih =>
      obtain ⟨reply, rfl, hbusy⟩ := hreplies e mem_cons_self
      exact ⟨hbusy, ih fun d hd => hreplies d (mem_cons_of_mem _ hd)⟩
  · intro id e he
    obtain ⟨reply, rfl, -⟩ := hreplies e he
    exact ⟨rfl, rfl⟩

section Talks

variable {D : ℕ → Prop} {v v' : View} {id : ℕ} {ts : Session} {α : Type}

lemma Core.talks (h : Core v) (htalks : Talks v v') : Core v' := by
  obtain ⟨new, hlog, hquiet, hlegal, -⟩ := htalks.exists_new
  refine ⟨?_, ?_, ?_⟩
  · rw [hlog]
    exact hlegal h.legal
  · rw [hlog]
    exact h.streams.append htalks.id htalks.input (htalks.out h.streams.out) fun e he =>
      bytes_of_quiet (hquiet e he)
  · rw [htalks.atlasTs, hlog, lastAuthenticated_append hquiet]
    exact h.atlas

lemma Commanding.talks (h : Commanding v) (htalks : Talks v v') : Commanding v' where
  toCore := h.toCore.talks htalks
  owner := by rw [htalks.atlasTs, htalks.id]; exact h.owner
  closed := htalks.atlasCrontab.trans h.closed

lemma Uploading.talks {upload : Upload} (h : Uploading v.toShared id upload) (htalks : Talks v v') :
    Uploading v'.toShared id upload := by
  obtain ⟨new, hlog, -, -, hnew⟩ := htalks.exists_new
  refine ⟨?_, ?_, ?_⟩
  · rw [htalks.atlasDirname]
    exact h.path
  · rw [htalks.atlasDirname]
    exact h.length
  · rw [htalks.atlasDirname, hlog]
    exact h.uploaded.append (hnew id)

lemma Uploads.congr {ts' : Session} (h : Uploads D ts id) (hid : ts'.id = ts.id)
    (hstate : ts'.state = ts.state) : Uploads D ts' id := by
  unfold Uploads at h ⊢
  rwa [hid, hstate]

lemma uploads_self (h : ts.state = .doCrontab) : Uploads D ts ts.id := by
  unfold Uploads
  rwa [if_pos rfl]

lemma uploads_of_ne {ts' : Session} (h : id ≠ ts.id ∧ D id) (hid : ts'.id = ts.id) :
    Uploads D ts' id := by
  unfold Uploads
  rw [hid, if_neg h.1]
  exact h.2

lemma ViewOk.talks (h : ViewOk D v) (htalks : Talks v v') : ViewOk D v' := by
  obtain ⟨new, hlog, hquiet, hlegal, hnew⟩ := htalks.exists_new
  refine ⟨?_, ?_, ?_, ?_⟩
  · rw [hlog]
    exact hlegal h.legal
  · rw [hlog]
    exact h.session.quiet htalks.id htalks.state htalks.input (htalks.out h.session.out) hquiet
  · rw [htalks.atlasTs, hlog, lastAuthenticated_append hquiet]
    exact h.atlas
  · rw [htalks.atlasCrontab, htalks.atlasTs]
    intro upload hopen
    obtain ⟨id, howner, huploads, huploading⟩ := h.upload upload hopen
    exact ⟨id, howner, huploads.congr htalks.id htalks.state, huploading.talks htalks⟩

/-- A function that only talks keeps what talking keeps. -/
lemma ensures_of_keeps {m : Serve α} (hm : Keeps Talks m) {P : View → Prop}
    (hP : ∀ v', Talks v v' → P v') : Ensures m v fun _ v' => P v' :=
  (hm v).mono (fun _ v' h => hP v' h) fun _ _ _ => trivial

/-- What follows a function that only talks. -/
lemma ensures_bind {β : Type} {m : Serve α} {f : α → Serve β} {Q : β → View → Prop}
    (hm : Keeps Talks m) (hf : ∀ a v', Talks v v' → Wp (f a) v' Q fun _ _ => True) :
    Ensures (m >>= f) v Q :=
  Wp.bind (ensures_of_keeps hm fun _ ht => ht) hf

/-- A reply does not get in the way of a command. -/
lemma Commanding.replied (h : Commanding v) {reply : Reply} (hbusy : reply ≠ .crontabBusy) :
    Ensures (add2sock reply) v fun _ v' => v'.ts.state = v.ts.state ∧ Commanding v' :=
  ensures_of_keeps
    (keeps_add2sock hbusy) fun _ ht => ⟨ht.state, h.talks ht⟩

end Talks

/-! ### Crontabs -/

section Crontab

variable {D : ℕ → Prop} {v : View} {line : Bytes} {env : LineEnv}

/-- In the states of the Atlas session nothing else has to hold. -/
lemma Commanding.viewOk (h : Commanding v)
    (hstate : v.ts.state ≠ .getLoginname ∧ v.ts.state ≠ .getPassword) : ViewOk D v where
  legal := h.legal
  session := h.streams.sessionOk hstate
  atlas := h.atlas
  upload upload hopen := by cases h.closed.symm.trans hopen

/-- A quiet event that is legal. -/
lemma Core.record (h : Core v) {e : Event} (hquiet : e.quiet) (hlegal : Legal e v.log) :
    Core { v with log := e :: v.log } where
  legal := ⟨hlegal, h.legal⟩
  streams := h.streams.cons (bytes_of_quiet hquiet).1 (bytes_of_quiet hquiet).2
  atlas id hid := by
    rw [lastAuthenticated_cons (ne_authenticated_of_quiet hquiet)]
    exact h.atlas id hid

/-- The Atlas session may carry out a command. -/
lemma Core.command (h : Core v) (howner : v.atlasTs = some v.ts.id) (command : Command) :
    Core { v with log := .command v.ts.id command :: v.log } :=
  h.record rfl (h.atlas _ howner)

/-- `start_crontab` opens a crontab, or sends an error. -/
lemma startCrontab_spec (h : Commanding v) :
    Ensures (startCrontab line env) v fun opened v' =>
      v'.ts.state = v.ts.state ∧ if opened then Filling v' else Commanding v' := by
  unfold startCrontab
  rw [Ensures, wp_bind, wp_get, h.closed]
  simp only [Option.isSome_none, Bool.false_eq_true, if_false]
  cases validated env (line.drop cmdCrontab.length) with
  | none => exact Wp.bind (h.replied nofun) fun _ _ hv => hv
  | some rebasedFn =>
    refine wp_ite (fun _ => Wp.bind (h.replied nofun) fun _ _ hv => hv) fun hlength => ?_
    have hdir : strlcpy nameSize rebasedFn = rebasedFn := strlcpy_of_lt (by omega)
    rw [wp_bind, hdir]
    have hv' : Commanding { v with atlasDirname := rebasedFn } := { h with }
    refine wp_ite (fun _ => Wp.bind (hv'.replied nofun) fun _ _ hv => hv) fun hnew => ?_
    refine wp_ite (fun _ => Wp.bind (hv'.replied nofun) fun _ _ hv => hv) fun _ => ?_
    have hfilename : strlcat nameSize (strlcpy nameSize rebasedFn) crontabNewSuf =
        rebasedFn ++ crontabNewSuf := by
      rw [hdir, strlcat_of_lt (by omega)]
    refine ⟨rfl, { hv'.toCore.record (e := .opened v.ts.id rebasedFn) rfl trivial with },
      h.owner, ?_⟩
    rintro upload ⟨⟩
    exact ⟨hfilename, Nat.le_of_not_lt hnew, [], v.log, rfl, rfl, nofun⟩

/-- To close the crontab changes nothing else, except for a file. -/
lemma closeCrontab_eq (v : View) (contents : Bytes) :
    (v.closeCrontab contents).atlasCrontab = none ∧ (v.closeCrontab contents).ts = v.ts ∧
      (v.closeCrontab contents).atlasTs = v.atlasTs ∧ (v.closeCrontab contents).log = v.log ∧
      (v.closeCrontab contents).atlasDirname = v.atlasDirname := by
  unfold View.closeCrontab
  split
  · next hopen => exact ⟨hopen, rfl, rfl, rfl, rfl⟩
  · exact ⟨rfl, rfl, rfl, rfl, rfl⟩

/-- To become the Atlas session changes neither the session nor the log. -/
lemma takeOver_eq (v : View) (left : Bytes) :
    (v.takeOver left).ts = v.ts ∧ (v.takeOver left).log = v.log := by
  unfold View.takeOver
  split_ifs
  · exact ⟨(closeCrontab_eq v left).2.1, (closeCrontab_eq v left).2.2.2.1⟩
  · exact ⟨rfl, rfl⟩

/-- A crontab is closed, and a command may follow. -/
lemma Core.closed (h : Core v) (howner : v.atlasTs = some v.ts.id) (contents : Bytes) :
    Commanding (v.closeCrontab contents) ∧ (v.closeCrontab contents).ts = v.ts := by
  obtain ⟨hclosed, hts, hatlas, hlog, -⟩ := closeCrontab_eq v contents
  refine ⟨⟨⟨?_, ?_, ?_⟩, ?_, hclosed⟩, hts⟩
  · rw [hlog]
    exact h.legal
  · rw [hts, hlog]
    exact h.streams
  · rw [hatlas, hlog]
    exact h.atlas
  · rw [hatlas, hts]
    exact howner

/-- `add_to_crontab` writes a line, or gives up the crontab. -/
lemma addToCrontab_spec (text : Bytes) (env : LineEnv) (h : Core v)
    (howner : v.atlasTs = some v.ts.id)
    (hupload : ∀ upload, v.atlasCrontab = some upload →
      Uploading v.toShared v.ts.id { upload with contents := upload.contents ++ text ++ [10] }) :
    Ensures (addToCrontab text env) v fun _ v' => v'.ts.state = v.ts.state ∧ Filling v' := by
  unfold addToCrontab
  rw [Ensures, wp_bind, wp_get]
  cases hopen : v.atlasCrontab with
  | none => exact ⟨rfl, h, howner, fun upload hsome => nomatch hopen.symm.trans hsome⟩
  | some upload =>
    refine wp_ite (fun _ => ?_) fun _ => ?_
    · refine ⟨rfl, { h with }, howner, ?_⟩
      rintro upload' ⟨⟩
      exact { hupload upload hopen with }
    · rw [wp_bind, record]
      have hfailed := h.record (e := .writeFailed v.ts.id) rfl trivial
      refine ensures_bind (keeps_add2sock nofun) fun _ v' htalks => ?_
      obtain ⟨hcommanding, hts⟩ := (hfailed.talks htalks).closed
        (by rw [htalks.atlasTs, htalks.id]; exact howner) env.left
      exact ⟨by rw [hts]; exact htalks.state, hcommanding.toCore, hcommanding.owner,
        fun upload' hsome => nomatch hcommanding.closed.symm.trans hsome⟩

/-- `end_crontab` installs the crontab, or gives it up. -/
lemma endCrontab_spec (env : LineEnv) (h : Filling v) :
    Ensures (endCrontab env) v fun _ v' => v'.ts.state = v.ts.state ∧ Commanding v' := by
  unfold endCrontab
  rw [Ensures, wp_bind, wp_get]
  cases hopen : v.atlasCrontab with
  | none => exact ⟨rfl, { h with closed := hopen }⟩
  | some upload =>
    have huploading := h.uploading upload hopen
    refine wp_ite (fun _ => ?_) fun _ => ?_
    · obtain ⟨hcommanding, hts⟩ :=
        (h.record (e := .writeFailed v.ts.id) rfl trivial).closed h.owner env.left
      have hreplied := @Commanding.replied _ hcommanding .ioError nofun
      rwa [hts] at hreplied
    · rw [wp_bind, wp_modify, wp_bind]
      obtain ⟨hcommanding, hts⟩ := h.toCore.closed h.owner upload.contents
      have hclose : v.closeCrontab upload.contents = { v with
          atlasCrontab := none
          files := Function.update v.files upload.path (some upload.contents) } := by
        simp only [View.closeCrontab, hopen]
      rw [hclose] at hcommanding ⊢
      refine wp_ite (fun _ => hcommanding.replied nofun) fun hlength => ?_
      refine wp_ite (fun _ => hcommanding.replied nofun) fun _ => ?_
      refine wp_ite (fun _ => hcommanding.replied nofun) fun _ => ?_
      have hlt : v.atlasDirname.length + crontabNewSuf.length < nameSize := by
        have hle := huploading.length
        omega
      have hfilename : strlcat nameSize (strlcpy nameSize v.atlasDirname) crontabNewSuf =
          upload.path := by
        rw [strlcpy_of_lt (by omega), strlcat_of_lt hlt, huploading.path]
      have hlegal : Legal (.installed v.ts.id v.atlasDirname upload.contents) v.log :=
        ⟨h.atlas _ h.owner, huploading.uploaded⟩
      rw [wp_bind, record, wp_modify, hfilename]
      simp only [Function.update_self]
      have hinstalled := hcommanding.toCore.record rfl hlegal
      refine ensures_of_keeps (keeps_updateCron env)
        fun v' htalks => ⟨htalks.state, ?_⟩
      refine Commanding.talks ?_ htalks
      exact ⟨⟨hinstalled.legal, hinstalled.streams, hinstalled.atlas⟩, h.owner, rfl⟩

end Crontab

/-! ### Commands and lines -/

section Lines

variable {D : ℕ → Prop} {v : View} {line : Bytes} {env : LineEnv}

/-- The command at `do_cmd`. -/
lemma doCmd_spec (h : Commanding v) (hstate : v.ts.state = .getCmd) :
    Ensures (doCmd line env) v fun _ v' => ViewOk D v' := by
  have hdone : ∀ {v' : View}, Commanding v' → v'.ts.state = .getCmd → ViewOk D v' := by
    intro v' hv' hstate'
    exact hv'.viewOk (by rw [hstate']; decide)
  have hcommand : ∀ command, Commanding { v with log := .command v.ts.id command :: v.log } :=
    fun command => { h.toCore.command h.owner command with owner := h.owner, closed := h.closed }
  have hreply {v' : View} {reply : Reply} {verdict : Verdict} (hv' : Commanding v')
      (hstate' : v'.ts.state = .getCmd) (hbusy : reply ≠ .crontabBusy) :
      Ensures (do add2sock reply; pure verdict) v' fun _ v'' => ViewOk D v'' :=
    Wp.bind (hv'.replied hbusy) fun _ _ h => hdone h.2 (h.1.trans hstate')
  refine wp_ite (fun _ => ?_) fun _ => wp_ite (fun _ => ?_) fun _ => wp_ite (fun _ => ?_) fun _ =>
    wp_ite (fun _ => ?_) fun _ => wp_ite (fun _ => ?_) fun _ => ?_
  · rw [wp_bind, record]
    refine Wp.bind (startCrontab_spec (hcommand .crontab)) fun opened v' hv' => ?_
    obtain ⟨hsame, hopened⟩ := hv'
    refine wp_ite (fun htrue => ?_) fun hfalse => ?_
    · rw [if_pos htrue] at hopened
      refine ⟨hopened.legal, Streams.sessionOk { hopened.streams with } ?_, hopened.atlas, ?_⟩
      · exact ⟨nofun, nofun⟩
      · intro upload hopen
        exact ⟨v'.ts.id, hopened.owner, uploads_self rfl, { hopened.uploading upload hopen with }⟩
    · rw [if_neg hfalse] at hopened
      exact hdone hopened (hsame.trans hstate)
  · rw [wp_bind, record]
    refine ensures_bind (keeps_doOneoff line env) fun _ v' htalks => ?_
    exact hdone ((hcommand .oneoff).talks htalks) (htalks.state.trans hstate)
  · exact hdone (hcommand .reboot) hstate
  · refine wp_ite (fun _ => hreply (hcommand .reload) hstate nofun) fun _ => ?_
    refine wp_ite (fun _ => hreply (hcommand .reload) hstate nofun) fun _ => ?_
    exact hdone (hcommand .reload) hstate
  · refine ensures_bind (keeps_add2sock nofun) fun _ v' htalks => ?_
    have hv' := h.talks htalks
    refine Commanding.viewOk { hv' with streams := { hv'.streams with } } ?_
    exact ⟨nofun, nofun⟩
  · exact hreply h hstate nofun

/-- What holds when a line has been returned and has not been handled yet; `past` is the log before.
-/
structure Pending (D : ℕ → Prop) (line : Bytes) (file : Option Bytes)
    (past : List Event) (v : View) : Prop extends Core v where
  log : v.log = .line v.ts.id line file :: past
  login : v.ts.state = .getLoginname → returned v.ts.id v.log = [line]
  password : v.ts.state = .getPassword → ∃ file', .line v.ts.id atlasLogin file' ∈ past
  unauthenticated : v.ts.state = .getLoginname ∨ v.ts.state = .getPassword →
    .authenticated v.ts.id ∉ v.log
  owner : v.ts.state.isAtlas → v.atlasTs = some v.ts.id
  upload : ∀ upload, v.atlasCrontab = some upload →
    ∃ id, v.atlasTs = some id ∧ Uploads D v.ts id ∧
      Uploading { v.toShared with log := past } id upload

/-- A line is returned. -/
lemma ViewOk.pending (h : ViewOk D v) {input : Input}
    (hget : v.ts.input.getline2pty = (some line, input))
    (howner : v.ts.state.isAtlas → v.atlasTs = some v.ts.id) (file : Option Bytes) :
    Pending D line file v.log { v with
      ts := { v.ts with input := input }, log := .line v.ts.id line file :: v.log } where
  legal := ⟨(h.session.line hget file).2.1, h.legal⟩
  streams := (h.session.line hget file).1
  atlas id hid := h.atlas id hid
  log := rfl
  login hstate := by
    have hreturned := (h.session.line hget file).2.2
    rwa [h.session.login hstate] at hreturned
  password hstate := h.session.password hstate
  unauthenticated hstate hin := by
    rcases mem_cons.mp hin with heq | hin
    · cases heq
    · exact h.session.unauthenticated hstate hin
  owner := howner
  upload upload hopen := by
    obtain ⟨id, hid, huploads, huploading⟩ := h.upload upload hopen
    exact ⟨id, hid, huploads, { huploading with }⟩

variable {file : Option Bytes} {past : List Event}

/-- Outside of the state `DO_CRONTAB` an open crontab belongs to another session, and the line does
not matter for it. -/
lemma Pending.uploading (h : Pending D line file past v) (hstate : v.ts.state ≠ .doCrontab) :
    ∀ upload, v.atlasCrontab = some upload → ∃ id, v.atlasTs = some id ∧ (id ≠ v.ts.id ∧ D id) ∧
      Uploading v.toShared id upload := by
  intro upload hopen
  obtain ⟨id, hid, huploads, huploading⟩ := h.upload upload hopen
  unfold Uploads at huploads
  have hne : id ≠ v.ts.id := fun heq => hstate (by rwa [if_pos heq] at huploads)
  rw [if_neg hne] at huploads
  refine ⟨id, hid, ⟨hne, huploads⟩, huploading.path, huploading.length, ?_⟩
  rw [h.log]
  exact huploading.uploaded.cons rfl (cronlines_of_ne fun heq => hne heq.symm)

lemma loginname_spec (h : Pending D line file past v) (hstate : v.ts.state = .getLoginname) :
    Ensures (loginname line) v fun _ v' => ViewOk D v' := by
  have hupload := h.uploading (by rw [hstate]; decide)
  refine wp_ite (fun hline => ?_) fun _ => ?_
  · refine ensures_bind (keeps_add2sock nofun) fun _ v' htalks => ?_
    have hcore := h.toCore.talks htalks
    obtain ⟨new, hlog, hquiet, -⟩ := htalks.exists_new
    refine ⟨hcore.legal, ⟨{ hcore.streams with }, nofun, fun _ => ⟨file, ?_⟩, fun _ => ?_⟩,
      hcore.atlas, fun upload hopen => ?_⟩
    · rw [hlog, h.log, htalks.id, hline]
      exact mem_append_right _ mem_cons_self
    · rw [hlog, htalks.id]
      intro hin
      rcases mem_append.mp hin with hin | hin
      · exact ne_authenticated_of_quiet (hquiet _ hin) _ rfl
      · exact h.unauthenticated (.inl hstate) hin
    · obtain ⟨id, hid, hother, huploading⟩ := hupload upload (htalks.atlasCrontab.symm.trans hopen)
      exact ⟨id, htalks.atlasTs.trans hid, uploads_of_ne hother htalks.id,
        { huploading.talks htalks with }⟩
  · have hecho : Reply.echo line ≠ .crontabBusy := nofun
    refine ensures_bind (keeps_add2sock hecho) fun _ v' htalks => ?_
    have hcore := h.toCore.talks htalks
    obtain ⟨new, hlog, hquiet, -⟩ := htalks.exists_new
    have hreturned : returned v'.ts.id v'.log = [line] := by
      rw [hlog, htalks.id, ← h.login hstate]
      exact Trace.gather_append_of_nil fun e he => (bytes_of_quiet (hquiet e he)).2
    have hlegal : Legal (.login v'.ts.id line) v'.log := by
      change (goodLines (received v'.ts.id v'.log)).head? = some line
      rw [hcore.streams.lines, hreturned]
      rfl
    have hlogin := hcore.record rfl hlegal
    refine ⟨hlogin.legal, Streams.sessionOk { hlogin.streams with } ⟨nofun, nofun⟩, hlogin.atlas,
      fun upload hopen => ?_⟩
    obtain ⟨id, hid, hother, huploading⟩ := hupload upload (htalks.atlasCrontab.symm.trans hopen)
    have huploading' := huploading.talks htalks
    refine ⟨id, htalks.atlasTs.trans hid, uploads_of_ne hother htalks.id,
      huploading'.path, huploading'.length, ?_⟩
    exact huploading'.uploaded.cons rfl rfl

lemma password_spec (h : Pending D line env.sessionFile past v)
    (hstate : v.ts.state = .getPassword) :
    Ensures (password line env) v fun _ v' => ViewOk D v' := by
  have hupload := h.uploading (by rw [hstate]; decide)
  refine wp_ite (fun hequal => ?_) fun _ => ?_
  · have hclosed : (v.takeOver env.left).atlasCrontab = none := by
      unfold View.takeOver
      split_ifs with hsome
      · exact (closeCrontab_eq v env.left).1
      · cases hopen : v.atlasCrontab with
        | none => rfl
        | some upload =>
          obtain ⟨id, hid, -⟩ := hupload upload hopen
          rw [hid] at hsome
          exact absurd rfl hsome
    obtain ⟨hts, hlog⟩ := takeOver_eq v env.left
    obtain ⟨file', hlogin⟩ := h.password hstate
    have hlegal : Legal (.authenticated v.ts.id) v.log :=
      ⟨h.unauthenticated (.inr hstate), line, env.sessionFile, past, h.log,
        of_decide_eq_true hequal, file', hlogin⟩
    rw [wp_bind, wp_modify, wp_bind, record, wp_modify, wp_bind, setState, wp_modify]
    refine ⟨?_, Streams.sessionOk ?_ ⟨nofun, nofun⟩, ?_, ?_⟩
    · rw [hts, hlog]
      exact ⟨hlegal, h.legal⟩
    · rw [hts, hlog]
      exact { h.streams.cons rfl rfl with }
    · rintro id ⟨⟩
      exact congrArg (fun ts : Session => some ts.id) hts
    · intro upload hopen
      cases hclosed.symm.trans hopen
  · refine ensures_bind (keeps_add2sock nofun) fun _ v' htalks => ?_
    obtain ⟨file', hlogin⟩ := h.password hstate
    refine ViewOk.talks ⟨h.legal, ⟨h.streams, ?_, fun _ => ⟨file', ?_⟩, h.unauthenticated⟩, h.atlas,
      fun upload hopen => ?_⟩ htalks
    · rw [hstate]
      exact nofun
    · rw [h.log]
      exact mem_cons_of_mem _ hlogin
    · obtain ⟨id, hid, hother, huploading⟩ := hupload upload hopen
      exact ⟨id, hid, uploads_of_ne hother rfl, huploading⟩

lemma crontabLine_spec (h : Pending D line file past v) (hstate : v.ts.state = .doCrontab) :
    Ensures (crontabLine line env) v fun _ v' => ViewOk D v' := by
  have howner : v.atlasTs = some v.ts.id := h.owner (by rw [hstate]; rfl)
  have hupload : ∀ upload, v.atlasCrontab = some upload →
      Uploading { v.toShared with log := past } v.ts.id upload := by
    intro upload hopen
    obtain ⟨id, hid, -, huploading⟩ := h.upload upload hopen
    cases howner.symm.trans hid
    exact huploading
  refine wp_ite (fun hline => ?_) fun hline => ?_
  · rw [wp_bind, record]
    have hcore := h.toCore.command howner .cronline
    have hadd := addToCrontab_spec (line.drop cmdCronline.length) env hcore howner
      fun upload hopen => by
        have huploading := hupload upload hopen
        refine ⟨huploading.path, huploading.length, ?_⟩
        rw [h.log]
        exact (huploading.uploaded.line hline file).cons rfl rfl
    refine Wp.bind hadd fun _ v' hv' => ?_
    obtain ⟨hsame, hfilling⟩ := hv'
    have hdo : v'.ts.state = .doCrontab := hsame.trans hstate
    refine ⟨hfilling.legal, hfilling.streams.sessionOk ?_, hfilling.atlas, fun upload hopen => ?_⟩
    · rw [hdo]
      decide
    · exact ⟨v'.ts.id, hfilling.owner, uploads_self hdo, hfilling.uploading upload hopen⟩
  · have hfilling : Filling v := by
      refine ⟨h.toCore, howner, fun upload hopen => ?_⟩
      have huploading := hupload upload hopen
      refine ⟨huploading.path, huploading.length, ?_⟩
      rw [h.log]
      exact huploading.uploaded.cons rfl (if_neg fun hboth => hline hboth.2)
    refine Wp.bind (endCrontab_spec env hfilling) fun _ v' hv' => ?_
    refine doCmd_spec ?_ rfl
    exact ⟨⟨hv'.2.legal, { hv'.2.streams with }, hv'.2.atlas⟩, hv'.2.owner, hv'.2.closed⟩

/-- Every state handles a line. -/
lemma handleLine_spec (h : Pending D line env.sessionFile past v)
    (hdo : v.ts.state ≠ .doTraditional) :
    Ensures (handleLine line env) v fun _ v' => ViewOk D v' := by
  unfold handleLine
  rw [Ensures, wp_bind, wp_get]
  have hcommanding : v.ts.state.isAtlas → v.ts.state ≠ .doCrontab → Commanding v := by
    intro hatlas hne
    refine { h.toCore with owner := h.owner hatlas, closed := ?_ }
    by_contra hopen
    obtain ⟨upload, hsome⟩ := Option.ne_none_iff_exists'.mp hopen
    obtain ⟨id, hid, ⟨hother, -⟩, -⟩ := h.uploading hne upload hsome
    exact hother (Option.some.inj (hid.symm.trans (h.owner hatlas)))
  cases hstate : v.ts.state with
  | doTraditional => exact absurd hstate hdo
  | getLoginname => exact loginname_spec h hstate
  | getPassword => exact password_spec h hstate
  | getCmd =>
    exact doCmd_spec (hcommanding (by rw [hstate]; rfl) (by rw [hstate]; decide)) hstate
  | doCrontab => exact crontabLine_spec h hstate
  | eomSeen =>
    have hv := hcommanding (by rw [hstate]; rfl) (by rw [hstate]; decide)
    refine ensures_bind (keeps_add2sock nofun) fun _ v' htalks => ?_
    exact (hv.talks htalks).viewOk (by rw [htalks.state, hstate]; decide)

/-- One round of the loop behind `skip3`. -/
lemma serveLine_spec (h : ViewOk D v) (env : LineEnv) :
    Ensures (serveLine env) v fun _ v' => ViewOk D v' := by
  unfold serveLine
  refine wp_ite (fun _ => h) fun hdo => wp_ite (fun _ => h) fun hkill => ?_
  have howner : v.ts.state.isAtlas → v.atlasTs = some v.ts.id := by
    intro hatlas
    by_contra hne
    exact hkill ⟨hatlas, hne⟩
  rw [wp_bind, getline2pty, wp_bind, wp_get]
  rcases hget : v.ts.input.getline2pty with ⟨_ | line, input⟩
  · exact ⟨h.legal, ⟨h.session.dropped hget, h.session.login, h.session.password,
      h.session.unauthenticated⟩, h.atlas, fun upload hopen => by
        obtain ⟨id, hid, huploads, huploading⟩ := h.upload upload hopen
        exact ⟨id, hid, huploads.congr rfl rfl, { huploading with }⟩⟩
  · exact handleLine_spec (h.pending hget howner env.sessionFile) hdo

/-- The loop behind `skip3`. -/
lemma serveLines_spec (h : ViewOk D v) (n : ℕ) (env : ℕ → LineEnv) :
    Ensures (serveLines n env) v fun _ v' => ViewOk D v' := by
  induction n generalizing v env with
  | zero => exact h
  | succ n ih =>
    refine Wp.bind (serveLine_spec h (env 0)) fun verdict v' hv' => ?_
    cases verdict with
    | again => exact ih hv' _
    | leave => exact hv'
    | kill => exact hv'

end Lines

end AtlasProbe.Telnetd
