import AtlasProbe.Telnetd.Sessions

/-!
# Who commands the probe

A command is carried out only for a session that has sent the name `C_TO_P_TEST_V1` and the session
ID, and only until another session does the same.  A crontab is installed only as a whole
(`exists_authenticated`, `lines_of_authenticated`).  But the argument of the login program is
whatever a client sends first.
-/

namespace AtlasProbe.Telnetd

open List

/-! ### Commands -/

/-- The event is an action for a session: a command, or the installation of its crontab. -/
def Event.acts (id : ℕ) : Event → Bool
  | .command i _ | .installed i _ _ => i = id
  | _ => false

section Authentication

variable {id : ℕ} {log past recent : List Event} {e : Event}

lemma lastAuthenticated_of_acts (hlegal : Legal e past) (hact : e.acts id) :
    lastAuthenticated past = some id := by
  cases e with
  | command i c =>
    obtain rfl : i = id := of_decide_eq_true hact
    exact hlegal
  | installed i dir contents =>
    obtain rfl : i = id := of_decide_eq_true hact
    exact hlegal.1
  | _ => cases hact

/-- The session that has authenticated last has authenticated. -/
lemma exists_authenticated (h : lastAuthenticated log = some id) :
    ∃ recent before, log = recent ++ .authenticated id :: before := by
  induction log with
  | nil => cases h
  | cons e log ih =>
    by_cases hauth : ∃ i, e = .authenticated i
    · obtain ⟨i, rfl⟩ := hauth
      cases h
      exact ⟨[], log, rfl⟩
    · rw [lastAuthenticated_cons fun i heq => hauth ⟨i, heq⟩] at h
      obtain ⟨recent, before, rfl⟩ := ih h
      exact ⟨e :: recent, before, rfl⟩

/-- If another session has authenticated, then the last one has done so since. -/
lemma authenticated_mem_of_ne {newer : ℕ}
    (h : lastAuthenticated (recent ++ .authenticated newer :: past) = some id)
    (hne : newer ≠ id) : .authenticated id ∈ recent := by
  induction recent with
  | nil => exact absurd (Option.some.inj h) hne
  | cons e recent ih =>
    by_cases hauth : ∃ i, e = .authenticated i
    · obtain ⟨i, rfl⟩ := hauth
      cases h
      exact mem_cons_self
    · rw [cons_append, lastAuthenticated_cons fun i heq => hauth ⟨i, heq⟩] at h
      exact mem_cons_of_mem _ (ih h)

/-- Before a session authenticates, it sends the name and the session ID. -/
lemma lines_of_authenticated (h : Trace.Lawful Legal (.authenticated id :: past)) :
    ∃ passwd file mid file' before,
      past = .line id passwd file :: (mid ++ .line id atlasLogin file' :: before) ∧
      storedSessionid file = some passwd ∧
      Sent id passwd (mid ++ .line id atlasLogin file' :: before) ∧ Sent id atlasLogin before := by
  obtain ⟨⟨-, passwd, file, front, rfl, hstored, file', hlogin⟩, hpassword, hfront⟩ := h
  obtain ⟨mid, before, rfl⟩ := append_of_mem hlogin
  exact ⟨passwd, file, mid, file', before, rfl, hstored, hpassword, hfront.of_append.1⟩

end Authentication

/-- **Only an authenticated session commands the probe.**  Whenever the process acts for a session,
the session has sent the line `C_TO_P_TEST_V1` before, and then a line that was the session ID in
the session file at that moment; and no other session has authenticated since this one did. -/
theorem commands_authenticated {s : Process} (h : Reached s) {later past : List Event} {e : Event}
    {id : ℕ} (hlog : s.log = later ++ e :: past) (hact : e.acts id) :
    (∃ recent passwd file mid file' before,
      past = recent ++ .line id passwd file :: (mid ++ .line id atlasLogin file' :: before) ∧
      storedSessionid file = some passwd ∧
      Sent id passwd (mid ++ .line id atlasLogin file' :: before) ∧ Sent id atlasLogin before) ∧
    ∀ newer recent before, newer ≠ id → past = recent ++ .authenticated newer :: before →
      .authenticated id ∉ before := by
  have hlawful : Trace.Lawful Legal (e :: past) := (hlog ▸ h.ok.legal).of_append
  have hlast := lastAuthenticated_of_acts hlawful.1 hact
  constructor
  · obtain ⟨recent, before, rfl⟩ := exists_authenticated hlast
    obtain ⟨passwd, file, mid, file', front, rfl, hlines⟩ :=
      lines_of_authenticated hlawful.2.of_append
    exact ⟨recent ++ [.authenticated id], passwd, file, mid, file', front, append_cons .., hlines⟩
  · rintro newer recent before hne rfl hin
    -- The session would have authenticated twice.
    obtain ⟨recent', mid, rfl⟩ := append_of_mem (authenticated_mem_of_ne hlast hne)
    have hauth := hlawful.2
    rw [append_assoc, cons_append] at hauth
    have honce := hauth.of_append.1.1
    exact honce (mem_append_right _ (mem_cons_of_mem _ hin))

/-! ### A client -/

/-- A world in which everything succeeds and the session ID is 42. -/
def goodWorld : LineEnv where
  sessionFile := some (ascii "\nSESSION_ID 42\n")
  spooldir := ⟨ascii "/spool", by decide⟩
  atlasUnsafe := false
  fopenOk := true
  fputsOk := true
  fcloseOk := true
  renameOk := true
  update := .done
  grabOk := true
  releaseOk := true
  mountOk := true
  left := []

/-- A connection over which `data` arrive in one piece. -/
def connection (data : Bytes) : Option Process := do
  let s ← (Process.initial fun _ => none).accept []
  let ts ← s.sessions 0
  s.serve ts ⟨false, .no, .done data, fun _ => goodWorld, []⟩

lemma reached_connection {data : Bytes} {s : Process} (h : connection data = some s) :
    Reached s := by
  unfold connection at h
  simp only [Option.bind_eq_bind, Option.bind_eq_some_iff] at h
  obtain ⟨s₁, haccept, ts, hts, hserve⟩ := h
  exact ((Reached.initial _).accept _ haccept).serve _ hts hserve

/-- The state after a connection, if its log has an event. -/
lemma exists_of_connection {data : Bytes} {e : Event}
    (h : (connection data).map (fun s => decide (e ∈ s.log)) = some true) :
    ∃ s, Reached s ∧ e ∈ s.log := by
  obtain ⟨s, hs, hin⟩ := Option.map_eq_some_iff.mp h
  exact ⟨s, reached_connection hs, of_decide_eq_true hin⟩

/-- A client that uploads a crontab with one line. -/
def uploadText : Bytes :=
  ascii "C_TO_P_TEST_V1\r42\rCRONTAB /home/atlas/crons/main\rCRONLINE 240 evping\r\r"

theorem commands_authenticated_upload :
    ∃ s later past, Reached s ∧ s.log = later ++ .command 0 .crontab :: past ∧
      ∃ recent passwd file mid file' before,
        past = recent ++ .line 0 passwd file :: (mid ++ .line 0 atlasLogin file' :: before) ∧
        storedSessionid file = some passwd := by
  have hrun : (connection uploadText).map (fun s => decide (.command 0 .crontab ∈ s.log)) =
      some true := by decide +kernel
  obtain ⟨s, hs, hin⟩ := exists_of_connection hrun
  obtain ⟨later, past, hlog⟩ := append_of_mem hin
  obtain ⟨⟨recent, passwd, file, mid, file', before, hpast, hstored, -⟩, -⟩ :=
    commands_authenticated hs hlog (show Event.acts 0 _ = true from rfl)
  exact ⟨s, later, past, hs, hlog, recent, passwd, file, mid, file', before, hpast, hstored⟩

/-! ### Crontabs -/

/-- **Crontabs are installed whole or not at all.**  Whenever `end_crontab` renames a new crontab,
its contents are the texts of the `CRONLINE` lines that have been returned for the session since it
opened the crontab, one on each line.  The session is the one that has authenticated last, and since
it opened the crontab no session has authenticated, this one has not been freed, and no write has
failed.  An open crontab belongs to the Atlas session, in the state `DO_CRONTAB`, so that no session
is told that the crontab is busy. -/
theorem crontabs_installed_whole {s : Process} (h : Reached s) :
    (∀ later id dir contents past, s.log = later ++ .installed id dir contents :: past →
      lastAuthenticated past = some id ∧ ∃ recent before,
        past = recent ++ .opened id dir :: before ∧
        contents = crontabText (cronlines id recent) ∧ ∀ e ∈ recent, e.cuts id = false) ∧
    (∀ id, .reply id .crontabBusy ∉ s.log) ∧
    ∀ upload, s.atlasCrontab = some upload →
      ∃ id ts, s.atlasTs = some id ∧ s.sessions id = some ts ∧ ts.state = .doCrontab := by
  have hok := h.ok
  refine ⟨?_, ?_, ?_⟩
  · intro later id dir contents past hlog
    exact (hlog ▸ hok.legal).of_append.1
  · intro id hin
    obtain ⟨later, past, hlog⟩ := append_of_mem hin
    exact (hlog ▸ hok.legal).of_append.1 rfl
  · intro upload hopen
    obtain ⟨id, ts, howner, hts, hstate, -⟩ := hok.upload upload hopen
    exact ⟨id, ts, howner, hts, hstate⟩

theorem crontabs_installed_whole_upload :
    ∃ s later past recent before, Reached s ∧
      s.log = later ++ .installed 0 (ascii "/spool/crons/main") (ascii "240 evping\n") :: past ∧
      past = recent ++ .opened 0 (ascii "/spool/crons/main") :: before ∧
      ascii "240 evping\n" = crontabText (cronlines 0 recent) := by
  have hrun : (connection uploadText).map (fun s => decide
      (.installed 0 (ascii "/spool/crons/main") (ascii "240 evping\n") ∈ s.log)) = some true := by
    decide +kernel
  obtain ⟨s, hs, hin⟩ := exists_of_connection hrun
  obtain ⟨later, past, hlog⟩ := append_of_mem hin
  obtain ⟨-, recent, before, hpast, hcontents, -⟩ := (crontabs_installed_whole hs).1 _ _ _ _ _ hlog
  exact ⟨s, later, past, recent, before, hs, hlog, hpast, hcontents⟩

/-! ### The login program -/

/-- **The argument of the login program is the first line.**  The name that `start_login` passes on
does not start with a dash if and only if the first line that the client has sent, not counting
lines with a zero in them, does not. -/
theorem login_user_not_option_iff {s : Process} (h : Reached s) {id : ℕ} {user : Bytes}
    (hlogin : .login id user ∈ s.log) :
    user.head? ≠ some 45 ↔
      ∀ line, (goodLines (received id s.log)).head? = some line → line.head? ≠ some 45 := by
  obtain ⟨later, past, hlog⟩ := append_of_mem hlogin
  have hlegal : (goodLines (received id past)).head? = some user := (hlog ▸ h.ok.legal).of_append.1
  have hfirst : (goodLines (received id s.log)).head? = some user := by
    -- More bytes do not change the first line.
    rw [hlog, append_cons, received, Trace.gather_append, goodLines_append, head?_append]
    exact congrArg (Option.or · _) hlegal
  rw [hfirst]
  constructor
  · rintro huser line ⟨⟩
    exact huser
  · intro hall
    exact hall user rfl

theorem login_user_not_option_iff_guest :
    ∃ s, Reached s ∧ .login 0 (ascii "guest") ∈ s.log ∧ (ascii "guest").head? ≠ some 45 ∧
      ∀ line, (goodLines (received 0 s.log)).head? = some line → line.head? ≠ some 45 := by
  have hrun : (connection (ascii "guest\r")).map (fun s => decide
      (.login 0 (ascii "guest") ∈ s.log)) = some true := by decide +kernel
  obtain ⟨s, hs, hin⟩ := exists_of_connection hrun
  have hguest : (ascii "guest").head? ≠ some 45 := by decide
  exact ⟨s, hs, hin, hguest, (login_user_not_option_iff hs hin).mp hguest⟩

/-- A client that sends `-froot` as its name. -/
theorem login_user_option :
    ∃ s, Reached s ∧ .login 0 (ascii "-froot") ∈ s.log ∧ (ascii "-froot").head? = some 45 := by
  have hrun : (connection (ascii "-froot\r")).map (fun s => decide
      (.login 0 (ascii "-froot") ∈ s.log)) = some true := by decide +kernel
  obtain ⟨s, hs, hin⟩ := exists_of_connection hrun
  exact ⟨s, hs, hin, by decide⟩

end AtlasProbe.Telnetd
