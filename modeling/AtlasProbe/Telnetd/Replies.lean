import AtlasProbe.Telnetd.Commands

/-!
# Room for the replies

A reply that does not fit into the second buffer of its session aborts the process.  The lines that
wait in the first buffer are handled in one loop, in which nothing is written to the socket.  What
their replies can take is `backlog`, the sum of `lineCost` along the states of the session: nothing
for the lines of a crontab that can be written, 16 bytes for a wrong session ID, and the length of a
name that is sent back.

A pass over a session does not abort if there is that much room (`Fits`), and neither does the
greeting (`serveSession_returns`), so that the process stays alive.  A client that sends more lines
at once aborts the process.
-/

namespace AtlasProbe.Telnetd

open List

/-! ### The lines that wait -/

/-- What the replies to the lines that wait can take in a state; the world decides `env`. -/
def backlog : SessionState → List Bytes → (ℕ → LineEnv) → ℕ
  | _, [], _ => 0
  | state, line :: lines, env =>
    lineCost state line (env 0) fun next => backlog next lines fun k => env (k + 1)

/-- There is room for the replies to all lines that wait. -/
def Roomy (v : View) (env : ℕ → LineEnv) : Prop :=
  v.HasRoom (backlog v.ts.state (Lines.complete eol v.ts.input.contents) env)

section Lines

variable {v : View}

/-- What the code sees that handles a line: `input` is left in the first buffer. -/
def View.took (v : View) (line : Bytes) (env : LineEnv) (input : Input) : View :=
  { v with ts := { v.ts with input := input }, log := .line v.ts.id line env.sessionFile :: v.log }

/-- One turn of the loop ends the loop, or handles the first line that waits. -/
lemma wp_serveLine {env : LineEnv} {Q : Verdict → View → Prop} {E : Abort → View → Prop}
    (hstop : ∀ verdict v', verdict ≠ .again → Q verdict v')
    (hline : ∀ line input, input.contents.length < v.ts.input.contents.length →
      Lines.complete eol v.ts.input.contents = line :: Lines.complete eol input.contents →
      Wp (handleLine line env) (v.took line env input) Q E) :
    Wp (serveLine env) v Q E := by
  unfold serveLine
  refine wp_ite (fun _ => hstop _ _ nofun) fun _ => wp_ite (fun _ => hstop _ _ nofun) fun _ => ?_
  rw [wp_bind, getline2pty, wp_bind, wp_get]
  rcases v.ts.input.getline2pty_spec with ⟨hget, -⟩ | ⟨line, input, hget, hlength, hlines, -⟩
  · rw [hget]
    exact hstop _ _ nofun
  · rw [hget]
    by_cases hzero : 0 ∈ line
    · rw [if_pos hzero]
      exact hstop _ _ nofun
    · rw [if_neg hzero]
      exact hline line input hlength hlines

/-- Handling a line leaves room for the replies to the next ones. -/
lemma serveLine_roomy {env : ℕ → LineEnv} (h : Roomy v env) :
    Wp (serveLine (env 0)) v (fun verdict v' => verdict = .again → Roomy v' fun k => env (k + 1))
      fun _ _ => False := by
  refine wp_serveLine (fun _ _ hne heq => absurd heq hne) fun line input _ hlines => ?_
  unfold Roomy at h
  rw [hlines] at h
  refine (serves_handleLine line (env 0) _ _ (v.took line (env 0) input) rfl).mono ?_
    fun _ _ habort => habort.2 h
  rintro verdict v' ⟨hhandles, hroom⟩ hagain
  unfold Roomy
  rw [hhandles.input]
  exact hroom h hagain

lemma serveLines_returns {env : ℕ → LineEnv} (h : Roomy v env) (n : ℕ) :
    Wp (serveLines n env) v (fun _ _ => True) fun _ _ => False := by
  induction n generalizing v env with
  | zero => trivial
  | succ n ih =>
    refine (serveLine_roomy h).bind fun verdict v' hv' => ?_
    cases verdict with
    | again => exact ih (hv' rfl)
    | leave => trivial
    | kill => trivial

end Lines

/-! ### One pass -/

/-- Where the replies end that a pass leaves in the second buffer. -/
def unsent (ts : Session) (pass : Pass) : ℕ :=
  match pass.write with
  | .done count => if 0 < ts.out.size ∧ ts.out.size ≤ count then 0 else ts.out.rdidx
  | _ => ts.out.rdidx

/-- The bytes that a pass adds to the first buffer. -/
def arrived (ts : Session) (pass : Pass) : Bytes :=
  match pass.read with
  | .done data => if ts.input.1.size < bufsize then kept (ts.input.taken data) else []
  | _ => []

/-- There is room for the replies of a pass: behind the replies that it leaves unsent, what the
replies to the lines that then wait can take. -/
def Fits (ts : Session) (pass : Pass) : Prop :=
  unsent ts pass +
    backlog ts.state (Lines.complete eol (ts.input.contents ++ arrived ts pass)) pass.lines ≤
      bufsize

instance (ts : Session) (pass : Pass) : Decidable (Fits ts pass) := Nat.decLe _ _

section Pass

variable {v : View} {pass : Pass}

lemma wrote_rdidx_le {b : Buf2} (h : b.Valid) (count : ℕ) :
    (b.wrote (min count b.pending)).rdidx ≤
      if 0 < b.size ∧ b.size ≤ count then 0 else b.rdidx := by
  obtain ⟨heq, hle⟩ := h
  have hpending : b.pending = b.size := by
    unfold Buf2.pending
    omega
  simp only [Buf2.wrote, hpending]
  by_cases hall : b.size ≤ count
  · have hzero : b.size - min count b.size = 0 := by omega
    rw [if_pos hzero]
    exact Nat.zero_le _
  · have hsome : ¬b.size - min count b.size = 0 := by omega
    have hrest : ¬(0 < b.size ∧ b.size ≤ count) := fun h => hall h.2
    rw [if_neg hsome, if_neg hrest]

lemma writeSocket_returns (h : v.ts.out.Valid) (pass : Pass) :
    Wp (writeSocket pass) v (fun _ v' => v'.ts.out.Valid ∧ v'.ts.out.rdidx ≤ unsent v.ts pass ∧
      v'.ts.input = v.ts.input ∧ v'.ts.state = v.ts.state) fun _ _ => False := by
  unfold writeSocket unsent
  refine wp_ite (fun hzero => ?_) fun _ => ?_
  · refine ⟨h, ?_, rfl, rfl⟩
    cases pass.write with
    | done count =>
      have hnone : ¬(0 < v.ts.out.size ∧ v.ts.out.size ≤ count) := by omega
      exact (if_neg hnone).ge
    | _ => exact le_rfl
  · cases pass.write with
    | done count => exact ⟨h.wrote _, wrote_rdidx_le h count, rfl, rfl⟩
    | _ => exact ⟨h, le_rfl, rfl, rfl⟩

lemma readSocket_returns (v : View) (pass : Pass) :
    Wp (readSocket pass) v (fun goesOn v' => goesOn = true → v'.ts.out = v.ts.out ∧
      v'.ts.state = v.ts.state ∧
      v'.ts.input.contents = v.ts.input.contents ++ arrived v.ts pass) fun _ _ => False := by
  unfold readSocket arrived
  refine wp_ite (fun hfull _ => ?_) fun hsize => ?_
  · refine ⟨rfl, rfl, ?_⟩
    cases pass.read with
    | done data =>
      change _ = _ ++ if v.ts.input.1.size < bufsize then _ else []
      rw [if_neg (Nat.not_lt.mpr hfull), append_nil]
    | _ => exact (append_nil _).symm
  · have hlt := Nat.lt_of_not_le hsize
    cases pass.read with
    | no | again => exact fun _ => ⟨rfl, rfl, (append_nil _).symm⟩
    | failed => exact nofun
    | done data =>
      refine wp_ite (fun _ => nofun) fun _ _ => ⟨rfl, rfl, ?_⟩
      change (v.ts.input.recv data).contents = _ ++ if v.ts.input.1.size < bufsize then _ else []
      rw [if_pos hlt, Input.contents_recv hlt]

/-- A pass does not abort if there is room for its replies. -/
lemma serveSession_returns (h : v.ts.out.Valid) (hfits : Fits v.ts pass) :
    Wp (serveSession pass) v (fun _ _ => True) fun _ _ => False := by
  have hup : Wp (serveUp pass) v (fun _ _ => True) fun _ _ => False := by
    unfold serveUp
    refine wp_ite (fun _ => trivial) fun _ => ?_
    refine (writeSocket_returns h pass).bind fun _ v₁ hv₁ => wp_ite (fun _ => trivial) fun _ => ?_
    obtain ⟨hvalid, hle, hinput, hstate⟩ := hv₁
    refine (readSocket_returns v₁ pass).bind fun goesOn v₂ hv₂ =>
      wp_ite (fun _ => trivial) fun hgo => ?_
    obtain ⟨hout, hstate₂, hcontents⟩ := hv₂ (by simpa using hgo)
    refine (serveLines_returns ⟨hout ▸ hvalid, ?_⟩ _).bind fun _ _ _ => trivial
    have harrived : arrived v₁.ts pass = arrived v.ts pass := by
      unfold arrived
      rw [hinput]
    rw [hout, hstate₂, hstate, hcontents, hinput, harrived]
    exact (Nat.add_le_add_right hle _).trans hfits
  refine hup.bind fun _ _ _ => wp_ite (fun _ => ?_) fun _ => trivial
  trivial

end Pass

/-! ### The process -/

/-- The greeting fits into the buffer of a new session. -/
lemma handler_greet (probe : Bytes) : Handler 130 (greet probe) := by
  have hprobe : (Reply.probe (snprintf 80 probe)).text.length ≤ 79 := length_take_le ..
  have hprefix : Reply.loginPrefix.text.length = 43 := by decide
  have hprompt : Reply.loginPrompt.text.length = 8 := by decide
  refine Built.mono (Built.bind (.prim (.add2sock .loginPrefix)) fun _ =>
    Built.bind (.prim (.add2sock (.probe _))) fun _ => .prim (.add2sock .loginPrompt)) ?_
  omega

/-- **What it takes to keep the process alive.**  The process does not abort when it accepts a
connection, and not in a pass over a session if there is room for the replies to the lines that
wait.  It aborts at a call of `add_2sock` if and only if the text does not fit behind the others, or
is too long for the rest of the buffer. -/
theorem serve_returns {s : Process} (h : Reached s) :
    (∀ probe, (s.accept probe).isSome) ∧
    (∀ id ts pass, s.sessions id = some ts → Fits ts pass → (s.serve ts pass).isSome) ∧
    ∀ (b : Buf2) (len : ℕ),
      (b.add2sock len).isSome ↔ b.size + len ≤ bufsize ∧ b.rdidx + len ≤ bufsize := by
  refine ⟨fun probe => ?_, fun id ts pass hts hfits => ?_, fun b len => Buf2.add2sock_isSome_iff⟩
  · obtain ⟨_, v, hgreet, -⟩ := ((handler_greet probe).costs (s.view (newSession s.created))
      ⟨rfl, Nat.zero_le _⟩ (show 0 + 130 ≤ bufsize by decide)).exists_ok
    rw [Process.view] at hgreet
    simp only [Process.accept, hgreet, Option.isSome_some]
  · obtain ⟨freed, v, hpass, -⟩ :=
      (serveSession_returns (v := s.view ts) (h.ok.sessions id ts hts).2.2.out hfits).exists_ok
    rw [Process.view] at hpass
    simp only [Process.serve, hpass, Option.isSome_some]

/-- A client uploads a crontab with 200 lines at once. -/
def bulk : Pass where
  hangup := false
  write := .no
  read := .done (ascii "C_TO_P_TEST_V1\r42\rCRONTAB /home/atlas/crons/main\r" ++
    (replicate 200 (ascii "CRONLINE x\r")).flatten ++ [13])
  lines _ := goodWorld
  left := []

/-- The lines of the crontab are not replied to. -/
theorem serve_returns_bulk :
    ∃ s ts, Reached s ∧ s.sessions 0 = some ts ∧ (s.serve ts bulk).isSome := by
  have hrun : (((Process.initial fun _ => none).accept []).bind fun s =>
      (s.sessions 0).map fun ts => decide (Fits ts bulk)) = some true := by
    decide +kernel
  obtain ⟨s, haccept, hmap⟩ := Option.bind_eq_some_iff.mp hrun
  obtain ⟨ts, hts, hfits⟩ := Option.map_eq_some_iff.mp hmap
  have hs : Reached s := (Reached.initial _).accept _ haccept
  exact ⟨s, ts, hs, hts, (serve_returns hs).2.1 0 ts _ hts (of_decide_eq_true hfits)⟩

/-- A client that has read the greeting sends the name and then 254 empty lines, which are wrong
passwords. -/
def flood : Pass where
  hangup := false
  write := .done bufsize
  read := .done (atlasLogin ++ replicate 255 13)
  lines _ := goodWorld
  left := []

theorem serve_aborts_flood :
    ∃ s ts, Reached s ∧ s.sessions 0 = some ts ∧ unsent ts flood = 0 ∧ s.serve ts flood = none := by
  have hrun : (((Process.initial fun _ => none).accept []).bind fun s =>
      (s.sessions 0).map fun ts =>
      decide (unsent ts flood = 0 ∧ (s.serve ts flood).isNone)) = some true := by
    decide +kernel
  obtain ⟨s, haccept, hmap⟩ := Option.bind_eq_some_iff.mp hrun
  obtain ⟨ts, hts, hnone⟩ := Option.map_eq_some_iff.mp hmap
  obtain ⟨hunsent, haborts⟩ := of_decide_eq_true hnone
  exact ⟨s, ts, (Reached.initial _).accept _ haccept, hts,
    hunsent, Option.isNone_iff_eq_none.mp haborts⟩

end AtlasProbe.Telnetd
