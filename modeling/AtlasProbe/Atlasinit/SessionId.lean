import AtlasProbe.Atlasinit.Values
import AtlasProbe.Telnetd.Server

/-!
# The session ID

A controller assigns a session ID, and `atlasinit` writes it to a file.  With this file `telnetd`
checks the password of a login.  The file has more room for a session ID than the buffer that
`telnetd` reads it into, and it may also have none.
-/

namespace AtlasProbe.Atlasinit

open List FileLines
open Telnetd (memchr equalSessionid)

variable {id line : Bytes}

/-- The line with the session ID. -/
def sessionIdLine (id : Bytes) : Bytes := Telnetd.sessionIdPrefix ++ id

lemma not_mem_sessionIdLine {c : UInt8} (h : Of isHex 80 id) (hc : isHex c = false)
    (hlabel : c ∉ Telnetd.sessionIdPrefix) : c ∉ sessionIdLine id := by
  rw [sessionIdLine, mem_append, not_or]
  exact ⟨hlabel, h.not_mem hc⟩

lemma length_sessionIdLine (id : Bytes) : (sessionIdLine id).length = id.length + 11 := by
  rfl

/-- What the second call of `fgets` reads: the whole line if it fits, and no newline if not. -/
lemma fgets_sessionIdLine (h : Of isHex 80 id) :
    (id.length ≤ 67 ∧ firstLine 79 (sessionIdLine id ++ [10]) = sessionIdLine id ++ [10]) ∨
      (67 < id.length ∧ 10 ∉ firstLine 79 (sessionIdLine id ++ [10])) := by
  have hline : 10 ∉ sessionIdLine id := not_mem_sessionIdLine h rfl (by decide)
  have hlength := length_sessionIdLine id
  rcases firstLine_cases (whole_line hline) (by simp) 78 with
    ⟨line, rest, heq, hplain, hle, hfirst⟩ | ⟨hfirst, hnot, hlt⟩
  · obtain ⟨rfl, -⟩ := line_unique hline hplain heq
    exact .inl ⟨by omega, hfirst⟩
  · rw [length_append, length_singleton] at hlt
    refine .inr ⟨by omega, ?_⟩
    rw [hfirst]
    exact hnot

lemma memchr_eq_none (h : 10 ∉ line) : memchr line 10 = none := by
  refine findIdx?_eq_none_iff.mpr fun c hc => beq_eq_false_iff_ne.mpr ?_
  rintro rfl
  exact h hc

lemma memchr_newline (h : 10 ∉ line) : memchr (line ++ [10]) 10 = some line.length := by
  rw [memchr, findIdx?_append, ← memchr, memchr_eq_none h]
  simp

/-- The session ID that `telnetd` finds. -/
lemma storedSessionid_sessionIdFile (h : Of isHex 80 id) :
    Telnetd.storedSessionid (some (sessionIdFile id)) =
      if id.length ≤ 67 then some id else none := by
  have hzero : 0 ∉ sessionIdLine id := not_mem_sessionIdLine h rfl (by decide)
  have hline : 10 ∉ sessionIdLine id := not_mem_sessionIdLine h rfl (by decide)
  have hfirst : fgets 80 (sessionIdFile id) = some ([10], sessionIdLine id ++ [10]) := rfl
  have hne : sessionIdLine id ++ [10] ≠ [] := append_ne_nil_of_right_ne_nil _ nofun
  have hsecond := fgets_of_ne_nil 78 hne
  unfold Telnetd.storedSessionid
  simp only [Option.bind_eq_bind, Option.bind_some, hfirst, hsecond]
  rcases fgets_sessionIdLine h with ⟨hle, hread⟩ | ⟨hlt, hread⟩
  · have htext : 0 ∉ sessionIdLine id ++ [10] := by simpa using hzero
    rw [hread, (takeWhile_ne htext).1, memchr_newline hline, if_pos hle, if_neg, if_neg]
    · rw [Option.bind_some, take_left, sessionIdLine, drop_left]
    · simp [sessionIdLine]
    · simp [sessionIdLine]
  · have hnone :
        memchr ((firstLine 79 (sessionIdLine id ++ [10])).takeWhile (· ≠ 0)) 10 = none :=
      memchr_eq_none fun hin => hread ((takeWhile_sublist _).mem hin)
    rw [hnone, if_neg (show ¬id.length ≤ 67 by omega)]
    split_ifs <;> rfl

/-- For every reply of a controller and every line of it that is accepted with a session ID, the
file with this session ID lets exactly this password log in, and it is not empty, if and only if the
session ID has between 1 and 67 digits. -/
theorem session_logs_in_iff (cfg : Config) (input id : Bytes) (v : Visit)
    (hv : v ∈ (conInitMain cfg input).2.visits) (_haccepted : v.result.1 = .accepted)
    (hwrote : Event.wrote .conSessionId (sessionIdFile id) ∈ v.result.2.log.drop v.log.length) :
    ((∀ passwd, equalSessionid (some (sessionIdFile id)) passwd = true ↔ passwd = id) ∧
        id ≠ []) ↔
      1 ≤ id.length ∧ id.length ≤ 67 := by
  have hid : Of isHex 80 id :=
    ((clean_run cfg .con input).2 v hv _ (mem_of_mem_drop hwrote)).sessionId_eq
  have hstored := storedSessionid_sessionIdFile hid
  have hequal : ∀ passwd, equalSessionid (some (sessionIdFile id)) passwd = true ↔
      id.length ≤ 67 ∧ passwd = id := by
    intro passwd
    rw [equalSessionid, hstored, decide_eq_true_iff]
    split_ifs with hle
    · rw [Option.some_inj]
      exact ⟨fun heq => ⟨hle, heq.symm⟩, fun heq => heq.2.symm⟩
    · exact ⟨nofun, fun heq => absurd heq.1 hle⟩
  constructor
  · rintro ⟨hpasswd, hne⟩
    exact ⟨length_pos_iff.mpr hne, ((hequal id).mp ((hpasswd id).mpr rfl)).1⟩
  · rintro ⟨hpos, hle⟩
    refine ⟨fun passwd => ?_, length_pos_iff.mp hpos⟩
    rw [hequal]
    exact and_iff_right hle

/-- The reply of a controller with a session ID. -/
def sessionReply : Bytes := ascii "OK\nSESSION_ID 0a1b\n"

/-- Its line with the session ID. -/
def sessionVisit : Visit := (conInitMain .test sessionReply).2.visits.get ⟨0, by decide +kernel⟩

theorem session_logs_in_iff_short :
    sessionVisit ∈ (conInitMain .test sessionReply).2.visits ∧
      sessionVisit.result.1 = .accepted ∧
      (∀ passwd, equalSessionid (some (sessionIdFile (ascii "0a1b"))) passwd = true ↔
        passwd = ascii "0a1b") ∧
      ascii "0a1b" ≠ [] := by
  have hin : sessionVisit ∈ (conInitMain .test sessionReply).2.visits := get_mem _ _
  have haccepted : sessionVisit.result.1 = .accepted := by decide +kernel
  refine ⟨hin, haccepted, ?_⟩
  exact (session_logs_in_iff .test sessionReply _ sessionVisit hin haccepted
    (by decide +kernel)).mpr (by decide)

/-- A session ID that is too long for the buffer of `telnetd`. -/
def longSessionId : Bytes := List.replicate 68 48

/-- Its line. -/
def longVisit : Visit :=
  (conInitMain .test (ascii "OK\nSESSION_ID " ++ longSessionId ++ [10])).2.visits.get
    ⟨0, by decide +kernel⟩

/-- A line without a session ID. -/
def emptyVisit : Visit :=
  (conInitMain .test (ascii "OK\nSESSION_ID\n")).2.visits.get ⟨0, by decide +kernel⟩

/-- The long session ID does not log in; without a session ID the empty password does. -/
theorem session_logs_in_long :
    (longVisit ∈ (conInitMain .test (ascii "OK\nSESSION_ID " ++ longSessionId ++ [10])).2.visits ∧
      longVisit.result.1 = .accepted ∧
      longVisit.result.2.log = [.wrote .conSessionId (sessionIdFile longSessionId)] ∧
      equalSessionid (some (sessionIdFile longSessionId)) longSessionId = false) ∧
    (emptyVisit ∈ (conInitMain .test (ascii "OK\nSESSION_ID\n")).2.visits ∧
      emptyVisit.result.1 = .accepted ∧
      emptyVisit.result.2.log = [.wrote .conSessionId (sessionIdFile [])] ∧
      equalSessionid (some (sessionIdFile [])) [] = true) := by
  refine ⟨⟨get_mem _ _, ?_, ?_, ?_⟩, get_mem _ _, ?_, ?_, ?_⟩
  all_goals decide +kernel

end AtlasProbe.Atlasinit
