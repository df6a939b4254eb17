import AtlasProbe.Traceroute.Steps
import AtlasProbe.Traceroute.JsonPieces

/-!
# The text of a result

What `report` writes is JSON if the text so far is the elements of an array (`proper_reportText`).
The text leads from one place to another (`State.Reads`): hops are opened and closed, and in each
hop the objects for its probes.
-/

namespace AtlasProbe.Traceroute

open List Json Measurement

/-! ### What `report` writes -/

/-- The options that are printed may be printed, and every hop has a probe. -/
structure Options.Tidy (o : Options) : Prop where
  trtcount : 1 ≤ o.trtcount
  firsthop : o.firsthop ≤ 255
  hostname : Plain o.hostname.bytes
  atlas : ∀ id ∈ o.atlas, Plain id.bytes
  /-- The bundle is printed without quotes. -/
  bundleId : ∀ id ∈ o.atlas, ∀ bundle ∈ o.bundleId, IsNumber bundle.bytes

/-- What is written is a result, and what follows the word is JSON. -/
def Act.Proper : Act → Prop
  | .written text => IsResult text
  | .sent _ | .timer _ => True

section Report

variable {host : Host} {io : Io} {s : State}

lemma addsMembers_addrsText (hhost : host.Tidy) : AddsMembers (addrsText host s) := by
  have httr := (isNumber_fixedText 5 s.ttr.1 s.ttr.2).isValue
  have haddr (addr : Sockaddr) := isValue_quoted (hhost.getnameinfo addr)
  refine ((AddsMembers.ite addsMembers_nil (addsMembers_key _ httr rfl)).append
    (.ite addsMembers_nil ?_)).append (.whenever fun _ => ?_)
  · exact addsMembers_key _ (haddr _) rfl
  · exact addsMembers_key _ (haddr _) rfl

lemma addsMembers_optionsText (s : State) : AddsMembers (optionsText s) := by
  have hproto : Plain (protoText s) := by
    unfold protoText
    split_ifs <;> decide
  have haf := behind_key .append (addsMembers_key "proto" (isValue_quoted hproto) rfl) "af"
    (t := ascii " " ++ natText (if (if s.dnsip then s.opt.doV6 else s.sin6.inet6) then 6 else 4))
    (isValue_natText _).blank rfl
  rw [← append_assoc] at haf
  exact (behind_key AddsMembers.append haf "size" (isValue_natText _) rfl).append
    (.whenever fun _ => addsMembers_key _ (isValue_natText s.paris) rfl)

/-- With the elements of an array as its text, a result is JSON. -/
lemma proper_reportText (hhost : host.Tidy) (hopt : s.opt.Tidy) (hresult : IsElements s.result) :
    (Act.written (reportText host io s)).Proper := by
  have htimes := behind_key StartsMembers.append
    (startsMembers_key "time" (isValue_natText s.starttime) rfl) "endtime"
    (isValue_natText io.atlasTime) rfl
  exact isResult_resultText
    (startsMembers_identText hhost hopt.atlas hopt.bundleId io.timesync htimes) hopt.hostname
    ((addsMembers_addrsText hhost).append (addsMembers_optionsText s)) hresult

end Report

/-! ### Places in the text -/

/-- The text so far leads from the beginning of the results to a place. -/
def State.Reads (s : State) (p : Place) : Prop := Leads (inArray []) p s.result

/-- The place behind the hops. -/
def afterHop : Place := behind [.array]

/-- The place behind the first members of a hop. -/
def withinHop : Place := behind [.object, .array]

/-- The place where the probes of a hop begin. -/
def beforeProbes : Place := inArray [.object, .array]

/-- The place where the object for a probe begins. -/
def beginProbe : Place := inObject [.array, .object, .array]

/-- A place where the object for a probe may end. -/
def endProbe : Place := endObject [.array, .object, .array]

/-- A probe can be sent: it is the first one of a hop, or there is text for the one before. -/
def Ready (s : State) : Prop :=
  s.sent = 0 ∧ s.openResult = false ∧ s.Reads beforeProbes ∨
    s.sent ≠ 0 ∧ s.openResult = true ∧ s.Reads endProbe

/-- A probe has been sent, and the object for it has been opened. -/
def Waiting (s : State) : Prop :=
  s.sent ≠ 0 ∧ (s.openResult = true ∧ s.Reads endProbe ∨
    s.openResult = false ∧ s.gotresp = false ∧ s.Reads beginProbe)

section Places

variable {s : State} {text : Bytes}

lemma leads_close : Leads endProbe afterHop (ascii " \x7d ] \x7d") :=
  leads_endObject (m := .after) rfl (fun _ => rfl) fun _ => rfl

lemma leads_next : Leads endProbe beginProbe (ascii " \x7d, \x7b ") :=
  leads_endObject rfl (fun _ => rfl) fun _ => rfl

lemma leads_firstProbe : Leads beforeProbes beginProbe (ascii "\x7b ") :=
  leads_inArray rfl fun _ => rfl

lemma leads_result : Leads withinHop beforeProbes (ascii ", " ++ key "result" ++ ascii " [ ") :=
  leads_behind (m := .first) rfl fun _ => rfl

/-- The number of a hop. -/
lemma leads_hop (hop : ℕ) : Leads (inObject [.array]) withinHop (key "hop" ++ natText hop) :=
  (startsMembers_key _ (isValue_natText hop) rfl).leads

/-- A new object in the text, behind the last one if there is text in it. -/
lemma Waiting.separate (h : Waiting s) : s.separate.Reads beginProbe := by
  obtain ⟨-, ⟨hopen, hreads⟩ | ⟨hopen, -, hreads⟩⟩ := h
  · unfold State.separate
    rw [if_pos hopen]
    exact hreads.append leads_next
  · unfold State.separate
    rw [if_neg (Bool.eq_false_iff.mp hopen)]
    exact hreads

/-- What a packet from the future does. -/
lemma Waiting.of_separate (h : Waiting s) : Waiting s.separate := by
  have hreads := h.separate
  unfold State.separate at hreads ⊢
  split at hreads
  · next hopen =>
    rw [if_pos hopen]
    exact ⟨h.1, .inl ⟨hopen, hreads.endObject_of_inObject⟩⟩
  · next hopen =>
    rw [if_neg hopen]
    exact h

/-- The object for a probe is opened. -/
lemma Ready.launched (h : Ready s) (hgot : s.gotresp = false) : Waiting (launched s) := by
  refine ⟨Nat.succ_ne_zero _, .inr ⟨rfl, hgot, ?_⟩⟩
  change Leads (inArray []) beginProbe
    (s.result ++ ((if s.openResult then ascii " \x7d, " else []) ++ ascii "\x7b "))
  rcases h with ⟨-, hopen, hreads⟩ | ⟨-, hopen, hreads⟩
  · rw [hopen]
    exact hreads.append leads_firstProbe
  · rw [hopen]
    exact hreads.append leads_next

/-- An object with an error is added, and the hop ends. -/
lemma Ready.failed (h : Ready s) (htext : Short 57 text) :
    (s.addStr (errorText s text)).Reads afterHop := by
  have hlength := htext.2
  have hclose : Leads beginProbe afterHop
      (key "error" ++ (quoted text ++ ascii " \x7d ] \x7d")) := by
    have hmember := startsMembers_key "error" (isValue_quoted htext.1) rfl
    have hleads := hmember.leads.endObject_of_behind.append leads_close
    rwa [append_assoc] at hleads
  have hfits : errorText s text = (if s.sent ≠ 0 then ascii " \x7d, " else []) ++ (ascii "\x7b " ++
      (key "error" ++ (quoted text ++ ascii " \x7d ] \x7d"))) := by
    unfold errorText
    rw [line_of_lt]
    · simp only [append_assoc]
    · have hkey : (key "error").length = 8 := rfl
      have hopen : (ascii "\x7b ").length = 2 := rfl
      have hend : (ascii " \x7d ] \x7d").length = 6 := rfl
      have hfirst : (if s.sent ≠ 0 then ascii " \x7d, " else []).length ≤ 4 := by
        split <;> decide
      simp only [length_append, length_quoted]
      omega
  rw [hfits]
  rcases h with ⟨hsent, -, hreads⟩ | ⟨hsent, -, hreads⟩
  · rw [if_neg (not_not_intro hsent)]
    exact hreads.append (leads_firstProbe.append hclose)
  · rw [if_pos hsent]
    have hleads := hreads.append (leads_next.append hclose)
    have hnext : ascii " \x7d, \x7b " = ascii " \x7d, " ++ ascii "\x7b " := rfl
    rwa [hnext] at hleads

/-- A new hop is opened. -/
lemma reads_openHop (h : s.Reads afterHop) (hhop : s.hop ≤ 255) : s.openHop.Reads beforeProbes := by
  have hlength := length_natText_le (k := 2) (by omega : s.hop < 1000)
  have hopen : Leads afterHop (inObject [.array]) (ascii ", \x7b ") :=
    leads_behind rfl fun _ => rfl
  have hleads := h.append (hopen.append ((leads_hop s.hop).append leads_result))
  unfold State.openHop State.Reads State.addStr
  rw [line_of_lt]
  · simpa only [append_assoc] using hleads
  · have hkeys : (key "hop").length = 6 ∧ (key "result").length = 9 := ⟨rfl, rfl⟩
    have htexts : (ascii ", \x7b ").length = 4 ∧ (ascii " [ ").length = 3 := ⟨rfl, rfl⟩
    simp only [length_append, length_comma]
    omega

/-- The text of the first hop. -/
lemma reads_restart (io : Io) (hhop : s.opt.firsthop ≤ 255) : (restart io s).Reads withinHop := by
  have hlength := length_natText_le (k := 2) (by omega : s.opt.firsthop < 1000)
  have hopen : Leads (inArray []) (inObject [.array]) (ascii "\x7b ") :=
    leads_inArray rfl fun _ => rfl
  have hleads := hopen.append (leads_hop s.opt.firsthop)
  unfold restart State.Reads
  rw [line_of_lt]
  · simpa only [append_assoc] using hleads
  · have hkey : (key "hop").length = 6 := rfl
    have htext : (ascii "\x7b ").length = 2 := rfl
    simp only [length_append]
    omega

/-- An error instead of the probes of a hop. -/
lemma reads_setupFailed (h : s.Reads withinHop) (htext : Short 65 text) :
    (s.addStr (line (ascii ", " ++ key "error" ++ quoted text ++ ascii " \x7d"))).Reads
      afterHop := by
  have hlength := htext.2
  have hclose : Leads (endObject [.array]) afterHop (ascii " \x7d") :=
    leads_endObject (m := .after) rfl (fun _ => rfl) fun _ => rfl
  have hmember := addsMembers_key "error" (isValue_quoted htext.1) rfl
  have hleads := (h.append hmember.leads).endObject_of_behind.append hclose
  unfold State.Reads State.addStr
  rw [line_of_lt]
  · simpa only [append_assoc] using hleads
  · have hkey : (key "error").length = 8 := rfl
    have hend : (ascii " \x7d").length = 2 := rfl
    simp only [length_append, length_comma, length_quoted]
    omega

end Places

end AtlasProbe.Traceroute
