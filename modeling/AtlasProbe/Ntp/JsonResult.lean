import AtlasProbe.Ntp.Steps
import AtlasProbe.Ntp.JsonPieces

/-!
# Results of NTP measurements are JSON

The text of a result leads from one place to another (`State.Reads`): the object for a request is
opened when the request is sent, an entry for it is written into this object, and every further
entry gets an object of its own.  All this ends behind an object if no request fails and no version
changes alone (`Harmless`, `Telling.step`).
-/

namespace AtlasProbe.Ntp

open List Json Reactive Measurement

/-! ### Places in the text -/

/-- The text so far leads from the beginning of the results to a place. -/
def State.Reads (s : State) (p : Place) : Prop := Leads (inArray []) p s.result

/-- The place behind the entries. -/
def afterEntry : Place := behind [.array]

/-- The place where the object for an entry begins. -/
def beginEntry : Place := inObject [.array]

/-- The place behind the members of an entry. -/
def withinEntry : Place := behind [.object, .array]

/-- There is an object for an entry: it has been written, or it has just begun. -/
structure Writable (s : State) : Prop where
  opened : s.openResult = true → s.Reads withinEntry
  begun : s.openResult = false → s.Reads beginEntry

/-- A request has been sent.  Until there is an entry for it, its timer is on. -/
structure Waiting (s : State) : Prop extends Writable s where
  pending : s.openResult = false → s.timerTimeout = true ∧ s.gotresp = false

/-- A request can be sent: it is the first one, or there is an entry for the one before. -/
def Ready (s : State) : Prop :=
  s.sent = 0 ∧ s.openResult = false ∧ s.result = [] ∨ s.openResult = true ∧ s.Reads withinEntry

section Places

variable {s t : State} {text : Bytes}

lemma leads_close : Leads withinEntry afterEntry (ascii " \x7d") :=
  leads_behind (m := .after) rfl fun _ => rfl

lemma leads_next : Leads withinEntry beginEntry (ascii " \x7d, \x7b ") :=
  leads_behind rfl fun _ => rfl

lemma leads_first : Leads (inArray []) beginEntry (ascii "\x7b ") :=
  leads_inArray rfl fun _ => rfl

/-- An entry is written into its object. -/
lemma Writable.wrote (h : Writable s) (htext : StartsMembers text) :
    (s.wrote text).Reads withinEntry := by
  unfold State.Reads
  rw [result_wrote]
  refine Leads.append ?_ htext.leads
  by_cases hopen : s.openResult = true
  · rw [if_pos hopen]
    exact (h.opened hopen).append leads_next
  · rw [if_neg hopen, append_nil]
    exact h.begun (Bool.eq_false_iff.mpr hopen)

/-- The object for the next request is opened. -/
lemma Ready.nextResult (h : Ready s) : s.nextResult.Reads beginEntry := by
  change Leads (inArray []) beginEntry
    (s.result ++ (if s.openResult then ascii " \x7d, " else []) ++ ascii "\x7b ")
  rcases h with ⟨-, hopen, hresult⟩ | ⟨hopen, hreads⟩
  · rw [hopen, hresult]
    exact leads_first
  · rw [hopen, append_assoc]
    exact hreads.append leads_next

end Places

/-! ### What a measurement keeps -/

/-- The texts that are printed may be printed, and what has been written is JSON. -/
structure Sound (s : State) : Prop where
  opt : s.opt.Tidy
  ttr : IsNumber s.ttr
  hdr : s.hdr.Small
  acts : ∀ a ∈ s.acts, a.Proper

/-- As long as an event may come for a request, it can be written about. -/
structure Telling (s : State) : Prop extends Sound s where
  waiting : s.reading = true ∨ s.timerTimeout = true ∨ s.timerGap = true → Waiting s

/-- No error of `sendto` ends the measurement. -/
def Quiet (io : Io) (inet6 : Bool) : Prop := ∀ errno ∈ io.sendto, isFatal inet6 errno = false

section Sending

variable {env : Env} {io : Io} {s t : State}

lemma Sound.congr (h : Sound s) (hopt : t.opt = s.opt) (httr : t.ttr = s.ttr)
    (hhdr : t.hdr = s.hdr) (hacts : ∀ a ∈ t.acts, a ∈ s.acts ∨ a.Proper) : Sound t := by
  refine ⟨hopt ▸ h.opt, httr ▸ h.ttr, hhdr ▸ h.hdr, fun a ha => ?_⟩
  exact (hacts a ha).elim (h.acts a) id

lemma Sound.report (h : Sound s) (henv : env.Tidy) (hresult : IsElements s.result) :
    Telling (report env io s) := by
  have hproper : (Act.written (reportText env io s)).Proper :=
    proper_reportText henv h.opt h.ttr h.hdr hresult
  refine ⟨h.congr rfl rfl rfl fun a ha => ?_, ?_⟩
  · rcases mem_append.mp ha with ha | ha
    · exact .inl ha
    · rcases mem_pair.mp ha with rfl | rfl
      · exact .inr hproper
      · exact .inr trivial
  · rintro (hreading | htimer | htimer)
    · exact absurd hreading Bool.false_ne_true
    · exact absurd htimer Bool.false_ne_true
    · exact absurd htimer Bool.false_ne_true

/-- A request that is sent opens an object and starts the timers. -/
lemma Ready.sent (hready : Ready s) (h : Sound s) (hgot : s.gotresp = false) :
    Telling (s.transmitted env io).nextResult.armed := by
  have hreads : (s.transmitted env io).nextResult.Reads beginEntry := hready.nextResult
  refine ⟨h.congr rfl rfl rfl fun a ha => ?_, fun _ => ⟨⟨?_, fun _ => hreads⟩, fun _ => ?_⟩⟩
  · rcases mem_append.mp ha with ha | ha
    · rcases mem_append.mp ha with ha | ha
      · exact .inl ha
      · exact .inr (mem_singleton.mp ha ▸ trivial)
    · rcases mem_pair.mp ha with rfl | rfl <;> exact .inr trivial
  · exact nofun
  · exact ⟨rfl, hgot⟩

lemma Ready.transmit (hready : Ready s) (h : Sound s) (hgot : s.gotresp = false)
    (hio : Quiet io s.sin6.inet6) : Telling (transmit env io s) := by
  have hsent : Telling (s.transmitted env io).nextResult.armed := hready.sent h hgot
  unfold Ntp.transmit
  split
  · next errno herrno =>
    have hfatal : ¬isFatal (s.transmitted env io).sin6.inet6 errno = true :=
      Bool.eq_false_iff.mp (hio errno herrno)
    rwa [if_neg hfatal]
  · exact hsent

lemma Ready.sendPkt (hready : Ready s) (h : Sound s) (henv : env.Tidy)
    (hio : Quiet io s.sin6.inet6) : Telling (sendPkt env io s) := by
  have hforgot : Sound s.forgot := h.congr rfl rfl rfl fun a ha => .inl ha
  unfold Ntp.sendPkt
  dsimp only
  split
  · next hlast =>
    -- There is a request at least, so that the last one is not the first to be sent.
    rcases hready with ⟨hsent, -, -⟩ | ⟨-, hreads⟩
    · have hcount := h.opt.count
      have hle : s.opt.count ≤ (s.sent : ℤ) := of_decide_eq_true hlast
      omega
    · have hadded : Sound (s.forgot.addStr (ascii " \x7d")) :=
        hforgot.congr rfl rfl rfl fun a ha => .inl ha
      exact hadded.report henv (hreads.append leads_close).isElements
  · have hready' : Ready s.forgot := hready
    exact hready'.transmit hforgot rfl hio

/-- Behind an entry the measurement goes on. -/
lemma Sound.goOn (h : Sound s) (henv : env.Tidy) (hopen : s.openResult = true)
    (hreads : s.Reads withinEntry) (hio : Quiet io s.sin6.inet6) : Telling (goOn env io s) := by
  unfold Ntp.goOn
  split
  · exact Ready.sendPkt (.inr ⟨hopen, hreads⟩) h henv hio
  · have hnot : s.openResult ≠ false := fun hfalse => Bool.false_ne_true (hfalse.symm.trans hopen)
    exact ⟨h, fun _ => ⟨⟨fun _ => hreads, fun hfalse => absurd hfalse hnot⟩,
      fun hfalse => absurd hfalse hnot⟩⟩

end Sending

/-! ### Events -/

/-- The version of a reply has not changed, or the leap indicator has changed as well. -/
def VersionFits (old new : Header) : Prop :=
  version new.flags ≠ version old.flags → leap new.flags ≠ leap old.flags

/-- An event with which the text stays JSON: no error of `sendto` ends the measurement, the name has
an address that can be used or an error with a short message, and a reply fits the first one. -/
def Harmless (s : State) : Event × Io → Prop
  | (.start, _) => True
  | (.dns ttr (.failed message) _, _) => IsNumber ttr ∧ Short 121 message
  | (.dns ttr (.resolved sin6 _) _, io) => IsNumber ttr ∧ Quiet io sin6.inet6
  | (.dns _ .noAddr _, _) => False
  | (.packet p, io) =>
    Quiet io s.sin6.inet6 ∧
      (headerSize ≤ p.nrecv → s.first = false → VersionFits s.hdr (headerOf p.buf))
  | (.timeout, io) | (.gap, io) => Quiet io s.sin6.inet6

section Events

variable {env : Env} {io : Io} {s t : State}

lemma Telling.congr (h : Telling s) (hsound : Sound t) (hresult : t.result = s.result)
    (hopen : t.openResult = s.openResult) (hgot : t.gotresp = s.gotresp)
    (htimeout : t.timerTimeout = s.timerTimeout) (hgap : t.timerGap = s.timerGap)
    (hreading : t.reading = s.reading) : Telling t := by
  refine ⟨hsound, fun hevent => ?_⟩
  rw [hreading, htimeout, hgap] at hevent
  have hwaiting := h.waiting hevent
  constructor
  · constructor
    · intro h'
      unfold State.Reads
      rw [hresult]
      exact hwaiting.opened (hopen.symm.trans h')
    · intro h'
      unfold State.Reads
      rw [hresult]
      exact hwaiting.begun (hopen.symm.trans h')
  · intro h'
    rw [htimeout, hgot]
    exact hwaiting.pending (hopen.symm.trans h')

lemma startsMembers_replyText (henv : env.Tidy) {h : Header} (hsmall : h.Small)
    (hfits : s.first = false → VersionFits s.hdr h) : StartsMembers (replyText env io s h) := by
  have hreads : (if s.first then Draft.empty else changes env s.hdr h).Reads := by
    split
    · exact .inl ⟨rfl, rfl⟩
    · next hfirst => exact reads_changes henv hsmall (hfits (Bool.eq_false_iff.mpr hfirst))
  exact hreads.times henv h _

lemma startsMembers_timeoutText : StartsMembers timeoutText :=
  startsMembers_key "x" (isValue_quoted (by decide)) rfl

lemma separated_eq (s : State) : ∃ result, s.separated = { s with result := result } := by
  unfold State.separated
  split
  · exact ⟨_, rfl⟩
  · exact ⟨s.result, rfl⟩

lemma Sound.wrote (h : Sound s) (text : Bytes) : Sound (s.wrote text) := by
  obtain ⟨result, hresult⟩ := separated_eq s
  unfold State.wrote
  rw [hresult]
  exact h.congr rfl rfl rfl fun a ha => .inl ha

lemma sin6_wrote (s : State) (text : Bytes) : (s.wrote text).sin6 = s.sin6 := by
  obtain ⟨result, hresult⟩ := separated_eq s
  unfold State.wrote
  rw [hresult]
  rfl

/-- An error is the only entry. -/
lemma Sound.fails (h : Sound s) (henv : env.Tidy) (hresult : s.result = []) {size n : ℕ}
    {text : Bytes} (htext : Short n text) (hfits : n + 15 ≤ size) :
    Telling (fails env io s size text) := by
  have hadded : Sound (s.addStr (snprintf size (ascii "\x7b " ++ key "error" ++ quoted text ++
      ascii " \x7d"))) := h.congr rfl rfl rfl fun a ha => .inl ha
  refine hadded.report henv ?_
  dsimp only [State.addStr]
  rw [hresult]
  exact isElements_error htext hfits

lemma short_strerror (henv : env.Tidy) {what : Bytes} (hwhat : Short 16 what) (e : ℕ) :
    Short 58 (what ++ env.strerror e) := hwhat.append (henv.toHost.strerror e)

lemma Sound.heard (h : Sound s) {ttr : Bytes} (httr : IsNumber ttr) : Sound (s.heard ttr) :=
  ⟨h.opt, httr, h.hdr, h.acts⟩

section Told

variable (h : Telling s) (henv : env.Tidy)

include h henv

/-- A reply that fits is written. -/
lemma Telling.readyCallback (hreading : s.reading = true) (p : Packet)
    (hx : Harmless s (.packet p, io)) : Telling (readyCallback env io s p) := by
  obtain ⟨hio, hfits⟩ := hx
  unfold Ntp.readyCallback
  split
  · exact h
  · next hlong =>
    split
    · exact h
    · have hsmall := small_headerOf p.buf
      have htext : StartsMembers (replyText env io s (headerOf p.buf)) :=
        startsMembers_replyText henv hsmall (hfits (Nat.le_of_not_lt hlong))
      have hreads := (h.waiting (.inl hreading)).toWritable.wrote htext
      have hsound := h.toSound.wrote (replyText env io s (headerOf p.buf))
      have hsin6 := sin6_wrote s (replyText env io s (headerOf p.buf))
      have hopen : (s.wrote (replyText env io s (headerOf p.buf))).openResult = true := rfl
      dsimp only
      generalize s.wrote (replyText env io s (headerOf p.buf)) = u at hreads hsound hsin6 hopen ⊢
      unfold State.keepHeader
      split
      · have hkept : Sound { u with hdr := headerOf p.buf, first := false } :=
          ⟨hsound.opt, hsound.ttr, hsmall, hsound.acts⟩
        exact Sound.goOn (hkept.congr rfl rfl rfl fun a ha => .inl ha) henv hopen hreads
          (hsin6 ▸ hio)
      · exact Sound.goOn (hsound.congr rfl rfl rfl fun a ha => .inl ha) henv hopen hreads
          (hsin6 ▸ hio)

lemma Telling.noreplyCallback (htimer : s.timerTimeout = true) (hio : Quiet io s.sin6.inet6) :
    Telling (noreplyCallback env io s.timeoutExpired) := by
  have hwritable := (h.waiting (.inr (.inl htimer))).toWritable
  have hwritable' : Writable s.timeoutExpired := ⟨hwritable.opened, hwritable.begun⟩
  have hsound : Sound s.timeoutExpired := h.toSound.congr rfl rfl rfl fun a ha => .inl ha
  have hsin6 := sin6_wrote s.timeoutExpired timeoutText
  exact (hsound.wrote timeoutText).goOn henv rfl (hwritable'.wrote startsMembers_timeoutText)
    (hsin6 ▸ hio)

/-- When the gap is over and there is an entry for the last request, then the next one is sent. -/
lemma Telling.gapCallback (htimer : s.timerGap = true) (hio : Quiet io s.sin6.inet6) :
    Telling (gapCallback env io s.gapExpired) := by
  have hwaiting := h.waiting (.inr (.inr htimer))
  have hsound : Sound s.gapExpired := h.toSound.congr rfl rfl rfl fun a ha => .inl ha
  unfold Ntp.gapCallback
  split
  · next hover =>
    have hopen : s.openResult = true := by
      by_contra hnot
      obtain ⟨htimeout, hgot⟩ := hwaiting.pending (Bool.eq_false_iff.mpr hnot)
      have hover : (s.gotresp || !s.timerTimeout) = true := hover
      rw [htimeout, hgot] at hover
      exact Bool.false_ne_true hover
    exact Ready.sendPkt (.inr ⟨hopen, hwaiting.opened hopen⟩) hsound henv hio
  · exact ⟨hsound, fun _ => ⟨⟨hwaiting.opened, hwaiting.begun⟩, hwaiting.pending⟩⟩

lemma Telling.ntpStart2 (hio : Quiet io s.sin6.inet6) (sio : SocketIo) :
    Telling (ntpStart2 env io s sio) := by
  have hsound : Sound (s.restart io) := h.toSound.congr rfl rfl rfl fun a ha => .inl ha
  unfold Ntp.ntpStart2
  split
  · exact h
  · dsimp only
    split
    · exact hsound.fails henv rfl (short_strerror henv (by decide) _) (by decide)
    · split
      · exact hsound.fails (n := 21) henv rfl (by decide) (by decide)
      · split
        · exact hsound.fails henv rfl (short_strerror henv (by decide) _) (by decide)
        · have hopened : Sound ((s.restart io).opened sio.sockname) :=
            hsound.congr rfl rfl rfl fun a ha => .inl ha
          exact Ready.sendPkt (.inl ⟨rfl, rfl, rfl⟩) hopened henv hio

lemma Telling.dnsCb {ttr : Bytes} {r : DnsResult} {sio : SocketIo}
    (hx : Harmless s (.dns ttr r sio, io)) : Telling (dnsCb env io s ttr r sio) := by
  unfold Ntp.dnsCb
  cases r with
  | failed message =>
    have hfront : Short 24 (ascii "name resolution failed: ") := by decide
    have hcleared : Sound ((s.heard ttr).cleared io) :=
      (h.toSound.heard hx.1).congr rfl rfl rfl fun a ha => .inl ha
    exact hcleared.fails henv rfl (hfront.append hx.2) (by decide)
  | resolved sin6 allowed =>
    have hsound : Sound ((s.heard ttr).resolved.setAddr sin6) :=
      (h.toSound.heard hx.1).congr rfl rfl rfl fun a ha => .inl ha
    dsimp only
    split
    · have htelling : Telling ((s.heard ttr).resolved.setAddr sin6) :=
        h.congr hsound rfl rfl rfl rfl rfl rfl
      exact htelling.ntpStart2 henv hx.2 sio
    · have hrefused : Sound (((s.heard ttr).resolved.setAddr sin6).cleared io).refused :=
        hsound.congr rfl rfl rfl fun a ha => .inl ha
      exact hrefused.fails (n := 19) henv rfl (by decide) (by decide)
  | noAddr => exact hx.elim

/-- Every harmless event keeps what has been written and what is being written. -/
lemma Telling.step {x : Event × Io} (hx : Harmless s x) : Telling (step env s x) := by
  obtain ⟨e, io⟩ := x
  cases e with
  | start =>
    change Telling (ntpStart s)
    unfold ntpStart
    split
    · exact h
    · exact h.congr (h.toSound.congr rfl rfl rfl fun a ha => .inl ha) rfl rfl rfl rfl rfl rfl
  | dns ttr r sio =>
    dsimp only [Ntp.step]
    split
    · exact h.dnsCb henv hx
    · exact h
  | packet p =>
    dsimp only [Ntp.step]
    split
    · next hreading => exact h.readyCallback henv hreading p hx
    · exact h
  | timeout =>
    dsimp only [Ntp.step]
    split
    · next htimer => exact h.noreplyCallback henv htimer hx
    · exact h
  | gap =>
    dsimp only [Ntp.step]
    split
    · next htimer => exact h.gapCallback henv htimer hx
    · exact h

end Told

end Events

/-! ### Runs -/

/-- The name may stand in quotes, the bundle is a number if it is printed, and there is a
request. -/
structure Args.Tidy (host : Host) (a : Args) : Prop where
  count : 1 ≤ host.toChar a.count
  hostname : Plain a.hostname.bytes
  bundle : a.atlas.isSome → ∀ bundle ∈ a.bundle, IsNumber bundle.bytes

lemma Args.Tidy.options {host : Host} {args : Args} {opt : Options} (h : args.Tidy host)
    (hopt : ntpInit host args = some opt) : opt.Tidy := by
  unfold ntpInit at hopt
  split_ifs at hopt with hgap hout hatlas hbundle
  obtain rfl := Option.some.inj hopt
  refine ⟨h.count, h.hostname, plain_of_validateAtlasId hatlas, ?_⟩
  · intro id hid
    exact h.bundle (Option.isSome_iff_exists.mpr ⟨id, hid⟩)

/-- The texts that have been written. -/
def results (acts : List Act) : List Bytes :=
  acts.filterMap fun
    | .written text => some text
    | .sendto _ _ | .timeoutTimer _ | .gapTimer _ | .done => none

lemma mem_results {acts : List Act} {text : Bytes} (h : text ∈ results acts) :
    .written text ∈ acts := by
  obtain ⟨a, ha, htext⟩ := mem_filterMap.mp h
  cases a with
  | written text' => exact Option.some.inj htext ▸ ha
  | sendto | timeoutTimer | gapTimer | done => cases htext

/-- What a run writes is the word `RESULT` and JSON, whatever the other fields of the replies are,
if no request fails for good, the name has an address that can be used or an error, and no reply
has a version of its own with the leap indicator of the first one. -/
theorem result_isJson {env : Env} (henv : env.Tidy) {args : Args} (hargs : args.Tidy env.toHost)
    {opt : Options} (hopt : ntpInit env.toHost args = some opt) (sin6 : Sockaddr)
    (events : List (Event × Io))
    (hevents : Along (step env) Harmless events (initState opt sin6)) :
    ∀ text ∈ results (run (step env) events (initState opt sin6)).acts,
      ∃ body, text = ascii "RESULT " ++ body ∧ IsJson body := by
  have hinit : Telling (initState opt sin6) := by
    refine ⟨⟨hargs.options hopt, ?_, small_headerOf _, nofun⟩, ?_⟩
    · exact isNumber_fixedText 5 false 0
    · rintro (hreading | htimer | htimer)
      · exact absurd hreading Bool.false_ne_true
      · exact absurd htimer Bool.false_ne_true
      · exact absurd htimer Bool.false_ne_true
  have htelling : Telling (run (step env) events (initState opt sin6)) :=
    hevents.invariant (fun _ _ h hx => h.step henv hx) hinit
  intro text htext
  exact htelling.acts _ (mem_results htext)

lemma tidy_plainEnv : plainEnv.Tidy := by
  have hzero : Brief 50 (ascii "0") := ⟨isNumber_natText 0, by decide⟩
  have hhalf : Brief 50 (ascii "0.5") := ⟨isNumber_fixedText 0 false 5, by decide⟩
  have hnine : Brief 50 (ascii "0.000000000") := ⟨isNumber_fixedText 8 false 0, by decide⟩
  have hsix : Brief 50 (ascii "0.000000") := ⟨isNumber_fixedText 5 false 0, by decide⟩
  exact ⟨tidy_plainHost, fun _ => hzero, fun _ => hhalf, fun _ => hnine, fun _ => hsix,
    fun _ => hsix⟩

/-- Two requests with a reply to each; the second reply has other flags. -/
def twoReplies (flags : UInt8) : List (Event × Io) :=
  [(.start, plainIo), plainDns, plainPacket, (.gap, plainIo),
    (.packet ⟨fun i => if i = 0 then flags else 0, headerSize⟩, plainIo)]

/-- If the second reply has another leap indicator as well as another version, then there is one
result, and it is JSON. -/
theorem result_isJson_twoReplies :
    (results (run (step plainEnv) (twoReplies 72)
      (initState (plainOptions 2) plainAddr)).acts).length = 1 ∧
    ∀ text ∈ results (run (step plainEnv) (twoReplies 72)
      (initState (plainOptions 2) plainAddr)).acts,
        ∃ body, text = ascii "RESULT " ++ body ∧ IsJson body := by
  have hargs : (plainArgs 2).Tidy plainEnv.toHost := ⟨by decide, by decide +kernel, nofun⟩
  have hquiet (inet6 : Bool) : Quiet plainIo inet6 := fun _ h => by cases h
  have hevents : Along (step plainEnv) Harmless (twoReplies 72)
      (initState (plainOptions 2) plainAddr) := by
    refine ⟨trivial, ⟨isNumber_fixedText 5 false 0, hquiet _⟩, ⟨hquiet _, fun _ h => ?_⟩, hquiet _,
      ⟨hquiet _, fun _ _ _ => by decide +kernel⟩, trivial⟩
    exact absurd h (by decide +kernel)
  exact ⟨by decide +kernel,
    result_isJson tidy_plainEnv hargs (ntpInit_plainArgs 2) _ (twoReplies 72) hevents⟩

/-- If only the version of the second reply is another one, then its entry begins with a comma. -/
theorem result_with_new_version_not_isJson :
    ∃ text ∈ results (run (step plainEnv) (twoReplies 8)
      (initState (plainOptions 2) plainAddr)).acts,
      ∀ body, text = ascii "RESULT " ++ body → ¬IsJson body :=
  exists_not_isJson (by decide +kernel)

end AtlasProbe.Ntp
