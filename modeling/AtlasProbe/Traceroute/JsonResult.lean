import AtlasProbe.Traceroute.Invariant
import AtlasProbe.Traceroute.JsonReport

/-!
# The result is JSON

The flag `open_result` and the number of the probes that have been sent say which brackets are open
in the text, as long as there is at least one probe for each hop (`Sound`, `Tells.step`).
-/

namespace AtlasProbe.Traceroute

open List Json Measurement

/-! ### Sending -/

/-- The number of the last probe is small, and what has been written is in order. -/
structure Sound (s : State) : Prop where
  opt : s.opt.Tidy
  seq_lt : s.seq < 65536
  acts : ∀ a ∈ s.acts, a.Proper

/-- The text fits what the measurement waits for. -/
structure Tells (s : State) : Prop extends Sound s where
  waiting : s.socketIcmp = true ∨ s.socketTcp = true ∨ s.timer = true → Waiting s

section Sending

variable {host : Host} {io : Io} {s t : State} {text : Bytes}

lemma Sound.addStr (h : Sound s) : Sound (s.addStr text) := ⟨h.opt, h.seq_lt, h.acts⟩

lemma Sound.prepared (h : Sound s) (ht : Prepared s t) : Sound t := by
  have hopt : t.opt = s.opt := (congrArg State.opt ht.unsent :)
  have hacts : t.acts = s.acts := (congrArg State.acts ht.unsent :)
  refine ⟨hopt ▸ h.opt, ?_, hacts ▸ h.acts⟩
  rcases ht.seq with hseq | ⟨-, hseq⟩
  · rw [hseq]
    exact Nat.mod_lt _ (by decide)
  · rw [hseq]
    decide

/-- A result is written when the text is complete. -/
lemma Sound.report (h : Sound s) (hhost : host.Tidy) (hresult : IsElements s.result) :
    Tells (report host io s) := by
  refine ⟨⟨h.opt, h.seq_lt, ?_⟩, ?_⟩
  · intro a ha
    rcases mem_append.mp ha with ha | ha
    · exact h.acts a ha
    · rw [mem_singleton.mp ha]
      exact proper_reportText hhost h.opt hresult
  · rintro (hicmp | htcp | htimer)
    · exact absurd hicmp Bool.false_ne_true
    · exact absurd htcp Bool.false_ne_true
    · exact absurd htimer Bool.false_ne_true

lemma Sound.launched (h : Sound s) (hready : Ready s) (hgot : s.gotresp = false) :
    Tells (launched s) := by
  refine ⟨⟨h.opt, h.seq_lt, ?_⟩, fun _ => hready.launched hgot⟩
  intro a ha
  rcases mem_append.mp ha with ha | ha
  · exact h.acts a ha
  · rw [mem_singleton.mp ha]
    trivial

lemma Ready.prepared (h : Ready s) (ht : Prepared s t) : Ready t := by
  have hsent : t.sent = s.sent := (congrArg State.sent ht.unsent :)
  have hopen : t.openResult = s.openResult := (congrArg State.openResult ht.unsent :)
  have hresult : t.result = s.result := (congrArg State.result ht.unsent :)
  unfold Ready State.Reads
  rw [hsent, hopen, hresult]
  exact h

lemma CallError.short {calls : List String} {n : ℕ} (h : CallError host calls text)
    (hhost : host.Tidy) (hcalls : ∀ call ∈ calls, Short n (ascii call)) : Short (n + 42) text := by
  have hle {t : Bytes} (ht : Short 42 t) : Short (n + 42) t :=
    ⟨ht.1, ht.2.trans (Nat.le_add_left _ _)⟩
  cases h with
  | failed hcall e => exact (hcalls _ hcall).append (hhost.strerror e)
  | interface => exact hle (by decide)
  | tos inet6 => cases inet6 <;> exact hle (by decide)

section Probes

variable (h : Sound s) (hhost : host.Tidy) (hready : Ready s)

include h hhost hready

/-- A call has failed. -/
lemma Sound.sendFailed (htext : Short 57 text) : Tells (sendFailed host io s text) :=
  h.addStr.report hhost (hready.failed htext).isElements

lemma Sound.transmit (hgot : s.gotresp = false) : Tells (transmit host io s) := by
  have hgot' {t : State} (ht : Prepared s t) : t.gotresp = false :=
    (congrArg State.gotresp ht.unsent :).trans hgot
  have htransmits := transmits_transmit host io s
  generalize Traceroute.transmit host io s = u at htransmits ⊢
  cases htransmits with
  | failed ht htext =>
    exact (h.prepared ht).sendFailed hhost (hready.prepared ht) (htext.short hhost (by decide))
  | @sent proto _ =>
    have ht := prepared_prepare host io s proto
    refine Sound.launched ⟨(h.prepared ht).opt, (h.prepared ht).seq_lt, ?_⟩ (hready.prepared ht :)
      (hgot' ht :)
    intro a ha
    rcases mem_append.mp ha with ha | ha
    · exact (h.prepared ht).acts a ha
    · rw [mem_singleton.mp ha]
      trivial
  | unsent ht => exact (h.prepared ht).launched (hready.prepared ht) (hgot' ht)

/-- The next probe is sent, or the hop or the measurement ends. -/
lemma Sound.sendPkt : Tells (sendPkt host io s) := by
  have hend (hsent : s.opt.trtcount ≤ s.sent) : s.endHop.Reads afterHop := by
    have hpos := h.opt.trtcount
    rcases hready with ⟨hzero, -, -⟩ | ⟨-, -, hreads⟩
    · omega
    · exact hreads.append leads_close
  have hnext {t : State} (hreads : t.Reads afterHop) (hhop : t.hop ≤ 255) (hsent : t.sent = 0) :
      Ready t.openHop := .inl ⟨hsent, rfl, reads_openHop hreads hhop⟩
  have hsound : Sound s.endHop := ⟨h.opt, h.seq_lt, h.acts⟩
  rcases sendPkt_cases host io s with
    ⟨-, heq⟩ | ⟨hsent, -, heq⟩ | ⟨hsent, -, -, ⟨-, ⟨-, heq⟩ | ⟨-, heq⟩⟩ | ⟨-, heq⟩⟩
  · rw [heq]
    exact Sound.transmit ⟨h.opt, h.seq_lt, h.acts⟩ hhost hready rfl
  · rw [heq]
    exact hsound.report hhost (hend hsent).isElements
  · rw [heq]
    exact Sound.report ⟨h.opt, h.seq_lt, h.acts⟩ hhost (hend hsent).isElements
  · rw [heq]
    exact Sound.transmit ⟨h.opt, h.seq_lt, h.acts⟩ hhost (hnext (hend hsent) le_rfl rfl) rfl
  · rw [heq]
    have hhop : s.endHop.nextHop.hop ≤ 255 := Nat.le_of_lt_succ (Nat.mod_lt _ (by decide))
    exact Sound.transmit ⟨h.opt, h.seq_lt, h.acts⟩ hhost (hnext (hend hsent) hhop rfl) rfl

end Probes

end Sending

/-! ### Replies -/

/-- The text for a packet has been added to the object for the last probe. -/
structure Answered (s : State) : Prop extends Sound s where
  sent : s.sent ≠ 0
  reads : s.Reads (behind [.object, .array, .object, .array])

section Replies

variable {host : Host} {tabsiz : ℕ} {io : Io} {p : Packet} {s t : State} {text : Bytes}
  {v : Verdict} {b : Branch} {c c' : Cursor} {seq : ℕ}

lemma Sound.quiet (h : Sound s) (hquiet : Quiet s t) : Sound t := by
  have hopt : t.opt = s.opt := (congrArg State.opt hquiet.core :)
  have hseq : t.seq = s.seq := (congrArg State.seq hquiet.core :)
  obtain ⟨us, hacts⟩ := hquiet.acts
  refine ⟨hopt ▸ h.opt, hseq ▸ h.seq_lt, ?_⟩
  intro a ha
  rw [hacts] at ha
  rcases mem_append.mp ha with ha | ha
  · exact h.acts a ha
  · obtain ⟨usec, -, rfl⟩ := mem_map.mp ha
    trivial

lemma Sound.answered (h : Sound s) (hwaiting : Waiting s) (htext : StartsMembers text) :
    Answered (s.separate.addStr text) := by
  have hquiet := Quiet.separate_addStr s text
  have hsent : (s.separate.addStr text).sent = s.sent := (congrArg State.sent hquiet.core :)
  refine ⟨h.quiet hquiet, ?_, hwaiting.separate.append htext.leads⟩
  rw [hsent]
  exact hwaiting.1

/-- A change that leaves the text as it is. -/
lemma Answered.quiet (h : Answered s) (hquiet : Quiet s t) (hresult : t.result = s.result) :
    Answered t := by
  have hsent : t.sent = s.sent := (congrArg State.sent hquiet.core :)
  refine ⟨h.toSound.quiet hquiet, ?_, ?_⟩
  · rw [hsent]
    exact h.sent
  · unfold State.Reads
    rw [hresult]
    exact h.reads

lemma Answered.tells (h : Answered s) (hopen : s.openResult = true) : Tells s :=
  ⟨h.toSound, fun _ => ⟨h.sent, .inl ⟨hopen, h.reads.endObject_of_behind⟩⟩⟩

lemma Answered.finish (h : Answered t) (hhost : host.Tidy) : Tells (finish host io v t) := by
  have hopened : Answered t.opened := h.quiet (quiet_opened t) rfl
  have hdups : Quiet t.opened t.opened.awaitDups := ⟨rfl, [t.opt.duptimeout], rfl⟩
  unfold Traceroute.finish
  dsimp only
  split_ifs
  · exact (hopened.quiet hdups rfl).tells rfl
  · exact hopened.toSound.sendPkt hhost (.inr ⟨h.sent, rfl, h.reads.endObject_of_behind⟩)
  · exact hopened.tells rfl

/-- A packet from the future. -/
lemma Sound.separate (h : Sound s) (hwaiting : Waiting s) : Tells s.separate :=
  ⟨h.quiet (quiet_separate s), fun _ => hwaiting.of_separate⟩

lemma Sound.seq_separate (h : Sound s) : s.separate.seq < 65536 :=
  (congrArg State.seq (quiet_separate s).core).trans_lt h.seq_lt

section Written

variable (h : Sound s) (hhost : host.Tidy) (hwaiting : Waiting s)

include h hhost hwaiting

/-- A packet is handled. -/
lemma tells_handleReply {text : State → Bytes} {note : State → State}
    (hnote : ∀ s, (note s).outline = s.outline)
    (htext : v ≠ .future → StartsMembers (text s.separate)) :
    Tells (handleReply host io v text note s) := by
  unfold handleReply
  dsimp only
  split
  · exact h.separate hwaiting
  · next hv =>
    exact ((h.answered hwaiting (htext hv)).quiet (.of_outline (hnote _))
      (congrArg State.result (hnote _) :)).finish hhost

end Written

/-! ### The callbacks -/

/-- A quoted packet is of one of the protocols. -/
lemma tidy_of_quote4 (h : quote4 host tabsiz p s = some (b, seq)) : b.Tidy := by
  unfold quote4 at h
  split_ifs at h
  · obtain ⟨rfl, -⟩ := Prod.mk.inj (Option.some.inj h)
    exact tidy_tcpBranch
  · obtain ⟨rfl, -⟩ := Prod.mk.inj (Option.some.inj h)
    exact tidy_udpBranch
  · obtain ⟨rfl, -⟩ := Prod.mk.inj (Option.some.inj h)
    exact tidy_icmpBranch

lemma tidy_of_reply4 (h : reply4 host tabsiz p s = some (.error b seq)) : b.Tidy := by
  unfold reply4 at h
  split_ifs at h
  · obtain ⟨⟨b', seq'⟩, hquote, hx⟩ := Option.map_eq_some_iff.mp h
    injection hx with hb
    exact hb ▸ tidy_of_quote4 hquote
  · cases h

lemma size_passOptions {x : ℕ × Cursor} (h : passOptions p c = some x) :
    x.1 < 2048 ∧ x.2.hbhoptsize = c.hbhoptsize ∧ x.2.dstoptsize = c.dstoptsize := by
  have hbyte := Wire.u8_lt p.buf (c.ptr + 1)
  unfold passOptions at h
  dsimp only at h
  split_ifs at h
  obtain rfl := Option.some.inj h
  exact ⟨by dsimp only; omega, rfl, rfl⟩

lemma fits_passHopopts (hc : c.Fits) (h : passHopopts p c = some c') : c'.Fits := by
  unfold passHopopts at h
  split_ifs at h
  · obtain ⟨x, hx, rfl⟩ := Option.map_eq_some_iff.mp h
    obtain ⟨hsize, -, hdst⟩ := size_passOptions hx
    exact ⟨hsize, hdst ▸ hc.2⟩
  · exact Option.some.inj h ▸ hc

lemma fits_passFragment (hc : c.Fits) (h : passFragment p c = some c') : c'.Fits := by
  unfold passFragment at h
  split_ifs at h
  · exact Option.some.inj h ▸ ⟨hc.1, hc.2⟩
  · exact Option.some.inj h ▸ hc

lemma fits_passDstopts (hc : c.Fits) (h : passDstopts p c = some c') : c'.Fits := by
  unfold passDstopts at h
  split_ifs at h
  · obtain ⟨x, hx, rfl⟩ := Option.map_eq_some_iff.mp h
    obtain ⟨hsize, hhbh, -⟩ := size_passOptions hx
    exact ⟨hhbh ▸ hc.1, hsize⟩
  · exact Option.some.inj h ▸ hc

lemma fits_of_innerHeader (h : innerHeader p = some c) : c.Fits := by
  unfold innerHeader at h
  split_ifs at h
  obtain ⟨c₁, h₁, h⟩ := Option.bind_eq_some_iff.mp h
  obtain ⟨c₂, h₂, h⟩ := Option.bind_eq_some_iff.mp h
  obtain ⟨c₃, h₃, h⟩ := Option.bind_eq_some_iff.mp h
  have hfits := fits_passDstopts
    (fits_passFragment (fits_passHopopts ⟨Nat.zero_lt_succ _, Nat.zero_lt_succ _⟩ h₁) h₂) h₃
  dsimp only at h
  generalize (if c₃.nxt = 6 then 20 else 8) = siz at h
  generalize (if c₃.nxt = 6 then 0 else v6infoSize) = v6infoSiz at h
  split_ifs at h
  exact Option.some.inj h ▸ hfits

lemma fits_of_reply6 (h : reply6 host p s = some (.error c seq)) : c.Fits := by
  unfold reply6 at h
  split_ifs at h
  · obtain ⟨⟨c', seq'⟩, hquote, hx⟩ := Option.map_eq_some_iff.mp h
    injection hx with hc
    obtain ⟨c'', hinner, hquotes⟩ := Option.bind_eq_some_iff.mp hquote
    split at hquotes
    · obtain ⟨hc', -⟩ := Prod.mk.inj (Option.some.inj hquotes)
      exact (hc'.trans hc) ▸ fits_of_innerHeader hinner
    · cases hquotes
  · cases h

section Callbacks

variable (h : Tells s) (hhost : host.Tidy) (hwaiting : Waiting s)

include h hhost hwaiting

lemma Tells.readyCallback4 : Tells (readyCallback4 host tabsiz io p s) := by
  unfold Traceroute.readyCallback4 errorReply4 echoReply4
  split
  · exact h
  · next hreply =>
    exact tells_handleReply h.toSound hhost hwaiting (fun s => outline_noteError4 s _ _ _ _ _)
      fun hv => startsMembers_errorText4 (tidy_of_reply4 hreply) hv h.seq_separate
  · exact tells_handleReply h.toSound hhost hwaiting (fun _ => rfl)
      fun hv => startsMembers_echoText4 hv h.seq_separate

lemma Tells.readyCallback6 : Tells (readyCallback6 host io p s) := by
  unfold Traceroute.readyCallback6 errorReply6 echoReply6
  split
  · exact h
  · next hreply =>
    exact tells_handleReply h.toSound hhost hwaiting (fun s => outline_noteError6 s _ _ _ _)
      fun hv => startsMembers_errorText6 hhost (fits_of_reply6 hreply) hv h.seq_separate
  · exact tells_handleReply h.toSound hhost hwaiting (fun s => outline_noteEcho6 s _)
      fun hv => startsMembers_echoText6 hhost hv h.seq_separate _

lemma Tells.readyTcp4 : Tells (readyTcp4 host tabsiz io p s) := by
  have hle := p.nrecv_le
  have hbyte (k : ℕ) := Wire.u8_lt p.buf k
  have httl := hbyte 8
  have htos := hbyte 1
  unfold packetSize maxDataSize at hle
  unfold Traceroute.readyTcp4 tcpReply
  split
  · exact tells_handleReply h.toSound hhost hwaiting (fun _ => rfl) fun hv =>
      startsMembers_tcpText hv h.seq_separate (short_inetNtoa _ _) (by omega) (by omega) (by omega)
        _ _ _
  · exact h

lemma Tells.readyTcp6 : Tells (readyTcp6 host tabsiz io p s) := by
  have hle := p.nrecv_le
  have httl := p.rcvdttl.le_toInt
  have httl' := p.rcvdttl.toInt_lt
  have htos := p.rcvdtclass.le_toInt
  have htos' := p.rcvdtclass.toInt_lt
  unfold packetSize maxDataSize at hle
  unfold Traceroute.readyTcp6 tcpReply
  split
  · exact tells_handleReply h.toSound hhost hwaiting (fun _ => rfl) fun hv =>
      startsMembers_tcpText hv h.seq_separate (hhost.inetNtop _) (by omega) (by omega) (by omega)
        _ _ _
  · exact h

/-- No answer in time: the object for the probe gets a text, and the next probe is sent. -/
lemma Tells.noreplyCallback : Tells (noreplyCallback host io s.expired) := by
  have hsound : Sound s.expired := h.toSound.quiet (.of_core rfl rfl)
  unfold Traceroute.noreplyCallback
  split
  · next hgot =>
    obtain ⟨hsent, ⟨hopen, hreads⟩ | ⟨-, hnot, -⟩⟩ := hwaiting
    · exact hsound.sendPkt hhost (.inr ⟨hsent, hopen, hreads⟩)
    · exact absurd (hnot.symm.trans hgot) Bool.false_ne_true
  · have hwaiting' : Waiting s.expired := hwaiting
    have htext : StartsMembers (key "x" ++ quoted (ascii "*")) :=
      startsMembers_key _ (isValue_quoted (by decide)) rfl
    have hanswered := hsound.answered hwaiting' htext
    have hopened := hanswered.quiet (quiet_opened _) rfl
    exact hopened.toSound.sendPkt hhost
      (.inr ⟨hanswered.sent, rfl, hanswered.reads.endObject_of_behind⟩)

end Callbacks

end Replies

/-! ### The start -/

section Start

variable {host : Host} {io : Io} {s : State} {sio : SocketIo}

/-- The sockets are made and the first probe is sent, or a result with an error is written. -/
lemma Sound.tracerouteStart2 (h : Sound s) (hhost : host.Tidy) (hbusy : s.busy = true) :
    Tells (tracerouteStart2 host io sio s) := by
  have hreads := reads_restart io h.opt.firsthop
  rcases tracerouteStart2_cases host io s sio hbusy with
    ⟨loc, icmp, text, heq, htext, -⟩ | ⟨tcp, heq⟩
  · rw [heq]
    have hfailed := reads_setupFailed hreads (htext.short (n := 23) hhost (by decide))
    exact Sound.report ⟨h.opt, Nat.zero_lt_succ _, h.acts⟩ hhost hfailed.isElements
  · rw [heq]
    exact Sound.sendPkt ⟨h.opt, Nat.zero_lt_succ _, h.acts⟩ hhost
      (.inl ⟨rfl, rfl, hreads.append leads_result⟩)

lemma Sound.dnsCb (h : Sound s) (hhost : host.Tidy) (hbusy : s.busy = true) (hdns : s.dnsip = true)
    {ttr : Bool × ℕ} {r : DnsResult} (hr : r.Tidy) : Tells (dnsCb host io ttr r sio s) := by
  unfold Traceroute.dnsCb
  rw [hdns, Bool.not_true, if_neg Bool.false_ne_true]
  split
  · next message =>
    have htext : Short 145 (ascii "name resolution failed: " ++ message) :=
      Short.append (by decide) hr
    exact Sound.report ⟨h.opt, h.seq_lt, h.acts⟩ hhost (isElements_error htext (by decide))
  · next sin6 allowed =>
    split_ifs
    · have hsound : Sound (s.resolved ttr sin6) := ⟨h.opt, h.seq_lt, h.acts⟩
      exact hsound.tracerouteStart2 hhost hbusy
    · exact Sound.report ⟨h.opt, h.seq_lt, h.acts⟩ hhost
        (isElements_error (n := 19) (by decide) (by decide))
  · exact hr.elim

lemma Tells.tracerouteStart (h : Tells s) : Tells (tracerouteStart s) := by
  unfold Traceroute.tracerouteStart
  split
  · exact h
  · refine ⟨⟨h.opt, h.seq_lt, h.acts⟩, ?_⟩
    rintro (hicmp | hopen)
    · exact absurd hicmp Bool.false_ne_true
    · exact h.waiting (.inr hopen)

end Start

/-! ### Runs -/

/-- A name resolution that ends does so in order. -/
def Event.Tidy : Event → Prop
  | .dns _ r _ => r.Tidy
  | .start | .icmp _ | .tcp _ | .timeout => True

lemma Tells.step {host : Host} (hhost : host.Tidy) {s : State} {e : Event} {io : Io} (h : Tells s)
    (he : e.Tidy) : Tells (step host io s e) := by
  cases e with
  | start => exact h.tracerouteStart
  | dns ttr r sio =>
    unfold Traceroute.step
    dsimp only
    split
    · next hwaits =>
      obtain ⟨hbusy, hdns⟩ := Bool.and_eq_true_iff.mp hwaits
      exact h.toSound.dnsCb hhost hbusy hdns he
    · exact h
  | icmp p =>
    unfold Traceroute.step
    dsimp only
    split_ifs with hopen
    · exact h.readyCallback6 hhost (h.waiting (.inl hopen))
    · exact h.readyCallback4 hhost (h.waiting (.inl hopen))
    · exact h
  | tcp p =>
    unfold Traceroute.step
    dsimp only
    split_ifs with hopen
    · exact h.readyTcp6 hhost (h.waiting (.inr (.inl hopen)))
    · exact h.readyTcp4 hhost (h.waiting (.inr (.inl hopen)))
    · exact h
  | timeout =>
    unfold Traceroute.step
    dsimp only
    split_ifs with htimer
    · exact h.noreplyCallback hhost (h.waiting (.inr (.inr htimer)))
    · exact h

/-- The name may stand in quotes, the bundle is a number if it is printed, and there is a probe for
each hop. -/
structure Args.Tidy (host : Host) (a : Args) : Prop where
  count : 1 ≤ host.toChar a.count
  hostname : Plain a.hostname.bytes
  bundle : a.atlas.isSome → ∀ bundle ∈ a.bundle, IsNumber bundle.bytes

lemma Args.Tidy.options {host : Host} {args : Args} {opt : Options} (h : args.Tidy host)
    (hopt : tracerouteInit host args = some opt) : opt.Tidy := by
  have hfirsthop := (bounded_of_init hopt).firsthop
  unfold tracerouteInit at hopt
  split_ifs at hopt with hsize hout hatlas hbundle
  obtain rfl := Option.some.inj hopt
  refine ⟨h.count, hfirsthop, h.hostname, plain_of_validateAtlasId hatlas, ?_⟩
  · intro id hid
    exact h.bundle (Option.isSome_iff_exists.mpr ⟨id, hid⟩)

/-- The texts that have been written. -/
def results (acts : List Act) : List Bytes :=
  acts.filterMap fun
    | .written text => some text
    | .sent _ | .timer _ => none

lemma mem_results {acts : List Act} {text : Bytes} (h : text ∈ results acts) :
    .written text ∈ acts := by
  obtain ⟨a, ha, htext⟩ := mem_filterMap.mp h
  cases a with
  | written text' => exact Option.some.inj htext ▸ ha
  | sent | timer => cases htext

/-- What a run writes is the word `RESULT` and JSON, whatever packets it receives and whatever calls
fail, if there is a probe for each hop and the texts of the options and the host may be printed. -/
theorem report_isJson {host : Host} (hhost : host.Tidy) {args : Args} (hargs : args.Tidy host)
    {opt : Options} (hopt : tracerouteInit host args = some opt) (index : ℕ)
    (events : List (Event × Io)) (hevents : ∀ x ∈ events, x.1.Tidy) :
    ∀ text ∈ results (steps host events (initState opt index)).acts,
      ∃ body, text = ascii "RESULT " ++ body ∧ IsJson body := by
  have hinit : Tells (initState opt index) := by
    refine ⟨⟨hargs.options hopt, Nat.zero_lt_succ _, nofun⟩, ?_⟩
    rintro (hicmp | htcp | htimer)
    · exact absurd hicmp Bool.false_ne_true
    · exact absurd htcp Bool.false_ne_true
    · exact absurd htimer Bool.false_ne_true
  have htells : Tells (steps host events (initState opt index)) :=
    steps_inv (Q := fun x => x.1.Tidy) (fun _ _ _ h he => h.step hhost he) hevents hinit
  intro text htext
  exact htells.acts _ (mem_results htext)

/-- One hop, with some number of probes. -/
def oneHopArgs (count : ℕ) : Args := { plainArgs false false with count := count, maxhops := 1 }

/-- The options as they are stored. -/
def oneHopOptions (count : ℕ) : Options := (tracerouteInit plainHost (oneHopArgs count)).get rfl

lemma tidy_plainEvents (timeouts : ℕ) : ∀ x ∈ plainEvents timeouts, x.1.Tidy := by
  intro x hx
  rcases mem_cons.mp hx with rfl | hx
  · trivial
  · rcases mem_cons.mp hx with rfl | hx
    · trivial
    · rw [eq_of_mem_replicate hx]
      trivial

/-- A run without an answer writes one result, and it is JSON. -/
theorem report_isJson_oneHop :
    (results (steps plainHost (plainEvents 1) (initState (oneHopOptions 1) 0)).acts).length = 1 ∧
      ∀ text ∈ results (steps plainHost (plainEvents 1) (initState (oneHopOptions 1) 0)).acts,
        ∃ body, text = ascii "RESULT " ++ body ∧ IsJson body := by
  have hargs : (oneHopArgs 1).Tidy plainHost := ⟨by decide, by decide +kernel, nofun⟩
  exact ⟨by decide +kernel, report_isJson tidy_plainHost hargs (Option.some_get _).symm 0
    (plainEvents 1) (tidy_plainEvents 1)⟩

/-- Without probes a hop ends with the bracket of a probe that was not opened. -/
theorem report_without_probes_not_isJson :
    ∃ text ∈ results (steps plainHost (plainEvents 0) (initState (oneHopOptions 0) 0)).acts,
      ∀ body, text = ascii "RESULT " ++ body → ¬IsJson body :=
  exists_not_isJson (by decide +kernel)

end AtlasProbe.Traceroute
