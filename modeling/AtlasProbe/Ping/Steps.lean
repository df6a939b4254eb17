import AtlasProbe.Ping.Run

/-!
# What a step can do

A request goes out and the timer is started (`Transmitted`), or the result is written and the
measurement ends (`Ended`); replies change the text and the sequence number only (`Replied`).
-/

namespace AtlasProbe.Ping

open List Measurement

/-! ### Texts and entries -/

/-- The text of the entries of a result. -/
def resultText (env : Env) : List Entry → Bytes
  | [] => []
  | e :: entries => e.text env [] ++ entries.flatMap (Entry.text env (ascii ", "))

/-- The text so far has these entries. -/
structure Tells (env : Env) (entries : List Entry) (s : State) : Prop where
  result : s.result = resultText env entries
  first : s.first = entries.isEmpty

section Entries

variable {env : Env} {entries : List Entry} {s t : State}

lemma resultText_append (entries : List Entry) (e : Entry) :
    resultText env (entries ++ [e]) =
      resultText env entries ++ e.text env (if entries.isEmpty then [] else ascii ", ") := by
  cases entries with
  | nil => simp [resultText]
  | cons e' entries => simp [resultText]

lemma Tells.addEntry (h : Tells env entries s) (e : Entry) :
    Tells env (entries ++ [e]) (s.addEntry env e) := by
  constructor
  · rw [resultText_append, ← h.first, ← h.result]
    rfl
  · simp [State.addEntry]

lemma Tells.congr (h : Tells env entries s) (hresult : t.result = s.result)
    (hfirst : t.first = s.first) : Tells env entries t :=
  ⟨hresult.trans h.result, hfirst.trans h.first⟩

lemma Tells.firstValues (h : Tells env entries s) (bytes ttl : ℕ) :
    Tells env entries (s.firstValues bytes ttl) := by
  unfold State.firstValues
  split
  · exact h.congr rfl rfl
  · exact h

lemma Tells.keepLoc (h : Tells env entries s) (dup : Bool) (loc : Option Sockaddr) :
    Tells env entries (s.keepLoc dup loc) := by
  unfold State.keepLoc
  split
  · exact h.congr rfl rfl
  · exact h

end Entries

/-! ### What entries leave as it is -/

/-- Only what belongs to the entries, and perhaps the sequence number, has changed. -/
structure Framed (s t : State) : Prop where
  opt : t.opt = s.opt
  index : t.index = s.index
  cookie : t.cookie = s.cookie
  busy : t.busy = s.busy
  dnsip : t.dnsip = s.dnsip
  reading : t.reading = s.reading
  timer : t.timer = s.timer
  maxpkts : t.maxpkts = s.maxpkts
  sentpkts : t.sentpkts = s.sentpkts
  sendError : t.sendError = s.sendError
  acts : t.acts = s.acts

section Framed

variable {s t u : State}

lemma Framed.refl (s : State) : Framed s s := by
  constructor <;> rfl

lemma Framed.trans (h : Framed s t) (h' : Framed t u) : Framed s u :=
  ⟨h'.opt.trans h.opt, h'.index.trans h.index, h'.cookie.trans h.cookie, h'.busy.trans h.busy,
    h'.dnsip.trans h.dnsip, h'.reading.trans h.reading, h'.timer.trans h.timer,
    h'.maxpkts.trans h.maxpkts, h'.sentpkts.trans h.sentpkts,
    h'.sendError.trans h.sendError, h'.acts.trans h.acts⟩

variable (env : Env) (s : State)

lemma framed_firstValues (bytes ttl : ℕ) : Framed s (s.firstValues bytes ttl) := by
  unfold State.firstValues
  split
  · constructor <;> rfl
  · exact .refl s

lemma framed_keepLoc (dup : Bool) (loc : Option Sockaddr) : Framed s (s.keepLoc dup loc) := by
  unfold State.keepLoc
  split
  · constructor <;> rfl
  · exact .refl s

lemma framed_addEntry (e : Entry) : Framed s (s.addEntry env e) := by
  constructor <;> rfl

lemma framed_pingCbReply (dup : Bool) (bytes : ℕ) (loc : Option Sockaddr) (ttl : ℕ) (nsecs : ℤ) :
    Framed s (pingCbReply env s dup bytes loc ttl nsecs) := by
  unfold pingCbReply
  split
  · exact .refl s
  · refine ((framed_firstValues s bytes ttl).trans (framed_keepLoc _ dup loc)).trans ?_
    constructor <;> rfl

lemma framed_pingCbTimeout : Framed s (pingCbTimeout env s) := by
  unfold pingCbTimeout
  split
  · exact .refl s
  · exact (framed_firstValues s _ _).trans (framed_addEntry env _ _)

lemma framed_pingCbSendto (errno : ℕ) : Framed s (pingCbSendto env s errno) := by
  unfold pingCbSendto
  split
  · exact .refl s
  · exact (framed_firstValues s _ _).trans (framed_addEntry env _ _)

lemma framed_nextSeq : Framed s s.nextSeq := by
  constructor <;> rfl

end Framed

section Fields

variable (env : Env) (s : State)

lemma seq_firstValues (bytes ttl : ℕ) : (s.firstValues bytes ttl).seq = s.seq := by
  unfold State.firstValues
  split <;> rfl

lemma gotReply_firstValues (bytes ttl : ℕ) : (s.firstValues bytes ttl).gotReply = s.gotReply := by
  unfold State.firstValues
  split <;> rfl

lemma fields_pingCbSendto (errno : ℕ) : (pingCbSendto env s errno).seq = s.seq ∧
    (pingCbSendto env s errno).gotReply = s.gotReply := by
  unfold pingCbSendto
  split
  · exact ⟨rfl, rfl⟩
  · exact ⟨seq_firstValues s _ _, gotReply_firstValues s _ _⟩

lemma seq_pingCbReply (dup : Bool) (bytes : ℕ) (loc : Option Sockaddr) (ttl : ℕ) (nsecs : ℤ) :
    (pingCbReply env s dup bytes loc ttl nsecs).seq = s.seq := by
  have hkeep (t : State) : (t.keepLoc dup loc).seq = t.seq := by
    unfold State.keepLoc
    split <;> rfl
  unfold pingCbReply
  split
  · rfl
  · exact (hkeep _).trans (seq_firstValues s bytes ttl)

/-- The flag is only set for a reply that is not a duplicate. -/
lemma gotReply_pingCbReply {dup : Bool} (bytes : ℕ) (loc : Option Sockaddr) (ttl : ℕ) (nsecs : ℤ)
    (hdup : dup = true) :
    (pingCbReply env s dup bytes loc ttl nsecs).gotReply = s.gotReply := by
  have hkeep (t : State) : t.keepLoc dup loc = t := by
    unfold State.keepLoc
    rw [hdup, Bool.not_true, Bool.and_false, if_neg Bool.false_ne_true]
  unfold pingCbReply
  split
  · rfl
  · rw [hkeep]
    exact gotReply_firstValues s bytes ttl

end Fields

/-! ### Sending -/

section Sending

variable (env : Env) (io : Io) (s : State)

/-- What a request that is given to the kernel changes. -/
structure Transmitted (t : State) : Prop where
  opt : t.opt = s.opt
  busy : t.busy = s.busy
  dnsip : t.dnsip = s.dnsip
  reading : t.reading = s.reading
  maxpkts : t.maxpkts = s.maxpkts
  seq : t.seq = s.seq
  gotReply : t.gotReply = s.gotReply
  sendError : t.sendError = (s.sendError || io.sendto.isSome)
  sentpkts : t.sentpkts = s.sentpkts + 1
  timer : t.timer = true
  acts : ∃ packet, t.acts = s.acts ++ [.sendto s.seq packet io.sendto, .timer s.opt.interval]
  tells : ∀ entries, s.busy = true → Tells env entries s →
    Tells env (entries ++ (io.sendto.map fun e => .sendError (env.strerror e)).toList) t

lemma transmitted_transmit : Transmitted env io s (transmit env io s) := by
  unfold transmit
  cases hio : io.sendto with
  | none =>
    refine ⟨rfl, rfl, rfl, rfl, rfl, rfl, rfl, ?_, rfl, rfl, ⟨request env io (s.prepared io), ?_⟩,
      ?_⟩
    · rw [hio, Option.isSome_none, Bool.or_false]
      rfl
    · dsimp only [State.evtimerAdd, State.sent]
      rw [append_assoc]
      rfl
    · intro entries _ h
      rw [hio, Option.map_none, Option.toList_none, append_nil]
      exact h.congr rfl rfl
  | some errno =>
    have hframed := framed_pingCbSendto env ((s.prepared io).sent env io).failed errno
    have hfields := fields_pingCbSendto env ((s.prepared io).sent env io).failed errno
    refine ⟨hframed.opt, hframed.busy, hframed.dnsip, hframed.reading, hframed.maxpkts,
      hfields.1, hfields.2, ?_, hframed.sentpkts, rfl, ⟨request env io (s.prepared io), ?_⟩, ?_⟩
    · rw [hio, Option.isSome_some, Bool.or_true]
      exact hframed.sendError
    · dsimp only [State.evtimerAdd]
      rw [hframed.acts, hframed.opt]
      exact append_assoc _ _ _
    · intro entries hbusy h
      have htells : Tells env entries ((s.prepared io).sent env io).failed := h.congr rfl rfl
      have hbusy' : ((s.prepared io).sent env io).failed.busy = true := hbusy
      rw [hio, Option.map_some]
      dsimp only
      generalize ((s.prepared io).sent env io).failed = t at htells hbusy'
      unfold pingCbSendto
      rw [hbusy', Bool.not_true]
      exact ((htells.firstValues _ _).addEntry _).congr rfl rfl

/-- What the end of a measurement changes. -/
structure Ended (t : State) : Prop where
  opt : t.opt = s.opt
  busy : t.busy = false
  dnsip : t.dnsip = s.dnsip
  reading : t.reading = false
  timer : t.timer = s.timer
  acts : ∃ text error, t.acts = s.acts ++ [.written text, .done error]

/-- A measurement ends with the text that it has. -/
structure Finished (t : State) : Prop extends Ended s t where
  written : ∃ u error, u.result = s.result ∧
    t.acts = s.acts ++ [.written (reportText env io u), .done error]

variable {s} in
/-- The result is written, and `done` is called. -/
lemma ended_report {t : State} (hframed : Framed s t) (error : Bool) :
    Ended s ((report env io t).callDone error) := by
  refine ⟨hframed.opt, rfl, hframed.dnsip, rfl, hframed.timer, reportText env io t, error, ?_⟩
  dsimp only [report]
  rw [hframed.acts]
  exact append_assoc _ _ _

variable {s} in
lemma finished_finish (hbusy : s.busy = true) : Finished env io s (finish env io s) := by
  have hframed := framed_firstValues s s.cursize s.rcvdTtl
  have hresult : (s.firstValues s.cursize s.rcvdTtl).result = s.result := by
    unfold State.firstValues
    split <;> rfl
  unfold finish pingCbDone
  rw [hbusy, Bool.not_true]
  generalize s.firstValues s.cursize s.rcvdTtl = t at hframed hresult
  refine ⟨ended_report env io ?_ _, { t with error := !t.gotReply }, !t.gotReply, hresult, ?_⟩
  · exact hframed.trans (by constructor <;> rfl)
  · dsimp only [report]
    rw [hframed.acts]
    exact append_assoc _ _ _

/-- `ping_xmit` ends the measurement behind the last request, and sends the next one before. -/
lemma pingXmit_cases (hbusy : s.busy = true) :
    s.maxpkts ≤ s.sentpkts ∧ Finished env io s (pingXmit env io s) ∨
      s.sentpkts < s.maxpkts ∧ Transmitted env io s (pingXmit env io s) := by
  unfold pingXmit
  split
  · next hle => exact .inl ⟨hle, finished_finish env io hbusy⟩
  · next hlt => exact .inr ⟨Nat.lt_of_not_le hlt, transmitted_transmit env io s⟩

lemma framed_missed : Framed s (s.missed env) := by
  unfold State.missed
  split
  · exact (framed_pingCbTimeout env s).trans (framed_nextSeq _)
  · exact .refl s

end Sending

/-! ### Replies -/

/-- The kind of a message for the measurement, and the number of the probe. -/
def message (env : Env) (s : State) (p : Packet) : Option (Kind × ℕ) :=
  if s.opt.inet6 then (message6 env p s).map fun k => (k, seqAt p 0)
  else (message4 env p s).map fun k => (k, seqAt p (hlen p.buf))

/-- What a reply changes. -/
structure Replied (env : Env) (s t : State) (number : ℕ) : Prop extends Framed s t where
  seq : t.seq = if number ≠ s.seq ∧ s.opt.inet6 = false then s.seq else (s.seq + 1) % 256
  gotReply : t.gotReply = (s.gotReply || decide (number = s.seq))
  tells : ∀ entries, s.busy = true → Tells env entries s →
    ∃ r : Reply, r.dup = decide (number ≠ s.seq) ∧ Tells env (entries ++ [.reply r]) t

section Replies

variable (env : Env) (io : Io) {s : State} (p : Packet)

/-- A reply adds an entry. -/
lemma tells_pingCbReply {entries : List Entry} (hbusy : s.busy = true) (h : Tells env entries s)
    (dup : Bool) (bytes : ℕ) (loc : Option Sockaddr) (ttl : ℕ) (nsecs : ℤ) :
    ∃ r : Reply, r.dup = dup ∧
      Tells env (entries ++ [.reply r]) (pingCbReply env s dup bytes loc ttl nsecs) := by
  unfold pingCbReply
  rw [hbusy, Bool.not_true]
  refine ⟨_, ?_, (((h.firstValues bytes ttl).keepLoc dup loc).addEntry _).congr rfl rfl⟩
  rfl

/-- A reply, with the notes about it that are made behind `ping_cb`. -/
lemma replied_noted {number : ℕ} (note : State → State) (hframed : ∀ u, Framed u (note u))
    (hresult : ∀ u, (note u).result = u.result ∧ (note u).first = u.first)
    (hseq : ∀ u, (note u).seq =
      if number ≠ s.seq ∧ s.opt.inet6 = false then u.seq else (u.seq + 1) % 256)
    (hgot : ∀ u, (note u).gotReply = if number ≠ s.seq then u.gotReply else true)
    (rcvd bytes : ℕ) (loc : Option Sockaddr) (ttl : ℕ) (nsecs : ℤ) :
    Replied env s (note (pingCbReply env (s.received rcvd) (decide (number ≠ s.seq)) bytes loc ttl
      nsecs)) number where
  toFramed := by
    have hreceived : Framed s (s.received rcvd) := by
      constructor <;> rfl
    exact (hreceived.trans (framed_pingCbReply env _ _ _ _ _ _)).trans (hframed _)
  seq := by
    rw [hseq, seq_pingCbReply]
    rfl
  gotReply := by
    rw [hgot]
    split
    · next hne =>
      rw [gotReply_pingCbReply env _ _ _ _ _ (decide_eq_true hne), decide_eq_false hne,
        Bool.or_false]
      rfl
    · next heq => rw [decide_eq_true (not_not.mp heq), Bool.or_true]
  tells := by
    intro entries hbusy h
    obtain ⟨r, hr, htells⟩ := tells_pingCbReply env (s := s.received rcvd) hbusy
      (h.congr rfl rfl) (decide (number ≠ s.seq)) bytes loc ttl nsecs
    exact ⟨r, hr, htells.congr (hresult _).1 (hresult _).2⟩

lemma replied_reply4 (hfamily : s.opt.inet6 = false) :
    Replied env s (reply4 env io p s) (seqAt p (hlen p.buf)) := by
  refine replied_noted env
    (fun u => if decide (seqAt p (hlen p.buf) ≠ s.seq) then u else u.answered.nextSeq)
    (fun u => ?_) (fun u => ?_) (fun u => ?_) (fun u => ?_) _ _ _ _ _
  · split
    · exact .refl u
    · constructor <;> rfl
  · split <;> exact ⟨rfl, rfl⟩
  · by_cases hnumber : seqAt p (hlen p.buf) = s.seq <;> simp [hnumber, hfamily, State.nextSeq,
      State.answered]
  · by_cases hnumber : seqAt p (hlen p.buf) = s.seq <;>
      simp [hnumber, State.nextSeq, State.answered]

lemma replied_reply6 (hfamily : s.opt.inet6 = true) :
    Replied env s (reply6 env io p s) (seqAt p 0) := by
  refine replied_noted env
    (fun u => if decide (seqAt p 0 ≠ s.seq) then u.nextSeq else u.nextSeq.answered)
    (fun u => ?_) (fun u => ?_) (fun u => ?_) (fun u => ?_) _ _ _ _ _
  · split <;> constructor <;> rfl
  · split <;> exact ⟨rfl, rfl⟩
  · by_cases hnumber : seqAt p 0 = s.seq <;> simp [hnumber, hfamily, State.nextSeq, State.answered]
  · by_cases hnumber : seqAt p 0 = s.seq <;> simp [hnumber, State.nextSeq, State.answered]

/-- What a packet does: nothing, unless it is a reply, or a message that is taken for a timeout. -/
lemma packet_cases (s : State) :
    (∀ number, message env s p ≠ some (.reply, number)) ∧
      (if s.opt.inet6 then readyCallback6 env io p s else readyCallback4 env io p s) = s ∨
    (∃ number, message env s p = some (.reply, number) ∧ Replied env s
      (if s.opt.inet6 then readyCallback6 env io p s else readyCallback4 env io p s) number) ∨
    (∃ number, message env s p = some (.other, number) ∧
      (if s.opt.inet6 then readyCallback6 env io p s else readyCallback4 env io p s) =
        noreplyCallback env io s) := by
  unfold message readyCallback6 readyCallback4
  by_cases hfamily : s.opt.inet6 = true
  · rw [if_pos hfamily, if_pos hfamily]
    cases hmessage : message6 env p s with
    | none => exact .inl ⟨by rintro number ⟨⟩, rfl⟩
    | some kind =>
      cases kind with
      | request => exact .inl ⟨by rintro number ⟨⟩, rfl⟩
      | reply => exact .inr (.inl ⟨_, rfl, replied_reply6 env io p hfamily⟩)
      | other => exact .inr (.inr ⟨_, rfl, rfl⟩)
  · rw [if_neg hfamily, if_neg hfamily]
    cases hmessage : message4 env p s with
    | none => exact .inl ⟨by rintro number ⟨⟩, rfl⟩
    | some kind =>
      cases kind with
      | request => exact .inl ⟨by rintro number ⟨⟩, rfl⟩
      | reply => exact .inr (.inl ⟨_, rfl, replied_reply4 env io p (Bool.eq_false_iff.mpr hfamily)⟩)
      | other => exact .inr (.inr ⟨_, rfl, rfl⟩)

end Replies

/-! ### The start -/

section Start

variable (env : Env) (io : Io) (s : State)

/-- A call fails and the measurement ends, or the first request is sent. -/
lemma pingStart2_cases (sio : SocketIo) :
    Ended s (pingStart2 env io sio s) ∨
      pingStart2 env io sio s = pingXmit env io (s.restart.opened sio.sockname) := by
  have hfailed (text : Bytes) : Ended s (setupFailed env io s.restart text) :=
    ⟨rfl, rfl, rfl, rfl, rfl, _, true, append_assoc _ _ _⟩
  unfold pingStart2
  dsimp only
  split
  · exact .inl (hfailed _)
  · split_ifs
    · exact .inl (hfailed _)
    · split
      · exact .inl (hfailed _)
      · exact .inr rfl

/-- The name resolution ends the measurement, or the address is pinged. -/
lemma dnsCb_cases (ttr : Bytes) (r : DnsResult) (sio : SocketIo) (hbusy : s.busy = true)
    (hdns : s.dnsip = true) (hr : r ≠ .noAddr) :
    Ended (s.resolved ttr) (dnsCb env io ttr r sio s) ∨
      ∃ sin6, r = .resolved sin6 true ∧
        dnsCb env io ttr r sio s = pingStart2 env io sio ((s.resolved ttr).setAddr sin6) := by
  have hended {t : State} (h : Framed (s.resolved ttr) t) (bytes ttl : ℕ) :
      Ended (s.resolved ttr)
        ((pingCbDone env io (report env io t) bytes ttl).callDone true) :=
    ended_report env io h true
  have hframed := framed_firstValues (s.resolved ttr) (s.resolved ttr).opt.maxsize 0
  unfold dnsCb
  rw [hdns, Bool.not_true, if_neg Bool.false_ne_true]
  dsimp only
  split
  · left
    unfold pingCbDns
    rw [show (s.resolved ttr).busy = true from hbusy, Bool.not_true]
    refine hended (hframed.trans ?_) _ _
    constructor <;> rfl
  · next sin6 allowed =>
    split_ifs with hallowed
    · exact .inr ⟨sin6, by rw [hallowed], rfl⟩
    · left
      have hframed' := framed_firstValues ((s.resolved ttr).setAddr sin6)
        (s.resolved ttr).opt.maxsize 0
      unfold pingCbBadAddr
      rw [show ((s.resolved ttr).setAddr sin6).busy = true from hbusy, Bool.not_true]
      refine hended ((Framed.trans ?_ hframed').trans ?_) _ _
      · constructor <;> rfl
      · constructor <;> rfl
  · exact absurd rfl hr

end Start

end AtlasProbe.Ping
