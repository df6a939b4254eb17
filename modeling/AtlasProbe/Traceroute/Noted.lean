import AtlasProbe.Traceroute.Late

/-!
# How answers are noted

An answer to the last probe is noted in `last_response_hop`, or it says that the destination has
answered (`Noted`).  A further ICMP error for the same probe can take the second note back, when it
says that the destination has not answered; then the answer is lost (`Spoils`).  `HandledBy` is what
a packet does to the notes.
-/

namespace AtlasProbe.Traceroute

open Wire Measurement

/-! ### Notes -/

/-- The answer to a probe of the hop has been noted. -/
def Settled (s : State) : Prop :=
  s.lastResponseHop = s.hop ∨ s.done = true ∧ s.notDone = false

/-- The flags of the hop say that an answer has been noted. -/
structure Noted (s : State) : Prop where
  notDone : s.notDone = true → s.lastResponseHop = s.hop
  gotresp : s.gotresp = true → Settled s
  le : s.lastResponseHop ≤ s.hop

/-- A quiet change that keeps what has been noted. -/
structure KeepsNotes (s t : State) : Prop where
  quiet : Quiet s t
  noted : Noted s → Noted t
  settled : Noted s → Settled s → Settled t
  lastResponseHop : t.lastResponseHop = s.lastResponseHop ∨ t.lastResponseHop = s.hop

/-- A quiet change that keeps what has been noted, and the timer. -/
structure Notes (s t : State) : Prop extends KeepsNotes s t where
  timer : s.timer = true → t.timer = true

/-- The event answers the last probe. -/
def AnswersLast (host : Host) (tabsiz : ℕ) (s : State) (e : Event) : Prop :=
  (answer host tabsiz s e).any fun a => a.seq = s.seq

instance (host : Host) (tabsiz : ℕ) (s : State) (e : Event) :
    Decidable (AnswersLast host tabsiz s e) :=
  inferInstanceAs (Decidable (_ = true))

/-- A further ICMP error for the last probe says that the destination has not answered, and the
answer before it was not noted in `last_response_hop`. -/
def Spoils (host : Host) (tabsiz : ℕ) (s : State) : Event → Prop
  | .icmp p =>
    s.lastResponseHop ≠ s.hop ∧
      if s.opt.doV6 then
        ∃ c seq, reply6 host p s = some (.error c seq) ∧ verdict s seq = .dup ∧
          u8 p.buf 0 = icmp6PacketTooBig
      else
        ∃ b seq, reply4 host tabsiz p s = some (.error b seq) ∧ verdict s seq = .dup ∧
          if u8 p.buf (hlen p.buf) = icmpTimeExceeded then b.dupNotDone = true
          else u8 p.buf (hlen p.buf + 1) = icmpUnreachNeedfrag
  | _ => False

section Notes

variable {host : Host} {tabsiz : ℕ} {io : Io} {p : Packet} {s t u : State} {v : Verdict}
  {answers : Prop} {seq : ℕ}

lemma Notes.trans (h : Notes s t) (h' : Notes t u) : Notes s u where
  quiet := h.quiet.trans h'.quiet
  noted hs := h'.noted (h.noted hs)
  settled hs hset := h'.settled (h.noted hs) (h.settled hs hset)
  lastResponseHop := by
    have hhop : t.hop = s.hop := h.quiet.sameHop.hop
    rcases h'.lastResponseHop with heq | heq
    · rw [heq]
      exact h.lastResponseHop
    · exact .inr (heq.trans hhop)
  timer htimer := h'.timer (h.timer htimer)

/-- A change without an effect on the flags. -/
lemma KeepsNotes.of_onlyReported (hquiet : Quiet s t) (h : OnlyReported s t) : KeepsNotes s t := by
  have hsettled : Settled s → Settled t := by
    unfold Settled
    rw [h.lastResponseHop, h.hop, h.done, h.notDone]
    exact id
  refine ⟨hquiet, fun hs => ⟨?_, ?_, ?_⟩, fun _ => hsettled, .inl h.lastResponseHop⟩
  · rw [h.notDone, h.lastResponseHop, h.hop]
    exact hs.notDone
  · rw [h.gotresp]
    exact fun hgot => hsettled (hs.gotresp hgot)
  · rw [h.lastResponseHop, h.hop]
    exact hs.le

lemma Notes.of_onlyReported (hquiet : Quiet s t) (h : OnlyReported s t)
    (htimer : t.timer = s.timer) : Notes s t :=
  ⟨.of_onlyReported hquiet h, fun hs => htimer.trans hs⟩

lemma Notes.refl (s : State) : Notes s s :=
  .of_onlyReported (.refl s) (by constructor <;> rfl) rfl

lemma notes_separate (s : State) : Notes s s.separate := by
  unfold State.separate
  split
  · exact .of_onlyReported (.of_core rfl rfl) (by constructor <;> rfl) rfl
  · exact .refl s

lemma notes_addStr (s : State) (text : Bytes) : Notes s (s.addStr text) :=
  .of_onlyReported (.of_core rfl rfl) (by constructor <;> rfl) rfl

lemma notes_opened (s : State) : Notes s s.opened :=
  .of_onlyReported (.of_core rfl rfl) (by constructor <;> rfl) rfl

lemma notes_limit (s : State) (headers nextmtu : ℕ) : Notes s (s.limit headers nextmtu) := by
  unfold State.limit
  split
  · exact ⟨⟨.of_core rfl rfl, fun h => ⟨h.notDone, h.gotresp, h.le⟩, fun _ h => h, .inl rfl⟩, id⟩
  · exact .refl s

/-- The hop answers. -/
lemma notes_respond (s : State) (v : Verdict) : Notes s (s.respond v) := by
  unfold State.respond
  split
  · exact ⟨⟨.of_core rfl rfl, fun _ => ⟨fun _ => rfl, fun _ => .inl rfl, Nat.le_refl _⟩,
      fun _ _ => .inl rfl, .inr rfl⟩, id⟩
  · exact .refl s

/-- The destination answers, and that is noted. -/
lemma Noted.settled_arrive (h : Noted s) : Settled s.arrive := by
  rcases Bool.eq_false_or_eq_true s.notDone with hnot | hnot
  · exact .inl (h.notDone hnot)
  · exact .inr ⟨rfl, hnot⟩

lemma notes_arrive (s : State) : Notes s s.arrive where
  quiet := .of_core rfl rfl
  noted h := ⟨h.notDone, fun _ => h.settled_arrive, h.le⟩
  settled h _ := h.settled_arrive
  lastResponseHop := .inl rfl
  timer := id

/-- It is said that the destination has not answered, at a hop whose answer is noted. -/
lemma Notes.setNotDone (h : Notes s t) (hlast : t.lastResponseHop = t.hop) :
    Notes s { t with notDone := true } := by
  exact h.trans ⟨⟨.of_core rfl rfl, fun ht => ⟨fun _ => hlast, fun _ => .inl hlast, ht.le⟩,
    fun _ _ => .inl hlast, .inl rfl⟩, id⟩

/-! ### ICMP errors -/

lemma lastResponseHop_respond (s : State) :
    (s.respond .current).lastResponseHop = (s.respond .current).hop := by
  unfold State.respond
  rw [if_pos rfl]

lemma lastResponseHop_limit (s : State) (headers nextmtu : ℕ)
    (h : s.lastResponseHop = s.hop) :
    (s.limit headers nextmtu).lastResponseHop = (s.limit headers nextmtu).hop := by
  unfold State.limit
  split <;> exact h

/-- The hop is noted behind a first or further error for the last probe. -/
lemma lastResponseHop_respond_of {hnote : Prop} (hv : v ≠ .future) (hlate : v ≠ .late)
    (hdup : v = .dup → hnote → s.lastResponseHop = s.hop) (h : hnote) :
    (s.respond v).lastResponseHop = (s.respond v).hop := by
  cases v with
  | current => exact lastResponseHop_respond s
  | dup => exact hdup rfl h
  | late => exact absurd rfl hlate
  | future => exact absurd rfl hv

/-- What an ICMP error over IPv4 says is noted. -/
lemma notes_noteError4 (s : State) (b : Branch) (type code nextmtu : ℕ) (hv : v ≠ .future)
    (hdup : v = .dup → (if type = icmpTimeExceeded then b.dupNotDone = true
      else code = icmpUnreachNeedfrag) → s.lastResponseHop = s.hop) :
    Notes s (noteError4 s b v type code nextmtu) ∧
      (v = .current → Noted u → Settled (noteError4 s b v type code nextmtu)) := by
  have hrespond := notes_respond s v
  unfold noteError4
  split_ifs at hdup ⊢ with htype hcount hlate hfrag
  · have hnoted : (s.respond v).lastResponseHop = (s.respond v).hop := by
      rcases hcount with rfl | ⟨rfl, hb⟩
      · exact lastResponseHop_respond s
      · exact lastResponseHop_respond_of hv (by decide) hdup hb
    exact ⟨hrespond.setNotDone hnoted, fun _ _ => .inl hnoted⟩
  · exact ⟨hrespond, fun hcur => absurd (.inl hcur) hcount⟩
  · exact ⟨hrespond, fun hcur => absurd (hlate.symm.trans hcur) (by decide)⟩
  · have hnoted := lastResponseHop_limit _ b.headers nextmtu
      (lastResponseHop_respond_of hv hlate hdup hfrag)
    have hlimit := (hrespond.trans (notes_limit _ b.headers nextmtu)).trans (notes_arrive _)
    exact ⟨hlimit.setNotDone hnoted, fun _ _ => .inl hnoted⟩
  · refine ⟨hrespond.trans (notes_arrive _), ?_⟩
    rintro rfl -
    exact .inl (lastResponseHop_respond s)

/-- What an ICMP error over IPv6 says is noted. -/
lemma notes_noteError6 (s : State) (c : Cursor) (type mtu : ℕ) (hv : v ≠ .future)
    (hdup : v = .dup → type = icmp6PacketTooBig → s.lastResponseHop = s.hop) :
    Notes s (noteError6 s c v type mtu) ∧
      (v = .current → Noted u → Settled (noteError6 s c v type mtu)) := by
  have hrespond := notes_respond s v
  unfold noteError6
  split_ifs with htype hcur hlate hbig
  · subst hcur
    have hnoted := lastResponseHop_respond s
    exact ⟨hrespond.setNotDone hnoted, fun _ _ => .inl hnoted⟩
  · exact ⟨hrespond, fun h => absurd h hcur⟩
  · exact ⟨hrespond, fun hcur => absurd (hlate.symm.trans hcur) (by decide)⟩
  · have hnoted := lastResponseHop_limit _ (headers6 c) (max mtu 1200)
      (lastResponseHop_respond_of hv hlate hdup hbig)
    exact ⟨(hrespond.trans (notes_limit _ (headers6 c) (max mtu 1200))).setNotDone hnoted,
      fun _ _ => .inl hnoted⟩
  · refine ⟨hrespond.trans (notes_arrive _), ?_⟩
    rintro rfl -
    exact .inl (lastResponseHop_respond s)

/-- What an echo reply over IPv6 says is noted. -/
lemma notes_noteEcho6 (s : State) :
    Notes s (noteEcho6 s v) ∧ (v = .current → Noted u → Settled (noteEcho6 s v)) := by
  unfold noteEcho6
  split_ifs with hcur
  · subst hcur
    exact ⟨(notes_respond s _).trans (notes_arrive _), fun _ _ => .inl (lastResponseHop_respond s)⟩
  · exact ⟨.refl s, fun h => absurd h hcur⟩

/-! ### Events -/

/-- An event is handled: an answer to the last probe is noted, and then the next probe may be
sent. -/
def HandledBy (host : Host) (io : Io) (answers : Prop) (s s' : State) : Prop :=
  ∃ t, Notes s t ∧ (answers → Noted s → Settled t) ∧ (s' = t ∨ s' = sendPkt host io t)

/-- The end of a reply. -/
lemma Notes.finish (h : Notes s t) (hcur : v = .current → Noted s → Settled t)
    (hans : answers → Noted s → Settled t) : HandledBy host io answers s (finish host io v t) := by
  have hopened := h.trans (notes_opened t)
  unfold Traceroute.finish
  dsimp only
  split_ifs with hv hdup
  · refine ⟨t.opened.awaitDups, ?_, hans, .inl rfl⟩
    refine ⟨⟨hopened.quiet.trans ⟨rfl, [t.opt.duptimeout], rfl⟩, fun hs => ?_, h.settled,
      h.lastResponseHop⟩, fun _ => rfl⟩
    exact ⟨(h.noted hs).notDone, fun _ => hcur hv hs, (h.noted hs).le⟩
  · exact ⟨t.opened, hopened, hans, .inr rfl⟩
  · exact ⟨t.opened, hopened, hans, .inl rfl⟩

/-- The end of a reply to the last probe, which is the first one, or the first one has been noted.
-/
lemma Notes.finish_verdict (h : Notes s t) (hcur : verdict s seq = .current → Noted s → Settled t) :
    HandledBy host io (seq = s.seq) s (Traceroute.finish host io (verdict s seq) t) := by
  refine h.finish hcur fun hseq hs => ?_
  subst hseq
  unfold verdict at hcur
  rw [if_neg (not_not_intro rfl)] at hcur
  rcases Bool.eq_false_or_eq_true s.gotresp with hgot | hgot
  · exact h.settled hs (hs.gotresp hgot)
  · exact hcur (by rw [hgot]; rfl) hs

lemma notes_text (s : State) (text : Bytes) : Notes s (s.separate.addStr text) :=
  (notes_separate s).trans (notes_addStr _ _)

/-- A packet for a probe that has not been sent. -/
lemma handledBy_future (h : verdict s seq = .future) :
    HandledBy host io (seq = s.seq) s s.separate := by
  refine ⟨s.separate, notes_separate s, ?_, .inl rfl⟩
  rintro rfl
  unfold verdict at h
  rw [if_neg (not_not_intro rfl)] at h
  split_ifs at h

lemma lastResponseHop_text (s : State) (text : Bytes) (h : s.lastResponseHop = s.hop) :
    (s.separate.addStr text).lastResponseHop = (s.separate.addStr text).hop := by
  unfold State.separate
  split <;> exact h

/-- A packet is handled. -/
lemma handledBy_handleReply {text : State → Bytes} {note : State → State}
    (hnote : verdict s seq ≠ .future → Notes (s.separate.addStr (text s.separate))
        (note (s.separate.addStr (text s.separate))) ∧ (verdict s seq = .current → Noted s →
      Settled (note (s.separate.addStr (text s.separate))))) :
    HandledBy host io (seq = s.seq) s (handleReply host io (verdict s seq) text note s) := by
  unfold handleReply
  dsimp only
  split_ifs with hfuture
  · exact handledBy_future hfuture
  · obtain ⟨hnotes, hcur⟩ := hnote hfuture
    exact ((notes_text s _).trans hnotes).finish_verdict hcur

/-- The destination answers. -/
lemma settled_arrive (hs : Noted s) (text : Bytes) : Settled (s.separate.addStr text).arrive :=
  ((notes_text s text).noted hs).settled_arrive

/-- A TCP segment for the last probe is not one for a probe that has not been sent. -/
lemma tcpVerdict_ne_future {i : ℕ} (hbound : s.seq < 65535) (h : ackedSeq p i = s.seq) :
    tcpVerdict s (u32 p.buf (i + 8) &&& 0xffff) ≠ .future := by
  have hack : u32 p.buf (i + 8) &&& 0xffff = s.seq + 1 := by
    have hand : u32 p.buf (i + 8) &&& 0xffff ≤ 0xffff := Nat.and_le_right
    unfold ackedSeq at h
    omega
  unfold tcpVerdict
  rw [hack, if_neg (by omega)]
  split <;> exact fun heq => Verdict.noConfusion heq

lemma handledBy_tcpReply {i tcpHlen : ℕ} {remote : Bytes} {ttl size tos : ℤ}
    (hbound : s.seq < 65535) :
    HandledBy host io (ackedSeq p i = s.seq) s
      (tcpReply host io p s i tcpHlen remote ttl size tos) := by
  unfold tcpReply handleReply
  dsimp only
  split
  · next hfuture =>
    exact ⟨s.separate, notes_separate s,
      fun hans => absurd hfuture (tcpVerdict_ne_future hbound hans), .inl rfl⟩
  · exact ((notes_text s _).trans (notes_arrive _)).finish (fun _ hs => settled_arrive hs _)
      fun _ hs => settled_arrive hs _

/-- An event that is not answered to. -/
lemma HandledBy.refl (s : State) (h : ¬answers) : HandledBy host io answers s s :=
  ⟨s, .refl s, fun hans => absurd hans h, .inl rfl⟩

lemma HandledBy.mono {answers' : Prop} {s' : State} (h : HandledBy host io answers s s')
    (himp : answers' → answers) : HandledBy host io answers' s s' := by
  obtain ⟨t, hnotes, hans, hs'⟩ := h
  exact ⟨t, hnotes, fun hans' => hans (himp hans'), hs'⟩

lemma Answer.seq_eq_of_any {a : Answer} {n : ℕ}
    (h : ((some a).any fun a => a.seq = n) = true) : a.seq = n := of_decide_eq_true h

/-- ICMP packets are handled, and their answers are noted unless the note is taken back. -/
lemma handledBy_icmp (hspoils : ¬Spoils host io.tabsiz s (.icmp p)) :
    HandledBy host io (AnswersLast host io.tabsiz s (.icmp p)) s (step host io s (.icmp p)) := by
  unfold AnswersLast answer step
  unfold Spoils at hspoils
  dsimp only at hspoils ⊢
  by_cases hopen : s.socketIcmp = true
  · rw [if_pos hopen, if_pos hopen]
    by_cases hv6 : s.opt.doV6 = true
    · rw [if_pos hv6] at hspoils
      rw [if_pos hv6, if_pos hv6]
      unfold readyCallback6 errorReply6 echoReply6
      rcases hreply : reply6 host p s with _ | ⟨c, seq⟩ | seq
      · exact .refl s (by simp)
      · refine .mono (handledBy_handleReply fun hv => notes_noteError6 _ _ _ _ hv
          fun hd hbig => lastResponseHop_text s _ ?_) Answer.seq_eq_of_any
        by_contra hne
        exact hspoils ⟨hne, c, seq, hreply, hd, hbig⟩
      · exact .mono (handledBy_handleReply fun _ => notes_noteEcho6 _) Answer.seq_eq_of_any
    · rw [if_neg hv6] at hspoils
      rw [if_neg hv6, if_neg hv6]
      unfold readyCallback4 errorReply4 echoReply4
      rcases hreply : reply4 host io.tabsiz p s with _ | ⟨b, seq⟩ | seq
      · exact .refl s (by simp)
      · refine .mono (handledBy_handleReply fun hv => notes_noteError4 _ _ _ _ _ hv
          fun hd hb => lastResponseHop_text s _ ?_) Answer.seq_eq_of_any
        by_contra hne
        exact hspoils ⟨hne, b, seq, hreply, hd, hb⟩
      · exact .mono (handledBy_handleReply fun _ => ⟨notes_arrive _,
          fun _ hs => settled_arrive hs _⟩) Answer.seq_eq_of_any
  · rw [if_neg hopen, if_neg hopen]
    exact .refl s (by simp)

/-- TCP segments are handled, and their answers are noted. -/
lemma handledBy_tcp (hbound : s.seq < 65535) :
    HandledBy host io (AnswersLast host io.tabsiz s (.tcp p)) s (step host io s (.tcp p)) := by
  unfold AnswersLast answer step
  dsimp only
  by_cases hopen : s.socketTcp = true
  · rw [if_pos hopen]
    by_cases hv6 : s.opt.doV6 = true
    · rw [if_pos hv6, readyTcp6]
      split
      · exact (handledBy_tcpReply hbound).mono Answer.seq_eq_of_any
      · exact .refl s (by simp)
    · rw [if_neg hv6, readyTcp4]
      split
      · exact (handledBy_tcpReply hbound).mono Answer.seq_eq_of_any
      · exact .refl s (by simp)
  · rw [if_neg hopen, if_neg hopen]
    exact .refl s (by simp)

end Notes

end AtlasProbe.Traceroute
