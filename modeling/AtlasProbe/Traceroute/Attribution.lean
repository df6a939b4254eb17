import AtlasProbe.Traceroute.Quote4
import AtlasProbe.Traceroute.Quote6

/-!
# Attribution of ICMP errors

An ICMP error that quotes a probe of a run (`Quotes`) is given to the measurement that sent it,
under the number of the probe, and changes no other measurement (`Attributed`,
`Live.attributed_iff`, `Live.other`).
-/

namespace AtlasProbe.Traceroute

open List Wire Measurement

/-- The packet quotes all of a probe, in an ICMP or ICMPv6 error. -/
def Quotes (inet6 : Bool) (p : Packet) (pr : Probe) : Prop :=
  if inet6 then Quotes6 p pr else Quotes4 p pr

/-- The name resolution and the kernel give addresses of the family that was asked for. -/
structure OfFamily (run : RunId) : Prop where
  inet6 : run.inet6 = run.opt.doV6
  src : run.locSin6.addr.length ≤ 16
  dst : run.addr.length ≤ 16

section Attribution

variable {host : Host} {tabsiz : ℕ} {io : Io} {p : Packet} {s t : State} {proto : Proto}
  {s' : State} {probe : Probe}

lemma Options.not_doIcmp_of_udp {o : Options} (h : o.proto = some .udp) : o.doIcmp = false := by
  unfold Options.proto at h
  split_ifs at h with htcp hicmp <;> simp_all

/-- The number of a probe is that of the state in which it was made. -/
lemma seq_sentProbe (hpos : 0 < t.seq) : (t.sentProbe host io proto).seq = t.seq := by
  rcases seq_prepare host io t proto with hseq | ⟨hzero, -⟩
  · exact hseq
  · exact absurd hzero hpos.ne'

/-- The probes of a live run. -/
lemma Live.sameRun (hlive : Live host OfFamily s) (hindex : s.index < 4096)
    (hmem : probe ∈ Traceroute.probes s.acts) :
    ∃ io t proto, SameRun s t ∧ s.opt.proto = some proto ∧ probe = t.sentProbe host io proto := by
  obtain ⟨⟨io, t, proto, hrun, hpos, hproto, rfl⟩, -, hle⟩ := hlive.probes probe hmem
  rw [seq_sentProbe hpos] at hle
  have hseq := hlive.seq_le
  have hsent := hlive.sent_le
  have hhop := hlive.hop_le
  exact ⟨io, t, proto, ⟨hlive.busy, hrun, hindex, hpos, hle, by omega⟩, hproto, rfl⟩

/-- A message that quotes a probe of the run does not change another measurement. -/
lemma Live.other (hlive : Live host OfFamily s) (hindex : s.index < 4096)
    (hmem : probe ∈ Traceroute.probes s.acts) (hq : Quotes s.opt.doV6 p probe) (io : Io)
    (hother : s'.index ≠ s.index) (hfamily : s'.opt.doV6 = s.opt.doV6) :
    step host io s' (.icmp p) = s' := by
  obtain ⟨io', t, proto, hsame, hproto, rfl⟩ := hlive.sameRun hindex hmem
  unfold Quotes at hq
  unfold step readyCallback6 readyCallback4
  dsimp only
  rw [hfamily]
  rcases Bool.eq_false_or_eq_true s.opt.doV6 with hv6 | hv6
  · rw [hv6] at hq
    have hinet : s.sin6.inet6 = true := hlive.run.inet6.trans hv6
    obtain ⟨c, hquoted⟩ := quoted6_sentProbe hq (hsame.inet6_eq.trans hinet)
    have hnone : quotes6 host p s' c = false := by
      rw [(hquoted.quotes6 hsame hinet s').1, beq_false_of_ne hother]
      simp
    rw [hv6, hquoted.reply6, hnone, if_neg Bool.false_ne_true, if_pos rfl, ite_self]
  · rw [hv6] at hq
    have hinet : s.sin6.inet6 = false := hlive.run.inet6.trans hv6
    have hquoted := hq.quoted
    have hnone : quote4 host io.tabsiz p s' = none := by
      cases proto with
      | tcp => exact tcp4_other hsame hquoted hother
      | icmp => exact icmp4_other hsame hquoted hinet hother
      | udp =>
        exact udp4_other hsame hquoted hinet (Options.not_doIcmp_of_udp hproto) hlive.loc hother
    rw [hv6, hquoted.reply4, hnone, Option.map_none, if_neg Bool.false_ne_true, ite_self]

end Attribution

/-! ### Messages for probes -/

/-- The state behind a timeout that has been reported, before the next probe. -/
structure Silent (s : State) : Prop where
  opt : s.opt = longOptions
  inet6 : s.sin6.inet6 = false
  done : s.done = false
  lastditch : s.lastditch = false
  lastResponseHop : s.lastResponseHop = 0
  size : s.curpacksize = 40
  hop : 1 ≤ s.hop
  seq : s.seq + 127 = 127 * s.hop + s.sent

/-- The state behind a probe. -/
structure SilentSent (s : State) : Prop extends Silent s where
  timer : s.timer = true
  gotresp : s.gotresp = false
  sent_le : s.sent ≤ 127
  probe : ∃ pr ∈ probes s.acts, pr.seq = s.seq ∧ pr.payload.length ≤ maxDataSize

section Silent

variable {s : State}

lemma Silent.transmit (h : Silent s) (hgot : s.gotresp = false) (hsent : s.sent < 127)
    (hlt : s.seq < 32385) : SilentSent (transmit plainHost plainIo s) ∧
      (transmit plainHost plainIo s).seq = s.seq + 1 := by
  have hproto : s.opt.proto = some .udp := by rw [h.opt]; decide
  have hcount : (s.count plainIo).seq = s.seq + 1 := Nat.mod_eq_of_lt (by omega)
  have hpos : 0 < (s.count plainIo).seq := by omega
  rw [transmit_of_sends plainHost s ⟨rfl, rfl, rfl⟩ hproto,
    prepare_udp4 plainHost plainIo (t := s.count plainIo) h.inet6 hpos,
    sentProbe_udp4 plainHost plainIo (t := s.count plainIo) h.inet6 hpos]
  have hsize : (s.count plainIo).udp4.curpacksize = 40 := by
    change max s.curpacksize 2 = 40
    rw [h.size]
    rfl
  refine ⟨⟨⟨h.opt, h.inet6, h.done, h.lastditch, h.lastResponseHop, hsize, h.hop, ?_⟩, rfl, hgot,
    hsent, ?_⟩, hcount⟩
  · change (s.count plainIo).seq + 127 = 127 * s.hop + (s.sent + 1)
    have hseq := h.seq
    omega
  · refine ⟨(s.count plainIo).udp4.probe .udp (udp4Data (s.count plainIo).udp4), ?_, rfl, ?_⟩
    · change _ ∈ probes (s.acts ++ [.sent _] ++ [.timer _])
      rw [probes_timer, probes_sent]
      exact mem_append_right _ (mem_singleton.mpr rfl)
    · simp only [Probe.payload, State.probe, length_append,
        length_udp4 (s := (s.count plainIo).udp4) (Nat.le_max_right _ _), hsize]
      change 8 + 40 ≤ maxDataSize
      decide

/-- The next hop. -/
lemma Silent.nextHop (h : Silent s) (hhop : s.hop < 255) (hsent : s.sent = 127) :
    Silent s.endHop.nextHop.openHop := by
  have hseq := h.seq
  refine ⟨h.opt, h.inet6, rfl, h.lastditch, h.lastResponseHop, h.size, ?_, ?_⟩
  · change 1 ≤ (s.hop + 1) % 256
    omega
  · change s.seq + 127 = 127 * ((s.hop + 1) % 256) + 0
    omega

/-- `send_pkt` sends another probe. -/
lemma Silent.sendPkt (h : Silent s) (hsent : s.sent ≤ 127) (hlt : s.seq < 32385) :
    SilentSent (sendPkt plainHost plainIo s) ∧ (sendPkt plainHost plainIo s).seq = s.seq + 1 := by
  have hcount : s.opt.trtcount = 127 := by rw [h.opt]; decide
  have hmax : s.opt.maxhops = 255 := by rw [h.opt]; decide
  have hgap : s.opt.gaplimit = 255 := by rw [h.opt]; decide
  have hseq := h.seq
  rcases sendPkt_cases plainHost plainIo s with
    ⟨hmore, heq⟩ | ⟨hend, hlast, -⟩ | ⟨hend, hhop, -, ⟨hfar, -⟩ | ⟨-, heq⟩⟩
  · rw [heq]
    have hunanswered : Silent s.unanswered :=
      ⟨h.opt, h.inet6, h.done, h.lastditch, h.lastResponseHop, h.size, h.hop, h.seq⟩
    exact hunanswered.transmit rfl (by change s.sent < 127; omega) hlt
  · rcases hlast with hhop | ⟨hdone, -⟩
    · omega
    · exact absurd (hdone.symm.trans h.done) (by decide)
  · omega
  · rw [heq]
    exact (h.nextHop (by omega) (by omega)).transmit rfl (by decide : 0 < 127) hlt

/-- Another timeout, and another probe. -/
lemma SilentSent.timeout (h : SilentSent s) (hlt : s.seq < 32385) :
    SilentSent (step plainHost plainIo s .timeout) ∧
      (step plainHost plainIo s .timeout).seq = s.seq + 1 := by
  obtain ⟨u, hquiet, hstep, honly⟩ := timeout_eq plainHost plainIo h.timer
  have hsame := hquiet.sameHop
  have hseq : u.seq = s.seq := (congrArg State.seq hquiet.core :)
  have hsilent : Silent u := by
    refine ⟨hsame.opt.trans h.opt, (congrArg RunId.inet6 hsame.runId :).trans h.inet6,
      honly.done.trans h.done, (congrArg State.lastditch hquiet.core :).trans h.lastditch,
      honly.lastResponseHop.trans h.lastResponseHop, honly.curpacksize.trans h.size, ?_, ?_⟩
    · rw [hsame.hop]
      exact h.hop
    · rw [hsame.hop, hsame.sent, hseq]
      exact h.seq
  rw [hstep, ← hseq]
  refine hsilent.sendPkt ?_ (hseq ▸ hlt)
  rw [hsame.sent]
  exact h.sent_le

end Silent

end AtlasProbe.Traceroute
