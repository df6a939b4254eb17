import AtlasProbe.Traceroute.Run
import AtlasProbe.Measurement.Json

/-!
# The pieces of a result

Every piece of text that a reply adds is a member of an object, or several, wherever it stands
(`startsMembers_errorText4`, `startsMembers_tcpText`).  The lines are long enough for their texts,
as long as the texts of the host are plain and short.
-/

namespace AtlasProbe.Traceroute

open List Wire Json Measurement

/-! ### Replies -/

lemma within_millis (ms : Millis) : Within 24 IsValue ms.text := by
  have hlt := ms.lt
  exact ⟨(isNumber_fixedText 2 _ _).isValue, length_fixedText_le (m := 18) _ (by omega)⟩

section Replies

variable {t : Bytes} {v : Verdict} {s : State} {seq : ℕ} {remote : Bytes}

lemma addsMembers_numberText {name : String} {n : ℤ} (hn : n.natAbs < 10 ^ 20)
    (hname : decide (Short 20 (ascii name))) : AddsMembers (numberText name n) := by
  obtain ⟨hplain, hshort⟩ := of_decide_eq_true hname
  exact (within_comma (within_key name (within_intText hn) (decide_eq_true hplain))).line (by omega)

lemma addsMembers_ttlSizeText {ttl size : ℤ} (httl : ttl.natAbs < 10 ^ 20)
    (hsize : size.natAbs < 10 ^ 20) : AddsMembers (ttlSizeText ttl size) :=
  ((within_comma (within_key "ttl" (within_intText httl) rfl)).key AddsMembers.append "size"
    (within_intText hsize) rfl).line (by decide)

lemma addsMembers_rttText (ms : Millis) : AddsMembers (rttText ms) :=
  (within_comma (within_key "rtt" (within_millis ms) rfl)).line (by decide)

/-- The beginning of a reply: how it stands to the last probe, and where it came from. -/
lemma startsMembers_entry {dupText : Bytes} (hv : v ≠ .future) (hseq : s.seq < 65536)
    (hdup : StartsMembers dupText) (hremote : Short 45 remote) (ht : AddsMembers t) :
    StartsMembers (verdictText s seq dupText v ++ (fromText v remote ++ t)) := by
  have hfrom := within_key "from" (within_quoted hremote) rfl
  have hagain : AddsMembers (line (ascii ", " ++ key "from" ++ quoted remote) ++ t) :=
    ((within_comma hfrom).line (by decide)).append ht
  cases v with
  | future => exact absurd rfl hv
  | current => exact (hfrom.line (by decide)).append ht
  | dup => exact hdup.append hagain
  | late =>
    have hlate := within_key "late" (within_natText (by omega : s.seq - seq < 10 ^ 5)) rfl
    exact StartsMembers.append (hlate.line (by decide)) hagain

end Replies

/-! ### Extensions and options -/

section Extensions

variable (buf : ℕ → UInt8) {start e i size n o : ℕ} {t rest : Bytes} (comma : Bytes)

/-- Elements that are the first ones, or follow others. -/
def ElementsIf (first : Prop) (t : Bytes) : Prop :=
  (first → IsElements t) ∧ (¬ first → AddsElements t)

lemma elementsIf_nil (first : Prop) : ElementsIf first [] :=
  ⟨fun _ => isElements_nil, fun _ => addsElements_nil⟩

/-- An element with what follows. -/
lemma elementsIf_append {first : Prop} (hfirst : first → IsValue t)
    (hnext : ¬ first → ∃ u, IsValue u ∧ t = 44 :: u) (hrest : AddsElements rest) :
    ElementsIf first (t ++ rest) := by
  refine ⟨fun h => (hfirst h).elements hrest, fun h => ?_⟩
  obtain ⟨u, hu, rfl⟩ := hnext h
  exact hu.comma.append hrest

/-- An entry of a label stack, without the comma. -/
lemma mplsEntry_eq (first : Bool) (i : ℕ) :
    ∃ t, IsValue t ∧ mplsEntry buf first i = (if first then [] else ascii ",") ++ (32 :: t) := by
  have hlt := u32_lt buf i
  have hlabel := within_key "label" (within_natText (k := 9)
    (Nat.lt_of_le_of_lt (Nat.shiftRight_le (u32 buf i) 12) (by omega))) rfl
  have hexp := hlabel.key StartsMembers.append "exp" (within_natText (k := 0)
    (Nat.lt_of_le_of_lt (Nat.and_le_right (n := u32 buf i >>> 9) (m := 7)) (by decide))) rfl
  have hs := hexp.key StartsMembers.append "s" (within_natText (k := 0)
    (by split <;> decide : (if u32 buf i &&& 0x100 ≠ 0 then 1 else 0) < 10)) rfl
  have hmembers := hs.key StartsMembers.append "ttl" (within_natText (k := 2)
    (Nat.lt_of_le_of_lt (Nat.and_le_right (n := u32 buf i) (m := 0xff)) (by decide))) rfl
  refine ⟨_, hmembers.1.object, ?_⟩
  have hlength := hmembers.2.trans (by decide : _ ≤ 100)
  unfold mplsEntry
  rw [snprintf_of_lt]
  · simp only [append_assoc]
    rfl
  · have hcomma : (if first then [] else ascii ",").length ≤ 1 := by split <;> decide
    have hopen : (ascii " \x7b ").length = 3 := rfl
    have hclose : (ascii " \x7d").length = 2 := rfl
    simp only [length_append] at hlength ⊢
    omega

/-- The entries of a label stack. -/
lemma isElements_mpls (i n : ℕ) :
    IsElements ((List.range n).flatMap fun k => mplsEntry buf (k == 0) (i + 4 * k)) := by
  cases n with
  | zero => exact isElements_nil
  | succ n =>
    rw [range_succ_eq_map, flatMap_cons, flatMap_map]
    obtain ⟨t, ht, heq⟩ := mplsEntry_eq buf true i
    have hfirst : mplsEntry buf (0 == 0) (i + 4 * 0) = 32 :: t := heq
    rw [hfirst]
    refine ht.blank.elements (AddsElements.flatMap fun k _ => ?_)
    obtain ⟨t, ht, heq⟩ := mplsEntry_eq buf false (i + 4 * (k + 1))
    have hnext : mplsEntry buf (k + 1 == 0) (i + 4 * (k + 1)) = 44 :: 32 :: t := heq
    rw [hnext]
    exact ht.blank.comma

/-- Elements in brackets behind a blank. -/
lemma isValue_bracketed (h : IsElements t) :
    IsValue (ascii " [" ++ (t ++ ascii " ]")) := h.isValue.blank

lemma addsMembers_doMpls (i size : ℕ) : AddsMembers (doMpls buf i size) := by
  unfold doMpls
  simp only [append_assoc]
  exact addsMembers_key _ (isValue_bracketed (isElements_mpls buf i _)) rfl

/-- An object of an extension, without the comma. -/
lemma icmpObject_eq (hcomma : comma.length ≤ 1) (cls ctype : ℕ) (hcls : cls < 256)
    (hctype : ctype < 256) (ht : AddsMembers t) :
    ∃ u, IsValue u ∧ snprintf 256 (comma ++ ascii " \x7b " ++ key "class" ++ natText cls ++
      ascii ", " ++ key "type" ++ natText ctype) ++ t ++ ascii " \x7d" = comma ++ u := by
  have hmembers := (within_key "class" (within_natText (by omega : cls < 10 ^ 3)) rfl).key
    StartsMembers.append "type" (within_natText (by omega : ctype < 10 ^ 3)) rfl
  refine ⟨_, (hmembers.1.append ht).object.blank, ?_⟩
  have hlength := hmembers.2.trans (by decide : _ ≤ 100)
  rw [snprintf_of_lt]
  · simp only [append_assoc]
    rfl
  · have hopen : (ascii " \x7b ").length = 3 := rfl
    simp only [length_append] at hlength ⊢
    omega

/-- An object of an extension with what follows, at the beginning or behind others. -/
lemma icmpObject_spec {cls ctype : ℕ} (hcls : cls < 256) (hctype : ctype < 256) (ht : AddsMembers t)
    (hrest : AddsElements rest) :
    ElementsIf (o = 4) (snprintf 256 ((if o = 4 then [] else ascii ",") ++ ascii " \x7b " ++
      key "class" ++ natText cls ++ ascii ", " ++ key "type" ++ natText ctype) ++ t ++
        ascii " \x7d" ++ rest) := by
  refine elementsIf_append (fun ho => ?_) (fun ho => ?_) hrest
  · obtain ⟨u, hu, heq⟩ := icmpObject_eq [] (by decide) cls ctype hcls hctype ht
    rw [if_pos ho, heq]
    exact hu
  · rw [if_neg ho]
    exact icmpObject_eq (ascii ",") (by decide) cls ctype hcls hctype ht

/-- The objects of an extension, which are the first ones or follow others. -/
lemma icmpObjects_spec (i size fuel : ℕ) (ho : 4 ≤ o) :
    ElementsIf (o = 4) (icmpObjects buf i size fuel o) := by
  induction fuel generalizing o with
  | zero => exact elementsIf_nil _
  | succ fuel ih =>
    have hcls := u8_lt buf (i + o + 2)
    have hctype := u8_lt buf (i + o + 3)
    unfold icmpObjects
    dsimp only
    split
    · split
      · have hobject := icmpObject_spec (o := o) hcls hctype addsMembers_nil addsElements_nil
        rwa [append_nil, append_nil] at hobject
      · next hlen =>
        exact icmpObject_spec hcls hctype (.whenever fun _ => addsMembers_doMpls buf _ _)
          ((ih (by omega)).2 (by omega))
    · exact elementsIf_nil _

lemma addsMembers_doIcmpMulti (i size : ℕ) (preRfc4884 : Bool) :
    AddsMembers (doIcmpMulti buf i size preRfc4884) := by
  have hbyte := u8_lt buf i
  have hversion := within_key "version" (within_natText (k := 2)
    (Nat.lt_of_le_of_lt (Nat.shiftRight_le (u8 buf i) 4) (by omega))) rfl
  have hrfc := hversion.key StartsMembers.append "rfc4884" (within_natText (k := 0)
    (by split <;> decide : (if preRfc4884 then 0 else 1) < 10)) rfl
  have hmembers := behind_key StartsMembers.append hrfc.1 "obj"
    (isValue_bracketed ((icmpObjects_spec buf i size size le_rfl).1 rfl)) rfl
  have hadds := addsMembers_key "icmpext" hmembers.object.blank rfl
  have hlength := hrfc.2.trans (by decide : _ ≤ 100)
  have hopen : ascii " \x7b " = [32, 123, 32] := rfl
  have hclose : ascii " ] \x7d" = ascii " ]" ++ [32, 125] := rfl
  unfold doIcmpMulti
  split
  · exact addsMembers_nil
  · split
    · exact addsMembers_nil
    · rw [snprintf_of_lt]
      · rw [hopen, hclose]
        simpa only [append_assoc, cons_append, nil_append] using hadds
      · have hkey : (key "icmpext").length = 10 := rfl
        have hthree : (ascii " \x7b ").length = 3 := rfl
        simp only [length_append] at hlength ⊢
        omega

/-- A TCP option, without the comma. -/
lemma option_eq (hcomma : comma.length ≤ 2) {name : String} (hname : Short 20 (ascii name))
    (hn : n < 65536) :
    ∃ t, IsValue t ∧ line (comma ++ ascii "\x7b " ++ key name ++ natText n ++ ascii " \x7d") =
      comma ++ t := by
  have hmember := within_key name (within_natText (by omega : n < 10 ^ 5))
    (decide_eq_true hname.1)
  refine ⟨_, hmember.1.object, ?_⟩
  rw [line_of_lt]
  · simp only [append_assoc]
    rfl
  · have hlength := hmember.2
    have hshort := hname.2
    have hopen : (ascii "\x7b ").length = 2 := rfl
    have hclose : (ascii " \x7d").length = 2 := rfl
    simp only [length_append] at hlength ⊢
    omega

/-- An option with what follows, at the beginning or behind others. -/
lemma option_spec (start i : ℕ) (name : String) (hn : n < 65536) (hrest : AddsElements rest)
    (hname : decide (Short 20 (ascii name))) :
    ElementsIf (i = start) (line ((if i ≠ start then ascii ", " else []) ++ ascii "\x7b " ++
      key name ++ natText n ++ ascii " \x7d") ++ rest) := by
  refine elementsIf_append (fun hi => ?_) (fun hi => ?_) hrest
  · obtain ⟨t, ht, heq⟩ := option_eq [] (by decide) (of_decide_eq_true hname) hn
    rw [if_neg (not_not_intro hi), heq]
    exact ht
  · obtain ⟨t, ht, heq⟩ := option_eq (ascii ", ") (by decide) (of_decide_eq_true hname) hn
    rw [if_pos hi, heq]
    exact ⟨_, ht.blank, rfl⟩

lemma hdropts_spec (fuel : ℕ) (hi : start ≤ i) :
    ElementsIf (i = start) (hdropts buf start e fuel i) := by
  induction fuel generalizing i with
  | zero => exact elementsIf_nil _
  | succ fuel ih =>
    unfold hdropts
    dsimp only
    split
    · split
      · split
        · exact elementsIf_nil _
        · next hlen =>
          exact option_spec _ _ _ (u16_lt buf (i + 2))
            ((ih (by omega)).2 (by omega)) rfl
      · have hopt : u8 buf i < 65536 := Nat.lt_trans (u8_lt buf i) (by decide)
        have hspec := option_spec start i "unknown-opt" hopt addsElements_nil rfl
        rwa [append_nil] at hspec
    · exact elementsIf_nil _

lemma addsMembers_reportHdropts (i e : ℕ) : AddsMembers (reportHdropts buf i e) := by
  have helements : IsElements (hdropts buf i e (e - i) i) := (hdropts_spec buf (e - i) le_rfl).1 rfl
  unfold reportHdropts
  simp only [append_assoc]
  exact addsMembers_key _ helements.blank.isValue.blank rfl

lemma addsMembers_flagsText (i : ℕ) : AddsMembers (flagsText buf i) := by
  have hflag {c : Bool} (name : String) (h : Short 1 (ascii name)) :
      Short 1 (if c then ascii name else []) := by
    cases c with
    | false => exact ⟨nofun, Nat.zero_le _⟩
    | true => exact h
  unfold flagsText
  dsimp only
  generalize u8 buf (i + 13) = flags
  have hflags := (((((hflag (c := flags.testBit 0) "F" (by decide)).append
    (hflag (c := flags.testBit 1) "S" (by decide))).append
    (hflag (c := flags.testBit 2) "R" (by decide))).append
    (hflag (c := flags.testBit 3) "P" (by decide))).append
    (hflag (c := flags.testBit 4) "A" (by decide))).append
    (hflag (c := flags.testBit 5) "U" (by decide))
  exact (within_comma (within_key "flags" (within_quoted hflags) rfl)).line (by decide)

end Extensions

/-! ### The texts of replies -/

section Texts

variable {host : Host} {io : Io} {p : Packet} {s : State} {v : Verdict} {seq code n : ℕ} {c : Prop}
  {name : String} {b : Branch}

lemma short_inetNtoa (buf : ℕ → UInt8) (i : ℕ) : Short 45 (inetNtoa buf i) := by
  have hbyte (k : ℕ) : Short 3 (natText (u8 buf k)) :=
    short_natText (k := 2) (Nat.lt_trans (u8_lt buf k) (by decide))
  have hdot : Short 1 (ascii ".") := by decide
  have hshort := ((((((hbyte i).append hdot).append (hbyte (i + 1))).append hdot).append
    (hbyte (i + 2))).append hdot).append (hbyte (i + 3))
  exact ⟨hshort.1, hshort.2.trans (by decide)⟩

lemma addsMembers_number_nat (hn : n < 4294967296) (hname : decide (Short 20 (ascii name))) :
    AddsMembers (numberText name n) :=
  addsMembers_numberText (by rw [Int.natAbs_natCast]; omega) hname

lemma addsMembers_number_int32 (n : Int32) (hname : decide (Short 20 (ascii name))) :
    AddsMembers (numberText name n.toInt) := by
  have hlow := n.le_toInt
  have hhigh := n.toInt_lt
  exact addsMembers_numberText (by omega) hname

lemma addsMembers_err (name : String) (h : decide (Plain (ascii name))) :
    AddsMembers (ascii ", " ++ key "err" ++ quoted (ascii name)) :=
  addsMembers_key _ (isValue_quoted (of_decide_eq_true h)) rfl

/-- Members that are only there for the first answer. -/
lemma addsMembers_rtt (v : Verdict) (ms : Millis) :
    AddsMembers (if v = .late then [] else rttText ms) := .ite addsMembers_nil
      (addsMembers_rttText ms)

lemma startsMembers_dup : StartsMembers (key "dup" ++ ascii "true") :=
  startsMembers_key _ isValue_true rfl

/-! ### IPv4 -/

lemma addsMembers_quotedText4 : AddsMembers (quotedText4 p s) := by
  have hbyte (k : ℕ) : u8 p.buf k < 4294967296 := Nat.lt_trans (u8_lt p.buf k) (by decide)
  have hedst : AddsMembers
      (line (ascii ", " ++ key "edst" ++ quoted (inetNtoa p.buf (eip p + 16)))) :=
    (within_comma (within_key _ (within_quoted (short_inetNtoa p.buf _)) rfl)).line (by decide)
  exact ((AddsMembers.whenever fun _ => addsMembers_number_nat (hbyte _) rfl).append
    (.whenever fun _ => addsMembers_number_nat (hbyte _) rfl)).append (.whenever fun _ => hedst)

/-- The branches for the protocols. -/
def Branch.Tidy (b : Branch) : Prop := StartsMembers b.dupText ∧ AddsMembers b.portText

lemma tidy_tcpBranch : tcpBranch.Tidy := ⟨startsMembers_dup.blank, addsMembers_nil⟩

lemma tidy_udpBranch : udpBranch.Tidy := ⟨startsMembers_dup.blank, addsMembers_nil⟩

lemma tidy_icmpBranch : icmpBranch.Tidy := ⟨startsMembers_dup, addsMembers_err "p" rfl⟩

lemma addsMembers_unreachText4 (hb : b.Tidy) {nextmtu : ℕ} (hcode : code < 256)
    (hmtu : nextmtu < 65536) : AddsMembers (unreachText4 b code nextmtu) := by
  unfold unreachText4
  split
  · exact addsMembers_err "N" rfl
  · exact addsMembers_err "H" rfl
  · exact addsMembers_err "P" rfl
  · exact hb.2
  · exact addsMembers_number_nat (by omega) rfl
  · exact addsMembers_err "A" rfl
  · exact addsMembers_number_nat (by omega) rfl

lemma addsMembers_multiText4 : AddsMembers (multiText4 p) := by
  unfold multiText4
  refine .ite (.whenever fun _ => ?_) (.whenever fun _ => ?_)
  · exact addsMembers_doIcmpMulti _ _ _ _
  · exact addsMembers_doIcmpMulti _ _ _ _

/-- The hop limit of a packet over IPv4, and its size without some headers. -/
lemma addsMembers_ttlSize4 (headers : ℤ) (h : headers.natAbs ≤ 100) :
    AddsMembers (ttlSizeText (u8 p.buf 8) (p.nrecv - 20 - headers)) := by
  have hbyte := u8_lt p.buf 8
  have hle := p.nrecv_le
  unfold packetSize maxDataSize at hle
  exact addsMembers_ttlSizeText (by omega) (by omega)

lemma startsMembers_errorText4 (hb : b.Tidy) (hv : v ≠ .future) (hseq : s.seq < 65536) :
    StartsMembers (errorText4 host io p s b v seq) := by
  unfold errorText4
  simp only [append_assoc]
  refine startsMembers_entry hv hseq hb.1 (short_inetNtoa _ _) ?_
  refine (addsMembers_ttlSize4 8 (by decide)).append ?_
  refine (addsMembers_rtt v _).append (addsMembers_quotedText4.append ?_)
  refine AddsMembers.append (.whenever fun _ => ?_) addsMembers_multiText4
  exact addsMembers_unreachText4 hb (u8_lt _ _) (u16_lt _ _)

/-- The text of an echo reply over IPv4. -/
lemma startsMembers_echoText4 (hv : v ≠ .future) (hseq : s.seq < 65536) [Decidable c] :
    StartsMembers (verdictText s seq (key "dup" ++ ascii "true") v ++
      fromText v (inetNtoa (fun i => p.remote.getD i 0) 0) ++
      ttlSizeText (u8 p.buf 8) (p.nrecv - 20 - 8) ++
      (if c then numberText "tos" (u8 p.buf 1) else []) ++
      (if v = .late then [] else rttText (host.millis io.now s.xmitTime))) := by
  have hbyte : u8 p.buf 1 < 4294967296 := Nat.lt_trans (u8_lt p.buf 1) (by decide)
  simp only [append_assoc]
  refine startsMembers_entry hv hseq startsMembers_dup (short_inetNtoa _ _) ?_
  refine (addsMembers_ttlSize4 8 (by decide)).append ?_
  exact AddsMembers.append (.whenever fun _ => addsMembers_number_nat hbyte rfl)
    (addsMembers_rtt v _)

/-! ### IPv6 -/

lemma addsMembers_ttlRttSizeText (ms : Millis) : AddsMembers (ttlRttSizeText p ms) := by
  have hlow := p.rcvdttl.le_toInt
  have hhigh := p.rcvdttl.toInt_lt
  have hle := p.nrecv_le
  unfold packetSize maxDataSize at hle
  have httl := within_key "ttl" (within_intText (k := 9) (n := p.rcvdttl.toInt) (by omega)) rfl
  have hrtt := (within_comma httl).key AddsMembers.append "rtt" (within_millis ms) rfl
  exact (hrtt.key .append "size" (within_intText (k := 3) (by omega)) rfl).line (by decide)

/-- The sizes of the options that have been passed are those of headers. -/
def Cursor.Fits (c : Cursor) : Prop := c.hbhoptsize < 2048 ∧ c.dstoptsize < 2048

lemma addsMembers_quotedText6 {c : Cursor} (hc : c.Fits) : AddsMembers (quotedText6 p s c) := by
  have hlimit : u8 p.buf 15 < 4294967296 := Nat.lt_trans (u8_lt p.buf 15) (by decide)
  have htos : u32 p.buf 8 >>> 20 &&& 0xff < 4294967296 :=
    Nat.lt_of_le_of_lt Nat.and_le_right (by decide)
  unfold quotedText6
  refine (((AddsMembers.whenever fun _ => ?_).append (.whenever fun _ => ?_)).append
    (.whenever fun _ => ?_)).append (.whenever fun _ => ?_)
  · exact addsMembers_number_nat hlimit rfl
  · exact addsMembers_number_nat htos rfl
  · exact addsMembers_number_nat (Nat.lt_trans hc.1 (by decide)) rfl
  · exact addsMembers_number_nat (Nat.lt_trans hc.2 (by decide)) rfl

lemma addsMembers_unreachText6 (hcode : code < 256) : AddsMembers (unreachText6 code) := by
  unfold unreachText6
  split
  · exact addsMembers_err "N" rfl
  · exact addsMembers_err "A" rfl
  · exact addsMembers_err "h" rfl
  · exact addsMembers_err "H" rfl
  · exact addsMembers_nil
  · exact addsMembers_number_nat (by omega) rfl

lemma addsMembers_multiText6 : AddsMembers (multiText6 p) := by
  unfold multiText6
  refine .ite (.whenever fun _ => ?_) (.whenever fun _ => .whenever fun _ => ?_)
  · exact addsMembers_doIcmpMulti _ _ _ _
  · exact addsMembers_doIcmpMulti _ _ _ _

lemma addsMembers_mtu6 : AddsMembers (numberText "mtu" (asInt (u32 p.buf 4))) := by
  have hlt := u32_lt p.buf 4
  refine addsMembers_numberText ?_ rfl
  unfold asInt
  split <;> omega

lemma startsMembers_errorText6 (hhost : host.Tidy) {c : Cursor} (hc : c.Fits) (hv : v ≠ .future)
    (hseq : s.seq < 65536) : StartsMembers (errorText6 host io p s c v seq) := by
  unfold errorText6
  simp only [append_assoc]
  refine startsMembers_entry hv hseq startsMembers_dup (hhost.inetNtop _) ?_
  refine (addsMembers_ttlRttSizeText _).append ((addsMembers_quotedText6 hc).append ?_)
  refine AddsMembers.append (.ite addsMembers_mtu6 (.whenever fun _ => ?_)) addsMembers_multiText6
  exact addsMembers_unreachText6 (u8_lt _ _)

/-- The text of an echo reply over IPv6. -/
lemma startsMembers_echoText6 (hhost : host.Tidy) (hv : v ≠ .future) (hseq : s.seq < 65536)
    (ms : Millis) [Decidable c] :
    StartsMembers (verdictText s seq (key "dup" ++ ascii "true") v ++
      fromText v (host.inetNtop p.remote) ++ ttlRttSizeText p ms ++
      (if c then numberText "itos" p.rcvdtclass.toInt else [])) := by
  simp only [append_assoc]
  refine startsMembers_entry hv hseq startsMembers_dup (hhost.inetNtop _) ?_
  exact (addsMembers_ttlRttSizeText ms).append (.whenever fun _ => addsMembers_number_int32 _ rfl)

/-! ### TCP -/

/-- The text of a TCP segment. -/
lemma startsMembers_tcpText (hv : v ≠ .future) (hseq : s.seq < 65536) {remote : Bytes}
    (hremote : Short 45 remote) {ttl size tos : ℤ} (httl : ttl.natAbs < 10 ^ 20)
    (hsize : size.natAbs < 10 ^ 20) (htos : tos.natAbs < 10 ^ 20) [Decidable c] (i tcpHlen : ℕ)
    (ms : Millis) :
    StartsMembers (verdictText s seq (key "dup" ++ ascii "true") v ++ fromText v remote ++
      ttlSizeText ttl size ++ (if c then numberText "tos" tos else []) ++ flagsText p.buf i ++
      (if tcpHlen > 20 then reportHdropts p.buf (i + 20) (i + tcpHlen) else []) ++
      (if v = .late then [] else rttText ms)) := by
  simp only [append_assoc]
  refine startsMembers_entry hv hseq startsMembers_dup hremote ?_
  refine (addsMembers_ttlSizeText httl hsize).append ?_
  refine AddsMembers.append (.whenever fun _ => ?_) ((addsMembers_flagsText _ _).append ?_)
  · exact addsMembers_numberText htos rfl
  · exact AddsMembers.append (.whenever fun _ => addsMembers_reportHdropts _ _ _)
      (addsMembers_rtt v ms)

end Texts

end AtlasProbe.Traceroute
