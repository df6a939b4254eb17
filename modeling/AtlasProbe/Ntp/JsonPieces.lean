import AtlasProbe.Ntp.Run
import AtlasProbe.Measurement.Json

/-!
# The pieces of an NTP result

Every field of a reply is a member of an object.  The fields that have changed are members one
behind the other, as long as a new version does not come alone (`addsMembers_headerText`).  What
`report` writes is JSON if the text so far is the elements of an array (`proper_reportText`).
-/

namespace AtlasProbe.Ntp

open List Wire Json Measurement

/-! ### Members in their lines -/

section Lines

variable {t u : Bytes} {name : String}

/-- A number of limited length. -/
def Brief (n : ℕ) (t : Bytes) : Prop := IsNumber t ∧ t.length ≤ n

/-- The texts of the host may be printed, and are not too long for their lines. -/
structure Env.Tidy (env : Env) : Prop where
  toHost : env.toHost.Tidy
  shortText : ∀ n, Brief 50 (env.shortText n)
  powText : ∀ n, Brief 50 (env.powText n)
  tsText : ∀ n, Brief 50 (env.tsText n)
  secondsText : ∀ n, Brief 50 (env.secondsText n)
  halfText : ∀ n, Brief 50 (env.halfText n)

lemma length_member (name : String) (t : Bytes) :
    (member name t).length = (ascii name).length + t.length + 4 := by
  unfold member
  have hblank : (ascii " ").length = 1 := rfl
  rw [length_append, length_append, length_key, hblank]
  omega

lemma startsMembers_member (name : String) (h : IsValue t)
    (hname : decide (Plain (ascii name))) : StartsMembers (member name t) := by
  unfold member
  rw [append_assoc]
  exact startsMembers_key name h.blank hname

/-- A member that fits into its line. -/
lemma startsMembers_line (h : IsValue t) (hlength : t.length ≤ 50)
    (hname : decide (Short 20 (ascii name))) : StartsMembers (line (member name t)) := by
  obtain ⟨hplain, hfits⟩ := of_decide_eq_true hname
  rw [line_of_lt (by rw [length_member]; omega)]
  exact startsMembers_member name h (decide_eq_true hplain)

/-- A further member that fits into its line. -/
lemma addsMembers_line (h : IsValue t) (hlength : t.length ≤ 50)
    (hname : decide (Short 20 (ascii name))) :
    AddsMembers (line (ascii ", " ++ member name t)) := by
  obtain ⟨hplain, hfits⟩ := of_decide_eq_true hname
  rw [line_of_lt (by rw [length_append, length_member, length_comma]; omega)]
  exact addsMembers_comma (startsMembers_member name h (decide_eq_true hplain))

/-- A member with a string. -/
lemma startsMembers_line_quoted (h : Short 48 t) (hname : decide (Short 20 (ascii name))) :
    StartsMembers (line (member name (quoted t))) := by
  have hfits := h.2
  exact startsMembers_line (isValue_quoted h.1) (by rw [length_quoted]; omega) hname

end Lines

/-! ### The fields of a reply -/

section Fields

variable {env : Env} (name : String)

lemma startsMembers_formatLi (flags : ℕ) : StartsMembers (formatLi flags) := by
  refine startsMembers_line_quoted ?_ rfl
  split <;> decide

lemma startsMembers_formatMode (flags : ℕ) : StartsMembers (formatMode flags) := by
  refine startsMembers_line_quoted ?_ rfl
  split <;> decide

lemma startsMembers_formatStratum {stratum : ℕ} (h : stratum < 256) :
    StartsMembers (formatStratum stratum) := by
  have hnat : Short 3 (natText stratum) := short_natText (by omega)
  have hopen : Short 10 (ascii "reserved (") := by decide
  have hclose : Short 1 (ascii ")") := by decide
  have hreserved := (hopen.append hnat).append hclose
  have hlength := hnat.2
  unfold formatStratum
  split_ifs
  · exact startsMembers_line_quoted (by decide) rfl
  · exact startsMembers_line_quoted (by decide) rfl
  · exact startsMembers_line (isValue_natText stratum) (by omega) rfl
  · exact startsMembers_line_quoted ⟨hreserved.1, hreserved.2.trans (by decide)⟩ rfl

lemma startsMembers_format8bit (henv : env.Tidy) (value : Int8)
    (hname : decide (Short 20 (ascii name))) : StartsMembers (format8bit env name value) := by
  unfold format8bit
  split_ifs with hsmall
  · have hlt : 1 <<< value.toInt.toNat < 10 ^ (9 + 1) := by
      rw [Nat.one_shiftLeft]
      calc 2 ^ value.toInt.toNat ≤ 2 ^ 31 := Nat.pow_le_pow_right (by decide) (by omega)
        _ < 10 ^ (9 + 1) := by decide
    have hlength := length_natText_le hlt
    exact startsMembers_line (isValue_natText _) (by omega) hname
  · have hpow := henv.powText value.toInt
    exact startsMembers_line hpow.1.isValue hpow.2 hname

lemma startsMembers_formatShortTs (henv : env.Tidy) (value : ℕ)
    (hname : decide (Short 20 (ascii name))) :
    StartsMembers (formatShortTs env name value) :=
  startsMembers_line (henv.shortText value).1.isValue (henv.shortText value).2 hname

lemma startsMembers_formatTs (henv : env.Tidy) (ts : ℕ)
    (hname : decide (Short 20 (ascii name))) : StartsMembers (formatTs env name ts) :=
  startsMembers_line (henv.tsText ts).1.isValue (henv.tsText ts).2 hname

/-! ### Reference identifiers -/

lemma isPlain_hexDigit : ∀ d < 16,
    isPlain (UInt8.ofNat (if d < 10 then 48 + d else 87 + d)) = true := by decide +kernel

lemma short_hexText (k n : ℕ) : Short k (hexText k n) := by
  induction k with
  | zero => exact ⟨nofun, le_rfl⟩
  | succ k ih =>
    refine ⟨?_, Nat.succ_le_succ ih.2⟩
    rintro b (_ | ⟨_, hb⟩)
    · exact isPlain_hexDigit _ (Nat.mod_lt _ (by decide))
    · exact ih.1 b hb

/-- A byte that cannot stand for itself is printed behind an escaped backslash. -/
lemma chars_refIdChar (b : UInt8) {t r : Bytes} (h : Chars t r) :
    Chars (refIdChar b ++ t) r := by
  have hplain {u : Bytes} (hu : Plain u) : Chars (u ++ t) r := by
    induction u with
    | nil => exact h
    | cons c u ih =>
      obtain ⟨hc, hu⟩ := forall_mem_cons.1 hu
      exact .plain hc (ih hu)
  unfold refIdChar
  split_ifs with hescaped
  · exact .escape rfl (.plain rfl (hplain (short_hexText 2 b.toNat).1))
  · refine .plain ?_ h
    simp only [not_or, UInt8.not_lt] at hescaped
    obtain ⟨hlow, hquote, hbackslash, -⟩ := hescaped
    simp [isPlain, hlow, hquote, hbackslash]

lemma isContent_refId (value : Bytes) : IsContent (value.flatMap refIdChar) := by
  unfold IsContent
  induction value with
  | nil => exact .close []
  | cons b value ih =>
    rw [flatMap_cons, append_assoc]
    exact chars_refIdChar b ih

lemma length_refId_le (value : Bytes) :
    (value.flatMap refIdChar).length ≤ 5 * value.length := by
  have hchar (b : UInt8) : (refIdChar b).length ≤ 5 := by
    unfold refIdChar
    split_ifs
    · exact Nat.le_refl 5
    · exact Nat.succ_le_succ (Nat.zero_le 4)
  induction value with
  | nil => exact Nat.zero_le _
  | cons b value ih =>
    have hb := hchar b
    rw [flatMap_cons, length_append, length_cons]
    omega

lemma startsMembers_formatRefId {value : Bytes} (h : value.length ≤ 4) (stratum : ℕ) :
    StartsMembers (formatRefId value stratum) := by
  unfold formatRefId
  split_ifs
  · have hlength := length_refId_le (value.takeWhile (· ≠ 0))
    have htake := (takeWhile_sublist (· ≠ 0) (l := value)).length_le
    refine startsMembers_line ?_ (by rw [length_quoted]; omega) rfl
    unfold quoted
    exact (isContent_refId _).isValue
  · have hhex := short_hexText 8 (u32 (fun i => value.getD i 0) 0)
    exact startsMembers_line_quoted ⟨hhex.1, hhex.2.trans (by decide)⟩ rfl

end Fields

/-! ### What has changed -/

/-- A header as it can be in a packet. -/
structure Header.Small (h : Header) : Prop where
  stratum : h.stratum < 256
  referenceId : h.referenceId.length ≤ 4

lemma small_headerOf (buf : ℕ → UInt8) : (headerOf buf).Small :=
  ⟨UInt8.toNat_lt _, le_of_eq rfl⟩

/-- There are no members yet, or there are some. -/
def Draft.Reads (d : Draft) : Prop :=
  d.head = true ∧ d.text = [] ∨ d.head = false ∧ StartsMembers d.text

section Changes

variable {env : Env} {d : Draft} {changed : Bool} {t : Bytes} {old new : Header}

lemma Draft.Reads.add (h : d.Reads) (ht : StartsMembers t) : (d.add changed t).Reads := by
  unfold Draft.add Draft.addRaw
  cases changed with
  | false => exact h
  | true =>
    rcases h with ⟨hhead, htext⟩ | ⟨hhead, htext⟩
    · refine .inr ⟨rfl, ?_⟩
      rw [hhead, htext]
      exact ht
    · refine .inr ⟨rfl, ?_⟩
      rw [hhead]
      exact htext.append (addsMembers_comma ht)

/-- Only a changed leap indicator gives a version something to stand behind. -/
lemma reads_version (h : version new.flags ≠ version old.flags → leap new.flags ≠ leap old.flags) :
    ((Draft.empty.addRaw (leap new.flags ≠ leap old.flags) (formatLi new.flags)).addRaw
      (version new.flags ≠ version old.flags)
      (line (ascii ", " ++ member "version" (natText (version new.flags))))).Reads := by
  have hversion : version new.flags < 10 ^ (0 + 1) := by
    unfold version
    have hand : new.flags &&& 0x38 ≤ 0x38 := Nat.and_le_right
    omega
  have hlength := length_natText_le hversion
  by_cases hleap : leap new.flags ≠ leap old.flags
  · by_cases hchanged : version new.flags ≠ version old.flags
    · have hadds : AddsMembers (line (ascii ", " ++ member "version"
          (natText (version new.flags)))) :=
        addsMembers_line (isValue_natText _) (by omega) rfl
      simp only [Draft.addRaw, hleap, hchanged, decide_true, ne_eq, not_false_eq_true]
      exact .inr ⟨rfl, (startsMembers_formatLi new.flags).append hadds⟩
    · simp only [Draft.addRaw, hleap, hchanged, decide_true, decide_false,
        ne_eq, not_false_eq_true, Bool.false_eq_true]
      exact .inr ⟨rfl, startsMembers_formatLi new.flags⟩
  · have hchanged : ¬version new.flags ≠ version old.flags := fun hne => hleap (h hne)
    simp only [Draft.addRaw, hleap, hchanged, decide_false, Bool.false_eq_true]
    exact .inl ⟨rfl, rfl⟩

lemma reads_changes (henv : env.Tidy) (hnew : new.Small)
    (h : version new.flags ≠ version old.flags → leap new.flags ≠ leap old.flags) :
    (changes env old new).Reads := by
  refine ((((((((reads_version h).add ?_).add ?_).add ?_).add ?_).add ?_).add ?_).add ?_).add ?_
  · exact startsMembers_formatMode new.flags
  · exact startsMembers_formatStratum hnew.stratum
  · exact startsMembers_format8bit _ henv new.poll rfl
  · exact startsMembers_format8bit _ henv new.precision rfl
  · exact startsMembers_formatShortTs _ henv new.rootDelay rfl
  · exact startsMembers_formatShortTs _ henv new.rootDispersion rfl
  · exact startsMembers_formatRefId hnew.referenceId new.stratum
  · exact startsMembers_formatTs _ henv new.referenceTs rfl

/-- The times stand behind what has changed, or begin the entry. -/
lemma Draft.Reads.times (h : d.Reads) (henv : env.Tidy) (hdr : Header) (final : ℕ) :
    StartsMembers (d.text ++ timesText env d.head hdr final) := by
  have hadds (name : String) {value : Bytes} (hvalue : Brief 50 value)
      (hname : decide (Short 20 (ascii name))) :
      AddsMembers (line (ascii ", " ++ member name value)) :=
    addsMembers_line hvalue.1.isValue hvalue.2 hname
  have horigin : StartsMembers (d.text ++ line ((if d.head then [] else ascii ", ") ++
      member "origin-ts" (env.tsText hdr.originTs))) := by
    have hts := henv.tsText hdr.originTs
    rcases h with ⟨hhead, htext⟩ | ⟨hhead, htext⟩
    · rw [hhead, htext]
      exact startsMembers_line hts.1.isValue hts.2 rfl
    · rw [hhead]
      exact htext.append (hadds _ hts rfl)
  unfold timesText
  simp only [← append_assoc d.text]
  refine ((((horigin.append ?_).append ?_).append ?_).append ?_).append ?_
  · exact hadds _ (henv.tsText hdr.receiveTs) rfl
  · exact hadds _ (henv.tsText hdr.transmitTs) rfl
  · exact hadds _ (henv.tsText final) rfl
  · exact hadds _ (henv.secondsText _) rfl
  · exact hadds _ (henv.halfText _) rfl

/-- All fields of the first reply. -/
lemma addsMembers_headerText (henv : env.Tidy) (hnew : new.Small) :
    AddsMembers (headerText env new) := by
  have hversion : StartsMembers (member "version" (natText (version new.flags))) :=
    startsMembers_member _ (isValue_natText _) rfl
  have hmode := startsMembers_next (startsMembers_next (startsMembers_formatLi new.flags) hversion)
    (startsMembers_formatMode new.flags)
  have hstratum := startsMembers_next hmode (startsMembers_formatStratum hnew.stratum)
  have hprecision := startsMembers_next (startsMembers_next hstratum
    (startsMembers_format8bit "poll" henv new.poll rfl))
    (startsMembers_format8bit "precision" henv new.precision rfl)
  have hroot := startsMembers_next (startsMembers_next hprecision
    (startsMembers_formatShortTs "root-delay" henv new.rootDelay rfl))
    (startsMembers_formatShortTs "root-dispersion" henv new.rootDispersion rfl)
  have hall := startsMembers_next (startsMembers_next hroot
    (startsMembers_formatRefId hnew.referenceId new.stratum))
    (startsMembers_formatTs "ref-ts" henv new.referenceTs rfl)
  have hadds := addsMembers_comma hall
  unfold headerText
  simpa only [append_assoc] using hadds

end Changes

/-! ### What `report` writes -/

/-- The options that are printed may be printed, and there is a request. -/
structure Options.Tidy (o : Options) : Prop where
  count : 1 ≤ o.count
  hostname : Plain o.hostname.bytes
  atlas : ∀ id ∈ o.atlas, Plain id.bytes
  /-- The bundle is printed without quotes. -/
  bundle : ∀ id ∈ o.atlas, ∀ bundle ∈ o.bundle, IsNumber bundle.bytes

/-- What is written is a result, and what follows the word is JSON. -/
def Act.Proper : Act → Prop
  | .written text => IsResult text
  | .sendto _ _ | .timeoutTimer _ | .gapTimer _ | .done => True

section Report

variable {env : Env} {io : Io} {s : State}

lemma addsMembers_addrsText (henv : env.Tidy) (httr : IsNumber s.ttr) :
    AddsMembers (addrsText env s) := by
  have haddr (addr : Sockaddr) := isValue_quoted (henv.toHost.getnameinfo addr)
  have hdst := addsMembers_key "dst_addr" (haddr s.sin6) rfl
  refine (AddsMembers.ite addsMembers_nil (addsMembers_key _ httr.isValue rfl)).append
    (.ite ?_ addsMembers_nil)
  split
  · rwa [append_nil]
  · next loc _ => exact hdst.append (addsMembers_key _ (haddr loc) rfl)

/-- With the elements of an array as its text, a result is JSON. -/
lemma proper_reportText (henv : env.Tidy) (hopt : s.opt.Tidy) (httr : IsNumber s.ttr)
    (hhdr : s.hdr.Small) (hresult : IsElements s.result) :
    (Act.written (reportText env io s)).Proper := by
  have htime := startsMembers_key "time" (isValue_natText s.starttime) rfl
  have hproto := behind_key AddsMembers.append (addsMembers_addrsText (s := s) henv httr) "proto"
    (isValue_quoted (t := ascii "UDP") (by decide)) rfl
  have haf := addsMembers_comma (startsMembers_member "af" (isValue_natText
    (if (if s.dnsip then s.opt.doV6 else s.sin6.inet6) then 6 else 4)) rfl)
  have hmembers := hproto.append haf
  rw [← append_assoc] at hmembers
  exact isResult_resultText
    (startsMembers_identText henv.toHost hopt.atlas hopt.bundle io.timesync htime) hopt.hostname
    (hmembers.append (.whenever fun _ => addsMembers_headerText henv hhdr)) hresult

end Report

end AtlasProbe.Ntp
