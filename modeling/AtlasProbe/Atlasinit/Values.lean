import AtlasProbe.Atlasinit.Reply
import AtlasProbe.Lib.FileLines

/-!
# What a reply can set

Whatever a reply contains, what is printed and written are fixed texts with values in them (`Safe`,
`clean_run`).  Each value consists of bytes of the class of its field (`Of`), and is not longer than
the field may be.  The output is lines of settings (`lines_stdout`), and what is put into scripts
means nothing to a shell (`Inert`).
-/

namespace AtlasProbe.Atlasinit

open List

/-! ### Values -/

/-- Bytes of a class, not more than a limit. -/
structure Of (isByte : UInt8 → Bool) (limit : ℕ) (text : Bytes) : Prop where
  bytes : ∀ c ∈ text, isByte c = true
  length : text.length ≤ limit

variable {isByte : UInt8 → Bool} {limit : ℕ} {text contents : Bytes} {c : UInt8}

lemma of_token {plain : isByte 0 = false ∧ isByte 32 = false}
    (h : (Scanner.token isByte (· ≤ limit) plain).accepts text = true) : Of isByte limit text := by
  obtain ⟨hbytes, hlength⟩ := Bool.and_eq_true_iff.mp h
  exact ⟨all_eq_true.mp hbytes, of_decide_eq_true hlength⟩

lemma of_hash (h : skipHash.accepts text = true) : Of isHex 32 text := by
  obtain ⟨hbytes, hlength⟩ := Bool.and_eq_true_iff.mp h
  exact ⟨all_eq_true.mp hbytes, (of_decide_eq_true hlength).le⟩

/-- An address is of one of the two families. -/
inductive IsAddress (text : Bytes) : Prop
  | ipv4 (h : Of isIpv4 16 text)
  | ipv6 (h : Of isIpv6 40 text)

/-- A host is a name or an address. -/
inductive IsHost (text : Bytes) : Prop
  | hostname (h : Of isHostname 32 text)
  | address (h : IsAddress text)

lemma isAddress_of_accepts (h : skipAddress.accepts text = true) : IsAddress text := by
  rcases Bool.or_eq_true_iff.mp h with h | h
  · exact .ipv4 (of_token h)
  · exact .ipv6 (of_token h)

lemma isHost_of_accepts (h : skipHostnameOrAddress.accepts text = true) : IsHost text := by
  rcases Bool.or_eq_true_iff.mp h with h | h
  · exact .hostname (of_token h)
  · exact .address (isAddress_of_accepts h)

lemma digit_le (h : isdigit c = true) : c.toNat - 48 ≤ 9 := by
  obtain ⟨-, hle⟩ := Bool.and_eq_true_iff.mp h
  have hnine : c.toNat ≤ 57 := UInt8.le_iff_toNat_le.mp (of_decide_eq_true hle)
  omega

lemma foldl_digits_lt (h : ∀ c ∈ text, isdigit c = true) (n : ℕ) :
    text.foldl (fun n c => 10 * n + (c.toNat - 48)) n < (n + 1) * 10 ^ text.length := by
  induction text generalizing n with
  | nil => simp
  | cons c text ih =>
    obtain ⟨hc, htext⟩ := forall_mem_cons.mp h
    have hdigit := digit_le hc
    refine lt_of_lt_of_le (ih htext _) ?_
    calc (10 * n + (c.toNat - 48) + 1) * 10 ^ text.length
        ≤ ((n + 1) * 10) * 10 ^ text.length := Nat.mul_le_mul_right _ (by omega)
      _ = (n + 1) * 10 ^ (c :: text).length := by
        rw [length_cons, Nat.pow_succ, Nat.mul_assoc, Nat.mul_comm 10]

/-- The value of a number with few digits is small. -/
lemma strtoul_lt (h : Of isdigit limit text) : (strtoul text).1 < 10 ^ limit := by
  have hfold := foldl_digits_lt h.bytes 0
  rw [Nat.one_mul] at hfold
  have hlt : decimal text < 10 ^ limit :=
    lt_of_lt_of_le hfold (Nat.pow_le_pow_right (by decide) h.length)
  rw [strtoul_digits h.bytes]
  split_ifs <;> omega

lemma of_natText {n k : ℕ} (h : n < 10 ^ (k + 1)) : Of isdigit (k + 1) (natText n) :=
  ⟨isdigit_of_mem_natText n, length_natText_le h⟩

/-! ### Events -/

/-- The settings that can be printed. -/
inductive IsSetting : Bytes → Bytes → Prop
  | version {name text : Bytes}
      (hname : name = ascii "FIRMWARE_KERNEL" ∨ name = ascii "FIRMWARE_APPS")
      (h : Of isdigit 5 text) : IsSetting (name ++ ascii "_VERSION") text
  | algorithm {name : Bytes}
      (hname : name = ascii "FIRMWARE_KERNEL" ∨ name = ascii "FIRMWARE_APPS") :
      IsSetting (name ++ ascii "_CS_ALG") (ascii "md5")
  | hash {name suffix text : Bytes}
      (hname : name = ascii "FIRMWARE_KERNEL" ∨ name = ascii "FIRMWARE_APPS")
      (hsuffix : suffix = ascii "_CS_COMP" ∨ suffix = ascii "_CS_UNCOMP")
      (h : Of isHex 32 text) : IsSetting (name ++ suffix) text
  | filename {name text : Bytes}
      (hname : name = ascii "FIRMWARE_KERNEL" ∨ name = ascii "FIRMWARE_APPS")
      (h : Of isFilename 64 text) : IsSetting name text
  | host (n : ℕ) {text : Bytes} (h : IsHost text) :
      IsSetting (ascii "CONTROLLER_" ++ natText n ++ ascii "_HOST") text
  | port (n : ℕ) {text : Bytes} (h : Of isdigit 5 text) :
      IsSetting (ascii "CONTROLLER_" ++ natText n ++ ascii "_PORT") text
  | timer {name text : Bytes}
      (hname : name = ascii "REREG_TIMER" ∨ name = ascii "REG_WAIT_UNTIL" ∨
        name = ascii "CON_WAIT_TIMER")
      (h : Of isdigit 10 text) : IsSetting name text
  | remotePort {text : Bytes} (h : Of isdigit 5 text) :
      IsSetting (ascii "REMOTE_PORT") text

/-- The events that a reply can lead to. -/
inductive Safe (cfg : Config) : Event → Prop
  | setting {key text : Bytes} (h : IsSetting key text) : Safe cfg (setting key text)
  /-- The text that is shown may be anything, but it is on one line. -/
  | badKey {cp : Bytes} (h : 10 ∉ cp) :
      Safe cfg (.printed (ascii "bad key material in '" ++ cp ++ ascii "'\n"))
  | knownHosts {host key : Bytes} (hhost : IsHost host) (hkey : Of isBase64 512 key) :
      Safe cfg (.wrote .contrKnownHosts (knownHost host (ascii "ssh-rsa") key ++
        knownHost (ascii "ipv4." ++ host) (ascii "ssh-rsa") key ++
        knownHost (ascii "ipv6." ++ host) (ascii "ssh-rsa") key))
  | sessionId {id : Bytes} (h : Of isHex 80 id) :
      Safe cfg (.wrote .conSessionId (sessionIdFile id))
  | netconfigV4 {address netmask broadcast gw : Bytes} (haddress : Of isIpv4 16 address)
      (hnetmask : Of isIpv4 16 netmask) (hbroadcast : Of isIpv4 16 broadcast)
      (hgw : Of isIpv4 16 gw) :
      Safe cfg (.wrote .netconfigV4 (netconfigV4 cfg address netmask broadcast gw))
  | netconfigV6 {address prefixlen gw : Bytes} (haddress : Of isIpv6 40 address)
      (hprefixlen : Of isdigit 3 prefixlen) (hgw : Of isIpv6 40 gw) :
      Safe cfg (.wrote .netconfigV6 (netconfigV6 cfg address prefixlen gw))
  | resolvConf {servers : List Bytes} (h : ∀ cp ∈ servers, IsAddress cp) :
      Safe cfg (.wrote .resolvConf (resolvConf servers))
  /-- The file is not complete if an address is rejected. -/
  | dnsStaticInfo {servers : List Bytes} {rest : Bytes}
      (h : ∀ cp ∈ servers, IsAddress cp) (hrest : rest = [] ∨ rest = ascii " ]\n") :
      Safe cfg (.wrote .networkDnsStaticInfo (dnsStaticInfo servers ++ rest))
  | noDnsStaticInfo : Safe cfg (.wrote .networkDnsStaticInfo [])
  | unlinked (file : File) : Safe cfg (.unlinked file)
  | settimeofday (seconds : ℕ) : Safe cfg (.settimeofday seconds)

/-! ### Programs -/

section Programs

variable {P : UInt8 → Prop} {Q : Event → Prop} {sc : Scanner} {cfg : Config} {type : Bytes}
  {next : Bytes → Prog}

lemma emits_value (h : ∀ text, sc.accepts text = true → (next text).Emits P Q) :
    (value sc next).Emits P Q :=
  ⟨nofun, fun text htext _ => h text htext⟩

lemma emits_number {next : ℕ → Prog}
    (h : ∀ text, sc.accepts text = true → (next (strtoul text).1).Emits P Q) :
    (number sc next).Emits P Q :=
  ⟨nofun, fun text htext _ => h text htext⟩

lemma emits_labelled {label : Bytes} {plain : 0 ∉ label ∧ 32 ∉ label}
    (h : ∀ text, sc.accepts text = true → (next text).Emits P Q) :
    (labelled label plain sc next).Emits P Q :=
  emits_value fun _ _ => emits_value h

lemma emits_processWait {next : Prog} (htype : ∀ text, Of isdigit 10 text → IsSetting type text)
    (delay : ℕ) (h : next.Emits P (Safe cfg)) :
    (processWait cfg type delay next).Emits P (Safe cfg) := by
  intro vars
  refine ⟨.setting (htype _ (of_natText ?_)), h⟩
  exact lt_of_lt_of_le (Nat.mod_lt _ (by decide)) (by decide)

lemma emits_ite {c : Prop} [Decidable c] {p q : Prog} (hp : p.Emits P Q) (hq : q.Emits P Q) :
    (if c then p else q).Emits P Q := by
  split_ifs
  · exact hp
  · exact hq

lemma emits_regserverTimestamp : (regserverTimestamp cfg).Emits P (Safe cfg) := by
  refine emits_number fun text _ => ?_
  generalize timeDiffers (cfg.time 0) (strtoul text).1 = differs
  cases differs with
  | false => trivial
  | true => exact ⟨.settimeofday _, trivial⟩

lemma emits_firmware {name : Bytes} {version : ℕ → Bytes}
    (hname : name = ascii "FIRMWARE_KERNEL" ∨ name = ascii "FIRMWARE_APPS")
    (hversion : ∀ n < 10 ^ 5, Of isdigit 5 (version n)) :
    (firmware name version).Emits P (Safe cfg) := by
  refine emits_number fun v hv => ⟨.setting (.version hname ?_), ?_⟩
  · exact hversion _ (strtoul_lt (of_token hv))
  refine emits_value fun alg halg => ⟨?_, ?_⟩
  · rw [eq_of_beq halg]
    exact .setting (.algorithm hname)
  refine emits_value fun comp hcomp => ⟨.setting (.hash hname (.inl rfl) (of_hash hcomp)), ?_⟩
  refine emits_value fun uncomp huncomp =>
    ⟨.setting (.hash hname (.inr rfl) (of_hash huncomp)), ?_⟩
  refine emits_value fun filename hfilename => ⟨.setting (.filename hname ?_), trivial⟩
  exact of_token hfilename

lemma emits_firmwareKernel : firmwareKernel.Emits P (Safe cfg) := by
  refine emits_firmware (.inl rfl) fun n hn => of_natText ?_
  exact lt_of_le_of_lt (Nat.mod_le _ _) hn

lemma emits_firmwareApps : firmwareApps.Emits P (Safe cfg) :=
  emits_firmware (.inr rfl) fun _ hn => of_natText hn

lemma emits_controller : controller.Emits (· ≠ 10) (Safe cfg) := by
  intro vars
  refine emits_value fun host hhost => ⟨.setting (.host _ (isHost_of_accepts hhost)), ?_⟩
  refine emits_value fun port hport => ⟨.setting (.port _ (of_token hport)), ?_⟩
  refine emits_value fun type htype => ⟨fun cp hcp => ?_, fun key hkey _ => ⟨?_, trivial⟩⟩
  · exact .badKey fun hin => hcp 10 hin rfl
  · rw [eq_of_beq htype]
    exact .knownHosts (isHost_of_accepts hhost) (of_token hkey)

lemma emits_reregister : (reregister cfg).Emits P (Safe cfg) :=
  emits_number fun _ _ => emits_processWait (fun _ => .timer (.inl rfl)) _ trivial

lemma emits_dhcpv4 : (dhcpv4 cfg).Emits P (Safe cfg) := by
  refine emits_value fun _ _ => emits_ite trivial ?_
  refine emits_labelled fun address haddress => ?_
  refine emits_labelled fun netmask hnetmask => ?_
  refine emits_labelled fun _ _ => ?_
  refine emits_labelled fun broadcast hbroadcast => ?_
  refine emits_labelled fun gw hgw => ⟨?_, trivial⟩
  exact .netconfigV4 (of_token haddress) (of_token hnetmask) (of_token hbroadcast) (of_token hgw)

lemma emits_dhcpv6 : (dhcpv6 cfg).Emits P (Safe cfg) := by
  refine emits_value fun _ _ => emits_ite trivial ?_
  refine emits_labelled fun address haddress => ?_
  refine emits_labelled fun prefixlen hprefixlen => ?_
  refine emits_labelled fun gw hgw => ⟨?_, trivial⟩
  exact .netconfigV6 (of_token haddress) (of_token hprefixlen) (of_token hgw)

lemma emits_dnsServers : dnsServers.Emits P (Safe cfg) := by
  refine ⟨?_, fun cp hcp _ => ?_⟩
  · intro e he
    rcases mem_pair.mp he with rfl | rfl
    · have hnil : ∀ cp ∈ ([] : List Bytes), IsAddress cp := nofun
      exact .resolvConf hnil
    · exact .noDnsStaticInfo
  -- The addresses that have been taken so far are addresses.
  · refine LineProg.emits_eachWord (I := fun servers => ∀ cp ∈ servers, IsAddress cp)
      (fun servers hservers => ?_) (fun servers cp hservers hcp => ?_)
      (fun servers hservers => ?_) 1024 ?_
    · intro e he
      rcases mem_pair.mp he with rfl | rfl
      · exact .resolvConf hservers
      · rw [← append_nil (dnsStaticInfo servers)]
        exact .dnsStaticInfo hservers (.inl rfl)
    · intro cp' hcp'
      rcases mem_append.mp hcp' with hcp' | hcp'
      · exact hservers cp' hcp'
      · rw [mem_singleton.mp hcp']
        exact isAddress_of_accepts hcp
    · exact ⟨.resolvConf hservers, .dnsStaticInfo hservers (.inr rfl), trivial⟩
    · intro cp' hcp'
      rw [mem_singleton.mp hcp']
      exact isAddress_of_accepts hcp

lemma emits_regLine : (regLine cfg).Emits (· ≠ 10) (Safe cfg) := by
  intro tag _
  refine emits_ite emits_regserverTimestamp (emits_ite emits_firmwareKernel ?_)
  refine emits_ite emits_firmwareApps (emits_ite emits_controller (emits_ite emits_reregister ?_))
  exact emits_ite emits_dhcpv4 (emits_ite emits_dhcpv6 (emits_ite emits_dnsServers trivial))

lemma emits_conLine : conLine.Emits P (Safe cfg) := by
  intro tag _
  refine emits_ite (emits_value fun port hport => ⟨?_, trivial⟩)
    (emits_ite (emits_value fun id hid => ⟨?_, trivial⟩) trivial)
  · exact .setting (.remotePort (of_token hport))
  · exact .sessionId (of_token hid)

lemma isSetting_waitType (h : IsWaitType type) (text : Bytes) (htext : Of isdigit 10 text) :
    IsSetting type text := by
  cases h with
  | reg => exact .timer (.inr (.inl rfl)) htext
  | con => exact .timer (.inr (.inr rfl)) htext

lemma emits_waitLine (h : IsWaitType type) : (waitLine cfg type).Emits P (Safe cfg) := by
  intro tag _
  unfold waitLine
  dsimp only
  refine emits_number fun text _ => ?_
  refine emits_processWait (isSetting_waitType h) _ ?_
  trivial

lemma emits_of_isHandler {h : Handler Event Vars} (hh : IsHandler cfg h) :
    h.Emits (· ≠ 10) (Safe cfg) := by
  cases hh with
  | reg => exact emits_regLine
  | con => exact emits_conLine
  | wait htype => exact emits_waitLine htype

end Programs

/-! ### Replies -/

variable {cfg : Config}

/-- In each run the events are safe, also those behind each line, and there is no newline in the
buffer. -/
lemma clean_run (cfg : Config) (main : Main) (input : Bytes) :
    LineProg.Clean (· ≠ 10) (Safe cfg) 1024 (main.run cfg input).2.mem
        (main.run cfg input).2.log ∧
      ∀ v ∈ (main.run cfg input).2.visits, ∀ e ∈ v.result.2.log, Safe cfg e := by
  refine run_inv (I := fun r => LineProg.Clean (· ≠ 10) (Safe cfg) 1024 r.mem r.log ∧
    ∀ v ∈ r.visits, ∀ e ∈ v.result.2.log, Safe cfg e) ?_ ?_ ?_ ?_ main input
  · intro calls text rest htext
    refine ⟨Handler.clean_load ⟨length_replicate, fun b hb => ?_, nofun⟩ (by decide)
      htext.room fun b hb heq => htext.newline (heq ▸ hb), nofun⟩
    rw [eq_of_mem_replicate hb]
    decide
  · intro h hh text rest r htext ⟨hr, hvisits⟩
    have hclean : LineProg.Clean (· ≠ 10) (Safe cfg) 1024 (h.run text r.mem r.vars r.log).2.mem
        (h.run text r.mem r.vars r.log).2.log :=
      Handler.clean_run (emits_of_isHandler hh) hr (by decide) htext.room
        fun b hb heq => htext.newline (heq ▸ hb)
    refine ⟨hclean, fun v hv => ?_⟩
    rcases mem_append.mp hv with hv | hv
    · exact hvisits v hv
    · rw [mem_singleton.mp hv]
      exact hclean.events
  · intro type text r htype ⟨hr, hvisits⟩
    have hemits : (processWait cfg type 100 .done).Emits (· ≠ 10) (Safe cfg) :=
      emits_processWait (isSetting_waitType htype) 100 trivial
    have hclean := LineProg.Clean.run
      (m := ⟨r.mem, text.length, 0, text.length + 1, r.vars, r.log⟩) hemits (by decide) hr
    exact ⟨⟨hr.size, hr.bytes, hclean.events⟩, hvisits⟩
  · intro r ⟨hr, hvisits⟩
    have hunlinked : ∀ (c : Bool) (file file' : File),
        ∀ e ∈ (if c then [Event.unlinked file, .unlinked file'] else []), Safe cfg e := by
      intro c file file' e he
      split_ifs at he
      · rcases mem_pair.mp he with rfl | rfl
        · exact .unlinked file
        · exact .unlinked file'
      · cases he
    refine ⟨?_, hvisits⟩
    exact ((hr.append (hunlinked _ _ _)).append (hunlinked _ _ _)).append (hunlinked _ _ _)

/-! ### The output -/

/-- What is printed. -/
def stdout (log : List Event) : Bytes :=
  log.flatMap fun
    | .printed text => text
    | _ => []

/-- The lines of the output: a setting, or the complaint about a key. -/
inductive IsOutputLine : Bytes → Prop
  | setting {key text : Bytes} (h : IsSetting key text) : IsOutputLine (key ++ 32 :: text)
  | badKey (cp : Bytes) : IsOutputLine (ascii "bad key material in '" ++ cp ++ ascii "'")

lemma Of.not_mem (h : Of isByte limit text) (hc : isByte c = false) : c ∉ text := by
  intro hin
  have hbyte := h.bytes c hin
  rw [hc] at hbyte
  cases hbyte

lemma newline_not_mem_natText (n : ℕ) : 10 ∉ natText n := by
  intro hin
  cases isdigit_of_mem_natText n 10 hin

lemma IsAddress.newline_not_mem (h : IsAddress text) : 10 ∉ text := by
  cases h with
  | ipv4 h | ipv6 h => exact h.not_mem rfl

lemma IsHost.newline_not_mem (h : IsHost text) : 10 ∉ text := by
  cases h with
  | hostname h => exact h.not_mem rfl
  | address h => exact h.newline_not_mem

/-- A setting is on one line. -/
lemma IsSetting.newline_not_mem {key : Bytes} (h : IsSetting key text) :
    10 ∉ key ∧ 10 ∉ text := by
  cases h with
  | version hname h | filename hname h =>
    refine ⟨?_, h.not_mem rfl⟩
    rcases hname with rfl | rfl <;> decide
  | algorithm hname =>
    refine ⟨?_, by decide⟩
    rcases hname with rfl | rfl <;> decide
  | hash hname hsuffix h =>
    refine ⟨?_, h.not_mem rfl⟩
    rcases hname with rfl | rfl <;> rcases hsuffix with rfl | rfl <;> decide
  | host n h =>
    refine ⟨?_, h.newline_not_mem⟩
    have hn := newline_not_mem_natText n
    simp only [mem_append, hn]
    decide
  | port n h =>
    refine ⟨?_, h.not_mem rfl⟩
    have hn := newline_not_mem_natText n
    simp only [mem_append, hn]
    decide
  | timer hname h =>
    refine ⟨?_, h.not_mem rfl⟩
    rcases hname with rfl | rfl | rfl <;> decide
  | remotePort h => exact ⟨by decide, h.not_mem rfl⟩

/-- What is printed at once is one line. -/
lemma Safe.line (h : Safe cfg (.printed text)) :
    ∃ line, text = line ++ [10] ∧ 10 ∉ line ∧ IsOutputLine line := by
  generalize he : Event.printed text = e at h
  cases h with
  | setting h =>
    cases he
    obtain ⟨hkey, htext⟩ := h.newline_not_mem
    refine ⟨_, rfl, ?_, .setting h⟩
    simp [hkey, htext]
  | badKey h =>
    cases he
    refine ⟨_, (append_assoc _ (ascii "'") [10]).symm, ?_, .badKey _⟩
    simp only [mem_append, h]
    decide
  | _ => cases he

open FileLines in
lemma lines_line {line : Bytes} (h : 10 ∉ line) : lines (line ++ [10]) = [line] :=
  Lines.complete_append_cons (newline_eq_false h) rfl

open FileLines in
/-- The lines of the output of safe events. -/
lemma lines_stdout {log : List Event} (h : ∀ e ∈ log, Safe cfg e) :
    Whole (stdout log) ∧ ∀ line ∈ lines (stdout log), IsOutputLine line := by
  induction log with
  | nil => exact ⟨whole_nil, nofun⟩
  | cons e log ih =>
    obtain ⟨he, hlog⟩ := forall_mem_cons.mp h
    obtain ⟨hwhole, hlines⟩ := ih hlog
    rw [stdout, flatMap_cons]
    cases e with
    | printed text =>
      obtain ⟨line, rfl, hline, houtput⟩ := he.line
      refine ⟨(whole_line hline).append hwhole, ?_⟩
      rw [lines_append (whole_line hline), lines_line hline]
      exact forall_mem_cons.mpr ⟨houtput, hlines⟩
    | _ => exact ⟨hwhole, hlines⟩

/-! ### The scripts -/

/-- The bytes that mean something to a shell. -/
def shellSpecial : Bytes := ascii " \t\n'\"`\\$&|;()<>*?[]#~!=%\x7b\x7d"

lemma not_special_of_isIpv6 : ∀ c ∈ shellSpecial, isIpv6 c = false := by decide +kernel

lemma not_special_of_isIpv4 : ∀ c ∈ shellSpecial, isIpv4 c = false := by decide +kernel

lemma not_special_of_isdigit : ∀ c ∈ shellSpecial, isdigit c = false := by decide +kernel

/-- A value for a script: bytes of a class, none of which means anything to a shell. -/
structure Inert (isByte : UInt8 → Bool) (limit : ℕ) (text : Bytes) : Prop extends
    Of isByte limit text where
  special : ∀ c ∈ text, c ∉ shellSpecial

lemma Of.inert (h : Of isByte limit text) (hspecial : ∀ c ∈ shellSpecial, isByte c = false) :
    Inert isByte limit text :=
  ⟨h, fun c hc hin => h.not_mem (hspecial c hin) hc⟩

/-- The scripts are the fixed commands with addresses in them. -/
lemma Safe.netconfigV4_eq (h : Safe cfg (.wrote .netconfigV4 contents)) :
    ∃ address netmask broadcast gw,
      contents = Atlasinit.netconfigV4 cfg address netmask broadcast gw ∧
      ∀ text ∈ [address, netmask, broadcast, gw], Inert isIpv4 16 text := by
  generalize he : Event.wrote .netconfigV4 contents = e at h
  cases h with
  | netconfigV4 haddress hnetmask hbroadcast hgw =>
    refine ⟨_, _, _, _, (Event.wrote.inj he).2, ?_⟩
    simp only [forall_mem_cons, haddress.inert not_special_of_isIpv4,
      hnetmask.inert not_special_of_isIpv4, hbroadcast.inert not_special_of_isIpv4,
      hgw.inert not_special_of_isIpv4, true_and]
    nofun
  | _ => cases he

lemma Safe.netconfigV6_eq (h : Safe cfg (.wrote .netconfigV6 contents)) :
    ∃ address prefixlen gw, contents = Atlasinit.netconfigV6 cfg address prefixlen gw ∧
      Inert isIpv6 40 address ∧ Inert isdigit 3 prefixlen ∧ Inert isIpv6 40 gw := by
  generalize he : Event.wrote .netconfigV6 contents = e at h
  cases h with
  | netconfigV6 haddress hprefixlen hgw =>
    exact ⟨_, _, _, (Event.wrote.inj he).2, haddress.inert not_special_of_isIpv6,
      hprefixlen.inert not_special_of_isdigit, hgw.inert not_special_of_isIpv6⟩
  | _ => cases he

lemma Safe.sessionId_eq {id : Bytes} (h : Safe cfg (.wrote .conSessionId (sessionIdFile id))) :
    Of isHex 80 id := by
  generalize he : Event.wrote .conSessionId (sessionIdFile id) = e at h
  cases h with
  | sessionId hid =>
    have hfile := (Event.wrote.inj he).2
    unfold sessionIdFile at hfile
    rw [append_left_inj, append_right_inj] at hfile
    exact hfile ▸ hid
  | _ => cases he

open FileLines in
/-- Whatever a reply contains, all that is printed and written is a fixed text with values of the
fields in it, and the scripts are the fixed commands with addresses in them. -/
theorem reply_injects_nothing (main : Main) (cfg : Config) (input : Bytes) :
    (∀ e ∈ (main.run cfg input).2.log, Safe cfg e) ∧
      Whole (stdout (main.run cfg input).2.log) ∧
      (∀ line ∈ lines (stdout (main.run cfg input).2.log), IsOutputLine line) ∧
      (∀ contents, Event.wrote .netconfigV4 contents ∈ (main.run cfg input).2.log →
        ∃ address netmask broadcast gw, contents = netconfigV4 cfg address netmask broadcast gw ∧
          ∀ text ∈ [address, netmask, broadcast, gw], Inert isIpv4 16 text) ∧
      (∀ contents, Event.wrote .netconfigV6 contents ∈ (main.run cfg input).2.log →
        ∃ address prefixlen gw, contents = netconfigV6 cfg address prefixlen gw ∧
          Inert isIpv6 40 address ∧ Inert isdigit 3 prefixlen ∧ Inert isIpv6 40 gw) := by
  have hsafe := (clean_run cfg main input).1.events
  obtain ⟨hwhole, hlines⟩ := lines_stdout hsafe
  refine ⟨hsafe, hwhole, hlines, fun contents hin => ?_, fun contents hin => ?_⟩
  · exact (hsafe _ hin).netconfigV4_eq
  · exact (hsafe _ hin).netconfigV6_eq

end AtlasProbe.Atlasinit
