import AtlasProbe.Atlasinit.Fields

/-!
# Handling a reply

`atlasinit -r` reads the reply of the registration server, `atlasinit -c` that of a controller.
What they print is read by shell scripts, and some of the files that they write are run as such.
All lines of a reply are read into one buffer.
-/

namespace AtlasProbe.Atlasinit

variable (cfg : Config)

/-! ### The lines of the registration server -/

/-- Whether the clock is off by more than two seconds, compared as `unsigned long` -/
def timeDiffers (mytime regserverTime : ℕ) : Bool :=
  mytime % 2 ^ 64 < (regserverTime + (2 ^ 64 - 2)) % 2 ^ 64 ||
    (regserverTime + 2) % 2 ^ 64 < mytime % 2 ^ 64

/-- `REGSERVER_TIMESTAMP`: the rest of the line is skipped. -/
def regserverTimestamp : Prog :=
  number skipTimestamp fun regserverTime =>
    if timeDiffers (cfg.time 0) regserverTime then .emit (.settimeofday regserverTime) .done
    else .done

/-- A firmware, with the version printed by a given conversion. -/
def firmware (name : Bytes) (version : ℕ → Bytes) : Prog :=
  number skipVersion fun rootFsVer =>
  .emit (setting (name ++ ascii "_VERSION") (version rootFsVer)) <|
  value skipHashAlgorithm fun alg =>
  .emit (setting (name ++ ascii "_CS_ALG") alg) <|
  value skipHash fun comp =>
  .emit (setting (name ++ ascii "_CS_COMP") comp) <|
  value skipHash fun uncomp =>
  .emit (setting (name ++ ascii "_CS_UNCOMP") uncomp) <|
  value skipFilename fun filename =>
  .emit (setting name filename) <|
  .endOfLine .done

/-- `FIRMWARE_KERNEL` -/
def firmwareKernel : Prog := firmware (ascii "FIRMWARE_KERNEL") fun n => natText (n % 2 ^ 32)

/-- `FIRMWARE_APPS` -/
def firmwareApps : Prog := firmware (ascii "FIRMWARE_APPS") natText

/-- A line of a file of known hosts. -/
def knownHost (host type key : Bytes) : Bytes := host ++ 32 :: type ++ 32 :: key ++ [10]

/-- `CONTROLLER` -/
def controller : Prog :=
  .modify (fun vars => { vars with nController := vars.nController + 1 }) <|
  .get fun vars =>
  let name := ascii "CONTROLLER_" ++ natText vars.nController
  value skipHostnameOrAddress fun host =>
  .emit (setting (name ++ ascii "_HOST") host) <|
  value skipPort fun port =>
  .emit (setting (name ++ ascii "_PORT") port) <|
  value skipKeyType fun type =>
  .field skipKeyMaterial (fun _ => true)
    (.shows fun cp => .printed (ascii "bad key material in '" ++ cp ++ ascii "'\n")) fun key =>
  .emit (.wrote .contrKnownHosts (knownHost host type key ++
    knownHost (ascii "ipv4." ++ host) type key ++ knownHost (ascii "ipv6." ++ host) type key)) <|
  .endOfLine .done

/-- `REREGISTER` -/
def reregister : Prog :=
  number skipVersion fun reregisterTime =>
  processWait cfg (ascii "REREG_TIMER") reregisterTime <|
  .endOfLine .done

/-- The contents of `netconfig_v4.vol` -/
def netconfigV4 (address netmask broadcast gw : Bytes) : Bytes :=
  ascii "/sbin/ifconfig " ++ cfg.device ++ ascii " 0.0.0.0\n" ++
  ascii "/sbin/ifconfig " ++ cfg.device ++ ascii ":1 " ++ address ++ ascii " " ++
  ascii "netmask " ++ netmask ++ ascii " " ++
  ascii "broadcast " ++ broadcast ++ ascii " \n" ++
  ascii "/sbin/route add default gw " ++ gw ++ ascii "\n" ++
  ascii "IPV4_LOCAL_ADDR=" ++ address ++ ascii "\n" ++
  ascii "IPV4_NETMASK=" ++ netmask ++ ascii "\n" ++
  ascii "IPV4_BROADCAST=" ++ broadcast ++ ascii "\n" ++
  ascii "IPV4_GW=" ++ gw ++ ascii "\n" ++
  ascii "DHCP=False\n" ++
  ascii "echo '\"static-inet-addresses\" : [ \x7b \"inet-addr\": \"" ++ address ++
  ascii "\", \"netmask\": \"" ++ netmask ++
  ascii "\", \"interface\": \"" ++ cfg.device ++
  ascii "\" \x7d ], \"static-inet-routes\" : [ \x7b \"destination\": \"0.0.0.0\", " ++
  ascii "\"netmask\": \"0.0.0.0\", \"next-hop\": \"" ++ gw ++
  ascii "\", \"interface\": \"" ++ cfg.device ++
  ascii "\" \x7d ]' > " ++ cfg.status ++ ascii "/network_v4_static_info.json\n"

/-- `skip_literal` and then an address -/
def labelled (label : Bytes) (plain : 0 ∉ label ∧ 32 ∉ label) (sc : Scanner)
    (next : Bytes → Prog) : Prog :=
  value (.literal label plain) fun _ => value sc next

/-- `DHCPV4` -/
def dhcpv4 : Prog :=
  value skipBoolean fun cp =>
  if cp = ascii "True" then .endOfLine .done
  else
    labelled (ascii "IPV4ADDRESS") (by decide) skipIpv4address fun address =>
    labelled (ascii "IPV4NETMASK") (by decide) skipIpv4address fun netmask =>
    labelled (ascii "IPV4NETWORK") (by decide) skipIpv4address fun _ =>
    labelled (ascii "IPV4BROADCAST") (by decide) skipIpv4address fun broadcast =>
    labelled (ascii "IPV4GATEWAY") (by decide) skipIpv4address fun gw =>
    .emit (.wrote .netconfigV4 (netconfigV4 cfg address netmask broadcast gw)) <|
    .modify (fun vars => { vars with doRmV4StaticInfo := false }) <|
    .endOfLine .done

/-- The contents of `netconfig_v6.vol` -/
def netconfigV6 (address prefixlen gw : Bytes) : Bytes :=
  ascii "/sbin/ifconfig " ++ cfg.device ++ ascii " 0.0.0.0\n" ++
  ascii "/sbin/ifconfig " ++ cfg.device ++ ascii " " ++ address ++ ascii "/" ++ prefixlen ++
  ascii "\n" ++
  ascii "/sbin/route -A inet6 add default gw " ++ gw ++ ascii " dev " ++ cfg.device ++ ascii "\n" ++
  ascii "IPV6_LOCAL_ADDR=" ++ address ++ ascii "\n" ++
  ascii "IPV6_PREFIX_LEN=" ++ prefixlen ++ ascii "\n" ++
  ascii "IPV6_GW=" ++ gw ++ ascii "\n" ++
  ascii "DHCP=False\n" ++
  ascii "echo '\"static-inet6-addresses\": [ \x7b \"inet6-addr\": \"" ++ address ++
  ascii "\", \"prefix-length\": " ++ prefixlen ++
  ascii ", \"interface\": \"" ++ cfg.device ++
  ascii "\" \x7d ], \"static-inet6-routes\": [ \x7b \"destination\": \"::\", " ++
  ascii "\"prefix-length\" : 0, \"next-hop\": \"" ++ gw ++
  ascii "\", \"interface\": \"" ++ cfg.device ++
  ascii "\" \x7d ]' > " ++ cfg.status ++ ascii "/network_v6_static_info.json\n"

/-- `DHCPV6` -/
def dhcpv6 : Prog :=
  value skipBoolean fun cp =>
  if cp = ascii "True" then .endOfLine .done
  else
    labelled (ascii "IPV6ADDRESS") (by decide) skipIpv6address fun address =>
    labelled (ascii "IPV6PREFIXLEN") (by decide) skipPrefixlen fun prefixlen =>
    labelled (ascii "IPV6GATEWAY") (by decide) skipIpv6address fun gw =>
    .emit (.wrote .netconfigV6 (netconfigV6 cfg address prefixlen gw)) <|
    .modify (fun vars => { vars with doRmV6StaticInfo := false }) <|
    .endOfLine .done

/-- The contents of `resolv.conf.vol` -/
def resolvConf (servers : List Bytes) : Bytes :=
  servers.flatMap fun cp => ascii "nameserver " ++ cp ++ ascii "\n"

/-- The contents of the static DNS information, without its end -/
def dnsStaticInfo (servers : List Bytes) : Bytes :=
  ascii "\"static-dns\": [ " ++
    ((servers.map fun cp => ascii "\x7b \"nameserver\": \"" ++ cp ++ ascii "\" \x7d").intersperse
      (ascii ", ")).flatten

/-- The loop over the addresses behind the first one -/
def dnsLoop : ℕ → List Bytes → Prog :=
  .eachWord skipAddress
    (fun servers => .emits [.wrote .resolvConf (resolvConf servers),
      .wrote .networkDnsStaticInfo (dnsStaticInfo servers)])
    (fun servers cp => servers ++ [cp])
    (fun servers =>
      .emit (.wrote .resolvConf (resolvConf servers)) <|
      .emit (.wrote .networkDnsStaticInfo (dnsStaticInfo servers ++ ascii " ]\n")) <|
      .modify (fun vars => { vars with doRmDnsStaticInfo := false }) .done)

/-- `DNS_SERVERS`: the files are open from the start, so they are written even if an address is
rejected. -/
def dnsServers : Prog :=
  .field skipAddress (fun _ => true)
    (.emits [.wrote .resolvConf [], .wrote .networkDnsStaticInfo []]) fun cp => dnsLoop 1024 [cp]

/-- What is done with a line of the registration server; unknown keywords are skipped. -/
def regLine : Handler Event Vars where
  start := skipTag
  body tag :=
    if tag = ascii "REGSERVER_TIMESTAMP" then regserverTimestamp cfg
    else if tag = ascii "FIRMWARE_KERNEL" then firmwareKernel
    else if tag = ascii "FIRMWARE_APPS" then firmwareApps
    else if tag = ascii "CONTROLLER" then controller
    else if tag = ascii "REREGISTER" then reregister cfg
    else if tag = ascii "DHCPV4" then dhcpv4 cfg
    else if tag = ascii "DHCPV6" then dhcpv6 cfg
    else if tag = ascii "DNS_SERVERS" then dnsServers
    else .done

/-! ### The lines of a controller -/

/-- The contents of `con_session_id.txt` -/
def sessionIdFile (id : Bytes) : Bytes := ascii "\nSESSION_ID " ++ id ++ ascii "\n"

/-- What is done with a line of a controller; unknown keywords are skipped. -/
def conLine : Handler Event Vars where
  start := skipTag
  body tag :=
    if tag = ascii "REMOTE_PORT" then
      value skipPort fun port => .emit (setting (ascii "REMOTE_PORT") port) <| .endOfLine .done
    else if tag.take 10 = ascii "SESSION_ID" then
      value skipSessionId fun id =>
        .emit (.wrote .conSessionId (sessionIdFile id)) <| .endOfLine .done
    else .done

/-- The line that says how long to wait -/
def waitLine (type : Bytes) : Handler Event Vars where
  start := .literal (ascii "TIMEOUT") (by decide)
  body _ := number skipSeconds fun seconds => .endOfLine <| processWait cfg type seconds .done

/-! ### The whole reply -/

/-- A line when it is handled, with what the buffer holds then. -/
structure Visit where
  handler : Handler Event Vars
  text : Bytes
  mem : Bytes
  vars : Vars
  log : List Event

/-- The result of handling the line. -/
def Visit.result (v : Visit) : Verdict × Machine Event Vars :=
  v.handler.run v.text v.mem v.vars v.log

/-- The input that has not been read, the buffer, the variables, the events, and the lines that
have been handled. -/
structure Reader where
  input : Bytes
  mem : Bytes
  vars : Vars
  log : List Event
  visits : List Visit

/-- How a reply ends: with a return value, or the program has left the buffer. -/
inductive Exit
  | ret (code : ℕ)
  | outside
  deriving DecidableEq

/-- What reading a line into the buffer gives. -/
inductive Got
  | eof
  | tooLong
  | line (text rest : Bytes)

/-- `fgets` and `strchr`: a zero in front of the newline hides it. -/
def getLine (input : Bytes) : Got :=
  match fgets 1024 input with
  | none => .eof
  | some (got, rest) =>
    let text := got.takeWhile fun b => b ≠ 0 && b ≠ 10
    if got[text.length]? = some 10 then .line text rest else .tooLong

/-- Handle a line that has been read. -/
def Reader.handle (h : Handler Event Vars) (text rest : Bytes) (r : Reader) :
    Verdict × Reader :=
  let v : Visit := ⟨h, text, r.mem, r.vars, r.log⟩
  (v.result.1, ⟨rest, v.result.2.mem, v.result.2.vars, v.result.2.log, r.visits ++ [v]⟩)

/-- The loop over the lines behind `OK`, at most `max_lines` of them -/
def lineLoop (h : Handler Event Vars) : ℕ → Reader → Exit × Reader
  | 0, r => (.ret 0, r)
  | n + 1, r =>
    match getLine r.input with
    | .eof => (.ret 0, r)
    | .tooLong => (.ret 1, r)
    | .line text rest =>
      match r.handle h text rest with
      | (.accepted, r) => lineLoop h n r
      | (.rejected, r) => (.ret 1, r)
      | (.outside, r) => (.outside, r)

/-- The line behind `WAIT` -/
def waitFor (h : Handler Event Vars) (r : Reader) : Exit × Reader :=
  match getLine r.input with
  | .eof => (.ret 1, r)
  | .tooLong => (.ret 1, r)
  | .line text rest =>
    match r.handle h text rest with
    | (.accepted, r) => (.ret 0, r)
    | (.rejected, r) => (.ret 1, r)
    | (.outside, r) => (.outside, r)

/-- The reader behind the first line, with the number of calls of `time` so far.  The buffer is
static, so it holds zeros before. -/
def Reader.start (calls : ℕ) (text rest : Bytes) : Reader where
  input := rest
  mem := Handler.load (List.replicate 1024 0) text
  vars := ⟨0, true, true, true, calls⟩
  log := []
  visits := []

/-- The only action after a reply that is not understood is to wait. -/
def Reader.forceWait (type text : Bytes) (r : Reader) : Reader :=
  let m := ((processWait cfg type 100 .done).run
    ⟨r.mem, text.length, 0, text.length + 1, r.vars, r.log⟩).2
  { r with vars := m.vars, log := m.log }

/-- Delete the static configuration that the reply has not set. -/
def Reader.removeStatic (r : Reader) : Reader :=
  { r with
    log := r.log ++
      (if r.vars.doRmV4StaticInfo then [.unlinked .netconfigV4, .unlinked .networkV4StaticInfo]
      else []) ++
      (if r.vars.doRmV6StaticInfo then [.unlinked .netconfigV6, .unlinked .networkV6StaticInfo]
      else []) ++
      (if r.vars.doRmDnsStaticInfo then [.unlinked .resolvConf, .unlinked .networkDnsStaticInfo]
      else []) }

/-- `max_lines` -/
def maxLines : ℕ := 16

/-- `reg_init_main` -/
def regInitMain (input : Bytes) : Exit × Reader :=
  match getLine input with
  | .eof => (.ret 1, .start 1 [] input)
  | .tooLong => (.ret 1, .start 1 [] input)
  | .line text rest =>
    let r := Reader.start 1 text rest
    if text = ascii "OK" then
      match lineLoop (regLine cfg) maxLines r with
      | (.ret 0, r) => (.ret 0, r.removeStatic)
      | result => result
    else if text = ascii "WAIT" then waitFor (waitLine cfg (ascii "REG_WAIT_UNTIL")) r
    else (.ret 1, r.forceWait cfg (ascii "REG_WAIT_UNTIL") text)

/-- What a reply with `REFUSED` leads to: the reason is written as it is. -/
def Reader.refused (r : Reader) : Reader :=
  let line := match fgets 1022 r.input with
    | none => []
    | some (got, _) => got
  let reason := ((line ++ [0]).drop 8).takeWhile (· ≠ 0)
  { r with log := r.log ++ [.wrote .forceReg (ascii "REASON=" ++ reason ++ ascii "\n")] }

/-- `con_init_main` -/
def conInitMain (input : Bytes) : Exit × Reader :=
  match getLine input with
  | .eof => (.ret 1, .start 0 [] input)
  | .tooLong => (.ret 1, .start 0 [] input)
  | .line text rest =>
    let r := Reader.start 0 text rest
    if text = ascii "OK" then lineLoop conLine maxLines r
    else if text = ascii "WAIT" then waitFor (waitLine cfg (ascii "CON_WAIT_TIMER")) r
    else if text.take 8 = ascii "REFUSED\n" then (.ret 0, r.refused)
    else (.ret 1, r.forceWait cfg (ascii "CON_WAIT_TIMER") text)

/-- The two replies. -/
inductive Main
  | reg
  | con
  deriving DecidableEq

/-- Handle a reply. -/
def Main.run (main : Main) (input : Bytes) : Exit × Reader :=
  match main with
  | .reg => regInitMain cfg input
  | .con => conInitMain cfg input

/-! ### What holds in every run -/

/-- A line that has been read into the buffer. -/
structure Plain (text : Bytes) : Prop where
  zero : 0 ∉ text
  newline : 10 ∉ text
  room : text.length + 2 ≤ 1024

lemma plain_nil : Plain [] := ⟨List.not_mem_nil, List.not_mem_nil, by decide⟩

lemma plain_of_getLine {input text rest : Bytes} (h : getLine input = .line text rest) :
    Plain text := by
  unfold getLine at h
  split at h
  · cases h
  · next got more hgets =>
    have hgot : got.length ≤ 1023 := by
      unfold fgets at hgets
      split_ifs at hgets
      cases hgets
      exact length_firstLine_le_size 1023 input
    dsimp only at h
    split_ifs at h with hend
    cases h
    have hlt := (List.getElem?_eq_some_iff.mp hend).1
    have hbyte : ∀ c ∈ got.takeWhile fun b => b ≠ 0 && b ≠ 10, (c ≠ 0 && c ≠ 10) = true :=
      fun c hc => List.mem_takeWhile_imp (p := fun b : UInt8 => b ≠ 0 && b ≠ 10) hc
    refine ⟨fun hin => ?_, fun hin => ?_, by omega⟩
    · cases hbyte 0 hin
    · cases hbyte 10 hin

/-- The keywords for the time to wait for. -/
inductive IsWaitType : Bytes → Prop
  | reg : IsWaitType (ascii "REG_WAIT_UNTIL")
  | con : IsWaitType (ascii "CON_WAIT_TIMER")

/-- The handlers for the lines behind the first one. -/
inductive IsHandler : Handler Event Vars → Prop
  | reg : IsHandler (regLine cfg)
  | con : IsHandler conLine
  | wait {type : Bytes} (h : IsWaitType type) : IsHandler (waitLine cfg type)

variable {cfg} {I : Reader → Prop}

section Handle

variable {h : Handler Event Vars}
  (hhandle : ∀ text rest r, Plain text → I r → I (r.handle h text rest).2)

include hhandle

/-- A property that is kept when a line is handled is kept in the loop over the lines. -/
lemma lineLoop_inv (n : ℕ) {r : Reader} (hr : I r) : I (lineLoop h n r).2 := by
  induction n generalizing r with
  | zero => exact hr
  | succ n ih =>
    unfold lineLoop
    cases hline : getLine r.input with
    | eof => exact hr
    | tooLong => exact hr
    | line text rest =>
      have hkeep := hhandle text rest r (plain_of_getLine hline) hr
      dsimp only
      split
      all_goals
        rename_i hresult
        rw [hresult] at hkeep
      · exact ih hkeep
      · exact hkeep
      · exact hkeep

lemma waitFor_inv {r : Reader} (hr : I r) : I (waitFor h r).2 := by
  unfold waitFor
  cases hline : getLine r.input with
  | eof => exact hr
  | tooLong => exact hr
  | line text rest =>
    have hkeep := hhandle text rest r (plain_of_getLine hline) hr
    dsimp only
    split
    all_goals
      rename_i hresult
      rw [hresult] at hkeep
      exact hkeep

end Handle

/-- The first line has lost its newline, so a reply never counts as refused. -/
lemma not_refused {text : Bytes} (h : Plain text) : text.take 8 ≠ ascii "REFUSED\n" := by
  intro heq
  have hin : (10 : UInt8) ∈ text.take 8 := by
    rw [heq]
    decide
  exact h.newline (List.mem_of_mem_take hin)

/-- A property of the reader holds at the end of each reply if it holds behind the first line and is
kept by what can be done. -/
theorem run_inv (hstart : ∀ calls text rest, Plain text → I (.start calls text rest))
    (hhandle : ∀ h, IsHandler cfg h → ∀ text rest r, Plain text → I r → I (r.handle h text rest).2)
    (hwait : ∀ type text r, IsWaitType type → I r → I (r.forceWait cfg type text))
    (hremove : ∀ r, I r → I r.removeStatic) (main : Main) (input : Bytes) :
    I (main.run cfg input).2 := by
  cases main with
  | reg =>
    change I (regInitMain cfg input).2
    unfold regInitMain
    cases hline : getLine input with
    | eof => exact hstart 1 [] input plain_nil
    | tooLong => exact hstart 1 [] input plain_nil
    | line text rest =>
      have hr := hstart 1 text rest (plain_of_getLine hline)
      dsimp only
      split_ifs
      · have hloop := lineLoop_inv (hhandle _ .reg) maxLines hr
        split
        · rename_i hresult
          rw [hresult] at hloop
          exact hremove _ hloop
        · exact hloop
      · exact waitFor_inv (hhandle _ (.wait .reg)) hr
      · exact hwait _ _ _ .reg hr
  | con =>
    change I (conInitMain cfg input).2
    unfold conInitMain
    cases hline : getLine input with
    | eof => exact hstart 0 [] input plain_nil
    | tooLong => exact hstart 0 [] input plain_nil
    | line text rest =>
      have hplain := plain_of_getLine hline
      have hr := hstart 0 text rest hplain
      dsimp only
      split_ifs with hok hwaiting hrefused
      · exact lineLoop_inv (hhandle _ .con) maxLines hr
      · exact waitFor_inv (hhandle _ (.wait .con)) hr
      · exact absurd hrefused (not_refused hplain)
      · exact hwait _ _ _ .con hr

/-- Each line that is handled has been read into the buffer. -/
lemma plain_of_visit (main : Main) (input : Bytes) :
    ∀ v ∈ (main.run cfg input).2.visits, Plain v.text := by
  refine run_inv (I := fun r => ∀ v ∈ r.visits, Plain v.text) ?_ ?_ ?_ ?_ main input
  · intro calls text rest _ v hv
    cases hv
  · intro h _ text rest r htext hr v hv
    rcases List.mem_append.mp hv with hv | hv
    · exact hr v hv
    · rw [List.mem_singleton.mp hv]
      exact htext
  · intro type text r _ hr
    exact hr
  · intro r hr
    exact hr

/-! ### Lines that are judged by their own bytes -/

/-- Each line of each reply is judged by its own bytes if and only if it is complete. -/
theorem line_judged_iff (main : Main) (cfg : Config) (input : Bytes) :
    ∀ v ∈ (main.run cfg input).2.visits,
      v.handler.Judged v.text v.mem v.vars v.log ↔ v.handler.complete v.text v.vars = true := by
  intro v hv
  have hplain := plain_of_visit main input v hv
  exact Handler.judged_iff hplain.zero

/-- A configuration for tests. -/
def Config.test : Config := ⟨ascii "eth0", ascii "/status", fun _ => 0⟩

/-- The reply of a controller with a port. -/
def portReply : Bytes := ascii "OK\nREMOTE_PORT 4433\n"

/-- Its line with the port. -/
def portVisit : Visit := (Main.con.run .test portReply).2.visits.get ⟨0, by decide +kernel⟩

theorem line_judged_iff_port :
    portVisit ∈ (Main.con.run .test portReply).2.visits ∧
      portVisit.text = ascii "REMOTE_PORT 4433" ∧
      portVisit.handler.Judged portVisit.text portVisit.mem portVisit.vars portVisit.log := by
  have hin : portVisit ∈ (Main.con.run .test portReply).2.visits := List.get_mem _ _
  refine ⟨hin, by decide +kernel, ?_⟩
  exact (line_judged_iff .con .test portReply portVisit hin).mpr (by decide +kernel)

/-- A reply of the registration server in which a line with the keyword `CONTROLLER` only comes
behind a longer one. -/
def staleReply : Bytes := ascii "OK\nUNKNOWN6789 4433 ssh-rsa AAAA\nCONTROLLER\n"

/-- Its second line behind `OK`. -/
def staleVisit : Visit := (Main.reg.run .test staleReply).2.visits.get ⟨1, by decide +kernel⟩

/-- The host is read from the zero behind the line, and the port and the key from the line before;
the line is accepted. -/
theorem line_judged_controller :
    staleVisit ∈ (Main.reg.run .test staleReply).2.visits ∧
      staleVisit.text = ascii "CONTROLLER" ∧
      staleVisit.handler.missing staleVisit.text staleVisit.vars = true ∧
      staleVisit.result.1 = .accepted ∧
      setting (ascii "CONTROLLER_1_PORT") (ascii "4433") ∈ staleVisit.result.2.log ∧
      ¬staleVisit.handler.Judged staleVisit.text staleVisit.mem staleVisit.vars staleVisit.log := by
  have hmissing : staleVisit.handler.missing staleVisit.text staleVisit.vars = true := by
    decide +kernel
  have haccepted : staleVisit.result.1 = .accepted := by decide +kernel
  refine ⟨List.get_mem _ _, by decide +kernel, hmissing, haccepted, by decide +kernel, ?_⟩
  intro hjudged
  have hrejected : staleVisit.result.1 = .rejected := hjudged.rejects hmissing
  rw [haccepted] at hrejected
  cases hrejected

end AtlasProbe.Atlasinit
