import AtlasProbe.Rptra6.Resolv

/-!
# The resolvers are those of the last option

An advertisement is a header and options, and `do_resolv` finds the options where they are.  Each
option with resolvers overwrites the first rows of `dnsnext` and leaves the others, so that the
last option of an advertisement is followed exactly if no option before it has more resolvers.
-/

namespace AtlasProbe.Rptra6

open List Wire Reactive

/-! ### Advertisements -/

/-- An option with resolvers. -/
structure Rdnss where
  reserved : ℕ
  lifetime : UInt32
  addrs : List Bytes
  addrs_ne_nil : addrs ≠ []
  length_addrs : addrs.length ≤ 127
  length_addr : ∀ addr ∈ addrs, addr.length = 16

/-- An option of an advertisement. -/
inductive RaOption
  | rdnss (d : Rdnss)
  | other (type len : UInt8) (body : Bytes) (htype : type.toNat ≠ optRdnss)
    (hlength : body.length + 2 = len.toNat * 8)

/-- An option on the wire. -/
def RaOption.bytes : RaOption → Bytes
  | .rdnss d =>
    25 :: UInt8.ofNat (1 + 2 * d.addrs.length) ::
      (be16 d.reserved ++ (be32 d.lifetime.toNat ++ d.addrs.flatten))
  | .other type len body _ _ => type :: len :: body

/-- A router advertisement: the header behind the type, and options. -/
structure Advert where
  header : Bytes
  options : List RaOption
  length_header : header.length + 1 = advertSize

/-- An advertisement on the wire. -/
def Advert.bytes (ad : Advert) : Bytes :=
  134 :: (ad.header ++ ad.options.flatMap RaOption.bytes)

/-- The options with resolvers among options from `o` on, with their places. -/
def rdnssFrom : ℕ → List RaOption → List (ℕ × Rdnss)
  | _, [] => []
  | o, option :: options =>
    match option with
    | .rdnss d => (o, d) :: rdnssFrom (o + option.bytes.length) options
    | .other .. => rdnssFrom (o + option.bytes.length) options

/-- The options with resolvers, with their places. -/
def Advert.rdnss (ad : Advert) : List (ℕ × Rdnss) := rdnssFrom advertSize ad.options

/-- The packet is the advertisement. -/
structure Packet.Carries (p : Packet) (ad : Advert) : Prop where
  holds : Holds p.buf 0 ad.bytes
  nrecv : p.nrecv = ad.bytes.length

/-- An option with resolvers, as `do_resolv` handles it. -/
def announce (env : Env) (p : Packet) (x : State × Rows) (d : ℕ × Rdnss) : Option (State × Rows) :=
  rdnss env d.2.lifetime.toNat d.2.addrs (p.now d.1) x

section Walk

variable {buf : ℕ → UInt8} {o : ℕ}

lemma length_flatten_addrs {addrs : List Bytes} (h : ∀ addr ∈ addrs, addr.length = 16) :
    addrs.flatten.length = 16 * addrs.length := by
  induction addrs with
  | nil => rfl
  | cons addr addrs ih =>
    obtain ⟨haddr, haddrs⟩ := forall_mem_cons.1 h
    rw [flatten_cons, length_append, ih haddrs, length_cons]
    omega

lemma RaOption.length_bytes (option : RaOption) :
    ∃ len : UInt8, option.bytes.length = len.toNat * 8 ∧ 0 < len.toNat ∧
      ∃ type rest, option.bytes = type :: len :: rest := by
  cases option with
  | rdnss d =>
    have hle := d.length_addrs
    have hlen : (UInt8.ofNat (1 + 2 * d.addrs.length)).toNat = 1 + 2 * d.addrs.length := by
      rw [UInt8.toNat_ofNat']
      omega
    refine ⟨_, ?_, ?_, _, _, rfl⟩
    · simp only [RaOption.bytes, length_cons, length_append, length_be16, length_be32,
        length_flatten_addrs d.length_addr, hlen]
      omega
    · omega
  | other type len body htype hlength =>
    exact ⟨len, hlength, by omega, type, body, rfl⟩

/-- The addresses of an option are where `do_resolv` looks for them. -/
lemma addrsAt_eq (d : Rdnss) (h : Holds buf o (RaOption.rdnss d).bytes) :
    addrsAt buf o = d.addrs := by
  have hle := d.length_addrs
  have hlen : u8 buf (o + 1) = 1 + 2 * d.addrs.length := by
    rw [h.2.u8, UInt8.toNat_ofNat']
    omega
  have hflat : Holds buf (o + 8) d.addrs.flatten := (h.2.2.right rfl).right rfl
  have hcount : (u8 buf (o + 1) * 8 - 8) / 16 = d.addrs.length := by
    rw [hlen]
    omega
  have hread {addrs : List Bytes} (haddrs : ∀ addr ∈ addrs, addr.length = 16) {i : ℕ}
      (hholds : Holds buf i addrs.flatten) :
      ((List.range addrs.length).map fun k => bytesAt buf (i + 16 * k) 16) = addrs := by
    induction addrs generalizing i with
    | nil => rfl
    | cons addr addrs ih =>
      obtain ⟨haddr, haddrs⟩ := forall_mem_cons.1 haddrs
      rw [flatten_cons] at hholds
      have hrest := ih haddrs (hholds.right (k := i + 16) (by rw [haddr]))
      have hfirst : bytesAt buf i 16 = addr := haddr ▸ hholds.left.bytesAt
      rw [length_cons, range_succ_eq_map, map_cons, map_map, Nat.mul_zero, Nat.add_zero, hfirst]
      refine congrArg (addr :: ·) (Eq.trans (map_congr_left fun k _ => ?_) hrest)
      rw [Function.comp_apply, Nat.mul_succ, Nat.add_assoc, Nat.add_comm 16]
  unfold addrsAt
  rw [hcount]
  exact hread d.length_addr hflat

/-- The loop of `do_resolv` handles the options with resolvers one after the other. -/
lemma foldlM_handle (env : Env) (p : Packet) {options : List RaOption} {fuel : ℕ}
    (hholds : Holds p.buf o (options.flatMap RaOption.bytes))
    (hnrecv : p.nrecv = o + (options.flatMap RaOption.bytes).length)
    (hfuel : options.length ≤ fuel) (x : State × Rows) :
    (walk p.buf p.nrecv fuel o).foldlM (handle env p) x =
      (rdnssFrom o options).foldlM (announce env p) x := by
  induction options generalizing o fuel x with
  | nil =>
    have hend : walk p.buf p.nrecv fuel o = [] := by
      cases fuel with
      | zero => rfl
      | succ fuel => exact if_pos (le_of_eq hnrecv)
    rw [hend]
    rfl
  | cons option options ih =>
    obtain _ | fuel := fuel
    · cases hfuel
    rw [flatMap_cons] at hholds hnrecv
    obtain ⟨len, hlength, hpos, type, rest, hbytes⟩ := option.length_bytes
    have hhead := hholds.left
    rw [hbytes] at hhead
    have hlen : u8 p.buf (o + 1) = len.toNat := hhead.2.u8
    rw [length_append] at hnrecv
    have hwalk : walk p.buf p.nrecv (fuel + 1) o =
        o :: walk p.buf p.nrecv fuel (o + len.toNat * 8) := by
      dsimp only [walk]
      rw [if_neg (by omega), if_neg (by omega), if_neg (by omega), hlen]
    have hrest : ∀ x, (walk p.buf p.nrecv fuel (o + len.toNat * 8)).foldlM (handle env p) x =
        (rdnssFrom (o + len.toNat * 8) options).foldlM (announce env p) x :=
      ih (hholds.right (by rw [hlength])) (by omega) (Nat.le_of_succ_le_succ hfuel)
    rw [hwalk, foldlM_cons]
    cases option with
    | rdnss d =>
      have htype : u8 p.buf o = optRdnss := hholds.left.u8
      have hlifetime : u32 p.buf (o + 4) = d.lifetime.toNat := by
        have hfield : Holds p.buf (o + 4) (be32 d.lifetime.toNat) :=
          (hholds.left.2.2.right rfl).left
        rw [hfield.u32]
        exact Nat.mod_eq_of_lt d.lifetime.toNat_lt
      unfold handle
      rw [if_pos htype, hlifetime, addrsAt_eq d hholds.left]
      change _ = ((o, d) :: rdnssFrom (o + (RaOption.rdnss d).bytes.length) options).foldlM _ x
      rw [hlength]
      exact congrArg (_ >>= ·) (funext hrest)
    | other type' len' body htype hlength' =>
      have hother : ¬u8 p.buf o = optRdnss := by
        rw [hholds.left.u8]
        exact htype
      unfold handle
      rw [if_neg hother]
      change _ = (rdnssFrom (o + (RaOption.other type' len' body htype hlength').bytes.length)
        options).foldlM _ x
      rw [hlength]
      exact hrest x

end Walk

/-! ### Rows -/

/-- The texts of addresses begin with a digit or a colon. -/
def Env.Documented (env : Env) : Prop := ∀ addr, ∃ b t, env.inetNtop addr = b :: t ∧ b ≠ 33

/-- The names of the resolvers that an option is about: the first ones, or none if its lifetime is
zero. -/
def Rdnss.names (env : Env) (d : Rdnss) : List Bytes :=
  if d.lifetime.toNat = 0 then [] else (d.addrs.take nDns).map (namebuf env)

/-- The names that are stored for an option fit into the rows. -/
def Rdnss.Fits (env : Env) (d : Rdnss) : Prop := ∀ name ∈ d.names env, name.length < rowSize

/-- Rows with names in front, and nothing behind. -/
structure Filled (rows : Rows) (names : List Bytes) : Prop where
  rows : rows = names ++ List.replicate (nDns - names.length) []
  length : names.length ≤ nDns
  name : ∀ name ∈ names, name ≠ [] ∧ name ≠ ascii "!"

section Rows

variable {env : Env} {rows : Rows} {names : List Bytes} {d : Rdnss}

lemma namebuf_ne (henv : env.Documented) (addr : Bytes) :
    namebuf env addr ≠ [] ∧ namebuf env addr ≠ ascii "!" := by
  obtain ⟨b, t, htext, hb⟩ := henv addr
  have hhead : ∃ rest, namebuf env addr = b :: rest := by
    unfold namebuf
    split
    · exact ⟨t, htext⟩
    · split
      · rw [htext]
        exact ⟨_, rfl⟩
      · exact ⟨t, htext⟩
  obtain ⟨rest, hrest⟩ := hhead
  rw [hrest]
  refine ⟨cons_ne_nil _ _, fun heq => hb ?_⟩
  exact (List.cons.inj heq).1

lemma Rdnss.exists_of_mem_names {name : Bytes} (h : name ∈ d.names env) :
    ∃ addr, name = namebuf env addr := by
  unfold Rdnss.names at h
  split at h
  · cases h
  · obtain ⟨addr, -, rfl⟩ := mem_map.mp h
    exact ⟨addr, rfl⟩

lemma lifetimeOf_eq_zero {lifetime : ℕ} : lifetimeOf lifetime = 0 ↔ lifetime = 0 := by
  unfold lifetimeOf
  split
  · omega
  · rfl

/-- The names are stored one behind the other, as long as there are rows. -/
lemma store_eq {addrs : List Bytes} (done rest : Rows)
    (hfits : ∀ addr ∈ addrs.take rest.length, (namebuf env addr).length < rowSize)
    (h : done.length + rest.length = nDns) :
    store env addrs done.length (done ++ rest) =
      some (done ++ ((addrs.take rest.length).map (namebuf env) ++ rest.drop addrs.length)) := by
  induction addrs generalizing done rest with
  | nil =>
    rw [take_nil, map_nil, length_nil]
    rfl
  | cons addr addrs ih =>
    unfold store
    cases rest with
    | nil =>
      rw [if_neg (by rw [length_nil] at h; omega), ih done [] (by simp) h]
      simp
    | cons row rest =>
      obtain ⟨hfit, hfits⟩ := forall_mem_cons.1 hfits
      have hset : (done ++ row :: rest).set done.length (namebuf env addr) =
          (done ++ [namebuf env addr]) ++ rest := by simp
      have hlength : (done ++ [namebuf env addr]).length = done.length + 1 := by simp
      rw [length_cons] at h
      rw [if_pos (by omega), if_pos hfit, hset, ← hlength,
        ih (done ++ [namebuf env addr]) rest hfits (by omega)]
      simp

/-- An option overwrites the first rows. -/
lemma Filled.overlay (h : Filled rows names) (henv : env.Documented) (hfits : d.Fits env) :
    (if lifetimeOf d.lifetime.toNat = 0 then some rows else store env d.addrs 0 rows) =
        some (d.names env ++ rows.drop (d.names env).length) ∧
      Filled (d.names env ++ rows.drop (d.names env).length)
        (d.names env ++ names.drop (d.names env).length) := by
  have hrows : rows.length = nDns := by
    have hle := h.length
    rw [h.rows, length_append, length_replicate]
    omega
  have hnames : (d.names env).length ≤ nDns := by
    unfold Rdnss.names
    split
    · exact Nat.zero_le _
    · rw [length_map, length_take]
      exact Nat.min_le_left _ _
  constructor
  · unfold Rdnss.Fits at hfits
    unfold Rdnss.names at hfits ⊢
    by_cases hzero : d.lifetime.toNat = 0
    · rw [if_pos (lifetimeOf_eq_zero.mpr hzero), if_pos hzero]
      rfl
    · rw [if_neg hzero, ← hrows] at hfits
      rw [if_neg (mt lifetimeOf_eq_zero.mp hzero), if_neg hzero]
      refine (store_eq [] rows (forall_mem_map.mp hfits) (by simpa using hrows)).trans ?_
      rw [nil_append, hrows, length_map, length_take]
      rcases Nat.le_total nDns d.addrs.length with hmany | hfew
      · rw [drop_of_length_le (by omega), drop_of_length_le (by omega)]
      · rw [Nat.min_eq_right hfew]
  · refine ⟨?_, ?_, ?_⟩
    · rw [h.rows, drop_append, drop_replicate, append_assoc, length_append, length_drop]
      have hcount : nDns - names.length - ((d.names env).length - names.length) =
          nDns - ((d.names env).length + (names.length - (d.names env).length)) := by omega
      rw [hcount]
    · have hle := h.length
      rw [length_append, length_drop]
      omega
    · intro name hname
      rcases mem_append.mp hname with hname | hname
      · obtain ⟨addr, rfl⟩ := Rdnss.exists_of_mem_names hname
        exact namebuf_ne henv addr
      · exact h.name name (mem_of_mem_drop hname)

/-- Filled rows are not those at the beginning. -/
lemma Filled.ne_unknown (h : Filled rows names) : rows ≠ unknown := by
  rw [h.rows]
  cases names with
  | nil => decide
  | cons name names =>
    intro heq
    exact (h.name name mem_cons_self).2 (List.cons.inj heq).1

end Rows

/-! ### Packets -/

/-- The list in memory and the file are the same, unless there is no list. -/
def Sound (s : State) : Prop := s.dnscurr = unknown ∨ s.resolv = some (fileText s.dnscurr)

/-- The list in memory and the file are given rows. -/
structure Shows (s : State) (rows : Rows) : Prop where
  dnscurr : s.dnscurr = rows
  resolv : s.resolv = some (fileText rows)

section Packets

variable {env : Env} {p : Packet} {ad : Advert} {s : State} {x : State × Rows}
  {names : List Bytes} {packets : List (Packet × Advert)}

/-- What an option with resolvers does. -/
lemma announce_eq (henv : env.Documented) {d : ℕ × Rdnss} (hfits : d.2.Fits env)
    (hs : Sound x.1) (hx : Filled x.2 names) :
    ∃ y, announce env p x d = some y ∧ Shows y.1 y.2 ∧
      Filled y.2 (d.2.names env ++ names.drop (d.2.names env).length) ∧
      y.1.dnsexpires = if d.2.lifetime.toNat = 0 then 0
        else p.now d.1 + lifetimeOf d.2.lifetime.toNat := by
  obtain ⟨hrows, hfilled⟩ := hx.overlay henv hfits
  have hexpires : (if lifetimeOf d.2.lifetime.toNat = 0 then (0 : ℤ)
      else p.now d.1 + lifetimeOf d.2.lifetime.toNat) =
      if d.2.lifetime.toNat = 0 then 0 else p.now d.1 + lifetimeOf d.2.lifetime.toNat :=
    if_congr lifetimeOf_eq_zero rfl rfl
  unfold announce rdnss
  dsimp only
  rw [hrows, hexpires]
  refine ⟨_, rfl, ?_, hfilled, rfl⟩
  dsimp only
  split
  · exact ⟨rfl, rfl⟩
  · next hsame =>
    rw [not_not] at hsame
    rcases hs with hunknown | hfile
    · exact absurd (hsame.symm.trans hunknown) hfilled.ne_unknown
    · exact ⟨hsame, hsame ▸ hfile⟩

/-- What the options of an advertisement do: as many rows are filled as the longest one fills. -/
lemma foldlM_announce (henv : env.Documented) {l : List (ℕ × Rdnss)}
    (hfits : ∀ d ∈ l, d.2.Fits env) (hs : Sound x.1) (hx : Filled x.2 names) :
    ∃ y names', l.foldlM (announce env p) x = some y ∧ Sound y.1 ∧ Filled y.2 names' ∧
      ∀ k, names'.length ≤ k ↔ names.length ≤ k ∧ ∀ d ∈ l, (d.2.names env).length ≤ k := by
  induction l generalizing x names with
  | nil =>
    refine ⟨x, names, rfl, hs, hx, fun k => ?_⟩
    simp
  | cons d l ih =>
    obtain ⟨hfit, hfits⟩ := forall_mem_cons.1 hfits
    obtain ⟨y, hy, hshows, hfilled, -⟩ := announce_eq henv hfit hs hx
    have hsound : Sound y.1 := .inr (by rw [hshows.dnscurr]; exact hshows.resolv)
    obtain ⟨z, names', hz, hsound', hfilled', hlength⟩ := ih hfits hsound hfilled
    refine ⟨z, names', ?_, hsound', hfilled', fun k => ?_⟩
    · rw [foldlM_cons, hy]
      exact hz
    · rw [hlength, length_append, length_drop, forall_mem_cons, ← and_assoc]
      refine and_congr_left fun _ => ?_
      omega

lemma filled_nil : Filled (List.replicate nDns []) [] := ⟨rfl, Nat.zero_le _, nofun⟩

/-- A packet that is an advertisement. -/
lemma Packet.Carries.receive (h : p.Carries ad) (env : Env) (s : State) :
    receive env (some s) p = (ad.rdnss.foldlM (announce env p) (s, List.replicate nDns [])).map
      fun x => x.1.expire p.final := by
  have hheader := ad.length_header
  have htype : u8 p.buf 0 = ndRouterAdvert := h.holds.u8
  have hnrecv : p.nrecv = advertSize + (ad.options.flatMap RaOption.bytes).length := by
    rw [h.nrecv, Advert.bytes, length_cons, length_append]
    omega
  have hfuel : ad.options.length ≤ p.nrecv := by
    have hcount : ad.options.length ≤ (ad.options.flatMap RaOption.bytes).length := by
      induction ad.options with
      | nil => exact Nat.zero_le _
      | cons option options ih =>
        obtain ⟨len, hlength, hpos, -⟩ := option.length_bytes
        rw [flatMap_cons, length_append, length_cons]
        omega
    omega
  have hholds : Holds p.buf advertSize (ad.options.flatMap RaOption.bytes) :=
    h.holds.2.right (by omega)
  unfold Rptra6.receive doResolv
  rw [if_pos htype, Option.bind_some, foldlM_handle env p hholds hnrecv hfuel]
  rfl

lemma Sound.expire (h : Sound s) (now : ℤ) : Sound (s.expire now) := by
  unfold State.expire
  split
  · exact .inl rfl
  · exact h

/-- The advertisements leave the list and the file the same. -/
lemma Sound.run (hs : Sound s) (henv : env.Documented) (hcarries : ∀ x ∈ packets, x.1.Carries x.2)
    (hfits : ∀ x ∈ packets, ∀ d ∈ x.2.rdnss, d.2.Fits env) :
    ∃ s', run (Rptra6.receive env) (packets.map Prod.fst) (some s) = some s' ∧ Sound s' := by
  induction packets generalizing s with
  | nil => exact ⟨s, rfl, hs⟩
  | cons x packets ih =>
    obtain ⟨hx, hcarries⟩ := forall_mem_cons.1 hcarries
    obtain ⟨hfit, hfits⟩ := forall_mem_cons.1 hfits
    obtain ⟨y, -, hy, hsound, -⟩ :=
      foldlM_announce henv hfit (x := (s, List.replicate nDns [])) hs filled_nil
    obtain ⟨s', hs', hsound'⟩ := ih (hsound.expire x.1.final) hcarries hfits
    refine ⟨s', ?_, hsound'⟩
    rw [map_cons, run_cons, hx.receive env s, hy]
    exact hs'

/-- Without options, nothing changes until the resolvers expire. -/
lemma run_of_silent (hcarries : ∀ x ∈ packets, x.1.Carries x.2)
    (hsilent : ∀ x ∈ packets, x.2.rdnss = []) (htime : ∀ x ∈ packets, s.expire x.1.final = s) :
    run (Rptra6.receive env) (packets.map Prod.fst) (some s) = some s := by
  induction packets with
  | nil => rfl
  | cons x packets ih =>
    obtain ⟨hx, hcarries⟩ := forall_mem_cons.1 hcarries
    obtain ⟨hnone, hsilent⟩ := forall_mem_cons.1 hsilent
    obtain ⟨hkeep, htime⟩ := forall_mem_cons.1 htime
    have hreceive : Rptra6.receive env (some s) x.1 = some s := by
      rw [hx.receive env s, hnone]
      exact congrArg some hkeep
    rw [map_cons, run_cons, hreceive]
    exact ih hcarries hsilent htime

end Packets

/-! ### The last option -/

/-- The lines for some resolvers. -/
def nameservers (names : List Bytes) : Bytes :=
  names.flatMap fun name => ascii "nameserver " ++ name ++ ascii "\n"

/-- The file lists exactly the given resolvers, and the list in memory holds the same. -/
def Lists (s : State) (names : List Bytes) : Prop :=
  s.resolv = some (nameservers names) ∧ s.dnscurr = names ++ List.replicate (nDns - names.length) []

section Last

variable {env : Env}

lemma Filled.fileText {rows : Rows} {names : List Bytes} (h : Filled rows names) :
    fileText rows = nameservers names := by
  have htake : rows.takeWhile (· ≠ []) = names := by
    rw [h.rows, takeWhile_append_of_pos fun name hname => by simpa using (h.name name hname).1]
    cases nDns - names.length with
    | zero => simp
    | succ n => simp [replicate_succ]
  unfold Rptra6.fileText nameservers
  rw [htake]

/-- After advertisements with options, the list and the file are those of the last option if and
only if no option before it in its advertisement is about more resolvers. -/
theorem lists_last_option_iff (henv : env.Documented) (resolv : Option Bytes)
    (before after : List (Packet × Advert)) (p : Packet) (ad : Advert)
    (hcarries : ∀ x ∈ before ++ (p, ad) :: after, x.1.Carries x.2)
    (hfits : ∀ x ∈ before ++ (p, ad) :: after, ∀ d ∈ x.2.rdnss, d.2.Fits env)
    (earlier : List (ℕ × Rdnss)) (last : ℕ × Rdnss) (hlast : ad.rdnss = earlier ++ [last])
    (hafter : ∀ x ∈ after, x.2.rdnss = [])
    (htime : last.2.lifetime.toNat ≠ 0 → ∀ x ∈ (p, ad) :: after,
      x.1.final ≤ p.now last.1 + lifetimeOf last.2.lifetime.toNat) :
    ∃ s, run (receive env) ((before ++ (p, ad) :: after).map Prod.fst) (some (initial resolv)) =
        some s ∧
      (Lists s (last.2.names env) ↔
        ∀ d ∈ earlier, (d.2.names env).length ≤ (last.2.names env).length) := by
  obtain ⟨hbefore, hrest⟩ := forall_mem_append.1 hcarries
  obtain ⟨hp, hcarriesAfter⟩ := forall_mem_cons.1 hrest
  obtain ⟨hfitsBefore, hfitsRest⟩ := forall_mem_append.1 hfits
  have hfitsLast := hfitsRest (p, ad) mem_cons_self
  rw [hlast] at hfitsLast
  obtain ⟨hfitsEarlier, hfitLast⟩ := forall_mem_append.1 hfitsLast
  have hinitial : Sound (initial resolv) := .inl rfl
  obtain ⟨s₁, hs₁, hsound₁⟩ := hinitial.run henv hbefore hfitsBefore
  obtain ⟨y, names, hy, hsound, hfilled, hlength⟩ :=
    foldlM_announce (p := p) henv hfitsEarlier (x := (s₁, List.replicate nDns [])) hsound₁
      filled_nil
  obtain ⟨z, hz, hshows, hfilled', hexpires⟩ :=
    announce_eq (p := p) henv (hfitLast last (mem_singleton_self last)) hsound hfilled
  have hkeep : ∀ x ∈ (p, ad) :: after, z.1.expire x.1.final = z.1 := by
    intro x hx
    unfold State.expire
    refine if_neg ?_
    rintro ⟨hne, hlt⟩
    rw [hexpires] at hne hlt
    split at hne
    · exact hne rfl
    · next hlifetime =>
      rw [if_neg hlifetime] at hlt
      have hle := htime hlifetime x hx
      omega
  have hreceive : receive env (some s₁) p = some z.1 := by
    rw [hp.receive env s₁, hlast, foldlM_append, hy]
    change ((List.foldlM (announce env p) y [last]).map fun x => x.1.expire p.final) = some z.1
    rw [foldlM_cons, hz]
    exact congrArg some (hkeep (p, ad) mem_cons_self)
  refine ⟨z.1, ?_, ?_⟩
  · rw [map_append, run_append, hs₁, map_cons, run_cons, hreceive]
    exact run_of_silent hcarriesAfter hafter fun x hx => hkeep x (mem_cons_of_mem _ hx)
  · have hfew : (∀ d ∈ earlier, (d.2.names env).length ≤ (last.2.names env).length) ↔
        names.drop (last.2.names env).length = [] := by
      rw [drop_eq_nil_iff, hlength]
      simp
    rw [hfew]
    unfold Lists
    rw [hshows.dnscurr, hshows.resolv, hfilled'.fileText, hfilled'.rows]
    constructor
    · rintro ⟨-, hrows⟩
      rw [append_assoc] at hrows
      have hempty := append_cancel_left hrows
      refine eq_nil_iff_forall_not_mem.mpr fun name hname => ?_
      have hmem : name ∈ List.replicate (nDns - (last.2.names env).length) ([] : Bytes) := by
        rw [← hempty]
        exact mem_append_left _ hname
      exact (hfilled.name name (mem_of_mem_drop hname)).1 (eq_of_mem_replicate hmem)
    · intro hnil
      rw [hnil, append_nil]
      exact ⟨rfl, rfl⟩

end Last

/-- An environment in which an address is printed by its last byte. -/
def plainEnv : Env where
  inetNtop := fun addr => ascii "::" ++ hexText 2 (addr.getD 15 0).toNat
  interfaceName := none
  updateCmd := false

/-- An option with one resolver or two. -/
def resolvers (first : UInt8) (second : Option UInt8) : Rdnss where
  reserved := 0
  lifetime := 600
  addrs := (first :: second.toList).map fun b => List.replicate 15 0 ++ [b]
  addrs_ne_nil := List.cons_ne_nil _ _
  length_addrs := by cases second <;> simp
  length_addr := by
    intro addr haddr
    obtain ⟨b, -, rfl⟩ := List.mem_map.mp haddr
    rfl

/-- An advertisement with two options. -/
def twoOptions (first : UInt8) (second : Option UInt8) (third : UInt8) : Advert where
  header := List.replicate 15 0
  options := [.rdnss (resolvers first second), .rdnss (resolvers third none)]
  length_header := rfl

/-- The advertisement as a packet. -/
def Advert.packet (ad : Advert) : Packet :=
  ⟨fun k => ad.bytes.getD k 0, ad.bytes.length, fun _ => 0, 0⟩

lemma Advert.carries_packet (ad : Advert) : ad.packet.Carries ad := ⟨holds_getD [] ad.bytes, rfl⟩

/-- With one resolver in each of two options, the last one is listed. -/
theorem lists_last_option_single :
    ∃ s, run (receive plainEnv) [(twoOptions 17 none 18).packet] (some (initial none)) = some s ∧
      Lists s [ascii "::12"] := by
  have hdocumented : plainEnv.Documented := fun addr => ⟨58, _, rfl, by decide⟩
  have hfits (d : Rdnss) : d.Fits plainEnv := by
    intro name hname
    obtain ⟨addr, rfl⟩ := Rdnss.exists_of_mem_names hname
    exact (by decide : 4 < 46)
  obtain ⟨s, hrun, hiff⟩ := lists_last_option_iff hdocumented none [] []
    (twoOptions 17 none 18).packet (twoOptions 17 none 18)
    (forall_mem_singleton.mpr (Advert.carries_packet _)) (fun _ _ d _ => hfits d.2)
    [(16, resolvers 17 none)] (40, resolvers 18 none) rfl nofun
    (fun _ => forall_mem_singleton.mpr (by decide))
  exact ⟨s, hrun, hiff.mpr (by decide)⟩

/-- A second option with one resolver leaves the second resolver of the first option. -/
theorem second_option_keeps_resolver :
    ∃ s, run (receive plainEnv) [(twoOptions 17 (some 18) 19).packet] (some (initial none)) =
        some s ∧
      s.resolv = some (ascii "nameserver ::13\nnameserver ::12\n") ∧
      ¬Lists s [ascii "::13"] := by
  have hrun : (run (receive plainEnv) [(twoOptions 17 (some 18) 19).packet]
      (some (initial none))).map State.resolv =
        some (some (ascii "nameserver ::13\nnameserver ::12\n")) := by decide +kernel
  obtain ⟨s, hs, hresolv⟩ := Option.map_eq_some_iff.mp hrun
  refine ⟨s, hs, hresolv, ?_⟩
  rintro ⟨hlists, -⟩
  rw [hresolv] at hlists
  exact absurd hlists (by decide +kernel)

end AtlasProbe.Rptra6
