import AtlasProbe.Httppost.Main

/-!
# Deleted files have been delivered

What `httppost` deletes after the exchange are the files of the directory, which it has opened and
sent under the same names (`Sent`), and the file that was given by its name.  That file is opened
and sent under the name that was given, but deleted under the rebased name.  `Outcome` is what has
been done in the end (`outcome_exchange`), and `Chosen` and `Fitting` are what holds while a
directory is read.
-/

namespace AtlasProbe.Httppost

open List Libbb
open CString (ofBuffer bytes)
open Prod (fst snd)

/-! ### The list of a directory -/

section Directory

variable {env : Env} {list text dirName : Bytes} {start k maxSize : ℕ} {d d' : Dir}
  {chosen : List (CString × ℕ)} {name : CString} (files : List CString)

/-- The names in a list, each with a zero behind it. -/
def packed (files : List CString) : Bytes := files.flatMap fun p => p.bytes ++ [0]

lemma ofBuffer_append (p : CString) (rest : Bytes) :
    ofBuffer (p.bytes ++ 0 :: rest) = p := by
  unfold ofBuffer
  simp only [(takeWhile_ne p.zero_notMem).2]

/-- The names are found again in the list. -/
lemma strings_packed (hne : ∀ p ∈ files, p.bytes ≠ []) (rest : Bytes) {n : ℕ}
    (hn : files.length < n) : strings n (packed files ++ 0 :: rest) = some files := by
  induction files generalizing n with
  | nil =>
    obtain _ | n := n
    · cases hn
    · rfl
  | cons p files ih =>
    obtain _ | n := n
    · cases hn
    obtain ⟨hp, hfiles⟩ := forall_mem_cons.mp hne
    have hlist : packed (p :: files) ++ 0 :: rest =
        p.bytes ++ 0 :: (packed files ++ 0 :: rest) := by
      rw [packed, flatMap_cons, append_assoc, append_assoc]
      rfl
    have hdrop : (p.bytes ++ 0 :: (packed files ++ 0 :: rest)).drop (p.length + 1) =
        packed files ++ 0 :: rest := by
      rw [← drop_drop, CString.length, drop_left]
      rfl
    rw [hlist, strings]
    simp only [ofBuffer_append]
    rw [hdrop, if_neg, if_neg hp, ih hfiles (by simpa using hn)]
    rw [length_append, length_cons, CString.length]
    omega

/-- The files that have been chosen, with their sizes, are in the list. -/
structure Chosen (env : Env) (d : Dir) (chosen : List (CString × ℕ)) : Prop where
  room : d.currsize ≤ d.list.length
  list : d.list.take d.currsize = packed (chosen.map fst)
  ne_nil : ∀ p ∈ chosen.map fst, p.bytes ≠ []
  len : d.len = (chosen.map snd).sum
  stat : ∀ p ∈ chosen, ∃ k sb, env.stat k p.1.bytes = some sb ∧ sb.size = p.2

lemma length_grow (list : Bytes) : (grow env list).length = list.length + 4096 := by
  rw [grow, length_append, length_map, length_range]

/-- The name of an entry. -/
def entryPath (dirName : Bytes) (hzero : 0 ∉ dirName) (name : CString) : CString where
  bytes := dirName ++ ascii "/" ++ name.bytes
  zero_notMem := by
    rw [List.mem_append, List.mem_append, not_or, not_or]
    exact ⟨⟨hzero, by decide⟩, name.zero_notMem⟩

lemma length_entryPath (hzero : 0 ∉ dirName) (name : CString) :
    (entryPath dirName hzero name).length = dirName.length + 1 + name.length := by
  unfold entryPath CString.length
  rw [length_append, length_append]
  rfl

/-- The name that `do_dir` puts together, if it fits. -/
lemma path_eq (hzero : 0 ∉ dirName) {size : ℕ} (h : dirName.length + 1 + name.length + 1 ≤ size) :
    strlcat size (strlcat size (strlcpy size dirName) (ascii "/")) name.bytes =
      (entryPath dirName hzero name).bytes := by
  have hslash : (ascii "/").length = 1 := rfl
  unfold CString.length at h
  have hfront : strlcat size dirName (ascii "/") = dirName ++ ascii "/" := strlcat_of_lt (by omega)
  rw [strlcpy_of_lt (by omega), hfront]
  refine strlcat_of_lt ?_
  rw [length_append]
  omega

/-- The buffer has room for the name of an entry, and keeps what is in it. -/
lemma room_of_grow (env : Env) {len : ℕ} (hroom : d.currsize ≤ d.list.length) (hlen : len ≤ 4096) :
    ∃ list, (if d.currsize + len > d.list.length then grow env d.list else d.list) = list ∧
      d.currsize + len ≤ list.length ∧ list.take d.currsize = d.list.take d.currsize := by
  split_ifs with hfull
  · refine ⟨_, rfl, ?_, ?_⟩
    · rw [length_grow]
      omega
    · rw [grow, take_append_of_le_length hroom]
  · exact ⟨_, rfl, Nat.le_of_not_lt hfull, rfl⟩

/-- What has been chosen stays when something is written behind it. -/
lemma Chosen.store (h : Chosen env d chosen) (hle : d.currsize ≤ list.length)
    (htake : list.take d.currsize = d.list.take d.currsize) (unlinked : List Bytes) :
    Chosen env { d with list := AtlasProbe.store list d.currsize text, unlinked := unlinked }
      chosen := by
  refine ⟨?_, ?_, h.ne_nil, h.len, h.stat⟩
  · dsimp only
    rw [length_store hle]
    omega
  · dsimp only
    rw [take_store hle le_rfl, htake, h.list]

/-- A name that is written behind what has been chosen is chosen. -/
lemma Chosen.choose (h : Chosen env d chosen) {p : CString} {sb : Stat}
    (hstat : env.stat k p.bytes = some sb) (hne : p.bytes ≠ [])
    (hle : d.currsize ≤ list.length)
    (htake : list.take d.currsize = d.list.take d.currsize) (tot count : ℕ) :
    Chosen env ⟨AtlasProbe.store list d.currsize (p.bytes ++ [0]), d.currsize + (p.length + 1), tot,
      d.len + sb.size, count, d.unlinked⟩ (chosen ++ [(p, sb.size)]) := by
  refine ⟨?_, ?_, ?_, ?_, ?_⟩
  · dsimp only
    rw [length_store hle, length_append, length_singleton]
    exact le_max_left _ _
  · have hadd := @take_store_add list (p.bytes ++ [0]) _ hle
    rw [length_append, length_singleton] at hadd
    rw [CString.length, hadd, htake, h.list]
    simp [packed]
  · rw [map_append, forall_mem_append]
    exact ⟨h.ne_nil, by simpa using hne⟩
  · rw [h.len, map_append]
    simp
  · rw [forall_mem_append]
    exact ⟨h.stat, by simpa using ⟨k, sb, hstat, rfl⟩⟩

/-- With room for its name, an entry is chosen or it leaves what has been chosen. -/
lemma Chosen.dirEntry (hzero : 0 ∉ dirName) (hname : dirName.length + name.length + 2 ≤ 4096)
    {stop : Bool} (h : Chosen env d chosen)
    (hstep : dirEntry env dirName maxSize k name d = .ok (stop, d')) :
    ∃ chosen', Chosen env d' chosen' := by
  have hpath := length_entryPath hzero name
  obtain ⟨list, hlist, hle, htake⟩ := room_of_grow env h.room
    (show dirName.length + 1 + name.length + 1 ≤ 4096 by omega)
  unfold Httppost.dirEntry at hstep
  dsimp only at hstep
  rw [hlist, if_neg (by omega), path_eq hzero (by omega)] at hstep
  have hne : (entryPath dirName hzero name).bytes ≠ [] := by
    simp [entryPath, ascii]
  rw [← hpath] at hstep
  generalize entryPath dirName hzero name = p at hstep hpath hne
  split at hstep
  · cases hstep
  · next sb hstat =>
    have hroom : d.currsize ≤ list.length := by omega
    split_ifs at hstep <;> cases hstep
    · exact ⟨chosen, h.store hroom htake d.unlinked⟩
    · exact ⟨chosen, h.store hroom htake _⟩
    · exact ⟨chosen, h.store hroom htake _⟩
    · exact ⟨_, h.choose hstat hne hroom htake _ _⟩

/-- What every entry keeps holds when the directory has been read; then the empty string is put
behind the names. -/
lemma doDir_invariant {I : Dir → Prop} (hstart : I ⟨[], 0, start, 0, 0, []⟩)
    (hentry : ∀ names, env.opendir dirName = some names → ∀ name ∈ names, ∀ k stop d d',
      dirEntry env dirName maxSize k name d = .ok (stop, d') → I d → I d')
    (h : doDir env dirName start maxSize = .ok d) :
    ∃ d₁ list, I d₁ ∧
      (if d₁.currsize + 1 > d₁.list.length then grow env d₁.list else d₁.list) = list ∧
      d = { d₁ with list := AtlasProbe.store list d₁.currsize [0] } := by
  have hloop {names : List CString} {k : ℕ} {d d' : Dir} (hnames : ∀ name ∈ names,
      ∀ k stop d d', dirEntry env dirName maxSize k name d = .ok (stop, d') → I d → I d')
      (hloop : dirLoop env dirName maxSize k names d = .ok d') (hd : I d) : I d' := by
    induction names generalizing k d with
    | nil =>
      cases hloop
      exact hd
    | cons name names ih =>
      obtain ⟨hname, hrest⟩ := forall_mem_cons.mp hnames
      unfold dirLoop at hloop
      split at hloop
      · cases hloop
      · next hstep =>
        cases hloop
        exact hname _ _ _ _ hstep hd
      · next hstep => exact ih hrest hloop (hname _ _ _ _ hstep hd)
  unfold doDir at h
  split at h
  · cases h
  · next names hopen =>
    split at h
    · cases h
    · next d₁ hall =>
      dsimp only at h
      split_ifs at h <;> cases h
      · next hfull _ => exact ⟨d₁, _, hloop (hentry _ hopen) hall hstart, if_pos hfull, rfl⟩
      · next hfull _ => exact ⟨d₁, _, hloop (hentry _ hopen) hall hstart, if_neg hfull, rfl⟩

lemma length_le_packed : files.length ≤ (packed files).length := by
  induction files with
  | nil => exact le_rfl
  | cons p files ih =>
    rw [packed, flatMap_cons, ← packed, length_append, length_append]
    rw [length_cons, length_singleton]
    omega

/-- With room for all names, the list has the names of files whose sizes add up to the length. -/
lemma strings_doDir (hzero : 0 ∉ dirName)
    (hshort : ∀ names, env.opendir dirName = some names →
      ∀ name ∈ names, dirName.length + name.length + 2 ≤ 4096)
    (h : doDir env dirName start maxSize = .ok d) :
    ∃ chosen : List (CString × ℕ), strings d.list.length d.list = some (chosen.map fst) ∧
      d.len = (chosen.map snd).sum ∧
      ∀ p ∈ chosen, ∃ k sb, env.stat k p.1.bytes = some sb ∧ sb.size = p.2 := by
  obtain ⟨d₁, list, ⟨chosen, hchosen⟩, hlist, rfl⟩ := doDir_invariant
    (I := fun d => ∃ chosen, Chosen env d chosen) ⟨[], le_rfl, rfl, nofun, rfl, nofun⟩
    (fun _ hopen name hname _ _ _ _ hstep ⟨_, hd⟩ =>
      hd.dirEntry hzero (hshort _ hopen name hname) hstep) h
  obtain ⟨_, rfl, hle, htake⟩ := room_of_grow env hchosen.room (show 1 ≤ 4096 by decide)
  rw [hlist] at hle htake
  refine ⟨chosen, ?_, hchosen.len, hchosen.stat⟩
  have hstore : store list d₁.currsize [0] =
      packed (chosen.map fst) ++ 0 :: list.drop (d₁.currsize + 1) := by
    rw [store, htake, hchosen.list, append_assoc]
    rfl
  rw [hstore]
  refine strings_packed _ hchosen.ne_nil _ ?_
  have hlength := length_le_packed (chosen.map fst)
  rw [length_append, length_cons]
  omega

/-- A regular file that takes up more than half of a post. -/
def Oversized (env : Env) (maxSize : ℕ) (path : Bytes) : Prop :=
  ∃ k sb, env.stat k path = some sb ∧ sb.regular = true ∧ maxSize / 2 < sb.size

/-- What holds while the entries are read; `start` is the size of the other files. -/
structure Fitting (env : Env) (maxSize start : ℕ) (d : Dir) : Prop where
  total : d.currTotSize = start + d.len
  fits : d.currTotSize ≤ maxSize
  unlinked : ∀ path ∈ d.unlinked, Oversized env maxSize path

lemma Fitting.dirEntry {stop : Bool} (h : Fitting env maxSize start d)
    (hstep : dirEntry env dirName maxSize k name d = .ok (stop, d')) :
    Fitting env maxSize start d' := by
  unfold Httppost.dirEntry at hstep
  dsimp only at hstep
  generalize ite (d.currsize + _ > _) (grow env d.list) d.list = list at hstep
  split_ifs at hstep
  split at hstep
  · cases hstep
  · next sb hstat =>
    split_ifs at hstep with hregular hfull hlarge <;> cases hstep
    · exact { h with }
    · refine { h with unlinked := fun path hpath => ?_ }
      rcases mem_append.mp hpath with hpath | hpath
      · exact h.unlinked path hpath
      · rw [mem_singleton.mp hpath]
        exact ⟨k, sb, hstat, by simpa using hregular, hlarge⟩
    · exact { h with }
    · have htotal : d.currTotSize + sb.size = start + (d.len + sb.size) := by
        rw [h.total, Nat.add_assoc]
      exact ⟨htotal, Nat.le_of_not_lt hfull, h.unlinked⟩

end Directory

/-! ### The parts of the main program -/

section Parts

variable (env : Env) (cfg : Config)

/-- The file under this path, if there is one. -/
def openedFile (k : ℕ) (path : Option Bytes) : Option (Bytes × Handle) := do
  let path ← path
  let h ← env.openFile k path
  pure (path, h)

/-- The header or the footer. -/
def extraFile (k : ℕ) (name : Option CString) : Option (Bytes × Handle) :=
  openedFile env k (name.bind (rebasedFile cfg))

/-- The file that is given by its name. -/
def givenFile (k : ℕ) (name : Option CString) : Option (Bytes × Handle) :=
  openedFile env k (name.map bytes)

/-- The files of the directory, and their size. -/
def dirFiles (name : Option CString) (cLength maxpostsize : ℕ) : List CString × ℕ :=
  match name.bind (rebasedDir cfg) with
  | none => ([], 0)
  | some fn =>
    match doDir env fn cLength maxpostsize with
    | .error _ => ([], 0)
    | .ok d => ((strings d.list.length d.list).getD [], d.len)

/-- The file under its rebased name, if it can be deleted. -/
def deletedName (name : Option CString) : Option Bytes :=
  name.bind fun name => rebasedValidatedFilename false cfg.spooldir name dataOutRel

/-- A file that has been sent. -/
def sentOf (f : Option (Bytes × Handle)) : List (Bytes × Bytes) :=
  f.toList.map fun x => (x.1, x.2.data)

/-- What has been sent are the files with these names, each opened and read to its end. -/
structure Sent (names : List Bytes) (sent : List (Bytes × Bytes)) : Prop where
  names : sent.map fst = names
  data : ∀ x ∈ sent, ∃ k h, env.openFile k x.1 = some h ∧ h.readOk = true ∧ h.data = x.2

variable {env cfg} {s : Post} (k : ℕ) (name : Option CString) (files : List CString)
  (path : Bytes)

lemma mem_openedFile {k : ℕ} {path : Option Bytes} {x : Bytes × Handle} :
    x ∈ openedFile env k path ↔ path = some x.1 ∧ env.openFile k x.1 = some x.2 := by
  obtain ⟨p, h⟩ := x
  simp [openedFile, Option.bind_eq_some_iff]

lemma openFile_of_openedFile {k : ℕ} {path : Option Bytes} :
    ∀ x ∈ openedFile env k path, env.openFile k x.1 = some x.2 :=
  fun _ hx => (mem_openedFile.mp hx).2

lemma wp_openRegular :
    Wp (openRegular env k path) s (fun h s' => s' = s ∧ env.openFile k path = some h)
      fun _ s' => s' = s := by
  unfold openRegular
  cases env.openFile k path with
  | none => exact rfl
  | some h =>
    refine wp_ite (fun _ => ?_) fun _ => ?_
    · exact ⟨rfl, rfl⟩
    · exact rfl

lemma wp_openExtra :
    Wp (openExtra env cfg k name) s (fun f s' => s' = s ∧ f = extraFile env cfg k name)
      fun _ s' => s' = s := by
  unfold openExtra extraFile
  cases name with
  | none => exact ⟨rfl, rfl⟩
  | some name =>
    rw [Option.bind_some]
    dsimp only
    cases rebasedFile cfg name with
    | none => exact rfl
    | some fn =>
      refine (wp_openRegular k fn).bind ?_
      rintro h s' ⟨rfl, hopen⟩
      exact ⟨rfl, (mem_openedFile.mpr ⟨rfl, hopen⟩).symm⟩

lemma wp_openPostFile :
    Wp (openPostFile env cfg k name) s
      (fun f s' => s' = s ∧ f = givenFile env k name ∧ ∀ p ∈ name, p.bytes ∈ f.toList.map fst)
      fun _ s' => s' = s := by
  unfold openPostFile
  cases name with
  | none => exact ⟨rfl, rfl, nofun⟩
  | some name =>
    dsimp only
    cases rebasedFile cfg name with
    | none => exact rfl
    | some fn =>
      refine (wp_openRegular k name.bytes).bind ?_
      rintro h s' ⟨rfl, hopen⟩
      exact ⟨rfl, (mem_openedFile.mpr ⟨rfl, hopen⟩).symm, by simp⟩

/-- What stays the same before anything is sent. -/
def SameExchange (s s' : Post) : Prop :=
  s'.sent = s.sent ∧ s'.after = s.after ∧ s'.requested = s.requested

lemma wp_openDir (cLength maxpostsize : ℕ) :
    Wp (openDir env cfg name cLength maxpostsize) s
      (fun r s' => SameExchange s s' ∧ r = dirFiles env cfg name cLength maxpostsize)
      fun _ s' => SameExchange s s' := by
  unfold openDir dirFiles
  cases name with
  | none => exact ⟨⟨rfl, rfl, rfl⟩, rfl⟩
  | some name =>
    rw [Option.bind_some]
    dsimp only
    cases rebasedDir cfg name with
    | none => exact ⟨rfl, rfl, rfl⟩
    | some fn =>
      dsimp only
      cases doDir env fn cLength maxpostsize with
      | error e => exact ⟨rfl, rfl, rfl⟩
      | ok d =>
        dsimp only
        cases strings d.list.length d.list with
        | none => exact ⟨rfl, rfl, rfl⟩
        | some files => exact ⟨⟨rfl, rfl, rfl⟩, rfl⟩

lemma wp_writeToTcpFd (h : Handle) :
    Wp (writeToTcpFd env k path h) s
      (fun _ s' => s' = { s with sent := s.sent ++ [(path, h.data)] } ∧ h.readOk = true)
      fun _ s' => s' = s := by
  refine wp_ite (fun hok => ?_) fun _ => ?_
  · exact ⟨rfl, (Bool.and_eq_true_iff.mp hok).2⟩
  · exact rfl

lemma wp_sendFile (f : Option (Bytes × Handle)) :
    Wp (sendFile env k f) s
      (fun _ s' => s' = { s with sent := s.sent ++ sentOf f } ∧ ∀ x ∈ f, x.2.readOk = true)
      fun _ s' => s' = s := by
  unfold sendFile sentOf
  cases f with
  | none =>
    refine ⟨?_, nofun⟩
    simp
  | some x =>
    refine (wp_writeToTcpFd k x.1 x.2).mono ?_ fun _ _ h => h
    rintro _ s' ⟨rfl, hread⟩
    exact ⟨rfl, by simpa using hread⟩

/-- The files of the directory are sent, or some of them. -/
lemma wp_sendDir :
    Wp (sendDir env cfg k files) s
      (fun _ s' => ∃ sent, Sent env (files.map bytes) sent ∧ s' = { s with sent := s.sent ++ sent })
      fun _ s' => s'.after = s.after ∧ s'.requested = s.requested := by
  induction files generalizing k s with
  | nil => exact ⟨[], ⟨rfl, nofun⟩, by simp⟩
  | cons p files ih =>
    unfold sendDir
    cases rebasedEntry cfg p with
    | none => exact ⟨rfl, rfl⟩
    | some fn =>
      cases hopen : env.openFile k p.bytes with
      | none => exact ⟨rfl, rfl⟩
      | some h =>
        refine (wp_writeToTcpFd k p.bytes h).seq ?_ ?_
        · rintro e s' rfl
          exact ⟨rfl, rfl⟩
        · rintro _ s' ⟨rfl, hread⟩
          refine (ih (k + 1)).mono ?_ fun _ _ h => h
          rintro _ s' ⟨sent, hsent, rfl⟩
          refine ⟨(p.bytes, h.data) :: sent, ⟨?_, ?_⟩, by simp⟩
          · rw [map_cons, map_cons, hsent.names]
          · refine forall_mem_cons.mpr ⟨⟨k, h, hopen, hread, rfl⟩, hsent.data⟩

lemma wp_getResult (outputFile : Option CString) :
    Wp (getResult env cfg outputFile) s
      (fun foundOk s' => s' = s ∧ (foundOk = true → Accepted env.reply)) fun _ s' => s' = s := by
  unfold getResult
  cases hresult : checkResult env.reply with
  | none => exact rfl
  | some rest =>
    dsimp only
    cases hheaders : eatHeaders rest with
    | none => exact rfl
    | some pair =>
      obtain ⟨hd, input⟩ := pair
      have hcopy : Wp (getResult.copyReply env hd input) s
          (fun foundOk s' => s' = s ∧ (foundOk = true → Accepted env.reply))
          fun _ s' => s' = s := by
        refine wp_ite (fun _ => rfl) fun _ => ?_
        cases hbody : copyBody env.ferror hd input with
        | none => exact rfl
        | some c =>
          obtain ⟨hdecodes, hfound⟩ := copyBody_spec hbody
          refine ⟨rfl, fun hok => ⟨status_of_checkResult hresult, rest, hd, input, hresult,
            hheaders, ?_⟩⟩
          rw [← hfound.mp hok]
          exact hdecodes
      cases outputFile with
      | none => exact hcopy
      | some name =>
        dsimp only
        cases rebasedValidatedFilename false cfg.spooldir name dataNewRel with
        | none => exact rfl
        | some fn => exact hcopy

lemma wp_deletePostFile :
    Wp (deletePostFile cfg name) s
      (fun _ s' => s' = { s with after := s.after ++ (deletedName cfg name).toList })
      fun _ s' => s' = s := by
  unfold deletePostFile deletedName
  cases name with
  | none =>
    refine (wp_pure _).mpr ?_
    simp
  | some name =>
    rw [Option.bind_some]
    dsimp only
    cases rebasedValidatedFilename false cfg.spooldir name dataOutRel with
    | none => exact rfl
    | some fn => exact rfl

lemma wp_deleteDir :
    Wp (deleteDir files) s
      (fun _ s' => s' = { s with after := s.after ++ files.map bytes })
      fun _ _ => False := by
  induction files generalizing s with
  | nil =>
    refine (wp_pure _).mpr ?_
    simp
  | cons p files ih =>
    unfold deleteDir unlinkAfter
    refine ih.mono ?_ fun _ _ h => h
    rintro _ s' rfl
    simp

end Parts

/-! ### The whole program -/

section Run

variable (env : Env) (cfg : Config) (o : Options) {k : ℕ}

/-- The files of the directory that are posted, and the size that is announced for them. -/
def postedDir : List CString × ℕ :=
  dirFiles env cfg o.postDir (sizeOf (extraFile env cfg 0 o.postHeader) +
    sizeOf (extraFile env cfg 1 o.postFooter) + sizeOf (givenFile env 2 o.postFile)) o.maxpostsize

/-- The names of the header, of the files of the directory and of the footer. -/
def otherNames : List Bytes :=
  (extraFile env cfg 0 o.postHeader).toList.map fst ++
    (postedDir env cfg o).1.map bytes ++ (extraFile env cfg 1 o.postFooter).toList.map fst

/-- The names of everything that is posted. -/
def postedNames : List Bytes :=
  (extraFile env cfg 0 o.postHeader).toList.map fst ++
    (givenFile env 2 o.postFile).toList.map fst ++
      (postedDir env cfg o).1.map bytes ++ (extraFile env cfg 1 o.postFooter).toList.map fst

/-- The size that is announced. -/
def announced : ℕ :=
  sizeOf (extraFile env cfg 0 o.postHeader) + sizeOf (givenFile env 2 o.postFile) +
    (postedDir env cfg o).2 + sizeOf (extraFile env cfg 1 o.postFooter)

/-- The whole request has been sent. -/
structure Request (s : Post) : Prop where
  sent : Sent env (postedNames env cfg o) s.sent
  given : ∀ p ∈ o.postFile, p.bytes ∈ postedNames env cfg o
  contentLength : s.contentLength = some (announced env cfg o)

/-- What has been done at the end: nothing was deleted, or the server has accepted the request. -/
structure Outcome (s : Post) : Prop where
  request : s.requested = true → Request env cfg o s
  after : s.after = [] ∨
    o.deleteFile = true ∧ Accepted env.reply ∧ s.requested = true ∧
      s.after = (deletedName cfg o.postFile).toList ++ (postedDir env cfg o).1.map bytes

variable {env cfg o} {name : Option CString} {s : Post}

lemma Sent.append {names names' : List Bytes} {sent sent' : List (Bytes × Bytes)}
    (h : Sent env names sent) (h' : Sent env names' sent') :
    Sent env (names ++ names') (sent ++ sent') := by
  refine ⟨by rw [map_append, h.names, h'.names], fun x hx => ?_⟩
  rcases mem_append.mp hx with hx | hx
  · exact h.data x hx
  · exact h'.data x hx

lemma sent_sentOf {f : Option (Bytes × Handle)}
    (hopen : ∀ x ∈ f, env.openFile k x.1 = some x.2) (hread : ∀ x ∈ f, x.2.readOk = true) :
    Sent env (f.toList.map fst) (sentOf f) := by
  cases f with
  | none => exact ⟨rfl, nofun⟩
  | some x =>
    refine ⟨rfl, ?_⟩
    rw [sentOf, Option.toList_some, map_singleton, forall_mem_singleton]
    exact ⟨k, x.2, hopen x rfl, hread x rfl, rfl⟩

/-- Before the request is complete. -/
lemma Outcome.of_unrequested (hafter : s.after = []) (hrequested : s.requested = false) :
    Outcome env cfg o s :=
  ⟨fun h => absurd h (by simp [hrequested]), .inl hafter⟩

/-- After the request, nothing is deleted unless the reply is `OK`. -/
lemma wp_reply (hrequest : Request env cfg o s) (hrequested : s.requested = true)
    (hafter : s.after = []) :
    Wp (do
      let foundOk ← getResult env cfg o.outputFile
      if o.deleteFile && foundOk then
        deletePostFile cfg o.postFile
        deleteDir (postedDir env cfg o).1) s
      (fun _ => Outcome env cfg o) fun _ => Outcome env cfg o := by
  have hout : Outcome env cfg o s := ⟨fun _ => hrequest, .inl hafter⟩
  refine (wp_getResult o.outputFile).seq ?_ ?_
  · rintro _ s' rfl
    exact hout
  rintro foundOk s' ⟨rfl, haccepted⟩
  refine wp_ite (fun hdelete => ?_) fun _ => hout
  obtain ⟨hdelete, hfound⟩ := Bool.and_eq_true_iff.mp hdelete
  refine (wp_deletePostFile o.postFile).seq ?_ ?_
  · rintro _ s' rfl
    exact hout
  rintro _ s' rfl
  refine (wp_deleteDir _).mono ?_ fun _ _ h => h.elim
  rintro _ s' rfl
  refine ⟨fun _ => ⟨hrequest.sent, hrequest.given, hrequest.contentLength⟩, .inr ?_⟩
  refine ⟨hdelete, haccepted hfound, hrequested, ?_⟩
  rw [hafter, nil_append]

theorem wp_httppostMain :
    Wp (httppostMain env cfg o) .start (fun _ => Outcome env cfg o) fun _ => Outcome env cfg o := by
  have hout : ∀ {s : Post}, SameExchange .start s → Outcome env cfg o s := fun h =>
    .of_unrequested h.2.1 h.2.2
  refine (wp_openExtra 0 o.postHeader).seq ?_ ?_
  · rintro _ s rfl
    exact hout ⟨rfl, rfl, rfl⟩
  rintro header s ⟨rfl, rfl⟩
  refine (wp_openExtra 1 o.postFooter).seq ?_ ?_
  · rintro _ s rfl
    exact hout ⟨rfl, rfl, rfl⟩
  rintro footer s ⟨rfl, rfl⟩
  refine (wp_openPostFile 2 o.postFile).seq ?_ ?_
  · rintro _ s rfl
    exact hout ⟨rfl, rfl, rfl⟩
  rintro file s ⟨rfl, rfl, hgiven⟩
  refine (wp_openDir o.postDir _ _).seq (fun _ _ => hout) ?_
  rintro ⟨files, dirLength⟩ s ⟨⟨hsent, hafter, hrequested⟩, hdir⟩
  obtain rfl : files = (postedDir env cfg o).1 := congrArg fst hdir
  obtain rfl : dirLength = (postedDir env cfg o).2 := congrArg snd hdir
  -- From here on an error leaves a request that is not complete.
  have herror : ∀ {s' : Post}, s'.after = s.after → s'.requested = s.requested →
      Outcome env cfg o s' := fun h h' => .of_unrequested (h.trans hafter) (h'.trans hrequested)
  refine wp_ite (fun _ => herror rfl rfl) fun _ => ?_
  refine (wp_sendFile 0 _).seq ?_ ?_
  · rintro _ s' rfl
    exact herror rfl rfl
  rintro _ s' ⟨rfl, hheader⟩
  refine (wp_sendFile 2 _).seq ?_ ?_
  · rintro _ s' rfl
    exact herror rfl rfl
  rintro _ s' ⟨rfl, hfile⟩
  refine (wp_sendDir 3 _).seq (fun _ _ h => herror h.1 h.2) ?_
  rintro _ s' ⟨sent, hdirSent, rfl⟩
  refine (wp_sendFile 1 _).seq ?_ ?_
  · rintro _ s' rfl
    exact herror rfl rfl
  rintro _ s' ⟨rfl, hfooter⟩
  refine wp_reply ⟨?_, fun p hp => ?_, rfl⟩ rfl hafter
  case refine_2 =>
    unfold postedNames
    simp only [mem_append]
    exact .inl (.inl (.inr (hgiven p hp)))
  have hall := (((sent_sentOf openFile_of_openedFile hheader).append
    (sent_sentOf openFile_of_openedFile hfile)).append hdirSent).append
      (sent_sentOf openFile_of_openedFile hfooter)
  have hstart : s.sent = [] := hsent
  rw [hstart]
  exact hall

/-- What has been done when `httppost` ends, whichever way it ends. -/
def exchange (env : Env) (cfg : Config) (o : Options) : Post :=
  match httppostMain env cfg o .start with
  | .ok _ s => s
  | .error _ s => s

lemma outcome_exchange (env : Env) (cfg : Config) (o : Options) :
    Outcome env cfg o (exchange env cfg o) := by
  have h : Wp (httppostMain env cfg o) .start (fun _ => Outcome env cfg o) _ := wp_httppostMain
  unfold exchange
  cases hrun : httppostMain env cfg o .start with
  | ok _ s => exact h.of_ok hrun
  | error _ s => exact h.of_error hrun

end Run

/-! ### What was delivered -/

section Delivery

variable (env : Env) (cfg : Config) (o : Options) {path : Bytes}

/-- The file was opened under this path, and everything that was in it was sent. -/
def Delivered (s : Post) (path : Bytes) : Prop :=
  ∃ k h, env.openFile k path = some h ∧ h.readOk = true ∧ (path, h.data) ∈ s.sent

/-- The file that is given by its name is deleted under this name, or under the name of another
file that is posted. -/
def SameName : Prop :=
  ∀ p ∈ o.postFile, ∀ r, rebasedValidatedFilename false cfg.spooldir p dataOutRel = some r →
    r = p.bytes ∨ r ∈ otherNames env cfg o

/-- The files do not change their sizes. -/
structure KeepSizes (size : Bytes → ℕ) : Prop where
  fstat : ∀ k path h, env.openFile k path = some h → h.stat.size = size path
  data : ∀ k path h, env.openFile k path = some h → h.readOk = true → h.data.length = size path
  stat : ∀ k path sb, env.stat k path = some sb → sb.size = size path

/-- No path of a file in the directory has more than 4095 bytes. -/
def ShortPaths : Prop :=
  ∀ p ∈ o.postDir, ∀ fn, rebasedDir cfg p = some fn →
    ∀ names, env.opendir fn = some names → ∀ name ∈ names, fn.length + name.length + 2 ≤ 4096

variable {env cfg o}

lemma Sent.delivered_iff {names : List Bytes} {s : Post} (h : Sent env names s.sent) :
    Delivered env s path ↔ path ∈ names := by
  rw [← h.names, mem_map]
  refine ⟨?_, ?_⟩
  · rintro ⟨k, f, -, -, hmem⟩
    exact ⟨_, hmem, rfl⟩
  · rintro ⟨x, hx, rfl⟩
    obtain ⟨k, f, hopen, hread, hdata⟩ := h.data x hx
    exact ⟨k, f, hopen, hread, hdata ▸ hx⟩

lemma mem_postedNames (h : path ∈ otherNames env cfg o) : path ∈ postedNames env cfg o := by
  unfold otherNames at h
  unfold postedNames
  simp only [mem_append] at h ⊢
  tauto

lemma mem_otherNames (h : path ∈ postedNames env cfg o) :
    path ∈ otherNames env cfg o ∨ ∃ p ∈ o.postFile, path = p.bytes := by
  unfold postedNames at h
  unfold otherNames
  simp only [mem_append] at h ⊢
  rcases h with ((h | h) | h) | h
  · exact .inl (.inl (.inl h))
  · obtain ⟨x, hx, rfl⟩ := mem_map.mp h
    obtain ⟨p, hp, hpath⟩ := Option.map_eq_some_iff.mp
      (mem_openedFile.mp (Option.mem_toList.mp hx)).1
    exact .inr ⟨p, hp, hpath.symm⟩
  · exact .inl (.inl (.inr h))
  · exact .inl (.inr h)

lemma postedDir_subset (h : path ∈ (postedDir env cfg o).1.map bytes) :
    path ∈ postedNames env cfg o := by
  refine mem_postedNames ?_
  unfold otherNames
  simp only [mem_append]
  exact .inl (.inr h)

/-- What is deleted has been delivered if and only if the names agree. -/
lemma Request.delivered_iff {s : Post} (h : Request env cfg o s) :
    (∀ path ∈ (deletedName cfg o.postFile).toList ++ (postedDir env cfg o).1.map bytes,
      Delivered env s path) ↔ SameName env cfg o := by
  simp only [h.sent.delivered_iff]
  refine ⟨fun hall p hp r hr => ?_, fun hsame path hpath => ?_⟩
  · have hdeleted : r ∈ (deletedName cfg o.postFile).toList := by
      rw [Option.mem_toList, Option.mem_def.mp hp]
      exact hr
    rcases mem_otherNames (hall r (mem_append_left _ hdeleted)) with hother | ⟨q, hq, heq⟩
    · exact .inr hother
    · exact .inl (Option.mem_unique hq hp ▸ heq)
  · rcases mem_append.mp hpath with hdeleted | hdir
    · rw [Option.mem_toList] at hdeleted
      obtain ⟨p, hp, hr⟩ := Option.bind_eq_some_iff.mp hdeleted
      rcases hsame p hp path hr with rfl | hother
      · exact h.given p hp
      · exact mem_postedNames hother
    · exact postedDir_subset hdir

/-! ### The announced length -/

lemma zero_notMem_rebasedDir {name : CString} {fn : Bytes}
    (h : rebasedDir cfg name = some fn) : 0 ∉ fn := by
  have haux : ∀ rel : CString, rel.charAt 0 ≠ 47 →
      rebasedValidatedDir false cfg.spooldir name rel = some fn → 0 ∉ fn := by
    intro rel hrel h
    rcases eq_or_rebased_of_accepted hrel h with rfl | ⟨rest, hname, rfl⟩
    · exact name.zero_notMem
    · intro hzero
      rcases mem_append.mp hzero with hzero | hzero
      · exact cfg.spooldir.zero_notMem hzero
      · exact name.zero_notMem (hname ▸ mem_append_right _ hzero)
  unfold rebasedDir at h
  cases hout : rebasedValidatedDir false cfg.spooldir name dataOutRel with
  | some r =>
    rw [hout] at h
    exact haux dataOutRel (by decide) (hout.trans h)
  | none =>
    rw [hout] at h
    exact haux dataStorageRel (by decide) h

namespace KeepSizes

variable {size : Bytes → ℕ} (hkeep : KeepSizes env size)

include hkeep

lemma sizeOf_eq {k : ℕ} {f : Option (Bytes × Handle)}
    (hopen : ∀ x ∈ f, env.openFile k x.1 = some x.2) :
    sizeOf f = ((f.toList.map fst).map size).sum := by
  cases f with
  | none => rfl
  | some x =>
    have hsize := hkeep.fstat k x.1 x.2 (hopen x rfl)
    simpa [sizeOf] using hsize

/-- The files of the directory have the size that `do_dir` has added up. -/
lemma dirFiles_eq {name : Option CString} {cLength maxpostsize : ℕ}
    (hshort : ∀ p ∈ name, ∀ fn, rebasedDir cfg p = some fn → ∀ names,
      env.opendir fn = some names → ∀ entry ∈ names, fn.length + entry.length + 2 ≤ 4096) :
    (dirFiles env cfg name cLength maxpostsize).2 =
      (((dirFiles env cfg name cLength maxpostsize).1.map bytes).map size).sum := by
  unfold dirFiles
  cases hfn : name.bind (rebasedDir cfg) with
  | none => rfl
  | some fn =>
    obtain ⟨p, hp, hrebased⟩ := Option.bind_eq_some_iff.mp hfn
    dsimp only
    cases hdir : doDir env fn cLength maxpostsize with
    | error e => rfl
    | ok d =>
      obtain ⟨chosen, hstrings, hlen, hstat⟩ :=
        strings_doDir (zero_notMem_rebasedDir hrebased) (hshort p hp fn hrebased) hdir
      dsimp only
      rw [hstrings, hlen, Option.getD_some, map_map, map_map]
      refine congrArg List.sum (map_congr_left fun x hx => ?_)
      obtain ⟨k, sb, hsb, hsize⟩ := hstat x hx
      rw [← hsize]
      exact hkeep.stat k x.1.bytes sb hsb

lemma sent_eq {names : List Bytes} {sent : List (Bytes × Bytes)}
    (h : Sent env names sent) : (sent.map fun x => x.2.length).sum = (names.map size).sum := by
  rw [← h.names, map_map]
  refine congrArg List.sum (map_congr_left fun x hx => ?_)
  obtain ⟨k, f, hopen, hread, hdata⟩ := h.data x hx
  rw [← hdata]
  exact hkeep.data k x.1 f hopen hread

/-- The length that is announced is the length of what is sent. -/
lemma announced_eq (hshort : ShortPaths env cfg o) {s : Post} (h : Request env cfg o s) :
    s.contentLength = some (s.sent.map fun x => x.2.length).sum := by
  rw [h.contentLength, hkeep.sent_eq h.sent, announced, postedNames, postedDir,
    hkeep.dirFiles_eq hshort]
  simp only [extraFile, givenFile, hkeep.sizeOf_eq openFile_of_openedFile, map_append, sum_append]

end KeepSizes

/-- Only after an exchange in which the server said `OK` are files deleted, and they are the files
that were sent if and only if the name that was given for the file is the one under which it is
deleted.  If no file changes its size, the announced length is the length of what was sent. -/
theorem deleted_delivered_iff (env : Env) (cfg : Config) (o : Options) :
    (¬Accepted env.reply → (exchange env cfg o).after = []) ∧
      ((exchange env cfg o).after ≠ [] →
        o.deleteFile = true ∧ Accepted env.reply ∧
          ((∀ path ∈ (exchange env cfg o).after, Delivered env (exchange env cfg o) path) ↔
            SameName env cfg o)) ∧
      (∀ size, KeepSizes env size → ShortPaths env cfg o → (exchange env cfg o).requested = true →
        (exchange env cfg o).contentLength =
          some ((exchange env cfg o).sent.map fun x => x.2.length).sum) := by
  obtain ⟨hrequest, hafter⟩ := outcome_exchange env cfg o
  refine ⟨fun hreply => ?_, fun hne => ?_, fun size hkeep hshort hrequested => ?_⟩
  · rcases hafter with hafter | ⟨-, haccepted, -⟩
    · exact hafter
    · exact absurd haccepted hreply
  · rcases hafter with hafter | ⟨hdelete, haccepted, hrequested, hafter⟩
    · exact absurd hafter hne
    · rw [hafter]
      exact ⟨hdelete, haccepted, (hrequest hrequested).delivered_iff⟩
  · exact hkeep.announced_eq hshort (hrequest hrequested)

/-- Every file that can be opened has one byte, and the server says `OK`. -/
def acceptingEnv : Env where
  openFile _ _ := some ⟨⟨1, true⟩, ascii "r", true⟩
  opendir _ := none
  stat _ _ := none
  heap _ := 0
  connected := true
  fwrite _ := true
  reply := ascii "HTTP/1.1 200 OK\r\n\r\nOK\n"
  ferror := false
  outputOk := true

/-- Post one file of the home directory and delete it. -/
def postOne : Options where
  deleteFile := true
  maxpostsize := 1000000
  postFile := some ⟨ascii "/home/atlas/data/out/7", by decide⟩
  postDir := none
  postHeader := none
  postFooter := none
  outputFile := none

/-- The home directory is the spool directory. -/
def homeConfig : Config := ⟨atlasHome, atlasHome⟩

/-- The spool directory is somewhere else. -/
def spoolConfig : Config :=
  ⟨⟨ascii "/var/spool/ripe-atlas", zero_notMem_spool⟩, ⟨ascii "/run/ripe-atlas", by decide⟩⟩

/-- With the spool directory in the home directory, the file is delivered. -/
theorem deleted_delivered_home :
    (exchange acceptingEnv homeConfig postOne).after = [ascii "/home/atlas/data/out/7"] ∧
      Delivered acceptingEnv (exchange acceptingEnv homeConfig postOne)
        (ascii "/home/atlas/data/out/7") := by
  have hafter : (exchange acceptingEnv homeConfig postOne).after =
      [ascii "/home/atlas/data/out/7"] := by decide +kernel
  have hsame : SameName acceptingEnv homeConfig postOne := by
    rintro p hp r hr
    obtain rfl := Option.some.inj hp
    refine .inl (Option.some.inj (hr.symm.trans ?_))
    decide +kernel
  obtain ⟨-, hdeleted, -⟩ := deleted_delivered_iff acceptingEnv homeConfig postOne
  obtain ⟨-, -, hiff⟩ := hdeleted (by rw [hafter]; exact cons_ne_nil _ _)
  refine ⟨hafter, hiff.mpr hsame _ ?_⟩
  rw [hafter]
  exact mem_singleton_self _

/-- With the spool directory somewhere else, one file is sent and another is deleted. -/
theorem deleted_undelivered_spool :
    (exchange acceptingEnv spoolConfig postOne).sent =
        [(ascii "/home/atlas/data/out/7", ascii "r")] ∧
      (exchange acceptingEnv spoolConfig postOne).after =
        [ascii "/var/spool/ripe-atlas/data/out/7"] ∧
      ¬Delivered acceptingEnv (exchange acceptingEnv spoolConfig postOne)
        (ascii "/var/spool/ripe-atlas/data/out/7") := by
  have hsent : (exchange acceptingEnv spoolConfig postOne).sent =
      [(ascii "/home/atlas/data/out/7", ascii "r")] := by decide +kernel
  refine ⟨hsent, by decide +kernel, ?_⟩
  rintro ⟨k, h, -, -, hmem⟩
  rw [hsent, mem_singleton] at hmem
  have hpath : ascii "/var/spool/ripe-atlas/data/out/7" = ascii "/home/atlas/data/out/7" :=
    congrArg fst hmem
  exact absurd hpath (by decide +kernel)

end Delivery

end AtlasProbe.Httppost
