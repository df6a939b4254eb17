import Mathlib.Data.List.Infix
import Mathlib.Data.List.DropRight
import AtlasProbe.Lib.Lines
import AtlasProbe.Lib.Text

/-!
# The buffers of a session

The bytes that a client sends arrive in a ring buffer, from which `getline_2pty` takes the lines.
The ring never wraps round: before a read, `pack_2pty` moves the bytes to the front if there is no
room behind them.  What the buffer holds is a list, to which a read appends and from which a line is
taken.  The replies wait in a second buffer; of that one only the indices matter here.
-/

namespace AtlasProbe.Telnetd

open List

/-- `BUFSIZE`, with pointers of 64 bits. -/
def bufsize : ℕ := 4068

/-! ### The buffer for the client's bytes -/

/-- `memmove`, within one buffer. -/
def memmove (bytes : Bytes) (dst src n : ℕ) : Bytes :=
  store bytes dst ((bytes.drop src).take n)

/-- `memchr` -/
def memchr (bytes : Bytes) (b : UInt8) : Option ℕ := bytes.findIdx? (· == b)

/-- The first buffer of `struct tsession`, with the fields `rdidx1`, `wridx1` and `size1`. -/
structure Buf1 where
  bytes : Bytes
  rdidx : ℕ
  wridx : ℕ
  size : ℕ

namespace Buf1

/-- The buffer of a new session. -/
def new : Buf1 := ⟨List.replicate bufsize 0, 0, 0, 0⟩

/-- The bytes in the buffer, where they do not wrap round. -/
def contents (b : Buf1) : Bytes := (b.bytes.drop b.wridx).take b.size

/-- `pack_2pty` -/
def pack2pty (b : Buf1) : Buf1 :=
  let sizeHi := bufsize - b.wridx
  let sizeLo := b.size - sizeHi
  -- Move the low part up, and the high part down.
  let bytes := memmove b.bytes sizeHi 0 sizeLo
  let bytes := memmove bytes 0 b.wridx sizeHi
  { bytes := bytes, rdidx := b.size, wridx := 0, size := b.size }

/-- What happens before a read. -/
def prepare (b : Buf1) : Buf1 :=
  if b.size < bufsize ∧ (bufsize ≤ b.rdidx ∨ b.rdidx < b.wridx) then b.pack2pty else b

/-- How many bytes are read at most. -/
def room (b : Buf1) : ℕ := min (bufsize - b.rdidx) (bufsize - b.size)

end Buf1

/-- A zero at the end of what was read is ignored. -/
def kept (data : Bytes) : Bytes :=
  if data.getLast? = some 0 then data.dropLast else data

namespace Buf1

/-- The buffer after a read. -/
def recv (b : Buf1) (data : Bytes) : Buf1 :=
  let count := (kept data).length
  let rdidx := b.rdidx + count
  { bytes := store b.bytes b.rdidx data
    rdidx := if bufsize ≤ rdidx then 0 else rdidx
    wridx := b.wridx
    size := b.size + count }

/-- The end of the first line: a carriage return, or a line feed if that comes first. -/
def lineEnd (contents : Bytes) : Option ℕ :=
  match memchr contents 13, memchr contents 10 with
  | some cr, some lf => some (if lf < cr then lf else cr)
  | none, some lf => some lf
  | cr, none => cr

/-- `getline_2pty`.  A line with a zero in it is dropped, and looks to the caller as if there were
no line. -/
def getline2pty (b : Buf1) : Option Bytes × Buf1 :=
  let b := if bufsize < b.wridx + b.size then b.pack2pty else b
  match lineEnd b.contents with
  | none => (none, b)
  | some cp =>
    let line := b.contents.take cp
    (if 0 ∈ line then none else some line,
      { b with wridx := b.wridx + (cp + 1), size := b.size - (cp + 1) })

end Buf1

/-! ### The buffer is a queue -/

/-- The bytes do not wrap round, and the next read appends to them unless they reach the end. -/
structure Buf1.Valid (b : Buf1) : Prop where
  length : b.bytes.length = bufsize
  fits : b.wridx + b.size ≤ bufsize
  rdidx : b.rdidx = b.wridx + b.size ∨ b.rdidx = 0 ∧ b.wridx + b.size = bufsize

/-- What is stored behind `n` bytes. -/
lemma take_drop_store {bytes data : Bytes} {start n : ℕ}
    (h : start + n + data.length ≤ bytes.length) (k : ℕ) :
    ((store bytes (start + n) data).drop start).take (n + k) =
      (bytes.drop start).take n ++ (data ++ bytes.drop (start + n + data.length)).take k := by
  have hlength : ((bytes.drop start).take n).length = n := by
    rw [length_take, length_drop]
    omega
  have hdrop : (bytes.take (start + n)).drop start = (bytes.drop start).take n := by
    rw [drop_take, Nat.add_sub_cancel_left]
  rw [store, append_assoc, drop_append_of_le_length (by rw [length_take]; omega), hdrop,
    take_append, hlength, Nat.add_sub_cancel_left, take_of_length_le (by omega)]

namespace Buf1

variable {b : Buf1}

lemma Valid.new : Buf1.new.Valid where
  length := length_replicate
  fits := by decide
  rdidx := .inl rfl

lemma Valid.length_contents (h : b.Valid) : b.contents.length = b.size := by
  have hfits := h.fits
  rw [contents, length_take, length_drop, h.length]
  omega

/-- If the bytes reach the end of the buffer, then packing moves them to the front. -/
lemma Valid.pack2pty (h : b.Valid) (hend : b.wridx + b.size = bufsize) :
    b.pack2pty.Valid ∧ b.pack2pty.contents = b.contents := by
  have hhi : bufsize - b.wridx = b.size := by omega
  have hbytes : b.pack2pty.bytes = b.contents ++ b.bytes.drop b.size := by
    have hempty : memmove b.bytes b.size 0 0 = b.bytes := by simp [memmove, store]
    simp only [Buf1.pack2pty, hhi, Nat.sub_self, hempty]
    rw [memmove, store]
    simp only [take_zero, nil_append, Nat.zero_add]
    rw [← contents, h.length_contents]
  have hlength := h.length_contents
  refine ⟨⟨?_, ?_, .inl ?_⟩, ?_⟩
  · rw [hbytes, length_append, length_drop, h.length]
    omega
  · change 0 + b.size ≤ bufsize
    omega
  · exact (Nat.zero_add b.size).symm
  · rw [contents, hbytes]
    change (List.drop 0 _).take b.size = _
    rw [drop_zero, take_append_of_le_length hlength.ge, take_of_length_le hlength.le]

/-- Before a read there is room behind the bytes, and nowhere else. -/
lemma Valid.prepare (h : b.Valid) (hsize : b.size < bufsize) :
    b.prepare.Valid ∧ b.prepare.contents = b.contents ∧
      b.prepare.rdidx = b.prepare.wridx + b.prepare.size ∧ b.prepare.rdidx < bufsize := by
  have hfits := h.fits
  unfold Buf1.prepare
  split_ifs with hpack
  · have hend : b.wridx + b.size = bufsize := by
      rcases h.rdidx with hrd | ⟨-, hend⟩
      · omega
      · exact hend
    obtain ⟨hvalid, hcontents⟩ := h.pack2pty hend
    exact ⟨hvalid, hcontents, (Nat.zero_add b.size).symm, hsize⟩
  · rcases h.rdidx with hrd | ⟨hzero, hend⟩
    · exact ⟨h, rfl, hrd, by omega⟩
    · omega

lemma length_kept_le (data : Bytes) : (kept data).length ≤ data.length := by
  unfold kept
  split_ifs
  · rw [length_dropLast]
    omega
  · exact le_rfl

lemma kept_eq_take (data : Bytes) : kept data = data.take (kept data).length := by
  unfold kept
  split_ifs
  · rw [length_dropLast, dropLast_eq_take]
  · exact (take_length).symm

/-- A read appends to the bytes. -/
lemma Valid.recv (h : b.Valid) (hrd : b.rdidx = b.wridx + b.size) {data : Bytes}
    (hroom : data.length ≤ b.room) :
    (b.recv data).Valid ∧ (b.recv data).contents = b.contents ++ kept data := by
  have hkept := length_kept_le data
  have hfits := h.fits
  have hdata : b.rdidx + data.length ≤ bufsize := by
    unfold room at hroom
    omega
  refine ⟨⟨?_, ?_, ?_⟩, ?_⟩
  · change (store b.bytes b.rdidx data).length = bufsize
    rw [length_store (by rw [h.length]; omega), h.length, max_eq_right hdata]
  · change b.wridx + (b.size + _) ≤ bufsize
    omega
  · change (if bufsize ≤ b.rdidx + (kept data).length then 0
      else b.rdidx + (kept data).length) = _ ∨
      (if bufsize ≤ b.rdidx + (kept data).length then 0 else b.rdidx + (kept data).length) = 0 ∧
        b.wridx + (b.size + (kept data).length) = bufsize
    split_ifs with hfull
    · exact .inr ⟨rfl, by omega⟩
    · exact .inl (by change _ = b.wridx + (b.size + (kept data).length); omega)
  · change ((store b.bytes b.rdidx data).drop b.wridx).take (b.size + (kept data).length) = _
    rw [hrd, take_drop_store (by rw [h.length]; omega), contents,
      take_append_of_le_length hkept, ← kept_eq_take]

end Buf1

/-- The bytes that end a line. -/
def eol (b : UInt8) : Bool := b == 13 || b == 10

namespace Buf1

variable {b : Buf1}

lemma lineEnd_eq (contents : Bytes) : lineEnd contents = contents.findIdx? eol := by
  induction contents with
  | nil => rfl
  | cons c contents ih =>
    simp only [lineEnd, memchr, findIdx?_cons] at ih ⊢
    by_cases hcr : c = 13
    · subst hcr
      cases findIdx? (· == (10 : UInt8)) contents <;> rfl
    · by_cases hlf : c = 10
      · subst hlf
        cases findIdx? (· == (13 : UInt8)) contents <;> rfl
      · have heol : eol c = false := by simp [eol, hcr, hlf]
        rw [heol, ← ih]
        simp only [beq_eq_false_iff_ne.mpr hcr, beq_eq_false_iff_ne.mpr hlf, Bool.false_eq_true,
          if_false]
        cases findIdx? (· == (13 : UInt8)) contents with
        | none => cases findIdx? (· == (10 : UInt8)) contents <;> rfl
        | some cr =>
          cases findIdx? (· == (10 : UInt8)) contents with
          | none => rfl
          | some lf =>
            simp only [Option.map_some, Nat.add_lt_add_iff_right]
            split_ifs <;> rfl

/-- The first line in the buffer, if one is complete, is taken from the front. -/
lemma Valid.getline2pty (h : b.Valid) :
    (∀ c ∈ b.contents, eol c = false) ∧ b.getline2pty = (none, b) ∨
      ∃ line e rest b', b.contents = line ++ e :: rest ∧ (∀ c ∈ line, eol c = false) ∧
        eol e = true ∧ b.getline2pty = (if 0 ∈ line then none else some line, b') ∧
        b'.Valid ∧ b'.contents = rest := by
  have hfits := h.fits
  have hnowrap : ¬bufsize < b.wridx + b.size := by omega
  unfold Buf1.getline2pty
  simp only [if_neg hnowrap, lineEnd_eq]
  cases hfind : b.contents.findIdx? eol with
  | none => exact .inl ⟨findIdx?_eq_none_iff.mp hfind, rfl⟩
  | some cp =>
    obtain ⟨hlt, hcp, hbefore⟩ := findIdx?_eq_some_iff_getElem.mp hfind
    have hsize : cp < b.size := h.length_contents ▸ hlt
    refine .inr ⟨b.contents.take cp, b.contents[cp], b.contents.drop (cp + 1), _,
      ?_, ?_, hcp, rfl,
      ⟨h.length, ?_, ?_⟩, ?_⟩
    · rw [getElem_cons_drop, take_append_drop]
    · intro c hc
      obtain ⟨j, hj, rfl⟩ := getElem_of_mem hc
      rw [length_take] at hj
      simpa using hbefore j (by omega)
    · change b.wridx + (cp + 1) + (b.size - (cp + 1)) ≤ bufsize
      omega
    · rcases h.rdidx with hrd | ⟨hzero, hend⟩
      · exact .inl (by change b.rdidx = b.wridx + (cp + 1) + (b.size - (cp + 1)); omega)
      · exact .inr ⟨hzero, by
          change b.wridx + (cp + 1) + (b.size - (cp + 1)) = bufsize; omega⟩
    · change (b.bytes.drop (b.wridx + (cp + 1))).take (b.size - (cp + 1)) = _
      rw [contents, drop_take, drop_drop]

end Buf1

/-- A buffer for the client's bytes, as the session has it at any time. -/
abbrev Input := { b : Buf1 // b.Valid }

namespace Input

/-- The buffer of a new session. -/
def new : Input := ⟨Buf1.new, .new⟩

/-- The bytes that are waiting. -/
def contents (b : Input) : Bytes := b.1.contents

/-- What is read of the bytes that have arrived. -/
def taken (b : Input) (data : Bytes) : Bytes := data.take b.1.prepare.room

/-- The buffer after a read, if it has room for one. -/
def recv (b : Input) (data : Bytes) : Input :=
  if h : b.1.size < bufsize then
    ⟨b.1.prepare.recv (b.taken data),
      ((b.2.prepare h).1.recv (b.2.prepare h).2.2.1 (List.length_take_le _ _)).1⟩
  else b

/-- `getline_2pty` -/
def getline2pty (b : Input) : Option Bytes × Input :=
  (b.1.getline2pty.1, ⟨b.1.getline2pty.2, by
    rcases b.2.getline2pty with ⟨-, heq⟩ | ⟨_, _, _, b', -, -, -, heq, hvalid, -⟩
    · rw [heq]
      exact b.2
    · rw [heq]
      exact hvalid⟩)

lemma contents_new : new.contents = [] := rfl

lemma getline2pty_eq {b b' : Input} {line : Option Bytes}
    (h : b.1.getline2pty = (line, b'.1)) : b.getline2pty = (line, b') := by
  have hline : b.1.getline2pty.1 = line := by rw [h]
  have hrest : b.1.getline2pty.2 = b'.1 := by rw [h]
  exact Prod.ext hline (Subtype.ext hrest)

lemma contents_recv {b : Input} (h : b.1.size < bufsize) (data : Bytes) :
    (b.recv data).contents = b.contents ++ kept (b.taken data) := by
  obtain ⟨hvalid, hcontents, hrd, -⟩ := b.2.prepare h
  unfold recv
  rw [dif_pos h]
  exact (hvalid.recv hrd (length_take_le _ _)).2.trans (by rw [hcontents]; rfl)

/-- No line is complete, or the first one is taken; a line with a zero in it is not returned. -/
lemma getline2pty_spec (b : Input) :
    b.getline2pty = (none, b) ∧ Lines.complete eol b.contents = [] ∨
      ∃ line b', b.getline2pty = (if 0 ∈ line then none else some line, b') ∧
        b'.contents.length < b.contents.length ∧
        Lines.complete eol b.contents = line :: Lines.complete eol b'.contents ∧
        Lines.rest eol b.contents = Lines.rest eol b'.contents := by
  rcases b.2.getline2pty with ⟨hnone, heq⟩ |
    ⟨line, e, rest, b', hcontents, hline, he, heq, hvalid, hrest⟩
  · exact .inl ⟨getline2pty_eq heq, congrArg Prod.fst (Lines.split_of_forall_not hnone)⟩
  · refine .inr ⟨line, ⟨b', hvalid⟩, getline2pty_eq heq, ?_, ?_, ?_⟩
    · change b'.contents.length < b.1.contents.length
      rw [hcontents, hrest, length_append, length_cons]
      omega
    · change Lines.complete eol b.1.contents = line :: Lines.complete eol b'.contents
      rw [hcontents, hrest, Lines.complete_append_cons hline he]
    · change Lines.rest eol b.1.contents = Lines.rest eol b'.contents
      rw [hcontents, hrest, Lines.rest_append_cons hline he]

end Input

/-! ### The buffer for the replies -/

/-- The indices `rdidx2`, `wridx2` and `size2` of the second buffer. -/
structure Buf2 where
  rdidx : ℕ := 0
  wridx : ℕ := 0
  size : ℕ := 0
  deriving DecidableEq

namespace Buf2

/-- `add_2sock` for a text of `len` bytes.  It aborts if the text does not fit; `pack_4sock`, which
it calls if there is no room behind the texts that wait, aborts as well. -/
def add2sock (b : Buf2) (len : ℕ) : Option Buf2 :=
  if bufsize < b.size + len then none
  else if bufsize < b.rdidx + len then none
  else some { b with rdidx := b.rdidx + len, size := b.size + len }

/-- How many bytes are written to the socket at most. -/
def pending (b : Buf2) : ℕ := min (bufsize - b.wridx) b.size

/-- The indices when `count` bytes have been written. -/
def wrote (b : Buf2) (count : ℕ) : Buf2 :=
  let wridx := if bufsize ≤ b.wridx + count then 0 else b.wridx + count
  let size := b.size - count
  if size = 0 then { rdidx := 0, wridx := 0, size := 0 }
  else { b with wridx := wridx, size := size }

/-- The replies that wait do not wrap round. -/
def Valid (b : Buf2) : Prop := b.rdidx = b.wridx + b.size ∧ b.rdidx ≤ bufsize

variable {b : Buf2} {len : ℕ}

/-- `add_2sock` returns if and only if the text fits twice. -/
lemma add2sock_isSome_iff :
    (b.add2sock len).isSome ↔ b.size + len ≤ bufsize ∧ b.rdidx + len ≤ bufsize := by
  unfold add2sock
  split_ifs with hsize hrdidx
  · simp; omega
  · simp; omega
  · simp; omega

/-- A text is appended. -/
lemma Valid.add2sock {b' : Buf2} (h : b.Valid) (hadd : b.add2sock len = some b') :
    b'.Valid ∧ b'.rdidx = b.rdidx + len := by
  obtain ⟨heq, hle⟩ := h
  unfold Buf2.add2sock at hadd
  split_ifs at hadd with hsize hrdidx
  cases hadd
  exact ⟨⟨by change b.rdidx + len = b.wridx + (b.size + len); omega, Nat.le_of_not_lt hrdidx⟩, rfl⟩

/-- In a valid buffer there is room for a text if there is room behind the texts that wait. -/
lemma Valid.exists_add2sock (h : b.Valid) (hlen : b.rdidx + len ≤ bufsize) :
    ∃ b', b.add2sock len = some b' := by
  obtain ⟨heq, -⟩ := h
  exact Option.isSome_iff_exists.mp (add2sock_isSome_iff.mpr ⟨by omega, hlen⟩)

lemma Valid.wrote (h : b.Valid) (count : ℕ) : (b.wrote count).Valid := by
  obtain ⟨heq, hle⟩ := h
  unfold Buf2.wrote
  by_cases hsize : b.size - count = 0
  · simp only [hsize]
    exact ⟨rfl, Nat.zero_le _⟩
  · have hlt : ¬bufsize ≤ b.wridx + count := by omega
    simp only [hsize, hlt]
    exact ⟨by change b.rdidx = b.wridx + count + (b.size - count); omega, hle⟩

end Buf2

end AtlasProbe.Telnetd
