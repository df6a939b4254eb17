import AtlasProbe.Lib.Reactive
import AtlasProbe.Telnetd.Buffer

/-!
# The input buffer is a queue

Reads append to the buffer for the client's bytes, and `getline_2pty` takes lines from its front, in
any order of calls.  `pack_2pty` only runs when the bytes end where the buffer ends, so that nothing
has to be moved up.
-/

namespace AtlasProbe.Telnetd

open List Reactive

/-- What happens to the buffer: a read, or a call of `getline_2pty`. -/
inductive Access where
  | read (data : Bytes)
  | getline

namespace Buf1

/-- `pack_2pty` runs before a read. -/
def PacksForRead (b : Buf1) : Prop := b.size < bufsize ∧ (bufsize ≤ b.rdidx ∨ b.rdidx < b.wridx)

/-- `pack_2pty` runs in `getline_2pty`. -/
def PacksForLine (b : Buf1) : Prop := bufsize < b.wridx + b.size

/-- The subtraction in `pack_2pty` does not wrap. -/
def PackFits (b : Buf1) : Prop := b.wridx ≤ bufsize ∧ bufsize - b.wridx ≤ b.size

/-- The bytes that `getline_2pty` copies: the first line, and its end.  (A line feed there becomes a
carriage return, which is cut off.) -/
def copied (b : Buf1) : Bytes := b.contents.take ((lineEnd b.contents).elim 0 (· + 1))

end Buf1

/-- A session reads when there is room, and no more than it asks for. -/
def Access.Allowed (b : Buf1) : Access → Prop
  | .read data => b.size < bufsize ∧ data.length ≤ b.prepare.room
  | .getline => True

/-- All indices that are used are below `BUFSIZE`. -/
def Access.InBounds (b : Buf1) : Access → Prop
  | .read data => (b.PacksForRead → b.PackFits) ∧ b.prepare.rdidx + data.length ≤ bufsize
  | .getline => (b.PacksForLine → b.PackFits) ∧ b.wridx + b.size ≤ bufsize

/-- The buffer, with the bytes that have been received and those that have been taken out. -/
structure Flow where
  buf : Buf1 := .new
  received : Bytes := []
  taken : Bytes := []

/-- A read leaves out a zero at the end. -/
def Flow.access (f : Flow) : Access → Flow
  | .read data =>
    { f with buf := f.buf.prepare.recv data, received := f.received ++ kept data }
  | .getline => { f with buf := f.buf.getline2pty.2, taken := f.taken ++ f.buf.copied }

/-- What has been received has been taken out, or is in the buffer. -/
structure Flow.Ok (f : Flow) : Prop where
  valid : f.buf.Valid
  received : f.received = f.taken ++ f.buf.contents

section Steps

variable {b : Buf1}

/-- What is copied has been in front, and a line that is returned has been copied. -/
lemma Buf1.Valid.copied_append (h : b.Valid) :
    b.getline2pty.2.Valid ∧ b.copied ++ b.getline2pty.2.contents = b.contents ∧
      ∀ line, b.getline2pty.1 = some line → ∃ e, eol e = true ∧ b.copied = line ++ [e] := by
  rcases h.getline2pty with
    ⟨hnone, heq⟩ | ⟨line, e, rest, b', hcontents, hline, he, heq, hvalid, hrest⟩
  · rw [heq, copied, lineEnd_eq, findIdx?_eq_none_iff.mpr hnone]
    exact ⟨h, rfl, nofun⟩
  · have hend : lineEnd b.contents = some line.length := by
      simp [lineEnd_eq, hcontents, findIdx?_eq_none_iff.mpr hline,
        findIdx?_cons, he]
    have hcopied : b.copied = line ++ [e] := by
      rw [copied, hend, hcontents]
      simp [take_append]
    rw [heq, hrest, hcopied, hcontents]
    refine ⟨hvalid, append_assoc .., ?_⟩
    intro _ hsome
    obtain ⟨-, hsame⟩ := Option.ite_none_left_eq_some.mp hsome
    cases hsame
    exact ⟨e, he, rfl⟩

/-- When the bytes are packed, they end where the buffer ends. -/
lemma Buf1.Valid.packFits (h : b.Valid) (hpacks : b.PacksForRead) : b.PackFits := by
  obtain ⟨hsize, hrdidx⟩ := hpacks
  have hfits := h.fits
  rcases h.rdidx with hrd | ⟨hrd, hend⟩
  · constructor <;> omega
  · constructor <;> omega

lemma Buf1.Valid.inBounds (h : b.Valid) {a : Access} (ha : a.Allowed b) : a.InBounds b := by
  have hfits := h.fits
  cases a with
  | read data =>
    obtain ⟨hsize, hroom⟩ := ha
    obtain ⟨-, -, -, hlt⟩ := h.prepare hsize
    refine ⟨h.packFits, ?_⟩
    unfold room at hroom
    omega
  | getline =>
    refine ⟨fun hpacks => ?_, hfits⟩
    unfold PacksForLine at hpacks
    omega

/-- Every access keeps the bytes in order. -/
lemma Flow.Ok.access {f : Flow} (h : f.Ok) {a : Access} (ha : a.Allowed f.buf) :
    (f.access a).Ok := by
  cases a with
  | read data =>
    obtain ⟨hsize, hroom⟩ := ha
    obtain ⟨hvalid, hcontents, hrdidx, -⟩ := h.valid.prepare hsize
    obtain ⟨hrecv, heq⟩ := hvalid.recv hrdidx hroom
    refine ⟨hrecv, ?_⟩
    change f.received ++ kept data = f.taken ++ (f.buf.prepare.recv data).contents
    rw [heq, hcontents, h.received, append_assoc]
  | getline =>
    obtain ⟨hvalid, heq, -⟩ := h.valid.copied_append
    refine ⟨hvalid, ?_⟩
    change f.received = f.taken ++ f.buf.copied ++ f.buf.getline2pty.2.contents
    rw [append_assoc, heq, h.received]

end Steps

/-- After any reads and calls of `getline_2pty` the bytes that have been taken out are the first
ones that have been received, and the others are in the buffer, which uses no index beyond its
end. -/
theorem input_buffer_fifo {accesses : List Access}
    (h : Along Flow.access (fun f a => a.Allowed f.buf) accesses {}) {f : Flow}
    (hf : f = run Flow.access accesses {}) :
    f.taken <+: f.received ∧ f.received = f.taken ++ f.buf.contents ∧ f.buf.size ≤ bufsize ∧
      f.buf.contents.length = f.buf.size ∧
      (∀ line, f.buf.getline2pty.1 = some line → ∃ e, eol e = true ∧ f.buf.copied = line ++ [e]) ∧
      ∀ a : Access, a.Allowed f.buf → a.InBounds f.buf ∧ (f.access a).Ok := by
  have hnew : Flow.Ok {} := ⟨.new, rfl⟩
  have hok : f.Ok := hf ▸ h.invariant (I := Flow.Ok) (fun _ _ hok ha => hok.access ha) hnew
  have hfits := hok.valid.fits
  refine ⟨⟨_, hok.received.symm⟩, hok.received, by omega, hok.valid.length_contents,
    hok.valid.copied_append.2.2, ?_⟩
  intro a ha
  exact ⟨hok.valid.inBounds ha, hok.access ha⟩

/-- A line with a zero behind it, and half of another one. -/
def twoReads : List Access := [.read (ascii "a\r" ++ [0]), .getline, .read (ascii "b")]

theorem input_buffer_fifo_twoReads :
    (run Flow.access twoReads {}).taken <+: (run Flow.access twoReads {}).received := by
  have hallowed : Along Flow.access (fun f a => a.Allowed f.buf) twoReads {} := by
    refine ⟨⟨?_, ?_⟩, trivial, ⟨?_, ?_⟩, trivial⟩
    all_goals decide +kernel
  exact (input_buffer_fifo hallowed rfl).1

end AtlasProbe.Telnetd
