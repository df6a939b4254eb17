import AtlasProbe.Http2.HuffmanInit

/-!
# `Xdecode_huffman2`

The decoder keeps a bit buffer of 32 bits of which the low `bitslen` are still unread, refills it a
byte at a time and looks up eight bits (four in one table) in the table of the prefix it has
stripped.  At the end of the input the looked-up byte is padded with zeros.

The nibble that indexes `huffman_decode_fffffe` is masked with `0xf` only when four bits are
available; otherwise it is cut off at eight bits, and the read goes past the sixteen entries of the
table.  What lies there is the parameter `past`.
-/

namespace AtlasProbe.Http2

/-! ### The bit buffer -/

/-- The local variables of `Xdecode_huffman2` that describe its input. -/
structure BitBuf where
  /-- The bytes `buf[o]`, `buf[o+1]`, … that have not been read. -/
  inp : Bytes
  /-- The bit buffer, a `uint32_t`. -/
  bits : ℕ
  /-- The number of unread bits in the buffer. -/
  bitslen : ℕ

/-- Shift in another byte if fewer than `w` bits are left. -/
def BitBuf.refill (w : ℕ) (r : BitBuf) : BitBuf :=
  match r.inp with
  | [] => r
  | b :: inp =>
    if r.bitslen < w then ⟨inp, (r.bits <<< 8) % 2 ^ 32 ||| b.toNat, r.bitslen + 8⟩ else r

/-- Drop `n` bits. -/
def BitBuf.skip (n : ℕ) (r : BitBuf) : BitBuf := { r with bitslen := r.bitslen - n }

/-- The next eight bits, padded with zeros at the end of the input. -/
def BitBuf.byte (r : BitBuf) : ℕ :=
  if r.bitslen < 8 then (r.bits <<< (8 - r.bitslen)) % 256
  else (r.bits >>> (r.bitslen - 8)) % 256

/-- The index into `huffman_decode_fffffe`, a `uint8_t`. -/
def BitBuf.nibble (r : BitBuf) : ℕ :=
  if r.bitslen < 4 then (r.bits <<< (4 - r.bitslen)) % 256
  else (r.bits >>> (r.bitslen - 4)) % 16

/-! ### One round of the decoding loop -/

/-- How a round of the loop ends. -/
inductive HuffmanStep where
  /-- A symbol has been recognised (it is stored if there is room). -/
  | emit (value : ℕ) (rest : BitBuf)
  /-- Only padding is left. -/
  | finish
  /-- A GOAWAY frame with this reason is sent. -/
  | goaway (reason : String)

/-- Take the symbol of a table entry if all its bits are there. -/
def takeSymbol (e : HuffmanDecode) (r : BitBuf) (reason : String) : HuffmanStep :=
  if e.bits ≤ r.bitslen then .emit e.value (r.skip e.bits) else .goaway reason

/-- The round after the prefix `ffffff`. -/
def roundFfffff (T : HuffmanTables) (r : BitBuf) : HuffmanStep :=
  if r.byte ≠ 0xff then
    takeSymbol (T.decodeFfffff.entry r.byte) r "garbage at end of string"
  else
    .goaway "should decode ff"

/-- Reading `huffman_decode_fffffe`, which has sixteen entries. -/
def nibbleEntry (T : HuffmanTables) (past : ℕ → HuffmanDecode) (nibble : ℕ) : HuffmanDecode :=
  if nibble < 16 then T.decodeFffffe.entry nibble else past nibble

/-- The round after the prefix `ffff`. -/
def roundFfff (T : HuffmanTables) (past : ℕ → HuffmanDecode) (r : BitBuf) : HuffmanStep :=
  if 8 ≤ r.bitslen ∧ r.byte = 0xfe then
    let r := (r.skip 8).refill 4
    takeSymbol (nibbleEntry T past r.nibble) r "not enough bits"
  else if 8 ≤ r.bitslen ∧ r.byte &&& 0xf0 = 0xf0 ∧ r.byte ≠ 0xff then
    -- the prefix is 20 bits
    let r := (r.skip 4).refill 8
    takeSymbol (T.decodeFffff.entry r.byte) r "not enough bits"
  else if r.byte ≠ 0xff then
    takeSymbol (T.decodeFfff.entry r.byte) r "garbage at end of string"
  else
    roundFfffff T ((r.skip 8).refill 8)

/-- The round after the prefix `ff`. -/
def roundFf (T : HuffmanTables) (past : ℕ → HuffmanDecode) (r : BitBuf) : HuffmanStep :=
  if 8 ≤ r.bitslen ∧ r.byte = 0xfe then
    let r := (r.skip 8).refill 8
    takeSymbol (T.decodeFffe.entry r.byte) r "not enough bits"
  else if r.byte ≠ 0xff then
    takeSymbol (T.decodeFf.entry r.byte) r "garbage at end of string"
  else
    roundFfff T past ((r.skip 8).refill 8)

/-- The check of the bits behind the last symbol: they have to be ones. -/
def endOfString (r : BitBuf) : HuffmanStep :=
  let mask := (2 ^ r.bitslen - 1) % 256
  if r.bits &&& mask = mask then .finish else .goaway "garbage at end of string"

/-- The round after its first refill. -/
def round0 (T : HuffmanTables) (past : ℕ → HuffmanDecode) (r : BitBuf) : HuffmanStep :=
  if 8 ≤ r.bitslen ∧ r.byte = 0xfe then
    let r := (r.skip 8).refill 8
    takeSymbol (T.decodeFe.entry r.byte) r "not enough bits"
  else if r.byte ≠ 0xff then
    if (T.decode0.entry r.byte).bits ≤ r.bitslen then
      .emit (T.decode0.entry r.byte).value (r.skip (T.decode0.entry r.byte).bits)
    else
      -- an incomplete symbol marks the end of the string
      endOfString r
  else
    roundFf T past ((r.skip 8).refill 8)

/-- One round of the loop of `Xdecode_huffman2`. -/
def huffmanRound (T : HuffmanTables) (past : ℕ → HuffmanDecode) (r : BitBuf) : HuffmanStep :=
  round0 T past (r.refill 8)

/-! ### The loop -/

/-- The result of `Xdecode_huffman2`: the decoded string (the C function returns its length), or
`0` after a GOAWAY frame. -/
inductive HuffmanResult where
  | done (out : Bytes)
  | goaway (reason : String)
  deriving DecidableEq, Repr

/-- The loop of `Xdecode_huffman2` with an output buffer of `cap` bytes, cut off after `fuel`
rounds. -/
def huffmanLoop (T : HuffmanTables) (past : ℕ → HuffmanDecode) (cap : ℕ) :
    ℕ → BitBuf → Bytes → Option HuffmanResult
  | 0, _, _ => none
  | fuel + 1, r, out =>
    match huffmanRound T past r with
    | .emit value rest =>
      if cap ≤ out.length then
        some (.goaway "no space in output buffer")
      else
        huffmanLoop T past cap fuel rest (out ++ [UInt8.ofNat value])
    | .finish => some (.done out)
    | .goaway reason => some (.goaway reason)

/-- The bit buffer at the start of `Xdecode_huffman2`. -/
def BitBuf.start (buf : Bytes) : BitBuf := ⟨buf, 0, 0⟩

end AtlasProbe.Http2
