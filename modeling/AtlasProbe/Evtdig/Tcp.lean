import AtlasProbe.Evtdig.Buf
import AtlasProbe.Lib.Wire

/-!
# DNS replies over TCP

`tcp_readcb` collects a reply that arrives in segments: two bytes with its length, and the message
(`TcpQry.Reading`).  The length is read at once when the first bytes arrive, so that the reply is
lost if its first segment has one byte only (`TcpQry.Fresh.deliver_byte`); any other segmentation
makes no difference.
-/

namespace AtlasProbe.Evtdig

open List
open Wire (be16)

/-! ### `tcp_readcb` -/

/-- The part of `struct query_state` that `tcp_readcb` uses, and the input of the connection. -/
structure TcpQry where
  qryid : ℕ
  wireSize : ℕ
  packet : Buf
  err : Buf
  /-- The input buffer of the bufferevent. -/
  input : Bytes
  /-- The connection is open. -/
  isOpen : Bool
  /-- The calls of `printReply`: the size, and the message unless it is `NULL`. -/
  replies : List (ℕ × Option Bytes)

/-- Add an error text, with a comma if it is not the first one. -/
def TcpQry.addErr (qry : TcpQry) (text : Bytes) : TcpQry :=
  { qry with err := Evtdig.addErr qry.err text }

/-- A call of `printReply`, which ends with `free_qry_inst`: the buffers are emptied, and the
connection is closed. -/
def TcpQry.printReply (qry : TcpQry) (wireSize : ℕ) (result : Option Bytes) : TcpQry :=
  { qry with
    replies := qry.replies ++ [(wireSize, result)]
    err := bufInit
    wireSize := 0
    packet := bufInit
    isOpen := false }

/-- The reply is complete: report it if its identifier is that of the query. -/
def TcpQry.complete (qry : TcpQry) (n : ℕ) : TcpQry :=
  if uint16 qry.packet.bytes = qry.qryid then
    qry.printReply qry.packet.size (some qry.packet.bytes)
  else
    -- here there is a blank in front of the comma
    { qry with
      err := bufAdd qry.err (snprintf lineLength (ascii " " ++
        (if qry.err.size ≠ 0 then ascii ", " else []) ++
        ascii " \"idmismatch\" : \"mismatch id from tcp fd " ++ natText n ++ ascii "\""))
    }.printReply 0 none

/-- The loop of `tcp_readcb`, cut off after `fuel` rounds. -/
def readLoop : ℕ → TcpQry → TcpQry
  | 0, qry => qry
  | fuel + 1, qry =>
    let data := qry.input.take lineLength
    if data = [] then
      qry
    else
      let qry := { qry with input := qry.input.drop lineLength, packet := bufAdd qry.packet data }
      if qry.wireSize = qry.packet.size then qry.complete data.length else readLoop fuel qry

/-- Read the length of the reply. -/
def TcpQry.readLength (qry : TcpQry) : TcpQry :=
  let b2 := qry.input.take 2
  let qry := { qry with input := qry.input.drop 2 }
  if b2.length = 2 then
    { qry with wireSize := uint16 b2, packet := bufInit }
  else
    qry.addErr (ascii " \"TCPREAD\" : \"expected 2 bytes and got " ++ natText b2.length ++
      ascii "\"")

/-- The part of `tcp_readcb` behind the length. -/
def TcpQry.readBody (qry : TcpQry) : TcpQry :=
  -- a header has twelve bytes
  if qry.wireSize < 12 then
    (qry.addErr (ascii " \"TCPREADSIZE\" :  \"reply too small, got " ++ natText qry.wireSize ++
      ascii "\"")).printReply 0 none
  else
    readLoop (qry.input.length + 1) qry

/-- `tcp_readcb` for a connection without HTTPS. -/
def tcpReadcb (qry : TcpQry) : TcpQry :=
  if qry.packet.size ≠ 0 ∧ qry.wireSize ≤ qry.packet.size then
    (qry.addErr (ascii " \"TCPREADSIZE\" :  \"red more bytes than expected " ++
      natText qry.wireSize ++ ascii ", got " ++ natText qry.packet.size ++
      ascii "\"")).printReply 0 none
  else if qry.wireSize = 0 then
    qry.readLength.readBody
  else
    qry.readBody

/-! ### Segments -/

/-- A segment arrives; the callback is called as long as the connection is open. -/
def deliver (qry : TcpQry) (segment : Bytes) : TcpQry :=
  if qry.isOpen then tcpReadcb { qry with input := qry.input ++ segment } else qry

/-- Segments arrive one after the other. -/
def deliverAll (qry : TcpQry) (segments : List Bytes) : TcpQry :=
  segments.foldl deliver qry

/-- An open connection on which nothing has been read. -/
structure TcpQry.Fresh (qry : TcpQry) : Prop where
  wireSize : qry.wireSize = 0
  packet : qry.packet.bytes = []
  input : qry.input = []
  isOpen : qry.isOpen = true
  replies : qry.replies = []

/-- The length of the reply is known, and its bytes are in `packet` as far as they have arrived. -/
structure TcpQry.Reading (qry : TcpQry) (size : ℕ) (bytes : Bytes) : Prop where
  wireSize : qry.wireSize = size
  offset : qry.packet.offset = 0
  packet : qry.packet.bytes = bytes
  isOpen : qry.isOpen = true
  replies : qry.replies = []

variable {qry : TcpQry} {size : ℕ} {bytes : Bytes}

/-- A round of the loop moves at most a line of the input to the packet. -/
lemma TcpQry.Reading.bufAdd (h : qry.Reading size bytes) (data rest : Bytes) :
    TcpQry.Reading { qry with input := rest, packet := Evtdig.bufAdd qry.packet data } size
      (bytes ++ data) :=
  ⟨h.wireSize, offset_bufAdd h.offset data, by rw [bytes_bufAdd h.offset, h.packet], h.isOpen,
    h.replies⟩

/-- A round of the loop, while there is input. -/
lemma TcpQry.Reading.round (h : qry.Reading size bytes) (hne : qry.input ≠ []) (fuel : ℕ) :
    ∃ (data : Bytes) (next : TcpQry), qry.input = data ++ next.input ∧ 0 < data.length ∧
      next.Reading size (bytes ++ data) ∧ next.qryid = qry.qryid ∧
      readLoop (fuel + 1) qry = if size = (bytes ++ data).length then next.complete data.length
        else readLoop fuel next := by
  have hdata : qry.input.take lineLength ≠ [] := by
    rw [ne_eq, take_eq_nil_iff]
    exact not_or.mpr ⟨by decide, hne⟩
  have hround := h.bufAdd (qry.input.take lineLength) (qry.input.drop lineLength)
  refine ⟨_, _, (take_append_drop lineLength qry.input).symm, length_pos_iff.mpr hdata,
    hround, rfl, ?_⟩
  rw [readLoop, if_neg hdata, ← hround.packet, ← h.wireSize]
  rfl

/-- The loop collects the input while the reply is incomplete. -/
lemma readLoop_incomplete (fuel : ℕ) : ∀ {qry : TcpQry} {size : ℕ} {bytes : Bytes},
    qry.Reading size bytes → bytes.length + qry.input.length < size → qry.input.length < fuel →
    (readLoop fuel qry).Reading size (bytes ++ qry.input) ∧ (readLoop fuel qry).input = [] ∧
      (readLoop fuel qry).qryid = qry.qryid := by
  induction fuel with
  | zero => exact fun _ _ h => absurd h (Nat.not_lt_zero _)
  | succ fuel ih =>
    intro qry size bytes h hlt hfuel
    by_cases hnil : qry.input = []
    · rw [readLoop, if_pos (by rw [hnil, take_nil]), hnil, append_nil]
      exact ⟨h, rfl, rfl⟩
    · obtain ⟨data, next, hinput, hpos, hnext, hid, hround⟩ := h.round hnil fuel
      rw [hinput, length_append] at hlt hfuel
      rw [hround, if_neg (by rw [length_append]; omega), hinput, ← append_assoc, ← hid]
      exact ih hnext (by rw [length_append]; omega) (by omega)

/-- The loop reports the reply when its last bytes are in the input. -/
lemma readLoop_complete (fuel : ℕ) : ∀ {qry : TcpQry} {size : ℕ} {bytes : Bytes},
    qry.Reading size bytes → bytes.length < size → bytes.length + qry.input.length = size →
    qry.input.length < fuel → uint16 (bytes ++ qry.input) = qry.qryid →
    (readLoop fuel qry).replies = [(size, some (bytes ++ qry.input))] ∧
      (readLoop fuel qry).isOpen = false := by
  induction fuel with
  | zero => exact fun _ _ _ h => absurd h (Nat.not_lt_zero _)
  | succ fuel ih =>
    intro qry size bytes h hlt hsum hfuel hid
    have hne : qry.input ≠ [] := length_pos_iff.mp (by omega)
    obtain ⟨data, next, hinput, hpos, hnext, hid', hround⟩ := h.round hne fuel
    rw [hinput, length_append] at hsum hfuel
    rw [hinput, ← append_assoc, ← hid'] at hid
    rw [hround, hinput, ← append_assoc]
    by_cases hlast : next.input = []
    · -- this is the last line
      rw [hlast, append_nil] at hid ⊢
      rw [hlast, length_nil] at hsum
      have hsize : size = (bytes ++ data).length := by
        rw [length_append]
        omega
      rw [if_pos hsize, hsize]
      unfold TcpQry.complete
      rw [hnext.packet, if_pos hid, Buf.size, hnext.packet]
      refine ⟨?_, rfl⟩
      change next.replies ++ _ = _
      rw [hnext.replies, nil_append]
    · have hrest : 0 < next.input.length := length_pos_iff.mpr hlast
      rw [if_neg (by rw [length_append]; omega)]
      exact ih hnext (by rw [length_append]; omega) (by rw [length_append]; omega) (by omega) hid

/-- A closed connection gets no more segments. -/
lemma deliverAll_closed (h : qry.isOpen = false) (segments : List Bytes) :
    deliverAll qry segments = qry := by
  induction segments with
  | nil => rfl
  | cons segment segments ih =>
    have hdeliver : deliver qry segment = qry := by
      rw [deliver, h]
      rfl
    rw [deliverAll, foldl_cons, hdeliver]
    exact ih

/-- A further segment is read by the loop. -/
lemma TcpQry.Reading.deliver_eq (h : qry.Reading size bytes) (hinput : qry.input = [])
    (hmin : 12 ≤ size) (hlt : bytes.length < size) (segment : Bytes) :
    deliver qry segment = readLoop (segment.length + 1) { qry with input := segment } := by
  have hsize : qry.packet.size < qry.wireSize := by
    rw [Buf.size, h.packet, h.wireSize]
    exact hlt
  have hwire := h.wireSize
  rw [deliver, if_pos h.isOpen, hinput, tcpReadcb]
  dsimp only
  rw [if_neg (by omega), if_neg (by omega)]
  exact if_neg (by dsimp only; omega)

/-- Nothing comes behind the last bytes of the reply. -/
lemma TcpQry.Reading.last {segments : List Bytes} (h : qry.Reading size bytes)
    (hlt : bytes.length < size) (hlen : (bytes ++ (qry.input ++ segments.flatten)).length = size)
    (hid : uint16 (bytes ++ (qry.input ++ segments.flatten)) = qry.qryid)
    (hlast : size ≤ bytes.length + qry.input.length) :
    (deliverAll (readLoop (qry.input.length + 1) qry) segments).replies =
      [(size, some (bytes ++ (qry.input ++ segments.flatten)))] := by
  rw [length_append, length_append] at hlen
  have hnil : segments.flatten = [] := eq_nil_of_length_eq_zero (by omega)
  rw [hnil, append_nil] at hid ⊢
  obtain ⟨hreplies, hclosed⟩ := readLoop_complete (qry.input.length + 1) h hlt (by omega)
    (Nat.lt_succ_self _) hid
  rw [deliverAll_closed hclosed]
  exact hreplies

/-- The input and the segments behind it are put together again. -/
lemma TcpQry.Reading.deliverAll (hmin : 12 ≤ size) (segments : List Bytes) :
    ∀ {qry : TcpQry} {bytes : Bytes}, qry.Reading size bytes → bytes.length < size →
      (bytes ++ (qry.input ++ segments.flatten)).length = size →
      uint16 (bytes ++ (qry.input ++ segments.flatten)) = qry.qryid →
      (Evtdig.deliverAll (readLoop (qry.input.length + 1) qry) segments).replies =
        [(size, some (bytes ++ (qry.input ++ segments.flatten)))] := by
  induction segments with
  | nil =>
    intro qry bytes h hlt hlen hid
    refine h.last hlt hlen hid ?_
    rw [flatten_nil, append_nil, length_append] at hlen
    exact hlen.ge
  | cons segment segments ih =>
    intro qry bytes h hlt hlen hid
    rcases Nat.lt_or_ge (bytes.length + qry.input.length) size with hmore | hlast
    · obtain ⟨hnext, hnil, hqryid⟩ := readLoop_incomplete (qry.input.length + 1) h hmore
        (Nat.lt_succ_self _)
      rw [← length_append] at hmore
      rw [← append_assoc] at hlen hid ⊢
      rw [Evtdig.deliverAll, foldl_cons, hnext.deliver_eq hnil hmin hmore]
      refine ih ⟨hnext.wireSize, hnext.offset, hnext.packet, hnext.isOpen, hnext.replies⟩ hmore
        hlen ?_
      exact hid.trans hqryid.symm
    · exact h.last hlt hlen hid hlast

lemma uint16_be16 {n : ℕ} (h : n < 2 ^ 16) (rest : Bytes) : uint16 (be16 n ++ rest) = n := by
  change 256 * (UInt8.ofNat (n / 256)).toNat + (UInt8.ofNat n).toNat = n
  rw [UInt8.toNat_ofNat', UInt8.toNat_ofNat']
  omega

@[simp]
lemma TcpQry.wireSize_addErr (qry : TcpQry) (text : Bytes) :
    (qry.addErr text).wireSize = qry.wireSize := rfl

@[simp]
lemma TcpQry.replies_addErr (qry : TcpQry) (text : Bytes) :
    (qry.addErr text).replies = qry.replies := rfl

@[simp]
lemma TcpQry.replies_printReply (qry : TcpQry) (size : ℕ) (result : Option Bytes) :
    (qry.printReply size result).replies = qry.replies ++ [(size, result)] := rfl

@[simp]
lemma TcpQry.isOpen_printReply (qry : TcpQry) (size : ℕ) (result : Option Bytes) :
    (qry.printReply size result).isOpen = false := rfl

/-- A length of one byte is an error. -/
lemma TcpQry.readLength_byte (qry : TcpQry) (b : UInt8) :
    TcpQry.readLength { qry with input := [b] } = TcpQry.addErr { qry with input := [] }
      (ascii " \"TCPREAD\" : \"expected 2 bytes and got " ++ natText 1 ++ ascii "\"") := by
  rw [TcpQry.readLength]
  exact if_neg (show ¬ [b].length = 2 by simp)

/-- The first segment is refused if it has one byte only. -/
lemma TcpQry.Fresh.deliver_byte (hq : qry.Fresh) (b : UInt8) :
    (deliver qry [b]).replies = [(0, none)] ∧ (deliver qry [b]).isOpen = false := by
  have hsize : qry.packet.size = 0 := by
    rw [Buf.size, hq.packet]
    rfl
  rw [deliver, if_pos hq.isOpen, hq.input, nil_append, tcpReadcb]
  rw [if_neg (fun h => h.1 hsize), if_pos hq.wireSize, TcpQry.readLength_byte, TcpQry.readBody,
    if_pos (by rw [TcpQry.wireSize_addErr]; dsimp only; rw [hq.wireSize]; decide)]
  simp only [TcpQry.replies_printReply, TcpQry.replies_addErr, TcpQry.isOpen_printReply, hq.replies,
    nil_append, and_self]

/-- The first segment with the length of the reply. -/
lemma TcpQry.Fresh.deliver_eq (hq : qry.Fresh) (hmin : 12 ≤ size) (hmax : size < 2 ^ 16)
    (rest : Bytes) :
    deliver qry (be16 size ++ rest) = readLoop (rest.length + 1)
      { qry with input := rest, wireSize := size, packet := bufInit } := by
  have hsize : qry.packet.size = 0 := by
    rw [Buf.size, hq.packet]
    rfl
  have hlength : TcpQry.readLength { qry with input := be16 size ++ rest } =
      { qry with input := rest, wireSize := size, packet := bufInit } := by
    have huint := uint16_be16 hmax []
    rw [append_nil] at huint
    change { qry with input := rest, wireSize := uint16 (be16 size), packet := bufInit } = _
    rw [huint]
  rw [deliver, if_pos hq.isOpen, hq.input, nil_append, tcpReadcb]
  rw [if_neg (fun h => h.1 hsize), if_pos hq.wireSize, hlength]
  exact if_neg (Nat.not_lt_of_le hmin)

/-- A reply with the identifier of the query that arrives in non-empty segments is reported exactly
once and as it was sent, if and only if the first segment has at least two bytes. -/
theorem deliverAll_replies_iff {qry : TcpQry} (hq : qry.Fresh) {msg : Bytes}
    (hmin : 12 ≤ msg.length) (hmax : msg.length < 2 ^ 16) (hid : uint16 msg = qry.qryid)
    {segments : List Bytes} (hne : ∀ s ∈ segments, s ≠ [])
    (hflatten : segments.flatten = be16 msg.length ++ msg) :
    (deliverAll qry segments).replies = [(msg.length, some msg)] ↔
      2 ≤ (segments.headD []).length := by
  cases segments with
  | nil => exact absurd (congrArg List.length hflatten) (by simp [be16])
  | cons segment segments =>
    rw [headD_cons]
    rw [flatten_cons] at hflatten
    rw [deliverAll, foldl_cons]
    match segment, hne segment mem_cons_self with
    | [b], _ =>
      obtain ⟨hreplies, hclosed⟩ := hq.deliver_byte b
      have hrest := deliverAll_closed hclosed segments
      rw [deliverAll] at hrest
      rw [hrest, hreplies]
      simp
    | b₁ :: b₂ :: rest, _ =>
      refine iff_of_true ?_ (by simp)
      obtain ⟨hb₁, hb₂, hmsg⟩ : b₁ = UInt8.ofNat (msg.length / 256) ∧ b₂ = UInt8.ofNat msg.length ∧
          rest ++ segments.flatten = msg := by
        simpa [be16] using hflatten
      have hfirst := hq.deliver_eq hmin hmax rest
      rw [be16, ← hb₁, ← hb₂, cons_append, cons_append, nil_append] at hfirst
      rw [hfirst]
      have hread : TcpQry.Reading
          { qry with input := rest, wireSize := msg.length, packet := bufInit } msg.length [] :=
        ⟨rfl, rfl, rfl, hq.isOpen, hq.replies⟩
      have hall := hread.deliverAll hmin segments (by rw [length_nil]; omega)
      dsimp only at hall
      rw [nil_append, hmsg] at hall
      exact hall rfl hid

/-- A query with the identifier 7 on a new connection. -/
def newQry : TcpQry := ⟨7, 0, bufInit, bufInit, [], true, []⟩

/-- A reply of twelve bytes that arrives in three segments. -/
theorem deliverAll_replies_three :
    (deliverAll newQry [[0, 12], [0, 7, 1], [2, 3, 4, 5, 6, 7, 8, 9, 10]]).replies =
      [(12, some [0, 7, 1, 2, 3, 4, 5, 6, 7, 8, 9, 10])] :=
  (@deliverAll_replies_iff newQry ⟨rfl, rfl, rfl, rfl, rfl⟩ [0, 7, 1, 2, 3, 4, 5, 6, 7, 8, 9, 10]
    (by decide) (by decide) rfl [[0, 12], [0, 7, 1], [2, 3, 4, 5, 6, 7, 8, 9, 10]] (by decide)
    rfl).mpr (by decide)

/-- The same reply is lost if its first byte arrives alone. -/
theorem deliverAll_byte :
    (deliverAll newQry [[0], [12, 0, 7, 1], [2, 3, 4, 5, 6, 7, 8, 9, 10]]).replies =
      [(0, none)] := by
  decide +kernel

end AtlasProbe.Evtdig
