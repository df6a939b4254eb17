import Mathlib.Data.Int.SuccPred
import Mathlib.Order.Interval.Set.Infinite
import AtlasProbe.Httppost.Reply

/-!
# The time of the server

A reply has a time in the headers named `Date`.  A date that cannot be parsed (`DateParser`) is only
reported, and the time is taken from what there is (`DateParser.serverTime`, `setTime`).
-/

namespace AtlasProbe.Httppost

open List

/-- `strptime` with the format of a date: the time that `timegm` makes of the result and the text
behind the format.  If the text does not match, then `timegm` is given what there is in `tm`. -/
structure DateParser where
  strptime : Bytes → Option (ℤ × Bytes)
  leftover : Bytes → ℤ

/-- The time for the text of a date. -/
def DateParser.timegm (p : DateParser) (text : Bytes) : ℤ :=
  ((p.strptime text).map Prod.fst).getD (p.leftover text)

/-- The lines that `eat_headers` reads in front of the empty one -/
def headerLines : ℕ → Bytes → Headers → Option (List Bytes)
  | 0, _, _ => none
  | fuel + 1, input, h =>
    match readLine input with
    | none => none
    | some (line, rest) =>
      if line = [] then some []
      else
        match headerLine line h with
        | none => none
        | some h => (headerLines fuel rest h).map (line :: ·)

/-- The text of a line that starts with `Date: ` -/
def dateText (line : Bytes) : Option Bytes :=
  if line.take 6 = ascii "Date: " then some (line.drop 6) else none

/-- The dates of a reply; nothing is done with those of a reply that is rejected. -/
def dates (reply : Bytes) : List Bytes :=
  match (checkResult reply).bind fun rest => headerLines rest.length rest ⟨false, -1⟩ with
  | none => []
  | some lines => lines.filterMap dateText

/-- The variable `server_time` behind the headers -/
def DateParser.serverTime (p : DateParser) (reply : Bytes) : ℤ :=
  (dates reply).foldl (fun _ text => p.timegm text) 0

/-- The option, the environment, and the comparisons of the clock with the time of the server. -/
structure TimeCheck where
  tolerance : Bool
  needSetTime : ℤ → Bool
  allowStime : Bool
  rttFine : Bool

/-- What is done about the time. -/
inductive TimeAct
  | clockSettime (time : ℤ)
  | timesyncFile
  deriving DecidableEq

/-- The part of `httppost_main` for the time -/
def setTime (c : TimeCheck) (serverTime : ℤ) : Option TimeAct :=
  if c.tolerance ∧ 0 < serverTime then
    if c.needSetTime serverTime then
      if c.allowStime then some (.clockSettime serverTime) else none
    else if c.rttFine then some .timesyncFile else none
  else none

/-- Whatever is in `tm`, the time of the server is that of a date which is parsed completely if and
only if the last date has the format up to the zone, with such a time or none to be used. -/
theorem setTime_valid_iff (strptime : Bytes → Option (ℤ × Bytes)) (reply : Bytes) :
    (∀ leftover c, setTime c (DateParser.serverTime ⟨strptime, leftover⟩ reply) ≠ none →
      ∃ text ∈ dates reply, strptime text =
        some (DateParser.serverTime ⟨strptime, leftover⟩ reply, ascii "GMT")) ↔
    ∀ text ∈ (dates reply).getLast?, ∃ time rest, strptime text = some (time, rest) ∧
      (0 < time → ∃ text' ∈ dates reply, strptime text' = some (time, ascii "GMT")) := by
  have hset (time : ℤ) (h : 0 < time) : setTime ⟨true, fun _ => true, true, true⟩ time ≠ none := by
    simp [setTime, h]
  unfold DateParser.serverTime
  rcases eq_nil_or_concat (dates reply) with hnil | ⟨front, last, hlast⟩
  · rw [hnil]
    exact iff_of_true (fun leftover c h => absurd (by simp [setTime]) h) nofun
  · rw [hlast, concat_eq_append, getLast?_concat]
    simp only [foldl_append, foldl_cons, foldl_nil, DateParser.timegm, Option.mem_some_iff,
      forall_eq']
    cases hparse : strptime last with
    | none =>
      refine iff_of_false (fun h => ?_) (by simp)
      -- a time that no date denotes may be left
      obtain ⟨time, hpos, hfresh⟩ := (Set.Ioi_infinite (0 : ℤ)).exists_notMem_finset
        ((front ++ [last]).filterMap fun text => (strptime text).map Prod.fst).toFinset
      obtain ⟨text, htext, heq⟩ := h (fun _ => time) _ (hset time hpos)
      exact hfresh (mem_toFinset.mpr (mem_filterMap.mpr ⟨text, htext, by rw [heq]; rfl⟩))
    | some parsed =>
      constructor
      · intro h
        exact ⟨parsed.1, parsed.2, rfl, fun hpos => h (fun _ => 0) _ (hset parsed.1 hpos)⟩
      · rintro ⟨time, rest, ⟨⟩, hvalid⟩ leftover c hact
        refine hvalid (by_contra fun hpos => hact ?_)
        simp [setTime, hpos]

/-- The time in another zone is taken as it is. -/
theorem setTime_of_other_zone :
    let p : DateParser := ⟨fun text => some (1672628645, text.drop 26), fun _ => 0⟩
    let reply := ascii "HTTP/1.1 200 OK\r\nDate: Mon, 02 Jan 2023 03:04:05 EST\r\n\r\n"
    setTime ⟨true, fun _ => true, true, true⟩ (p.serverTime reply) =
        some (.clockSettime 1672628645) ∧
      ∀ text ∈ dates reply, (p.strptime text).map Prod.snd ≠ some (ascii "GMT") := by
  decide +kernel

end AtlasProbe.Httppost
