import AtlasProbe.Http2.Run

/-!
# The capacity of the input buffer

`http2_input_max` is the recorded capacity of the block `http2_input`.  The frame reader keeps the
two together, but `add_dyn`, which should grow the dynamic table, stores the new capacity of that
table in `http2_input_max`.  The recorded capacity is right as long as every call of `add_dyn` finds
a block of at least this size.
-/

namespace AtlasProbe.Http2

open List

variable {u : Platform}

/-- The recorded capacity and the bytes read so far do not exceed the allocated size. -/
structure Within (c : Conn) : Prop where
  max_le : c.env.http2InputMax ≤ c.env.http2Input.size
  len_le : c.env.http2InputLen ≤ c.env.http2Input.size

/-- A call keeps the recorded capacity right if the calls of `add_dyn` fit. -/
structure CapacityKept (c c' : Conn) : Prop where
  log : ∀ e ∈ c.log, e ∈ c'.log
  within : (∀ e ∈ c'.log, e.Fits) → c.env.http2InputMax ≤ c.env.http2Input.size → Within c'

section Call

variable {c c₁ c' : Conn} {x : Bytes}

lemma ReadMore.capacityKept (h : ReadMore c c' x) : CapacityKept c c' :=
  ⟨fun _ he => h.log ▸ he,
    fun _ hmax => ⟨h.fits hmax, h.len_le.trans c'.env.http2Input.bytes_le⟩⟩

lemma CapacityKept.sameInput (h : CapacityKept c c₁) (h' : SameInput c₁ c') :
    CapacityKept c c' := by
  refine ⟨fun e he => h'.log e (h.log e he), fun hfits hmax => ?_⟩
  have hwithin := h.within (fun e he => hfits e (h'.log e he)) hmax
  refine ⟨h'.max_le hfits hwithin.max_le, ?_⟩
  rw [h'.http2InputLen, h'.http2Input]
  exact hwithin.len_le

lemma CapacityKept.accept (h : CapacityKept c c₁) (f : Frame) : CapacityKept c (c₁.accept f) := by
  refine ⟨fun e he => mem_append_left _ (h.log e he), fun hfits hmax => ⟨?_, Nat.zero_le _⟩⟩
  exact (h.within (fun e he => hfits e (mem_append_left _ he)) hmax).max_le

/-- A call keeps the capacity, and does not overflow the block if the capacity is right. -/
lemma xHttp2DnsInput1_capacity (hc : Reader c) :
    Wp (xHttp2DnsInput1 u) c (fun _ c' => CapacityKept c c') fun why c' => CapacityKept c c' ∧
      (c.env.http2InputMax ≤ c.env.http2Input.size → why ≠ .overflow) := by
  refine wp_xHttp2DnsInput1 u hc ?_ (fun _ _ hread _ => hread.capacityKept) ?_
  · intro c₁ x hread hsize
    exact ⟨hread.capacityKept, fun hmax => absurd hsize (Nat.not_lt_of_le (hread.fits hmax))⟩
  · refine fun c₁ x hread _ => (handleFrame_input u c₁).mono ?_ ?_
    · rintro _ _ ⟨c₂, f, hsame, rfl⟩
      exact (hread.capacityKept.sameInput hsame).accept f
    · exact fun why c' h => ⟨hread.capacityKept.sameInput h.2, fun _ => h.1⟩

end Call

/-- In a run in which the calls of `add_dyn` fit, the capacity stays right. -/
lemma Reached.within {c₀ c : Conn} (h₀ : Reader c₀)
    (hmax : c₀.env.http2InputMax ≤ c₀.env.http2Input.size) {o : Outcome} (h : Reached u c₀ o c) :
    (∀ e ∈ c.log, e.Fits) → Within c ∧ o ≠ .stopped .overflow := by
  induction h with
  | start => exact fun _ => ⟨⟨hmax, h₀.len_le.trans c₀.env.http2Input.bytes_le⟩, nofun⟩
  | arrive chunk _ _ ih => exact fun hfits => ⟨⟨(ih hfits).1.max_le, (ih hfits).1.len_le⟩, nofun⟩
  | call hc _ _ hcall ih =>
    intro hfits
    have hkept := (xHttp2DnsInput1_capacity (hc.reader h₀ rfl)).of_ok hcall
    exact ⟨hkept.within hfits (ih fun e he => hfits e (hkept.log e he)).1.max_le, nofun⟩
  | stop hc _ _ hcall ih =>
    intro hfits
    obtain ⟨hkept, hwhy⟩ := (xHttp2DnsInput1_capacity (hc.reader h₀ rfl)).of_error hcall
    have hmax' := (ih fun e he => hfits e (hkept.log e he)).1.max_le
    exact ⟨hkept.within hfits hmax', fun hover => hwhy hmax' (Outcome.stopped.inj hover)⟩
  | reply _ _ ih =>
    intro hfits
    have hwithin := (ih fun e he => hfits e (mem_append_left _ he)).1
    exact ⟨⟨hwithin.max_le, hwithin.len_le⟩, nofun⟩

/-- The recorded capacity of a new connection is right. -/
lemma inputMax_http2Dns (status : ℕ) (hostnamePort path data : Bytes) :
    (http2Dns status hostnamePort path data).env.http2InputMax ≤
      (http2Dns status hostnamePort path data).env.http2Input.size := by
  rw [env_http2Dns]
  exact le_rfl

/-- In every run after `http2_dns` in which each call of `add_dyn` stores a value that `http2_input`
has room for, the recorded capacity of the input buffer never exceeds the allocated size, and no
read writes behind it. -/
theorem reached_within (status : ℕ) (hostnamePort path data : Bytes) {o : Outcome} {c : Conn}
    (h : Reached u (http2Dns status hostnamePort path data) o c) (hfits : ∀ e ∈ c.log, e.Fits) :
    Within c ∧ o ≠ .stopped .overflow :=
  h.within (between_http2Dns status hostnamePort path data).reader (inputMax_http2Dns _ _ _ _) hfits

/-- A settings frame of 18 bytes, and a HEADERS frame with `:status: 204`. -/
def settingsStatus : List Bytes :=
  [[0, 0, 18, 4, 0, 0, 0, 0, 0] ++ replicate 18 0, [0, 0, 1, 1, 4, 0, 0, 0, 1, 0x89]]

/-- In the HEADERS frame, `add_dyn` finds 27 bytes. -/
theorem reached_within_headers :
    (∀ e ∈ (session .x86 plainConn settingsStatus).2.log, e.Fits) ∧
    Within (session .x86 plainConn settingsStatus).2 := by
  have hfits : ∀ e ∈ (session .x86 plainConn settingsStatus).2.log, e.Fits := by
    decide +kernel
  have h₀ : Between plainConn := between_http2Dns 0 [] [] []
  exact ⟨hfits, (reached_within 0 [] [] [] (session_reached h₀.reader h₀.done _) hfits).1⟩

/-- A HEADERS frame of one byte, `:status: 200`, leaves a recorded capacity of 16 bytes for a block
of 10 bytes, and the next frame of 16 bytes is written behind the block. -/
theorem not_within :
    (∃ c, Reached .x86 plainConn .more c ∧ c.env.http2Input.size = 10 ∧
      c.env.http2InputMax = 16) ∧
    ∃ c, Reached .x86 plainConn (.stopped .overflow) c := by
  have h₀ : Between plainConn := between_http2Dns 0 [] [] []
  have hrun := fun chunks => session_reached (u := .x86) h₀.reader h₀.done chunks
  have hmore : (session .x86 plainConn [[0, 0, 1, 1, 4, 0, 0, 0, 1, 0x88]]).1 =
      .more := by
    decide +kernel
  have hstop : (session .x86 plainConn
      [[0, 0, 1, 1, 4, 0, 0, 0, 1, 0x88], [0, 0, 7, 4, 0, 0, 0, 0, 0, 1, 2, 3, 4, 5, 6, 7]]).1 =
      .stopped .overflow := by
    decide +kernel
  refine ⟨⟨_, hmore ▸ hrun _, ?_, ?_⟩, ⟨_, hstop ▸ hrun _⟩⟩
  · decide +kernel
  · decide +kernel

end AtlasProbe.Http2
