import AtlasProbe.Http2.Literal

/-!
# Integers

An integer with a prefix is read back from what `add_length2` writes.
-/

namespace AtlasProbe.Http2

open List

variable (u : Platform)

/-- A pattern that leaves the bits of the first byte free. -/
lemma isFlag_of_mod {prefixLen prefixValue : ℕ} (hlow : prefixValue % 2 ^ (8 - prefixLen) = 0) :
    IsFlag prefixLen prefixValue := by
  refine ⟨fun value hvalue => ?_⟩
  have hdvd : 2 ^ (8 - prefixLen) ∣ 2 ^ 8 := Nat.pow_dvd_pow 2 (Nat.sub_le 8 prefixLen)
  have hor : prefixValue ||| value =
      prefixValue / 2 ^ (8 - prefixLen) * 2 ^ (8 - prefixLen) + value := by
    rw [← Nat.shiftLeft_eq, Nat.shiftLeft_add_eq_or_of_lt hvalue, Nat.shiftLeft_eq,
      Nat.div_mul_cancel (Nat.dvd_of_mod_eq_zero hlow)]
  rw [Nat.and_two_pow_sub_one_eq_mod, UInt8.toNat_ofNat', Nat.mod_mod_of_dvd _ hdvd, hor,
    Nat.mul_add_mod_self_right, Nat.mod_eq_of_lt hvalue]

/-- What `add_length2` writes is read back, whatever follows it. -/
theorem xDecodeInt2_addLength2 {prefixLen value : ℕ} {prefixValue : UInt8} (_ : 1 ≤ prefixLen)
    (_ : prefixLen ≤ 7) (hlow : prefixValue.toNat % 2 ^ (8 - prefixLen) = 0)
    (hvalue : value < 2 ^ 32) (env : Http2Env) (rest : Bytes) (c : Conn) :
    ∃ bytes, (addLength2 env prefixLen prefixValue.toNat value).http2Headers =
        env.http2Headers ++ bytes ∧
      xDecodeInt2 u (bytes ++ rest) (bytes ++ rest).length prefixLen c =
        .ok (bytes.length, value) c := by
  refine ⟨_, http2Headers_addLength2 env prefixLen prefixValue.toNat value, ?_⟩
  refine xDecodeInt2_lengthBytes u (isFlag_of_mod hlow) hvalue ?_ rest c
  rw [length_append]
  exact Nat.le_add_right _ _

theorem xDecodeInt2_addLength2_max :
    ∃ bytes, (addLength2 (http2Dns 200 [] [] []).env 1 0x80 (2 ^ 32 - 1)).http2Headers =
        (http2Dns 200 [] [] []).env.http2Headers ++ bytes ∧
      xDecodeInt2 .x86 (bytes ++ [0xff]) (bytes ++ [0xff]).length 1 (http2Dns 200 [] [] []) =
        .ok (bytes.length, 2 ^ 32 - 1) (http2Dns 200 [] [] []) :=
  @xDecodeInt2_addLength2 .x86 1 (2 ^ 32 - 1) 0x80 (by decide) (by decide) (by decide) (by decide)
    _ [0xff] _

end AtlasProbe.Http2
