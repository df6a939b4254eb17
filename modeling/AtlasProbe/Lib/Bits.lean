import AtlasProbe.Lib.Bytes
import Mathlib.Data.List.Basic
import Mathlib.Data.List.Induction
import Mathlib.Data.Nat.Bitwise

/-!
# Bit strings of naturals and byte strings

`natBits w n` lists the low `w` bits of `n`, most significant bit first, and `byteBits`
concatenates the bits of a byte string in network order.  The lemmas describe how the shifts and
masks of a bit buffer (append a byte on the right, look at the leading bits) act on these lists.
-/

namespace AtlasProbe

open List

/-- The low `w` bits of `n`, most significant bit first. -/
def natBits : ℕ → ℕ → List Bool
  | 0, _ => []
  | w + 1, n => n.testBit w :: natBits w n

/-- `natBits w n` has `w` entries. -/
@[simp]
lemma length_natBits (w n : ℕ) : (natBits w n).length = w := by
  induction w with
  | zero => rfl
  | succ w ih => simp [natBits, ih]

/-- Two numbers that agree on their low `w` bits have the same bit list. -/
lemma natBits_congr {w m n : ℕ} (h : ∀ i < w, m.testBit i = n.testBit i) :
    natBits w m = natBits w n := by
  induction w with
  | zero => rfl
  | succ w ih =>
    simp only [natBits]
    rw [h w (Nat.lt_succ_self w), ih fun i hi => h i (Nat.lt_succ_of_lt hi)]

/-- Splitting off the low `b` bits: the high part is the bit list of the shifted number. -/
lemma natBits_add (a b n : ℕ) : natBits (a + b) n = natBits a (n >>> b) ++ natBits b n := by
  induction a with
  | zero => simp [natBits]
  | succ a ih =>
    rw [Nat.succ_add]
    simp only [natBits, ih, cons_append, Nat.testBit_shiftRight]
    rw [Nat.add_comm b a]

/-- Reducing modulo a power of two keeps the bits below it. -/
lemma natBits_mod_two_pow {w k : ℕ} (h : w ≤ k) (n : ℕ) :
    natBits w (n % 2 ^ k) = natBits w n := by
  apply natBits_congr
  intro i hi
  simp [Nat.lt_of_lt_of_le hi h]

/-- The bit list of zero. -/
lemma natBits_zero_right (w : ℕ) : natBits w 0 = List.replicate w false := by
  induction w with
  | zero => rfl
  | succ w ih => simp [natBits, ih, replicate_succ]

/-- A left shift appends zero bits. -/
lemma natBits_shiftLeft (a b n : ℕ) :
    natBits (a + b) (n <<< b) = natBits a n ++ List.replicate b false := by
  rw [natBits_add, Nat.shiftLeft_shiftRight]
  congr 1
  rw [← natBits_zero_right]
  apply natBits_congr
  intro i hi
  simp [Nat.not_le_of_lt hi]

/-- Shifting in a byte appends its bits. -/
lemma natBits_shiftLeft_or {a b m : ℕ} (n : ℕ) (hm : m < 2 ^ b) :
    natBits (a + b) (n <<< b ||| m) = natBits a n ++ natBits b m := by
  rw [natBits_add]
  congr 1
  · apply natBits_congr
    intro i _
    have hhigh : m.testBit (b + i) = false :=
      Nat.testBit_lt_two_pow (lt_of_lt_of_le hm (Nat.pow_le_pow_right (by decide) (by omega)))
    simp [hhigh]
  · apply natBits_congr
    intro i hi
    simp [Nat.not_le_of_lt hi]

/-- The bit list determines the number below its range. -/
lemma natBits_injective {w m n : ℕ} (hm : m < 2 ^ w) (hn : n < 2 ^ w)
    (h : natBits w m = natBits w n) : m = n := by
  have key : ∀ w m n, natBits w m = natBits w n → ∀ i < w, m.testBit i = n.testBit i := by
    intro w
    induction w with
    | zero => intro m n _ i hi; omega
    | succ w ih =>
      intro m n h i hi
      simp only [natBits, List.cons.injEq] at h
      rcases Nat.lt_succ_iff_lt_or_eq.mp hi with hlt | rfl
      · exact ih m n h.2 i hlt
      · exact h.1
  apply Nat.eq_of_testBit_eq
  intro i
  by_cases hi : i < w
  · exact key w m n h i hi
  · have hle : 2 ^ w ≤ 2 ^ i := Nat.pow_le_pow_right (by decide) (by omega)
    rw [Nat.testBit_lt_two_pow (lt_of_lt_of_le hm hle),
      Nat.testBit_lt_two_pow (lt_of_lt_of_le hn hle)]

/-- A number whose bits come first is given by the low bits of the number that is there. -/
lemma natBits_prefix_iff {w m n : ℕ} (hm : m < 2 ^ w) (t : List Bool) :
    natBits w m <+: natBits w n ++ t ↔ m = n % 2 ^ w := by
  constructor
  · rintro ⟨s, hs⟩
    apply natBits_injective hm (Nat.mod_lt _ (Nat.two_pow_pos _))
    rw [natBits_mod_two_pow le_rfl, (append_inj hs (by simp)).1]
  · rintro rfl
    rw [natBits_mod_two_pow le_rfl]
    exact prefix_append _ _

/-- The numbers that start with some bits are an interval. -/
lemma natBits_prefix_natBits_iff {len w m n : ℕ} (hlen : len ≤ w) (hn : n < 2 ^ w) :
    natBits len m <+: natBits w n ↔ (m % 2 ^ len) <<< (w - len) ≤ n ∧
      n < (m % 2 ^ len) <<< (w - len) + 2 ^ (w - len) := by
  obtain ⟨k, rfl⟩ : ∃ k, w = len + k := ⟨w - len, by omega⟩
  have hpow : 0 < 2 ^ k := Nat.two_pow_pos k
  have hfront : n / 2 ^ k < 2 ^ len := by
    rw [Nat.div_lt_iff_lt_mul hpow, ← Nat.pow_add]
    exact hn
  rw [Nat.add_sub_cancel_left, natBits_add, ← natBits_mod_two_pow le_rfl m,
    natBits_prefix_iff (Nat.mod_lt _ (Nat.two_pow_pos _)), Nat.shiftRight_eq_div_pow,
    Nat.mod_eq_of_lt hfront, eq_comm, Nat.div_eq_iff hpow, Nat.shiftLeft_eq]
  constructor <;> rintro ⟨h1, h2⟩ <;> constructor <;> omega

/-- The end of that interval. -/
lemma mod_shiftLeft_add_le {len w : ℕ} (hlen : len ≤ w) (m : ℕ) :
    (m % 2 ^ len) <<< (w - len) + 2 ^ (w - len) ≤ 2 ^ w := by
  have hsplit : 2 ^ w = 2 ^ len * 2 ^ (w - len) := by
    rw [← Nat.pow_add, Nat.add_sub_cancel' hlen]
  rw [Nat.shiftLeft_eq, ← Nat.succ_mul, hsplit]
  exact Nat.mul_le_mul_right _ (Nat.mod_lt _ (Nat.two_pow_pos _))

/-- All bits of a mask `2 ^ w - 1` are one. -/
lemma natBits_two_pow_sub_one (w : ℕ) : natBits w (2 ^ w - 1) = List.replicate w true := by
  have key : ∀ k ≤ w, natBits k (2 ^ w - 1) = List.replicate k true := by
    intro k
    induction k with
    | zero => intro _; rfl
    | succ k ih =>
      intro hk
      simp [natBits, ih (by omega), replicate_succ]
      omega
  exact key w le_rfl

/-- A masked comparison with `2 ^ w - 1` tests that the low `w` bits are all one. -/
lemma and_mask_eq_iff (w n : ℕ) :
    n &&& (2 ^ w - 1) = 2 ^ w - 1 ↔ natBits w n = List.replicate w true := by
  rw [Nat.and_two_pow_sub_one_eq_mod]
  have hpos : 0 < 2 ^ w := Nat.two_pow_pos w
  constructor
  · intro h
    rw [← natBits_mod_two_pow le_rfl, h, natBits_two_pow_sub_one]
  · intro h
    apply natBits_injective (Nat.mod_lt _ hpos) (by omega)
    rw [natBits_mod_two_pow le_rfl, h, natBits_two_pow_sub_one]

/-- The bits of a byte string, first byte and most significant bit first. -/
def byteBits (b : Bytes) : List Bool := b.flatMap fun x => natBits 8 x.toNat

@[simp]
lemma byteBits_nil : byteBits [] = [] := rfl

@[simp]
lemma byteBits_cons (x : UInt8) (b : Bytes) :
    byteBits (x :: b) = natBits 8 x.toNat ++ byteBits b := rfl

/-- A byte string has eight bits a byte. -/
@[simp]
lemma length_byteBits (b : Bytes) : (byteBits b).length = 8 * b.length := by
  induction b with
  | nil => rfl
  | cons x b ih => simp [ih]; omega

/-- The bits determine the bytes. -/
lemma byteBits_injective : Function.Injective byteBits := by
  intro a b h
  induction a generalizing b with
  | nil =>
    have := congrArg List.length h
    simp at this
    exact this.symm
  | cons x a ih =>
    cases b with
    | nil => simpa using congrArg List.length h
    | cons y b =>
      obtain ⟨h1, h2⟩ := append_inj h (by simp)
      have hxy : x.toNat = y.toNat := natBits_injective x.toNat_lt y.toNat_lt h1
      rw [UInt8.toNat_inj.mp hxy, ih h2]

/-! ### Packing bits into bytes -/

/-- The number with the given bits, most significant bit first. -/
def bitsNat (l : List Bool) : ℕ := l.foldl (fun n b => 2 * n + b.toNat) 0

/-- `bitsNat` is read off the last bit. -/
lemma bitsNat_append_singleton (l : List Bool) (b : Bool) :
    bitsNat (l ++ [b]) = 2 * bitsNat l + b.toNat := by
  simp [bitsNat]

/-- The bit list of the number with the given bits. -/
lemma natBits_bitsNat (l : List Bool) : natBits l.length (bitsNat l) = l := by
  induction l using reverseRecOn with
  | nil => rfl
  | append_singleton l b ih =>
    have hhigh : (2 * bitsNat l + b.toNat) >>> 1 = bitsNat l := by
      have hb : b.toNat ≤ 1 := Bool.toNat_le b
      omega
    rw [bitsNat_append_singleton, length_append, length_singleton, natBits_add, hhigh, ih]
    cases b <;> simp [natBits]

/-- The bits of a number fit its length. -/
lemma bitsNat_lt (l : List Bool) : bitsNat l < 2 ^ l.length := by
  induction l using reverseRecOn with
  | nil => decide
  | append_singleton l b ih =>
    have hb : b.toNat ≤ 1 := Bool.toNat_le b
    rw [bitsNat_append_singleton, length_append, length_singleton]
    omega

/-- The first `n` bytes of a bit string. -/
def packBits : ℕ → List Bool → Bytes
  | 0, _ => []
  | n + 1, l => UInt8.ofNat (bitsNat (l.take 8)) :: packBits n (l.drop 8)

/-- Packing a bit string of whole bytes loses nothing. -/
lemma byteBits_packBits (n : ℕ) (l : List Bool) (h : l.length = 8 * n) :
    byteBits (packBits n l) = l := by
  induction n generalizing l with
  | zero => exact (eq_nil_of_length_eq_zero h).symm
  | succ n ih =>
    have htake : (l.take 8).length = 8 := by rw [length_take]; omega
    have hlt : bitsNat (l.take 8) < 256 := by simpa [htake] using bitsNat_lt (l.take 8)
    have hbyte : natBits 8 (UInt8.ofNat (bitsNat (l.take 8))).toNat = l.take 8 := by
      rw [UInt8.toNat_ofNat_of_lt' hlt]
      simpa [htake] using natBits_bitsNat (l.take 8)
    rw [packBits, byteBits_cons, hbyte, ih (l.drop 8) (by rw [length_drop]; omega),
      take_append_drop]

end AtlasProbe
