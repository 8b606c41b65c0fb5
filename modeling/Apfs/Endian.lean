import Mathlib

/-!
# Little-endian byte strings

Every integer member of a tree block is stored least significant byte first.
The kernel primitives `get_unaligned_le##bits` and `put_unaligned_le##bits`
that the accessors of `struct-funcs.c` call are modelled here by the pair
{lit}`leValue` and {lit}`leBytes`, and a byte range of a buffer by
{lit}`byteRange`.

Main results:

- Theorem {lit}`leValue_leBytes`: storing `n` bytes of a value and loading them
  back gives the value modulo `256 ^ n`.
- Theorem {lit}`leValue_byteRange_of_leByte`: the same for a byte range of
  any image whose bytes are those of the value.
- Theorem {lit}`leValue_lt`: a load of `n` bytes is below `256 ^ n`.
-/

namespace Apfs

/-- `get_unaligned_le##bits`: the value of a byte string, least significant
byte first. -/
def leValue : List UInt8 → Nat
  | [] => 0
  | b :: bs => b.toNat + 256 * leValue bs

/-- `put_unaligned_le##bits`: the `n` low bytes of `v`, least significant
byte first. -/
def leBytes : Nat → Nat → List UInt8
  | 0, _ => []
  | n + 1, v => UInt8.ofNat v :: leBytes n (v / 256)

/-- The bytes `[o, o + n)` of a byte-addressed image. -/
def byteRange (img : Nat → UInt8) (o n : Nat) : List UInt8 :=
  (List.range n).map fun j => img (o + j)

@[simp]
theorem leValue_nil : leValue [] = 0 :=
  rfl

@[simp]
theorem leValue_cons (b : UInt8) (bs : List UInt8) :
    leValue (b :: bs) = b.toNat + 256 * leValue bs :=
  rfl

@[simp]
theorem length_leBytes (n v : Nat) : (leBytes n v).length = n := by
  induction n generalizing v with
  | zero => rfl
  | succ n ih => simp [leBytes, ih]

@[simp]
theorem length_byteRange (img : Nat → UInt8) (o n : Nat) :
    (byteRange img o n).length = n := by
  simp [byteRange]

theorem getElem_byteRange (img : Nat → UInt8) (o n j : Nat)
    (h : j < (byteRange img o n).length) :
    (byteRange img o n)[j] = img (o + j) := by
  simp [byteRange]

/-- Loading `n` stored bytes returns the stored value modulo `256 ^ n`. -/
theorem leValue_leBytes (n v : Nat) : leValue (leBytes n v) = v % 256 ^ n := by
  induction n generalizing v with
  | zero => simp [leBytes, Nat.mod_one]
  | succ n ih =>
    have hbyte : (UInt8.ofNat v).toNat = v % 256 := rfl
    rw [leBytes, leValue_cons, ih, hbyte, Nat.pow_succ', Nat.mod_mul]

/-- Byte `r` of `v` stored little-endian. -/
def leByte (v r : Nat) : UInt8 :=
  UInt8.ofNat (v / 256 ^ r)

@[simp]
theorem leByte_zero (r : Nat) : leByte 0 r = 0 := by
  simp [leByte]

theorem getD_leBytes (n v : Nat) {j : Nat} (h : j < n) : (leBytes n v).getD j 0 = leByte v j := by
  induction n generalizing v j with
  | zero => omega
  | succ n ih =>
    cases j with
    | zero => simp [leBytes, leByte]
    | succ j =>
      rw [leBytes, List.getD_cons_succ, ih (v / 256) (by omega), leByte, leByte,
        Nat.div_div_eq_div_mul, ← Nat.pow_succ']

/-- A load of bytes that hold `v` little-endian returns `v` modulo the range
of the load, wherever the bytes come from. -/
theorem leValue_byteRange_of_leByte {img : Nat → UInt8} {o w v : Nat}
    (h : ∀ j < w, img (o + j) = leByte v j) : leValue (byteRange img o w) = v % 256 ^ w := by
  have hbytes : byteRange img o w = leBytes w v :=
    List.ext_getElem (by simp) fun j h1 h2 => by
      rw [length_byteRange] at h1
      rw [getElem_byteRange, h j h1, ← getD_leBytes w v h1, List.getD_eq_getElem?_getD,
        List.getElem?_eq_getElem h2, Option.getD_some]
  rw [hbytes, leValue_leBytes]

/-- Storing the value of loaded bytes gives the bytes back. -/
theorem leBytes_leValue (bs : List UInt8) : leBytes bs.length (leValue bs) = bs := by
  induction bs with
  | nil => rfl
  | cons b bs ih =>
    have hb : b.toNat < 256 := b.val.isLt
    have hbyte : UInt8.ofNat (b.toNat + 256 * leValue bs) = b :=
      UInt8.toNat.inj (show (b.toNat + 256 * leValue bs) % 256 = b.toNat by omega)
    rw [List.length_cons, leBytes, leValue_cons, hbyte,
      show (b.toNat + 256 * leValue bs) / 256 = leValue bs by omega, ih]

theorem getD_byteRange (img : Nat → UInt8) (o n : Nat) {k : Nat} (hk : k < n) :
    (byteRange img o n).getD k 0 = img (o + k) := by
  rw [List.getD_eq_getElem?_getD, List.getElem?_eq_getElem (by simpa using hk), Option.getD_some,
    getElem_byteRange]

/-- A load of `n` bytes fits in `n` bytes. -/
theorem leValue_lt (bs : List UInt8) : leValue bs < 256 ^ bs.length := by
  induction bs with
  | nil => simp
  | cons b bs ih =>
    have hb : b.toNat < 256 := b.val.isLt
    rw [leValue_cons, List.length_cons, Nat.pow_succ']
    omega

theorem byteRange_add (img : Nat → UInt8) (o a b : Nat) :
    byteRange img o (a + b) = byteRange img o a ++ byteRange img (o + a) b := by
  simp [byteRange, List.range_add, Nat.add_assoc]

/-- A load of at most `n` bytes fits in a `u(8n)`. -/
theorem leValue_lt_two_pow {bs : List UInt8} {n : Nat} (h : bs.length ≤ n) :
    leValue bs < 2 ^ (8 * n) :=
  calc leValue bs < 256 ^ bs.length := leValue_lt bs
    _ ≤ 256 ^ n := Nat.pow_le_pow_right (by decide) h
    _ = 2 ^ (8 * n) := by rw [Nat.pow_mul]

end Apfs
