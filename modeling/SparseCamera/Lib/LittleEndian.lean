import Mathlib.Data.List.Basic
import Mathlib.Logic.Equiv.Basic
import Mathlib.Tactic.Ring

/-!
# Little-endian byte strings

A natural number is laid out as a fixed number of bytes, least significant first, and read back.
Both directions are total; `decode_encode` and `encode_decode` say on what they are inverse: the
numbers below `256 ^ w` on one side, the byte strings of length `w` on the other.

A `Codec` packages the same two laws for a type of values; the machine integers have one each, and
an array is stored element after element.
-/

namespace LittleEndian

/-! ## One number -/

/-- The low `w` bytes of `n`, least significant first. -/
def encode : ℕ → ℕ → List UInt8
  | 0, _ => []
  | w + 1, n => UInt8.ofNat n :: encode w (n / 256)

/-- The number a byte string denotes, least significant byte first. -/
def decode : List UInt8 → ℕ
  | [] => 0
  | b :: bs => b.toNat + 256 * decode bs

@[simp] theorem length_encode (w n : ℕ) : (encode w n).length = w := by
  induction w generalizing n with
  | zero => rfl
  | succ w ih => rw [encode, List.length_cons, ih]

theorem decode_lt (bs : List UInt8) : decode bs < 256 ^ bs.length := by
  induction bs with
  | nil => simp [decode]
  | cons b bs ih =>
    have hb : b.toNat < 256 := b.toNat_lt
    rw [decode, List.length_cons, pow_succ]
    omega

theorem decode_encode {w n : ℕ} (h : n < 256 ^ w) : decode (encode w n) = n := by
  induction w generalizing n with
  | zero => simp at h; simp [encode, decode, h]
  | succ w ih =>
    have hdiv : n / 256 < 256 ^ w := by
      rw [pow_succ] at h
      omega
    rw [encode, decode, ih hdiv, UInt8.toNat_ofNat']
    omega

theorem encode_decode (bs : List UInt8) : encode bs.length (decode bs) = bs := by
  induction bs with
  | nil => rfl
  | cons b bs ih =>
    have hb : b.toNat < 256 := b.toNat_lt
    have hhead : UInt8.ofNat (b.toNat + 256 * decode bs) = b := by
      apply UInt8.toNat_inj.mp
      rw [UInt8.toNat_ofNat']
      omega
    have htail : (b.toNat + 256 * decode bs) / 256 = decode bs := by omega
    rw [List.length_cons, decode, encode, hhead, htail, ih]

theorem encode_decode_of_length {w : ℕ} {bs : List UInt8} (h : bs.length = w) :
    encode w (decode bs) = bs := by
  rw [← h, encode_decode]

/-! ## Codecs

A fixed-width representation of a type: every value has one, and every byte string of the right
length is one. -/

/-- A fixed-width byte representation of `α`, onto the byte strings of that width. -/
structure Codec (α : Type*) where
  /-- The number of bytes of one value. -/
  width : ℕ
  /-- The bytes of a value. -/
  encode : α → List UInt8
  /-- The value of a byte string. -/
  decode : List UInt8 → α
  length_encode : ∀ a, (encode a).length = width
  decode_encode : ∀ a, decode (encode a) = a
  encode_decode : ∀ bs, bs.length = width → encode (decode bs) = bs

attribute [simp] Codec.length_encode Codec.decode_encode

/-- The little-endian codec of a `w`-byte machine integer, from its view as a number. -/
def Codec.ofNat {α : Type*} (w : ℕ) (toNat : α → ℕ) (ofNat : ℕ → α)
    (toNat_lt : ∀ a, toNat a < 256 ^ w) (ofNat_toNat : ∀ a, ofNat (toNat a) = a)
    (toNat_ofNat : ∀ n, n < 256 ^ w → toNat (ofNat n) = n) : Codec α where
  width := w
  encode a := LittleEndian.encode w (toNat a)
  decode bs := ofNat (LittleEndian.decode bs)
  length_encode a := LittleEndian.length_encode w (toNat a)
  decode_encode a := by rw [LittleEndian.decode_encode (toNat_lt a), ofNat_toNat]
  encode_decode bs h := by
    rw [toNat_ofNat _ (h ▸ decode_lt bs), encode_decode_of_length h]

def u16 : Codec UInt16 :=
  .ofNat 2 UInt16.toNat UInt16.ofNat (fun a ↦ a.toNat_lt) (fun _ ↦ UInt16.ofNat_toNat)
    fun _ h ↦ UInt16.toNat_ofNat_of_lt' h

def u32 : Codec UInt32 :=
  .ofNat 4 UInt32.toNat UInt32.ofNat (fun a ↦ a.toNat_lt) (fun _ ↦ UInt32.ofNat_toNat)
    fun _ h ↦ UInt32.toNat_ofNat_of_lt' h

def u64 : Codec UInt64 :=
  .ofNat 8 UInt64.toNat UInt64.ofNat (fun a ↦ a.toNat_lt) (fun _ ↦ UInt64.ofNat_toNat)
    fun _ h ↦ UInt64.toNat_ofNat_of_lt' h

def Codec.congr {α β : Type*} (c : Codec α) (e : α ≃ β) : Codec β where
  width := c.width
  encode b := c.encode (e.symm b)
  decode bs := e (c.decode bs)
  length_encode b := c.length_encode _
  decode_encode b := by rw [c.decode_encode, e.apply_symm_apply]
  encode_decode bs h := by rw [e.symm_apply_apply, c.encode_decode bs h]

/-- Signed words are stored as their two's complement. -/
def i64 : Codec Int64 :=
  u64.congr ⟨UInt64.toInt64, Int64.toUInt64, fun _ ↦ rfl, fun _ ↦ rfl⟩

@[simp] theorem width_u16 : u16.width = 2 := rfl

@[simp] theorem width_u32 : u32.width = 4 := rfl

@[simp] theorem width_u64 : u64.width = 8 := rfl

@[simp] theorem width_i64 : i64.width = 8 := rfl

namespace Codec

variable {α : Type*} (c : Codec α)

def readAt (off : ℕ) (bs : List UInt8) : α := c.decode ((bs.drop off).take c.width)

theorem readAt_append {off : ℕ} {pre : List UInt8} (h : pre.length = off) (a : α)
    (rest : List UInt8) : c.readAt off (pre ++ (c.encode a ++ rest)) = a := by
  rw [readAt, List.drop_left' h, List.take_left' (c.length_encode a), decode_encode]

theorem encode_readAt {off : ℕ} {bs : List UInt8} (h : off + c.width ≤ bs.length) :
    c.encode (c.readAt off bs) = (bs.drop off).take c.width := by
  apply c.encode_decode _
  rw [List.length_take, List.length_drop]
  omega

end Codec

/-! ## Arrays -/

namespace Codec

variable {α : Type*} (c : Codec α)

def encodeAll (l : List α) : List UInt8 := l.flatMap c.encode

/-- Read `n` elements. -/
def decodeAll : ℕ → List UInt8 → List α
  | 0, _ => []
  | n + 1, bs => c.decode (bs.take c.width) :: decodeAll n (bs.drop c.width)

@[simp] theorem length_encodeAll (l : List α) :
    (c.encodeAll l).length = c.width * l.length := by
  induction l with
  | nil => simp [encodeAll]
  | cons a l ih =>
    rw [encodeAll] at ih
    rw [encodeAll, List.flatMap_cons, List.length_append, ih, length_encode, List.length_cons]
    ring

@[simp] theorem length_decodeAll (n : ℕ) (bs : List UInt8) : (c.decodeAll n bs).length = n := by
  induction n generalizing bs with
  | zero => rfl
  | succ n ih => rw [decodeAll, List.length_cons, ih]

theorem decodeAll_encodeAll_append (l : List α) (rest : List UInt8) :
    c.decodeAll l.length (c.encodeAll l ++ rest) = l := by
  induction l with
  | nil => rfl
  | cons a l ih =>
    have hlen : (c.encode a).length = c.width := c.length_encode a
    rw [List.length_cons, decodeAll, encodeAll, List.flatMap_cons, ← encodeAll,
      List.append_assoc, List.take_left' hlen, List.drop_left' hlen, decode_encode, ih]

theorem encodeAll_decodeAll {n : ℕ} {bs : List UInt8} (h : bs.length = c.width * n) :
    c.encodeAll (c.decodeAll n bs) = bs := by
  induction n generalizing bs with
  | zero =>
    rw [Nat.mul_zero, List.length_eq_zero_iff] at h
    rw [h, decodeAll, encodeAll, List.flatMap_nil]
  | succ n ih =>
    rw [Nat.mul_succ] at h
    have htake : (bs.take c.width).length = c.width := by rw [List.length_take]; omega
    have hdrop : (bs.drop c.width).length = c.width * n := by rw [List.length_drop]; omega
    have hrest := ih hdrop
    rw [encodeAll] at hrest
    rw [decodeAll, encodeAll, List.flatMap_cons, hrest, c.encode_decode _ htake,
      List.take_append_drop]

theorem decodeAll_take {n : ℕ} {bs : List UInt8} :
    c.decodeAll n (bs.take (c.width * n)) = c.decodeAll n bs := by
  induction n generalizing bs with
  | zero => rfl
  | succ n ih =>
    rw [decodeAll, decodeAll, List.take_take, Nat.mul_succ, min_eq_left (by omega),
      List.drop_take, Nat.add_sub_cancel_right, ih]

end Codec

end LittleEndian
