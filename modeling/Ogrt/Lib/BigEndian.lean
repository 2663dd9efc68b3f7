import Mathlib.Data.List.Basic
import Mathlib.Tactic.Ring

namespace BigEndian

/-- The number a byte string spells, most significant byte first. -/
def value : List UInt8 → Nat
  | [] => 0
  | b :: rest => b.toNat * 256 ^ rest.length + value rest

/-- The lowest `width` bytes of a number, most significant byte first. -/
def bytes : Nat → Nat → List UInt8
  | 0, _ => []
  | width + 1, n => UInt8.ofNat (n / 256 ^ width) :: bytes width n

@[simp] theorem bytes_length (width n : Nat) : (bytes width n).length = width := by
  induction width with
  | zero => rfl
  | succ width ih => simp only [bytes, List.length_cons, ih]

theorem value_lt (xs : List UInt8) : value xs < 256 ^ xs.length := by
  induction xs with
  | nil => simp [value]
  | cons b rest ih =>
    have digit : b.toNat < 256 := b.toNat_lt
    have top : b.toNat * 256 ^ rest.length + 256 ^ rest.length ≤ 256 * 256 ^ rest.length := by
      rw [← Nat.succ_mul]
      exact Nat.mul_le_mul_right _ digit
    simp only [value, List.length_cons, pow_succ]
    omega

/-- Writing a number and reading it back keeps what fits in the width. -/
theorem value_bytes (width n : Nat) : value (bytes width n) = n % 256 ^ width := by
  induction width with
  | zero => simp [bytes, value, Nat.mod_one]
  | succ width ih =>
    have digit : (UInt8.ofNat (n / 256 ^ width)).toNat = n / 256 ^ width % 256 := by simp
    rw [bytes, value, bytes_length, ih, digit, pow_succ, Nat.mod_mul]
    ring

theorem value_bytes_of_lt {width n : Nat} (fits : n < 256 ^ width) : value (bytes width n) = n := by
  rw [value_bytes, Nat.mod_eq_of_lt fits]

/-- The first byte decides the value up to what the remaining bytes can spell. -/
theorem bytes_value (xs : List UInt8) : bytes xs.length (value xs) = xs := by
  suffices shifted : ∀ k, bytes xs.length (k * 256 ^ xs.length + value xs) = xs by
    simpa using shifted 0
  induction xs with
  | nil => intro k; rfl
  | cons b rest ih =>
    intro k
    have below := value_lt rest
    have regroup : k * 256 ^ (rest.length + 1) + (b.toNat * 256 ^ rest.length + value rest) =
        (k * 256 + b.toNat) * 256 ^ rest.length + value rest := by ring
    have quotient : ((k * 256 + b.toNat) * 256 ^ rest.length + value rest) / 256 ^ rest.length =
        k * 256 + b.toNat := by
      rw [Nat.mul_comm, Nat.mul_add_div (Nat.pow_pos (by decide)), Nat.div_eq_of_lt below, Nat.add_zero]
    simp only [value, List.length_cons, bytes, regroup, quotient, ih]
    congr 1
    apply UInt8.toNat_inj.mp
    have digit : b.toNat < 256 := b.toNat_lt
    simp only [UInt8.toNat_ofNat']
    omega

/-- The 32-bit word in the first four bytes of a big-endian string. -/
def word (xs : List UInt8) : UInt32 := UInt32.ofNat (value (xs.take 4))

def wordBytes (w : UInt32) : List UInt8 := bytes 4 w.toNat

@[simp] theorem wordBytes_length (w : UInt32) : (wordBytes w).length = 4 := bytes_length 4 _

@[simp] theorem word_wordBytes (w : UInt32) (rest : List UInt8) : word (wordBytes w ++ rest) = w := by
  have fits : w.toNat < 256 ^ 4 := w.toNat_lt
  rw [word, List.take_left' (wordBytes_length w), wordBytes, value_bytes_of_lt fits, UInt32.ofNat_toNat]

/-- The order in which a machine lays out the bytes of a word in memory. -/
inductive ByteOrder
  | little
  | big
  deriving DecidableEq, Repr

/-- The memory image of a word. -/
def ByteOrder.image : ByteOrder → UInt32 → List UInt8
  | .little, w => (wordBytes w).reverse
  | .big, w => wordBytes w

/-- The word that the first four bytes of a memory image show. -/
def ByteOrder.load : ByteOrder → List UInt8 → UInt32
  | .little, xs => word (xs.take 4).reverse
  | .big, xs => word xs

/-- The word whose memory image is the big-endian form of the given one. -/
def htonl : ByteOrder → UInt32 → UInt32
  | .little, w => word (wordBytes w).reverse
  | .big, w => w

theorem wordBytes_word {xs : List UInt8} (length : xs.length = 4) : wordBytes (word xs) = xs := by
  have fits : value xs < 2 ^ 32 := by
    have bound := value_lt xs
    rw [length] at bound
    exact bound
  rw [wordBytes, word, List.take_of_length_le length.le, UInt32.toNat_ofNat', Nat.mod_eq_of_lt fits,
    ← length, bytes_value]

@[simp] theorem image_length (order : ByteOrder) (w : UInt32) : (order.image w).length = 4 := by
  cases order with
  | little => exact (List.length_reverse).trans (wordBytes_length w)
  | big => exact wordBytes_length w

/-- A machine reads back the word that it stored. -/
@[simp] theorem load_image (order : ByteOrder) (w : UInt32) (rest : List UInt8) :
    order.load (order.image w ++ rest) = w := by
  cases order with
  | little =>
    have whole : word (wordBytes w) = w := by simpa using word_wordBytes w []
    rw [ByteOrder.load, List.take_left' (image_length _ w), ByteOrder.image, List.reverse_reverse, whole]
  | big => exact word_wordBytes w rest

/-- A word converted to network order lies in memory most significant byte first on every machine. -/
theorem image_htonl (order : ByteOrder) (w : UInt32) : order.image (htonl order w) = wordBytes w := by
  cases order with
  | little => rw [htonl, ByteOrder.image, wordBytes_word (by simp), List.reverse_reverse]
  | big => rfl

end BigEndian
