import Mathlib.Data.List.Basic

/-! The 16 bytes of a UUID and their canonical lower-case text. -/

structure Uuid where
  bytes : List UInt8
  length : bytes.length = 16
  deriving DecidableEq

namespace Uuid

def hexDigit (n : Nat) : UInt8 := UInt8.ofNat (if n < 10 then 0x30 + n else 0x57 + n)

def hexByte (b : UInt8) : List UInt8 := [hexDigit (b.toNat / 16), hexDigit (b.toNat % 16)]

def hex (bytes : List UInt8) : List UInt8 := bytes.flatMap hexByte

def dash : UInt8 := 0x2D

/-- Groups of 4, 2, 2, 2 and 6 bytes with dashes between them. -/
def text (uuid : Uuid) : List UInt8 :=
  hex (uuid.bytes.take 4) ++ (dash :: (hex ((uuid.bytes.drop 4).take 2) ++ (dash :: (hex ((uuid.bytes.drop 6).take 2) ++
    (dash :: (hex ((uuid.bytes.drop 8).take 2) ++ (dash :: hex (uuid.bytes.drop 10))))))))

/-- What uuid_unparse_lower writes. -/
def unparseLower (uuid : Uuid) : List UInt8 := uuid.text ++ [0]

theorem hexDigit_spec : ∀ n < 16, hexDigit n ≠ 0 ∧ hexDigit n ≠ dash := by decide

theorem hexDigit_injective : ∀ m < 16, ∀ n < 16, hexDigit m = hexDigit n → m = n := by decide

theorem mem_hex {bytes : List UInt8} {c : UInt8} (member : c ∈ hex bytes) : c ≠ 0 ∧ c ≠ dash := by
  obtain ⟨b, _, here⟩ := List.mem_flatMap.mp member
  have high : b.toNat / 16 < 16 := by have below := b.toNat_lt; omega
  have low : b.toNat % 16 < 16 := Nat.mod_lt _ (by decide)
  rcases List.mem_cons.mp here with rfl | last
  · exact hexDigit_spec _ high
  · cases List.mem_singleton.mp last
    exact hexDigit_spec _ low

@[simp] theorem hex_length (bytes : List UInt8) : (hex bytes).length = 2 * bytes.length := by
  induction bytes with
  | nil => rfl
  | cons b rest ih =>
    rw [hex, List.flatMap_cons, List.length_append, ← hex, ih, List.length_cons, hexByte, List.length_cons,
      List.length_singleton]
    omega

theorem hexByte_injective {b c : UInt8} (same : hexByte b = hexByte c) : b = c := by
  have belowB := b.toNat_lt
  have belowC := c.toNat_lt
  obtain ⟨first, rest⟩ := List.cons.inj same
  have high := hexDigit_injective _ (by omega) _ (by omega) first
  have low := hexDigit_injective _ (by omega) _ (by omega) (List.cons.inj rest).1
  apply UInt8.toNat_inj.mp
  omega

theorem hex_injective {bytes other : List UInt8} (same : hex bytes = hex other) : bytes = other := by
  induction bytes generalizing other with
  | nil =>
    cases other with
    | nil => rfl
    | cons c rest => cases same
  | cons b bytes ih =>
    cases other with
    | nil => cases same
    | cons c other =>
      obtain ⟨first, rest⟩ := @List.append_inj _ (hexByte b) (hexByte c) _ _ same rfl
      rw [hexByte_injective first, ih rest]

theorem hex_append (bytes other : List UInt8) : hex (bytes ++ other) = hex bytes ++ hex other :=
  List.flatMap_append

@[simp] theorem text_length (uuid : Uuid) : uuid.text.length = 36 := by
  have size := uuid.length
  simp only [text, List.length_append, List.length_cons, hex_length, List.length_take, List.length_drop]
  omega

theorem text_noNul (uuid : Uuid) : 0 ∉ uuid.text := by
  have noNul (bytes : List UInt8) : 0 ∉ hex bytes := fun member => (mem_hex member).1 rfl
  simp only [text, List.mem_append, List.mem_cons, noNul, false_or, or_false]
  decide

/-- Without its dashes the text is the hex form of the bytes. -/
theorem text_filter (uuid : Uuid) : uuid.text.filter (· ≠ dash) = hex uuid.bytes := by
  have kept (bytes : List UInt8) : (hex bytes).filter (· ≠ dash) = hex bytes :=
    List.filter_eq_self.mpr fun c member => decide_eq_true (mem_hex member).2
  have dropped (rest : List UInt8) : (dash :: rest).filter (· ≠ dash) = rest.filter (· ≠ dash) :=
    List.filter_cons_of_neg (by simp)
  have split : uuid.bytes = uuid.bytes.take 4 ++ ((uuid.bytes.drop 4).take 2 ++ ((uuid.bytes.drop 6).take 2 ++
      ((uuid.bytes.drop 8).take 2 ++ uuid.bytes.drop 10))) := by
    have join (k : Nat) : (uuid.bytes.drop k).take 2 ++ uuid.bytes.drop (k + 2) = uuid.bytes.drop k := by
      rw [← List.drop_drop, List.take_append_drop]
    rw [join 8, join 6, join 4, List.take_append_drop]
  conv_rhs => rw [split]
  simp only [text, List.filter_append, dropped, kept, hex_append]

theorem text_injective {uuid other : Uuid} (same : uuid.text = other.text) : uuid = other := by
  have bytes : uuid.bytes = other.bytes := by
    apply hex_injective
    rw [← text_filter, ← text_filter, same]
  cases uuid
  cases other
  cases bytes
  rfl

end Uuid
