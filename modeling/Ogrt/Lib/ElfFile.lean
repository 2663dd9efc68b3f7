import Ogrt.Lib.BigEndian

/-! The section header table of a 64-bit little-endian ELF file. -/

namespace ElfFile

/-- An unsigned field of the file. -/
def field (file : List UInt8) (offset size : Nat) : Nat :=
  BigEndian.value ((file.drop offset).take size).reverse

structure SectionHeader where
  name : Nat
  type : Nat
  flags : Nat
  offset : Nat
  size : Nat
  deriving DecidableEq, Repr

/-- The Elf64_Shdr at an offset. -/
def sectionHeader (file : List UInt8) (offset : Nat) : SectionHeader where
  name := field file offset 4
  type := field file (offset + 4) 4
  flags := field file (offset + 8) 8
  offset := field file (offset + 24) 8
  size := field file (offset + 32) 8

/-- Where the table lies, how many entries of what size it has, and which of them is the
section with the names. -/
structure SectionTable where
  shoff : Nat
  shentsize : Nat
  shnum : Nat
  shstrndx : Nat
  deriving DecidableEq, Repr

def sectionTable (file : List UInt8) : SectionTable where
  shoff := field file 0x28 8
  shentsize := field file 0x3A 2
  shnum := field file 0x3C 2
  shstrndx := field file 0x3E 2

/-- The sections but the reserved first one, in the order of the table. -/
def sectionHeaders (file : List UInt8) : List SectionHeader :=
  let table := sectionTable file
  (List.range' 1 (table.shnum - 1)).map fun i => sectionHeader file (table.shoff + i * table.shentsize)

def sectionName (file : List UInt8) (header : SectionHeader) : List UInt8 :=
  let table := sectionTable file
  let strings := (sectionHeader file (table.shoff + table.shstrndx * table.shentsize)).offset
  (file.drop (strings + header.name)).takeWhile (· ≠ 0)

variable {file other : List UInt8}

/-- A field lies before an offset where two files begin to differ, or behind one from which
they are the same. -/
theorem field_congr_take {n offset size : Nat} (same : file.take n = other.take n) (before : offset + size ≤ n) :
    field file offset size = field other offset size := by
  have window (file : List UInt8) : (file.drop offset).take size = ((file.take n).drop offset).take size := by
    rw [List.drop_take, List.take_take, Nat.min_eq_left (by omega)]
  rw [field, field, window file, window other, same]

theorem field_congr_drop {n offset size : Nat} (same : file.drop n = other.drop n) (behind : n ≤ offset) :
    field file offset size = field other offset size := by
  obtain ⟨distance, rfl⟩ := Nat.exists_eq_add_of_le behind
  rw [field, field, ← List.drop_drop, ← List.drop_drop, same]

theorem sectionTable_congr (head : file.take 64 = other.take 64) : sectionTable file = sectionTable other := by
  simp only [sectionTable, field_congr_take head (show 0x28 + 8 ≤ 64 by decide),
    field_congr_take head (show 0x3A + 2 ≤ 64 by decide), field_congr_take head (show 0x3C + 2 ≤ 64 by decide),
    field_congr_take head (show 0x3E + 2 ≤ 64 by decide)]

theorem sectionHeader_congr {n offset : Nat} (tail : file.drop n = other.drop n) (behind : n ≤ offset) :
    sectionHeader file offset = sectionHeader other offset := by
  simp only [sectionHeader, field_congr_drop tail behind,
    field_congr_drop tail (show n ≤ offset + 4 by omega), field_congr_drop tail (show n ≤ offset + 8 by omega),
    field_congr_drop tail (show n ≤ offset + 24 by omega), field_congr_drop tail (show n ≤ offset + 32 by omega)]

/-- Files that agree on the ELF header and from an offset on that is not behind their section
tables have the same sections. -/
theorem sectionHeaders_congr {n : Nat} (head : file.take 64 = other.take 64) (tail : file.drop n = other.drop n)
    (behind : n ≤ (sectionTable file).shoff) : sectionHeaders file = sectionHeaders other := by
  simp only [sectionHeaders, ← sectionTable_congr head]
  exact List.map_congr_left fun i _ => sectionHeader_congr tail (by omega)

/-- With the section of the names behind that offset too, the sections have the same names. -/
theorem sectionName_congr {n : Nat} (head : file.take 64 = other.take 64) (tail : file.drop n = other.drop n)
    (behind : n ≤ (sectionTable file).shoff)
    (names : n ≤ (sectionHeader file ((sectionTable file).shoff +
      (sectionTable file).shstrndx * (sectionTable file).shentsize)).offset)
    (header : SectionHeader) : sectionName file header = sectionName other header := by
  have strings := sectionHeader_congr tail (behind.trans (Nat.le_add_right _
    ((sectionTable file).shstrndx * (sectionTable file).shentsize)))
  have far := names.trans (Nat.le_add_right _ header.name)
  obtain ⟨distance, place⟩ := Nat.exists_eq_add_of_le far
  simp only [sectionName, ← sectionTable_congr head, ← strings, place]
  rw [← List.drop_drop, ← List.drop_drop, tail]

end ElfFile
