/-! Machine words and the way numbers are written in messages: hexadecimal in lower case,
padded on the left with zeros to a least number of digits. -/
namespace ArmMachine

/-- Registers, addresses and instructions are 32 bits wide and wrap around. -/
abbrev Word := BitVec 32

abbrev Byte := BitVec 8

def wordLimit : Nat := 0x100000000

/-- Counters of 64 bits stay below this number. -/
def counterLimit : Nat := 0x10000000000000000

/-- Pads on the left up to `width` characters; longer texts are kept whole. -/
def padLeft (width : Nat) (fill : Char) (cs : List Char) : List Char :=
  List.replicate (width - cs.length) fill ++ cs

/-- Pads on the right up to `width` characters; longer texts are kept whole. -/
def padRight (width : Nat) (fill : Char) (cs : List Char) : List Char :=
  cs ++ List.replicate (width - cs.length) fill

theorem length_padLeft (width : Nat) (fill : Char) (cs : List Char) :
    (padLeft width fill cs).length = max width cs.length := by
  simp only [padLeft, List.length_append, List.length_replicate]
  omega

theorem length_padRight (width : Nat) (fill : Char) (cs : List Char) :
    (padRight width fill cs).length = max width cs.length := by
  simp only [padRight, List.length_append, List.length_replicate]
  omega

/-- At least `width` hexadecimal digits of `n`, without a marker in front. -/
def hexDigits (width n : Nat) : String :=
  String.ofList (padLeft width '0' (Nat.toDigits 16 n))

/-- The shortest marked hexadecimal form, such as `0x8000`. -/
def hexNumber (n : Nat) : String := "0x" ++ hexDigits 0 n

namespace Word

/-- A word in full: `0x` and eight digits. -/
def hex (w : Word) : String := "0x" ++ hexDigits 8 w.toNat

/-- Byte lane `n` of a word, lane 0 being the lowest. -/
def lane (w : Word) (n : Nat) : Byte := w.extractLsb' (8 * n) 8

end Word
end ArmMachine
