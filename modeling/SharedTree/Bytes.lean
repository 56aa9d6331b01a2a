/-!
# Byte strings

Byte strings are plain lists, so that lengths, prefixes and concatenation have the lemmas of lists.
This file adds the two ways in which numbers meet bytes here: little-endian words and hexadecimal
text.

A word is written through its natural value. Writing keeps the value modulo the span of the width, and
reading back what was written gives exactly that remainder.
-/

namespace SharedTree

/-- A string of bytes. -/
abbrev Bytes := List UInt8

namespace Bytes

/-- The lowest `width` base-256 digits of a number, lowest digit first. -/
def ofNat : Nat → Nat → Bytes
  | 0, _ => []
  | width + 1, number => UInt8.ofNat number :: ofNat width (number / 256)

/-- The number whose base-256 digits are given, lowest digit first. -/
def toNat : Bytes → Nat
  | [] => 0
  | byte :: rest => byte.toNat + 256 * toNat rest

/-- How many numbers there are of a given width. -/
def span : Nat → Nat
  | 0 => 1
  | width + 1 => 256 * span width

@[simp] theorem length_ofNat (width number : Nat) : (ofNat width number).length = width := by
  induction width generalizing number with
  | zero => rfl
  | succ width ih => simp [ofNat, ih]

theorem toNat_ofNat (width number : Nat) : toNat (ofNat width number) = number % span width := by
  induction width generalizing number with
  | zero => simp only [ofNat, toNat, span, Nat.mod_one]
  | succ width ih =>
    have digit : (UInt8.ofNat number).toNat = number % 256 := by simp
    rw [ofNat, toNat, ih, digit, span, Nat.mod_mul]

theorem toNat_lt (bytes : Bytes) : toNat bytes < span bytes.length := by
  induction bytes with
  | nil => simp [toNat, span]
  | cons byte rest ih =>
    have := byte.toNat_lt
    simp only [toNat, List.length_cons, span]
    omega

/-- Writing a number read from as many bytes gives those bytes again. -/
theorem ofNat_toNat (bytes : Bytes) : ofNat bytes.length (toNat bytes) = bytes := by
  induction bytes with
  | nil => rfl
  | cons byte rest ih =>
    have := byte.toNat_lt
    have quotient : (byte.toNat + 256 * toNat rest) / 256 = toNat rest := by omega
    simp only [List.length_cons, toNat, ofNat, quotient, ih, List.cons.injEq, and_true]
    apply UInt8.toNat_inj.mp
    simp only [UInt8.toNat_ofNat']
    omega

/-- The first bytes of a string and those behind them, if the string is that long. Only the bytes in front
are counted. -/
def split? (size : Nat) (bytes : Bytes) : Option (Bytes × Bytes) :=
  let front := bytes.take size
  if front.length < size then none else some (front, bytes.drop size)

theorem split?_eq_some {size : Nat} {bytes front rest : Bytes}
    (found : split? size bytes = some (front, rest)) :
    front.length = size ∧ bytes = front ++ rest := by
  simp only [split?] at found
  split at found
  · cases found
  · next long =>
    simp only [Option.some.injEq, Prod.mk.injEq] at found
    obtain ⟨rfl, rfl⟩ := found
    rw [List.length_take] at long ⊢
    exact ⟨by omega, (List.take_append_drop size bytes).symm⟩

/-- A string cut into pieces of `size + 1` bytes, the last of which may be shorter. -/
def pieces (size : Nat) : Bytes → List Bytes
  | [] => []
  | byte :: rest => (byte :: rest.take size) :: pieces size (rest.drop size)
termination_by bytes => bytes.length
decreasing_by simp only [List.length_drop, List.length_cons]; omega

/-- The two lower-case hexadecimal digits of a byte. -/
def hexPair (byte : UInt8) : List Char :=
  [Nat.digitChar (byte.toNat / 16), Nat.digitChar (byte.toNat % 16)]

/-- Lower-case hexadecimal text, two digits a byte. -/
def hex (bytes : Bytes) : String :=
  String.ofList (bytes.flatMap hexPair)

end Bytes

end SharedTree
