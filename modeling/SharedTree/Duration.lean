/-!
# Durations in print

A duration is printed in the largest of seconds and milliseconds that keeps a digit in front of the point,
with no digits that say nothing behind it.
-/

namespace SharedTree

namespace Duration

/-- The thousandths behind a decimal point, without trailing zeros. -/
def fraction (thousandths : Nat) : String :=
  if thousandths % 10 ≠ 0 then
    String.ofList [Nat.digitChar (thousandths / 100), Nat.digitChar (thousandths / 10 % 10),
      Nat.digitChar (thousandths % 10)]
  else if thousandths % 100 ≠ 0 then
    String.ofList [Nat.digitChar (thousandths / 100), Nat.digitChar (thousandths / 10 % 10)]
  else String.ofList [Nat.digitChar (thousandths / 100)]

/-- A number of milliseconds in print. -/
def text (milliseconds : Nat) : String :=
  if milliseconds = 0 then "0ns"
  else if milliseconds < 1000 then toString milliseconds ++ "ms"
  else if milliseconds % 1000 = 0 then toString (milliseconds / 1000) ++ "s"
  else toString (milliseconds / 1000) ++ "." ++ fraction (milliseconds % 1000) ++ "s"

end Duration

end SharedTree
