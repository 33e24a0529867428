/-!
# Durations in words

A duration is a number of milliseconds. It is written in seconds from one second on, in milliseconds below
that, and as no nanoseconds at all if it is zero.
-/

set_option autoImplicit false

namespace Stylebook

namespace Duration

/-- The three digits behind the point of a number of thousandths, without zeros at the end. -/
def thousandths (n : Nat) : String :=
  if n % 1000 = 0 then ""
  else
    let digits := (toString (1000 + n % 1000)).toList.drop 1
    "." ++ String.ofList (digits.reverse.dropWhile (· == '0')).reverse

/-- The written form of a number of milliseconds. -/
def text (milliseconds : Nat) : String :=
  if milliseconds = 0 then "0ns"
  else if milliseconds < 1000 then toString milliseconds ++ "ms"
  else toString (milliseconds / 1000) ++ thousandths milliseconds ++ "s"

end Duration

end Stylebook
