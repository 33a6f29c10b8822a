/-!
# Hexadecimal text

Addresses are written with `0x` in front and lower-case digits, either with as many digits
as the number has or padded with zeros to a fixed count of digits.
-/

namespace KernelCore

def hexDigits (n : Nat) : List Char := Nat.toDigits 16 n

/-- The number after `0x`, without leading zeros. -/
def hex (n : Nat) : String := "0x" ++ String.ofList (hexDigits n)

def hexPadded (digits n : Nat) : String :=
  "0x" ++ String.ofList ((hexDigits n).leftpad digits '0')

end KernelCore
