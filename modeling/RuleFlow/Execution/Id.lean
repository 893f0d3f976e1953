import RuleFlow.Instant
/-! # Ids of execution records

An id is a number of 128 bits in 26 digits of a base of 32: 48 bits for the milliseconds since 1970 and 80 bits for a
serial number.  The digits stand in the order of their characters, so that later ids are greater texts. -/
namespace RuleFlow.ExecutionId

/-- The digits: numerals and capital letters without those that are easily mistaken. -/
def digits : List Char := "0123456789ABCDEFGHJKMNPQRSTVWXYZ".toList

/-- The lowest digits of a number, the highest first. -/
def lowDigits : Nat → Nat → List Char
  | 0, _ => []
  | width + 1, n => lowDigits width (n / 32) ++ [digits[n % 32]?.getD '0']

def text (time : Instant) (serial : Nat) : String :=
  String.ofList (lowDigits 26 (time.milliseconds % Nat.pow 2 48 * Nat.pow 2 80 + serial % Nat.pow 2 80))

end RuleFlow.ExecutionId
