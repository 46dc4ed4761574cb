import RoxyGlance.Text
import RoxyGlance.Numeric

/-!
# What the model takes as given

The functions of rapidyaml, of the C++ library and of the system whose code is not part of the
repository.  Every definition of the model that needs one of them has an `Externals` as its first
argument, and the results hold for all of them.
-/

namespace RoxyGlance

/-- The functions outside the repository the settings code calls. -/
structure Externals (F : Type) extends TextCodec where
  /-- `c4::yml::read` of a `long` with overflow check; `none` when the text is not a number. -/
  readLong : Bytes → Option ℤ
  /-- `c4::yml::read` of a `float`. -/
  readFloat : Bytes → Option F
  /-- The text `node << val` stores for a `long`. -/
  showLong : ℤ → Bytes
  /-- The text `node << val` stores for a `float`. -/
  showFloat : F → Bytes
  /-- `std::to_chars` of a `float`, within the size of `ParseError::content`. -/
  floatToChars : F → Bytes
  /-- Whether a scalar counts as quoted after `<<` has replaced its text. -/
  requote : Bool → Bool

/-- ASCII text, decimal digits without sign for both kinds of numbers, and quotes that survive. -/
def asciiExternals : Externals ℚ where
  toTextCodec := asciiCodec
  readLong := digits
  readFloat b := (digits b).map fun n => (n : ℚ)
  showLong n := ascii (toString n)
  showFloat a := ascii (toString ⌊a⌋)
  floatToChars a := ascii (toString ⌊a⌋)
  requote := id
where
  /-- The number a nonempty string of decimal digits denotes. -/
  digits (b : Bytes) : Option ℤ :=
    if b ≠ [] ∧ b.all fun c => 48 ≤ c && c ≤ 57 then
      some (b.foldl (fun n c => 10 * n + ((c.toNat : ℤ) - 48)) 0)
    else none

end RoxyGlance
