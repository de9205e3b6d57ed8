/-
  Conform.Number.Notation

  How numbers are written: as document text, where a float always shows that
  it is one, and as message text, where a whole float reads like an integer.
-/

import Conform.Number.Basic
import Conform.Number.Shortest

namespace Conform

namespace Decimal

/-- The digits as text. -/
def digitText (d : Decimal) : String := toString d.digits

/-- The decimal exponent of the first digit. -/
def scale (d : Decimal) : Int := d.digitText.length - 1 + d.exponent

/-- A run of zeros. -/
def zeros (count : Nat) : String := String.ofList (List.replicate count '0')

/-- Without an exponent; `whole` is written behind a number with no fraction. -/
def positional (d : Decimal) (whole : String) : String :=
  let digits := d.digitText.toList
  if 0 ≤ d.exponent then d.digitText ++ zeros d.exponent.toNat ++ whole
  else
    let point : Int := digits.length + d.exponent
    if 0 < point then
      String.ofList (digits.take point.toNat) ++ "." ++ String.ofList (digits.drop point.toNat)
    else "0." ++ zeros (-point).toNat ++ d.digitText

/-- One digit before the point, and a signed exponent. -/
def scientific (d : Decimal) : String :=
  let digits := d.digitText.toList
  let rest := digits.drop 1
  let mantissa := String.ofList (digits.take 1) ++
    if rest.isEmpty then "" else "." ++ String.ofList rest
  let sign := if d.scale < 0 then "-" else "+"
  mantissa ++ "e" ++ sign ++ toString d.scale.natAbs

end Decimal

namespace Binary64

private def signText (x : Binary64) : String := if x.negative then "-" else ""

/-- The text of a float in a document: positional from 10^-5 up to 10^16, and
    always with a point or an exponent. Of two shortest decimals at the same
    distance the even one is written. -/
def documentText (x : Binary64) : String :=
  if x.magnitude = 0 then x.signText ++ "0.0"
  else
    let d := x.shortest .toEven
    x.signText ++ if -5 ≤ d.scale ∧ d.scale < 16 then d.positional ".0" else d.scientific

/-- The text of a float in a message: never an exponent, no fraction when the
    number is whole. Of two shortest decimals at the same distance the larger
    one is written. -/
def messageText (x : Binary64) : String :=
  if x.magnitude = 0 then x.signText ++ "0"
  else x.signText ++ (x.shortest .awayFromZero).positional ""

end Binary64

namespace Number

/-- The text of a number in a document. -/
def documentText : Number → String
  | int i => toString i
  | float x => x.documentText

/-- The text of a number in a message. -/
def messageText : Number → String
  | int i => toString i
  | float x => x.messageText

end Number

end Conform
