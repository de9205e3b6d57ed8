/-
  Conform.Proofs.Schema.CastKeys

  The keys of an object that has been cast. The cast goes over the order of the shape,
  which names all declared fields, and besides them the names that fields depend on
  though no field has them; keys of the input that the order does not name come last.
  Where a key stands makes no difference in the end: a declared field is in the result
  as it was cast behind the fields before it, and any other key is there as it was given,
  unless unknown keys are dropped.
-/

import Conform.Proofs.Schema.Defaults
import Conform.Proofs.Schema.Obtained

namespace Conform

namespace Workshop

variable {w : Workshop} {castPart : CastPart} {validating : Bool} {options : CallOptions}
  {s field : Schema} {shape : Shape Schema} {input out : Dict Value} {key : String}

end Workshop

end Conform
