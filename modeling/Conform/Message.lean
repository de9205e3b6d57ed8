/-
  Conform.Message

  Failure messages: templates over the parameters of a failure, or functions
  of them.
-/

import Conform.Text.Template
import Conform.Value.Equality
import Conform.Value.Writer

namespace Conform

/-- A message before its parameters are known. -/
inductive Message where
  | template (text : String)
  | formatter (render : Dict Value → String)

instance : Coe String Message := ⟨Message.template⟩

namespace Message

/-- The name of the place in question: the label, else the path, else `this`.
    A null counts as missing. -/
def displayPath (params : Dict Value) : Value :=
  let named (key : String) : Option Value := (Dict.get? params key).filter fun v => !v.isNull
  (named "label" <|> named "path").getD (.str "this")

/-- The parameters that a message sees: the path is the name of the place. -/
def prepared (params : Dict Value) : Dict Value := params.insert "path" (displayPath params)

/-- The text of a message for prepared parameters. -/
def text (m : Message) (params : Dict Value) : String :=
  match m with
  | template t => Template.fill t fun name => printValue (Dict.get? params name) false
  | formatter render => render params

/-- The text of a message, and the parameters it was made from. -/
def format (m : Message) (params : Dict Value) : String × Dict Value :=
  (m.text (prepared params), prepared params)

end Message

/-! ## Type mismatch -/

/-- The message for a value of the wrong type. It names the value that was cast
    from when there is one that differs. -/
def notTypeMessage (params : Dict Value) : String :=
  let value := Dict.get? params "value"
  let origin := Dict.get? params "originalValue"
  let wasCast := match origin, value with
    | none, _ => false
    | some o, none => !o.isNull
    | some o, some v => !o.isNull && !o.same v
  let head := printValue (Dict.get? params "path") false ++ " must be a `" ++
    printValue (Dict.get? params "type") false ++ "` type, but the final value was: `" ++
    printValue value true ++ "`"
  let castFrom :=
    if wasCast then " (cast from the value `" ++ printValue origin true ++ "`)." else "."
  let hint := match value with
    | some .null =>
      "\n If \"null\" is intended as an empty value be sure to mark the schema as `.nullable()`"
    | _ => ""
  head ++ castFrom ++ hint

end Conform
