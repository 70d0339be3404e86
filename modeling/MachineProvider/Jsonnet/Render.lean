import MachineProvider.Json.Parser
import MachineProvider.Jsonnet.Evaluation
import MachineProvider.Jsonnet.Prelude
/-!
Rendering a template: the program is evaluated with the standard library and the context at hand,
its value printed, and the text read again as a JSON document.
-/
namespace MachineProvider.Jsonnet

/-- How deep evaluation may nest. -/
def maxNesting : Nat := 10000

/-- Two places: the standard library, and the context under its name. -/
def initialStore (library context : Expr) : Store :=
  let scope : Scope := { vars := [("std", 0)] }
  { places := #[.delayed scope library, .delayed scope context]
    externals := [("context", 1)] }

/-- The printed value of a program. -/
def evaluated (context : Json) (e : Expr) : Except RenderError String := do
  let i := interpreter maxNesting
  let run : Eval String := do
    let v ← i.evaluate { vars := [("std", 0)] } e
    Eval.framed (i.print .inline "" v)
  let (text, _) ← (run.run 0).run (initialStore (← prelude) (.ofJson context))
  return text

end Jsonnet

/-- The JSON document that a template gives in a context, as compact text. -/
def renderTemplate (source : String) (context : Json) : Except RenderError String := do
  let text ← Jsonnet.evaluated context (← Jsonnet.program source)
  match Json.parse? text with
  | some document => return document.render
  | none => throw .invalidJson

end MachineProvider
