import CodegenRegistry.Binding
import CodegenRegistry.Site
/-!
# Diagnostics

Why a declaration could not be expanded. Each diagnostic carries the place of the offending name
or argument, and where a misspelling is likely, a hint.
-/

namespace CodegenRegistry

/-- The cause that ends the expansion of one declaration. -/
inductive Diagnostic
  | unknownGenerator (name : String) (site : Site) (loc : Position) (suggestion : Option String)
  | unsupportedSite (name : String) (site : Site) (loc : Position)
  | positionalArgument (generator : String) (loc : Position)
  | duplicateArgument (label : String) (loc : Position)
  | unknownArgument (generator label : String) (loc : Position) (suggestion : Option String)
  | invalidArgument (rejection : Rejection)
  | missingDependency (dependency requiredBy : String) (loc : Position)
deriving DecidableEq, Repr

namespace Diagnostic

def loc : Diagnostic → Position
  | unknownGenerator _ _ loc _ => loc
  | unsupportedSite _ _ loc => loc
  | positionalArgument _ loc => loc
  | duplicateArgument _ loc => loc
  | unknownArgument _ _ loc _ => loc
  | invalidArgument rejection => rejection.loc
  | missingDependency _ _ loc => loc

def suggestion : Diagnostic → Option String
  | unknownGenerator _ _ _ suggestion => suggestion
  | unknownArgument _ _ _ suggestion => suggestion
  | _ => none

def hint : Option String → String
  | some s => "\nHint: did you mean '" ++ s ++ "'?"
  | none => ""

def message : Diagnostic → String
  | unknownGenerator name site loc suggestion =>
    loc.text ++ ": '" ++ name ++ "' is not a supported " ++ site.text ++ " generator" ++
      hint suggestion
  | unsupportedSite name site loc =>
    loc.text ++ ": generator '" ++ name ++ "' does not support " ++ site.text
  | positionalArgument generator loc =>
    loc.text ++ ": arguments to generator '" ++ generator ++ "' must be labelled"
  | duplicateArgument label loc =>
    loc.text ++ ": argument '" ++ label ++ "' is specified more than once"
  | unknownArgument generator label loc suggestion =>
    loc.text ++ ": generator '" ++ generator ++ "' does not accept argument '" ++ label ++ "'" ++
      hint suggestion
  | invalidArgument rejection => rejection.message
  | missingDependency dependency requiredBy loc =>
    loc.text ++ ": generator '" ++ dependency ++ "' is needed for '" ++ requiredBy ++
      "', list it earlier"

end Diagnostic

end CodegenRegistry
