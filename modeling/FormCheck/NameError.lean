/-!
# Unknown names

Some settings are chosen by name from a fixed list. `NameError` says which list a name is not on.
-/
namespace FormCheck

/-- A name that is not on the list of its kind. -/
inductive NameError where
  | emailPattern (given : String)
  | outputFormat (given : String)
deriving DecidableEq

/-- The kind of name, the name given, and the list. -/
def NameError.message : NameError → String
  | .emailPattern given => "unknown email pattern '" ++ given ++ "' (expected 'simple' or 'html')"
  | .outputFormat given => "unknown output format '" ++ given ++ "' (expected 'text' or 'json')"

end FormCheck
