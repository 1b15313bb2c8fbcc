import TypeBridge.Host.Name
import TypeBridge.Host.Signature.Reader
import TypeBridge.Toml.Value

/-!
# Input errors

What can be wrong with the configuration and the snapshot files, each with its message, the bytes
it is about, and a hint.  The text that these bytes are of stays with whoever reads the file.
-/

namespace TypeBridge

/-- A rule on configurations and snapshots that the schema cannot express. -/
inductive BrokenRule where
  | noModels
  | declarationFile (file : String)
  | allowEntry (entry : String)
  | rootName (root : String) (fault : Name.Fault)
  | discriminant (word : String) (fault : Name.Fault)
  | nestedName (name parent : String)
  | constantsOutsideEnum (name : String)
  | closedWithoutVariants (name : String)
  | variantsOfOpenType (name : String)
  deriving DecidableEq, Repr

def BrokenRule.message : BrokenRule → String
  | .noModels => "`models` must list at least one snapshot file"
  | .declarationFile file => "declaration file '" ++ file ++ "' must end with `.d.ts`"
  | .allowEntry entry => "allow-list entry '" ++ entry ++ "' is not a namespace prefix"
  | .rootName root fault => "root '" ++ root ++ "': " ++ fault.message
  | .discriminant word fault => "discriminant '" ++ word ++ "': " ++ fault.message
  | .nestedName name parent =>
    "nested type '" ++ name ++ "' must be named '" ++ parent ++ "$<Name>'"
  | .constantsOutsideEnum name => "'" ++ name ++ "' declares constants but is not an enum"
  | .closedWithoutVariants name => "closed type '" ++ name ++ "' must list its variants"
  | .variantsOfOpenType name =>
    "'" ++ name ++ "' lists variants but is not marked `closed = true`"

/-- A signature that cannot be read, and the bytes of the value that holds it. -/
structure BadSignature where
  written : String
  error : Signature.ReadError
  span : Option Span
  deriving DecidableEq, Repr

/-- The complaint about a signature. -/
def BadSignature.detail (bad : BadSignature) : String :=
  "in `" ++ bad.written ++ "`: " ++ bad.error.message

/-- A fault of an input file. -/
inductive InputError where
  | unreadable (path : String)
  /-- No TOML, or TOML of another shape. -/
  | malformed (file : String) (signature : Option BadSignature)
  | broken (rule : BrokenRule) (span : Option Span)
  | duplicate (name first : String) (span : Span)
  | badName (name : String) (fault : Name.Fault) (span : Span)
  deriving DecidableEq, Repr

namespace InputError

def message : InputError → String
  | unreadable path => "failed to read '" ++ path ++ "'"
  | malformed file _ => "failed to parse " ++ file
  | broken rule _ => rule.message
  | duplicate name _ _ => "type '" ++ name ++ "' is declared more than once"
  | badName name _ _ => "invalid type name '" ++ name ++ "'"

/-- What to do about it. -/
def hint? : InputError → Option String
  | unreadable _ => some "check the `models` list in glot.toml"
  | duplicate name first _ =>
    some ("'" ++ name ++ "' was first declared in " ++ first ++
      "; each qualified name must be unique across all model files")
  | badName _ fault _ =>
    some (fault.message ++ ". Qualified names look like `org.example.Outer$Inner`.")
  | malformed _ _ | broken _ _ => none

/-- The bytes that the error is about. -/
def span? : InputError → Option Span
  | unreadable _ => none
  | malformed _ signature => signature.bind (·.span)
  | broken _ span => span
  | duplicate _ _ span | badName _ _ span => some span

end InputError

end TypeBridge
