import TypeBridge.Closure.Builtin
import TypeBridge.Host.HostType
import TypeBridge.Text.Blank

/-!
# Recipe drafts

What the annotations of a host type say about a recipe, before any rule is applied.  Options are
declared by fields and by constructor parameters; a parameter completes the field of its name.
-/

namespace TypeBridge

/-- An option as it is declared. -/
structure OptionDraft where
  name : String
  type : Signature
  nullable : Bool
  displayName : Option String
  description : Option String
  example? : Option String
  required : Option Bool

namespace OptionDraft

/-- An option with what its annotation says. -/
def ofMark (name : String) (type : Signature) (nullable : Bool)
    (mark : Option Annotation) : OptionDraft where
  name
  type
  nullable
  displayName := mark.bind (·.text? "display_name")
  description := mark.bind (·.text? "description")
  example? := mark.bind (·.text? "example")
  required := mark.bind (·.flag? "required")

/-- The option that a field declares. -/
def ofMember? (member : HostMember) : Option OptionDraft :=
  if member.isMethod then none
  else
    (firstNamed? member.annotations Annotation.option).map fun mark =>
      ofMark member.name member.type member.isNullable mark

/-- The option that a parameter declares. -/
def ofParameter? (parameter : HostParameter) : Option OptionDraft :=
  (firstNamed? parameter.annotations Annotation.option).map fun mark =>
    ofMark parameter.name parameter.type parameter.isNullable mark

/-- Complete an option by a later declaration of the same name. -/
def complete (first later : OptionDraft) : OptionDraft :=
  { first with
    nullable := first.nullable || later.nullable
    displayName := first.displayName.or later.displayName
    description := first.description.or later.description
    example? := first.example?.or later.example?
    required := first.required.or later.required }

/-- Whether the type itself allows for nothing. -/
def isWrapped (option : OptionDraft) : Bool :=
  option.type.head?.any fun name => Builtin.ofName? name == some .optional

/-- An option is required unless it says otherwise or may hold nothing. -/
def isRequired (option : OptionDraft) : Bool :=
  option.required != some false && !option.nullable && !option.isWrapped

/-- Whether there is an example that says something. -/
def hasExample (option : OptionDraft) : Bool :=
  option.example?.any fun text => !Text.isBlankText text

end OptionDraft

/-- A recipe as it is declared. -/
structure RecipeDraft where
  name : String
  displayName : Option String
  description : Option String
  options : List OptionDraft
  /-- Names that fields, or parameters of one constructor, declare more than once. -/
  duplicates : List String
  /-- The target of the visitor annotation, if there is such an annotation. -/
  visitor : Option (Option String)

namespace RecipeDraft

/-- Options with distinct names, and the names that were refused. -/
structure Gathered where
  options : List OptionDraft
  duplicates : List String

/-- Remember a name that is declared again. -/
def Gathered.refuse (gathered : Gathered) (name : String) : Gathered :=
  if gathered.duplicates.contains name then gathered
  else { gathered with duplicates := gathered.duplicates ++ [name] }

/-- Add the option of a field, unless its name is taken. -/
def Gathered.addField (gathered : Gathered) (option : OptionDraft) : Gathered :=
  if gathered.options.any (·.name == option.name) then gathered.refuse option.name
  else { gathered with options := gathered.options ++ [option] }

/-- Complete the option of a name, or add it. -/
def mergeOption (option : OptionDraft) : List OptionDraft → List OptionDraft
  | [] => [option]
  | first :: rest =>
    if first.name = option.name then first.complete option :: rest
    else first :: mergeOption option rest

/-- Add the options of the parameters of one constructor; `seen` holds the names before. -/
def Gathered.addParameters (gathered : Gathered) (seen : List String) :
    List OptionDraft → Gathered
  | [] => gathered
  | option :: rest =>
    if seen.contains option.name then (gathered.refuse option.name).addParameters seen rest
    else
      { gathered with options := mergeOption option gathered.options }.addParameters
        (option.name :: seen) rest

/-- Whether one option may stand before another one in the order of some parameters.  An option that
no parameter names belongs behind all those that have one. -/
def mayPrecede (parameters : List String) (first second : OptionDraft) : Bool :=
  parameters.idxOf first.name ≤ parameters.idxOf second.name

/-- Sort options by the parameters of their names; those without a parameter keep their order. -/
def arrange (parameters : List String) (options : List OptionDraft) : List OptionDraft :=
  options.mergeSort (mayPrecede parameters)

def optionsOf (constructor : HostConstructor) : List OptionDraft :=
  constructor.parameters.filterMap OptionDraft.ofParameter?

/-- Everything that fields declare, then what constructors add to it. -/
def gather (type : HostType) : Gathered :=
  let fields := (type.members.filterMap OptionDraft.ofMember?).foldl Gathered.addField ⟨[], []⟩
  type.constructors.foldl
    (fun gathered constructor => gathered.addParameters [] (optionsOf constructor)) fields

def ofType (type : HostType) : RecipeDraft :=
  let recipe := firstNamed? type.annotations Annotation.recipe
  let all := gather type
  let options :=
    match type.constructors.find? fun constructor => !(optionsOf constructor).isEmpty with
    | none => all.options
    | some constructor => arrange (constructor.parameters.map (·.name)) all.options
  { name := type.name
    displayName := recipe.bind (·.text? "display_name")
    description := recipe.bind (·.text? "description")
    options
    duplicates := all.duplicates
    visitor := (firstNamed? type.annotations Annotation.visitor).map fun mark =>
      (mark.text? "target").filter fun target => !Text.isBlankText target }

end RecipeDraft

end TypeBridge
