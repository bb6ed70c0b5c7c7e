/-!
# Arguments

How a list of arguments is read as options and positional arguments. An option is written with a
long name behind two hyphens or with one letter behind a single hyphen; letters may be joined, and
the value of an option is joined to it or follows as the next argument, whatever that looks like.
Two hyphens alone end the options.
-/

set_option autoImplicit false
set_option relaxedAutoImplicit false

namespace HelpSheet.Command

/-- An option: what it stands for, its names, and whether it takes a value. -/
structure OptionForm (κ : Type) where
  key : κ
  long : String
  short : Option Char := none
  takesValue : Bool := true

/-- What is wrong with a command line. -/
inductive UsageFault
  | unknownOption (name : String)
  | missingValue (name : String)
  | needlessValue (name : String)
  | missingArgument (name : String)
  | extraArguments (arguments : List String)
  | unknownCommand (name : String)
  | invalidChoice (option value : String) (choices : List String)
  | missingFile (option path : String)
  | isDirectory (option path : String)
  | isFile (option path : String)
  | unreadable (option kind path : String)
  deriving DecidableEq, Repr

/-- Names between single quotes, with commas between them. -/
def quotedList (names : List String) : String :=
  String.intercalate ", " (names.map fun name ↦ "'" ++ name ++ "'")

def UsageFault.message : UsageFault → String
  | unknownOption name => "No such option: " ++ name
  | missingValue name => "Option '" ++ name ++ "' requires an argument."
  | needlessValue name => "Option '" ++ name ++ "' does not take a value."
  | missingArgument name => "Missing argument '" ++ name ++ "'."
  | extraArguments arguments =>
    "Got unexpected extra argument" ++ (if arguments.length = 1 then "" else "s") ++ " (" ++
      String.intercalate " " arguments ++ ")"
  | unknownCommand name => "No such command '" ++ name ++ "'."
  | invalidChoice option value choices =>
    "Invalid value for '" ++ option ++ "': '" ++ value ++ "' is not one of " ++
      quotedList choices ++ "."
  | missingFile option path =>
    "Invalid value for '" ++ option ++ "': File '" ++ path ++ "' does not exist."
  | isDirectory option path =>
    "Invalid value for '" ++ option ++ "': File '" ++ path ++ "' is a directory."
  | isFile option path =>
    "Invalid value for '" ++ option ++ "': Directory '" ++ path ++ "' is a file."
  | unreadable option kind path =>
    "Invalid value for '" ++ option ++ "': " ++ kind ++ " '" ++ path ++ "' is not readable."

/-- The options of a command line with their values, in order, and the other arguments. An option
without a value has the empty one. -/
structure Arguments (κ : Type) where
  options : List (κ × String) := []
  positional : List String := []

namespace Arguments

variable {κ : Type}

/-- The value of an option; the last one counts. -/
def value? [DecidableEq κ] (arguments : Arguments κ) (key : κ) : Option String :=
  (arguments.options.reverse.find? fun entry ↦ entry.1 = key).map Prod.snd

/-- All values of an option. -/
def values [DecidableEq κ] (arguments : Arguments κ) (key : κ) : List String :=
  (arguments.options.filter fun entry ↦ entry.1 = key).map Prod.snd

/-- Whether an option is given. -/
def has [DecidableEq κ] (arguments : Arguments κ) (key : κ) : Bool :=
  arguments.options.any fun entry ↦ entry.1 = key

/-- Adds options before the others. -/
def addOptions (given : List (κ × String)) (arguments : Arguments κ) : Arguments κ :=
  { arguments with options := given ++ arguments.options }

/-- Adds a positional argument before the others. -/
def addPositional (argument : String) (arguments : Arguments κ) : Arguments κ :=
  { arguments with positional := argument :: arguments.positional }

end Arguments

/-- An option whose value is the next argument, and the name it was given by. -/
structure Pending (κ : Type) where
  key : κ
  name : String

/-- What one argument brings: options that are complete, and one that is still to get its value. -/
abbrev Step (κ : Type) := List (κ × String) × Option (Pending κ)

/-- Reads letters behind a single hyphen. -/
def readLetters {κ : Type} (forms : List (OptionForm κ)) : List Char → Except UsageFault (Step κ)
  | [] => .ok ([], none)
  | letter :: rest =>
    let name := String.ofList ['-', letter]
    match forms.find? fun form ↦ form.short = some letter with
    | none => .error (.unknownOption name)
    | some form =>
      if form.takesValue then
        if rest.isEmpty then .ok ([], some ⟨form.key, name⟩)
        else .ok ([(form.key, String.ofList rest)], none)
      else (readLetters forms rest).map fun step ↦ ((form.key, "") :: step.1, step.2)

/-- Reads an option by its long name and the value joined to it. -/
def readLong {κ : Type} (form : OptionForm κ) (joined : Option String) :
    Except UsageFault (Step κ) :=
  match form.takesValue, joined with
  | true, some value => .ok ([(form.key, value)], none)
  | true, none => .ok ([], some ⟨form.key, form.long⟩)
  | false, some _ => .error (.needlessValue form.long)
  | false, none => .ok ([(form.key, "")], none)

/-- The part of an argument before its first equals sign, and the part after it, if there is one. -/
def splitJoined (argument : List Char) : String × Option String :=
  let (name, rest) := argument.span fun c ↦ c ≠ '='
  (String.ofList name,
    match rest with
    | [] => none
    | _ :: value => some (String.ofList value))

/-- Reads an argument that begins with a hyphen. -/
def readOption {κ : Type} (forms : List (OptionForm κ)) (argument : List Char) :
    Except UsageFault (Step κ) :=
  let (name, joined) := splitJoined argument
  match forms.find? fun form ↦ form.long = name with
  | some form => readLong form joined
  | none =>
    match argument with
    | '-' :: '-' :: _ => .error (.unknownOption name)
    | _ => readLetters forms (argument.drop 1)

/-- Whether an argument is read as options: it begins with a hyphen, and more follows it. -/
def isOption : List Char → Bool
  | '-' :: _ :: _ => true
  | _ => false

/-- Reads arguments, the first of which is the value of `pending` if there is such an option. Where
`mixed` is false, the first positional argument ends the options. -/
def readArguments {κ : Type} (forms : List (OptionForm κ)) (mixed : Bool)
    (pending : Option (Pending κ)) : List String → Except UsageFault (Arguments κ)
  | [] =>
    match pending with
    | none => .ok {}
    | some option => .error (.missingValue option.name)
  | argument :: rest =>
    match pending with
    | some option =>
      (readArguments forms mixed none rest).map (.addOptions [(option.key, argument)])
    | none =>
      if argument = "--" then .ok { positional := rest }
      else if isOption argument.toList then
        match readOption forms argument.toList with
        | .error fault => .error fault
        | .ok (given, pending) => (readArguments forms mixed pending rest).map (.addOptions given)
      else if mixed then (readArguments forms mixed none rest).map (.addPositional argument)
      else .ok { positional := argument :: rest }

end HelpSheet.Command
