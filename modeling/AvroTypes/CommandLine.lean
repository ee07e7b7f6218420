import AvroTypes.Conversion

/-!
# The command line

With two directories the schema files of the first are converted and the second is made to hold the
result; without any, a schema is read from the standard input and all declarations are written to
the standard output.  Arguments are taken one by one from the left, so of several mistakes the
first counts, and a request for the version ends the reading where it stands.

* `Flag` — the flags, their names, and what they do to the options.
* `Request`, `Request.ofArguments` — what the arguments ask for.
* `Outcome`, `run` — the run itself, over any file store.
-/

namespace AvroTypes.CommandLine

/-! ## Flags -/

/-- The flags. -/
inductive Flag where
  | singleFile | inputExtension | exportMode | tabulator | defaultNamespace
  | noSchema | noNamespaces | allowDangling | quiet | version | help
  deriving DecidableEq, Repr

namespace Flag

/-- The long name of a flag, without its dashes. -/
def longName : Flag → String
  | singleFile => "single-file"
  | inputExtension => "input-extension"
  | exportMode => "export-mode"
  | tabulator => "tabulator"
  | defaultNamespace => "namespace"
  | noSchema => "no-schema"
  | noNamespaces => "no-namespaces"
  | allowDangling => "allow-dangling-references"
  | quiet => "quiet"
  | version => "version"
  | help => "help"

/-- The letter of a flag, if it has one. -/
def letter? : Flag → Option Char
  | singleFile => some 's'
  | inputExtension => some 'e'
  | exportMode => some 'm'
  | tabulator => some 't'
  | quiet => some 'q'
  | version => some 'V'
  | help => some 'h'
  | _ => none

/-- All flags. -/
def all : List Flag :=
  [singleFile, inputExtension, exportMode, tabulator, defaultNamespace, noSchema, noNamespaces,
   allowDangling, quiet, version, help]

/-- The flag of a long name, which has to be spelled out. -/
def ofLongName? (name : String) : Option Flag := all.find? (·.longName = name)

/-- The flag of a letter. -/
def ofLetter? (letter : Char) : Option Flag := all.find? (·.letter? = some letter)

/-- A flag that comes with a value. -/
def takesValue : Flag → Bool
  | inputExtension | exportMode | tabulator | defaultNamespace => true
  | _ => false

/-- What a flag does to the options, given its value if it takes one. -/
def set? (flag : Flag) (value : String) (options : Options) : Option Options :=
  match flag with
  | singleFile => some { options with singleFile := true }
  | inputExtension => some { options with inputExtension := value }
  | exportMode => do return { options with exportMode := ← ExportMode.ofWord? value }
  | tabulator => some { options with tabulator := value }
  | defaultNamespace => some { options with defaultNamespace := value }
  | noSchema => some { options with exportSchema := false }
  | noNamespaces => some { options with namespaceBlocks := false }
  | allowDangling => some { options with denyDangling := false }
  | quiet | version | help => some options

end Flag

/-! ## Reading arguments -/

/-- What the arguments read so far amount to. -/
structure Progress where
  /-- The options. -/
  options : Options := {}
  /-- The flags that were given. -/
  given : List Flag := []
  /-- The directories that were given. -/
  directories : List String := []
  /-- Whether flags have ended. -/
  flagsEnded : Bool := false

/-- What the arguments ask for. -/
inductive Request where
  | convertText (options : Options)
  | convertDirectory (options : Options) (input output : String)
  | showVersion
  | showHelp
  deriving DecidableEq, Repr

/-- What follows from one argument. -/
inductive Step where
  /-- The next argument can be read. -/
  | next (progress : Progress)
  /-- The next argument is the value of a flag. -/
  | await (progress : Progress) (flag : Flag)
  /-- Nothing further is read. -/
  | stop (request : Request)
  /-- The arguments make no sense. -/
  | refuse

/-- Takes a flag with its value.  No flag can be given twice. -/
def Progress.take (progress : Progress) (flag : Flag) (value : String) : Step :=
  if flag = .version then .stop .showVersion
  else if flag = .help then .stop .showHelp
  else if progress.given.contains flag then .refuse
  else match flag.set? value progress.options with
    | some options => .next { progress with options, given := flag :: progress.given }
    | none => .refuse

/-- Takes a directory.  There are at most two, and neither has an empty name. -/
def Progress.takeDirectory (progress : Progress) (path : String) : Step :=
  if path.isEmpty || 2 ≤ progress.directories.length then .refuse
  else .next { progress with directories := progress.directories ++ [path] }

/-- Takes the letters after a single dash.  A flag that takes a value takes what is left, without
an equals sign in front, or the next argument if nothing is left. -/
def Progress.takeLetters (progress : Progress) : List Char → Step
  | [] => .next progress
  | letter :: rest =>
    match Flag.ofLetter? letter with
    | none => .refuse
    | some flag =>
      if flag.takesValue then
        match rest with
        | [] => .await progress flag
        | '=' :: value => progress.take flag (String.ofList value)
        | value => progress.take flag (String.ofList value)
      else match progress.take flag "" with
        | .next progress => progress.takeLetters rest
        | step => step

/-- Takes what stands after two dashes: a long name, with a value behind an equals sign or
without. -/
def Progress.takeLong (progress : Progress) (text : List Char) : Step :=
  match Flag.ofLongName? (String.ofList (text.takeWhile (· ≠ '='))), text.dropWhile (· ≠ '=') with
  | none, _ => .refuse
  | some flag, [] => if flag.takesValue then .await progress flag else progress.take flag ""
  | some flag, _ :: value =>
    if flag.takesValue then progress.take flag (String.ofList value) else .refuse

/-- Takes one argument. -/
def Progress.takeArgument (progress : Progress) (argument : String) : Step :=
  if progress.flagsEnded then progress.takeDirectory argument
  else match argument.toList with
    | ['-', '-'] => .next { progress with flagsEnded := true }
    | '-' :: '-' :: text => progress.takeLong text
    | '-' :: letter :: rest => progress.takeLetters (letter :: rest)
    | _ => progress.takeDirectory argument

/-- An argument that is not the value of the flag before it. -/
def looksLikeFlag (argument : String) : Bool :=
  match argument.toList with
  | '-' :: _ :: _ => true
  | _ => false

/-- What is asked for once all arguments are read.  One directory alone is not enough. -/
def Progress.finish (progress : Progress) : Option Request :=
  match progress.directories with
  | [] => some (.convertText progress.options)
  | [input, output] => some (.convertDirectory progress.options input output)
  | _ => none

/-- Reads the arguments that are left, the first of them being the value of a flag if one is
awaited. -/
def Progress.read : Progress → (awaited : Option Flag) → List String → Option Request
  | progress, none, [] => progress.finish
  | _, some _, [] => none
  | progress, none, argument :: rest =>
    match progress.takeArgument argument with
    | .next progress => progress.read none rest
    | .await progress flag => progress.read (some flag) rest
    | .stop request => some request
    | .refuse => none
  | progress, some flag, argument :: rest =>
    if looksLikeFlag argument then none
    else match progress.take flag argument with
      | .next progress => progress.read none rest
      | .await progress flag => progress.read (some flag) rest
      | .stop request => some request
      | .refuse => none

/-- **What the arguments ask for**, or nothing if they make no sense. -/
def Request.ofArguments (arguments : List String) : Option Request :=
  Progress.read {} none arguments

/-! ## Running -/

/-- What a run leaves behind, apart from files. -/
structure Outcome where
  /-- The exit code. -/
  exitCode : Nat
  /-- What is written to the standard output. -/
  output : String := ""
  /-- What is written to the standard error. -/
  errors : String := ""
  deriving DecidableEq, Repr

/-- The name and version of the program. -/
def versionText : String := "avrotsc 0.1.0\n"

/-- How the program is called. -/
def usageText : String :=
  String.join <| List.map (· ++ "\n")
    ["Usage: avrotsc [OPTIONS] [INPUT_DIR OUTPUT_DIR]",
     "",
     "Options:",
     "  -s, --single-file                Merge every namespace into a single index.ts",
     "  -e, --input-extension <SUFFIX>   How schema files end [default: .avro]",
     "  -m, --export-mode <MODE>         Declaration style: type, interface or abstract",
     "  -t, --tabulator <TEXT>           One level of indentation [default: a tab]",
     "      --namespace <NS>             Namespace for schemas that declare none",
     "      --no-schema                  Leave out the schema constant after each record",
     "      --no-namespaces              Leave out the namespace blocks",
     "      --allow-dangling-references  Write references that mean nothing as they stand",
     "  -q, --quiet                      Write nothing but errors to the standard error",
     "  -h, --help                       Show this text",
     "  -V, --version                    Show the version"]

/-- The outcome of a conversion that yields a text. -/
def Outcome.ofConversion : Except ConversionError String → Outcome
  | .ok text => { exitCode := 0, output := text }
  | .error error => { exitCode := 1, errors := s!"Error: {error.message}\n" }

/-- What the conversion of a standard input yields. -/
def convertInput (options : Options) (input : ByteArray) : Except ConversionError String := do
  Conversion.mergedOfText options (← Conversion.decodeText input)

/-- **Runs the program**, where `readInput` yields the standard input if it is needed. -/
def run {m : Type → Type} [Monad m] [FileStore m] (arguments : List String)
    (readInput : m ByteArray) : m Outcome := do
  match Request.ofArguments arguments with
  | none => return { exitCode := 2, errors := s!"error: unusable arguments\n\n{usageText}" }
  | some .showVersion => return { exitCode := 0, output := versionText }
  | some .showHelp => return { exitCode := 0, output := usageText }
  | some (.convertText options) =>
    return .ofConversion (convertInput options (← readInput))
  | some (.convertDirectory options input output) =>
    let done ← (Conversion.convertDirectory options input output).run
    return .ofConversion (done.map fun _ => "")

end AvroTypes.CommandLine
