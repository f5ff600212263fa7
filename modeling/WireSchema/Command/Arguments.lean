-- Arguments of a command: options with long and short names, before the first argument that
-- is none.

namespace WireSchema

/-- Why arguments are no command. -/
inductive Usage where
  /-- They ask for help. -/
  | help
  | wrong
  deriving DecidableEq

/-- What an option takes. -/
inductive Takes where
  | nothing
  /-- A value that passes a test. -/
  | value (accepts : String → Bool)

/-- An option. -/
structure Flag where
  long : String
  short : Option Char
  takes : Takes
  /-- The option may stand more than once. -/
  many : Bool := false

/-- Options that were given, by their long names, with their values. -/
abbrev Settings := List (String × String)

namespace Settings

/-- The value of an option. -/
def get? (s : Settings) (long : String) : Option String := s.lookup long

/-- Every value of an option. -/
def getAll (s : Settings) (long : String) : List String :=
  (s.filter (·.1 == long)).map (·.2)

/-- The option was given. -/
def has (s : Settings) (long : String) : Bool := (s.get? long).isSome

end Settings

namespace Flag

/-- An option without a value. -/
def switch (long : String) (short : Option Char) : Flag := ⟨long, short, .nothing, false⟩

/-- An option with any text. -/
def text (long : String) (short : Option Char) : Flag := ⟨long, short, .value fun _ => true, false⟩

/-- An option with a path. -/
def path (long : String) (short : Option Char) (many : Bool) : Flag :=
  ⟨long, short, .value (! ·.isEmpty), many⟩

/-- An option with one of some words. -/
def choice (long : String) (short : Option Char) (words : List String) : Flag :=
  ⟨long, short, .value words.contains, false⟩

end Flag

/-- What the arguments read so far ask for. -/
structure Scan where
  settings : Settings
  /-- The option whose value comes next. -/
  pending : Option Flag

namespace Scan

/-- Adds an option with its value. -/
def add (s : Scan) (f : Flag) (value : String) : Except Usage Scan :=
  if !f.many && s.settings.has f.long then .error .wrong
  else match f.takes with
    | .nothing => .ok ⟨s.settings ++ [(f.long, value)], none⟩
    | .value accepts =>
      if accepts value then .ok ⟨s.settings ++ [(f.long, value)], none⟩ else .error .wrong

/-- A long option, with or without a value behind an equals sign. -/
def long (flags : List Flag) (s : Scan) (cs : List Char) : Except Usage Scan :=
  let name := String.ofList (cs.takeWhile (· != '='))
  match flags.find? (·.long == name) with
  | none => .error (if name == "help" then .help else .wrong)
  | some f =>
    match f.takes, cs.dropWhile (· != '=') with
    | .nothing, [] => s.add f ""
    | .nothing, _ :: _ => .error .wrong
    | .value _, [] => .ok { s with pending := some f }
    | .value _, _ :: value => s.add f (String.ofList value)

/-- Short options in a row; the first that takes a value takes the rest. -/
def shorts (flags : List Flag) (s : Scan) : List Char → Except Usage Scan
  | [] => .ok s
  | c :: cs =>
    match flags.find? (·.short == some c) with
    | none => .error (if c == 'h' then .help else .wrong)
    | some f =>
      match f.takes, cs with
      | .nothing, cs => do shorts flags (← s.add f "") cs
      | .value _, [] => .ok { s with pending := some f }
      | .value _, '=' :: value => s.add f (String.ofList value)
      | .value _, value => s.add f (String.ofList value)

/-- Reads arguments up to the first that is no option: the options, and what is left. -/
def run (flags : List Flag) : Scan → List String → Except Usage (Settings × List String)
  | s, [] => if s.pending.isSome then .error .wrong else .ok (s.settings, [])
  | s, arg :: rest =>
    match s.pending, arg.toList with
    | some _, '-' :: _ :: _ => .error .wrong
    | some f, _ => do run flags (← s.add f arg) rest
    | none, ['-', '-'] => .ok (s.settings, arg :: rest)
    | none, '-' :: '-' :: cs => do run flags (← s.long flags cs) rest
    | none, '-' :: c :: cs => do run flags (← s.shorts flags (c :: cs)) rest
    | none, _ => .ok (s.settings, arg :: rest)

end Scan

/-- Reads options, and what follows them. -/
def scanArguments (flags : List Flag) (args : List String) :
    Except Usage (Settings × List String) :=
  Scan.run flags ⟨[], none⟩ args

/-- Nothing is left but a mark that ends the options. -/
def isAtEnd (rest : List String) : Bool := rest == [] || rest == ["--"]

/-- Reads options that nothing follows. -/
def onlyOptions (flags : List Flag) (args : List String) : Except Usage Settings := do
  let (settings, rest) ← scanArguments flags args
  if isAtEnd rest then return settings else throw .wrong

end WireSchema
