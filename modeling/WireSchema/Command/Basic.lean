-- The commands of the two tools: one generates and analyzes, the other encodes and decodes.
import WireSchema.Command.Arguments
import WireSchema.Schema.Load

namespace WireSchema

/-- The languages of generated code. -/
inductive Language where
  | csharp | rust
  deriving DecidableEq

namespace Language

/-- The spelling in arguments. -/
def name : Language → String
  | csharp => "csharp"
  | rust => "rust"

/-- The language with the given spelling. -/
def ofName? (s : String) : Option Language := [csharp, rust].find? (·.name == s)

end Language

/-- The forms of printed layouts. -/
inductive LayoutForm where
  | json | yaml | protobuf
  deriving DecidableEq

/-- The form with the given spelling. -/
def LayoutForm.ofName? : String → Option LayoutForm
  | "json" => some json
  | "yaml" => some yaml
  | "protobuf" => some protobuf
  | _ => none

/-- The format with the given spelling. -/
def SchemaFormat.ofName? : String → Option SchemaFormat
  | "json" => some json
  | "yaml" => some yaml
  | _ => none

/-- Where documents come from: files, or the standard input when there are none. -/
structure Sources where
  files : List String
  format : Option SchemaFormat

/-- Names in generated code that differ from the usual ones. -/
structure GeneratorConfig where
  nameSpace : Option String := none
  clientType : Option String := none
  transportPath : Option String := none

/-- A command. -/
inductive Command where
  | generate (sources : Sources) (language : Language) (outputDir : Option String)
      (config : GeneratorConfig)
  | analyze (sources : Sources) (layout : Option LayoutForm) (programs : Bool)
  | encode (schema type : String) (input : Option String)
  | decode (schema type : String) (hex : Option String) (pretty : Bool)

/-- The tools. -/
inductive Tool where
  | generator | reflector
  deriving DecidableEq

namespace Command

/-! ## Options -/

/-- Options of a command that reads documents. -/
def sourceFlags : List Flag :=
  [.path "file" (some 'f') true, .choice "format" none ["json", "yaml"],
    .switch "verbose" (some 'v')]

/-- Options of a command that generates. -/
def generateFlags : List Flag :=
  sourceFlags ++ [.choice "language" (some 'l') ["csharp", "rust"], .path "output" (some 'o') false,
    .text "namespace" none, .text "client-type" none, .text "transport-path" none]

/-- Options of a command that analyzes. -/
def analyzeFlags : List Flag :=
  sourceFlags ++ [.switch "print-ir" none, .choice "ir-format" none ["json", "yaml", "protobuf"],
    .switch "print-codec-ir" none]

/-- The option that every command of the second tool has. -/
def verboseFlag : Flag := .switch "verbose" (some 'v')

/-- Options of a command on one schema. -/
def schemaFlags : List Flag :=
  [.path "schema" (some 's') false, .text "type-name" (some 't'), verboseFlag]

/-- Options of a command that encodes. -/
def encodeFlags : List Flag := schemaFlags ++ [.path "input" (some 'i') false]

/-- Options of a command that decodes. -/
def decodeFlags : List Flag :=
  schemaFlags ++ [.text "hex" (some 'x'), .switch "pretty" (some 'p')]

/-! ## Commands from options -/

/-- Where documents come from. -/
def sources (s : Settings) : Sources :=
  ⟨s.getAll "file", (s.get? "format").bind SchemaFormat.ofName?⟩

/-- The command that generates. -/
def ofGenerate (s : Settings) : Command :=
  .generate (sources s) (((s.get? "language").bind Language.ofName?).getD .csharp)
    (s.get? "output") ⟨s.get? "namespace", s.get? "client-type", s.get? "transport-path"⟩

/-- The command that analyzes. -/
def ofAnalyze (s : Settings) : Command :=
  let form := ((s.get? "ir-format").bind LayoutForm.ofName?).getD .json
  .analyze (sources s) (if s.has "print-ir" then some form else none) (s.has "print-codec-ir")

/-- A setting that must be there. -/
def need (s : Settings) (long : String) : Except Usage String :=
  match s.get? long with
  | some value => .ok value
  | none => .error .wrong

/-- The command that encodes. -/
def ofEncode (s : Settings) : Except Usage Command := do
  return .encode (← need s "schema") (← need s "type-name") (s.get? "input")

/-- The command that decodes. -/
def ofDecode (s : Settings) : Except Usage Command := do
  return .decode (← need s "schema") (← need s "type-name") (s.get? "hex") (s.has "pretty")

/-- The command that arguments of a tool ask for. Without the name of a command the first tool
generates, and its options cannot stand before a name. -/
def parse (tool : Tool) (args : List String) : Except Usage Command :=
  match tool with
  | .generator => do
    let (settings, rest) ← scanArguments generateFlags args
    if isAtEnd rest then return ofGenerate settings
    else if !settings.isEmpty then throw .wrong
    else match rest with
      | "codegen" :: rest => return ofGenerate (← onlyOptions generateFlags rest)
      | "analyze" :: rest => return ofAnalyze (← onlyOptions analyzeFlags rest)
      | "help" :: _ => throw .help
      | _ => throw .wrong
  | .reflector => do
    let (_, rest) ← scanArguments [verboseFlag] args
    match rest with
    | "encode" :: rest => ofEncode (← onlyOptions encodeFlags rest)
    | "decode" :: rest => ofDecode (← onlyOptions decodeFlags rest)
    | "help" :: _ => throw .help
    | _ => throw .wrong

end Command

end WireSchema
