-- Running commands on a disk and a standard input: what is printed, what is written, and
-- what went wrong.
import WireSchema.Command.Disk
import WireSchema.Command.Report
import WireSchema.Generate
import WireSchema.Text.Blank
import WireSchema.Wire.Codec

namespace WireSchema

/-- The end of a command. -/
structure Outcome where
  code : Nat
  stdout : String
  /-- What went wrong, from the outside. -/
  diagnostic : Option String
  disk : Disk

/-- The code of a program that breaks off. -/
def crashCode : Nat := 101

/-- The end of a command that stopped after it had printed a text. -/
def Outcome.ofFailure (printed : String) (disk : Disk) : Failure → Outcome
  | .reported message => ⟨1, printed, some message, disk⟩
  | .crash => ⟨crashCode, printed, none, disk⟩

/-- The end of a command that changes nothing on a disk. -/
def Answer.outcome (a : Answer) (disk : Disk) : Outcome :=
  match a.failure with
  | none => ⟨0, a.printed, none, disk⟩
  | some failure => .ofFailure a.printed disk failure

/-- What a command can see. -/
structure World where
  disk : Disk
  stdin : List UInt8

/-! ## Loading -/

/-- The name of the standard input as a source. -/
def stdinSource : String := "<stdin>"

/-- The path of the standard input. -/
def stdinPath : String := "/dev/stdin"

/-- The text at a path. -/
def World.read? (w : World) (path : String) : Option String :=
  if path == stdinPath then Text.ofBytes? w.stdin else w.disk.read? path

/-- Loads the document of a file. -/
def World.loadFile (w : World) (path : String) (format : Option SchemaFormat) :
    Except LoadError Document :=
  match w.read? path with
  | some text => Document.load text (format.getD (.ofPath path))
  | none => .error (.unreadable path "No such file or directory (os error 2)")

/-- Loads every file, or the standard input when there is none. The error is the outer one. -/
def World.load (w : World) (s : Sources) : Except String (List LoadedDocument) :=
  match s.files with
  | [] =>
    match Document.loadBytes w.stdin stdinSource (s.format.getD .json) with
    | .ok doc => .ok [⟨stdinSource, doc⟩]
    | .error _ => .error "failed to load schema document from stdin"
  | files => files.mapM fun path =>
    match w.loadFile path s.format with
    | .ok doc => .ok ⟨path, doc⟩
    | .error _ => .error ("failed to load schema file " ++ path)

/-- The codec of the document of a file. -/
def World.codec (w : World) (path : String) : Except String Codec := do
  let doc ← (w.loadFile path none).mapError fun _ => "failed to load schema " ++ path
  (Codec.ofDocument doc).mapError WireError.message

/-- The text of the standard input. -/
def World.stdinText (w : World) : Except String String :=
  match Text.ofBytes? w.stdin with
  | some text => .ok text
  | none => .error "failed to read stdin"

/-! ## Generating -/

/-- The target of a language. -/
def Target.ofConfig (config : GeneratorConfig) : Language → Target
  | .csharp =>
    let usual : Managed.Options := {}
    .managed { usual with
      nameSpace := config.nameSpace.getD usual.nameSpace
      clientType := config.clientType.getD usual.clientType }
  | .rust => .native config.transportPath

/-- The error of the document of a source: what failed, then its causes. -/
structure GenerationFailure where
  source : String
  cause : GenerateError

/-- What failed, as the outermost message. -/
def GenerationFailure.outer (f : GenerationFailure) : String :=
  "code generation failed for " ++ f.source

/-- The whole chain of messages. -/
def GenerationFailure.message (f : GenerationFailure) : String :=
  ": ".intercalate (f.outer :: f.cause.chain)

/-- What stops the command. -/
def GenerationFailure.failure (f : GenerationFailure) : Failure :=
  match f.cause with
  | .lowering e => .ofLowering e f.outer
  | .unsupported _ => .reported f.outer

/-- The sources of all documents, each with message numbers of its own. -/
def generateAll (target : Target) (docs : List LoadedDocument) :
    Except GenerationFailure (List String) :=
  docs.mapM fun loaded =>
    (loaded.document.generate target).mapError fun e => ⟨loaded.source, e⟩

/-- Writes a text for each document into a directory: the disk, and what went wrong. -/
def writeAll (dir extension : String) : Disk → List (LoadedDocument × String) →
    Disk × Option String
  | disk, [] => (disk, none)
  | disk, (loaded, text) :: rest =>
    let path := Disk.outputPath dir loaded.document.package extension
    match disk.write? path text with
    | some disk => writeAll dir extension disk rest
    | none => (disk, some ("failed to write " ++ path))

/-! ## Commands -/

/-- The text of an encoded value in hex. -/
def World.encoded (w : World) (schema type : String) (input : Option String) :
    Except String String := do
  let codec ← w.codec schema
  let text ← match input with
    | some path =>
      match w.read? path with
      | some text => .ok text
      | none => .error ("failed to read " ++ path)
    | none => w.stdinText
  match Json.read? text with
  | none => throw "input is not valid JSON"
  | some tree =>
    let v ← (codec.valueOfJson type tree).mapError WireError.message
    let bytes ← (codec.encode type v).mapError WireError.message
    return Hex.encode bytes ++ "\n"

/-- The tree of a value that was encoded in hex. -/
def World.decoded (w : World) (schema type : String) (hex : Option String) (pretty : Bool) :
    Except String String := do
  let codec ← w.codec schema
  let text ← match hex with
    | some text => .ok text
    | none => w.stdinText
  match Hex.decodeMarked? (Text.trimmed text) with
  | none => throw "payload is not valid hex"
  | some bytes =>
    let v ← (codec.decode type bytes).mapError WireError.message
    return (if pretty then v.toJson.pretty else v.toJson.compact) ++ "\n"

/-- The reports on documents. -/
def World.analyzed (w : World) (sources : Sources) (form : Option LayoutForm) (programs : Bool) :
    Answer :=
  match w.load sources with
  | .error message => ⟨"", some (.reported message)⟩
  | .ok docs =>
    let reports := Report.ofDocuments form programs docs
    ⟨Report.head ++ reports.printed, reports.failure⟩

/-- Generates: everything is generated before anything is written. -/
def runGenerate (w : World) (sources : Sources) (language : Language) (outputDir : Option String)
    (config : GeneratorConfig) : Outcome :=
  let target := Target.ofConfig config language
  let made : Except Failure (List LoadedDocument × List String) := do
    let docs ← (w.load sources).mapError .reported
    let texts ← (generateAll target docs).mapError GenerationFailure.failure
    return (docs, texts)
  match made, outputDir with
  | .error e, _ => .ofFailure "" w.disk e
  | .ok (_, texts), none => ⟨0, String.join texts, none, w.disk⟩
  | .ok (docs, texts), some dir =>
    match w.disk.makeDir? dir with
    | none => ⟨1, "", some ("failed to create output directory " ++ dir), w.disk⟩
    | some disk =>
      match writeAll dir target.extension disk (docs.zip texts) with
      | (disk, none) => ⟨0, "", none, disk⟩
      | (disk, some e) => ⟨1, "", some e, disk⟩

/-- Runs a command. Only generating writes files. -/
def Command.run (w : World) : Command → Outcome
  | .generate sources language outputDir config => runGenerate w sources language outputDir config
  | .analyze sources form programs => (w.analyzed sources form programs).outcome w.disk
  | .encode schema type input => (Answer.ofExcept (w.encoded schema type input)).outcome w.disk
  | .decode schema type hex pretty =>
    (Answer.ofExcept (w.decoded schema type hex pretty)).outcome w.disk

/-- Runs a tool with arguments. Arguments that are no command end with code 2. -/
def Tool.run (tool : Tool) (args : List String) (w : World) : Outcome :=
  match Command.parse tool args with
  | .ok command => command.run w
  | .error .help => ⟨0, "", none, w.disk⟩
  | .error .wrong => ⟨2, "", none, w.disk⟩

/-! ## What a command needs -/

/-- The files that a command may read. -/
def Command.reads : Command → List String
  | .generate sources .. | .analyze sources .. => sources.files
  | .encode schema _ input => schema :: input.toList
  | .decode schema .. => [schema]

/-- The command reads the standard input. -/
def Command.readsStdin (c : Command) : Bool :=
  c.reads.contains stdinPath || match c with
    | .generate sources .. | .analyze sources .. => sources.files.isEmpty
    | .encode _ _ input => input.isNone
    | .decode _ _ hex _ => hex.isNone

/-- The directories that a command may make. -/
def Command.makes : Command → List String
  | .generate _ _ outputDir _ => outputDir.toList
  | _ => []

end WireSchema
