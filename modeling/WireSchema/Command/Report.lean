-- The report on a document: its message numbers, the sizes of its structs, its issues, and
-- on demand its layouts and programs.
import WireSchema.Command.Basic
import WireSchema.Issue
import WireSchema.Layout.Codec
import WireSchema.Layout.Protobuf
import WireSchema.Message
import WireSchema.Program.Codec
import WireSchema.Program.Lower
import WireSchema.Text.Hex
import WireSchema.Yaml.Writer

namespace WireSchema

/-- A document and where it came from. -/
structure LoadedDocument where
  source : String
  document : Document

/-- What stops a command. -/
inductive Failure where
  /-- An error, by its outermost message. -/
  | reported (message : String)
  /-- The program breaks off without an error. -/
  | crash

/-- A sum that no word has is no error that a command could report. -/
def Failure.ofLowering (e : LoweringError) (message : String) : Failure :=
  match e with
  | .field .. => .reported message
  | .overflow => .crash

/-- What a command prints, and what stops it, if anything does. -/
structure Answer where
  printed : String
  failure : Option Failure

/-- An answer that is printed whole or not at all. -/
def Answer.ofExcept : Except String String → Answer
  | .ok text => ⟨text, none⟩
  | .error message => ⟨"", some (.reported message)⟩

namespace Report

/-- Lines with their ends. -/
def lines (ls : List String) : String := String.join (ls.map (· ++ "\n"))

/-- A number at the right of three places. -/
def padded (n : Nat) : String :=
  let digits := toString n
  String.ofList (List.replicate (3 - digits.length) ' ') ++ digits

/-- The head of a report on several documents. -/
def head : String := lines ["wirebuf - Schema Analysis", "========================="]

/-- The message numbers. -/
def messages (c : Catalog) : List String :=
  let rows := c.ids.map fun (name, id) => "    " ++ padded id ++ "  " ++ name
  "" :: "[~] Message IDs:" :: if rows.isEmpty then ["    (none)"] else rows

/-- The line of a struct. -/
def structLine (s : StructDef) (layout : StructLayout) : String :=
  let size := match layout.staticWidth with
    | some width => toString width.toNat ++ " bytes"
    | none => "variable"
  let fields := s.fields.length
  "    [*] " ++ s.name ++ " (" ++ s.role.label ++ ", " ++ size ++ s!", {fields} field(s))"

/-- The issues. -/
def issues (found : List Issue) : List String :=
  if found.isEmpty then ["", "[+] No issues found"]
  else "" :: ("[!] " ++ toString found.length ++ " issue(s) found") ::
    found.map fun i => "    - " ++ i.message

/-- The layouts in a form. -/
def layoutText (d : DocumentLayout) : LayoutForm → String
  | .json => lines ["", "[~] Layout IR (JSON)", "===================", d.toJson.pretty]
  | .yaml => lines ["", "[~] Layout IR (YAML)", "==================="] ++ Yaml.write d.toJson
  | .protobuf =>
    let version := d.version
    lines ["", "[~] Layout IR (Protobuf)", "=======================",
      s!"(hex-encoded bytes, IR schema v{version})", Hex.encode d.message]

/-- The programs. -/
def programText (p : DocumentProgram) : String :=
  lines ["", "[~] Codec IR (JSON)", "==================", p.toJson.pretty]

/-- The report on one document: what is printed before anything fails, and what fails. -/
def ofDocument (form : Option LayoutForm) (programs : Bool) (loaded : LoadedDocument) : Answer :=
  let doc := loaded.document
  match doc.layout with
  | .error e => ⟨"", some (.reported e.message)⟩
  | .ok d =>
    let c := doc.ownCatalog
    let text := lines (["", "[~] Package '" ++ doc.package ++ "' (" ++ loaded.source ++ ")",
        "    Service ID: " ++ c.serviceIdName] ++ messages c ++ ["", "[~] Structs:"] ++
        (doc.messageStructs.zip d.structs).map (fun (s, layout) => structLine s layout) ++
        issues doc.issues) ++
      (form.map (layoutText d)).getD ""
    if programs then
      match doc.program with
      | .ok p => ⟨text ++ programText p, none⟩
      | .error e => ⟨text, some (.ofLowering e e.message)⟩
    else ⟨text, none⟩

/-- The reports on documents one after the other, up to the first that fails. -/
def ofDocuments (form : Option LayoutForm) (programs : Bool) : List LoadedDocument → Answer
  | [] => ⟨"", none⟩
  | loaded :: rest =>
    match ofDocument form programs loaded with
    | ⟨text, some failure⟩ => ⟨text, some failure⟩
    | ⟨text, none⟩ =>
      let later := ofDocuments form programs rest
      ⟨text ++ later.printed, later.failure⟩

end Report

end WireSchema
