-- The message exchange of a document as C# code: numbers, handlers of responses, senders of
-- requests.
import WireSchema.Code
import WireSchema.Message

namespace WireSchema.Managed

open Code Text

/-- Names that the code shares with its surroundings. -/
structure Options where
  nameSpace : String := "FastNet"
  clientType : String := "FastClient"
  registerMethod : String := "registHandle"
  sendMethod : String := "Send"

/-- The numbers of the messages. -/
def messageEnum (c : Catalog) : Code :=
  braces "public enum MessageID : byte"
    (c.ids.map fun (name, id) => .line s!"MsgID_{name} = {id},")

/-- The arguments that address a message. -/
def route (c : Catalog) (logicalName : String) : String :=
  let service := c.serviceIdName
  s!"(byte)ServiceID.{service}, (byte)MessageID.MsgID_{logicalName}"

/-- The handler types and slots of the responses. -/
def handlerSlots (c : Catalog) : List Code :=
  c.responses.flatMap fun rsp =>
    let name := rsp.structName
    let var := untitle name
    [.line s!"public delegate void {name}Handler({name} {var});",
      .line s!"public {name}Handler {var}Handle;"]

/-- The constructor, which registers the handlers. -/
def constructor (o : Options) (c : Catalog) : Code :=
  let client := o.clientType
  let registerMethod := o.registerMethod
  braces ("public " ++ title c.package ++ s!"({client} c)")
    (.line "this.client = c;" :: c.responses.map fun rsp =>
      let target := route c rsp.logicalName
      let name := rsp.structName
      .line s!"this.client.{registerMethod}({target}, this.handle{name});")

/-- The routines that decode responses and hand them on. -/
def handlers (c : Catalog) : List Code :=
  c.responses.map fun rsp =>
    let name := rsp.structName
    let var := untitle name
    braces s!"public void handle{name}(byte[] content)"
      [.line s!"{name} {var} = new {name}();",
        .line s!"{var}.Unmarshal(content, 0);",
        braces s!"if ({var}Handle != null)" [.line s!"{var}Handle({var});"]]

/-- The routines that encode and send requests. -/
def senders (o : Options) (c : Catalog) : List Code :=
  c.requests.map fun req =>
    let name := req.structName
    let var := untitle name
    let target := route c req.logicalName
    let sendMethod := o.sendMethod
    braces s!"public void Send{name}({name} {var})"
      [.line s!"byte[] b = new byte[{var}.Size()];",
        .line s!"{var}.Marshal(b, 0);",
        .line s!"client.{sendMethod}({target}, b);"]

end WireSchema.Managed
