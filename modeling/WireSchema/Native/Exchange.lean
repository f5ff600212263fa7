-- The message exchange of a document as Rust code: numbers, the transport, handlers of
-- responses and the client.
import WireSchema.Code
import WireSchema.Message
import WireSchema.Native.Name

namespace WireSchema.Native

open Code Text

/-- The numbers of the messages. An enum without members has no representation. -/
def messageEnum (c : Catalog) : List Code :=
  (if c.ids.isEmpty then [] else [.line "#[repr(u8)]"]) ++
    [.line "#[derive(Debug, Clone, Copy, PartialEq, Eq, Hash)]",
      braces "pub enum MessageId" (c.ids.map fun (name, id) => .line s!"{name} = {id},")]

/-- The number of the service, from the module around. -/
def serviceId (c : Catalog) : Code :=
  let name := c.serviceIdName
  .line s!"pub const SERVICE_ID: u8 = super::{name} as u8;"

/-- The transport that the client talks to. -/
def transportTrait : String :=
  "\n".intercalate
    ["/// Network client the generated dispatch layer talks to.",
      "pub trait Transport \x7b",
      "    fn register(",
      "        &mut self,",
      "        service_id: u8,",
      "        message_id: u8,",
      "        handler: Box<dyn FnMut(&[u8]) -> Result<(), CodecError>>,",
      "    );",
      "    fn send(&mut self, service_id: u8, message_id: u8, payload: Vec<u8>);",
      "\x7d"]

/-- The transport: the one at a path, or one of the module's own. -/
def transport : Option String → List Code
  | some path => [.line s!"pub use {path} as Transport;"]
  | none => verbatim transportTrait

/-- The routine that decodes a response and hands it on. -/
def handler (rsp : Endpoint) : Code :=
  let name := rsp.structName
  let var := methodEnding name
  braces s!"pub fn handle_{var}(&self, content: &[u8]) -> Result<(), CodecError>"
    [.line s!"let mut {var} = {name}::default();",
      .line s!"{var}.unmarshal(content, 0)?;",
      .line s!"let taken = self.{var}.borrow_mut().take();",
      braces "if let Some(mut handler) = taken"
        [.line s!"handler({var});",
          .line s!"let mut slot = self.{var}.borrow_mut();",
          braces "if slot.is_none()" [.line "*slot = Some(handler);"]],
      .line "Ok(())"]

/-- The slots and routines of the responses. -/
def handlers (c : Catalog) : List Code :=
  [.line "#[derive(Default)]",
    braces "pub struct Handlers" (c.responses.map fun rsp =>
      let name := rsp.structName
      let var := methodEnding name
      .line s!"{var}: RefCell<Option<Box<dyn FnMut({name})>>>,"),
    .blank,
    braces "impl Handlers" (c.responses.map handler)]

/-- The registration of the handler of a response. -/
def registration (rsp : Endpoint) : Code :=
  let logical := rsp.logicalName
  let var := methodEnding rsp.structName
  .block "\x7b"
    [.line "let handlers = Rc::clone(&handlers);",
      .line "transport.register(",
      .line "    SERVICE_ID,",
      .line s!"    MessageId::{logical} as u8,",
      .line s!"    Box::new(move |content: &[u8]| handlers.handle_{var}(content)),",
      .line ");"]
    "\x7d"

/-- The client's constructor, which registers the handlers. -/
def constructor (c : Catalog) : Code :=
  braces ("pub fn new(" ++ (if c.responses.isEmpty then "" else "mut ") ++ "transport: T) -> Self")
    (.line "let handlers = Rc::new(Handlers::default());" :: c.responses.map registration ++
      [.line "Self \x7b transport, handlers \x7d"])

/-- The method that sets the handler of a response. -/
def listener (rsp : Endpoint) : Code :=
  let name := rsp.structName
  let var := methodEnding name
  braces s!"pub fn on_{var}(&self, handler: impl FnMut({name}) + 'static)"
    [.line s!"*self.handlers.{var}.borrow_mut() = Some(Box::new(handler));"]

/-- The method that encodes and sends a request. -/
def sender (req : Endpoint) : Code :=
  let name := req.structName
  let logical := req.logicalName
  let var := methodEnding name
  braces s!"pub fn send_{var}(&mut self, {var}: &{name})"
    [.line s!"let mut b = vec![0u8; {var}.size()];",
      .line s!"{var}.marshal(&mut b, 0);",
      .line s!"self.transport.send(SERVICE_ID, MessageId::{logical} as u8, b);"]

/-- The client of a package. -/
def client (c : Catalog) : List Code :=
  let name := title c.package
  let accessors := [braces "pub fn transport(&self) -> &T" [.line "&self.transport"],
    braces "pub fn transport_mut(&mut self) -> &mut T" [.line "&mut self.transport"]]
  [braces s!"pub struct {name}<T: Transport>"
      [.line "transport: T,", .line "handlers: Rc<Handlers>,"],
    .blank,
    braces s!"impl<T: Transport> {name}<T>"
      (separated ((constructor c :: accessors ++ c.responses.map listener ++
        c.requests.map sender).map ([·])))]

end WireSchema.Native
