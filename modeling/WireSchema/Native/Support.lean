-- The helpers that Rust codecs call: the error type, bounds checks, scalars, strings and
-- byte blocks.
import WireSchema.Code
import WireSchema.Layout.Basic

namespace WireSchema.Native

open Code

/-- The errors of readers. -/
def errorType : List Code :=
  [.line "#[derive(Debug, Clone, PartialEq, Eq)]",
    braces "pub enum CodecError"
      [.line "OutOfBounds \x7b offset: usize, need: usize, len: usize \x7d,",
        .line "InvalidUtf8 \x7b offset: usize \x7d,",
        .line "CountLimit \x7b offset: usize, count: usize, limit: usize \x7d,"]]

/-- A call of the formatter that spreads over lines. -/
def writeCall (variant : String) (args : List String) : Code :=
  .block (s!"CodecError::{variant} => write!(") (args.map .line) "),"

/-- The wording of the errors. -/
def errorText : List Code :=
  [braces "impl std::fmt::Display for CodecError"
      [braces "fn fmt(&self, f: &mut std::fmt::Formatter<'_>) -> std::fmt::Result"
        [braces "match self"
          [writeCall "OutOfBounds \x7b offset, need, len \x7d"
              ["f,",
                "\"read of \x7b\x7d bytes at offset \x7b\x7d exceeds buffer of " ++
                  "\x7b\x7d bytes\",",
                "need, offset, len"],
            braces "CodecError::InvalidUtf8 \x7b offset \x7d =>"
              [.line "write!(f, \"invalid UTF-8 in string at offset \x7b\x7d\", offset)"],
            writeCall "CountLimit \x7b offset, count, limit \x7d"
              ["f,",
                "\"count \x7b\x7d at offset \x7b\x7d exceeds the limit of " ++
                  "\x7b\x7d zero-width elements\",",
                "count, offset, limit"]]]]]

/-- The trait of the scalars. -/
def scalarTrait : List Code :=
  [.line "/// Fixed-width little-endian wire scalar.",
    braces "pub trait Scalar: Copy"
      [.line "const WIDTH: usize;",
        .line "fn put_le(self, b: &mut [u8]);",
        .line "fn get_le(b: &[u8]) -> Self;"]]

/-- The helpers for bounds and scalars. -/
def scalarHelpers : List (List Code) :=
  [[braces "fn check(b: &[u8], n: usize, need: usize) -> Result<(), CodecError>"
      [braces "if n > b.len() || b.len() - n < need"
          [.line "return Err(CodecError::OutOfBounds \x7b offset: n, need, len: b.len() \x7d);"],
        .line "Ok(())"]],
    [braces "pub fn put<T: Scalar>(b: &mut [u8], n: usize, v: T) -> usize"
      [.line "v.put_le(&mut b[n..n + T::WIDTH]);", .line "n + T::WIDTH"]],
    [braces "pub fn get<T: Scalar>(b: &[u8], n: &mut usize) -> Result<T, CodecError>"
      [.line "check(b, *n, T::WIDTH)?;",
        .line "let v = T::get_le(&b[*n..*n + T::WIDTH]);",
        .line "*n += T::WIDTH;",
        .line "Ok(v)"]],
    [braces "pub fn put_opt<T: Scalar>(b: &mut [u8], n: usize, v: Option<T>) -> usize"
      [braces "match v"
        [braces "Some(v) =>" [.line "let n = put(b, n, true);", .line "put(b, n, v)"],
          .line "None => put(b, n, false),"]]],
    [braces "pub fn get_opt<T: Scalar>(b: &[u8], n: &mut usize) -> Result<Option<T>, CodecError>"
      [.block "if get::<bool>(b, n)? \x7b" [.line "Ok(Some(get::<T>(b, n)?))"] "\x7d else \x7b",
        .line "    Ok(None)",
        .line "\x7d"]]]

/-- The helpers for counts. -/
def countHelpers : List (List Code) :=
  [[braces "pub fn put_len(b: &mut [u8], n: usize, len: usize) -> usize"
      [.line "put(b, n, len as u32)"]],
    [braces "pub fn get_len(b: &[u8], n: &mut usize) -> Result<usize, CodecError>"
      [.line "Ok(get::<u32>(b, n)? as usize)"]],
    [.line ("/// Element count of a list or map whose entries occupy at least " ++
        "\x60width\x60 bytes each."),
      braces ("pub fn get_count(b: &[u8], n: &mut usize, width: usize) -> " ++
          "Result<usize, CodecError>")
        [.line "let offset = *n;",
          .line "let count = get_len(b, n)?;",
          braces "if width == 0"
            [braces "if count > MAX_EMPTY_ELEMENTS"
                [.line ("return Err(CodecError::CountLimit \x7b offset, count, " ++
                  "limit: MAX_EMPTY_ELEMENTS \x7d);")],
              .line "return Ok(count);"],
          .line "check(b, *n, count.saturating_mul(width))?;",
          .line "Ok(count)"]]]

/-- The helpers for byte blocks and strings. -/
def blockHelpers : List (List Code) :=
  [[braces "pub fn put_block(b: &mut [u8], n: usize, v: &[u8], len: usize) -> usize"
      [.line "let k = v.len().min(len);",
        .line "b[n..n + k].copy_from_slice(&v[..k]);",
        .line "n + len"]],
    [braces "pub fn get_block(b: &[u8], n: &mut usize, len: usize) -> Result<Vec<u8>, CodecError>"
      [.line "check(b, *n, len)?;",
        .line "let v = b[*n..*n + len].to_vec();",
        .line "*n += len;",
        .line "Ok(v)"]],
    [braces "pub fn put_bytes(b: &mut [u8], n: usize, v: &[u8]) -> usize"
      [.line "let n = put_len(b, n, v.len());", .line "put_block(b, n, v, v.len())"]],
    [braces "pub fn get_bytes(b: &[u8], n: &mut usize) -> Result<Vec<u8>, CodecError>"
      [.line "let len = get_len(b, n)?;", .line "get_block(b, n, len)"]],
    [braces "pub fn put_str(b: &mut [u8], n: usize, v: &str) -> usize"
      [.line "put_bytes(b, n, v.as_bytes())"]],
    [braces "pub fn get_str(b: &[u8], n: &mut usize) -> Result<String, CodecError>"
      [.line "let offset = *n;",
        .line "let raw = get_bytes(b, n)?;",
        .line "String::from_utf8(raw).map_err(|_| CodecError::InvalidUtf8 \x7b offset \x7d)"]]]

/-- The bytes of a scalar and back. -/
def scalarImpl (s : Scalar) : Code :=
  let type := s.name
  let width := s.width
  let (putLine, getLines) := match s with
    | .bool => ("b[0] = self as u8;", ["b[0] != 0"])
    | _ => (s!"b[..{width}].copy_from_slice(&self.to_le_bytes());",
        [s!"let mut a = [0u8; {width}];", s!"a.copy_from_slice(&b[..{width}]);",
          s!"{type}::from_le_bytes(a)"])
  braces s!"impl Scalar for {type}"
    [.line s!"const WIDTH: usize = {width};",
      braces "fn put_le(self, b: &mut [u8])" [.line putLine],
      braces "fn get_le(b: &[u8]) -> Self" (getLines.map .line)]

/-- Every helper. -/
def support : List Code :=
  separated ([[.line s!"pub const MAX_EMPTY_ELEMENTS: usize = {maxEmptyElements};"],
    errorType, errorText, [.line "impl std::error::Error for CodecError \x7b\x7d"], scalarTrait] ++
    scalarHelpers ++ countHelpers ++ blockHelpers ++ Scalar.all.map fun s => [scalarImpl s])

end WireSchema.Native
