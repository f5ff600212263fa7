-- The helpers that C# codecs call: bounds checks, bits of scalars, strings and byte blocks.
import WireSchema.Managed.Method

namespace WireSchema.Managed

open Code

/-- The bits of a scalar value. -/
def toBits : Scalar → String
  | .bool => "v ? 1UL : 0UL"
  | .i8 => "unchecked((ulong)(byte)v)"
  | .i16 => "unchecked((ulong)(ushort)v)"
  | .i32 => "unchecked((ulong)(uint)v)"
  | .i64 => "unchecked((ulong)v)"
  | .u8 | .u16 | .u32 | .u64 => "(ulong)v"
  | .f32 => "(ulong)BitConverter.ToUInt32(BitConverter.GetBytes(v), 0)"
  | .f64 => "unchecked((ulong)BitConverter.DoubleToInt64Bits(v))"

/-- The scalar value of bits. -/
def fromBits : Scalar → String
  | .bool => "bits != 0"
  | .i8 => "unchecked((sbyte)(byte)bits)"
  | .u8 => "unchecked((byte)bits)"
  | .i16 => "unchecked((short)(ushort)bits)"
  | .u16 => "unchecked((ushort)bits)"
  | .i32 => "unchecked((int)(uint)bits)"
  | .u32 => "unchecked((uint)bits)"
  | .i64 => "unchecked((long)bits)"
  | .u64 => "bits"
  | .f32 => "BitConverter.ToSingle(BitConverter.GetBytes(unchecked((uint)bits)), 0)"
  | .f64 => "BitConverter.Int64BitsToDouble(unchecked((long)bits))"

/-- The writer and the reader of a scalar. -/
def scalarHelpers (s : Scalar) : List Code :=
  let ending := scalarEnding s
  let type := scalarType s
  let width := s.width
  [braces s!"public static int Put{ending}(byte[] b, int n, {type} v)"
      [.line ("return PutBits(b, n, " ++ toBits s ++ s!", {width});")],
    braces s!"public static {type} Get{ending}(byte[] b, ref int n)"
      [.line s!"ulong bits = GetBits(b, ref n, {width});", .line ("return " ++ fromBits s ++ ";")]]

/-- The exceptions of readers. -/
def exceptions : List Code :=
  [braces "public class OutOfBoundsException : Exception"
      [braces ("public OutOfBoundsException(int offset, long need, int length) : " ++
        "base(\"read of \" + need + \" bytes at offset \" + offset + " ++
        "\" exceeds buffer of \" + length + \" bytes\")") []],
    braces "public class CountLimitException : Exception"
      [braces ("public CountLimitException(int offset, int count, int limit) : " ++
        "base(\"count \" + count + \" at offset \" + offset + " ++
        "\" exceeds the limit of \" + limit + \" zero-width elements\")") []]]

/-- The helpers for bits, which check bounds when they read. -/
def bitHelpers : List Code :=
  [.line s!"public const int MaxEmptyElements = {maxEmptyElements};",
    .blank,
    braces "public static void Check(byte[] b, int n, long need)"
      [braces "if (n < 0 || need < 0 || n > b.Length || b.Length - n < need)"
        [.line "throw new OutOfBoundsException(n, need, b.Length);"]],
    .blank,
    braces "public static int PutBits(byte[] b, int n, ulong v, int width)"
      [braces "for (int i = 0; i < width; i++)" [.line "b[n + i] = (byte)(v >> (8 * i));"],
        .line "return n + width;"],
    .blank,
    braces "public static ulong GetBits(byte[] b, ref int n, int width)"
      [.line "Check(b, n, width);",
        .line "ulong v = 0;",
        braces "for (int i = 0; i < width; i++)" [.line "v |= (ulong)b[n + i] << (8 * i);"],
        .line "n += width;",
        .line "return v;"]]

/-- The helpers for counts. -/
def countHelpers : List Code :=
  [braces "public static int PutCount(byte[] b, int n, int count)"
      [.line s!"return PutBits(b, n, (ulong)count, {countWidth});"],
    braces "public static int GetCount(byte[] b, ref int n)"
      [.line s!"ulong count = GetBits(b, ref n, {countWidth});",
        braces "if (count > int.MaxValue)"
          [.line "throw new OutOfBoundsException(n, (long)count, b.Length);"],
        .line "return (int)count;"],
    braces "public static int GetElementCount(byte[] b, ref int n, int width)"
      [.line "int offset = n;",
        .line "int count = GetCount(b, ref n);",
        braces "if (width == 0 && count > MaxEmptyElements)"
          [.line "throw new CountLimitException(offset, count, MaxEmptyElements);"],
        .line "Check(b, n, (long)count * width);",
        .line "return count;"]]

/-- The helpers for strings. -/
def stringHelpers : List Code :=
  [braces "public static int StringSize(string v)"
      [.line "return v == null ? 0 : Encoding.UTF8.GetByteCount(v);"],
    braces "public static int PutString(byte[] b, int n, string v)"
      [.line "byte[] s = v == null ? new byte[0] : Encoding.UTF8.GetBytes(v);",
        .line "return PutBytes(b, n, s);"],
    braces "public static string GetString(byte[] b, ref int n)"
      [.line "int len = GetCount(b, ref n);",
        .line "Check(b, n, len);",
        .line "string v = Encoding.UTF8.GetString(b, n, len);",
        .line "n += len;",
        .line "return v;"]]

/-- The helpers for byte blocks. -/
def blockHelpers : List Code :=
  [braces "public static int BytesSize(byte[] v)" [.line "return v == null ? 0 : v.Length;"],
    braces "public static int PutBytes(byte[] b, int n, byte[] v)"
      [.line "int len = BytesSize(v);",
        .line "n = PutCount(b, n, len);",
        braces "if (len > 0)" [.line "Buffer.BlockCopy(v, 0, b, n, len);"],
        .line "return n + len;"],
    braces "public static byte[] GetBytes(byte[] b, ref int n)"
      [.line "int len = GetCount(b, ref n);", .line "return GetBlock(b, ref n, len);"],
    braces "public static int PutBlock(byte[] b, int n, byte[] v, int len)"
      [braces "if (v != null)" [.line "Buffer.BlockCopy(v, 0, b, n, Math.Min(v.Length, len));"],
        .line "return n + len;"],
    braces "public static byte[] GetBlock(byte[] b, ref int n, int len)"
      [.line "Check(b, n, len);",
        .line "byte[] v = new byte[len];",
        .line "Buffer.BlockCopy(b, n, v, 0, len);",
        .line "n += len;",
        .line "return v;"]]

/-- Every helper. -/
def support : List Code :=
  separated ([exceptions, bitHelpers] ++ Scalar.all.map scalarHelpers ++
    [countHelpers, stringHelpers, blockHelpers])

end WireSchema.Managed
