import CanvasScript.Raster.Canvas

/-!
# PNG pictures

A picture is a signature and chunks. A chunk is the length of its data, its kind, the data and a sum
over kind and data. The pixels stand row by row, each row after a zero byte, in a stream of blocks
that are stored as they are; numbers stand with the highest byte first, and in the heads of blocks
with the lowest byte first.

This is what saving a canvas writes. The stream is not compressed, so the file of another encoder
may have other bytes for the same pixels.

* `Png.crc` and `Png.adler` are the sums over chunks and over streams.
* `Png.encode` is the picture of a canvas.
-/

namespace CanvasScript.Png

/-- A number in four bytes, the highest first. -/
def fourBytes (n : UInt32) : ByteArray :=
  ⟨#[(n >>> 24).toUInt8, (n >>> 16).toUInt8, (n >>> 8).toUInt8, n.toUInt8]⟩

/-- A number below `2 ^ 16` in two bytes, the lowest first. -/
def twoBytes (n : Nat) : ByteArray := ⟨#[UInt8.ofNat n, UInt8.ofNat (n / 256)]⟩

/-- The polynomial of the sum over chunks, its highest power in the lowest bit. -/
def polynomial : UInt32 := 0xEDB88320

/-- The sum after some more bits. -/
def crcBits : (count : Nat) → UInt32 → UInt32
  | 0, sum => sum
  | count + 1, sum =>
    crcBits count (if sum &&& 1 = 1 then (sum >>> 1) ^^^ polynomial else sum >>> 1)

/-- The cyclic sum over bytes. -/
def crc (bytes : ByteArray) : UInt32 :=
  bytes.foldl (fun sum byte => crcBits 8 (sum ^^^ byte.toUInt32)) 0xFFFFFFFF ^^^ 0xFFFFFFFF

/-- The modulus of the sum over streams: the greatest prime below `2 ^ 16`. -/
def modulus : UInt32 := 65521

/-- The sum over the bytes of a stream: that of the bytes, and above it that of the sums. -/
def adler (bytes : ByteArray) : UInt32 :=
  let (low, high) := bytes.foldl
    (fun (low, high) byte =>
      let low := (low + byte.toUInt32) % modulus
      (low, (high + low) % modulus)) ((1 : UInt32), (0 : UInt32))
  (high <<< 16) ||| low

/-- How many bytes a stored block holds at most. -/
def blockSize : Nat := 65535

/-- The blocks that store bytes, of which `count` begin before the last one. -/
def blocks (bytes out : ByteArray) : (count start : Nat) → ByteArray
  | 0, start =>
    let size := bytes.size - start
    out ++ ⟨#[1]⟩ ++ twoBytes size ++ twoBytes (blockSize - size) ++ bytes.extract start bytes.size
  | count + 1, start =>
    blocks bytes
      (out ++ ⟨#[0]⟩ ++ twoBytes blockSize ++ twoBytes 0 ++ bytes.extract start (start + blockSize))
      count (start + blockSize)

/-- A stream that stores bytes. -/
def stream (bytes : ByteArray) : ByteArray :=
  blocks bytes ⟨#[0x78, 0x01]⟩ ((bytes.size - 1) / blockSize) 0 ++ fourBytes (adler bytes)

/-- A chunk of a kind. -/
def chunk (kind : String) (data : ByteArray) : ByteArray :=
  let body := kind.toUTF8 ++ data
  fourBytes (UInt32.ofNat data.size) ++ body ++ fourBytes (crc body)

/-- The bytes with those of a colour at their end. -/
def pushColor (bytes : ByteArray) (color : Rgba) : ByteArray :=
  color.channels.foldl (fun bytes channel => bytes.push (UInt8.ofNat channel.toNat)) bytes

/-- The rows of a canvas, each after a zero byte. -/
def rows (canvas : Canvas) : ByteArray :=
  (List.range canvas.height).foldl
    (fun bytes y =>
      (canvas.pixels.extract (y * canvas.width) ((y + 1) * canvas.width)).foldl pushColor
        (bytes.push 0)) ByteArray.empty

/-- The size of a canvas, eight bits a channel, with colour and transparency. -/
def header (canvas : Canvas) : ByteArray :=
  fourBytes (UInt32.ofNat canvas.width) ++ fourBytes (UInt32.ofNat canvas.height) ++
    ⟨#[8, 6, 0, 0, 0]⟩

/-- The bytes with which every picture starts. -/
def signature : ByteArray := ⟨#[0x89, 0x50, 0x4E, 0x47, 0x0D, 0x0A, 0x1A, 0x0A]⟩

/-- The picture of a canvas. -/
def encode (canvas : Canvas) : ByteArray :=
  signature ++ chunk "IHDR" (header canvas) ++ chunk "IDAT" (stream (rows canvas)) ++
    chunk "IEND" ByteArray.empty

end CanvasScript.Png
