import FrameExport.Files.Path
import FrameExport.Json.Reader
import FrameExport.Text.Utf8

/-!
# Addresses of requests

The address of a request names a place on the gateway.  `Address.path` is that name: the address
without scheme and host, up to a question mark or number sign, with the segments of one and two
points resolved, and with the escapes of a percent sign and two hexadecimal digits replaced by the
characters whose UTF-8 bytes they are.  Escapes are undone by the one who sends the request and
again by the one who takes it.
-/

namespace FrameExport.Address

/-! ### Escapes -/

/-- The byte that the two characters after a percent sign denote. -/
def escapedByte? (a b : Char) : Option UInt8 := do
  return (← Json.hexValue? a).toUInt8 * 16 + (← Json.hexValue? b).toUInt8

/-- A text with its escapes undone, behind the bytes in `run` (in reverse) of the escapes just in
front of it. -/
def unescapeAfter (run : List UInt8) : List Char → List Char
  | '%' :: a :: b :: rest =>
    match escapedByte? a b with
    | some byte => unescapeAfter (byte :: run) rest
    | none => Text.Utf8.decode run.reverse ++ '%' :: unescapeAfter [] (a :: b :: rest)
  | c :: rest => Text.Utf8.decode run.reverse ++ c :: unescapeAfter [] rest
  | [] => Text.Utf8.decode run.reverse

/-- A text with its escapes undone. -/
def unescape (cs : List Char) : List Char := unescapeAfter [] cs

/-! ### Segments -/

/-- The segments of a path when those of one point are left out and those of two points take the one
in front of them away, behind the segments in `acc` (in reverse).  The empty segment in front of the
first slash stays. -/
def resolveAfter (acc : List (List Char)) : List (List Char) → List (List Char)
  | [] => acc.reverse
  | ['.'] :: rest => resolveAfter acc rest
  | ['.', '.'] :: rest => resolveAfter (if acc = [[]] then acc else acc.tail) rest
  | segment :: rest => resolveAfter (segment :: acc) rest

/-- A path with its segments of one and two points resolved. -/
def resolve (cs : List Char) : List Char :=
  ['/'].intercalate (resolveAfter [] (Path.splitAtSlashes cs))

/-! ### Paths -/

/-- Whether a character may stand in the name of a scheme. -/
def isSchemeChar (c : Char) : Bool := c.isAlphanum || c == '+' || c == '-' || c == '.'

/-- An address without its scheme, which a colon ends. -/
def withoutScheme (cs : List Char) : List Char :=
  match cs.dropWhile isSchemeChar with
  | ':' :: rest => if cs.head?.all fun c => c.isAlpha || c == ':' then rest else cs
  | _ => cs

/-- An address without its host, which two slashes begin. -/
def withoutHost : List Char → List Char
  | '/' :: '/' :: rest => rest.dropWhile (· != '/')
  | cs => cs

/-- The path that an address names. -/
def path (address : String) : List Char :=
  let written := address.toList.takeWhile fun c => c != '?' && c != '#'
  let place := withoutHost (withoutScheme written)
  unescape (unescape (resolve ('/' :: place.dropWhile (· == '/'))))

/-- Whether a request can be sent to an address: control characters must be escaped in it. -/
def isSendable (address : String) : Bool :=
  address.toList.all fun c => 0x20 ≤ c.toNat && c.toNat != 0x7F

end FrameExport.Address
