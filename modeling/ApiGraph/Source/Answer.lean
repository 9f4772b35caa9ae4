import ApiGraph.Deflate
import ApiGraph.Source.ContentType
import ApiGraph.Text.Charset
import ApiGraph.Text.Words

/-! What an address answers: a status, headers, and bytes that may be packed and encode a text. The
headers tell how. -/

namespace ApiGraph

/-- What an address replies. -/
structure Reply where
  status : Int
  headers : List (String × String)
  body : List UInt8

/-- A reply, or why there is none. -/
inductive Answer where
  | reply (r : Reply)
  | refused (reason : String)

namespace Reply

open Text

/-- Whether the status tells that all went well. -/
def isSuccess (r : Reply) : Bool := 200 ≤ r.status && r.status ≤ 299

/-- Whether the headers are written in the characters that headers allow. -/
def hasPlainHeaders (r : Reply) : Bool :=
  r.headers.all fun p => (p.1.toList ++ p.2.toList).all fun c => c.toNat < 128

/-- The values of a header. Its name may be in any case. -/
def values (r : Reply) (name : String) : List String :=
  (r.headers.filter fun p => p.1.toList.map Char.toLower == name.toList).map Prod.snd

/-- The value of a header; of several the values stand in a row. -/
def header (r : Reply) (name : String) : String := String.intercalate ", " (r.values name)

/-- The encoding of the text. A name that is not known is as good as none. -/
def charset (r : Reply) : Except Misuse Charset := do
  let name ← ContentType.charset? (r.header "content-type")
  return (name.bind Charset.ofName?).getD (.mixed false)

/-- The text that bytes of the content encode. -/
def textOf (r : Reply) (bytes : List UInt8) : Except Misuse String := do
  (← r.charset).decode bytes

/-- The ways in which the content was packed, in order. Those that are not known are passed
over. -/
def packings (r : Reply) : List (List UInt8 → Except Deflate.Flaw (List UInt8)) :=
  let names := (r.values "content-encoding").flatMap fun v => split ',' v.toList
  names.filterMap fun name =>
    match String.ofList ((trim name).map Char.toLower) with
    | "gzip" => some Deflate.unpackFile
    | "deflate" => some Deflate.unpack
    | _ => none

/-- The content, unpacked the other way round. -/
def content (r : Reply) : Except Deflate.Flaw (List UInt8) :=
  r.packings.reverse.foldlM (fun bytes unpack => unpack bytes) r.body

end Reply

end ApiGraph
