import ShadowExtras.Foundation.Bytes

/-!
# Definitions shared by the file server and the file getter

The constants and message formats of `filetransfer-defs.h`, and files opened for reading with the
part of `stdio` that the server uses: `fread`, `ftell` and `feof`.
-/

namespace ShadowExtras.FileTransfer

open Foundation

/-- `FT_STR_SIZE` -/
def strSize : Nat := 256

/-- `FT_BUF_SIZE` -/
def bufSize : Nat := 51200

/-- `FT_HTTP_200` -/
def http200 : Bytes := ascii "HTTP/1.1 200 OK\r\n"

/-- `FT_HTTP_404` -/
def http404 : Bytes := ascii "HTTP/1.1 404 NOT FOUND\r\n"

/-- `FT_2CRLF` -/
def twoCrlf : Bytes := ascii "\r\n\r\n"

/-- `FT_CONTENT` -/
def contentText : Bytes := ascii "Content-Length: "

/-- `FT_SOCKS_INIT` -/
def socksInit : Bytes := [5, 1, 0]

/-- The event that a socket is watched for. -/
inductive EpollEvent
  | input
  | output
  deriving DecidableEq, Repr

/-- The header that `FT_HTTP_200_FMT` prints for a file of `length` bytes. -/
def http200Header (length : Nat) : Bytes :=
  http200 ++ contentText ++ decimal length ++ twoCrlf

/-- The reply for a file: the header and the content. -/
def http200Reply (content : Bytes) : Bytes := http200Header content.length ++ content

/-- The length of the reply. -/
theorem length_http200Reply (content : Bytes) :
    (http200Reply content).length = (http200Header content.length).length + content.length := by
  simp [http200Reply]

/-- A `FILE*` opened for reading: its content, its position and its end-of-file indicator. -/
structure OpenFile where
  content : Bytes
  pos : Nat
  eof : Bool
  deriving DecidableEq, Repr

/-- `fopen(path, "r")` of a file with this content. -/
def OpenFile.open (content : Bytes) : OpenFile := { content := content, pos := 0, eof := false }

/-- The bytes that are still to be read. -/
def OpenFile.rest (f : OpenFile) : Bytes := f.content.drop f.pos

/-- `fread(buf, 1, n, f)`: up to `n` bytes; the end-of-file indicator is set when there are
fewer. -/
def OpenFile.read (f : OpenFile) (n : Nat) : Bytes × OpenFile :=
  let bytes := f.rest.take n
  (bytes, { f with pos := f.pos + bytes.length, eof := f.eof || decide (bytes.length < n) })

/-- Reading splits what is still to be read. -/
theorem OpenFile.read_append_rest (f : OpenFile) (n : Nat) :
    (f.read n).1 ++ (f.read n).2.rest = f.rest := by
  have hrest : (f.read n).2.rest = f.rest.drop n := by
    simp only [OpenFile.read, OpenFile.rest, List.length_take, List.length_drop, List.drop_drop]
    by_cases hn : n ≤ f.content.length - f.pos
    · rw [Nat.min_eq_left hn]
    · have hall : f.content.length - f.pos ≤ n := by omega
      rw [Nat.min_eq_right hall, List.drop_of_length_le (by omega),
        List.drop_of_length_le (by omega)]
  rw [hrest]
  exact List.take_append_drop n f.rest

end ShadowExtras.FileTransfer
