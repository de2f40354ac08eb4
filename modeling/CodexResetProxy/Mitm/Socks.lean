import CodexResetProxy.Library.Duplex
import CodexResetProxy.Library.Idna
import CodexResetProxy.Library.IpAddress

/-!
The SOCKS5 server (`socks_mitm._socks5_handshake` and what it calls), as a program over
the streams of its client.
-/

namespace CodexResetProxy

open PyStr ByteStr Duplex

/-- `SocksTarget`. -/
structure SocksTarget where
  host : PyStr
  port : ℕ
  deriving DecidableEq

namespace SocksMitm

/-- What the handshake can raise: `IncompleteReadError`, `ValueError` with its text, and
`UnicodeError`. -/
inductive HandshakeError where
  | incomplete
  | value (text : String)
  | unicode

/-- A program of the server. -/
abbrev Server := Proc UInt8 HandshakeError

/-- `writer.write` and `writer.drain`. -/
def write (bytes : Bytes) : Server Unit := .send bytes (.done ())

/-- `reader.readexactly`. -/
def readexactly (n : ℕ) : Server Bytes := .recv n (.raised .incomplete) .done

/-- `_read_socks_address`. -/
def readSocksAddress (idna : Idna.Tables) (atyp : UInt8) : Server PyStr :=
  if atyp = 0x01 then do
    let parts ← readexactly 4
    return List.intercalate [0x2e] (parts.map fun part => decodeLatin1 (format 10 part.toNat))
  else if atyp = 0x03 then do
    let length ← readexactly 1
    let domain ← readexactly (length.getD 0 0).toNat
    match Idna.decode idna domain with
    | none => .raised .unicode
    | some host => return host
  else if atyp = 0x04 then do
    let raw ← readexactly 16
    return List.intercalate [0x3a]
      ((List.range 8).map fun k => IpAddress.hexText ((raw.drop (2 * k)).take 2))
  else .raised (.value ("unsupported SOCKS5 address type: " ++ toString atyp.toNat))

/-- `_send_socks_reply`. -/
def sendSocksReply (code : UInt8) : Server Unit :=
  write [0x05, code, 0x00, 0x01, 0, 0, 0, 0, 0, 0]

/-- The `CONNECT` request of a client. -/
def readConnect (idna : Idna.Tables) : Server (Option SocksTarget) := do
  let header ← readexactly 4
  if header.getD 0 0 ≠ 0x05 then
    sendSocksReply 0x01
    return none
  else if header.getD 1 0 ≠ 0x01 then
    sendSocksReply 0x07
    return none
  else
    let host ← readSocksAddress idna (header.getD 3 0)
    let port ← readexactly 2
    sendSocksReply 0x00
    return some ⟨host, (port.getD 0 0).toNat * 256 + (port.getD 1 0).toNat⟩

/-- `_socks5_handshake` of the server. -/
def socks5Handshake (idna : Idna.Tables) : Server (Option SocksTarget) :=
  .recv 2 (.done none) fun greeting =>
    if greeting.getD 0 0 ≠ 0x05 then .done none
    else do
      let methods ← readexactly (greeting.getD 1 0).toNat
      if 0x00 ∉ methods then
        write [0x05, 0xff]
        return none
      else
        write [0x05, 0x00]
        readConnect idna

end SocksMitm

end CodexResetProxy
