import CodexResetProxy.Library.Duplex
import CodexResetProxy.Library.Idna
import CodexResetProxy.Settings

/-!
The client of a SOCKS5 proxy (`outbound._socks5_handshake` and what it calls), as a
program over the streams of its socket.

The tables of `idna` and `urllib.parse.unquote` are parameters.
-/

namespace CodexResetProxy

open PyStr ByteStr Duplex

namespace Outbound

/-- `SocksConnectError`, with its text, and what else the client can raise. -/
inductive SocksError where
  | connect (text : String)
  | value
  | unicode
  | overflow

/-- A program of the client. -/
abbrev Client := Proc UInt8 SocksError

/-- Raises a `SocksConnectError`. -/
def refuse {ρ : Type} (text : String) : Client ρ := .raised (.connect text)

/-- Goes on if a condition holds. -/
def require (p : Prop) [Decidable p] (text : String) : Client Unit :=
  if p then .done () else refuse text

/-- `sock.sendall`. -/
def sendall (bytes : Bytes) : Client Unit := .send bytes (.done ())

/-- `_recv_exact`. -/
def recvExact (size : ℕ) : Client Bytes :=
  .recv size (refuse "SOCKS5 proxy closed the connection") .done

/-- `str.encode("utf-8")`. -/
def utf8 (s : PyStr) : Client Bytes :=
  match encodeUtf8 s with
  | none => .raised .unicode
  | some b => .done b.data.toList

/-- `_socks5_username_password_auth`. -/
def socks5UsernamePasswordAuth (username password : PyStr) : Client Unit := do
  let usernameBytes ← utf8 username
  let passwordBytes ← utf8 password
  require (usernameBytes.length ≤ 255 ∧ passwordBytes.length ≤ 255)
    "SOCKS5 username/password is too long"
  sendall [0x01, UInt8.ofNat usernameBytes.length]
  sendall usernameBytes
  sendall [UInt8.ofNat passwordBytes.length]
  sendall passwordBytes
  let response ← recvExact 2
  require (response = [0x01, 0x00]) "SOCKS5 username/password authentication failed"

/-- What the client does with a method that the server has selected. -/
def authenticate (method : UInt8) (username password : PyStr) : Client Unit :=
  if method = 0xff then refuse "SOCKS5 proxy rejected authentication methods"
  else if method = 0x02 then socks5UsernamePasswordAuth username password
  else
    require (method = 0x00)
      ("unsupported SOCKS5 authentication method: " ++ toString method.toNat)

/-- The answer of the server to the greeting. -/
def selectMethod (username password : PyStr) : Client Unit := do
  let selected ← recvExact 2
  require (selected.getD 0 0 = 0x05) "invalid SOCKS5 greeting response"
  authenticate (selected.getD 1 0) username password

/-- The address and the port that the server is bound to. -/
def recvBoundAddress (atyp : UInt8) : Client Unit := do
  if atyp = 0x01 then
    let _ ← recvExact 4
  else if atyp = 0x03 then
    let length ← recvExact 1
    let _ ← recvExact (length.getD 0 0).toNat
  else if atyp = 0x04 then
    let _ ← recvExact 16
  else refuse "invalid SOCKS5 bound address type"
  let _ ← recvExact 2

/-- The answer of the server to the request. -/
def recvReply : Client Unit := do
  let header ← recvExact 4
  require (header.getD 0 0 = 0x05) "invalid SOCKS5 connect response"
  require (header.getD 1 0 = 0x00)
    ("SOCKS5 connect failed with code " ++ toString (header.getD 1 0).toNat)
  recvBoundAddress (header.getD 3 0)

/-- The methods that the client offers. -/
def offeredMethods (username password : PyStr) : Bytes :=
  if username ≠ [] ∨ password ≠ [] then [0x00, 0x02] else [0x00]

/-- The `CONNECT` request, for a host in bytes and a port. -/
def connectRequest (hostBytes : Bytes) (destPort : ℕ) : Bytes :=
  [0x05, 0x01, 0x00, 0x03, UInt8.ofNat hostBytes.length] ++ hostBytes ++
    [UInt8.ofNat (destPort / 256), UInt8.ofNat (destPort % 256)]

/-- The `CONNECT` request and its reply. -/
def connect (idna : Idna.Tables) (destHost : PyStr) (destPort : ℕ) : Client Unit :=
  match Idna.encode idna destHost with
  | none => .raised .unicode
  | some hostBytes => do
      require (hostBytes.length ≤ 255) "destination host is too long for SOCKS5"
      if 65535 < destPort then .raised .overflow
      else
        sendall (connectRequest hostBytes destPort)
        recvReply

/-- `_socks5_handshake` of the client. -/
def socks5Handshake (rt : Runtime) (idna : Idna.Tables) (unquote : PyStr → PyStr)
    (proxyUrl destHost : PyStr) (destPort : ℕ) : Client Unit :=
  match rt.urlsplit proxyUrl with
  | none => .raised .value
  | some proxy => do
      let username := unquote (proxy.userinfo.1.getD [])
      let password := unquote (proxy.userinfo.2.getD [])
      let methods := offeredMethods username password
      sendall (0x05 :: UInt8.ofNat methods.length :: methods)
      selectMethod username password
      connect idna destHost destPort

/-! ### Where to connect to -/

/-- The check of `open_socks5_socket`: the address of the proxy. -/
def proxyAddress (rt : Runtime) (proxyUrl : PyStr) : Except SocksError (PyStr × ℕ) :=
  let refused : SocksError := .connect "OUTBOUND_PROXY must be socks5://host:port"
  match rt.urlsplit proxyUrl with
  | none => .error .value
  | some proxy =>
      if proxy.scheme ∉ [py "socks5", py "socks5h"] then .error refused
      else
        match proxy.hostname rt.lower with
        | none => .error refused
        | some host =>
            match proxy.port with
            | none => .error .value
            | some none => .error refused
            | some (some port) => if port = 0 then .error refused else .ok (host, port)

/-- The proxy of `open_outbound_stream`, if it is set. -/
def proxy? (cfg : Config) : Option PyStr := cfg.settings.outboundProxy.filter (· ≠ [])

/-- The address that `open_outbound_stream` connects to. -/
def dialAddress (cfg : Config) (host : PyStr) (port : ℕ) : Except SocksError (PyStr × ℕ) :=
  match proxy? cfg with
  | none => .ok (host, port)
  | some proxyUrl => proxyAddress cfg.runtime proxyUrl

end Outbound

end CodexResetProxy
