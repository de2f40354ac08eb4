import Mathlib.Data.List.Basic
import CodexResetProxy.Library.ByteStr

/-!
The messages of SOCKS5, as far as a `CONNECT` without or with a password needs them.

* `Address`, `Endpoint`: an address of one of the three types, and a port behind it.
* `Opening`: what a client without a password sends to a server.
* `Answer`: what a server sends to a client, for the methods that the client offers.
-/

namespace Socks5

open ByteStr

/-- An address: of IPv4, a domain, or of IPv6. -/
inductive Address where
  | ipv4 (bytes : Bytes) (length : bytes.length = 4)
  | domain (name : Bytes) (length : name.length ≤ 255)
  | ipv6 (bytes : Bytes) (length : bytes.length = 16)

namespace Address

/-- The type of an address. -/
def atyp : Address → UInt8
  | ipv4 .. => 0x01
  | domain .. => 0x03
  | ipv6 .. => 0x04

/-- An address behind its type. -/
def bytes : Address → Bytes
  | ipv4 bytes _ => bytes
  | domain name _ => UInt8.ofNat name.length :: name
  | ipv6 bytes _ => bytes

end Address

/-- An address and a port. -/
structure Endpoint where
  address : Address
  port : ℕ
  port_lt : port < 0x10000

/-- A port, the high byte first. -/
def portBytes (port : ℕ) : Bytes := [UInt8.ofNat (port / 256), UInt8.ofNat (port % 256)]

/-- An endpoint, with the type of its address. -/
def Endpoint.bytes (e : Endpoint) : Bytes := e.address.atyp :: e.address.bytes ++ portBytes e.port

/-- A greeting whose methods have the one without authentication, and a request to
connect to an endpoint. The third byte of the request is reserved. -/
structure Opening where
  methods : Bytes
  noAuth : 0x00 ∈ methods
  length : methods.length ≤ 255
  reserved : UInt8
  endpoint : Endpoint

/-- The bytes of an opening. -/
def Opening.bytes (o : Opening) : Bytes :=
  0x05 :: UInt8.ofNat o.methods.length :: o.methods ++
    ([0x05, 0x01, o.reserved] ++ o.endpoint.bytes)

/-- What a server answers: the method that it selects out of those offered, the success of
the authentication if there is one, and the success of the request. -/
structure Answer (offered : Bytes) where
  method : UInt8
  method_mem : method ∈ offered
  reserved : UInt8
  endpoint : Endpoint

/-- What a server sends of the request's success. -/
def replyBytes (reserved : UInt8) (e : Endpoint) : Bytes := [0x05, 0x00, reserved] ++ e.bytes

/-- The bytes of an answer. -/
def Answer.bytes {offered : Bytes} (a : Answer offered) : Bytes :=
  [0x05, a.method] ++ (if a.method = 0x02 then [0x01, 0x00] else []) ++
    replyBytes a.reserved a.endpoint

/-- An answer to other methods that have the one selected. -/
def Answer.to {offered : Bytes} (a : Answer offered) {offered' : Bytes}
    (h : a.method ∈ offered') : Answer offered' :=
  { a with method_mem := h }

@[simp] lemma Answer.to_bytes {offered offered' : Bytes} (a : Answer offered)
    (h : a.method ∈ offered') : (a.to h).bytes = a.bytes := rfl

/-! ### Numbers in bytes -/

lemma toNat_ofNat_length {b : Bytes} (h : b.length ≤ 255) :
    (UInt8.ofNat b.length).toNat = b.length :=
  Nat.mod_eq_of_lt (by omega)

/-- Two bytes are a port. -/
lemma portBytes_eq (a b : UInt8) : portBytes (a.toNat * 256 + b.toNat) = [a, b] := by
  have hb : b.toNat < 256 := b.toNat_lt
  have hhigh : (a.toNat * 256 + b.toNat) / 256 = a.toNat := by omega
  have hlow : (a.toNat * 256 + b.toNat) % 256 = b.toNat := by omega
  rw [portBytes, hhigh, hlow, UInt8.ofNat_toNat, UInt8.ofNat_toNat]

/-- The port that two bytes are. -/
lemma portBytes_value {port : ℕ} (hport : port < 0x10000) :
    ((portBytes port).getD 0 0).toNat * 256 + ((portBytes port).getD 1 0).toNat = port := by
  have hhigh : (UInt8.ofNat (port / 256)).toNat = port / 256 := Nat.mod_eq_of_lt (by omega)
  have hlow : (UInt8.ofNat (port % 256)).toNat = port % 256 := Nat.mod_eq_of_lt (by omega)
  change (UInt8.ofNat (port / 256)).toNat * 256 + (UInt8.ofNat (port % 256)).toNat = port
  omega

lemma exists_portBytes {b : Bytes} (hb : b.length = 2) :
    ∃ port, port < 0x10000 ∧ b = portBytes port ∧
      port = (b.getD 0 0).toNat * 256 + (b.getD 1 0).toNat := by
  obtain ⟨x, y, rfl⟩ := List.length_eq_two.mp hb
  have hx : x.toNat < 256 := x.toNat_lt
  have hy : y.toNat < 256 := y.toNat_lt
  exact ⟨_, by omega, (portBytes_eq x y).symm, rfl⟩

end Socks5
