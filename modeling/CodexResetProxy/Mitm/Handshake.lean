import CodexResetProxy.Library.IpAddress
import CodexResetProxy.Library.Session
import CodexResetProxy.Library.Socks5
import CodexResetProxy.Mitm.Interoperation

/-!
The handshake of the SOCKS5 server, for every stream that a client can send.

* `ReadsOneHandshake`: what is promised of a stream and of what the handshake comes to.
* `returns_socks5Handshake`: the bytes for which the handshake returns a target.
* `readsOneHandshake`: the promise is kept, however the stream is cut.
-/

namespace CodexResetProxy

open PyStr ByteStr Duplex Socks5

namespace SocksMitm

variable (idna : Idna.Tables)

/-- The host at an address, in text. -/
def hostText : Address → Option PyStr
  | .ipv4 bytes _ =>
      some (List.intercalate [0x2e] (bytes.map fun part => decodeLatin1 (format 10 part.toNat)))
  | .domain name _ => Idna.decode idna name
  | .ipv6 bytes _ =>
      some (List.intercalate [0x3a]
        ((List.range 8).map fun k => IpAddress.hexText ((bytes.drop (2 * k)).take 2)))

/-- A text that stands for an address: it is parsed to the bytes of the address, or it is
the decoded domain. -/
def Names : Address → PyStr → Prop
  | .ipv4 bytes _, host => IpAddress.parse host = some bytes
  | .domain name _, host => Idna.decode idna name = some host
  | .ipv6 bytes _, host => IpAddress.parse host = some bytes

/-- The bytes of a domain can be decoded. -/
def Decodable : Address → Prop
  | .domain name _ => ∃ host, Idna.decode idna name = some host
  | _ => True

/-- What is promised of a stream, and of what the handshake comes to. -/
structure ReadsOneHandshake (stream : Bytes)
    (r : Result UInt8 HandshakeError (Option SocksTarget)) : Prop where
  accepts : (∃ target, r.outcome = .ok (some target)) ↔
    ∃ o : Opening, Decodable idna o.endpoint.address ∧ o.bytes <+: stream
  reads : ∀ target, r.outcome = .ok (some target) → ∃ o : Opening,
    stream = o.bytes ++ r.rest ∧ Names idna o.endpoint.address target.host ∧
      target.port = o.endpoint.port ∧ r.written = [[0x05, 0x00], succeeded]
  silent : ∀ s, Session.Run ⟨socks5Handshake idna, stream, []⟩ s → succeeded ∈ s.written →
    ∃ target, r.outcome = .ok (some target)

variable {idna} {i j : Bytes} {w : List Bytes} {host : PyStr} {target : SocksTarget}

/-! ### Reading -/

/-- A read, and what goes on after it. -/
lemma returns_readexactly_bind {n : ℕ} {ρ : Type} {f : Bytes → Server ρ} {r : ρ} :
    (readexactly n >>= f).Returns i r j w ↔
      ∃ b k, i = b ++ k ∧ b.length = n ∧ (f b).Returns k r j w :=
  returns_read_bind

/-- The three types of address. -/
lemma returns_readSocksAddress {atyp : UInt8} :
    (readSocksAddress idna atyp).Returns i host j w ↔
      ∃ a : Address, a.atyp = atyp ∧ i = a.bytes ++ j ∧ hostText idna a = some host ∧ w = [] := by
  rw [readSocksAddress]
  constructor
  · intro h
    split_ifs at h with h1 h3 h4
    · obtain ⟨parts, k, rfl, hlength, h⟩ := returns_readexactly_bind.mp h
      obtain ⟨rfl, rfl, rfl⟩ := returns_pure.mp h
      exact ⟨.ipv4 parts hlength, h1.symm, rfl, rfl, rfl⟩
    · obtain ⟨length, k, rfl, hlength, h⟩ := returns_readexactly_bind.mp h
      obtain ⟨n, rfl⟩ := List.length_eq_one_iff.mp hlength
      obtain ⟨domain, k, rfl, hdomain, h⟩ := returns_readexactly_bind.mp h
      have hn : n.toNat < 256 := n.toNat_lt
      have hlength : UInt8.ofNat domain.length = n := by
        rw [hdomain]
        exact UInt8.ofNat_toNat
      split at h
      · exact absurd h not_returns_raised
      · rename_i host' hhost
        obtain ⟨rfl, rfl, rfl⟩ := returns_pure.mp h
        have hle : domain.length ≤ 255 := by
          have : domain.length = n.toNat := hdomain
          omega
        exact ⟨.domain domain hle, h3.symm, by simp [Address.bytes, hlength], hhost, rfl⟩
    · obtain ⟨raw, k, rfl, hlength, h⟩ := returns_readexactly_bind.mp h
      obtain ⟨rfl, rfl, rfl⟩ := returns_pure.mp h
      exact ⟨.ipv6 raw hlength, h4.symm, rfl, rfl, rfl⟩
    · exact absurd h not_returns_raised
  · rintro ⟨a, rfl, rfl, hhost, rfl⟩
    cases a with
    | ipv4 bytes hlength =>
        obtain rfl := Option.some.inj hhost
        rw [Address.atyp, if_pos rfl]
        exact returns_readexactly_bind.mpr
          ⟨bytes, j, rfl, hlength, returns_pure.mpr ⟨rfl, rfl, rfl⟩⟩
    | domain name hlength =>
        have hcount := toNat_ofNat_length hlength
        rw [Address.atyp, if_neg (by decide), if_pos rfl]
        refine returns_readexactly_bind.mpr ⟨[UInt8.ofNat name.length], name ++ j, rfl, rfl, ?_⟩
        refine returns_readexactly_bind.mpr ⟨name, j, rfl, hcount.symm, ?_⟩
        rw [show Idna.decode idna name = some host from hhost]
        exact returns_pure.mpr ⟨rfl, rfl, rfl⟩
    | ipv6 bytes hlength =>
        obtain rfl := Option.some.inj hhost
        rw [Address.atyp, if_neg (by decide), if_neg (by decide), if_pos rfl]
        exact returns_readexactly_bind.mpr
          ⟨bytes, j, rfl, hlength, returns_pure.mpr ⟨rfl, rfl, rfl⟩⟩

/-- The request of a client. -/
lemma returns_readConnect : (readConnect idna).Returns i (some target) j w ↔
    ∃ (reserved : UInt8) (e : Endpoint), i = [0x05, 0x01, reserved] ++ e.bytes ++ j ∧
      hostText idna e.address = some target.host ∧ target.port = e.port ∧ w = [succeeded] := by
  rw [readConnect, returns_readexactly_bind]
  constructor
  · rintro ⟨header, k, rfl, hlength, h⟩
    obtain ⟨version, command, reserved, atyp, rfl⟩ :
        ∃ a b c d, header = [a, b, c, d] := by
      match header, hlength with
      | [a, b, c, d], _ => exact ⟨a, b, c, d, rfl⟩
    -- another version or command is refused with a reply
    split_ifs at h with hversion hcommand
    · obtain ⟨w', hend, -⟩ := returns_write_bind.mp h
      cases (returns_pure.mp hend).1
    · obtain ⟨w', hend, -⟩ := returns_write_bind.mp h
      cases (returns_pure.mp hend).1
    · obtain ⟨host, k, w₁, w₂, haddress, hrest, rfl⟩ := returns_bind.mp h
      obtain ⟨address, hatyp, rfl, hhost, rfl⟩ := returns_readSocksAddress.mp haddress
      obtain ⟨port, k, rfl, hport, hreply⟩ := returns_readexactly_bind.mp hrest
      obtain ⟨w', hend, rfl⟩ := returns_write_bind.mp hreply
      obtain ⟨htarget, rfl, rfl⟩ := returns_pure.mp hend
      obtain rfl := Option.some.inj htarget
      obtain ⟨n, hn, rfl, heq⟩ := exists_portBytes hport
      obtain rfl : version = 0x05 := by simpa using hversion
      obtain rfl : command = 0x01 := by simpa using hcommand
      obtain rfl : address.atyp = atyp := hatyp
      exact ⟨reserved, ⟨address, n, hn⟩, by simp [Endpoint.bytes], hhost, heq.symm, rfl⟩
  · rintro ⟨reserved, ⟨address, port, hport⟩, rfl, hhost, hp, rfl⟩
    refine ⟨[0x05, 0x01, reserved, address.atyp], address.bytes ++ (portBytes port ++ j),
      by simp [Endpoint.bytes], rfl, ?_⟩
    rw [if_neg (by simp), if_neg (by simp)]
    refine returns_bind.mpr ⟨target.host, portBytes port ++ j, [], [succeeded],
      returns_readSocksAddress.mpr ⟨address, rfl, rfl, hhost, rfl⟩, ?_, rfl⟩
    refine returns_readexactly_bind.mpr ⟨portBytes port, j, rfl, rfl, ?_⟩
    refine returns_write_bind.mpr ⟨[], ?_, rfl⟩
    rw [portBytes_value hport]
    obtain ⟨host, n⟩ := target
    obtain rfl : n = port := hp
    exact returns_pure.mpr ⟨rfl, rfl, rfl⟩

/-- **The bytes for which the handshake returns a target.** -/
theorem returns_socks5Handshake : (socks5Handshake idna).Returns i (some target) j w ↔
    ∃ o : Opening, i = o.bytes ++ j ∧ hostText idna o.endpoint.address = some target.host ∧
      target.port = o.endpoint.port ∧ w = [[0x05, 0x00], succeeded] := by
  rw [socks5Handshake, returns_recv_eof]
  constructor
  -- the greeting is read, or the stream ends before it does
  · rintro (⟨greeting, k, rfl, hlength, h⟩ | ⟨-, h⟩)
    · obtain ⟨version, n, rfl⟩ := List.length_eq_two.mp hlength
      split_ifs at h with hversion
      · cases (returns_done.mp h).1
      -- `no authentication` is among the methods, or the reply refuses them
      · obtain ⟨methods, k, rfl, hmethods, h⟩ := returns_readexactly_bind.mp h
        split_ifs at h with hnone
        · obtain ⟨w', hconnect, rfl⟩ := returns_write_bind.mp h
          obtain ⟨reserved, e, rfl, hhost, hport, rfl⟩ := returns_readConnect.mp hconnect
          obtain rfl : version = 0x05 := by simpa using hversion
          have hn : n.toNat < 256 := n.toNat_lt
          have hmethods : methods.length = n.toNat := hmethods
          have hcount : UInt8.ofNat methods.length = n := by rw [hmethods, UInt8.ofNat_toNat]
          refine ⟨⟨methods, hnone, by omega, reserved, e⟩, ?_, hhost, hport, rfl⟩
          simp [Opening.bytes, hcount]
        · obtain ⟨w', hend, -⟩ := returns_write_bind.mp h
          cases (returns_pure.mp hend).1
    · cases (returns_done.mp h).1
  · rintro ⟨⟨methods, hnone, hlength, reserved, e⟩, rfl, hhost, hport, rfl⟩
    have hcount := toNat_ofNat_length hlength
    refine .inl ⟨[0x05, UInt8.ofNat methods.length],
      methods ++ ([0x05, 0x01, reserved] ++ e.bytes ++ j), by simp [Opening.bytes], rfl, ?_⟩
    rw [if_neg (by simp)]
    refine returns_readexactly_bind.mpr ⟨methods, _, rfl, hcount.symm, ?_⟩
    rw [if_neg (not_not.mpr hnone)]
    exact returns_write_bind.mpr
      ⟨[succeeded], returns_readConnect.mpr ⟨reserved, e, rfl, hhost, hport, rfl⟩, rfl⟩

/-! ### The text of an address -/

/-- The groups of two bytes. -/
lemma pairs_eq {b : Bytes} (n : ℕ) (hb : b.length = 2 * n) :
    ∃ groups : List (UInt8 × UInt8), groups.length = n ∧
      b = groups.flatMap (fun g => [g.1, g.2]) ∧
      ((List.range n).map fun k => (b.drop (2 * k)).take 2) = groups.map fun g => [g.1, g.2] := by
  induction n generalizing b with
  | zero => exact ⟨[], rfl, List.length_eq_zero_iff.mp hb, rfl⟩
  | succ n ih =>
      match b, hb with
      | x :: y :: b, hb =>
          have hrest : b.length = 2 * n := by
            rw [List.length_cons, List.length_cons] at hb
            omega
          obtain ⟨groups, rfl, hflat, hgroups⟩ := ih hrest
          refine ⟨(x, y) :: groups, rfl, by simp [← hflat], ?_⟩
          rw [List.range_succ_eq_map, List.map_cons, List.map_map, List.map_cons, ← hgroups]
          rfl

/-- **The text of an address** stands for it. -/
theorem names_hostText {a : Address} (h : hostText idna a = some host) : Names idna a host := by
  cases a with
  | ipv4 bytes hlength =>
      obtain rfl := Option.some.inj h
      exact IpAddress.parse_decimal hlength
  | domain name _ => exact h
  | ipv6 bytes hlength =>
      obtain rfl := Option.some.inj h
      obtain ⟨groups, hgroups, hflat, hpairs⟩ := pairs_eq 8 hlength
      have htext : ((List.range 8).map fun k => IpAddress.hexText ((bytes.drop (2 * k)).take 2))
          = groups.map fun g => IpAddress.hexText [g.1, g.2] := by
        have hmap := congrArg (List.map IpAddress.hexText) hpairs
        rw [List.map_map, List.map_map] at hmap
        exact hmap
      rw [Names, htext, IpAddress.parse_hextets hgroups, hflat]

lemma decodable_iff {a : Address} : Decodable idna a ↔ ∃ host, hostText idna a = some host := by
  cases a with
  | ipv4 bytes _ => exact ⟨fun _ => ⟨_, rfl⟩, fun _ => trivial⟩
  | domain name _ => rfl
  | ipv6 bytes _ => exact ⟨fun _ => ⟨_, rfl⟩, fun _ => trivial⟩

/-! ### The reply of success -/

/-- Reading an address writes nothing. -/
lemma writesLast_readSocksAddress {atyp : UInt8} :
    (readSocksAddress idna atyp).WritesLast succeeded fun _ => False := by
  rw [readSocksAddress]
  split_ifs
  · exact ⟨trivial, fun _ => trivial⟩
  · refine ⟨trivial, fun length => ⟨trivial, fun domain => ?_⟩⟩
    change Proc.WritesLast _ _ (Proc.done domain >>= _)
    rw [Proc.done_bind]
    split <;> trivial
  · exact ⟨trivial, fun _ => trivial⟩
  · trivial

lemma writesLast_readConnect :
    (readConnect idna).WritesLast succeeded fun target => ∃ t, target = some t := by
  refine ⟨trivial, fun header => ?_⟩
  dsimp only
  change Proc.WritesLast _ _ (if _ then _ else _)
  split_ifs
  · exact ⟨trivial, fun h => absurd h (by decide)⟩
  · exact ⟨trivial, fun h => absurd h (by decide)⟩
  · refine writesLast_bind writesLast_readSocksAddress fun host => ⟨trivial, fun port => ?_⟩
    exact ⟨trivial, fun _ => ⟨_, rfl, _, rfl⟩⟩

/-- The reply of success is the last thing that is written. -/
lemma writesLast_socks5Handshake :
    (socks5Handshake idna).WritesLast succeeded fun target => ∃ t, target = some t := by
  refine ⟨trivial, fun greeting => ?_⟩
  dsimp only
  split_ifs
  · trivial
  · refine ⟨trivial, fun methods => ?_⟩
    change Proc.WritesLast _ _ (if _ then _ else _)
    split_ifs
    · exact ⟨writesLast_readConnect, fun h => absurd h (by decide)⟩
    · exact ⟨trivial, fun h => absurd h (by decide)⟩

/-! ### The promise -/

variable (idna) in
/-- **The server reads exactly one handshake**, for every stream and however it is cut. -/
theorem readsOneHandshake (stream : Bytes) :
    ∃ r, Yields (socks5Handshake idna) stream r ∧ ReadsOneHandshake idna stream r := by
  refine ⟨_, yields_eval _ _, ?_⟩
  have hreturns : ∀ target, ((socks5Handshake idna).eval stream).outcome = .ok (some target) →
      (socks5Handshake idna).Returns stream (some target) ((socks5Handshake idna).eval stream).rest
        ((socks5Handshake idna).eval stream).written := by
    intro target houtcome
    rw [Proc.Returns, ← houtcome]
  constructor
  case accepts =>
    constructor
    · rintro ⟨target, houtcome⟩
      obtain ⟨o, hstream, hhost, -, -⟩ := returns_socks5Handshake.mp (hreturns target houtcome)
      exact ⟨o, decodable_iff.mpr ⟨_, hhost⟩, ⟨_, hstream.symm⟩⟩
    · rintro ⟨o, hdecodable, rest, rfl⟩
      obtain ⟨host, hhost⟩ := decodable_iff.mp hdecodable
      have h : (socks5Handshake idna).Returns (o.bytes ++ rest) (some ⟨host, o.endpoint.port⟩) rest
          [[0x05, 0x00], succeeded] := returns_socks5Handshake.mpr ⟨o, rfl, hhost, rfl, rfl⟩
      rw [h]
      exact ⟨_, rfl⟩
  case reads =>
    intro target houtcome
    obtain ⟨o, hstream, hhost, hport, hwritten⟩ :=
      returns_socks5Handshake.mp (hreturns target houtcome)
    exact ⟨o, hstream, names_hostText hhost, hport, hwritten⟩
  case silent =>
    intro s hrun hwritten
    obtain ⟨_, houtcome, target, rfl⟩ :=
      hrun.ok_of_writesLast writesLast_socks5Handshake hwritten
    exact ⟨target, houtcome⟩

end SocksMitm

end CodexResetProxy
