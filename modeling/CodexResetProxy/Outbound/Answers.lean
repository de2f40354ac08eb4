import CodexResetProxy.Library.Session
import CodexResetProxy.Library.Socks5
import CodexResetProxy.Mitm.Interoperation

/-!
The handshake of the SOCKS5 client, for every stream that a proxy can answer with.

* `AcceptsExactly`: what is promised of a stream and of what the handshake comes to.
* `returns_socks5Handshake`: the bytes for which the handshake returns. The method with a
  password is among them whether it was offered or not.
* `acceptsExactly_iff`: when the promise is kept.
-/

namespace CodexResetProxy

open PyStr ByteStr Duplex Socks5

namespace Outbound

/-- What is promised of a stream, and of what the handshake comes to: the methods are
offered, and the answers to them are accepted, without a byte more. -/
structure AcceptsExactly (offered stream : Bytes) (r : Result UInt8 SocksError Unit) : Prop where
  offers : r.written.head? = some (0x05 :: UInt8.ofNat offered.length :: offered)
  accepts : r.outcome = .ok () ↔ ∃ a : Answer offered, a.bytes <+: stream
  consumes : r.outcome = .ok () → ∃ a : Answer offered, stream = a.bytes ++ r.rest

/-- A name or a password that fits into a request. -/
def Sendable (s : PyStr) : Prop := ∃ b, encodeUtf8 s = some b ∧ b.size ≤ 255

variable {i j : Bytes} {ρ : Type} {r : ρ} {username password : PyStr}

/-! ### Reading -/

lemma reads_recvExact_bind {n : ℕ} {f : Bytes → Client ρ} :
    (recvExact n >>= f).Reads i r j ↔
      ∃ b k, i = b ++ k ∧ b.length = n ∧ (f b).Reads k r j :=
  reads_read_bind

lemma reads_require_bind {p : Prop} [Decidable p] {text : String} {f : Unit → Client ρ} :
    (require p text >>= f).Reads i r j ↔ p ∧ (f ()).Reads i r j := by
  by_cases hp : p
  · rw [require, if_pos hp, Proc.done_bind, and_iff_right hp]
  · rw [require, if_neg hp, refuse, Proc.raised_bind]
    exact iff_of_false not_reads_raised fun h => hp h.1

lemma reads_require {p : Prop} [Decidable p] {text : String} :
    (require p text).Reads i () j ↔ p ∧ j = i := by
  by_cases hp : p
  · rw [require, if_pos hp, reads_done, and_iff_right hp, and_iff_right rfl]
  · rw [require, if_neg hp, refuse]
    exact iff_of_false not_reads_raised fun h => hp h.1

/-- A name or a password that is encoded. -/
lemma utf8_of_sendable (h : Sendable username) :
    ∃ b : Bytes, utf8 username = .done b ∧ b.length ≤ 255 := by
  obtain ⟨b, hb, hsize⟩ := h
  refine ⟨b.data.toList, ?_, by simpa using hsize⟩
  rw [utf8, hb]

lemma reads_socks5UsernamePasswordAuth (huser : Sendable username) (hpassword : Sendable password) :
    (socks5UsernamePasswordAuth username password).Reads i () j ↔ i = [0x01, 0x00] ++ j := by
  obtain ⟨user, hu, hul⟩ := utf8_of_sendable huser
  obtain ⟨pass, hp, hpl⟩ := utf8_of_sendable hpassword
  rw [socks5UsernamePasswordAuth, hu, hp, Proc.done_bind, Proc.done_bind, reads_require_bind,
    and_iff_right ⟨hul, hpl⟩]
  simp only [sendall, reads_write_bind, reads_recvExact_bind, reads_require]
  constructor
  · rintro ⟨b, k, rfl, -, rfl, rfl⟩
    rfl
  · rintro rfl
    exact ⟨[0x01, 0x00], j, rfl, rfl, rfl, rfl⟩

/-- What comes after a method: the success of an authentication, if there is one. -/
lemma reads_authenticate (huser : Sendable username) (hpassword : Sendable password)
    {method : UInt8} : (authenticate method username password).Reads i () j ↔
      (method = 0x00 ∨ method = 0x02) ∧
        i = (if method = 0x02 then [0x01, 0x00] else []) ++ j := by
  rw [authenticate]
  by_cases hff : method = 0xff
  · subst hff
    rw [if_pos rfl, refuse]
    exact iff_of_false not_reads_raised (by simp)
  rw [if_neg hff]
  by_cases h2 : method = 0x02
  · subst h2
    rw [if_pos rfl, reads_socks5UsernamePasswordAuth huser hpassword]
    simp
  · rw [if_neg h2, reads_require, if_neg h2, or_iff_left h2, List.nil_append, eq_comm (a := j)]

lemma reads_selectMethod (huser : Sendable username) (hpassword : Sendable password) :
    (selectMethod username password).Reads i () j ↔
      ∃ method, (method = 0x00 ∨ method = 0x02) ∧
        i = [0x05, method] ++ (if method = 0x02 then [0x01, 0x00] else []) ++ j := by
  simp only [selectMethod, reads_recvExact_bind, reads_require_bind,
    reads_authenticate huser hpassword]
  constructor
  · rintro ⟨b, k, rfl, hlength, hversion, hmethod, rfl⟩
    obtain ⟨version, method, rfl⟩ := List.length_eq_two.mp hlength
    obtain rfl : version = 0x05 := hversion
    exact ⟨method, hmethod, by simp⟩
  · rintro ⟨method, hmethod, rfl⟩
    exact ⟨[0x05, method], _, by simp, rfl, rfl, hmethod, rfl⟩

/-- The port at the end of a reply. -/
lemma reads_port : (recvExact 2 >>= fun _ => pure ()).Reads i () j ↔
    ∃ port < 0x10000, i = portBytes port ++ j := by
  rw [reads_recvExact_bind]
  constructor
  · rintro ⟨b, k, rfl, hlength, h⟩
    obtain ⟨-, rfl⟩ := reads_done.mp h
    obtain ⟨port, hport, rfl, -⟩ := exists_portBytes hlength
    exact ⟨port, hport, rfl⟩
  · rintro ⟨port, -, rfl⟩
    exact ⟨portBytes port, j, rfl, rfl, reads_done.mpr ⟨rfl, rfl⟩⟩

/-- The rest of a reply, behind the type of its address. -/
lemma reads_recvBoundAddress {atyp : UInt8} : (recvBoundAddress atyp).Reads i () j ↔
    ∃ e : Endpoint, e.address.atyp = atyp ∧ i = e.address.bytes ++ (portBytes e.port ++ j) := by
  rw [recvBoundAddress]
  constructor
  · intro h
    split_ifs at h with h1 h3 h4
    · obtain ⟨b, k, rfl, hlength, h⟩ := reads_recvExact_bind.mp h
      obtain ⟨port, hport, rfl⟩ := reads_port.mp h
      exact ⟨⟨.ipv4 b hlength, port, hport⟩, h1.symm, rfl⟩
    · obtain ⟨length, k, rfl, hlength, h⟩ := reads_recvExact_bind.mp h
      obtain ⟨n, rfl⟩ := List.length_eq_one_iff.mp hlength
      obtain ⟨name, k, rfl, hname, h⟩ := reads_recvExact_bind.mp h
      obtain ⟨port, hport, rfl⟩ := reads_port.mp h
      have hname : name.length = n.toNat := hname
      have hn : n.toNat < 256 := n.toNat_lt
      have hcount : UInt8.ofNat name.length = n := by rw [hname, UInt8.ofNat_toNat]
      exact ⟨⟨.domain name (by omega), port, hport⟩, h3.symm, by simp [Address.bytes, hcount]⟩
    · obtain ⟨b, k, rfl, hlength, h⟩ := reads_recvExact_bind.mp h
      obtain ⟨port, hport, rfl⟩ := reads_port.mp h
      exact ⟨⟨.ipv6 b hlength, port, hport⟩, h4.symm, rfl⟩
    · exact absurd h not_reads_raised
  · rintro ⟨⟨address, port, hport⟩, rfl, rfl⟩
    have hend := (reads_port (j := j)).mpr ⟨port, hport, rfl⟩
    cases address with
    | ipv4 b hlength =>
        rw [Address.atyp, if_pos rfl]
        exact reads_recvExact_bind.mpr ⟨b, _, rfl, hlength, hend⟩
    | domain name hlength =>
        rw [Address.atyp, if_neg (by decide), if_pos rfl]
        refine reads_recvExact_bind.mpr ⟨[UInt8.ofNat name.length], name ++ _, rfl, rfl, ?_⟩
        exact reads_recvExact_bind.mpr ⟨name, _, rfl, (toNat_ofNat_length hlength).symm, hend⟩
    | ipv6 b hlength =>
        rw [Address.atyp, if_neg (by decide), if_neg (by decide), if_pos rfl]
        exact reads_recvExact_bind.mpr ⟨b, _, rfl, hlength, hend⟩

lemma reads_recvReply : recvReply.Reads i () j ↔
    ∃ (reserved : UInt8) (e : Endpoint), i = replyBytes reserved e ++ j := by
  simp only [recvReply, reads_recvExact_bind, reads_require_bind, reads_recvBoundAddress]
  constructor
  · rintro ⟨header, k, rfl, hlength, hversion, hcode, e, hatyp, rfl⟩
    obtain ⟨version, code, reserved, atyp, rfl⟩ : ∃ a b c d, header = [a, b, c, d] := by
      match header, hlength with
      | [a, b, c, d], _ => exact ⟨a, b, c, d, rfl⟩
    obtain rfl : version = 0x05 := hversion
    obtain rfl : code = 0x00 := hcode
    obtain rfl : e.address.atyp = atyp := hatyp
    exact ⟨reserved, e, by simp [replyBytes, Endpoint.bytes]⟩
  · rintro ⟨reserved, e, rfl⟩
    exact ⟨[0x05, 0x00, reserved, e.address.atyp], e.address.bytes ++ (portBytes e.port ++ j),
      by simp [replyBytes, Endpoint.bytes], rfl, rfl, rfl, e, rfl, rfl⟩

lemma reads_connect {idna : Idna.Tables} {host : PyStr} {b : Bytes} {port : ℕ}
    (hhost : Idna.encode idna host = some b) (hb : b.length ≤ 255) (hport : port ≤ 65535) :
    (connect idna host port).Reads i () j ↔
      ∃ (reserved : UInt8) (e : Endpoint), i = replyBytes reserved e ++ j := by
  rw [connect, hhost]
  dsimp only
  rw [reads_require_bind, and_iff_right hb, if_neg (by omega), sendall, reads_write_bind,
    reads_recvReply]

/-! ### The handshake -/

variable {rt : Runtime} {idna : Idna.Tables} {unquote : PyStr → PyStr} {proxyUrl host : PyStr}
  {port : ℕ} {stream : Bytes}

/-- The name and the password of a proxy URL. -/
def credentials (unquote : PyStr → PyStr) (proxy : Url.SplitResult) : PyStr × PyStr :=
  (unquote (proxy.userinfo.1.getD []), unquote (proxy.userinfo.2.getD []))

/-- A connection that can be asked for: the credentials of the URL can be sent, and so can
the host and the port. -/
structure Connectable (rt : Runtime) (idna : Idna.Tables) (unquote : PyStr → PyStr)
    (proxyUrl host : PyStr) (port : ℕ) (username password : PyStr) : Prop where
  credentials : ∃ proxy, rt.urlsplit proxyUrl = some proxy ∧
    Outbound.credentials unquote proxy = (username, password)
  username : Sendable username
  password : Sendable password
  host : ∃ b, Idna.encode idna host = some b ∧ b.length ≤ 255
  port : port ≤ 65535

variable (h : Connectable rt idna unquote proxyUrl host port username password)

include h

lemma socks5Handshake_eq : socks5Handshake rt idna unquote proxyUrl host port
    = sendall (0x05 :: UInt8.ofNat (offeredMethods username password).length ::
        offeredMethods username password) >>= fun _ =>
      selectMethod username password >>= fun _ => connect idna host port := by
  obtain ⟨proxy, hproxy, hcredentials⟩ := h.credentials
  obtain ⟨rfl, rfl⟩ := Prod.mk.inj hcredentials
  rw [socks5Handshake, hproxy]

/-- **The bytes for which the handshake returns.** -/
theorem returns_socks5Handshake :
    (socks5Handshake rt idna unquote proxyUrl host port).Reads i () j ↔
      ∃ a : Answer [0x00, 0x02], i = a.bytes ++ j := by
  obtain ⟨b, hhost, hb⟩ := h.host
  rw [socks5Handshake_eq h, sendall, reads_write_bind, reads_bind]
  simp only [reads_selectMethod h.username h.password, reads_connect hhost hb h.port]
  constructor
  · rintro ⟨_, k, ⟨method, hmethod, rfl⟩, reserved, e, rfl⟩
    exact ⟨⟨method, by simpa using hmethod, reserved, e⟩, by simp [Answer.bytes]⟩
  · rintro ⟨⟨method, hmethod, reserved, e⟩, rfl⟩
    exact ⟨(), replyBytes reserved e ++ j, ⟨method, by simpa using hmethod, by simp [Answer.bytes]⟩,
      reserved, e, rfl⟩

/-- The greeting is the first thing that is written. -/
lemma head_written_socks5Handshake :
    ((socks5Handshake rt idna unquote proxyUrl host port).eval stream).written.head?
      = some (0x05 :: UInt8.ofNat (offeredMethods username password).length ::
          offeredMethods username password) := by
  rw [socks5Handshake_eq h, sendall, Proc.send_bind, Proc.eval]
  rfl

lemma outcome_eq_ok_iff :
    ((socks5Handshake rt idna unquote proxyUrl host port).eval stream).outcome = .ok () ↔
      ∃ a : Answer [0x00, 0x02], stream = a.bytes ++
        ((socks5Handshake rt idna unquote proxyUrl host port).eval stream).rest := by
  rw [← returns_socks5Handshake h]
  constructor
  · intro houtcome
    refine ⟨((socks5Handshake rt idna unquote proxyUrl host port).eval stream).written, ?_⟩
    rw [Proc.Returns, ← houtcome]
  · rintro ⟨w, hreturns⟩
    rw [hreturns]

omit h in
/-- An answer is one to the methods offered, unless it wants a password that was not. -/
lemma mem_offeredMethods {method : UInt8} (hmethod : method ∈ [(0x00 : UInt8), 0x02])
    (hnot : ¬(username = [] ∧ password = [] ∧ method = 0x02)) :
    method ∈ offeredMethods username password := by
  rw [offeredMethods]
  split_ifs with hpassword
  · exact hmethod
  · push Not at hpassword
    rcases List.mem_cons.mp hmethod with rfl | hmethod
    · exact List.mem_singleton_self _
    · exact absurd ⟨hpassword.1, hpassword.2, List.mem_singleton.mp hmethod⟩ hnot

omit h in
lemma of_mem_offeredMethods {method : UInt8} (h : method ∈ offeredMethods username password) :
    method ∈ [(0x00 : UInt8), 0x02] := by
  rw [offeredMethods] at h
  split_ifs at h
  · exact h
  · exact List.mem_cons.mpr (.inl (List.mem_singleton.mp h))

/-- A password that is wanted and was not offered: the client sends the empty ones. -/
lemma not_acceptsExactly {reserved : UInt8} {e : Endpoint}
    (hempty : username = [] ∧ password = [])
    (hstream : [0x05, 0x02, 0x01, 0x00] ++ replyBytes reserved e <+: stream) :
    ¬∃ r, Yields (socks5Handshake rt idna unquote proxyUrl host port) stream r ∧
      AcceptsExactly (offeredMethods username password) stream r := by
  rintro ⟨r, hyields, hr⟩
  obtain ⟨rfl, rfl⟩ := hempty
  obtain ⟨rest, rfl⟩ := hstream
  obtain rfl := hyields.eq_eval
  obtain ⟨w, hreturns⟩ := (returns_socks5Handshake h).mpr
    ⟨⟨0x02, by simp, reserved, e⟩, (by simp [Answer.bytes] : [0x05, 0x02, 0x01, 0x00] ++
      replyBytes reserved e ++ rest = _ ++ rest)⟩
  obtain ⟨a, rest', ha⟩ := hr.accepts.mp (by rw [hreturns])
  have hmethod : a.method = 0x00 := by simpa [offeredMethods] using a.method_mem
  simp [Answer.bytes, hmethod] at ha

/-- **The client accepts exactly the conforming answers**, unless a proxy URL without a
name and a password meets a proxy that wants them and takes the empty ones. -/
theorem acceptsExactly_iff :
    (∃ r, Yields (socks5Handshake rt idna unquote proxyUrl host port) stream r ∧
        AcceptsExactly (offeredMethods username password) stream r) ↔
      ¬(username = [] ∧ password = [] ∧ ∃ (reserved : UInt8) (e : Endpoint),
        [0x05, 0x02, 0x01, 0x00] ++ replyBytes reserved e <+: stream) := by
  constructor
  · rintro hr ⟨huser, hpassword, reserved, e, hstream⟩
    exact not_acceptsExactly h ⟨huser, hpassword⟩ hstream hr
  · intro hnot
    -- an answer that is accepted chooses a method that was offered
    have hanswer : ∀ {rest : Bytes} (a : Answer [0x00, 0x02]), stream = a.bytes ++ rest →
        ∃ a : Answer (offeredMethods username password), stream = a.bytes ++ rest := by
      rintro rest a rfl
      refine ⟨a.to (mem_offeredMethods a.method_mem ?_), rfl⟩
      rintro ⟨huser, hpassword, hmethod⟩
      refine hnot ⟨huser, hpassword, a.reserved, a.endpoint, rest, ?_⟩
      simp [Answer.bytes, hmethod]
    have hconsumes :
        ((socks5Handshake rt idna unquote proxyUrl host port).eval stream).outcome = .ok () →
          ∃ a : Answer (offeredMethods username password), stream = a.bytes ++
            ((socks5Handshake rt idna unquote proxyUrl host port).eval stream).rest := by
      intro houtcome
      obtain ⟨a, ha⟩ := (outcome_eq_ok_iff h).mp houtcome
      exact hanswer a ha
    refine ⟨_, yields_eval _ _, head_written_socks5Handshake h, ⟨?_, ?_⟩, hconsumes⟩
    · intro houtcome
      obtain ⟨a, ha⟩ := hconsumes houtcome
      exact ⟨a, _, ha.symm⟩
    · rintro ⟨a, rest, ha⟩
      obtain ⟨w, hreturns⟩ := (returns_socks5Handshake h (j := rest)).mpr
        ⟨a.to (of_mem_offeredMethods a.method_mem), ha.symm⟩
      rw [hreturns]

omit h

/-- A proxy without a name and a password. -/
def openProxy : PyStr := py "socks5://proxy.example:1080"

/-- A connection through a proxy with this URL. -/
lemma connectable_sample {proxyUrl username password : PyStr}
    (hcredentials : ((sampleConfig.runtime.urlsplit proxyUrl).map (credentials id))
      = some (username, password)) (huser : Sendable username) (hpassword : Sendable password) :
    Connectable sampleConfig.runtime sampleIdna id proxyUrl (py "a.example") 443 username
      password where
  credentials := Option.map_eq_some_iff.mp hcredentials
  username := huser
  password := hpassword
  host := ⟨_, (by decide +kernel : Idna.encode sampleIdna (py "a.example")
    = some [0x61, 0x2e, 0x65, 0x78, 0x61, 0x6d, 0x70, 0x6c, 0x65]), by decide⟩
  port := by decide

/-- A proxy that wants a password from a client without one. -/
theorem not_acceptsExactly_unoffered :
    ¬∃ r, Yields (socks5Handshake sampleConfig.runtime sampleIdna id openProxy (py "a.example") 443)
        [0x05, 0x02, 0x01, 0x00, 0x05, 0x00, 0x00, 0x01, 0, 0, 0, 0, 0, 0] r ∧
      AcceptsExactly (offeredMethods [] [])
        [0x05, 0x02, 0x01, 0x00, 0x05, 0x00, 0x00, 0x01, 0, 0, 0, 0, 0, 0] r := by
  have hempty : Sendable [] := ⟨ByteArray.empty, rfl, by decide⟩
  have h : Connectable sampleConfig.runtime sampleIdna id openProxy (py "a.example") 443 [] [] :=
    connectable_sample (by decide +kernel) hempty hempty
  have hstream : [0x05, 0x02, 0x01, 0x00] ++ replyBytes 0 ⟨.ipv4 [0, 0, 0, 0] rfl, 0, by decide⟩
      <+: [0x05, 0x02, 0x01, 0x00, 0x05, 0x00, 0x00, 0x01, 0, 0, 0, 0, 0, 0] := List.prefix_refl _
  exact not_acceptsExactly h ⟨rfl, rfl⟩ hstream

/-- A client with a password. -/
theorem acceptsExactly_password :
    ∃ r, Yields
        (socks5Handshake sampleConfig.runtime sampleIdna id sampleProxy (py "a.example") 443)
        [0x05, 0x02, 0x01, 0x00, 0x05, 0x00, 0x00, 0x01, 0, 0, 0, 0, 0, 0] r ∧
      AcceptsExactly (offeredMethods (py "user") (py "secret"))
        [0x05, 0x02, 0x01, 0x00, 0x05, 0x00, 0x00, 0x01, 0, 0, 0, 0, 0, 0] r := by
  have huser : Sendable (py "user") := ⟨_, rfl, by decide⟩
  have hpassword : Sendable (py "secret") := ⟨_, rfl, by decide⟩
  have h : Connectable sampleConfig.runtime sampleIdna id sampleProxy (py "a.example") 443
      (py "user") (py "secret") := connectable_sample (by decide +kernel) huser hpassword
  exact (acceptsExactly_iff h).mpr fun hnone => absurd hnone.1 (by decide)

end Outbound

end CodexResetProxy
