import Mathlib.Logic.Function.Basic
import CodexResetProxy.Library.Interruption
import CodexResetProxy.Library.PyStr

/-!
The certificate directory (`certs.py`): a key and a certificate for the CA, and for each
host that was asked for.

* `safeFilename`: the name of a host's files, which other hosts may share.
* `CertDir`: keys and certificates in their files, each written at once;
  `ensureCaCertificate`, `ensureLeafCertificate`: programs of file operations.
* `certMachine`: calls, one at a time, with crashes between file operations and an operator
  who deletes files.
* `ServesCurrent`: a leaf certificate that is returned is for the host, matches its key and
  is signed by the current CA.
-/

namespace CodexResetProxy

open PyStr Interruption

/-! ### File names -/

/-- `[A-Za-z0-9_.-]`. -/
def isSafeChar (c : ℕ) : Bool :=
  0x41 ≤ c ∧ c ≤ 0x5a ∨ 0x61 ≤ c ∧ c ≤ 0x7a ∨ 0x30 ≤ c ∧ c ≤ 0x39 ∨ c = 0x5f ∨ c = 0x2e ∨ c = 0x2d

/-- `re.sub(r"[^A-Za-z0-9_.-]+", "_", s)`, behind a character that was replaced or not. -/
def replaceRuns : Bool → PyStr → PyStr
  | _, [] => []
  | replaced, c :: s =>
      if isSafeChar c then c :: replaceRuns false s
      else if replaced then replaceRuns true s
      else 0x5f :: replaceRuns true s

/-- `_safe_filename`. -/
def safeFilename (host : PyStr) : PyStr :=
  let name := (replaceRuns false host).take 180
  if name = [] then py "unknown" else name

example : safeFilename (py "[::1]:443") = py "_1_443" := by decide

/-- Whose key and certificate: the CA's, or those of a file name. -/
inductive Owner where
  | ca
  | leaf (name : PyStr)
  deriving DecidableEq

/-- The files of the directory. -/
inductive File where
  | key (owner : Owner)
  | cert (owner : Owner)
  deriving DecidableEq

/-- The path below `mitm_cert_dir`, without its extension. -/
def Owner.stem : Owner → PyStr
  | .ca => py "ca"
  | .leaf name => py "leaf/" ++ name

/-- The path below `mitm_cert_dir`. -/
def File.path : File → PyStr
  | .key owner => owner.stem ++ py ".key"
  | .cert owner => owner.stem ++ py ".crt"

/-- Whose file it is. -/
def File.owner : File → Owner
  | .key owner => owner
  | .cert owner => owner

lemma Owner.stem_injective : Function.Injective Owner.stem := by
  have hne : ∀ name, py "ca" ≠ py "leaf/" ++ name := by
    intro name h
    have hhead := congrArg List.head? h
    rw [List.head?_append_of_ne_nil _ (by decide)] at hhead
    exact absurd hhead (by decide)
  intro o o' h
  cases o with
  | ca =>
      cases o' with
      | ca => rfl
      | leaf name => exact absurd h (hne name)
  | leaf name =>
      cases o' with
      | ca => exact absurd h.symm (hne name)
      | leaf name' => exact congrArg Owner.leaf (List.append_cancel_left h)

/-- Different files have different paths. -/
theorem File.path_injective : Function.Injective File.path := by
  have hlength : (py ".key").length = (py ".crt").length := by decide
  intro f f' h
  cases f with
  | key o =>
      cases f' with
      | key o' => rw [Owner.stem_injective (List.append_cancel_right h)]
      | cert o' => exact absurd (List.append_inj' h hlength).2 (by decide)
  | cert o =>
      cases f' with
      | key o' => exact absurd (List.append_inj' h hlength.symm).2 (by decide)
      | cert o' => rw [Owner.stem_injective (List.append_cancel_right h)]

/-! ### The directory -/

/-- A certificate: its subject, a host or the CA, its public key, and the key that signed
it. -/
structure Certificate where
  subject : Option PyStr
  publicKey : ℕ
  signer : ℕ
  deriving DecidableEq

/-- What a file holds. -/
inductive Content where
  | key (k : ℕ)
  | certificate (c : Certificate)
  deriving DecidableEq

/-- The files that exist, and the next key that is generated. -/
structure CertDir where
  keys : Owner → Option ℕ
  certs : Owner → Option Certificate
  next : ℕ

namespace CertDir

variable (s : CertDir)

/-- What a file holds, if it exists. -/
def content : File → Option Content
  | .key owner => (s.keys owner).map .key
  | .cert owner => (s.certs owner).map .certificate

/-- A file is deleted. -/
def delete : File → CertDir
  | .key owner => { s with keys := Function.update s.keys owner none }
  | .cert owner => { s with certs := Function.update s.certs owner none }

/-- A key is written to its file. -/
def setKey (owner : Owner) (k : ℕ) : CertDir :=
  { s with keys := Function.update s.keys owner (some k) }

/-- A certificate is written to its file. -/
def setCert (owner : Owner) (c : Certificate) : CertDir :=
  { s with certs := Function.update s.certs owner (some c) }

/-- Both files exist. -/
def Paired (owner : Owner) : Prop := (s.keys owner).isSome ∧ (s.certs owner).isSome

end CertDir

/-- An operation on a file, or the generation of a key. -/
inductive FileOp where
  | present (f : File)
  | readKey (owner : Owner)
  | readCert (owner : Owner)
  | generateKey
  | writeKey (owner : Owner) (k : ℕ)
  | writeCert (owner : Owner) (c : Certificate)

namespace FileOp

/-- The file of an operation. -/
def file? : FileOp → Option File
  | .present f => some f
  | .readKey owner => some (.key owner)
  | .readCert owner => some (.cert owner)
  | .generateKey => none
  | .writeKey owner _ => some (.key owner)
  | .writeCert owner _ => some (.cert owner)

/-- What an operation answers. -/
def Res : FileOp → Type
  | .present _ => Bool
  | .readKey _ => ℕ
  | .readCert _ => Certificate
  | .generateKey => ℕ
  | .writeKey _ _ => Unit
  | .writeCert _ _ => Unit

/-- What an operation does; a file that does not exist cannot be read. -/
def perform : (o : FileOp) → CertDir → Option (o.Res × CertDir)
  | .present f, s => some ((s.content f).isSome, s)
  | .readKey owner, s => (s.keys owner).map fun k => (k, s)
  | .readCert owner, s => (s.certs owner).map fun c => (c, s)
  | .generateKey, s => some (s.next, { s with next := s.next + 1 })
  | .writeKey owner k, s => some ((), s.setKey owner k)
  | .writeCert owner c, s => some ((), s.setCert owner c)

end FileOp

/-- A program of file operations. -/
abbrev CertProgram := Program FileOp.Res

/-- `path.exists()`. -/
def pathExists (f : File) : CertProgram Bool := Program.ask (FileOp.present f)

/-- `load_pem_private_key(path.read_bytes())`. -/
def readKey (owner : Owner) : CertProgram ℕ := Program.ask (FileOp.readKey owner)

/-- `load_pem_x509_certificate(path.read_bytes())`. -/
def readCert (owner : Owner) : CertProgram Certificate := Program.ask (FileOp.readCert owner)

/-- `rsa.generate_private_key`: a key that there was not before. -/
def generateKey : CertProgram ℕ := Program.ask FileOp.generateKey

/-- `key_path.write_bytes`. -/
def writeKey (owner : Owner) (k : ℕ) : CertProgram Unit := Program.ask (FileOp.writeKey owner k)

/-- `cert_path.write_bytes`. -/
def writeCert (owner : Owner) (c : Certificate) : CertProgram Unit :=
  Program.ask (FileOp.writeCert owner c)

/-- `f.exists() and g.exists()`. -/
def bothExist (f g : File) : CertProgram Bool := do
  if ← pathExists f then pathExists g else return false

/-- `ensure_ca_certificate`. -/
def ensureCaCertificate : CertProgram (File × File) := do
  if ← bothExist (.key .ca) (.cert .ca) then
    return (.key .ca, .cert .ca)
  else
    let key ← generateKey
    let cert := { subject := none, publicKey := key, signer := key }
    writeKey .ca key
    writeCert .ca cert
    return (.key .ca, .cert .ca)

/-- `ensure_leaf_certificate`; `certifiable` tells the hosts for which a certificate can be
built. -/
def ensureLeafCertificate (certifiable : PyStr → Bool) (host : PyStr) :
    CertProgram (File × File) := do
  let _ ← ensureCaCertificate
  let owner := .leaf (safeFilename host)
  if ← bothExist (.cert owner) (.key owner) then
    return (.cert owner, .key owner)
  else
    let caKey ← readKey .ca
    let _ ← readCert .ca
    let key ← generateKey
    if certifiable host then
      let cert := { subject := some host, publicKey := key, signer := caKey }
      writeKey owner key
      writeCert owner cert
      return (.cert owner, .key owner)
    else Program.raise

/-! ### Calls -/

/-- The calls. -/
inductive CertCall where
  | ca
  | leaf (host : PyStr)
  deriving DecidableEq

/-- Calls one after the other, on a directory that is empty in the beginning. -/
def certMachine (certifiable : PyStr → Bool) :
    Machine CertDir CertCall File (File × File) FileOp.Res where
  init := ⟨fun _ => none, fun _ => none, 0⟩
  perform := FileOp.perform
  body
    | .ca => ensureCaCertificate
    | .leaf host => ensureLeafCertificate certifiable host
  disturb f s := s.delete f

/-- A directory and a call that is running. -/
abbrev CertConfig := Machine.Config CertDir CertCall (File × File) FileOp.Res

/-- A call returns, the next time it goes on. -/
def Returns (c : CertConfig) (call : CertCall) (paths : File × File) : Prop :=
  c.running = some (call, .ret paths)

/-- The CA certificate that `ensure_ca_certificate` returns in a state. -/
def currentCa (s : CertDir) : Option Content := do
  let (paths, t) ← ensureCaCertificate.eval FileOp.perform s
  t.content paths.2

/-- A call of `ensure_ca_certificate` that nothing interferes with returns the current CA. -/
theorem returns_currentCa (certifiable : PyStr → Bool) {s : CertDir} {ca : Content}
    (h : currentCa s = some ca) :
    ∃ n t paths, (certMachine certifiable).system.exec ⟨s, some (.ca, ensureCaCertificate)⟩
        (List.replicate n .go) = some ⟨t, some (.ca, .ret paths)⟩ ∧
      t.content paths.2 = some ca := by
  obtain ⟨⟨paths, t⟩, heval, hca⟩ := Option.bind_eq_some_iff.mp h
  obtain ⟨n, hn⟩ := Machine.exists_exec_of_eval (M := certMachine certifiable) heval .ca
  exact ⟨n, t, paths, hn, hca⟩

/-- The files match each other, the certificate is for the host, and the CA that is current
has signed it. -/
def LeafServed (host : PyStr) (paths : File × File) (s : CertDir) : Prop :=
  ∃ cert ca, s.content paths.1 = some (.certificate cert) ∧
    s.content paths.2 = some (.key cert.publicKey) ∧ cert.subject = some host ∧
    currentCa s = some (.certificate ca) ∧ cert.signer = ca.publicKey

/-- Whenever `ensure_leaf_certificate` returns, in any run. -/
def ServesCurrent (certifiable : PyStr → Bool) : Prop :=
  ∀ l c, (certMachine certifiable).system.Path (certMachine certifiable).system.init l c →
    ∀ host paths, Returns c (.leaf host) paths → LeafServed host paths c.store

end CodexResetProxy
