import CodexResetProxy.Mitm.Certs

/-!
When the certificates that are served chain to the current CA.

* `Careful`: the steps of a run that leave no stale files behind; `Consistent`: what they
  keep between the calls.
* `atCaKey`, ..., `atWriteCert`: what is left of a call before each file operation, with the
  lemmas `outline_*` for what is known there.
* `served_of_careful`: **every leaf certificate** that is returned in a run of such steps is
  for its host and chains to the current CA.
-/

namespace CodexResetProxy

open PyStr Interruption Machine Transition

/-! ### The condition -/

/-- An operation on a file. -/
def Touches (f : File) (o : FileOp) : Prop := o.file? = some f

/-- The owner of a host's files. -/
abbrev hostOwner (host : PyStr) : Owner := .leaf (safeFilename host)

/-- A step that leaves no stale files behind.

* No leaf certificate is asked for where the files of its name are another host's.
* A new CA key is written only where there is no leaf certificate with its key.
* A call does not crash between the writing of a key and of its certificate where there is
  an old certificate.
* No file of the CA or of the host is deleted between the last operation of a call for a
  leaf certificate on that file and its return. -/
def Careful (c : CertConfig) : Action CertCall File → Prop
  | .start .ca => True
  | .start (.leaf host) => c.store.Paired (hostOwner host) →
      ∀ cert, c.store.certs (hostOwner host) = some cert → cert.subject = some host
  | .go => ∀ call k next, c.running = some (call, .op (.writeKey .ca k) next) →
      ∀ name, ¬c.store.Paired (.leaf name)
  | .crash => ∀ call owner cert next, c.running = some (call, .op (.writeCert owner cert) next) →
      c.store.certs owner = none
  | .disturb f => ∀ host p, c.running = some (.leaf host, p) →
      f.owner = .ca ∨ f.owner = hostOwner host →
      ¬p.Passed FileOp.perform (Touches f) c.store

/-! ### The directory -/

section Dir

variable {s : CertDir} {f : File} {o o' : Owner} {k : ℕ} {c : Certificate}

@[simp] lemma keys_delete : (s.delete f).keys o = if f = .key o then none else s.keys o := by
  cases f with
  | key o' => simp [CertDir.delete, Function.update_apply, eq_comm]
  | cert o' => simp [CertDir.delete]

@[simp] lemma certs_delete : (s.delete f).certs o = if f = .cert o then none else s.certs o := by
  cases f with
  | key o' => simp [CertDir.delete]
  | cert o' => simp [CertDir.delete, Function.update_apply, eq_comm]

@[simp] lemma keys_setKey : (s.setKey o k).keys o' = if o' = o then some k else s.keys o' := by
  simp [CertDir.setKey, Function.update_apply]

@[simp] lemma certs_setKey : (s.setKey o k).certs o' = s.certs o' := rfl

@[simp] lemma keys_setCert : (s.setCert o c).keys o' = s.keys o' := rfl

@[simp] lemma certs_setCert : (s.setCert o c).certs o' = if o' = o then some c else s.certs o' := by
  simp [CertDir.setCert, Function.update_apply]

/-- Files that both exist after a deletion were not deleted. -/
lemma paired_delete : (s.delete f).Paired o ↔ s.Paired o ∧ f ≠ .key o ∧ f ≠ .cert o := by
  rw [CertDir.Paired, CertDir.Paired, keys_delete, certs_delete]
  by_cases hkey : f = .key o
  · simp [hkey]
  by_cases hcert : f = .cert o
  · simp [hcert]
  simp [hkey, hcert]

lemma keys_delete_of_ne (h : f ≠ .key o) : (s.delete f).keys o = s.keys o := by
  rw [keys_delete, if_neg h]

lemma certs_delete_of_ne (h : f ≠ .cert o) : (s.delete f).certs o = s.certs o := by
  rw [certs_delete, if_neg h]

lemma isSome_of_delete (h : ((s.delete f).certs o).isSome) :
    (s.certs o).isSome ∧ f ≠ .cert o := by
  rw [certs_delete] at h
  split_ifs at h with hf
  · simp at h
  · exact ⟨h, hf⟩

lemma isSome_of_delete_key (h : ((s.delete f).keys o).isSome) :
    (s.keys o).isSome ∧ f ≠ .key o := by
  rw [keys_delete] at h
  split_ifs at h with hf
  · simp at h
  · exact ⟨h, hf⟩

end Dir

/-- No leaf certificate with its key. -/
def Unpaired (s : CertDir) : Prop := ∀ name, ¬s.Paired (.leaf name)

/-- Files that belong together match, and leaf certificates chain to the CA. -/
structure Consistent (s : CertDir) : Prop where
  matched : ∀ o k c, s.keys o = some k → s.certs o = some c → c.publicKey = k
  signed : ∀ name c ca, s.Paired (.leaf name) → s.Paired .ca → s.certs (.leaf name) = some c →
    s.certs .ca = some ca → c.signer = ca.publicKey

/-- The files of a host's name, if both exist, are the host's. -/
def Fits (host : PyStr) (s : CertDir) : Prop :=
  s.Paired (hostOwner host) → ∀ c, s.certs (hostOwner host) = some c → c.subject = some host

lemma Unpaired.delete {s : CertDir} (h : Unpaired s) (f : File) : Unpaired (s.delete f) :=
  fun name hname => h name (paired_delete.mp hname).1

lemma Consistent.delete {s : CertDir} (h : Consistent s) (f : File) : Consistent (s.delete f) := by
  refine ⟨fun o k c hk hc => ?_, fun name c ca hname hpaired hc hca => ?_⟩
  · rw [keys_delete] at hk
    rw [certs_delete] at hc
    split_ifs at hk hc
    exact h.matched o k c hk hc
  · rw [certs_delete] at hc hca
    split_ifs at hc hca
    exact h.signed name c ca (paired_delete.mp hname).1 (paired_delete.mp hpaired).1 hc hca

lemma Fits.delete {host : PyStr} {s : CertDir} (h : Fits host s) (f : File) :
    Fits host (s.delete f) := by
  intro hpaired c hc
  rw [certs_delete] at hc
  split_ifs at hc
  exact h (paired_delete.mp hpaired).1 c hc

lemma delete_comm (s : CertDir) (f g : File) : (s.delete f).delete g = (s.delete g).delete f := by
  have hkeys : ((s.delete f).delete g).keys = ((s.delete g).delete f).keys := by
    funext o
    simp only [keys_delete]
    split_ifs <;> rfl
  have hcerts : ((s.delete f).delete g).certs = ((s.delete g).delete f).certs := by
    funext o
    simp only [certs_delete]
    split_ifs <;> rfl
  cases f <;> cases g <;> exact congrArg₂ (CertDir.mk · · s.next) hkeys hcerts

/-- A file that does not exist cannot be deleted. -/
lemma delete_cert_of_none {s : CertDir} {o : Owner} (h : s.certs o = none) :
    s.delete (.cert o) = s := by
  rw [CertDir.delete, ← h, Function.update_eq_self]

/-- A key is written: what the old certificate says does not count. -/
lemma Consistent.setKey {s : CertDir} (h : Consistent s) (name : PyStr) (k : ℕ) :
    Consistent ((s.setKey (.leaf name) k).delete (.cert (.leaf name))) := by
  refine ⟨fun o k' c hk hc => ?_, fun name' c ca hname hpaired hc hca => ?_⟩
  · simp only [keys_delete, keys_setKey, certs_delete, certs_setKey] at hk hc
    by_cases ho : o = .leaf name
    · simp [ho] at hc
    · exact h.matched o k' c (by simpa [ho] using hk) (by simpa [Ne.symm ho] using hc)
  · obtain ⟨hname, -, hne⟩ := paired_delete.mp hname
    have hne' : Owner.leaf name' ≠ .leaf name := fun heq => hne (by rw [heq])
    refine h.signed name' c ca ?_ ?_ (by simpa [Ne.symm hne'] using hc) (by simpa using hca)
    · simpa [CertDir.Paired, hne'] using hname
    · simpa [CertDir.Paired] using (paired_delete.mp hpaired).1

/-- A certificate is written behind its key. -/
lemma Consistent.setCert {s : CertDir} {name : PyStr} {c : Certificate}
    (h : Consistent (s.delete (.cert (.leaf name)))) (hk : s.keys (.leaf name) = some c.publicKey)
    (hsigned : ∀ ca, s.certs .ca = some ca → c.signer = ca.publicKey) :
    Consistent (s.setCert (.leaf name) c) := by
  refine ⟨fun o k c' hk' hc' => ?_, fun name' c' ca hname hpaired hc' hca => ?_⟩
  · simp only [keys_setCert, certs_setCert] at hk' hc'
    by_cases ho : o = .leaf name
    · rw [if_pos ho] at hc'
      obtain rfl := Option.some.inj hc'
      rw [ho, hk] at hk'
      exact Option.some.inj hk'
    · rw [if_neg ho] at hc'
      exact h.matched o k c' (by simpa using hk') (by simpa [Ne.symm ho] using hc')
  · rw [certs_setCert, if_neg (by simp)] at hca
    by_cases hne : Owner.leaf name' = .leaf name
    · rw [certs_setCert, if_pos hne] at hc'
      obtain rfl := Option.some.inj hc'
      exact hsigned ca hca
    · rw [certs_setCert, if_neg hne] at hc'
      refine h.signed name' c' ca ?_ ?_ (by simpa [Ne.symm hne] using hc') (by simpa using hca)
      · refine paired_delete.mpr ⟨by simpa [CertDir.Paired, hne] using hname, by simp, ?_⟩
        exact fun heq => hne (File.cert.inj heq).symm
      · exact paired_delete.mpr ⟨by simpa [CertDir.Paired] using hpaired, by simp, by simp⟩

/-! ### What is left of a call -/

section Points

variable (certifiable : PyStr → Bool) (host : PyStr) (rest : CertProgram (File × File))

/-- The paths that are returned for a host. -/
def leafPaths : File × File := (.cert (hostOwner host), .key (hostOwner host))

def atWriteCert (caKey key : ℕ) : CertProgram (File × File) :=
  .op (.writeCert (hostOwner host) ⟨some host, key, caKey⟩) fun _ => .ret (leafPaths host)

def atWriteKey (caKey key : ℕ) : CertProgram (File × File) :=
  .op (.writeKey (hostOwner host) key) fun _ => atWriteCert host caKey key

def atGenerateKey (caKey : ℕ) : CertProgram (File × File) :=
  .op .generateKey fun key => if certifiable host then atWriteKey host caKey key else .raise

def atReadCaCert (caKey : ℕ) : CertProgram (File × File) :=
  .op (.readCert .ca) fun _ => atGenerateKey certifiable host caKey

def atReadCaKey : CertProgram (File × File) :=
  .op (.readKey .ca) fun caKey => atReadCaCert certifiable host caKey

def atKeyExists : CertProgram (File × File) :=
  .op (.present (.key (hostOwner host))) fun b =>
    bif b then .ret (leafPaths host) else atReadCaKey certifiable host

def atCertExists : CertProgram (File × File) :=
  .op (.present (.cert (hostOwner host))) fun b =>
    bif b then atKeyExists certifiable host else atReadCaKey certifiable host

def atWriteCaCert (key : ℕ) : CertProgram (File × File) :=
  .op (.writeCert .ca ⟨none, key, key⟩) fun _ => rest

def atWriteCaKey (key : ℕ) : CertProgram (File × File) :=
  .op (.writeKey .ca key) fun _ => atWriteCaCert rest key

def atGenerateCaKey : CertProgram (File × File) := .op .generateKey fun key => atWriteCaKey rest key

def atCaCertExists : CertProgram (File × File) :=
  .op (.present (.cert .ca)) fun b => bif b then rest else atGenerateCaKey rest

def atCaKeyExists : CertProgram (File × File) :=
  .op (.present (.key .ca)) fun b => bif b then atCaCertExists rest else atGenerateCaKey rest

/-- The program of `ensure_ca_certificate`, in front of another. -/
lemma ensureCaCertificate_bind (f : File × File → CertProgram (File × File)) :
    ensureCaCertificate.bind f = atCaKeyExists (f (.key .ca, .cert .ca)) := by
  refine congrArg (Program.op _) (funext fun b => ?_)
  cases b with
  | false => rfl
  | true =>
      refine congrArg (Program.op _) (funext fun b => ?_)
      cases b <;> rfl

lemma ensureCaCertificate_eq :
    ensureCaCertificate = atCaKeyExists (.ret (.key .ca, .cert .ca)) :=
  (Program.bind_ret _).symm.trans (ensureCaCertificate_bind .ret)

/-- The issue of a leaf certificate. -/
lemma issue_eq :
    (do
      let caKey ← readKey .ca
      let _ ← readCert .ca
      let key ← generateKey
      if certifiable host then
        writeKey (hostOwner host) key
        writeCert (hostOwner host) ⟨some host, key, caKey⟩
        return leafPaths host
      else Program.raise) = atReadCaKey certifiable host := by
  refine congrArg (Program.op _) (funext fun caKey => congrArg (Program.op _)
    (funext fun _ => congrArg (Program.op _) (funext fun key => ?_)))
  cases certifiable host <;> rfl

lemma ensureLeafCertificate_eq :
    ensureLeafCertificate certifiable host = atCaKeyExists (atCertExists certifiable host) := by
  refine (ensureCaCertificate_bind _).trans (congrArg atCaKeyExists ?_)
  refine congrArg (Program.op _) (funext fun b => ?_)
  cases b with
  | false => exact issue_eq certifiable host
  | true =>
      refine congrArg (Program.op _) (funext fun b => ?_)
      cases b with
      | false => exact issue_eq certifiable host
      | true => rfl

end Points

/-! ### Files that a call has passed -/

section Passed

variable {certifiable : PyStr → Bool} {host : PyStr} {f : File} {s : CertDir}

/-- An operation that answers does not touch the file, and what comes then does not. -/
lemma passed_op {o : FileOp} {next : o.Res → CertProgram (File × File)} {r : o.Res} {t : CertDir}
    (hperform : o.perform s = some (r, t)) (ho : o.file? ≠ some f)
    (h : (next r).Passed FileOp.perform (Touches f) t) :
    (Program.op o next).Passed FileOp.perform (Touches f) s := by
  rw [Program.Passed, hperform]
  exact ⟨ho, h⟩

lemma passed_atWriteCert {caKey key : ℕ} (hcert : f ≠ .cert (hostOwner host)) :
    (atWriteCert host caKey key).Passed FileOp.perform (Touches f) s :=
  passed_op rfl (fun h => hcert (Option.some.inj h).symm) trivial

lemma passed_atWriteKey {caKey key : ℕ} (hkey : f ≠ .key (hostOwner host))
    (hcert : f ≠ .cert (hostOwner host)) :
    (atWriteKey host caKey key).Passed FileOp.perform (Touches f) s :=
  passed_op rfl (fun h => hkey (Option.some.inj h).symm) (passed_atWriteCert hcert)

lemma passed_atGenerateKey {caKey : ℕ} (hhost : certifiable host = true)
    (hkey : f ≠ .key (hostOwner host)) (hcert : f ≠ .cert (hostOwner host)) :
    (atGenerateKey certifiable host caKey).Passed FileOp.perform (Touches f) s := by
  refine passed_op rfl (by simp [FileOp.file?]) ?_
  rw [if_pos hhost]
  exact passed_atWriteKey hkey hcert

/-- The CA key was read: it counts if there is a certificate to go with it. -/
lemma passed_atReadCaCert {caKey : ℕ} (hhost : certifiable host = true)
    (hca : (s.certs .ca).isSome) :
    (atReadCaCert certifiable host caKey).Passed FileOp.perform (Touches (.key .ca)) s := by
  obtain ⟨ca, hca⟩ := Option.isSome_iff_exists.mp hca
  refine passed_op (r := ca) (t := s) ?_ (by simp [FileOp.file?]) ?_
  · rw [FileOp.perform, hca]
    rfl
  · exact passed_atGenerateKey hhost (by simp) (by simp)

/-- Both files of the host are there: no other counts any more. -/
lemma passed_atKeyExists (hkey : (s.keys (hostOwner host)).isSome)
    (hf : f ≠ .key (hostOwner host)) :
    (atKeyExists certifiable host).Passed FileOp.perform (Touches f) s := by
  refine passed_op rfl (fun h => hf (Option.some.inj h).symm) ?_
  rw [CertDir.content, Option.isSome_map, hkey]
  trivial

lemma passed_atCertExists (h : s.Paired (hostOwner host)) (hkey : f ≠ .key (hostOwner host))
    (hcert : f ≠ .cert (hostOwner host)) :
    (atCertExists certifiable host).Passed FileOp.perform (Touches f) s := by
  refine passed_op rfl (fun h => hcert (Option.some.inj h).symm) ?_
  rw [CertDir.content, Option.isSome_map, h.2]
  exact passed_atKeyExists h.1 hkey

lemma passed_atCaCertExists (h : s.Paired (hostOwner host)) (hca : (s.certs .ca).isSome) :
    (atCaCertExists (atCertExists certifiable host)).Passed FileOp.perform (Touches (.key .ca))
      s := by
  refine passed_op rfl (by simp [FileOp.file?]) ?_
  rw [CertDir.content, Option.isSome_map, hca]
  exact passed_atCertExists h (by simp) (by simp)

end Passed

/-! ### What is known at each point -/

/-- What a call guarantees of the paths it returns. -/
def Returned : CertCall → File × File → CertDir → Prop
  | .ca, _, _ => True
  | .leaf host, paths, s => LeafServed host paths s

/-- Assertions for what is left of a call. -/
abbrev Outlines (certifiable : PyStr → Bool) (call : CertCall) (p : CertProgram (File × File))
    (P : CertDir → Prop) : Prop :=
  Outline (certMachine certifiable) Careful Consistent call (Returned call) p P

section Outlines

variable {certifiable : PyStr → Bool} {call : CertCall} {host : PyStr}
  {rest : CertProgram (File × File)}

/-- The directory without a leaf certificate that has its key. -/
lemma consistent_of_unpaired {s : CertDir} (h : Unpaired s)
    (hca : ∀ k c, s.keys .ca = some k → s.certs .ca = some c → c.publicKey = k) :
    Consistent s := by
  refine ⟨fun o k c hk hc => ?_, fun name _ _ hpaired => absurd hpaired (h name)⟩
  cases o with
  | ca => exact hca k c hk hc
  | leaf name =>
      refine absurd ?_ (h name)
      rw [CertDir.Paired, hk, hc]
      exact ⟨rfl, rfl⟩

/-- An assertion that the invariant follows from, at any point. -/
lemma stable_of {p : CertProgram (File × File)} {P : CertDir → Prop}
    (hI : ∀ s, P s → Consistent s)
    (hdisturb : ∀ s f, P s → Careful ⟨s, some (call, p)⟩ (.disturb f) → P (s.delete f)) :
    Stable (certMachine certifiable) Careful Consistent call p P :=
  ⟨hdisturb, fun s hs _ => hI s hs⟩

/-- The new CA certificate is to be written: there is no leaf certificate. -/
lemma outlines_atWriteCaCert {key : ℕ} {Q : CertDir → Prop}
    (hrest : Outlines certifiable call rest Q) (hQ : ∀ s, Consistent s → Unpaired s → Q s) :
    Outlines certifiable call (atWriteCaCert rest key)
      fun s => Unpaired s ∧ ∀ k, s.keys .ca = some k → k = key := by
  refine ⟨⟨fun s f hs _ => ?_, fun s hs hcareful => ?_⟩, fun _ _ hraise => (nomatch hraise),
    fun _ => Q, fun s r t hs _ hperform => ?_, fun _ => hrest⟩
  · refine ⟨hs.1.delete f, fun k hk => hs.2 k ?_⟩
    simp only [certMachine, keys_delete] at hk
    split_ifs at hk
    exact hk
  · have hnone := hcareful call .ca _ _ rfl
    refine consistent_of_unpaired hs.1 fun k c _ hc => ?_
    rw [hnone] at hc
    cases hc
  · obtain ⟨-, rfl⟩ := Prod.mk.inj (Option.some.inj hperform)
    have hunpaired : Unpaired (s.setCert .ca ⟨none, key, key⟩) := by
      intro name hname
      exact hs.1 name (by simpa [CertDir.Paired] using hname)
    refine hQ _ (consistent_of_unpaired hunpaired fun k c hk hc => ?_) hunpaired
    rw [certs_setCert, if_pos rfl] at hc
    obtain rfl := Option.some.inj hc
    exact (hs.2 k hk).symm

/-- A new CA is generated. -/
lemma outlines_atGenerateCaKey {Q : CertDir → Prop} (hrest : Outlines certifiable call rest Q)
    (hQ : ∀ s, Consistent s → Unpaired s → Q s) :
    Outlines certifiable call (atGenerateCaKey rest) Consistent := by
  refine ⟨stable_of (fun _ hs => hs) fun s f hs _ => hs.delete f,
    fun _ _ hraise => (nomatch hraise), fun _ => Consistent, fun s r t hs _ hperform => ?_,
    fun (key : ℕ) => ?_⟩
  · obtain ⟨-, rfl⟩ := Prod.mk.inj (Option.some.inj hperform)
    exact ⟨hs.matched, hs.signed⟩
  · refine ⟨stable_of (fun _ hs => hs) fun s f hs _ => hs.delete f,
      fun _ _ hraise => (nomatch hraise),
      fun _ s => Unpaired s ∧ ∀ k, s.keys .ca = some k → k = key,
      fun s r t hs hcareful hperform => ?_, fun _ => outlines_atWriteCaCert hrest hQ⟩
    obtain ⟨-, rfl⟩ := Prod.mk.inj (Option.some.inj hperform)
    refine ⟨fun name hname => hcareful call key _ rfl name ?_, fun k hk => ?_⟩
    · simpa [CertDir.Paired] using hname
    · rw [keys_setKey, if_pos rfl] at hk
      exact (Option.some.inj hk).symm

/-- A careful operator does not delete a file that the rest of a call does not touch. -/
lemma ne_of_careful {s : CertDir} {p : CertProgram (File × File)} {f g : File}
    (h : Careful ⟨s, some (.leaf host, p)⟩ (.disturb f))
    (hg : g.owner = .ca ∨ g.owner = hostOwner host)
    (hpassed : p.Passed FileOp.perform (Touches g) s) : f ≠ g := by
  rintro rfl
  exact h host p rfl hg hpassed

/-- A file of the CA is none of a host's. -/
lemma ne_of_owner {g : File} (hg : g.owner = .ca) :
    g ≠ .key (hostOwner host) ∧ g ≠ .cert (hostOwner host) := by
  constructor
  · rintro rfl
    cases hg
  · rintro rfl
    cases hg

/-- A question for a file: something is known where it is there, else the invariant. -/
lemma outlines_present {f : File} {p q : CertProgram (File × File)} {P P' : CertDir → Prop}
    (hI : ∀ s, P s → Consistent s)
    (hdisturb : ∀ s g, P s →
      Careful ⟨s, some (call, .op (.present f) fun b => bif b then p else q)⟩ (.disturb g) →
      P (s.delete g))
    (hfound : ∀ s, P s → (s.content f).isSome → P' s) (hp : Outlines certifiable call p P')
    (hq : Outlines certifiable call q Consistent) :
    Outlines certifiable call (.op (.present f) fun b => bif b then p else q) P := by
  refine ⟨stable_of hI hdisturb, fun _ _ hraise => (nomatch hraise),
    fun (b : Bool) s => bif b then P' s else Consistent s, fun s r t hs _ hperform => ?_,
    fun (b : Bool) => ?_⟩
  · obtain ⟨rfl, rfl⟩ := Prod.mk.inj (Option.some.inj hperform)
    cases hf : (s.content f).isSome with
    | false => exact hI s hs
    | true => exact hfound s hs hf
  · cases b with
    | false => exact hq
    | true => exact hp

lemma currentCa_of_paired {s : CertDir} (h : s.Paired .ca) :
    currentCa s = s.content (.cert .ca) := by
  have heval : ensureCaCertificate.eval FileOp.perform s = some ((.key .ca, .cert .ca), s) := by
    rw [ensureCaCertificate_eq]
    simp [atCaKeyExists, atCaCertExists, Program.eval, FileOp.perform, CertDir.content, h.1, h.2]
  rw [currentCa, heval]
  rfl

/-- Both files of the host are there and are to be returned. -/
lemma outlines_ret :
    Outlines certifiable (.leaf host) (.ret (leafPaths host)) fun s =>
      Consistent s ∧ Fits host s ∧ s.Paired (hostOwner host) ∧ s.Paired .ca := by
  refine ⟨stable_of (fun _ hs => hs.1) fun s f hs hcareful => ?_, fun _ hs => hs.1,
    fun s hs => ?_⟩
  · obtain ⟨hs, hfits, hleaf, hca⟩ := hs
    have hf : ∀ o, o = .ca ∨ o = hostOwner host → f ≠ .key o ∧ f ≠ .cert o :=
      fun o ho => ⟨ne_of_careful hcareful ho trivial, ne_of_careful hcareful ho trivial⟩
    exact ⟨hs.delete f, hfits.delete f, paired_delete.mpr ⟨hleaf, hf _ (.inr rfl)⟩,
      paired_delete.mpr ⟨hca, hf _ (.inl rfl)⟩⟩
  · obtain ⟨hs, hfits, hleaf, hca⟩ := hs
    obtain ⟨k, hk⟩ := Option.isSome_iff_exists.mp hleaf.1
    obtain ⟨c, hc⟩ := Option.isSome_iff_exists.mp hleaf.2
    obtain ⟨ca, hcert⟩ := Option.isSome_iff_exists.mp hca.2
    refine ⟨c, ca, by rw [leafPaths, CertDir.content, hc]; rfl, ?_, hfits hleaf c hc, ?_,
      hs.signed _ c ca hleaf hca hc hcert⟩
    · rw [leafPaths, CertDir.content, hk, hs.matched _ k c hk hc]
      rfl
    · rw [currentCa_of_paired hca, CertDir.content, hcert]
      rfl

/-- The key is written, and the certificate is to be. -/
lemma outlines_atWriteCert {caKey key : ℕ} :
    Outlines certifiable (.leaf host) (atWriteCert host caKey key) fun s =>
      Consistent (s.delete (.cert (hostOwner host))) ∧ s.keys (hostOwner host) = some key ∧
        s.keys .ca = some caKey ∧ ∃ ca, s.certs .ca = some ca ∧ ca.publicKey = caKey := by
  refine ⟨⟨fun s f hs hcareful => ?_, fun s hs hcareful => ?_⟩, fun _ _ hraise => (nomatch hraise),
    fun _ s => Consistent s ∧ Fits host s ∧ s.Paired (hostOwner host) ∧ s.Paired .ca,
    fun s r t hs _ hperform => ?_, fun _ => outlines_ret⟩
  -- a file is deleted that the call has not passed
  · obtain ⟨hs, hkey, hcaKey, ca, hca, hpublic⟩ := hs
    have hf : ∀ g : File, g.owner = .ca ∨ g.owner = hostOwner host → g ≠ .cert (hostOwner host) →
        f ≠ g := fun g hg hne => ne_of_careful hcareful hg (passed_atWriteCert hne)
    refine ⟨?_, ?_, ?_, ca, ?_, hpublic⟩
    · show Consistent ((s.delete f).delete _)
      rw [delete_comm]
      exact hs.delete f
    · exact (keys_delete_of_ne (hf _ (.inr rfl) (by simp))).trans hkey
    · exact (keys_delete_of_ne (hf _ (.inl rfl) (by simp))).trans hcaKey
    · exact (certs_delete_of_ne (hf _ (.inl rfl) (by simp))).trans hca
  -- the call is cut off before the certificate is written
  · have hnone := hcareful _ _ _ _ rfl
    have hconsistent := hs.1
    rwa [delete_cert_of_none hnone] at hconsistent
  -- it is written, for the key that is there
  · obtain ⟨hs, hkey, hcaKey, ca, hca, hpublic⟩ := hs
    obtain ⟨-, rfl⟩ := Prod.mk.inj (Option.some.inj hperform)
    refine ⟨hs.setCert hkey fun ca' hca' => ?_, fun _ c hc => ?_, ?_, ?_⟩
    · rw [hca] at hca'
      obtain rfl := Option.some.inj hca'
      exact hpublic.symm
    · rw [certs_setCert, if_pos rfl] at hc
      rw [← Option.some.inj hc]
    · simp [CertDir.Paired, hkey]
    · simp [CertDir.Paired, hcaKey, hca]

/-- The key is generated, and is to be written. -/
lemma outlines_atWriteKey {caKey key : ℕ} :
    Outlines certifiable (.leaf host) (atWriteKey host caKey key) fun s =>
      Consistent s ∧ s.keys .ca = some caKey ∧ (s.certs .ca).isSome := by
  refine ⟨stable_of (fun _ hs => hs.1) fun s f hs hcareful => ?_,
    fun _ _ hraise => (nomatch hraise), _, fun s r t hs _ hperform => ?_,
    fun _ => outlines_atWriteCert⟩
  · obtain ⟨hs, hcaKey, hca⟩ := hs
    have hf : ∀ g : File, g.owner = .ca → f ≠ g := fun g hg =>
      ne_of_careful hcareful (.inl hg) (passed_atWriteKey (ne_of_owner hg).1 (ne_of_owner hg).2)
    refine ⟨hs.delete f, (keys_delete_of_ne (hf _ rfl)).trans hcaKey, ?_⟩
    exact (congrArg Option.isSome (certs_delete_of_ne (hf _ rfl))).trans hca
  · obtain ⟨hs, hcaKey, hca⟩ := hs
    obtain ⟨-, rfl⟩ := Prod.mk.inj (Option.some.inj hperform)
    obtain ⟨ca, hca⟩ := Option.isSome_iff_exists.mp hca
    refine ⟨hs.setKey _ key, by simp, by simpa using hcaKey, ca, hca, ?_⟩
    exact hs.matched _ caKey ca hcaKey hca

/-- The files of the CA were read. They count if a certificate can be built. -/
lemma outlines_atGenerateKey {caKey : ℕ} :
    Outlines certifiable (.leaf host) (atGenerateKey certifiable host caKey) fun s =>
      Consistent s ∧ (certifiable host = true →
        s.keys .ca = some caKey ∧ (s.certs .ca).isSome) := by
  refine ⟨stable_of (fun _ hs => hs.1) fun s f hs hcareful => ?_,
    fun _ _ hraise => (nomatch hraise), fun _ s => Consistent s ∧ (certifiable host = true →
      s.keys .ca = some caKey ∧ (s.certs .ca).isSome), fun s r t hs _ hperform => ?_,
    fun (key : ℕ) => ?_⟩
  · refine ⟨hs.1.delete f, fun hhost => ?_⟩
    obtain ⟨hcaKey, hca⟩ := hs.2 hhost
    have hf : ∀ g : File, g.owner = .ca → f ≠ g := fun g hg =>
      ne_of_careful hcareful (.inl hg)
        (passed_atGenerateKey hhost (ne_of_owner hg).1 (ne_of_owner hg).2)
    exact ⟨(keys_delete_of_ne (hf _ rfl)).trans hcaKey,
      (congrArg Option.isSome (certs_delete_of_ne (hf _ rfl))).trans hca⟩
  · obtain ⟨-, rfl⟩ := Prod.mk.inj (Option.some.inj hperform)
    exact ⟨⟨hs.1.matched, hs.1.signed⟩, hs.2⟩
  · cases hhost : certifiable host with
    | false =>
        exact ⟨stable_of (fun _ hs => hs.1) fun s f hs _ => ⟨hs.1.delete f, nofun⟩,
          fun _ hs => hs.1⟩
    | true =>
        have hwrite := @outlines_atWriteKey certifiable host caKey key
        simpa using hwrite

/-- The CA key was read, and counts if its certificate can be read. -/
lemma outlines_atReadCaCert {caKey : ℕ} :
    Outlines certifiable (.leaf host) (atReadCaCert certifiable host caKey) fun s =>
      Consistent s ∧ (certifiable host = true → (s.certs .ca).isSome →
        s.keys .ca = some caKey) := by
  refine ⟨stable_of (fun _ hs => hs.1) fun s f hs hcareful => ?_, fun _ hs _ => hs.1, fun _ => _,
    fun s r t hs _ hperform => ?_, fun _ => outlines_atGenerateKey⟩
  · refine ⟨hs.1.delete f, fun hhost hca => ?_⟩
    have hca' : (s.certs .ca).isSome := (isSome_of_delete hca).1
    have hf : f ≠ .key .ca :=
      ne_of_careful hcareful (.inl rfl) (passed_atReadCaCert hhost hca')
    exact (keys_delete_of_ne hf).trans (hs.2 hhost hca')
  · obtain ⟨ca, hca, hperform⟩ := Option.map_eq_some_iff.mp hperform
    obtain ⟨-, rfl⟩ := Prod.mk.inj hperform
    exact ⟨hs.1, fun hhost => ⟨hs.2 hhost (by rw [hca]; rfl), by rw [hca]; rfl⟩⟩

/-- The certificate of the host has to be issued. -/
lemma outlines_atReadCaKey :
    Outlines certifiable (.leaf host) (atReadCaKey certifiable host) Consistent := by
  refine ⟨stable_of (fun _ hs => hs) fun s f hs _ => hs.delete f, fun _ hs _ => hs, fun caKey s =>
    Consistent s ∧ (certifiable host = true → (s.certs .ca).isSome → s.keys .ca = some caKey),
    fun s r t hs _ hperform => ?_, fun _ => outlines_atReadCaCert⟩
  obtain ⟨k, hk, hperform⟩ := Option.map_eq_some_iff.mp hperform
  obtain ⟨rfl, rfl⟩ := Prod.mk.inj hperform
  exact ⟨hs, fun _ _ => hk⟩

/-- The certificate of the host was there. It counts if its key is there. -/
lemma outlines_atKeyExists :
    Outlines certifiable (.leaf host) (atKeyExists certifiable host) fun s =>
      Consistent s ∧ Fits host s ∧ ((s.keys (hostOwner host)).isSome →
        (s.certs (hostOwner host)).isSome ∧ s.Paired .ca) := by
  refine outlines_present (fun _ hs => hs.1) (fun s f hs hcareful => ?_) (fun s hs hkey => ?_)
    outlines_ret outlines_atReadCaKey
  · obtain ⟨hs, hfits, hleaf⟩ := hs
    refine ⟨hs.delete f, hfits.delete f, fun hkey => ?_⟩
    obtain ⟨hkey, hne⟩ := isSome_of_delete_key hkey
    have hf : ∀ g : File, g.owner = .ca ∨ g.owner = hostOwner host → g ≠ .key (hostOwner host) →
        f ≠ g := fun g hg hne => ne_of_careful hcareful hg (passed_atKeyExists hkey hne)
    obtain ⟨hcert, hca⟩ := hleaf hkey
    refine ⟨?_, paired_delete.mpr ⟨hca, hf _ (.inl rfl) (by simp), hf _ (.inl rfl) (by simp)⟩⟩
    exact (congrArg Option.isSome (certs_delete_of_ne (hf _ (.inr rfl) (by simp)))).trans hcert
  · obtain ⟨hs, hfits, hleaf⟩ := hs
    rw [CertDir.content, Option.isSome_map] at hkey
    exact ⟨hs, hfits, ⟨hkey, (hleaf hkey).1⟩, (hleaf hkey).2⟩

/-- The CA is there, or there is no certificate of the host. -/
lemma outlines_atCertExists :
    Outlines certifiable (.leaf host) (atCertExists certifiable host) fun s =>
      Consistent s ∧ Fits host s ∧ (s.Paired (hostOwner host) → s.Paired .ca) := by
  refine outlines_present (fun _ hs => hs.1) (fun s f hs hcareful => ?_) (fun s hs hcert => ?_)
    outlines_atKeyExists outlines_atReadCaKey
  · obtain ⟨hs, hfits, hleaf⟩ := hs
    refine ⟨hs.delete f, hfits.delete f, fun hpaired => ?_⟩
    obtain ⟨hpaired, -⟩ := paired_delete.mp hpaired
    have hf : ∀ g : File, g.owner = .ca → f ≠ g := fun g hg =>
      ne_of_careful hcareful (.inl hg)
        (passed_atCertExists hpaired (ne_of_owner hg).1 (ne_of_owner hg).2)
    exact paired_delete.mpr ⟨hleaf hpaired, hf _ rfl, hf _ rfl⟩
  · obtain ⟨hs, hfits, hleaf⟩ := hs
    rw [CertDir.content, Option.isSome_map] at hcert
    exact ⟨hs, hfits, fun hkey => ⟨hcert, hleaf ⟨hkey, hcert⟩⟩⟩

/-- A new CA is generated for a leaf certificate. -/
lemma outlines_leaf_generateCa :
    Outlines certifiable (.leaf host) (atGenerateCaKey (atCertExists certifiable host))
      Consistent := by
  refine outlines_atGenerateCaKey outlines_atCertExists fun s hs hunpaired => ?_
  exact ⟨hs, fun h => absurd h (hunpaired _), fun h => absurd h (hunpaired _)⟩

/-- The CA key was there. It counts if the other files are there. -/
lemma outlines_atCaCertExists :
    Outlines certifiable (.leaf host) (atCaCertExists (atCertExists certifiable host)) fun s =>
      Consistent s ∧ Fits host s ∧ (s.Paired (hostOwner host) → (s.certs .ca).isSome →
        (s.keys .ca).isSome) := by
  refine outlines_present (fun _ hs => hs.1) (fun s f hs hcareful => ?_) (fun s hs hcert => ?_)
    outlines_atCertExists outlines_leaf_generateCa
  · obtain ⟨hs, hfits, hca⟩ := hs
    refine ⟨hs.delete f, hfits.delete f, fun hpaired hcert => ?_⟩
    obtain ⟨hpaired, -⟩ := paired_delete.mp hpaired
    obtain ⟨hcert, -⟩ := isSome_of_delete hcert
    have hf : f ≠ .key .ca :=
      ne_of_careful hcareful (.inl rfl) (passed_atCaCertExists hpaired hcert)
    exact (congrArg Option.isSome (keys_delete_of_ne hf)).trans (hca hpaired hcert)
  · obtain ⟨hs, hfits, hca⟩ := hs
    rw [CertDir.content, Option.isSome_map] at hcert
    exact ⟨hs, hfits, fun hpaired => ⟨hca hpaired hcert, hcert⟩⟩

/-- A call for a leaf certificate begins. -/
lemma outlines_leaf :
    Outlines certifiable (.leaf host) (ensureLeafCertificate certifiable host) fun s =>
      Consistent s ∧ Fits host s := by
  rw [ensureLeafCertificate_eq]
  refine outlines_present (fun _ hs => hs.1) (fun s f hs _ => ⟨hs.1.delete f, hs.2.delete f⟩)
    (fun s hs hkey => ?_) outlines_atCaCertExists outlines_leaf_generateCa
  rw [CertDir.content, Option.isSome_map] at hkey
  exact ⟨hs.1, hs.2, fun _ _ => hkey⟩

/-- A call for the CA, which guarantees nothing but the invariant. -/
lemma outlines_ca : Outlines certifiable .ca ensureCaCertificate Consistent := by
  have hdelete : ∀ s f, Consistent s → Consistent (s.delete f) := fun s f hs => hs.delete f
  have hret : Outlines certifiable .ca (.ret (.key .ca, .cert .ca)) Consistent :=
    ⟨stable_of (fun _ hs => hs) fun s f hs _ => hdelete s f hs, fun _ hs => hs,
      fun _ _ => trivial⟩
  have hgenerate := outlines_atGenerateCaKey hret fun s hs _ => hs
  have hcert : Outlines certifiable .ca (atCaCertExists (.ret (.key .ca, .cert .ca)))
      Consistent :=
    outlines_present (fun _ hs => hs) (fun s f hs _ => hdelete s f hs) (fun _ hs _ => hs) hret
      hgenerate
  rw [ensureCaCertificate_eq]
  exact outlines_present (fun _ hs => hs) (fun s f hs _ => hdelete s f hs) (fun _ hs _ => hs)
    hcert hgenerate

end Outlines

/-! ### Every run -/

/-- **Every leaf certificate** that is returned in a run of careful steps matches its key,
is for its host and is signed by the current CA. -/
theorem served_of_careful (certifiable : PyStr → Bool)
    {l : List (CertConfig × Action CertCall File)} {c : CertConfig}
    (hrun : (certMachine certifiable).system.Path (certMachine certifiable).system.init l c)
    (hcareful : ∀ x ∈ l, Careful x.1 x.2) {host : PyStr} {paths : File × File}
    (hret : Returns c (.leaf host) paths) : LeafServed host paths c.store := by
  have hstart : ∀ s call, Consistent s → Careful ⟨s, none⟩ (.start call) →
      ∃ P, P s ∧ Outlines certifiable call ((certMachine certifiable).body call) P := by
    intro s call hs hcall
    cases call with
    | ca => exact ⟨Consistent, hs, outlines_ca⟩
    | leaf host => exact ⟨_, ⟨hs, hcall⟩, outlines_leaf⟩
  have hinit : Consistent (certMachine certifiable).init :=
    ⟨fun _ _ _ hk => (nomatch hk), fun _ _ _ _ _ hc => (nomatch hc)⟩
  exact post_of_outline hstart (fun s f hs _ => hs.delete f) hinit hrun hcareful hret

/-! ### Two runs -/

/-- The first call for a host, on an empty directory. -/
def firstIssue : List (Action CertCall File) := .start (.leaf (py "a")) :: List.replicate 10 .go

/-- The directory after it. -/
def issuedDir : CertDir :=
  let empty : CertDir := ⟨fun _ => none, fun _ => none, 2⟩
  let ca := (empty.setKey .ca 0).setCert .ca ⟨none, 0, 0⟩
  (ca.setKey (hostOwner (py "a")) 1).setCert (hostOwner (py "a")) ⟨some (py "a"), 1, 0⟩

lemma exec_firstIssue :
    (certMachine fun _ => true).system.exec (certMachine fun _ => true).system.init firstIssue
      = some ⟨issuedDir, some (.leaf (py "a"), .ret (leafPaths (py "a")))⟩ := rfl

lemma careful_go {c : CertConfig} (h : ∀ name, c.store.certs (.leaf name) = none) :
    Careful c .go := by
  intro call k next _ name hpaired
  rw [CertDir.Paired, h name] at hpaired
  exact Bool.false_ne_true hpaired.2

theorem served_firstIssue : LeafServed (py "a") (leafPaths (py "a")) issuedDir := by
  refine served_of_careful (fun _ => true) (System.Path.of_exec exec_firstIssue) ?_ rfl
  refine List.forall_mem_cons.mpr ⟨fun h => absurd h.1 Bool.false_ne_true, ?_⟩
  iterate 10 refine List.forall_mem_cons.mpr ⟨careful_go fun _ => rfl, ?_⟩
  exact List.forall_mem_nil _

/-- The operator deletes the CA certificate, and the host is asked for again. -/
def staleIssue : List (Action CertCall File) :=
  firstIssue ++ [.go, .disturb (.cert .ca), .start (.leaf (py "a"))] ++ List.replicate 7 .go

/-- The directory then: the CA is new, the leaf certificate is not. -/
def staleDir : CertDir :=
  let ca : CertDir := { (issuedDir.delete (.cert .ca)).setKey .ca 2 with next := 3 }
  ca.setCert .ca ⟨none, 2, 2⟩

lemma exec_staleIssue :
    (certMachine fun _ => true).system.exec (certMachine fun _ => true).system.init staleIssue
      = some ⟨staleDir, some (.leaf (py "a"), .ret (leafPaths (py "a")))⟩ := rfl

/-- A leaf certificate that an old CA has signed is returned. -/
theorem not_servesCurrent : ¬ServesCurrent fun _ => true := by
  intro h
  obtain ⟨cert, ca, hcert, -, -, hca, hsigner⟩ :=
    h _ _ (System.Path.of_exec exec_staleIssue) (py "a") (leafPaths (py "a")) rfl
  have hleaf : staleDir.content (leafPaths (py "a")).1
      = some (.certificate ⟨some (py "a"), 1, 0⟩) := rfl
  have hcurrent : currentCa staleDir = some (.certificate ⟨none, 2, 2⟩) := rfl
  obtain rfl := Content.certificate.inj (Option.some.inj (hleaf.symm.trans hcert))
  obtain rfl := Content.certificate.inj (Option.some.inj (hcurrent.symm.trans hca))
  exact absurd hsigner (by decide)

end CodexResetProxy
