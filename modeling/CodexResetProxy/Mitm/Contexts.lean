import CodexResetProxy.Library.Expectation
import CodexResetProxy.Mitm.Issuance

/-!
The TLS contexts of intercepted connections (`server_ssl_context_for_host`): a key and a
certificate are issued for the host where they are not there, and loaded together.

* `serverSslContextForHost`: the pair that is loaded; `contextMachine`: the calls of the
  server, with crashes and deletions.
* `pinned_of_path`: a pair of files stays as it is until the operator deletes one of them,
  and every context for the host has that pair. If the two do not match, there is none.
* `serves_iff`: when a call that nothing interferes with has a context, and which.
-/

namespace CodexResetProxy

open PyStr Interruption Machine Transition

/-- `context.load_cert_chain`, which raises where the key is not that of the certificate. -/
def loadCertChain (certPath keyPath : File) : CertProgram (Certificate × ℕ) := do
  let cert ← readCert certPath.owner
  let key ← readKey keyPath.owner
  if cert.publicKey = key then return (cert, key) else Program.raise

/-- `server_ssl_context_for_host`: the context has the pair that was loaded. -/
def serverSslContextForHost (certifiable : PyStr → Bool) (host : PyStr) :
    CertProgram (Certificate × ℕ) := do
  let paths ← ensureLeafCertificate certifiable host
  loadCertChain paths.1 paths.2

/-- The calls of the server: for the CA when it starts, and for the host of an intercepted
connection. -/
def contextMachine (certifiable : PyStr → Bool) :
    Machine CertDir CertCall File (Option (Certificate × ℕ)) FileOp.Res where
  init := ⟨fun _ => none, fun _ => none, 0⟩
  perform := FileOp.perform
  body
    | .ca => ensureCaCertificate.bind fun _ => .ret none
    | .leaf host =>
        (serverSslContextForHost certifiable host).bind fun context => .ret (some context)
  disturb f s := s.delete f

/-- A directory and a call that is running. -/
abbrev ContextConfig :=
  Machine.Config CertDir CertCall (Option (Certificate × ℕ)) FileOp.Res

/-! ### Pairs that are there -/

/-- An operation that leaves the files of an owner alone. -/
def Spares (o : Owner) : FileOp → Prop
  | .writeKey o' _ => o' ≠ o
  | .writeCert o' _ => o' ≠ o
  | _ => True

/-- What an operation answers while an owner has a key and a certificate. -/
def Shows (o : Owner) (cert : Certificate) (key : ℕ) : (op : FileOp) → op.Res → Prop
  | .present f, b => f.owner = o → b = true
  | .readKey o', k => o' = o → k = key
  | .readCert o', c => o' = o → c = cert
  | .generateKey, _ => True
  | .writeKey _ _, _ => True
  | .writeCert _ _, _ => True

/-- An owner has a key and a certificate. -/
def Pinned (o : Owner) (cert : Certificate) (key : ℕ) (s : CertDir) : Prop :=
  s.certs o = some cert ∧ s.keys o = some key

section Pinned

variable {certifiable : PyStr → Bool} {host : PyStr} {o : Owner} {cert : Certificate} {key : ℕ}

lemma pinned_perform {op : FileOp} {s t : CertDir} {r : op.Res} (hop : Spares o op)
    (hs : Pinned o cert key s) (hperform : op.perform s = some (r, t)) :
    Pinned o cert key t ∧ Shows o cert key op r := by
  obtain ⟨hcert, hkey⟩ := hs
  cases op with
  | present f =>
      obtain ⟨rfl, rfl⟩ := Prod.mk.inj (Option.some.inj hperform)
      refine ⟨⟨hcert, hkey⟩, fun hf => ?_⟩
      show (s.content f).isSome = true
      subst hf
      cases f with
      | key o' =>
          rw [CertDir.content, Option.isSome_map]
          exact Option.isSome_of_eq_some hkey
      | cert o' =>
          rw [CertDir.content, Option.isSome_map]
          exact Option.isSome_of_eq_some hcert
  | readKey o' =>
      -- what is read is what is written
      obtain ⟨k, hk, heq⟩ := Option.map_eq_some_iff.mp hperform
      obtain ⟨rfl, rfl⟩ := Prod.mk.inj heq
      refine ⟨⟨hcert, hkey⟩, fun ho => ?_⟩
      subst ho
      exact Option.some.inj (hk.symm.trans hkey)
  | readCert o' =>
      obtain ⟨c, hc, heq⟩ := Option.map_eq_some_iff.mp hperform
      obtain ⟨rfl, rfl⟩ := Prod.mk.inj heq
      refine ⟨⟨hcert, hkey⟩, fun ho => ?_⟩
      subst ho
      exact Option.some.inj (hc.symm.trans hcert)
  | generateKey =>
      obtain ⟨-, rfl⟩ := Prod.mk.inj (Option.some.inj hperform)
      exact ⟨⟨hcert, hkey⟩, trivial⟩
  | writeKey o' k =>
      -- what is written belongs to another owner
      obtain ⟨-, rfl⟩ := Prod.mk.inj (Option.some.inj hperform)
      refine ⟨⟨hcert, ?_⟩, trivial⟩
      rw [keys_setKey, if_neg (Ne.symm hop)]
      exact hkey
  | writeCert o' c =>
      obtain ⟨-, rfl⟩ := Prod.mk.inj (Option.some.inj hperform)
      refine ⟨⟨?_, hkey⟩, trivial⟩
      rw [certs_setCert, if_neg (Ne.symm hop)]
      exact hcert

/-- What is left of a call leaves the pair alone, and returns what is accepted. -/
abbrev Leaves {α : Type} (o : Owner) (cert : Certificate) (key : ℕ) (Accepted : α → Prop)
    (p : CertProgram α) : Prop :=
  p.Sound (Spares o) (Shows o cert key) Accepted

lemma leaves_atCaKeyExists {Accepted : File × File → Prop} {rest : CertProgram (File × File)}
    (hrest : Leaves o cert key Accepted rest) :
    Leaves o cert key Accepted (atCaKeyExists rest) := by
  have hgenerate : o ≠ .ca → Leaves o cert key Accepted (atGenerateCaKey rest) := fun ho =>
    ⟨trivial, fun _ _ => ⟨Ne.symm ho, fun _ _ => ⟨Ne.symm ho, fun _ _ => hrest⟩⟩⟩
  refine ⟨trivial, fun (b : Bool) hb => ?_⟩
  cases b with
  | false => exact hgenerate fun ho => Bool.false_ne_true (hb ho.symm)
  | true =>
      refine ⟨trivial, fun (b : Bool) hb => ?_⟩
      cases b with
      | false => exact hgenerate fun ho => Bool.false_ne_true (hb ho.symm)
      | true => exact hrest

lemma leaves_ensureCaCertificate : Leaves o cert key (fun _ => True) ensureCaCertificate := by
  rw [ensureCaCertificate_eq]
  exact leaves_atCaKeyExists trivial

lemma leaves_ensureLeafCertificate :
    Leaves o cert key (fun paths => paths = leafPaths host)
      (ensureLeafCertificate certifiable host) := by
  have hissue : o ≠ hostOwner host → Leaves o cert key (fun paths => paths = leafPaths host)
      (atReadCaKey certifiable host) := by
    intro ho
    refine ⟨trivial, fun _ _ => ⟨trivial, fun _ _ => ⟨trivial, fun k _ => ?_⟩⟩⟩
    dsimp only
    split_ifs
    · exact ⟨Ne.symm ho, fun _ _ => ⟨Ne.symm ho, fun _ _ => rfl⟩⟩
    · trivial
  rw [ensureLeafCertificate_eq]
  refine leaves_atCaKeyExists ⟨trivial, fun (b : Bool) hb => ?_⟩
  cases b with
  | false => exact hissue fun ho => Bool.false_ne_true (hb ho.symm)
  | true =>
      refine ⟨trivial, fun (b : Bool) hb => ?_⟩
      cases b with
      | false => exact hissue fun ho => Bool.false_ne_true (hb ho.symm)
      | true => rfl

/-- A context for a host that has the pair is that pair, and it matches. -/
lemma leaves_serverSslContextForHost :
    Leaves o cert key
      (fun context => o = hostOwner host → context = (cert, key) ∧ cert.publicKey = key)
      (serverSslContextForHost certifiable host) := by
  refine leaves_ensureLeafCertificate.bind fun paths hpaths => ?_
  subst hpaths
  refine ⟨trivial, fun (c : Certificate) hc => ⟨trivial, fun (k : ℕ) hk => ?_⟩⟩
  show Leaves o cert key _ (if c.publicKey = k then _ else _)
  split_ifs with hmatch
  · intro ho
    obtain rfl := hc ho.symm
    obtain rfl := hk ho.symm
    exact ⟨rfl, hmatch⟩
  · trivial

/-- The pair is there. A context for a host whose files these are is the pair, which
matches; so there is none if it does not. -/
structure StaysPinned (o : Owner) (cert : Certificate) (key : ℕ) (c : ContextConfig) : Prop where
  pinned : Pinned o cert key c.store
  contexts : ∀ host context, o = hostOwner host →
    c.running = some (.leaf host, .ret context) →
    context = some (cert, key) ∧ cert.publicKey = key

/-- **A pair of files is pinned**, in every run in which the operator deletes neither of
them, with crashes and other deletions anywhere. -/
theorem pinned_of_path {s : CertDir} {l : List (ContextConfig × Action CertCall File)}
    {c : ContextConfig} (hrun : (contextMachine certifiable).system.Path ⟨s, none⟩ l c)
    (hs : Pinned o cert key s)
    (hkept : ∀ x ∈ l, x.2 ≠ .disturb (.cert o) ∧ x.2 ≠ .disturb (.key o)) :
    StaysPinned o cert key c := by
  have hbody : ∀ call, Leaves o cert key (fun context => ∀ host, call = .leaf host →
      o = hostOwner host → context = some (cert, key) ∧ cert.publicKey = key)
      ((contextMachine certifiable).body call) := by
    intro call
    cases call with
    | ca => exact leaves_ensureCaCertificate.bind fun _ _ _ hcall => (nomatch hcall)
    | leaf host =>
        refine leaves_serverSslContextForHost.bind fun context hcontext host' hcall ho => ?_
        obtain rfl := CertCall.leaf.inj hcall
        obtain ⟨rfl, hmatch⟩ := hcontext ho
        exact ⟨rfl, hmatch⟩
  have hdisturb : ∀ t f, Pinned o cert key t → f ≠ .cert o ∧ f ≠ .key o →
      Pinned o cert key (t.delete f) := fun t f ht hf =>
    ⟨(certs_delete_of_ne hf.1).trans ht.1, (keys_delete_of_ne hf.2).trans ht.2⟩
  have hop : ∀ op t r u, Spares o op → Pinned o cert key t →
      (contextMachine certifiable).perform op t = some (r, u) →
      Pinned o cert key u ∧ Shows o cert key op r := fun _ _ _ _ => pinned_perform
  obtain ⟨hpinned, hret⟩ := sound_of_path hop hdisturb hbody hrun hs
    fun x hx f hf => ⟨fun heq => (hkept x hx).1 (heq ▸ hf), fun heq => (hkept x hx).2 (heq ▸ hf)⟩
  exact ⟨hpinned, fun host context ho hrunning =>
    hret (.leaf host) context hrunning host rfl ho⟩

end Pinned

/-- A certificate is issued, the operator deletes its key, and the next call crashes when it
has written a new one. -/
def tornRun : List (Action CertCall File) :=
  .start (.leaf (py "a")) :: List.replicate 13 .go ++
    [.disturb (.key (hostOwner (py "a"))), .start (.leaf (py "a"))] ++ List.replicate 8 .go ++
    [.crash]

/-- The directory then: the certificate is for the old key. -/
def tornDir : CertDir :=
  { (issuedDir.delete (.key (hostOwner (py "a")))).setKey (hostOwner (py "a")) 2 with next := 3 }

/-- The next call for the host. -/
def tornCall : List (Action CertCall File) := .start (.leaf (py "a")) :: List.replicate 6 .go

lemma exec_tornCall :
    (contextMachine fun _ => true).system.exec ⟨tornDir, none⟩ tornCall
      = some ⟨tornDir, some (.leaf (py "a"), .raise)⟩ := rfl

/-- A crash has torn a pair, and it stays torn. -/
theorem pinned_tornDir :
    (contextMachine fun _ => true).system.exec (contextMachine fun _ => true).system.init tornRun
        = some ⟨tornDir, none⟩ ∧
      StaysPinned (hostOwner (py "a")) ⟨some (py "a"), 1, 0⟩ 2
        ⟨tornDir, some (.leaf (py "a"), .raise)⟩ := by
  refine ⟨rfl, pinned_of_path (System.Path.of_exec exec_tornCall) ⟨rfl, rfl⟩ fun x hx => ?_⟩
  have hmem := System.mem_of_mem_steps hx
  exact ⟨fun h => absurd (h ▸ hmem) (by decide), fun h => absurd (h ▸ hmem) (by decide)⟩

/-! ### Calls that nothing interferes with -/

section Undisturbed

variable {certifiable : PyStr → Bool} {host : PyStr} {s : CertDir}

/-- `ensure_ca_certificate` leaves the files of hosts alone, and there is a CA then. -/
lemma exists_eval_ca (s : CertDir) :
    ∃ t caKey ca, t.keys .ca = some caKey ∧ t.certs .ca = some ca ∧
      (∀ name, t.keys (.leaf name) = s.keys (.leaf name) ∧
        t.certs (.leaf name) = s.certs (.leaf name)) ∧
      ∀ rest : CertProgram (File × File), (atCaKeyExists rest).eval FileOp.perform s
        = rest.eval FileOp.perform t := by
  by_cases hca : s.Paired .ca
  · obtain ⟨k, hk⟩ := Option.isSome_iff_exists.mp hca.1
    obtain ⟨c, hc⟩ := Option.isSome_iff_exists.mp hca.2
    refine ⟨s, k, c, hk, hc, fun _ => ⟨rfl, rfl⟩, fun rest => ?_⟩
    simp [atCaKeyExists, atCaCertExists, Program.eval, FileOp.perform, CertDir.content, hk, hc]
  · let t := (({ s with next := s.next + 1 } : CertDir).setKey .ca s.next).setCert .ca
      ⟨none, s.next, s.next⟩
    have hgenerate : ∀ rest : CertProgram (File × File),
        (atGenerateCaKey rest).eval FileOp.perform s = rest.eval FileOp.perform t := fun _ => rfl
    refine ⟨t, s.next, ⟨none, s.next, s.next⟩, by simp [t], by simp [t], fun name => ?_,
      fun rest => ?_⟩
    · simp [t]
    · rw [← hgenerate]
      cases hkey : s.keys .ca with
      | none => simp [atCaKeyExists, Program.eval, FileOp.perform, CertDir.content, hkey]
      | some k =>
          have hcert : s.certs .ca = none := by
            by_contra hne
            exact hca ⟨by rw [hkey]; rfl, Option.isSome_iff_ne_none.mpr hne⟩
          simp [atCaKeyExists, atCaCertExists, Program.eval, FileOp.perform, CertDir.content, hkey,
            hcert]

/-- What is loaded of an owner's files. -/
lemma eval_loadCertChain {o : Owner} {cert : Certificate} {key : ℕ} (h : Pinned o cert key s) :
    (loadCertChain (.cert o) (.key o)).eval FileOp.perform s
      = if cert.publicKey = key then some ((cert, key), s) else none := by
  have hreadCert : FileOp.perform (.readCert o) s = some (cert, s) := by
    rw [FileOp.perform, h.1]
    rfl
  have hreadKey : FileOp.perform (.readKey o) s = some (key, s) := by
    rw [FileOp.perform, h.2]
    rfl
  refine (Program.eval_op hreadCert _).trans ((Program.eval_op hreadKey _).trans ?_)
  show Program.eval FileOp.perform (if cert.publicKey = key then _ else _) s = _
  split_ifs <;> rfl

/-- Both files of a host are there. -/
lemma eval_atCertExists_of_paired (h : s.Paired (hostOwner host)) :
    (atCertExists certifiable host).eval FileOp.perform s = some (leafPaths host, s) := by
  obtain ⟨k, hk⟩ := Option.isSome_iff_exists.mp h.1
  obtain ⟨c, hc⟩ := Option.isSome_iff_exists.mp h.2
  simp [atCertExists, atKeyExists, Program.eval, FileOp.perform, CertDir.content, hk, hc]

/-- One of them is not, and they are written. -/
lemma eval_atCertExists_of_not (h : ¬s.Paired (hostOwner host)) {caKey : ℕ} {ca : Certificate}
    (hkey : s.keys .ca = some caKey) (hcert : s.certs .ca = some ca) :
    (atCertExists certifiable host).eval FileOp.perform s
      = if certifiable host then
          some (leafPaths host, (({ s with next := s.next + 1 } : CertDir).setKey (hostOwner host)
            s.next).setCert (hostOwner host) ⟨some host, s.next, caKey⟩)
        else none := by
  have hissue : (atCertExists certifiable host).eval FileOp.perform s
      = (atReadCaKey certifiable host).eval FileOp.perform s := by
    cases hc : s.certs (hostOwner host) with
    | none => simp [atCertExists, Program.eval, FileOp.perform, CertDir.content, hc]
    | some c =>
        have hk : s.keys (hostOwner host) = none := by
          by_contra hne
          exact h ⟨Option.isSome_iff_ne_none.mpr hne, by rw [hc]; rfl⟩
        simp [atCertExists, atKeyExists, Program.eval, FileOp.perform, CertDir.content, hc, hk]
  have hreadKey : FileOp.perform (.readKey .ca) s = some (caKey, s) := by
    rw [FileOp.perform, hkey]
    rfl
  have hreadCert : FileOp.perform (.readCert .ca) s = some (ca, s) := by
    rw [FileOp.perform, hcert]
    rfl
  rw [hissue]
  refine (Program.eval_op hreadKey _).trans ((Program.eval_op hreadCert _).trans ?_)
  show Program.eval FileOp.perform (if certifiable host then _ else _) _ = _
  split_ifs <;> rfl

/-- How a context comes about: with the files that were there, or with new ones, for the
host and signed by the CA. -/
structure ServedBy (host : PyStr) (s t : CertDir) (context : Certificate × ℕ) : Prop where
  loaded : Pinned (hostOwner host) context.1 context.2 t
  matched : context.1.publicKey = context.2
  old : s.Paired (hostOwner host) → Pinned (hostOwner host) context.1 context.2 s
  new : ¬s.Paired (hostOwner host) →
    context.1.subject = some host ∧ t.keys .ca = some context.1.signer

/-- **When a call has a context**: if the files of the host match, or one of them is not
there and a certificate can be issued. -/
theorem serves_iff (certifiable : PyStr → Bool) (host : PyStr) (s : CertDir) :
    ((∃ context t, (serverSslContextForHost certifiable host).eval FileOp.perform s
        = some (context, t)) ↔
      (∃ cert key, Pinned (hostOwner host) cert key s ∧ cert.publicKey = key) ∨
        ¬s.Paired (hostOwner host) ∧ certifiable host = true) ∧
    ∀ context t, (serverSslContextForHost certifiable host).eval FileOp.perform s
      = some (context, t) → ServedBy host s t context := by
  -- the CA is ensured first, and leaves the files of the host as they are
  obtain ⟨u, caKey, ca, hkey, hcert, hsame, heval⟩ := exists_eval_ca s
  have hpaired : u.Paired (hostOwner host) ↔ s.Paired (hostOwner host) := by
    rw [CertDir.Paired, CertDir.Paired, (hsame _).1, (hsame _).2]
  have hall : (serverSslContextForHost certifiable host).eval FileOp.perform s
      = ((atCertExists certifiable host).eval FileOp.perform u).bind fun x =>
        (loadCertChain x.1.1 x.1.2).eval FileOp.perform x.2 := by
    refine (Program.eval_bind FileOp.perform _ _ s).trans ?_
    rw [ensureLeafCertificate_eq, heval]
  rw [hall]
  -- both files are there, and are loaded as they are
  by_cases h : s.Paired (hostOwner host)
  · obtain ⟨key, hk⟩ := Option.isSome_iff_exists.mp h.1
    obtain ⟨cert, hc⟩ := Option.isSome_iff_exists.mp h.2
    have hpinned : Pinned (hostOwner host) cert key u :=
      ⟨(hsame _).2.trans hc, (hsame _).1.trans hk⟩
    have hload : (loadCertChain (leafPaths host).1 (leafPaths host).2).eval FileOp.perform u
        = if cert.publicKey = key then some ((cert, key), u) else none := eval_loadCertChain hpinned
    rw [eval_atCertExists_of_paired (hpaired.mpr h), Option.bind_some, hload]
    refine ⟨?_, fun context t heq => ?_⟩
    · split_ifs with hmatch
      · exact iff_of_true ⟨_, _, rfl⟩ (.inl ⟨cert, key, ⟨hc, hk⟩, hmatch⟩)
      · refine iff_of_false (by simp) ?_
        rintro (⟨cert', key', hpinned', hmatch'⟩ | ⟨hnot, -⟩)
        · obtain rfl := Option.some.inj (hc.symm.trans hpinned'.1)
          obtain rfl := Option.some.inj (hk.symm.trans hpinned'.2)
          exact hmatch hmatch'
        · exact hnot h
    · split_ifs at heq with hmatch
      obtain ⟨rfl, rfl⟩ := Prod.mk.inj (Option.some.inj heq)
      exact ⟨hpinned, hmatch, fun _ => ⟨hc, hk⟩, fun hnot => absurd h hnot⟩
  -- one of them is not there, and a certificate is issued if it can be
  · rw [eval_atCertExists_of_not (hpaired.not.mpr h) hkey hcert]
    have hload : ∀ cert key t, Pinned (hostOwner host) cert key t → cert.publicKey = key →
        (loadCertChain (leafPaths host).1 (leafPaths host).2).eval FileOp.perform t
          = some ((cert, key), t) := fun cert key t ht hmatch =>
      (eval_loadCertChain ht).trans (if_pos hmatch)
    by_cases hhost : certifiable host = true
    · rw [if_pos hhost, Option.bind_some,
        hload ⟨some host, u.next, caKey⟩ u.next _ ⟨by simp, by simp⟩ rfl]
      refine ⟨iff_of_true ⟨_, _, rfl⟩ (.inr ⟨h, hhost⟩), fun context t heq => ?_⟩
      obtain ⟨rfl, rfl⟩ := Prod.mk.inj (Option.some.inj heq)
      exact ⟨⟨by simp, by simp⟩, rfl, fun hold => absurd hold h, fun _ => ⟨rfl, by simp [hkey]⟩⟩
    · rw [if_neg hhost]
      refine ⟨iff_of_false (by simp) ?_, fun context t heq =>
        absurd heq.symm (Option.some_ne_none _)⟩
      rintro (⟨cert', key', hpinned', -⟩ | ⟨-, hhost'⟩)
      · exact h ⟨Option.isSome_of_eq_some hpinned'.2, Option.isSome_of_eq_some hpinned'.1⟩
      · exact hhost hhost'

end Undisturbed

end CodexResetProxy
