import Mathlib.Data.List.Nodup
import CodexResetProxy.Library.Recorded
import CodexResetProxy.Mitm.Issuance

/-!
Whose keys there are, in every run of the calls, with crashes and deletions anywhere.

* `Assigned`: an assignment of keys to owners that the files of a directory obey.
* `Logged`: what is true of a directory and of the keys that were ever written;
  `keeps_*`: every operation of the calls keeps it.
* `keysApart_of_path`: **one assignment for a whole run**. A key of the CA never becomes
  a host's, no two names share a key, and only the CA signs.
-/

namespace CodexResetProxy

open PyStr Interruption Machine Transition

/-! ### What is kept -/

/-- What the certificates of an owner are: the CA's are self-signed; a name has
certificates of hosts with that file name. -/
def Certificate.IsFor (certifiable : PyStr → Bool) (c : Certificate) : Owner → Prop
  | .ca => c.subject = none ∧ c.signer = c.publicKey
  | .leaf name =>
      ∃ host, c.subject = some host ∧ safeFilename host = name ∧ certifiable host = true

/-- Keys are in the files of their owner, and so are the certificates for them, which
the CA has signed. -/
structure Assigned (certifiable : PyStr → Bool) (owner : ℕ → Owner) (s : CertDir) : Prop where
  keys : ∀ o k, s.keys o = some k → owner k = o
  certs : ∀ o c, s.certs o = some c →
    owner c.publicKey = o ∧ owner c.signer = .ca ∧ c.IsFor certifiable o

/-- The key that an operation writes, with its owner. -/
def FileOp.written? : FileOp → Option (Owner × ℕ)
  | .writeKey owner k => some (owner, k)
  | _ => none

/-- The keys that were written: each was generated before, was written once, and accounts
for what the files hold. -/
structure Logged (certifiable : PyStr → Bool) (s : CertDir × List (Owner × ℕ)) : Prop where
  generated : ∀ x ∈ s.2, x.2 < s.1.next
  once : (s.2.map Prod.snd).Nodup
  keys : ∀ o k, s.1.keys o = some k → (o, k) ∈ s.2
  certs : ∀ o c, s.1.certs o = some c →
    (o, c.publicKey) ∈ s.2 ∧ (.ca, c.signer) ∈ s.2 ∧ c.IsFor certifiable o

/-- A key that was generated and is not written yet. -/
def Unwritten (k next : ℕ) (written : List (Owner × ℕ)) : Prop :=
  k < next ∧ k ∉ written.map Prod.snd

section Logged

variable {certifiable : PyStr → Bool} {s : CertDir} {written : List (Owner × ℕ)}
  {o : Owner} {k : ℕ}

lemma Logged.delete (h : Logged certifiable (s, written)) (f : File) :
    Logged certifiable (s.delete f, written) := by
  have hnext : (s.delete f).next = s.next := by cases f <;> rfl
  refine ⟨fun x hx => (h.generated x hx).trans_eq hnext.symm, h.once, fun o k hk => ?_,
    fun o c hc => ?_⟩
  · rw [keys_delete] at hk
    split_ifs at hk
    exact h.keys o k hk
  · rw [certs_delete] at hc
    split_ifs at hc
    exact h.certs o c hc

/-- A key is generated: it was not before. -/
lemma Logged.generate (h : Logged certifiable (s, written)) :
    Logged certifiable ({ s with next := s.next + 1 }, written) ∧
      Unwritten s.next (s.next + 1) written := by
  refine ⟨⟨fun x hx => (h.generated x hx).trans (Nat.lt_succ_self _), h.once, h.keys, h.certs⟩,
    Nat.lt_succ_self _, fun hmem => ?_⟩
  obtain ⟨x, hx, heq⟩ := List.mem_map.mp hmem
  exact (heq ▸ h.generated x hx).false

lemma Logged.setKey (h : Logged certifiable (s, written)) (hk : Unwritten k s.next written) :
    Logged certifiable (s.setKey o k, written ++ [(o, k)]) := by
  refine ⟨fun x hx => ?_, ?_, fun o' k' hk' => ?_, fun o' c hc => ?_⟩
  · rcases List.mem_append.mp hx with hx | hx
    · exact h.generated x hx
    · obtain rfl := List.mem_singleton.mp hx
      exact hk.1
  · rw [List.map_append, List.map_singleton, List.nodup_append]
    refine ⟨h.once, List.nodup_singleton k, fun a ha b hb => ?_⟩
    obtain rfl := List.mem_singleton.mp hb
    exact fun hab => hk.2 (hab ▸ ha)
  · rw [keys_setKey] at hk'
    split_ifs at hk' with ho
    · obtain rfl := Option.some.inj hk'
      simp [ho]
    · exact List.mem_append_left _ (h.keys o' k' hk')
  · obtain ⟨hpublic, hsigner, hfor⟩ := h.certs o' c hc
    exact ⟨List.mem_append_left _ hpublic, List.mem_append_left _ hsigner, hfor⟩

lemma Logged.setCert {c : Certificate} (h : Logged certifiable (s, written))
    (hpublic : (o, c.publicKey) ∈ written) (hsigner : (.ca, c.signer) ∈ written)
    (hfor : c.IsFor certifiable o) : Logged certifiable (s.setCert o c, written) := by
  refine ⟨h.generated, h.once, h.keys, fun o' c' hc' => ?_⟩
  rw [certs_setCert] at hc'
  split_ifs at hc' with ho
  · obtain rfl := Option.some.inj hc'
    subst ho
    exact ⟨hpublic, hsigner, hfor⟩
  · exact h.certs o' c' hc'

/-- The owner of a key is the one it was written for. -/
lemma Logged.assigned (h : Logged certifiable (s, written)) {all : List (Owner × ℕ)}
    (hall : written ⊆ all) {owner : ℕ → Owner} (howner : ∀ x ∈ all, owner x.2 = x.1) :
    Assigned certifiable owner s := by
  refine ⟨fun o k hk => howner _ (hall (h.keys o k hk)), fun o c hc => ?_⟩
  obtain ⟨hpublic, hsigner, hfor⟩ := h.certs o c hc
  exact ⟨howner _ (hall hpublic), howner _ (hall hsigner), hfor⟩

end Logged

/-! ### The calls -/

/-- The calls, with the keys that they have written. -/
abbrev keyMachine (certifiable : PyStr → Bool) :
    Machine (CertDir × List (Owner × ℕ)) CertCall File (File × File) FileOp.Res :=
  (certMachine certifiable).recorded FileOp.written?

/-- What is left of a call keeps the log, if something is known of the generated and the
written keys. -/
abbrev Keeps (certifiable : PyStr → Bool) (call : CertCall) (p : CertProgram (File × File))
    (F : ℕ → List (Owner × ℕ) → Prop) : Prop :=
  Outline (keyMachine certifiable) (fun _ _ => True) (Logged certifiable) call (fun _ _ => True) p
    fun s => Logged certifiable s ∧ F s.1.next s.2

section Keeps

variable {certifiable : PyStr → Bool} {call : CertCall} {host : PyStr}
  {rest : CertProgram (File × File)} {F : ℕ → List (Owner × ℕ) → Prop}

/-- Deletions leave the generated and the written keys alone. -/
lemma stable_of_logged (p : CertProgram (File × File)) (F : ℕ → List (Owner × ℕ) → Prop) :
    Stable (keyMachine certifiable) (fun _ _ => True) (Logged certifiable) call p
      fun s => Logged certifiable s ∧ F s.1.next s.2 := by
  refine ⟨fun s f hs _ => ⟨hs.1.delete f, ?_⟩, fun s hs _ => hs.1⟩
  have hnext : (s.1.delete f).next = s.1.next := by cases f <;> rfl
  show F (s.1.delete f).next s.2
  rw [hnext]
  exact hs.2

lemma keeps_ret {paths : File × File} : Keeps certifiable call (.ret paths) F :=
  ⟨stable_of_logged _ F, fun _ hs => hs.1, fun _ _ => trivial⟩

lemma keeps_raise : Keeps certifiable call .raise F := ⟨stable_of_logged _ F, fun _ hs => hs.1⟩

/-- An operation, by what it does to the directory and to the log. -/
lemma keeps_op {o : FileOp} {next : o.Res → CertProgram (File × File)}
    {G : o.Res → ℕ → List (Owner × ℕ) → Prop}
    (hstep : ∀ s written r t, Logged certifiable (s, written) → F s.next written →
      o.perform s = some (r, t) →
      Logged certifiable (t, written ++ o.written?.toList) ∧
        G r t.next (written ++ o.written?.toList))
    (hnext : ∀ r, Keeps certifiable call (next r) (G r)) :
    Keeps certifiable call (.op o next) F := by
  refine ⟨stable_of_logged _ F, fun _ hs _ => hs.1,
    fun r s => Logged certifiable s ∧ G r s.1.next s.2, fun s r t hs _ hperform => ?_, hnext⟩
  obtain ⟨⟨r', u⟩, hu, heq⟩ := Option.map_eq_some_iff.mp hperform
  obtain ⟨rfl, rfl⟩ := Prod.mk.inj heq
  exact hstep s.1 s.2 r' u hs.1 hs.2 hu

/-- An operation that writes no key. -/
lemma keeps_quiet {o : FileOp} {next : o.Res → CertProgram (File × File)}
    {G : o.Res → ℕ → List (Owner × ℕ) → Prop} (hquiet : o.written? = none)
    (hstep : ∀ s written r t, Logged certifiable (s, written) → F s.next written →
      o.perform s = some (r, t) → Logged certifiable (t, written) ∧ G r t.next written)
    (hnext : ∀ r, Keeps certifiable call (next r) (G r)) :
    Keeps certifiable call (.op o next) F := by
  refine keeps_op (fun s written r t hs hF hperform => ?_) hnext
  rw [hquiet, Option.toList_none, List.append_nil]
  exact hstep s written r t hs hF hperform

/-- A question for a file. -/
lemma keeps_present {f : File} {p q : CertProgram (File × File)}
    (hp : Keeps certifiable call p F) (hq : Keeps certifiable call q F) :
    Keeps certifiable call (.op (.present f) fun b => bif b then p else q) F := by
  refine keeps_quiet (G := fun _ => F) rfl (fun s written r t hs hF hperform => ?_)
    fun (b : Bool) => ?_
  · obtain ⟨-, rfl⟩ := Prod.mk.inj (Option.some.inj hperform)
    exact ⟨hs, hF⟩
  · cases b with
    | false => exact hq
    | true => exact hp

lemma keeps_atWriteCaCert {key : ℕ} (hrest : Keeps certifiable call rest fun _ _ => True) :
    Keeps certifiable call (atWriteCaCert rest key) fun _ written => (.ca, key) ∈ written := by
  refine keeps_quiet (G := fun _ _ _ => True) rfl (fun s written r t hs hkey hperform => ?_)
    fun _ => hrest
  obtain ⟨-, rfl⟩ := Prod.mk.inj (Option.some.inj hperform)
  exact ⟨hs.setCert hkey hkey ⟨rfl, rfl⟩, trivial⟩

lemma keeps_atGenerateCaKey (hrest : Keeps certifiable call rest fun _ _ => True) :
    Keeps certifiable call (atGenerateCaKey rest) fun _ _ => True := by
  refine keeps_quiet (G := Unwritten) rfl (fun s written r t hs _ hperform => ?_)
    fun (key : ℕ) => ?_
  · obtain ⟨rfl, rfl⟩ := Prod.mk.inj (Option.some.inj hperform)
    exact hs.generate
  · refine keeps_op (G := fun _ _ written => (.ca, key) ∈ written)
      (fun s written r t hs hunwritten hperform => ?_) fun _ => keeps_atWriteCaCert hrest
    obtain ⟨-, rfl⟩ := Prod.mk.inj (Option.some.inj hperform)
    exact ⟨hs.setKey hunwritten, List.mem_append_right _ (List.mem_singleton_self _)⟩

lemma keeps_atCaKeyExists (hrest : Keeps certifiable call rest fun _ _ => True) :
    Keeps certifiable call (atCaKeyExists rest) fun _ _ => True :=
  keeps_present (keeps_present hrest (keeps_atGenerateCaKey hrest)) (keeps_atGenerateCaKey hrest)

lemma keeps_atWriteCert {caKey key : ℕ} (hhost : certifiable host = true) :
    Keeps certifiable call (atWriteCert host caKey key) fun _ written =>
      (.ca, caKey) ∈ written ∧ (hostOwner host, key) ∈ written := by
  refine keeps_quiet (G := fun _ _ _ => True) rfl (fun s written r t hs hkeys hperform => ?_)
    fun _ => keeps_ret
  obtain ⟨-, rfl⟩ := Prod.mk.inj (Option.some.inj hperform)
  exact ⟨hs.setCert hkeys.2 hkeys.1 ⟨host, rfl, rfl, hhost⟩, trivial⟩

lemma keeps_atWriteKey {caKey key : ℕ} (hhost : certifiable host = true) :
    Keeps certifiable call (atWriteKey host caKey key) fun next written =>
      (.ca, caKey) ∈ written ∧ Unwritten key next written := by
  refine keeps_op
    (G := fun _ _ written => (.ca, caKey) ∈ written ∧ (hostOwner host, key) ∈ written)
    (fun s written r t hs hkeys hperform => ?_) fun _ => keeps_atWriteCert hhost
  obtain ⟨-, rfl⟩ := Prod.mk.inj (Option.some.inj hperform)
  exact ⟨hs.setKey hkeys.2, List.mem_append_left _ hkeys.1,
    List.mem_append_right _ (List.mem_singleton_self _)⟩

lemma keeps_atGenerateKey {caKey : ℕ} :
    Keeps certifiable call (atGenerateKey certifiable host caKey) fun _ written =>
      (.ca, caKey) ∈ written := by
  refine keeps_quiet
    (G := fun key next written => (.ca, caKey) ∈ written ∧ Unwritten key next written) rfl
    (fun s written r t hs hca hperform => ?_) fun (key : ℕ) => ?_
  · obtain ⟨rfl, rfl⟩ := Prod.mk.inj (Option.some.inj hperform)
    exact ⟨hs.generate.1, hca, hs.generate.2⟩
  · cases hhost : certifiable host with
    | false => exact keeps_raise
    | true => simpa using keeps_atWriteKey hhost

lemma keeps_atReadCaKey :
    Keeps certifiable call (atReadCaKey certifiable host) fun _ _ => True := by
  refine keeps_quiet (G := fun caKey _ written => (.ca, caKey) ∈ written) rfl
    (fun s written r t hs _ hperform => ?_) fun (caKey : ℕ) =>
    keeps_quiet (G := fun _ _ written => (.ca, caKey) ∈ written) rfl
      (fun s written r t hs hca hperform => ?_) fun _ => keeps_atGenerateKey
  · obtain ⟨k, hk, heq⟩ := Option.map_eq_some_iff.mp hperform
    obtain ⟨rfl, rfl⟩ := Prod.mk.inj heq
    exact ⟨hs, hs.keys .ca k hk⟩
  · obtain ⟨c, -, heq⟩ := Option.map_eq_some_iff.mp hperform
    obtain ⟨-, rfl⟩ := Prod.mk.inj heq
    exact ⟨hs, hca⟩

/-- Every call keeps the log. -/
lemma keeps_body (call : CertCall) :
    Keeps certifiable call ((certMachine certifiable).body call) fun _ _ => True := by
  cases call with
  | ca =>
      show Keeps certifiable .ca ensureCaCertificate _
      rw [ensureCaCertificate_eq]
      exact keeps_atCaKeyExists keeps_ret
  | leaf host =>
      show Keeps certifiable _ (ensureLeafCertificate certifiable host) _
      rw [ensureLeafCertificate_eq]
      exact keeps_atCaKeyExists
        (keeps_present (keeps_present keeps_ret keeps_atReadCaKey) keeps_atReadCaKey)

end Keeps

/-! ### Every run -/

/-- What was written in a run accounts for the directory. -/
lemma logged_of_path {certifiable : PyStr → Bool} {s : CertDir} {written : List (Owner × ℕ)}
    {running : Option (CertCall × CertProgram (File × File))}
    {l : List (Config (CertDir × List (Owner × ℕ)) CertCall (File × File) FileOp.Res ×
      Action CertCall File)}
    (hrun : (keyMachine certifiable).system.Path (keyMachine certifiable).system.init l
      ⟨(s, written), running⟩) : Logged certifiable (s, written) := by
  refine invariant_of_outline (fun _ _ _ => True) (fun s call hs => ?_)
    (fun s f hs => hs.delete f) ?_ hrun
  · exact ⟨_, ⟨hs, trivial⟩, keeps_body call⟩
  · exact ⟨fun _ hx => absurd hx List.not_mem_nil, List.nodup_nil, fun _ _ hk => (nomatch hk),
      fun _ _ hc => (nomatch hc)⟩

/-- **One assignment of keys to owners** for a whole run, with crashes and deletions
anywhere: whenever a key is in a file, it is its owner's. -/
theorem keysApart_of_path (certifiable : PyStr → Bool)
    {l : List (CertConfig × Action CertCall File)} {c : CertConfig}
    (hrun : (certMachine certifiable).system.Path (certMachine certifiable).system.init l c) :
    ∃ owner : ℕ → Owner, Assigned certifiable owner c.store ∧
      ∀ x ∈ l, Assigned certifiable owner x.1.store := by
  obtain ⟨l', all, hall, hknown⟩ := exists_recorded FileOp.written? hrun []
  have hlogged := logged_of_path hall
  obtain ⟨owner, howner⟩ : ∃ owner : ℕ → Owner, ∀ x ∈ all, owner x.2 = x.1 := by
    classical
    refine ⟨fun k => if h : ∃ o, (o, k) ∈ all then h.choose else .ca, fun x hx => ?_⟩
    have hex : ∃ o, (o, x.2) ∈ all := ⟨x.1, hx⟩
    show (if h : ∃ o, (o, x.2) ∈ all then h.choose else .ca) = x.1
    rw [dif_pos hex]
    exact congrArg Prod.fst (List.inj_on_of_nodup_map hlogged.once hex.choose_spec hx rfl)
  refine ⟨owner, hlogged.assigned (List.Subset.refl all) howner, fun x hx => ?_⟩
  obtain ⟨l'', known, hpath, hsub⟩ := hknown x hx
  exact (logged_of_path hpath).assigned hsub howner

/-- The keys of a run in which the CA is issued twice. -/
theorem keysApart_staleIssue :
    ∃ owner : ℕ → Owner, Assigned (fun _ => true) owner staleDir ∧
      ∀ x ∈ (certMachine fun _ => true).system.steps (certMachine fun _ => true).system.init
        staleIssue, Assigned (fun _ => true) owner x.1.store :=
  keysApart_of_path (fun _ => true) (System.Path.of_exec exec_staleIssue)

end CodexResetProxy
