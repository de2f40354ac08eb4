import CodexResetProxy.Bridge.Ownership

/-!
Every request goes over a connection that was opened with its own credentials.

The pool files a connection under the key of the request that opened it, and
hands it out under the same key; `websocketPoolKey_inj` takes the key back to the
URL and the identity headers.

* `sameIdentity_of_create`: credential isolation, in every reachable state.
-/

namespace CodexResetProxy

open Transition Protocol PyStr

variable {cfg : Config}

/-- The handshake of a connection and a request have the same URL and the same
multiset of identity headers. -/
def SameIdentity (cfg : Config) (x : Conn) (r : Request) : Prop :=
  x.url = r.url ∧ (identityHeaders cfg x.headers).Perm (identityHeaders cfg r.headers)

/-- The headers of a handshake are those of a request. -/
lemma latin1_of_reachable {s : State} (h : (bridge cfg).Reachable s) (c : ℕ) :
    Latin1 (s.world.conns.cell c).headers := by
  refine cell_of_reachable h (I := fun x => Latin1 x.headers) ?_ ?_ ?_ c
  · intro p hp
    exact absurd hp List.not_mem_nil
  · intro x y hx hstep
    cases hstep with
    | opened => exact latin1_websocketHeaders _
    | did _ _ _ => exact hx
    | took _ _ _ => exact hx
  · intro x y hx hdrift
    cases hdrift <;> exact hx

/-- **Credential isolation**, in every reachable state: where a request is sent,
or is being sent, the connection was opened with its URL and its identity
headers. -/
theorem sameIdentity_of_create (hsha : Function.Injective cfg.runtime.sha256) {s : State}
    (h : (bridge cfg).Reachable s) {c : ℕ} {r : Request}
    (hmem : .send (.create r) ∈ (s.world.conns.cell c).log ∨
      .sent (.create r) ∈ (s.world.conns.cell c).log) :
    SameIdentity cfg (s.world.conns.cell c) r := by
  obtain ⟨p, hrun⟩ := run_of_reachable h c
  have hkey : r.key cfg = (s.world.conns.cell c).key cfg := hrun.key_of_create hmem
  exact websocketPoolKey_inj hsha (latin1_of_reachable h c) (latin1_websocketHeaders _) hkey.symm

/-! ### A run -/

/-- The second request goes over the connection of the first, with the same
credentials. -/
theorem sameIdentity_sampleReuse :
    ∃ s, (bridge sampleConfig).exec (bridge sampleConfig).init sampleReuse = some s ∧
      .sent (.create sampleSecond) ∈ (s.world.conns.cell 0).log ∧
        SameIdentity sampleConfig (s.world.conns.cell 0) sampleSecond := by
  have hrun : ((bridge sampleConfig).exec (bridge sampleConfig).init sampleReuse).map
      (fun s => decide (.sent (.create sampleSecond) ∈ (s.world.conns.cell 0).log))
        = some true := by
    decide +kernel
  obtain ⟨s, hs, hmem⟩ := Option.map_eq_some_iff.mp hrun
  have hsent := of_decide_eq_true hmem
  exact ⟨s, hs, hsent, sameIdentity_of_create sampleSha256_injective
    (System.Reachable.of_exec hs) (Or.inr hsent)⟩

end CodexResetProxy
