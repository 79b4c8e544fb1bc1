import NixRemoteStore.Runs

/-! # Every handle is given back

The pool's counts, handles out and capacity, are an invariant of the store: every operation,
and so every run, ends with the counts it started with, as long as the caller code it runs
does the same. -/

namespace NixRemoteStore

open Wire

section Pool

/-- The pool has `n` handles out and capacity `k`. -/
def StoreState.PoolAt (n k : Nat) (s : StoreState) : Prop := s.pool.inUse = n ∧ s.pool.max = k

/-- A store computation that ends with the pool's counts where they were, however it ends. -/
def Balanced {α : Type} (m : StoreM α) : Prop := ∀ n k, Preserves (StoreState.PoolAt n k) m

def StepsBalanced (steps : List ProducerStep) : Prop :=
  ∀ m, ProducerStep.call m ∈ steps → Balanced m

variable (cfg : Config)

theorem factory_pool (s : StoreState) : (resultState (factory cfg s)).pool = s.pool := by
  rw [factory_eq]
  split_ifs
  · rfl
  · split
    · rfl
    · split <;> rfl

/-- `connections->get()` hands out one more handle, or, when it waits or the factory raises,
none; it never changes the capacity. -/
theorem poolGet_ok_poolAt {s s' : StoreState} {c : Connection} {n k : Nat}
    (hget : poolGet cfg s = .ok c s') (hs : s.PoolAt n k) : s'.PoolAt (n + 1) k := by
  have hmax := Pool.get_max (validator cfg s.now) s.pool
  rw [poolGet_eq] at hget
  split at hget
  next c' p hg =>
    cases hget
    rw [hg] at hmax
    exact ⟨by rw [Pool.get_inUse _ hg (by simp), hs.1], hmax.trans hs.2⟩
  next p hg =>
    rw [hg] at hmax
    split at hget
    next c' s₁ hf =>
      cases hget
      have hp : s'.pool = p := by simpa [hf] using factory_pool cfg { s with pool := p }
      exact ⟨by rw [hp, Pool.get_inUse _ hg (by simp), hs.1], hp ▸ hmax.trans hs.2⟩
    next => cases hget
  next => cases hget

theorem poolGet_error_poolAt {s s' : StoreState} {e : Exn} {n k : Nat}
    (hget : poolGet cfg s = .error e s') (hs : s.PoolAt n k) : s'.PoolAt n k := by
  have hmax := Pool.get_max (validator cfg s.now) s.pool
  rw [poolGet_eq] at hget
  split at hget
  next => cases hget
  next p hg =>
    rw [hg] at hmax
    split at hget
    next => cases hget
    next e' s₁ hf =>
      cases hget
      have hp : s₁.pool = p := by simpa [hf] using factory_pool cfg { s with pool := p }
      refine ⟨?_, hp ▸ hmax.trans hs.2⟩
      show s₁.pool.inUse - 1 = n
      rw [hp, Pool.get_inUse _ hg (by simp), hs.1, Nat.add_sub_cancel]
  next p hg =>
    rw [hg] at hmax
    cases hget
    exact ⟨(Pool.get_blocked _ hg).trans hs.1, hmax.trans hs.2⟩

theorem giveBack_poolAt {s : StoreState} {c : Connection} {bad : Bool} {n k : Nat}
    (hs : s.PoolAt (n + 1) k) : (s.giveBack cfg c bad).PoolAt n k :=
  ⟨show s.pool.inUse - 1 = n by rw [hs.1, Nat.add_sub_cancel], hs.2⟩

end Pool

def poolInv (cfg : Config) : StoreInv cfg where
  I := StoreState.PoolAt
  frame _ _ _ _ _ h := h
  poolGet_ok := poolGet_ok_poolAt cfg
  poolGet_error := poolGet_error_poolAt cfg
  giveBack := giveBack_poolAt cfg
  incCapacity h := ⟨h.1, congrArg (· + 1) h.2⟩
  decCapacity h := ⟨h.1, show _ - 1 = _ by rw [h.2]; rfl⟩

/-- What the store's own fallbacks ask: the base class's `addMultipleToStore` and the static
output map give back what they take. -/
def Config.Balanced (cfg : Config) : Prop :=
  (∀ source repair checkSigs, NixRemoteStore.Balanced (cfg.storeAddMultipleToStore source repair checkSigs)) ∧
    ∀ path, NixRemoteStore.Balanced (cfg.storeStaticOutputMap path)

def EvalStore.Balanced (ev : EvalStore) : Prop :=
  (∀ paths, NixRemoteStore.Balanced (ev.copyClosure paths)) ∧
    ∀ drvPath outputs, NixRemoteStore.Balanced (ev.resolveBuilt drvPath outputs)

def Call.CallerBalanced : Call → Prop
  | .addCAToStore dump .. => StepsBalanced dump
  | .addToStore _ nar .. => StepsBalanced nar
  | .addMultipleToStore source .. => StepsBalanced source
  | .addMultipleToStorePaths _ pathsToCopy .. => ∀ p ∈ pathsToCopy, StepsBalanced p.2
  | .buildPaths _ _ evalStore | .buildPathsWithResults _ _ evalStore =>
    ∀ ev ∈ evalStore, ev.Balanced
  | _ => True

section Runs
variable (cfg : Config)

theorem Call.CallerBalanced.keepsCall {c : Call} (h : c.CallerBalanced) :
    (poolInv cfg).KeepsCall c := by
  cases c with
  | addCAToStore | addToStore | addMultipleToStore | addMultipleToStorePaths | buildPaths
  | buildPathsWithResults => exact h
  | _ => trivial

/-- Over every run, whatever each call does and however it ends, the pool ends with as many
handles out, and the same capacity, as it started with: every connection taken is given back
and every capacity window is closed, as long as the caller code the calls run does the
same. -/
theorem runCalls_gives_back_every_handle (hcfg : cfg.Balanced) :
    ∀ (calls : List Call), (∀ c ∈ calls, c.CallerBalanced) → ∀ s : StoreState,
      (runCalls cfg calls s).pool.inUse = s.pool.inUse ∧ (runCalls cfg calls s).pool.max = s.pool.max :=
  fun calls hc s => (poolInv cfg).runCalls_keeps hcfg calls (fun c h => (hc c h).keepsCall cfg)
    _ _ s ⟨rfl, rfl⟩

end Runs

theorem Config.scenario_balanced (daemons : List Bytes) (maxConnections : Int) (maxConnectionAge : Nat) :
    (Config.scenario daemons maxConnections maxConnectionAge).Balanced :=
  ⟨fun _ _ _ _ _ => preserves_pure _, fun _ _ _ => preserves_pure _⟩

theorem runCalls_gives_back_every_handle_minor24 :
    (∀ c ∈ [Call.connect, .addCAToStore [.chunk (txt "hello")] (txt "x") (.text) .sha256 [] false,
      .queryPathInfo (txt "/nix/store/x")], c.CallerBalanced) ∧
    (runCalls (Config.scenario [] 1 1000) [Call.connect,
      .addCAToStore [.chunk (txt "hello")] (txt "x") (.text) .sha256 [] false,
      .queryPathInfo (txt "/nix/store/x")] StoreState.minor24).pool.inUse = 0 ∧
    (runCalls (Config.scenario [] 1 1000) [Call.connect,
      .addCAToStore [.chunk (txt "hello")] (txt "x") (.text) .sha256 [] false,
      .queryPathInfo (txt "/nix/store/x")] StoreState.minor24).pool.max = 1 := by
  have hc : ∀ c ∈ [Call.connect, .addCAToStore [.chunk (txt "hello")] (txt "x") (.text) .sha256 [] false,
      .queryPathInfo (txt "/nix/store/x")], c.CallerBalanced := by
    simp [Call.CallerBalanced, StepsBalanced]
  exact ⟨hc, runCalls_gives_back_every_handle _ (Config.scenario_balanced [] 1 1000) _ hc _⟩

end NixRemoteStore
