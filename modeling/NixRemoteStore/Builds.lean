import NixRemoteStore.AddToStore
import Mathlib.Data.List.Forall2

/-! # Builds and output maps

`buildPaths`, `buildPathsWithResults` with its compatibility path below minor 34, and the
output-map queries, whose version gates come from `getProtocol()`. -/

namespace NixRemoteStore

open Wire

/-- Modelled from the spec: the evaluation store, another store that holds the derivations,
with what the client asks of it. -/
structure EvalStore where
  /-- `evalStore.get() == this`. -/
  isThis : Bool
  /-- `queryStaticPartialDerivationOutputMap(drvPath)`. -/
  staticOutputMap : Bytes → Except Exn OutputMap
  /-- `staticOutputHashes(*evalStore, evalStore->readDerivation(drvPath))`: the hash of each
  output, by name. -/
  outputHashes : Bytes → Except Exn (List (Bytes × Bytes))
  /-- `copyClosure(*evalStore, *this, drvPaths)`. -/
  copyClosure : List Bytes → StoreM Unit
  /-- `resolveDerivedPath(*this, bfd, &*evalStore)`: the outputs a built path names, with
  their paths. -/
  resolveBuilt : Bytes → OutputsSpec → StoreM (List (Bytes × Bytes))

def DerivedPath.drvPaths (paths : List DerivedPath) : List Bytes :=
  paths.filterMap fun
    | .built drvPath _ => some drvPath
    | .opaquePath _ => none

def derefEvalStore : Option EvalStore → StoreM EvalStore
  | some ev => pure ev
  | none => throw .nullDeref

/-- `RemoteStore::copyDrvsFromEvalStore`: the daemon cannot read another store, so the
derivations of the built paths are copied to it. -/
def copyDrvsFromEvalStore (paths : List DerivedPath) : Option EvalStore → StoreM Unit
  | some ev => if ev.isThis then pure () else ev.copyClosure (DerivedPath.drvPaths paths)
  | none => pure ()

def EvalStore.withStatic (S : OutputMap) : EvalStore :=
  ⟨false, fun _ => .ok S, fun _ => .ok [], fun _ => pure (), fun _ _ => pure []⟩

section Builds
variable (cfg : Config)

/-- `RemoteStore::buildPaths`: the paths and the mode, then an integer that is ignored. -/
def buildPaths (paths : List DerivedPath) (buildMode : Nat) (evalStore : Option EvalStore) :
    StoreM Unit := do
  copyDrvsFromEvalStore paths evalStore
  let _ ← simpleOp cfg .buildPaths
    (fun v => (Codec.list (cfg.P.derivedPath v)).encode paths ++ writeNum buildMode)
    fun _ => readInt

/-- Modelled from the spec: `Store::queryRealisation`, without the facade's cache. -/
def queryRealisation (id : DrvOutput) : StoreM (Option Realisation) :=
  queryRealisationUncached cfg id

/-- One output of a built path on the compatibility path of `buildPathsWithResults`: its
realisation, from the daemon when content-addressed derivations are enabled. -/
def builtOutput (drvPath : Bytes) (outputHashes : List (Bytes × Bytes)) (output outputPath : Bytes) :
    StoreM (Bytes × Realisation) :=
  match outputHashes.lookup output with
  | none => throw (Exn.fail (txt "the derivation '" ++ drvPath ++
      txt "' doesn't have an output named '" ++ output ++ txt "'"))
  | some outputHash =>
    let outputId : DrvOutput := ⟨outputHash, output⟩
    if cfg.caDerivations then do
      match ← queryRealisation cfg outputId with
      | none => throw (.missingRealisation outputId.toString)
      | some realisation => pure (output, realisation)
    else pure (output, ⟨outputId, outputPath⟩)

/-- The result the compatibility path of `buildPathsWithResults` makes for one path, once
`buildPaths` has succeeded. -/
def compatResult (evalStore : Option EvalStore) : DerivedPath → StoreM KeyedBuildResult
  | .opaquePath path => pure ⟨⟨.substituted, []⟩, .opaquePath path⟩
  | .built drvPath outputs => do
    let ev ← derefEvalStore evalStore
    let outputHashes ← ofExcept (ev.outputHashes drvPath)
    let built ← ev.resolveBuilt drvPath outputs
    let builtOutputs ← built.mapM fun o => builtOutput cfg drvPath outputHashes o.1 o.2
    pure ⟨⟨.built, builtOutputs⟩, .built drvPath outputs⟩

/-- `RemoteStore::buildPathsWithResults`. Below minor 34 the handle is dropped before
`buildPaths` takes one of its own. -/
def buildPathsWithResults (paths : List DerivedPath) (buildMode : Nat)
    (evalStore : Option EvalStore) : StoreM (List KeyedBuildResult) := do
  copyDrvsFromEvalStore paths evalStore
  let native ← withConnection cfg do
    let hs ← get
    if 34 ≤ getProtocolMinor hs.conn.daemonVersion then
      writeRequest cfg .buildPathsWithResults
        ((Codec.list (cfg.P.derivedPath hs.conn.daemonVersion)).encode paths ++ writeNum buildMode)
      handleProcessStderr cfg none none true
      some <$> readReply fun v => Codec.list (cfg.P.keyedBuildResult v)
    else pure none
  match native with
  | some results => pure results
  | none => do
    buildPaths cfg paths buildMode evalStore
    paths.mapM (compatResult cfg evalStore)

theorem mapM_compatResult_none :
    ∀ (paths : List DerivedPath) (s : StoreState), (∃ d o, DerivedPath.built d o ∈ paths) →
      ∃ s', paths.mapM (compatResult cfg none) s = .error .nullDeref s'
  | [], _, ⟨_, _, h⟩ => absurd h (List.not_mem_nil _)
  | .opaquePath p :: ps, s, ⟨d, o, h⟩ => by
    obtain ⟨s', hs'⟩ := mapM_compatResult_none ps s ⟨d, o, by simpa using h⟩
    exact ⟨s', by rw [List.mapM_cons]; simp only [run_bind, compatResult, run_pure, hs']⟩
  | .built _ _ :: _, s, _ =>
    ⟨s, by rw [List.mapM_cons]; simp only [run_bind, compatResult, derefEvalStore, run_throw]⟩

theorem buildPathsWithResults_compat_eq {paths : List DerivedPath} {buildMode : Nat}
    {evalStore : Option EvalStore} {s s₀ s₁ : StoreState} {c : Connection}
    (hcopy : copyDrvsFromEvalStore paths evalStore s = .ok () s₀)
    (hget : poolGet cfg s₀ = .ok c s₁) (hv : getProtocolMinor c.daemonVersion < 34) :
    buildPathsWithResults cfg paths buildMode evalStore s =
      (buildPaths cfg paths buildMode evalStore >>= fun _ => paths.mapM (compatResult cfg evalStore))
        (s₁.giveBack cfg c false) := by
  simp only [buildPathsWithResults, run_bind, hcopy, withConnection_ok_get cfg hget, run_get,
    if_neg (Nat.not_le.mpr hv), run_pure]

/-- Below minor 34, without an evaluation store, the first built path dereferences the
absent store once `buildPaths` has succeeded. -/
theorem buildPathsWithResults_derefs_absent_evalStore {paths : List DerivedPath}
    {buildMode : Nat} {s s₁ s₂ : StoreState} {c : Connection} (hget : poolGet cfg s = .ok c s₁)
    (hv : getProtocolMinor c.daemonVersion < 34)
    (hbuild : buildPaths cfg paths buildMode none (s₁.giveBack cfg c false) = .ok () s₂)
    (hbuilt : ∃ drvPath outputs, DerivedPath.built drvPath outputs ∈ paths) :
    (outcome (buildPathsWithResults cfg paths buildMode none s)).1 = some .nullDeref := by
  obtain ⟨s', h⟩ := mapM_compatResult_none cfg paths s₂ hbuilt
  rw [@buildPathsWithResults_compat_eq cfg paths buildMode none s s s₁ c rfl hget hv, bind_ok hbuild, h]
  rfl

theorem buildPathsWithResults_derefs_absent_evalStore_minor33 :
    (outcome (buildPathsWithResults (Config.scenario [] 1 1000) [.built (txt "/nix/store/x.drv") .all]
      0 none (StoreState.withIdle (Connection.greeted 0x121
        (Terminal.encode Protocol.scenario .last ++ writeNum 1))))).1 = some .nullDeref :=
  @buildPathsWithResults_derefs_absent_evalStore (Config.scenario [] 1 1000) _ 0
    (StoreState.withIdle (Connection.greeted 0x121 (Terminal.encode Protocol.scenario .last ++ writeNum 1)))
    _ _ (Connection.greeted 0x121 (Terminal.encode Protocol.scenario .last ++ writeNum 1)) rfl
    (by decide) rfl ⟨_, _, List.mem_singleton_self _⟩

end Builds

def mergeStep (m : OutputMap) (e : Bytes × Option Bytes) : OutputMap :=
  match e.2 with
  | some p => m.insertOrAssign e.1 (some p)
  | none => m.insert e.1 none

def mergeOutputs (outputs daemon : OutputMap) : OutputMap :=
  daemon.entries.foldl mergeStep outputs

theorem mergeStep_find_self (m : OutputMap) (k : Bytes) (v : Option Bytes) :
    (mergeStep m (k, v)).find k = some (v.elim ((m.find k).getD none) some) := by
  cases v <;> simp [mergeStep, OutputMap.find_insertOrAssign, OutputMap.find_insert]

theorem mergeStep_find_ne (m : OutputMap) {k : Bytes} {e : Bytes × Option Bytes} (h : k ≠ e.1) :
    (mergeStep m e).find k = m.find k := by
  unfold mergeStep
  split <;> simp [OutputMap.find_insertOrAssign, OutputMap.find_insert, h]

theorem lookupEntry_eq_none {k : Bytes} {l : List (Bytes × Option Bytes)}
    (h : k ∉ l.map Prod.fst) : lookupEntry k l = none := by
  induction l with
  | nil => rfl
  | cons e l ih =>
    simp only [List.map_cons, List.mem_cons, not_or] at h
    simp [lookupEntry, h.1, ih h.2]

theorem find_foldl_mergeStep (k : Bytes) :
    ∀ (l : List (Bytes × Option Bytes)), (l.map Prod.fst).Nodup → ∀ m : OutputMap,
      (l.foldl mergeStep m).find k = match lookupEntry k l with
        | some v => some (v.elim ((m.find k).getD none) some)
        | none => m.find k
  | [], _, _ => rfl
  | (k', v) :: l, hl, m => by
    rw [List.map_cons, List.nodup_cons] at hl
    rw [List.foldl_cons, find_foldl_mergeStep k l hl.2]
    by_cases hk : k = k'
    · subst hk
      simp [lookupEntry_eq_none hl.1, lookupEntry, mergeStep_find_self]
    · simp [lookupEntry, hk, @mergeStep_find_ne m k (k', v) hk]

/-- What the merge gives the output `k`, as the comment of the loop says: the daemon's path
when it knows one; else the statically known entry; else, for an output only the daemon
lists, no path; and no entry for an output neither lists. -/
def mergedEntry (S D : OutputMap) (k : Bytes) : Option (Option Bytes) :=
  match D.find k, S.find k with
  | some (some p), _ => some (some p)
  | _, some v => some v
  | some none, none => some none
  | none, none => none

theorem mergeOutputs_find (S D : OutputMap) (k : Bytes) :
    (mergeOutputs S D).find k = mergedEntry S D k := by
  rw [mergeOutputs, find_foldl_mergeStep k D.entries D.nodup_keys S]
  unfold mergedEntry OutputMap.find
  rcases lookupEntry k D.entries with _ | _ | p <;> rcases lookupEntry k S.entries with _ | v <;> rfl

def queryDerivationOutputMapHeld (cfg : Config) (path : Bytes) : HandleM OutputMap := do
  writeRequest cfg .queryDerivationOutputMap (writeString path)
  handleProcessStderr cfg none none true
  OutputMap.ofList <$> readReply fun _ => Codec.list (Codec.string.pair cfg.P.optionalStorePath)

/-- `RemoteStore::queryPartialDerivationOutputMap(path, evalStore_)`. The version comes from
`getProtocol()`; with an evaluation store, the daemon's map is the one of the call with
`nullptr`. -/
def queryPartialDerivationOutputMap (cfg : Config) (path : Bytes) (evalStore : Option EvalStore) :
    StoreM OutputMap := do
  let v ← getProtocol cfg
  if 22 ≤ getProtocolMinor v then
    match evalStore with
    | none => withConnection cfg (queryDerivationOutputMapHeld cfg path)
    | some ev => do
      let outputs ← ofExcept (ev.staticOutputMap path)
      let daemon ← queryPartialDerivationOutputMap cfg path none
      pure (mergeOutputs outputs daemon)
  else
    match evalStore with
    | some ev => ofExcept (ev.staticOutputMap path)
    | none => cfg.storeStaticOutputMap path
termination_by evalStore.isSome.toNat

def queryDerivationOutputsHeld (cfg : Config) (path : Bytes) : HandleM (List Bytes) := do
  writeRequest cfg .queryDerivationOutputs (writeString path)
  handleProcessStderr cfg none none true
  readReply fun _ => storePaths

/-- `RemoteStore::queryDerivationOutputs(path)`: from minor 22 on the base class's, before it
the daemon's answer. The version comes from `getProtocol()`. -/
def queryDerivationOutputs (cfg : Config) (path : Bytes) : StoreM (List Bytes) := do
  let v ← getProtocol cfg
  if 22 ≤ getProtocolMinor v then cfg.storeQueryDerivationOutputs path
  else withConnection cfg (queryDerivationOutputsHeld cfg path)

/-- `queryPartialDerivationOutputMap(path, nullptr)` with the gate read on the handle that
sends the request. -/
def queryPartialDerivationOutputMapOnCarrier (cfg : Config) (path : Bytes) : StoreM OutputMap := do
  let daemon ← withConnection cfg do
    let hs ← get
    if 22 ≤ getProtocolMinor hs.conn.daemonVersion then
      some <$> queryDerivationOutputMapHeld cfg path
    else pure none
  match daemon with
  | some m => pure m
  | none => cfg.storeStaticOutputMap path

/-- `queryDerivationOutputs(path)` with the gate read on the handle that would send the
request. -/
def queryDerivationOutputsOnCarrier (cfg : Config) (path : Bytes) : StoreM (List Bytes) := do
  let paths ← withConnection cfg do
    let hs ← get
    if 22 ≤ getProtocolMinor hs.conn.daemonVersion then pure none
    else
      some <$> queryDerivationOutputsHeld cfg path
  match paths with
  | some ps => pure ps
  | none => cfg.storeQueryDerivationOutputs path

section Carrier
variable (cfg : Config) {s s₁ : StoreState} {c : Connection}

theorem queryPartialDerivationOutputMap_decides_on_carrier (hget : poolGet cfg s = .ok c s₁)
    (hlive : validator cfg s₁.now c = true) (path : Bytes) :
    queryPartialDerivationOutputMap cfg path none s =
      queryPartialDerivationOutputMapOnCarrier cfg path s := by
  rw [queryPartialDerivationOutputMap, run_bind, getProtocol_ok_get cfg hget,
    queryPartialDerivationOutputMapOnCarrier, run_bind, withConnection_get_bind cfg hget]
  dsimp only
  split_ifs
  · rw [withConnection_map, withConnection_giveBack_live cfg hget hlive, run_map]
    cases withConnection cfg (queryDerivationOutputMapHeld cfg path) s <;> rfl
  · rw [withConnection_ok_get cfg hget]
    rfl

theorem queryDerivationOutputs_decides_on_carrier (hget : poolGet cfg s = .ok c s₁)
    (hlive : validator cfg s₁.now c = true) (path : Bytes) :
    queryDerivationOutputs cfg path s = queryDerivationOutputsOnCarrier cfg path s := by
  rw [queryDerivationOutputs, run_bind, getProtocol_ok_get cfg hget,
    queryDerivationOutputsOnCarrier, run_bind, withConnection_get_bind cfg hget]
  dsimp only
  split_ifs
  · rw [withConnection_ok_get cfg hget]
    rfl
  · rw [withConnection_map, withConnection_giveBack_live cfg hget hlive, run_map]
    cases withConnection cfg (queryDerivationOutputsHeld cfg path) s <;> rfl

/-- Four operations read a version gate through a handle other than the one that sends their
request: `addMultipleToStore(source)` through a temporary handle, the overload for a list of
paths, `queryPartialDerivationOutputMap` and `queryDerivationOutputs` through
`getProtocol()`. When the connection that answered is still live as it is given back, the
pool hands it out again, and each behaves as if it read the gate on the connection that
carries its request. -/
theorem version_gates_agree_with_carrier_when_live (hget : poolGet cfg s = .ok c s₁)
    (hlive : validator cfg s₁.now c = true) :
    (∀ source repair checkSigs, addMultipleToStore cfg source repair checkSigs s =
      addMultipleToStoreOnCarrier cfg source repair checkSigs s) ∧
    (∀ writeInfo pathsToCopy repair checkSigs,
      addMultipleToStorePaths cfg writeInfo pathsToCopy repair checkSigs s =
        addMultipleToStorePathsOnCarrier cfg writeInfo pathsToCopy repair checkSigs s) ∧
    (∀ path, queryPartialDerivationOutputMap cfg path none s =
      queryPartialDerivationOutputMapOnCarrier cfg path s) ∧
    (∀ path, queryDerivationOutputs cfg path s = queryDerivationOutputsOnCarrier cfg path s) :=
  ⟨addMultipleToStore_decides_on_carrier cfg hget hlive,
    addMultipleToStorePaths_decides_on_carrier cfg hget hlive,
    queryPartialDerivationOutputMap_decides_on_carrier cfg hget hlive,
    queryDerivationOutputs_decides_on_carrier cfg hget hlive⟩

end Carrier

theorem version_gates_agree_with_carrier_when_live_minor32 :
    poolGet (Config.scenario [] 1 1000) (StoreState.withIdle (Connection.greeted 0x120 [])) =
      .ok (Connection.greeted 0x120 [])
        { StoreState.withIdle (Connection.greeted 0x120 []) with pool := ⟨[], 1, 1⟩ } ∧
    validator (Config.scenario [] 1 1000) 0 (Connection.greeted 0x120 []) = true ∧
    addMultipleToStore (Config.scenario [] 1 1000) [.chunk (txt "nar")] false true
        (StoreState.withIdle (Connection.greeted 0x120 [])) =
      addMultipleToStoreOnCarrier (Config.scenario [] 1 1000) [.chunk (txt "nar")] false true
        (StoreState.withIdle (Connection.greeted 0x120 [])) ∧
    queryDerivationOutputs (Config.scenario [] 1 1000) (txt "/nix/store/x.drv")
        (StoreState.withIdle (Connection.greeted 0x120 [])) =
      queryDerivationOutputsOnCarrier (Config.scenario [] 1 1000) (txt "/nix/store/x.drv")
        (StoreState.withIdle (Connection.greeted 0x120 [])) :=
  have h := @version_gates_agree_with_carrier_when_live (Config.scenario [] 1 1000)
    (StoreState.withIdle (Connection.greeted 0x120 []))
    { StoreState.withIdle (Connection.greeted 0x120 []) with pool := ⟨[], 1, 1⟩ }
    (Connection.greeted 0x120 []) rfl rfl
  ⟨rfl, rfl, h.1 _ _ _, h.2.2.2 _⟩

def Connection.reportsOutputs : Connection :=
  Connection.greeted 0x120 (Terminal.encode Protocol.scenario .last ++
    (Codec.list (Codec.string.pair Codec.optionalStorePath)).encode
      [(txt "dev", none), (txt "out", some (txt "/nix/store/d-out"))])

/-- With a daemon of minor 22 or later and an evaluation store, the result has an entry for
every output either map lists: the daemon's path where it knows one, else the statically
known entry, else no path. -/
theorem queryPartialDerivationOutputMap_merges (cfg : Config) {ev : EvalStore} {path : Bytes}
    {v : Nat} {s s₁ s₂ : StoreState} {S D : OutputMap} (hv : getProtocol cfg s = .ok v s₁)
    (h22 : 22 ≤ getProtocolMinor v) (hS : ev.staticOutputMap path = .ok S)
    (hD : queryPartialDerivationOutputMap cfg path none s₁ = .ok D s₂) :
    ∃ R, queryPartialDerivationOutputMap cfg path (some ev) s = .ok R s₂ ∧
      ∀ k, R.find k = mergedEntry S D k := by
  rw [queryPartialDerivationOutputMap]
  simp only [run_bind, hv, if_pos h22, hS, ofExcept, run_pure, hD]
  exact ⟨_, rfl, mergeOutputs_find S D⟩

theorem queryPartialDerivationOutputMap_merges_minor32 :
    ∃ s₂ R, queryPartialDerivationOutputMap (Config.scenario [] 1 1000) (txt "/nix/store/x.drv")
        (some (EvalStore.withStatic (OutputMap.ofList
          [(txt "dev", some (txt "/nix/store/s-dev")), (txt "out", some (txt "/nix/store/s-out"))])))
        (StoreState.withIdle Connection.reportsOutputs) = .ok R s₂ ∧
      ∀ k, R.find k = mergedEntry
        (OutputMap.ofList
          [(txt "dev", some (txt "/nix/store/s-dev")), (txt "out", some (txt "/nix/store/s-out"))])
        (OutputMap.ofList [(txt "dev", none), (txt "out", some (txt "/nix/store/d-out"))]) k := by
  have hget : poolGet (Config.scenario [] 1 1000) (StoreState.withIdle Connection.reportsOutputs) =
      .ok Connection.reportsOutputs
        { StoreState.withIdle Connection.reportsOutputs with pool := ⟨[], 1, 1⟩ } := rfl
  have hagain := @poolGet_giveBack (Config.scenario [] 1 1000)
    { StoreState.withIdle Connection.reportsOutputs with pool := ⟨[], 1, 1⟩ } Connection.reportsOutputs
    rfl (by decide)
  exact ⟨_, queryPartialDerivationOutputMap_merges (Config.scenario [] 1 1000)
    (getProtocol_ok_get _ hget) (by decide) rfl
    (by
      rw [queryPartialDerivationOutputMap]
      simp only [run_bind, getProtocol_ok_get _ hagain, run_ite, withConnection_ok_get _ hagain]
      rfl)⟩

end NixRemoteStore
