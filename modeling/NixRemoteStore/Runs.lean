import NixRemoteStore.Builds

/-! # Whole runs of the store

An invariant of the store at each number of handles out and capacity, kept by the pool's
moves, is kept by every operation and so over every run, as long as the caller code the
operations run keeps it too. The facade's flag `failed` is the first such invariant. -/

namespace NixRemoteStore

open Wire

section Preserves
variable {ε σ α β : Type} {P : σ → Prop}

/-- A computation that keeps `P` of its state, however it ends. -/
def Preserves (P : σ → Prop) (m : EStateM ε σ α) : Prop := ∀ s, P s → P (resultState (m s))

theorem preserves_pure (a : α) : Preserves P (pure a : EStateM ε σ α) := fun _ h => h

theorem preserves_throw (e : ε) : Preserves P (throw e : EStateM ε σ α) := fun _ h => h

theorem preserves_get_bind {f : σ → EStateM ε σ α} (hf : ∀ s, Preserves P (f s)) :
    Preserves P (get >>= f) :=
  fun s h => hf s s h

theorem preserves_bind {m : EStateM ε σ α} {f : α → EStateM ε σ β} (hm : Preserves P m)
    (hf : ∀ a, Preserves P (f a)) : Preserves P (m >>= f) := by
  intro s h
  have h' := hm s h
  simp only [run_bind]
  cases hr : m s with
  | ok a s' => rw [hr] at h'; exact hf a s' h'
  | error e s' => rw [hr] at h'; exact h'

theorem preserves_ite {c : Prop} [Decidable c] {x y : EStateM ε σ α} (hx : Preserves P x)
    (hy : Preserves P y) : Preserves P (if c then x else y) := by
  split <;> assumption

theorem preserves_tryCatch {m : EStateM ε σ α} {k : ε → EStateM ε σ α} (hm : Preserves P m)
    (hk : ∀ e, Preserves P (k e)) : Preserves P (tryCatch m k) := by
  intro s h
  have h' := hm s h
  simp only [run_tryCatch]
  cases hr : m s with
  | ok a s' => rw [hr] at h'; exact h'
  | error e s' => rw [hr] at h'; exact hk e s' h'

theorem preserves_map (f : α → β) {m : EStateM ε σ α} (hm : Preserves P m) :
    Preserves P (f <$> m) := by
  intro s h
  have h' := hm s h
  simp only [run_map]
  cases hr : m s <;> rw [hr] at h' <;> exact h'

theorem ofExcept_preserves (x : Except Exn α) : Preserves P (ofExcept x : EStateM Exn σ α) := by
  cases x <;> exact fun _ h => h

end Preserves

section Framing

variable {Q : StoreState → Prop}

/-- `Q` reads neither the effects caller code observes nor the scheduler's choices. -/
def StoreFrame (Q : StoreState → Prop) : Prop :=
  ∀ s fx sched, Q s → Q { s with fx := fx, sched := sched }

def HandleState.Holds (Q : StoreState → Prop) (hs : HandleState) : Prop := Q hs.store

def StepsHold (Q : StoreState → Prop) (steps : List ProducerStep) : Prop :=
  ∀ m, ProducerStep.call m ∈ steps → Preserves Q m

theorem StepsHold.tail {p : ProducerStep} {ps : List ProducerStep} (h : StepsHold Q (p :: ps)) :
    StepsHold Q ps :=
  fun m hm => h m (List.mem_cons_of_mem _ hm)

theorem StepsHold.head {p : ProducerStep} {ps : List ProducerStep} (h : StepsHold Q (p :: ps)) :
    StepsHold Q [p] :=
  fun m hm => h m (List.mem_singleton.mp hm ▸ List.mem_cons_self _ _)

theorem onConn_holds (hQ : StoreFrame Q) {α : Type} (m : ConnM α) :
    Preserves (HandleState.Holds Q) (onConn m) := by
  intro hs h
  unfold onConn
  split <;> exact hQ _ _ _ h

theorem onStore_holds {α : Type} {m : StoreM α} (hm : Preserves Q m) :
    Preserves (HandleState.Holds Q) (onStore m) := by
  intro hs h
  have h' := hm hs.store h
  unfold onStore
  split <;> rename_i heq <;> rw [heq] at h' <;> exact h'

theorem drainDump_holds : ∀ {steps : List ProducerStep}, StepsHold Q steps →
    Preserves (HandleState.Holds Q) (drainDump steps)
  | [], _ => preserves_pure _
  | .chunk _ :: _, h => preserves_bind (drainDump_holds h.tail) fun _ => preserves_pure _
  | .call _ :: _, h =>
    preserves_bind (onStore_holds (h _ (List.mem_cons_self _ _))) fun _ => drainDump_holds h.tail
  | .raise _ :: _, _ => preserves_throw _

theorem drainDumpInto_holds (hQ : StoreFrame Q) : ∀ {steps : List ProducerStep}, StepsHold Q steps →
    Preserves (HandleState.Holds Q) (drainDumpInto steps)
  | [], _ => preserves_pure _
  | .chunk _ :: _, h => preserves_bind (onConn_holds hQ _) fun _ => drainDumpInto_holds hQ h.tail
  | .call _ :: _, h =>
    preserves_bind (onStore_holds (h _ (List.mem_cons_self _ _))) fun _ =>
      drainDumpInto_holds hQ h.tail
  | .raise _ :: _, _ => preserves_throw _

variable (cfg : Config)

theorem rethrowDaemon_holds (o : Option ErrorInfo) :
    Preserves (HandleState.Holds Q) (rethrowDaemon cfg o) := by
  intro hs h
  cases o <;> exact h

theorem handleProcessStderr_holds (hQ : StoreFrame Q) (sink : Option Sink) (source : Option Source)
    (doFlush : Bool) : Preserves (HandleState.Holds Q) (handleProcessStderr cfg sink source doFlush) :=
  preserves_bind (onConn_holds hQ _) (rethrowDaemon_holds cfg)

theorem writeRequest_holds (hQ : StoreFrame Q) (op : Op) (args : Bytes) :
    Preserves (HandleState.Holds Q) (writeRequest cfg op args) :=
  onConn_holds hQ _

theorem readReply_holds (hQ : StoreFrame Q) {α : Type} (c : Nat → Codec α) :
    Preserves (HandleState.Holds Q) (readReply c) :=
  preserves_get_bind fun _ => onConn_holds hQ _

theorem afterSendFailure_holds (hQ : StoreFrame Q) (e : Exn) :
    Preserves (HandleState.Holds Q) (afterSendFailure cfg e) := by
  unfold afterSendFailure
  repeat' first
    | with_reducible refine preserves_bind ?_ fun _ => ?_
    | with_reducible refine preserves_ite ?_ ?_
    | with_reducible refine preserves_tryCatch ?_ fun _ => ?_
    | with_reducible exact preserves_pure _
    | with_reducible exact preserves_throw _
    | with_reducible exact handleProcessStderr_holds cfg hQ _ _ _
    | split

def FramedCfg.Holds (Q : StoreState → Prop) (c : FramedCfg) : Prop :=
  c.hs.Holds Q ∧ StepsHold Q c.steps

theorem producerStep_holds {ex : Option Exn} {p : ProducerStep} {hs : HandleState}
    (hp : StepsHold Q [p]) (h : hs.Holds Q) : (producerStep ex p hs).2.Holds Q := by
  cases p with
  | chunk data =>
    simp only [producerStep]
    split_ifs
    · exact h
    · split <;> exact h
  | call m =>
    have h' := hp m (List.mem_singleton_self _) hs.store h
    simp only [producerStep]
    split <;> rename_i heq <;> rw [heq] at h' <;> exact h'
  | raise e => exact h

theorem eventStep_holds (hQ : StoreFrame Q) {f : Nat} {hs : HandleState} (h : hs.Holds Q) :
    (eventStep cfg f hs).2.Holds Q := by
  have h' := onConn_holds hQ (processStderrStep cfg.P none none) hs h
  unfold eventStep
  split
  · exact h
  · split <;> rename_i heq <;> rw [heq] at h' <;> exact h'

theorem framedStep_holds (hQ : StoreFrame Q) {c : FramedCfg} (hc : c.Holds Q) :
    (framedStep cfg c).Holds Q := by
  have hprod : c.producerMoves.Holds Q := by
    unfold FramedCfg.producerMoves
    split
    · exact ⟨hc.1, hc.2⟩
    · rename_i p ps hsteps
      have hks : StepsHold Q (p :: ps) := hsteps ▸ hc.2
      exact ⟨producerStep_holds hks.head hc.1, hks.tail⟩
  have hev : ∀ f, (c.eventMoves cfg f).Holds Q := fun f => ⟨eventStep_holds cfg hQ hc.1, hc.2⟩
  unfold framedStep
  split
  · split
    · exact hprod
    · exact hev _
  · exact hprod
  · exact hev _
  · exact hc

theorem framedStep_iterate_holds (hQ : StoreFrame Q) {c : FramedCfg} (hc : c.Holds Q) (n : Nat) :
    ((framedStep cfg)^[n] c).Holds Q := by
  induction n with
  | zero => exact hc
  | succ n ih =>
    rw [Function.iterate_succ_apply']
    exact framedStep_holds cfg hQ ih

theorem result_holds (hQ : StoreFrame Q) {c : FramedCfg} (h : c.hs.Holds Q) :
    (resultState (FramedCfg.result cfg c)).Holds Q := by
  unfold FramedCfg.result
  dsimp only
  repeat' split
  all_goals exact hQ _ _ _ h

theorem withFramedSink_holds (hQ : StoreFrame Q) {steps : List ProducerStep} (h : StepsHold Q steps) :
    Preserves (HandleState.Holds Q) (withFramedSink cfg steps) := fun hs hh =>
  result_holds cfg hQ (@framedStep_iterate_holds Q cfg hQ (FramedCfg.start hs steps) ⟨hh, h⟩ _).1

end Framing

/-- An invariant of the store at `n` handles out and capacity `k` that the pool's moves keep:
a handle handed out counts one more, a handle given back one fewer, and a capacity window
raises the capacity by one while it lasts. -/
structure StoreInv (cfg : Config) where
  I : Nat → Nat → StoreState → Prop
  frame : ∀ n k, StoreFrame (I n k)
  poolGet_ok : ∀ {s s' : StoreState} {c : Connection} {n k : Nat},
    poolGet cfg s = .ok c s' → I n k s → I (n + 1) k s'
  poolGet_error : ∀ {s s' : StoreState} {e : Exn} {n k : Nat},
    poolGet cfg s = .error e s' → I n k s → I n k s'
  giveBack : ∀ {s : StoreState} {c : Connection} {bad : Bool} {n k : Nat},
    I (n + 1) k s → I n k (s.giveBack cfg c bad)
  incCapacity : ∀ {s : StoreState} {n k : Nat},
    I n k s → I n (k + 1) { s with pool := s.pool.incCapacity }
  decCapacity : ∀ {s : StoreState} {n k : Nat},
    I n (k + 1) s → I n k { s with pool := s.pool.decCapacity }

namespace StoreInv
variable {cfg : Config} (J : StoreInv cfg)

/-- A store computation keeps the invariant at every count, however it ends. -/
def Keeps {α : Type} (m : StoreM α) : Prop := ∀ n k, Preserves (J.I n k) m

def KeepsSteps (steps : List ProducerStep) : Prop :=
  ∀ m, ProducerStep.call m ∈ steps → J.Keeps m

theorem KeepsSteps.hold {J : StoreInv cfg} {steps : List ProducerStep} (h : J.KeepsSteps steps)
    (n k : Nat) : StepsHold (J.I n k) steps :=
  fun m hm => h m hm n k

/-- What the store's own fallbacks ask: the base class's `addMultipleToStore` and the static
output map keep the invariant. -/
def KeepsConfig : Prop :=
  (∀ source repair checkSigs, J.Keeps (cfg.storeAddMultipleToStore source repair checkSigs)) ∧
    ∀ path, J.Keeps (cfg.storeStaticOutputMap path)

def KeepsEval (ev : EvalStore) : Prop :=
  (∀ paths, J.Keeps (ev.copyClosure paths)) ∧
    ∀ drvPath outputs, J.Keeps (ev.resolveBuilt drvPath outputs)

/-- A `ConnectionHandle` gives its connection back however its body ends. -/
theorem withConnection_inv {α : Type} {body : HandleM α} {n k : Nat}
    (hb : Preserves (HandleState.Holds (J.I (n + 1) k)) body) :
    Preserves (J.I n k) (withConnection cfg body) := by
  intro s h
  rcases hg : poolGet cfg s with ⟨c, s₁⟩ | ⟨e, s₁⟩
  · have h₂ := hb ⟨s₁, c, false⟩ (J.poolGet_ok hg h)
    rw [withConnection_ok_get cfg hg]
    split <;> rename_i heq <;> rw [heq] at h₂ <;> exact J.giveBack h₂
  · rw [withConnection_error_get cfg hg]
    exact J.poolGet_error hg h

/-- A bare `Pool::Handle` gives its connection back however its body ends. -/
theorem withPoolHandle_keeps {α : Type} (body : ConnM α) : J.Keeps (withPoolHandle cfg body) := by
  intro n k s h
  unfold withPoolHandle
  rw [run_bind]
  rcases hg : poolGet cfg s with ⟨c, s₁⟩ | ⟨e, s₁⟩
  · have h₁ := J.poolGet_ok hg h
    dsimp only
    split <;> exact J.giveBack (J.frame _ _ _ _ s₁.sched h₁)
  · exact J.poolGet_error hg h

/-- The `Finally` of a capacity window lowers the capacity it raised, however the body ends. -/
theorem withRoom_inv {α : Type} {m : HandleM α} {n k : Nat}
    (hm : Preserves (HandleState.Holds (J.I n (k + 1))) m) :
    Preserves (HandleState.Holds (J.I n k)) (withRoom m) := by
  intro hs h
  have h' := hm { hs with store := { hs.store with pool := hs.store.pool.incCapacity } }
    (J.incCapacity h)
  unfold withRoom
  split <;> rename_i heq <;> rw [heq] at h' <;> exact J.decCapacity h'

theorem simpleOp_keeps {α : Type} (op : Op) (args : Nat → Bytes) (reply : Nat → Reader α) :
    J.Keeps (simpleOp cfg op args reply) := fun _ _ =>
  J.withConnection_inv <| preserves_get_bind fun _ =>
    preserves_bind (writeRequest_holds cfg (J.frame _ _) _ _) fun _ =>
      preserves_bind (handleProcessStderr_holds cfg (J.frame _ _) _ _ _) fun _ =>
        onConn_holds (J.frame _ _) _

theorem queryPathInfoUncached_keeps (path : Bytes) : J.Keeps (queryPathInfoUncached cfg path) :=
  fun _ _ => by
  refine J.withConnection_inv ?_
  repeat' first
    | with_reducible refine preserves_get_bind fun _ => ?_
    | with_reducible refine preserves_bind ?_ fun _ => ?_
    | with_reducible refine preserves_ite ?_ ?_
    | with_reducible refine preserves_tryCatch ?_ fun _ => ?_
    | with_reducible refine preserves_map _ ?_
    | with_reducible exact preserves_pure _
    | with_reducible exact preserves_throw _
    | with_reducible exact onConn_holds (J.frame _ _) _
    | with_reducible exact writeRequest_holds cfg (J.frame _ _) _ _
    | with_reducible exact handleProcessStderr_holds cfg (J.frame _ _) _ _ _
    | with_reducible exact readReply_holds (J.frame _ _) _

theorem queryRealisationUncached_keeps (id : DrvOutput) :
    J.Keeps (queryRealisationUncached cfg id) := fun _ _ => by
  refine J.withConnection_inv ?_
  repeat' first
    | with_reducible refine preserves_get_bind fun _ => ?_
    | with_reducible refine preserves_bind ?_ fun _ => ?_
    | with_reducible refine preserves_ite ?_ ?_
    | with_reducible exact preserves_pure _
    | with_reducible exact onConn_holds (J.frame _ _) _
    | with_reducible exact writeRequest_holds cfg (J.frame _ _) _ _
    | with_reducible exact handleProcessStderr_holds cfg (J.frame _ _) _ _ _
    | with_reducible exact readReply_holds (J.frame _ _) _

theorem addCAToStoreHeld_inv {dump : List ProducerStep} (h : J.KeepsSteps dump) (name : Bytes)
    (caMethod : ContentAddressMethod) (hashType : HashType) (references : List Bytes) (repair : Bool)
    (n k : Nat) : Preserves (HandleState.Holds (J.I n k))
      (addCAToStoreHeld cfg dump name caMethod hashType references repair) := by
  have hw : ∀ n k, Preserves (HandleState.Holds (J.I n k)) (withFramedSink cfg dump) :=
    fun n k => withFramedSink_holds cfg (J.frame n k) (h.hold n k)
  have hd : ∀ n k, Preserves (HandleState.Holds (J.I n k)) (drainDump dump) :=
    fun n k => drainDump_holds (h.hold n k)
  have hi : ∀ n k, Preserves (HandleState.Holds (J.I n k)) (drainDumpInto dump) :=
    fun n k => drainDumpInto_holds (J.frame n k) (h.hold n k)
  unfold addCAToStoreHeld
  repeat' first
    | with_reducible refine preserves_get_bind fun _ => ?_
    | with_reducible refine preserves_bind ?_ fun _ => ?_
    | with_reducible refine preserves_ite ?_ ?_
    | with_reducible refine preserves_tryCatch ?_ fun _ => ?_
    | with_reducible refine preserves_map _ ?_
    | with_reducible refine J.withRoom_inv ?_
    | with_reducible exact preserves_pure _
    | with_reducible exact preserves_throw _
    | with_reducible exact onConn_holds (J.frame _ _) _
    | with_reducible exact writeRequest_holds cfg (J.frame _ _) _ _
    | with_reducible exact handleProcessStderr_holds cfg (J.frame _ _) _ _ _
    | with_reducible exact readReply_holds (J.frame _ _) _
    | with_reducible exact afterSendFailure_holds cfg (J.frame _ _) _
    | with_reducible exact hw _ _
    | with_reducible exact hd _ _
    | with_reducible exact hi _ _
    | split

theorem addCAToStore_keeps {dump : List ProducerStep} (h : J.KeepsSteps dump) (name : Bytes)
    (caMethod : ContentAddressMethod) (hashType : HashType) (references : List Bytes)
    (repair : Bool) : J.Keeps (addCAToStore cfg dump name caMethod hashType references repair) :=
  fun n k => preserves_bind (J.withConnection_inv (J.addCAToStoreHeld_inv h _ _ _ _ _ _ _))
    fun r => by
      rcases r with _ | path
      · exact preserves_pure _
      · exact preserves_bind (J.queryPathInfoUncached_keeps path n k) fun o => by
          cases o
          · exact preserves_throw _
          · exact preserves_pure _

theorem addToStore_keeps (info : ValidPathInfo) {nar : List ProducerStep} (h : J.KeepsSteps nar)
    (source : Source) (repair checkSigs : Bool) :
    J.Keeps (addToStore cfg info nar source repair checkSigs) := fun _ _ =>
  J.withConnection_inv (preserves_bind (writeRequest_holds cfg (J.frame _ _) _ _) fun _ =>
    preserves_get_bind fun _ => preserves_ite (withFramedSink_holds cfg (J.frame _ _) (h.hold _ _))
      (handleProcessStderr_holds cfg (J.frame _ _) _ _ _))

theorem addMultipleToStore_keeps {source : List ProducerStep} (h : J.KeepsSteps source)
    (hcfg : J.KeepsConfig) (repair checkSigs : Bool) :
    J.Keeps (addMultipleToStore cfg source repair checkSigs) := fun n k =>
  preserves_bind (J.withConnection_inv (preserves_get_bind fun _ => preserves_pure _))
    fun _ => preserves_ite (J.withConnection_inv (preserves_bind
      (writeRequest_holds cfg (J.frame _ _) _ _) fun _ =>
        withFramedSink_holds cfg (J.frame _ _) (h.hold _ _))) (hcfg.1 _ _ _ n k)

theorem addMultipleToStorePaths_keeps (writeInfo : Nat → ValidPathInfo → Bytes)
    {pathsToCopy : List (ValidPathInfo × List ProducerStep)}
    (h : ∀ p ∈ pathsToCopy, J.KeepsSteps p.2) (hcfg : J.KeepsConfig) (repair checkSigs : Bool) :
    J.Keeps (addMultipleToStorePaths cfg writeInfo pathsToCopy repair checkSigs) := fun n k =>
  preserves_bind (J.withPoolHandle_keeps _ n k) fun v => J.addMultipleToStore_keeps
    (fun m hm => by
      simp only [pathsSource, List.mem_cons, List.mem_flatMap] at hm
      obtain ⟨p, hp, hm | hm⟩ := hm.resolve_left (by simp)
      · cases hm
      · exact h p hp m hm)
    hcfg _ _ n k

theorem copyDrvsFromEvalStore_keeps (paths : List DerivedPath) {evalStore : Option EvalStore}
    (hev : ∀ ev ∈ evalStore, J.KeepsEval ev) : J.Keeps (copyDrvsFromEvalStore paths evalStore) := by
  intro n k
  cases evalStore with
  | none => exact preserves_pure _
  | some ev => exact preserves_ite (preserves_pure _) ((hev ev rfl).1 _ n k)

theorem buildPaths_keeps (paths : List DerivedPath) (buildMode : Nat)
    {evalStore : Option EvalStore} (hev : ∀ ev ∈ evalStore, J.KeepsEval ev) :
    J.Keeps (buildPaths cfg paths buildMode evalStore) := fun n k =>
  preserves_bind (J.copyDrvsFromEvalStore_keeps paths hev n k) fun _ =>
    preserves_bind (J.simpleOp_keeps _ _ _ n k) fun _ => preserves_pure _

theorem builtOutput_keeps (drvPath : Bytes) (outputHashes : List (Bytes × Bytes))
    (output outputPath : Bytes) : J.Keeps (builtOutput cfg drvPath outputHashes output outputPath) := by
  intro n k
  unfold builtOutput
  split
  · exact preserves_throw _
  · refine preserves_ite (preserves_bind (J.queryRealisationUncached_keeps _ n k) fun o => ?_)
      (preserves_pure _)
    cases o
    · exact preserves_throw _
    · exact preserves_pure _

theorem mapM_keeps {α β : Type} {f : α → StoreM β} (hf : ∀ a, J.Keeps (f a)) :
    ∀ l : List α, J.Keeps (l.mapM f)
  | [], _, _ => preserves_pure _
  | a :: l, n, k => by
    rw [List.mapM_cons]
    exact preserves_bind (hf a n k) fun _ =>
      preserves_bind (mapM_keeps hf l n k) fun _ => preserves_pure _

theorem compatResult_keeps {evalStore : Option EvalStore} (hev : ∀ ev ∈ evalStore, J.KeepsEval ev)
    (p : DerivedPath) : J.Keeps (compatResult cfg evalStore p) := by
  intro n k
  cases p with
  | opaquePath _ => exact preserves_pure _
  | built drvPath outputs =>
    cases evalStore with
    | none => exact preserves_throw _
    | some ev =>
      simp only [compatResult, derefEvalStore, pure_bind]
      exact preserves_bind (ofExcept_preserves _) fun _ =>
        preserves_bind ((hev ev rfl).2 _ _ n k) fun _ =>
          preserves_bind (J.mapM_keeps (fun _ => J.builtOutput_keeps _ _ _ _) _ n k) fun _ =>
            preserves_pure _

theorem buildPathsWithResults_keeps (paths : List DerivedPath) (buildMode : Nat)
    {evalStore : Option EvalStore} (hev : ∀ ev ∈ evalStore, J.KeepsEval ev) :
    J.Keeps (buildPathsWithResults cfg paths buildMode evalStore) := by
  intro n k
  refine preserves_bind (J.copyDrvsFromEvalStore_keeps paths hev n k) fun _ =>
    preserves_bind (J.withConnection_inv (preserves_get_bind fun _ => preserves_ite
      (preserves_bind (writeRequest_holds cfg (J.frame _ _) _ _) fun _ =>
        preserves_bind (handleProcessStderr_holds cfg (J.frame _ _) _ _ _) fun _ =>
          preserves_map _ (readReply_holds (J.frame _ _) _)) (preserves_pure _))) fun r => ?_
  cases r with
  | some _ => exact preserves_pure _
  | none =>
    exact preserves_bind (J.buildPaths_keeps paths buildMode hev n k) fun _ =>
      J.mapM_keeps (J.compatResult_keeps hev) paths n k

theorem queryPartialDerivationOutputMap_keeps (hcfg : J.KeepsConfig) (path : Bytes)
    (evalStore : Option EvalStore) :
    J.Keeps (queryPartialDerivationOutputMap cfg path evalStore) := by
  intro n k
  have hnone : Preserves (J.I n k) (queryPartialDerivationOutputMap cfg path none) := by
    rw [queryPartialDerivationOutputMap]
    exact preserves_bind (J.withPoolHandle_keeps _ n k) fun _ => preserves_ite
      (J.withConnection_inv (preserves_bind (writeRequest_holds cfg (J.frame _ _) _ _)
        fun _ => preserves_bind (handleProcessStderr_holds cfg (J.frame _ _) _ _ _) fun _ =>
          preserves_map _ (readReply_holds (J.frame _ _) _))) (hcfg.2 _ n k)
  cases evalStore with
  | none => exact hnone
  | some ev =>
    rw [queryPartialDerivationOutputMap]
    exact preserves_bind (J.withPoolHandle_keeps _ n k) fun _ => preserves_ite
      (preserves_bind (ofExcept_preserves _) fun _ => preserves_bind hnone fun _ => preserves_pure _)
      (ofExcept_preserves _)

end StoreInv

/-- The calls a caller can make on the store. -/
inductive Call : Type 1
  | simple {α : Type} (op : Op) (args : Nat → Bytes) (reply : Nat → Reader α)
  | getProtocol
  | getVersion
  | isTrustedClient
  | connect
  | queryPathInfo (path : Bytes)
  | queryRealisation (id : DrvOutput)
  | narFromPath (path : Bytes) (sink : Sink)
  | addCAToStore (dump : List ProducerStep) (name : Bytes) (caMethod : ContentAddressMethod)
      (hashType : HashType) (references : List Bytes) (repair : Bool)
  | addToStore (info : ValidPathInfo) (nar : List ProducerStep) (source : Source)
      (repair checkSigs : Bool)
  | addMultipleToStore (source : List ProducerStep) (repair checkSigs : Bool)
  | addMultipleToStorePaths (writeInfo : Nat → ValidPathInfo → Bytes)
      (pathsToCopy : List (ValidPathInfo × List ProducerStep)) (repair checkSigs : Bool)
  | buildPaths (paths : List DerivedPath) (buildMode : Nat) (evalStore : Option EvalStore)
  | buildPathsWithResults (paths : List DerivedPath) (buildMode : Nat)
      (evalStore : Option EvalStore)
  | queryPartialDerivationOutputMap (path : Bytes) (evalStore : Option EvalStore)

namespace Call

def run (cfg : Config) : Call → StoreM Unit
  | simple op args reply => discard (simpleOp cfg op args reply)
  | getProtocol => discard (NixRemoteStore.getProtocol cfg)
  | getVersion => discard (NixRemoteStore.getVersion cfg)
  | isTrustedClient => discard (NixRemoteStore.isTrustedClient cfg)
  | connect => NixRemoteStore.connect cfg
  | queryPathInfo path => discard (queryPathInfoUncached cfg path)
  | queryRealisation id => discard (queryRealisationUncached cfg id)
  | narFromPath path sink => NixRemoteStore.narFromPath cfg path sink
  | addCAToStore dump name caMethod hashType references repair =>
    discard (NixRemoteStore.addCAToStore cfg dump name caMethod hashType references repair)
  | addToStore info nar source repair checkSigs =>
    NixRemoteStore.addToStore cfg info nar source repair checkSigs
  | addMultipleToStore source repair checkSigs =>
    NixRemoteStore.addMultipleToStore cfg source repair checkSigs
  | addMultipleToStorePaths writeInfo pathsToCopy repair checkSigs =>
    NixRemoteStore.addMultipleToStorePaths cfg writeInfo pathsToCopy repair checkSigs
  | buildPaths paths buildMode evalStore => NixRemoteStore.buildPaths cfg paths buildMode evalStore
  | buildPathsWithResults paths buildMode evalStore =>
    discard (NixRemoteStore.buildPathsWithResults cfg paths buildMode evalStore)
  | queryPartialDerivationOutputMap path evalStore =>
    discard (NixRemoteStore.queryPartialDerivationOutputMap cfg path evalStore)

end Call

/-- A run: the calls one after the other, each from the state the one before ended in,
whether it returned or raised. -/
def runCalls (cfg : Config) : List Call → StoreState → StoreState
  | [], s => s
  | c :: cs, s => runCalls cfg cs (resultState (c.run cfg s))

namespace StoreInv
variable {cfg : Config} (J : StoreInv cfg)

def KeepsCall : Call → Prop
  | .addCAToStore dump .. => J.KeepsSteps dump
  | .addToStore _ nar .. => J.KeepsSteps nar
  | .addMultipleToStore source .. => J.KeepsSteps source
  | .addMultipleToStorePaths _ pathsToCopy .. => ∀ p ∈ pathsToCopy, J.KeepsSteps p.2
  | .buildPaths _ _ evalStore | .buildPathsWithResults _ _ evalStore =>
    ∀ ev ∈ evalStore, J.KeepsEval ev
  | _ => True

/-- Every call keeps the invariant. -/
theorem run_keeps (hcfg : J.KeepsConfig) : ∀ c : Call, J.KeepsCall c → J.Keeps (c.run cfg)
  | .simple .., _ => fun n k => preserves_map _ (J.simpleOp_keeps _ _ _ n k)
  | .getProtocol, _ => fun n k => preserves_map _ (J.withPoolHandle_keeps _ n k)
  | .getVersion, _ => fun _ _ => preserves_map _ (J.withConnection_inv
      (preserves_get_bind fun _ => preserves_pure _))
  | .isTrustedClient, _ => fun _ _ => preserves_map _ (J.withConnection_inv
      (preserves_get_bind fun _ => preserves_pure _))
  | .connect, _ => fun _ _ => J.withConnection_inv (preserves_pure _)
  | .queryPathInfo _, _ => fun n k => preserves_map _ (J.queryPathInfoUncached_keeps _ n k)
  | .queryRealisation _, _ => fun n k => preserves_map _ (J.queryRealisationUncached_keeps _ n k)
  | .narFromPath _ _, _ => J.withPoolHandle_keeps _
  | .addCAToStore .., h => fun n k => preserves_map _ (J.addCAToStore_keeps h _ _ _ _ _ n k)
  | .addToStore .., h => J.addToStore_keeps _ h _ _ _
  | .addMultipleToStore .., h => J.addMultipleToStore_keeps h hcfg _ _
  | .addMultipleToStorePaths .., h => J.addMultipleToStorePaths_keeps _ h hcfg _ _
  | .buildPaths .., h => J.buildPaths_keeps _ _ h
  | .buildPathsWithResults .., h => fun n k =>
    preserves_map _ (J.buildPathsWithResults_keeps _ _ h n k)
  | .queryPartialDerivationOutputMap _ _, _ => fun n k =>
    preserves_map _ (J.queryPartialDerivationOutputMap_keeps hcfg _ _ n k)

/-- Over every run the invariant holds at the counts it started at. -/
theorem runCalls_keeps (hcfg : J.KeepsConfig) : ∀ (calls : List Call), (∀ c ∈ calls, J.KeepsCall c) →
    ∀ (n k : Nat) (s : StoreState), J.I n k s → J.I n k (runCalls cfg calls s)
  | [], _, _, _, _, h => h
  | c :: cs, hc, n, k, s, h =>
    runCalls_keeps hcfg cs (fun c' h' => hc c' (List.mem_cons_of_mem _ h')) n k _
      (J.run_keeps hcfg c (hc c (List.mem_cons_self _ _)) n k s h)

end StoreInv

def StoreState.Failed (s : StoreState) : Prop := s.failed = true

def StepsKeep (steps : List ProducerStep) : Prop :=
  ∀ m, ProducerStep.call m ∈ steps → Preserves StoreState.Failed m

/-- What the store's own fallbacks ask: the base class's `addMultipleToStore` and the
static output map keep the flag set. -/
def Config.Keeps (cfg : Config) : Prop :=
  (∀ source repair checkSigs, Preserves StoreState.Failed (cfg.storeAddMultipleToStore source repair checkSigs)) ∧
    ∀ path, Preserves StoreState.Failed (cfg.storeStaticOutputMap path)

def EvalStore.Keeps (ev : EvalStore) : Prop :=
  (∀ paths, Preserves StoreState.Failed (ev.copyClosure paths)) ∧
    ∀ drvPath outputs, Preserves StoreState.Failed (ev.resolveBuilt drvPath outputs)

def Call.CallerKeeps : Call → Prop
  | .addCAToStore dump .. => StepsKeep dump
  | .addToStore _ nar .. => StepsKeep nar
  | .addMultipleToStore source .. => StepsKeep source
  | .addMultipleToStorePaths _ pathsToCopy .. => ∀ p ∈ pathsToCopy, StepsKeep p.2
  | .buildPaths _ _ evalStore | .buildPathsWithResults _ _ evalStore => ∀ ev ∈ evalStore, ev.Keeps
  | _ => True

section Failed
variable (cfg : Config)

/-- Once the flag is set, the factory raises and changes nothing: no connection is opened. -/
theorem factory_previouslyFailed {s : StoreState} (h : s.failed = true) :
    factory cfg s = .error (Exn.fail (previouslyFailedMsg cfg)) s := by
  rw [factory_eq, if_pos h]

theorem poolGet_failed {s : StoreState} (h : s.failed = true) :
    (resultState (poolGet cfg s)).failed = true := by
  rw [poolGet_eq]
  split
  · exact h
  · rename_i p _
    rw [factory_previouslyFailed cfg (show ({ s with pool := p } : StoreState).failed = true from h)]
    exact h
  · exact h

/-- The facade's flag is set, whatever the counts. -/
def failedInv : StoreInv cfg where
  I _ _ := StoreState.Failed
  frame _ _ _ _ _ h := h
  poolGet_ok hg h := by simpa only [hg] using poolGet_failed cfg h
  poolGet_error hg h := by simpa only [hg] using poolGet_failed cfg h
  giveBack h := h
  incCapacity h := h
  decCapacity h := h

theorem Call.CallerKeeps.keepsCall {c : Call} (h : c.CallerKeeps) : (failedInv cfg).KeepsCall c := by
  have hsteps : ∀ {steps}, StepsKeep steps → (failedInv cfg).KeepsSteps steps :=
    fun h m hm _ _ => h m hm
  have hev : ∀ {evalStore : Option EvalStore}, (∀ ev ∈ evalStore, ev.Keeps) →
      ∀ ev ∈ evalStore, (failedInv cfg).KeepsEval ev :=
    fun h ev hev => ⟨fun _ _ _ => (h ev hev).1 _, fun _ _ _ _ => (h ev hev).2 _ _⟩
  cases c with
  | addCAToStore | addToStore | addMultipleToStore => exact hsteps h
  | addMultipleToStorePaths => exact fun p hp => hsteps (h p hp)
  | buildPaths | buildPathsWithResults => exact hev h
  | _ => trivial

theorem runCalls_failed (hcfg : cfg.Keeps) (calls : List Call) (hc : ∀ c ∈ calls, c.CallerKeeps)
    (s : StoreState) (h : s.failed = true) : (runCalls cfg calls s).failed = true :=
  (failedInv cfg).runCalls_keeps ⟨fun _ _ _ _ _ => hcfg.1 _ _ _, fun _ _ _ => hcfg.2 _⟩ calls
    (fun c h' => (hc c h').keepsCall cfg) 0 0 s h

end Failed

/-- Opening connections, and the facade's flag, over every greeting and every run. The
factory hands out a connection only after the daemon's magic word, a version the client
accepts, the fields that version calls for and two event streams ended by `LAST`. The client
sends its version only once the magic word and the version have been read and accepted. A
factory call that raises sets the flag: an `Error` of the greeting is raised wrapped in
"cannot open connection to remote store", while one from opening the transport, and one
from `setOptions`, go through as they are. The flag stays set for the rest of any run, and
once it is set the factory raises "previously failed" and opens nothing. -/
theorem factory_opens_only_greeted_connections (cfg : Config) :
    (∀ {s s' : StoreState} {c : Connection}, factory cfg s = .ok c s' →
      s.failed = false ∧ ∃ c₀ v nv t E₁ E₂ rest, cfg.openConnection s.opened = .ok c₀ ∧
        VersionOk cfg.P v ∧ DaemonInfoValid cfg.P v nv t ∧
        (∀ e ∈ E₁ ++ E₂, e.valid cfg.P none none) ∧
        c₀.from_ = greetingBytes cfg.P v nv t E₁ E₂ ++ rest ∧
        c = c₀.afterOpening cfg v nv t rest ∧ s' = { s with opened := s.opened + 1, fx := s'.fx }) ∧
    (∀ st : ConnState,
      (GreetingStart cfg.P st.conn.from_ →
        (resultState (handshake cfg st)).conn.to_ = st.conn.to_ ++ clientGreeting cfg.P) ∧
      (¬GreetingStart cfg.P st.conn.from_ →
        (resultState (handshake cfg st)).conn.to_ = st.conn.to_ ++ writeNum cfg.P.workerMagic1)) ∧
    (∀ {s s' : StoreState} {e : Exn}, factory cfg s = .error e s' →
      s'.failed = true ∧
        ((s.failed = true ∧ e = Exn.fail (previouslyFailedMsg cfg) ∧ s' = s) ∨
         (s.failed = false ∧ cfg.openConnection s.opened = .error e) ∨
         (s.failed = false ∧ ∃ c₀ e₀ st, cfg.openConnection s.opened = .ok c₀ ∧
            handshake cfg ⟨c₀, s.fx⟩ = .error e₀ st ∧
            e = if e₀.isError then Exn.fail (openErrorMsg cfg e₀) else e₀) ∨
         (s.failed = false ∧ ∃ c₀ st st', cfg.openConnection s.opened = .ok c₀ ∧
            handshake cfg ⟨c₀, s.fx⟩ = .ok () st ∧ setOptions cfg st = .error e st'))) ∧
    (cfg.Keeps → ∀ calls : List Call, (∀ c ∈ calls, c.CallerKeeps) →
      ∀ s, s.failed = true → (runCalls cfg calls s).failed = true) ∧
    (∀ s : StoreState, s.failed = true →
      factory cfg s = .error (Exn.fail (previouslyFailedMsg cfg)) s) :=
  ⟨factory_ok cfg, handshake_writes cfg, factory_error cfg, runCalls_failed cfg,
    fun _ => factory_previouslyFailed cfg⟩

/-- An error from opening the transport is an `Error` raised before `setOptions`, and it
is not wrapped: the first connection of a store with no daemon to reach. -/
theorem factory_connect_error_unwrapped :
    (outcome (factory (Config.scenario [] 1 1000)
      (StoreState.init (Config.scenario [] 1 1000) 0 []))).1 =
      some (.sysError 111 (txt "cannot connect to daemon")) ∧
    (Exn.sysError 111 (txt "cannot connect to daemon")).isError = true := by
  decide

end NixRemoteStore
