import NixRemoteStore.Greeting
import NixRemoteStore.Operations

/-! # Adding store objects

`addCAToStore`, `addToStore` and both overloads of `addMultipleToStore`, with the capacity
window a framed dump runs in and the version gates read off other handles. -/

namespace NixRemoteStore

open Wire

/-- `dump.drain()`: the bytes of the dump's chunks, in order; a step that calls the store runs
while the caller holds its handle. -/
def drainDump : List ProducerStep → HandleM Bytes
  | [] => pure []
  | .chunk d :: ps => do
    let rest ← drainDump ps
    pure (d ++ rest)
  | .call m :: ps => do
    onStore m
    drainDump ps
  | .raise e :: _ => throw e

def drainDumpInto : List ProducerStep → HandleM Unit
  | [] => pure ()
  | .chunk d :: ps => do
    onConn (writeTo d)
    drainDumpInto ps
  | .call m :: ps => do
    onStore m
    drainDumpInto ps
  | .raise e :: _ => throw e

/-- `connections->incCapacity()`, then `m`, then the `Finally` that calls `decCapacity()`
however `m` ends. -/
def withRoom {α : Type} (m : HandleM α) : HandleM α := fun hs =>
  match m { hs with store := { hs.store with pool := hs.store.pool.incCapacity } } with
  | .ok a hs' => .ok a { hs' with store := { hs'.store with pool := hs'.store.pool.decCapacity } }
  | .error e hs' =>
    .error e { hs' with store := { hs'.store with pool := hs'.store.pool.decCapacity } }

def StoreState.minor24 : StoreState := StoreState.withIdle (Connection.greeted 0x118 [])

/-- `ValidPathInfo`, with the fields `addToStore` sends. Store paths are their printed forms;
the hash and the content address are the texts the request carries
(`narHash.to_string(Base16, false)` and `renderContentAddress(ca)`). -/
structure ValidPathInfo where
  path : Bytes
  deriver : Option Bytes
  narHash : Bytes
  references : List Bytes
  registrationTime : Nat
  narSize : Nat
  ultimate : Bool
  sigs : List Bytes
  ca : Bytes
  deriving DecidableEq, Repr

def ValidPathInfo.request (info : ValidPathInfo) (repair checkSigs : Bool) : Bytes :=
  writeString info.path ++ writeString (info.deriver.getD []) ++ writeString info.narHash ++
    storePaths.encode info.references ++ writeNum info.registrationTime ++ writeNum info.narSize ++
    writeBool info.ultimate ++ (Codec.list Codec.string).encode info.sigs ++ writeString info.ca ++
    writeBool repair ++ writeBool !checkSigs

section Add
variable (cfg : Config)

/-- Modelled from the spec: `Store::queryPathInfo`, without the facade's cache: the daemon's
answer, and an error when the path is not valid. -/
def queryPathInfo (path : Bytes) : StoreM Bytes := do
  match ← queryPathInfoUncached cfg path with
  | some info => pure info
  | none => throw (Exn.fail (txt "path '" ++ path ++ txt "' is not valid"))

/-- The `catch (SysError & e)` of the file branch of `addCAToStore`: after a broken pipe, one
more drain to surface the daemon's error, ignoring its end-of-file; then the exception caught,
unless the drain raised another. -/
def afterSendFailure (e : Exn) : HandleM Unit :=
  match e with
  | .sysError errNo _ =>
    if errNo = EPIPE then do
      tryCatch (handleProcessStderr cfg none none true) fun e' =>
        match e' with
        | .endOfFile _ => pure ()
        | _ => throw e'
      throw e
    else throw e
  | _ => throw e

/-- What `addCAToStore` does while it holds its handle: from minor 25 on, the whole exchange,
ending with the path info the daemon sends; before, the request, ending with the path the
daemon names (taken as it is read). -/
def addCAToStoreHeld (dump : List ProducerStep) (name : Bytes) (caMethod : ContentAddressMethod)
    (hashType : HashType) (references : List Bytes) (repair : Bool) : HandleM (Bytes ⊕ Bytes) := do
  let hs ← get
  if 25 ≤ getProtocolMinor hs.conn.daemonVersion then
    writeRequest cfg .addToStore (writeString name ++ writeString (cfg.P.renderCA caMethod hashType) ++
      storePaths.encode references ++ writeBool repair)
    withRoom (withFramedSink cfg dump)
    Sum.inl <$> readReply cfg.P.validPathInfo
  else
    if repair then
      throw (Exn.fail
        (txt "repairing is not supported when building through the Nix daemon protocol < 1.25"))
    match caMethod with
    | .text =>
      if hashType ≠ .sha256 then
        throw (.unimplemented (txt "When adding text-hashed data called '" ++ name ++
          txt "', only SHA-256 is supported but '" ++ cfg.P.printHashType hashType ++
          txt "' was given"))
      let s ← drainDump dump
      writeRequest cfg .addTextToStore (writeString name ++ writeString s ++
        storePaths.encode references)
      handleProcessStderr cfg none none true
    | .file fim =>
      writeRequest cfg .addToStore (writeString name ++
        writeNum (if hashType = .sha256 ∧ fim = .recursive then 0 else 1) ++
        writeNum (if fim = .recursive then 1 else 0) ++ writeString (cfg.P.printHashType hashType))
      tryCatch
        (do
          withRoom (match fim with
            | .recursive => drainDumpInto dump
            | .flat => do
              let contents ← drainDump dump
              onConn (writeTo (cfg.P.dumpString contents)))
          handleProcessStderr cfg none none true)
        (afterSendFailure cfg)
    Sum.inr <$> onConn (readFrom readString)

/-- `RemoteStore::addCAToStore`: the path info from the daemon, or, before minor 25, the
path the daemon names, looked up once the handle is dropped. -/
def addCAToStore (dump : List ProducerStep) (name : Bytes) (caMethod : ContentAddressMethod)
    (hashType : HashType) (references : List Bytes) (repair : Bool) : StoreM Bytes := do
  match ← withConnection cfg (addCAToStoreHeld cfg dump name caMethod hashType references repair) with
  | .inl info => pure info
  | .inr path => queryPathInfo cfg path

/-- What `addToStore` does while it holds its handle: the request, then the archive, framed
from minor 23 on (the steps are what `copyNAR(source, sink)` does), before that pulled by the
daemon from the source through the stderr loop. -/
def addToStoreHeld (info : ValidPathInfo) (nar : List ProducerStep) (source : Source)
    (repair checkSigs : Bool) : HandleM Unit := do
  writeRequest cfg .addToStoreNar (info.request repair checkSigs)
  let hs ← get
  if 23 ≤ getProtocolMinor hs.conn.daemonVersion then withFramedSink cfg nar
  else handleProcessStderr cfg none (some source) true

def addToStore (info : ValidPathInfo) (nar : List ProducerStep) (source : Source)
    (repair checkSigs : Bool) : StoreM Unit :=
  withConnection cfg (addToStoreHeld cfg info nar source repair checkSigs)

/-- `RemoteStore::addMultipleToStore(source, repair, checkSigs)`. The version is read through
a temporary handle, `getConnection()->daemonVersion`, given back at the end of the condition;
the request goes out through the handle taken after it. -/
def addMultipleToStore (source : List ProducerStep) (repair checkSigs : Bool) : StoreM Unit := do
  let v ← withConnection cfg do
    let hs ← get
    pure hs.conn.daemonVersion
  if 32 ≤ getProtocolMinor v then
    withConnection cfg do
      writeRequest cfg .addMultipleToStore (writeBool repair ++ writeBool !checkSigs)
      withFramedSink cfg source
  else cfg.storeAddMultipleToStore source repair checkSigs

/-- `add_multiple_to_store` as §4.6 of the spec reads, with the version taken from the handle
that sends the request: the framed stream from minor 32 on, else the base class's loop once
the handle is given back. -/
def addMultipleToStoreOnCarrier (source : List ProducerStep) (repair checkSigs : Bool) :
    StoreM Unit := do
  let sent ← withConnection cfg do
    let hs ← get
    if 32 ≤ getProtocolMinor hs.conn.daemonVersion then
      writeRequest cfg .addMultipleToStore (writeBool repair ++ writeBool !checkSigs)
      withFramedSink cfg source
      pure true
    else pure false
  if !sent then cfg.storeAddMultipleToStore source repair checkSigs

/-- The source `addMultipleToStore(pathsToCopy, ...)` builds with `sinkToSource`: the number
of paths, then each path's info as the worker protocol writes it at version `v` (`writeInfo v`,
not in the sources), followed by its archive. -/
def pathsSource (writeInfo : Nat → ValidPathInfo → Bytes) (v : Nat)
    (pathsToCopy : List (ValidPathInfo × List ProducerStep)) : List ProducerStep :=
  .chunk (writeNum pathsToCopy.length) :: pathsToCopy.flatMap fun p => .chunk (writeInfo v p.1) :: p.2

/-- `RemoteStore::addMultipleToStore(pathsToCopy, act, repair, checkSigs)`: the records are
written at the version of `getProtocol()`, and the stream is sent by the overload above. -/
def addMultipleToStorePaths (writeInfo : Nat → ValidPathInfo → Bytes)
    (pathsToCopy : List (ValidPathInfo × List ProducerStep)) (repair checkSigs : Bool) :
    StoreM Unit := do
  let remoteVersion ← getProtocol cfg
  addMultipleToStore cfg (pathsSource writeInfo remoteVersion pathsToCopy) repair checkSigs

/-- The same, with both gates read on the handle that sends the request. -/
def addMultipleToStorePathsOnCarrier (writeInfo : Nat → ValidPathInfo → Bytes)
    (pathsToCopy : List (ValidPathInfo × List ProducerStep)) (repair checkSigs : Bool) :
    StoreM Unit := do
  let v ← withConnection cfg do
    let hs ← get
    if 32 ≤ getProtocolMinor hs.conn.daemonVersion then
      writeRequest cfg .addMultipleToStore (writeBool repair ++ writeBool !checkSigs)
      withFramedSink cfg (pathsSource writeInfo hs.conn.daemonVersion pathsToCopy)
      pure none
    else pure (some hs.conn.daemonVersion)
  match v with
  | none => pure ()
  | some v => cfg.storeAddMultipleToStore (pathsSource writeInfo v pathsToCopy) repair checkSigs

theorem withConnection_escape_drops {α : Type} (body : HandleM α) {s s₁ : StoreState}
    {c : Connection} {e : Exn} {hs : HandleState} (hget : poolGet cfg s = .ok c s₁)
    (hbody : body ⟨s₁, c, false⟩ = .error e hs) (hd : hs.daemonException = false) :
    withConnection cfg body s =
      .error e { hs.store with pool := { hs.store.pool with inUse := hs.store.pool.inUse - 1 } } := by
  rw [withConnection_ok_get cfg hget, hbody]
  simp [hd, StoreState.giveBack, Pool.release]

/-- When an exception escapes a `ConnectionHandle`, the destructor poisons the connection
unless the handle rethrew it from the daemon: a poisoned connection is closed, whether or not
any byte was written; one that saw the daemon's error goes back to the pool and stays there
while the validator accepts it. -/
theorem withConnection_poisons_unless_daemon_error {α : Type} (body : HandleM α)
    {s s₁ : StoreState} {c : Connection} {e : Exn} {hs : HandleState}
    (hget : poolGet cfg s = .ok c s₁) (hbody : body ⟨s₁, c, false⟩ = .error e hs) :
    withConnection cfg body s = .error e { hs.store with pool := { hs.store.pool with
      idle := if hs.daemonException && validator cfg hs.store.now hs.conn then
        hs.conn :: hs.store.pool.idle else hs.store.pool.idle,
      inUse := hs.store.pool.inUse - 1 } } := by
  rw [withConnection_ok_get cfg hget, hbody]
  simp only [StoreState.giveBack, Pool.release, Bool.not_not]

/-- A connection at minor 37 whose daemon answers with an `ERROR` record. -/
def Connection.sendsError : Connection :=
  Connection.greeted 0x125
    (Terminal.encode Protocol.scenario (.error (ErrorInfo.ofMsg (txt "boom") 1)))

theorem withConnection_poisons_unless_daemon_error_minor37 :
    ∃ e hs, handleProcessStderr (Config.scenario [] 1 1000) none none true
        ⟨{ StoreState.withIdle Connection.sendsError with pool := ⟨[], 1, 1⟩ },
          Connection.sendsError, false⟩ = .error e hs ∧ hs.daemonException = true ∧
      withConnection (Config.scenario [] 1 1000)
          (handleProcessStderr (Config.scenario [] 1 1000) none none true)
          (StoreState.withIdle Connection.sendsError) =
        .error e { hs.store with pool := { hs.store.pool with
          idle := if hs.daemonException && validator (Config.scenario [] 1 1000) hs.store.now hs.conn
            then hs.conn :: hs.store.pool.idle else hs.store.pool.idle,
          inUse := hs.store.pool.inUse - 1 } } :=
  ⟨_, _, rfl, rfl, withConnection_poisons_unless_daemon_error _ _ rfl rfl⟩

/-- Below minor 25, `addCAToStore` drains a text dump while it holds its handle and outside a
capacity window. When the handle took the last slot of the pool, a dump that calls the store
asks for a second connection while the only one is held, and waits for good. -/
theorem addCAToStore_text_dump_blocks {s s₁ : StoreState} {c : Connection}
    (hget : poolGet cfg s = .ok c s₁) (hv : getProtocolMinor c.daemonVersion < 25)
    (hidle : s₁.pool.idle = []) (hfull : s₁.pool.max ≤ s₁.pool.inUse)
    (body : HandleM Unit) (ps : List ProducerStep) (name : Bytes) (references : List Bytes) :
    (outcome (addCAToStore cfg (.call (withConnection cfg body) :: ps) name .text .sha256
      references false s)).1 = some .blocked := by
  have hheld : addCAToStoreHeld cfg (.call (withConnection cfg body) :: ps) name .text .sha256
      references false ⟨s₁, c, false⟩ = .error .blocked ⟨s₁, c, false⟩ := by
    simp [addCAToStoreHeld, Nat.not_le.mpr hv, drainDump, onStore,
      withConnection_error_get cfg (poolGet_full cfg hidle hfull)]
  simp [addCAToStore, withConnection_ok_get cfg hget, hheld, outcome]

theorem addCAToStore_text_dump_blocks_minor24 :
    poolGet (Config.scenario [] 1 1000) StoreState.minor24 =
      .ok (Connection.greeted 0x118 []) { StoreState.minor24 with pool := ⟨[], 1, 1⟩ } ∧
    getProtocolMinor 0x118 < 25 ∧
    (outcome (addCAToStore (Config.scenario [] 1 1000)
      [.call (withConnection (Config.scenario [] 1 1000) (pure ())), .chunk (txt "hello")]
      (txt "hello.txt") .text .sha256 [] false StoreState.minor24)).1 = some .blocked :=
  ⟨rfl, by decide, @addCAToStore_text_dump_blocks (Config.scenario [] 1 1000) StoreState.minor24
    { StoreState.minor24 with pool := ⟨[], 1, 1⟩ } (Connection.greeted 0x118 []) rfl (by decide) rfl
    (by decide) _ _ _ _⟩

theorem addCAToStore_repair_drops_connection {s s₁ : StoreState} {c : Connection}
    (hget : poolGet cfg s = .ok c s₁) (hv : getProtocolMinor c.daemonVersion < 25)
    (dump : List ProducerStep) (name : Bytes) (caMethod : ContentAddressMethod)
    (hashType : HashType) (references : List Bytes) :
    addCAToStoreHeld cfg dump name caMethod hashType references true ⟨s₁, c, false⟩ =
      .error (Exn.fail
        (txt "repairing is not supported when building through the Nix daemon protocol < 1.25"))
        ⟨s₁, c, false⟩ ∧
    addCAToStore cfg dump name caMethod hashType references true s =
      .error (Exn.fail
        (txt "repairing is not supported when building through the Nix daemon protocol < 1.25"))
        { s₁ with pool := { s₁.pool with inUse := s₁.pool.inUse - 1 } } := by
  have hheld : addCAToStoreHeld cfg dump name caMethod hashType references true ⟨s₁, c, false⟩ =
      .error (Exn.fail
        (txt "repairing is not supported when building through the Nix daemon protocol < 1.25"))
        ⟨s₁, c, false⟩ := by
    simp [addCAToStoreHeld, Nat.not_le.mpr hv]
  exact ⟨hheld, by simp only [addCAToStore, run_bind, withConnection_escape_drops cfg _ hget hheld rfl]⟩

theorem addCAToStore_repair_drops_connection_minor24 :
    poolGet (Config.scenario [] 1 1000) StoreState.minor24 =
      .ok (Connection.greeted 0x118 []) { StoreState.minor24 with pool := ⟨[], 1, 1⟩ } ∧
    getProtocolMinor 0x118 < 25 ∧
    validator (Config.scenario [] 1 1000) StoreState.minor24.now (Connection.greeted 0x118 []) = true ∧
    addCAToStoreHeld (Config.scenario [] 1 1000) [] (txt "x") (.file .recursive) .sha256 [] true
        ⟨{ StoreState.minor24 with pool := ⟨[], 1, 1⟩ }, Connection.greeted 0x118 [], false⟩ =
      .error (Exn.fail
        (txt "repairing is not supported when building through the Nix daemon protocol < 1.25"))
        ⟨{ StoreState.minor24 with pool := ⟨[], 1, 1⟩ }, Connection.greeted 0x118 [], false⟩ ∧
    addCAToStore (Config.scenario [] 1 1000) [] (txt "x") (.file .recursive) .sha256 [] true
        StoreState.minor24 =
      .error (Exn.fail
        (txt "repairing is not supported when building through the Nix daemon protocol < 1.25"))
        { StoreState.minor24 with pool := ⟨[], 0, 1⟩ } :=
  ⟨rfl, by decide, rfl, @addCAToStore_repair_drops_connection (Config.scenario [] 1 1000)
    StoreState.minor24 { StoreState.minor24 with pool := ⟨[], 1, 1⟩ } (Connection.greeted 0x118 [])
    rfl (by decide) _ _ _ _ _⟩

theorem addMultipleToStore_eq {s s₁ : StoreState} {c : Connection}
    (hget : poolGet cfg s = .ok c s₁) (source : List ProducerStep) (repair checkSigs : Bool) :
    addMultipleToStore cfg source repair checkSigs s =
      if 32 ≤ getProtocolMinor c.daemonVersion then
        withConnection cfg (do
          writeRequest cfg .addMultipleToStore (writeBool repair ++ writeBool !checkSigs)
          withFramedSink cfg source) (s₁.giveBack cfg c false)
      else cfg.storeAddMultipleToStore source repair checkSigs (s₁.giveBack cfg c false) := by
  simp only [addMultipleToStore, run_bind, withConnection_ok_get cfg hget, run_get, run_pure]
  split_ifs <;> rfl

theorem withConnection_get_bind {α : Type} {f : HandleState → HandleM α} {s s₁ : StoreState}
    {c : Connection} (hget : poolGet cfg s = .ok c s₁) :
    withConnection cfg (get >>= f) s = withConnection cfg (f ⟨s₁, c, false⟩) s := by
  rw [withConnection_ok_get cfg hget, withConnection_ok_get cfg hget]
  rfl

theorem withConnection_map {α β : Type} (f : α → β) (body : HandleM α) (s : StoreState) :
    withConnection cfg (f <$> body) s = (f <$> withConnection cfg body) s := by
  rcases hg : poolGet cfg s with ⟨c, s₁⟩ | ⟨e, s₁⟩
  · rw [run_map, withConnection_ok_get cfg hg, withConnection_ok_get cfg hg, run_map]
    cases body ⟨s₁, c, false⟩ <;> rfl
  · rw [run_map, withConnection_error_get cfg hg, withConnection_error_get cfg hg]

theorem withConnection_giveBack_live {α : Type} {body : HandleM α} {s s₁ : StoreState}
    {c : Connection} (hget : poolGet cfg s = .ok c s₁) (hlive : validator cfg s₁.now c = true) :
    withConnection cfg body (s₁.giveBack cfg c false) = withConnection cfg body s := by
  rw [withConnection_ok_get cfg (poolGet_giveBack cfg hlive (poolGet_ok cfg hget).1),
    withConnection_ok_get cfg hget]

theorem addMultipleToStore_decides_on_carrier {s s₁ : StoreState} {c : Connection}
    (hget : poolGet cfg s = .ok c s₁) (hlive : validator cfg s₁.now c = true)
    (source : List ProducerStep) (repair checkSigs : Bool) :
    addMultipleToStore cfg source repair checkSigs s =
      addMultipleToStoreOnCarrier cfg source repair checkSigs s := by
  have hagain := poolGet_giveBack cfg hlive (poolGet_ok cfg hget).1
  simp only [addMultipleToStore, addMultipleToStoreOnCarrier, run_bind,
    withConnection_ok_get cfg hget, run_get, run_pure]
  split_ifs with hv
  · rw [withConnection_ok_get cfg hagain]
    simp only [run_bind]
    rcases writeRequest cfg .addMultipleToStore (writeBool repair ++ writeBool !checkSigs)
      ⟨s₁, c, false⟩ with ⟨⟨⟩, hs⟩ | ⟨e, hs⟩
    · dsimp only
      rcases withFramedSink cfg source hs with ⟨⟨⟩, hs'⟩ | ⟨e, hs'⟩ <;> rfl
    · rfl
  · rfl

theorem addMultipleToStorePaths_decides_on_carrier {s s₁ : StoreState} {c : Connection}
    (hget : poolGet cfg s = .ok c s₁) (hlive : validator cfg s₁.now c = true)
    (writeInfo : Nat → ValidPathInfo → Bytes)
    (pathsToCopy : List (ValidPathInfo × List ProducerStep)) (repair checkSigs : Bool) :
    addMultipleToStorePaths cfg writeInfo pathsToCopy repair checkSigs s =
      addMultipleToStorePathsOnCarrier cfg writeInfo pathsToCopy repair checkSigs s := by
  have hagain := poolGet_giveBack cfg hlive (poolGet_ok cfg hget).1
  rw [addMultipleToStorePaths, run_bind, getProtocol_ok_get cfg hget]
  dsimp only
  rw [addMultipleToStore_decides_on_carrier cfg hagain hlive]
  simp only [addMultipleToStoreOnCarrier, addMultipleToStorePathsOnCarrier, run_bind,
    withConnection_ok_get cfg hagain, withConnection_ok_get cfg hget, run_get]
  split_ifs with hv
  · simp only [run_bind]
    rcases writeRequest cfg .addMultipleToStore (writeBool repair ++ writeBool !checkSigs)
      ⟨s₁, c, false⟩ with ⟨⟨⟩, hs⟩ | ⟨e, hs⟩
    · dsimp only
      rcases withFramedSink cfg (pathsSource writeInfo c.daemonVersion pathsToCopy) hs with
        ⟨⟨⟩, hs'⟩ | ⟨e, hs'⟩ <;> rfl
    · rfl
  · rfl

end Add

/-- A daemon restarted at minor 31 between two connections of a store that reuses no
connection (`max-connection-age` 0): the first connection, at minor 32, would accept the
framed stream; the second refuses operation 44. -/
def Config.restarted : Config :=
  Config.scenario
    [greetingBytes Protocol.scenario 0x120 [] none [] [] ++ Terminal.encode Protocol.scenario .last,
      greetingBytes Protocol.scenario 0x11f [] none [] [] ++
        Terminal.encode Protocol.scenario (.error (ErrorInfo.ofMsg (txt "invalid operation 44") 1))]
    1 0

set_option maxRecDepth 2000 in
/-- `addMultipleToStore` reads minor 32 through its temporary handle, which is not reused, and
sends operation 44 through a fresh connection to a daemon of minor 31, which refuses it;
deciding on the carrying connection would have sent the stream to the daemon that accepts
it. -/
theorem addMultipleToStore_gate_reads_other_connection :
    (outcome (addMultipleToStore Config.restarted [] false true
      (StoreState.init Config.restarted 0 []))).1 =
      some (.error (ErrorInfo.ofMsg (txt "invalid operation 44") 1)) ∧
    (outcome (addMultipleToStoreOnCarrier Config.restarted [] false true
      (StoreState.init Config.restarted 0 []))).1 = none := by
  have h₁ := @poolGet_create Config.restarted (StoreState.init Config.restarted 0 []) _ _ rfl
    (by decide) (factory_greeting Config.restarted rfl rfl ⟨by decide, by decide, by decide⟩
      ⟨fun h => absurd h (by decide), fun h => absurd h (by decide)⟩ rfl)
  constructor
  · simp only [addMultipleToStore_eq _ h₁, Connection.afterOpening_daemonVersion]
    rw [if_pos (show 32 ≤ getProtocolMinor 0x120 by decide),
      withConnection_ok_get _ (poolGet_create _ ?hidle ?hroom ?hf)]
    case hf =>
      exact factory_greeting Config.restarted rfl rfl ⟨by decide, by decide, by decide⟩
        ⟨fun h => absurd h (by decide), fun h => absurd h (by decide)⟩ rfl
    case hidle => rfl
    case hroom => decide
    decide
  · simp only [addMultipleToStoreOnCarrier, run_bind, withConnection_ok_get _ h₁]
    decide

end NixRemoteStore
